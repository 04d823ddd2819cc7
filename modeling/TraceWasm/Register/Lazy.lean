import TraceWasm.Instruction.Block

/-!
# Lazily forwarded locals and spill slots

`local.get` moves nothing: the operand is recorded as a borrow of the local and
read in place by whatever consumes it. A write to the local first redirects
every borrow of it to a spill slot. Borrows of one value share an entry, so that
one update redirects them all, and the entry counts the stack slots holding it.
-/

namespace TraceWasm
namespace Register

/-- Where a borrowed value lives now. -/
inductive LazyLocation where
  /-- In the local it was borrowed from. -/
  | original (localIndex : Nat)
  /-- In a spill slot. -/
  | spilled (spillIndex : Nat)
  deriving DecidableEq

/-- The value one local held at one point. -/
structure LazyEntry where
  location : LazyLocation
  /-- Stack slots holding the entry. -/
  refCount : Nat
  deriving DecidableEq

/-- Every entry ever created, and for each local the entry now forwarding it. -/
structure LazyArena where
  arena : List LazyEntry
  origin : List (Option Nat)
  deriving DecidableEq

namespace LazyArena

/-- No local is borrowed. -/
def new (originCount : Nat) : LazyArena where
  arena := []
  origin := List.replicate originCount none

/-- A fresh entry forwarding a local, with one reference. -/
def allocate (arena : LazyArena) (location : Nat) : Nat × LazyArena :=
  (arena.arena.length,
    { arena with arena := arena.arena ++ [⟨.original location, 1⟩] })

/-- The entry that a slot is for. -/
def getEntry (arena : LazyArena) (slot : Nat) : Attempt ε LazyEntry :=
  .orPanic arena.arena[slot]?

/-- Where the entry's value lives, read afresh on every use. -/
def location (arena : LazyArena) (slot : Nat) : Attempt ε LazyLocation := do
  return (← arena.getEntry slot).location

/-- One more stack slot borrows the entry. -/
def advancedRefCount (arena : LazyArena) (slot : Nat) :
    Attempt ε LazyArena := do
  let entry ← arena.getEntry slot
  return { arena with
    arena := arena.arena.set slot { entry with refCount := entry.refCount + 1 } }

/-- Release one stack slot's hold. The flag says that it was the last. -/
def decreaseRefCount (arena : LazyArena) (slot : Nat) :
    Attempt ε (Bool × LazyArena) := do
  let entry ← arena.getEntry slot
  let refCount ← Attempt.sub entry.refCount 1
  return (refCount = 0, { arena with
    arena := arena.arena.set slot { entry with refCount } })

/-- Redirect the entry, and so every stack slot sharing it, to a spill slot. -/
def spill (arena : LazyArena) (slot spillIndex : Nat) :
    Attempt ε LazyArena := do
  let entry ← arena.getEntry slot
  match entry.location with
  | .original _ => return { arena with
      arena := arena.arena.set slot { entry with location := .spilled spillIndex } }
  | .spilled _ => Attempt.panicked

/-- The entry forwarding a local, if any. -/
def getOrigin (arena : LazyArena) (localIndex : Nat) :
    Attempt ε (Option Nat) :=
  .orPanic arena.origin[localIndex]?

/-- Say which entry holds the local now. -/
def setOrigin (arena : LazyArena) (localIndex : Nat) (slot : Option Nat) :
    Attempt ε LazyArena := do
  Attempt.assert (localIndex < arena.origin.length)
  return { arena with origin := arena.origin.set localIndex slot }

section

variable {arena : LazyArena}

/-- An entry that is there is found. -/
theorem getEntry_eq
    (found : arena.arena[slot]? = some entry) :
    (arena.getEntry slot : Attempt ε LazyEntry) = .ok entry := by
  rw [getEntry, found, Attempt.orPanic_some]

theorem location_eq
    (found : arena.arena[slot]? = some entry) :
    (arena.location slot : Attempt ε LazyLocation) = .ok entry.location := by
  rw [location, getEntry_eq found, Attempt.ok_bind, Attempt.pure_eq]

theorem advancedRefCount_eq
    (found : arena.arena[slot]? = some entry) :
    (arena.advancedRefCount slot : Attempt ε LazyArena) = .ok { arena with
      arena := arena.arena.set slot
        { entry with refCount := entry.refCount + 1 } } := by
  rw [advancedRefCount, getEntry_eq found, Attempt.ok_bind, Attempt.pure_eq]

/-- A borrow that ends is counted down. -/
theorem decreaseRefCount_eq
    (found : arena.arena[slot]? = some entry)
    (positive : 0 < entry.refCount) :
    (arena.decreaseRefCount slot : Attempt ε (Bool × LazyArena)) =
      .ok (entry.refCount - 1 = 0, { arena with
        arena := arena.arena.set slot
          { entry with refCount := entry.refCount - 1 } }) := by
  rw [decreaseRefCount, getEntry_eq found, Attempt.ok_bind,
    Attempt.sub_of_le (show 1 ≤ entry.refCount from positive), Attempt.ok_bind,
    Attempt.pure_eq]

/-- A borrow that is rescued is found in its spill slot. -/
theorem spill_eq
    (found : arena.arena[slot]? = some entry)
    (unspilled : entry.location = .original localIndex) :
    (arena.spill slot spillIndex : Attempt ε LazyArena) = .ok { arena with
      arena := arena.arena.set slot
        { entry with location := .spilled spillIndex } } := by
  rw [spill, getEntry_eq found, Attempt.ok_bind]
  simp only [unspilled, Attempt.pure_eq]

theorem getOrigin_eq
    (found : arena.origin[localIndex]? = some slot) :
    (arena.getOrigin localIndex : Attempt ε (Option Nat)) = .ok slot := by
  rw [getOrigin, found, Attempt.orPanic_some]

theorem setOrigin_mk
    {origin : List (Option Nat)}
    (entries : List LazyEntry)
    (inRange : localIndex < origin.length) :
    ((LazyArena.mk entries origin).setOrigin localIndex slot :
        Attempt ε LazyArena) =
      .ok ⟨entries, origin.set localIndex slot⟩ := by
  rw [setOrigin, Attempt.assert_of inRange, Attempt.ok_bind, Attempt.pure_eq]

end

end LazyArena

/-- The frame's spill slots. -/
structure SpillArena where
  /-- Slots ever handed out. -/
  allocationLen : Nat
  /-- Slots handed back, the last one first. -/
  freeSlots : List Nat
  deriving DecidableEq

namespace SpillArena

/-- The most spill slots that a frame can have. -/
def maxSpills : Nat := u16Max

/-- No spill slot is in use. -/
def empty : SpillArena := ⟨0, []⟩

/-- Reserve a slot, reusing a freed one when there is one. -/
def reserveSlot (spills : SpillArena) :
    Attempt TraceWasmError (Nat × SpillArena) :=
  match spills.freeSlots with
  | slot :: freeSlots => .ok (slot, { spills with freeSlots })
  | [] =>
      if spills.allocationLen ≥ maxSpills then
        .fail (.registerFrameTooLarge "spill slots"
          (spills.allocationLen + 1) maxSpills)
      else .ok (spills.allocationLen,
        { spills with allocationLen := spills.allocationLen + 1 })

/-- Return a slot once the last stack slot reading it is popped. -/
def freeSlot (spills : SpillArena) (slot : Nat) : SpillArena :=
  { spills with freeSlots := slot :: spills.freeSlots }

end SpillArena

end Register
end TraceWasm
