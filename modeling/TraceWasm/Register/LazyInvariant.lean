import TraceWasm.Register.OperandStack

/-!
# Consistency of the borrows and the spill slots

The invariant relates the simulated stack, the entries, the origin table and
the spill arena. Every operation on the operand stack preserves it, whatever
the operators that ask for them.
-/

namespace TraceWasm
namespace Register
namespace OperandStack

/-- The location of an entry, if there is such an entry. -/
def locationAt (operands : OperandStack) (slot : Nat) : Option LazyLocation :=
  operands.lazyLocals.arena[slot]?.map LazyEntry.location

/-- Some stack slot holds the entry. -/
def Live (operands : OperandStack) (slot : Nat) : Prop :=
  StackSlot.local slot ∈ operands.stack

/-- The borrows and the spill slots are consistent with the stack. -/
structure LazyInvariant (operands : OperandStack) : Prop where
  /-- A stack slot holds an entry that exists. -/
  entryExists : ∀ slot, operands.Live slot →
    slot < operands.lazyLocals.arena.length
  /-- An entry counts the stack slots that hold it. -/
  refCount : ∀ slot entry, operands.lazyLocals.arena[slot]? = some entry →
    entry.refCount = operands.stack.count (.local slot)
  /-- The origin table holds the live entries that read their local. -/
  origin : ∀ localIndex slot,
    operands.lazyLocals.origin[localIndex]? = some (some slot) ↔
      operands.Live slot ∧
        operands.locationAt slot = some (.original localIndex)
  /-- Live entries do not share a spill slot. -/
  spilledDistinct : ∀ spillIndex first second,
    operands.Live first → operands.Live second →
    operands.locationAt first = some (.spilled spillIndex) →
    operands.locationAt second = some (.spilled spillIndex) →
    first = second
  freeNodup : operands.spills.freeSlots.Nodup
  /-- A free slot is not a live one. -/
  freeDisjoint : ∀ slot spillIndex, operands.Live slot →
    operands.locationAt slot = some (.spilled spillIndex) →
    spillIndex ∉ operands.spills.freeSlots
  /-- Free and live slots together are those ever handed out. -/
  allocated : ∀ spillIndex,
    spillIndex < operands.spills.allocationLen ↔
      spillIndex ∈ operands.spills.freeSlots ∨
        ∃ slot, operands.Live slot ∧
          operands.locationAt slot = some (.spilled spillIndex)

/-- Nothing is borrowed at the beginning. -/
theorem lazyInvariant_new (localsCount : Nat) :
    (OperandStack.new localsCount).LazyInvariant where
  entryExists := by simp [Live, OperandStack.new]
  refCount := by simp [OperandStack.new, LazyArena.new]
  origin := by
    intro localIndex slot
    simp [Live, OperandStack.new, LazyArena.new, List.getElem?_replicate]
  spilledDistinct := by simp [Live, OperandStack.new]
  freeNodup := by simp [OperandStack.new, SpillArena.empty]
  freeDisjoint := by simp [Live, OperandStack.new]
  allocated := by simp [Live, OperandStack.new, SpillArena.empty]

namespace LazyInvariant

variable {operands : OperandStack}

/-- The entry a live slot refers to. -/
theorem entry_of_live
    (invariant : operands.LazyInvariant)
    (live : operands.Live slot) :
    ∃ entry, operands.lazyLocals.arena[slot]? = some entry ∧
      0 < entry.refCount := by
  have bound := invariant.entryExists slot live
  refine ⟨operands.lazyLocals.arena[slot], by simp [bound], ?_⟩
  rw [invariant.refCount slot _ (by simp [bound])]
  exact List.count_pos_iff.mpr live

/-- The invariant does not depend on the register counters. -/
theorem setCounters
    (invariant : operands.LazyInvariant)
    (currRegisterIndex maxRegisters : Nat) :
    LazyInvariant { operands with currRegisterIndex, maxRegisters } where
  entryExists := invariant.entryExists
  refCount := invariant.refCount
  origin := invariant.origin
  spilledDistinct := invariant.spilledDistinct
  freeNodup := invariant.freeNodup
  freeDisjoint := invariant.freeDisjoint
  allocated := invariant.allocated

/-- Entries that are not borrows may come and go. -/
theorem of_sameLocals
    (invariant : operands.LazyInvariant)
    (stack : List StackSlot)
    (sameCount : ∀ slot,
      stack.count (.local slot) = operands.stack.count (.local slot)) :
    LazyInvariant { operands with stack } := by
  have sameLive : ∀ slot,
      Live { operands with stack } slot ↔ operands.Live slot := by
    intro slot
    unfold Live
    rw [← List.count_pos_iff, ← List.count_pos_iff, sameCount]
  constructor
  · intro slot live
    exact invariant.entryExists slot ((sameLive slot).mp live)
  · intro slot entry found
    rw [sameCount]
    exact invariant.refCount slot entry found
  · intro localIndex slot
    rw [sameLive]
    exact invariant.origin localIndex slot
  · intro spillIndex first second firstLive secondLive
    exact invariant.spilledDistinct spillIndex first second
      ((sameLive first).mp firstLive) ((sameLive second).mp secondLive)
  · exact invariant.freeNodup
  · intro slot spillIndex live
    exact invariant.freeDisjoint slot spillIndex ((sameLive slot).mp live)
  · intro spillIndex
    simp only [sameLive]
    exact invariant.allocated spillIndex

/-- A constant or a register borrows nothing. -/
theorem pushOther
    (invariant : operands.LazyInvariant)
    (val : StackSlot)
    (other : ∀ slot, val ≠ .local slot) :
    LazyInvariant { operands with stack := val :: operands.stack } :=
  invariant.of_sameLocals _ fun slot => by
    rw [List.count_cons_of_ne (other slot)]

/-- Neither does popping one. -/
theorem popOther
    (invariant : operands.LazyInvariant)
    (val : StackSlot) (stack : List StackSlot)
    (top : operands.stack = val :: stack)
    (other : ∀ slot, val ≠ .local slot) :
    LazyInvariant { operands with stack } :=
  invariant.of_sameLocals _ fun slot => by
    rw [top, List.count_cons_of_ne (other slot)]

/-! ## Changes to the borrows

Each lemma takes the state before and the state after one kind of change. -/

section Change

variable {after : OperandStack}

/-- One more stack slot joins a live borrow. -/
theorem join
    (invariant : operands.LazyInvariant)
    {slot : Nat} {entry : LazyEntry}
    (live : operands.Live slot)
    (found : operands.lazyLocals.arena[slot]? = some entry)
    (stack : after.stack = .local slot :: operands.stack)
    (arena : after.lazyLocals.arena = operands.lazyLocals.arena.set slot
      { entry with refCount := entry.refCount + 1 })
    (origin : after.lazyLocals.origin = operands.lazyLocals.origin)
    (spills : after.spills = operands.spills) :
    after.LazyInvariant := by
  have bound := invariant.entryExists slot live
  have sameLocation : ∀ other, after.locationAt other = operands.locationAt other := by
    intro other
    unfold locationAt
    rw [arena]
    by_cases same : slot = other
    · subst same
      rw [List.getElem?_set_self bound, found]
      rfl
    · rw [List.getElem?_set_ne same]
  have sameLive : ∀ other, after.Live other ↔ operands.Live other := by
    intro other
    unfold Live at live ⊢
    simp only [stack, List.mem_cons, StackSlot.local.injEq, or_iff_right_iff_imp]
    rintro rfl
    exact live
  constructor
  · intro other otherLive
    rw [arena, List.length_set]
    exact invariant.entryExists other ((sameLive other).mp otherLive)
  · intro other otherEntry otherFound
    rw [arena] at otherFound
    rw [stack]
    by_cases same : slot = other
    · subst same
      rw [List.getElem?_set_self bound] at otherFound
      cases otherFound
      rw [List.count_cons_self, invariant.refCount slot entry found]
    · rw [List.getElem?_set_ne same] at otherFound
      rw [List.count_cons_of_ne (by simpa using same)]
      exact invariant.refCount other otherEntry otherFound
  · intro localIndex other
    rw [origin, sameLive, sameLocation]
    exact invariant.origin localIndex other
  · intro spillIndex first second
    rw [sameLive, sameLive, sameLocation, sameLocation]
    exact invariant.spilledDistinct spillIndex first second
  · rw [spills]
    exact invariant.freeNodup
  · intro other spillIndex
    rw [sameLive, sameLocation, spills]
    exact invariant.freeDisjoint other spillIndex
  · intro spillIndex
    simp only [sameLive, sameLocation, spills]
    exact invariant.allocated spillIndex

/-- A stack slot starts a borrow of a local that nothing borrows. -/
theorem start
    (invariant : operands.LazyInvariant)
    {localIndex : Nat}
    (unborrowed : operands.lazyLocals.origin[localIndex]? = some none)
    (stack : after.stack =
      .local operands.lazyLocals.arena.length :: operands.stack)
    (arena : after.lazyLocals.arena =
      operands.lazyLocals.arena ++ [⟨.original localIndex, 1⟩])
    (origin : after.lazyLocals.origin = operands.lazyLocals.origin.set localIndex
      (some operands.lazyLocals.arena.length))
    (spills : after.spills = operands.spills) :
    after.LazyInvariant := by
  have inRange : localIndex < operands.lazyLocals.origin.length :=
    (List.getElem?_eq_some_iff.mp unborrowed).1
  have liveOld : ∀ other, operands.Live other →
      other ≠ operands.lazyLocals.arena.length := by
    intro other otherLive same
    have := invariant.entryExists other otherLive
    omega
  have liveIff : ∀ other, after.Live other ↔
      other = operands.lazyLocals.arena.length ∨ operands.Live other := by
    intro other
    simp [Live, stack]
  have newLocation : after.locationAt operands.lazyLocals.arena.length =
      some (.original localIndex) := by
    simp [locationAt, arena]
  have oldLocation : ∀ other, operands.Live other →
      after.locationAt other = operands.locationAt other := by
    intro other otherLive
    unfold locationAt
    rw [arena, List.getElem?_append_left (invariant.entryExists other otherLive)]
  constructor
  · intro other otherLive
    rw [arena, List.length_append, List.length_singleton]
    rcases (liveIff other).mp otherLive with rfl | otherLive
    · omega
    · have := invariant.entryExists other otherLive
      omega
  · intro other otherEntry otherFound
    rw [arena] at otherFound
    rw [stack]
    by_cases same : other = operands.lazyLocals.arena.length
    · subst same
      simp only [List.getElem?_concat_length, Option.some.injEq] at otherFound
      subst otherFound
      rw [List.count_cons_self, List.count_eq_zero.mpr]
      exact fun live => liveOld _ live rfl
    · have bound := (List.getElem?_eq_some_iff.mp otherFound).1
      simp only [List.length_append, List.length_singleton] at bound
      rw [List.getElem?_append_left (by omega)] at otherFound
      rw [List.count_cons_of_ne (by simpa using Ne.symm same)]
      exact invariant.refCount other otherEntry otherFound
  · intro otherLocal other
    rw [origin, liveIff]
    by_cases sameLocal : localIndex = otherLocal
    · subst sameLocal
      rw [List.getElem?_set_self inRange]
      simp only [Option.some.injEq]
      constructor
      · rintro rfl
        exact ⟨.inl rfl, newLocation⟩
      · rintro ⟨rfl | otherLive, location⟩
        · rfl
        · rw [oldLocation other otherLive] at location
          have := (invariant.origin localIndex other).mpr ⟨otherLive, location⟩
          rw [unborrowed] at this
          cases this
    · rw [List.getElem?_set_ne sameLocal, invariant.origin]
      constructor
      · rintro ⟨otherLive, location⟩
        exact ⟨.inr otherLive, (oldLocation other otherLive).trans location⟩
      · rintro ⟨rfl | otherLive, location⟩
        · rw [newLocation] at location
          cases location
          exact absurd rfl sameLocal
        · exact ⟨otherLive, (oldLocation other otherLive).symm.trans location⟩
  · intro spillIndex first second firstLive secondLive firstAt secondAt
    rcases (liveIff first).mp firstLive with rfl | firstLive
    · rw [newLocation] at firstAt
      cases firstAt
    rcases (liveIff second).mp secondLive with rfl | secondLive
    · rw [newLocation] at secondAt
      cases secondAt
    rw [oldLocation first firstLive] at firstAt
    rw [oldLocation second secondLive] at secondAt
    exact invariant.spilledDistinct spillIndex first second firstLive secondLive
      firstAt secondAt
  · rw [spills]
    exact invariant.freeNodup
  · intro other spillIndex otherLive location
    rw [spills]
    rcases (liveIff other).mp otherLive with rfl | otherLive
    · rw [newLocation] at location
      cases location
    · rw [oldLocation other otherLive] at location
      exact invariant.freeDisjoint other spillIndex otherLive location
  · intro spillIndex
    rw [spills, invariant.allocated]
    refine or_congr_right ⟨?_, ?_⟩
    · rintro ⟨other, otherLive, location⟩
      exact ⟨other, (liveIff other).mpr (.inr otherLive),
        (oldLocation other otherLive).trans location⟩
    · rintro ⟨other, otherLive, location⟩
      rcases (liveIff other).mp otherLive with rfl | otherLive
      · rw [newLocation] at location
        cases location
      · exact ⟨other, otherLive, (oldLocation other otherLive).symm.trans location⟩

/-- What releasing one borrow leaves: every other entry keeps its count and its
location, and the released one is live if stack slots still hold it. -/
structure Released (operands after : OperandStack) (slot : Nat) : Prop where
  stack : operands.stack = .local slot :: after.stack
  arena : ∀ entry, operands.lazyLocals.arena[slot]? = some entry →
    after.lazyLocals.arena = operands.lazyLocals.arena.set slot
      { entry with refCount := entry.refCount - 1 }

namespace Released

/-- Releasing a borrow leaves every location. -/
theorem sameLocation
    (invariant : operands.LazyInvariant)
    (released : Released operands after slot)
    (other : Nat) :
    after.locationAt other = operands.locationAt other := by
  have live : operands.Live slot := by simp [Live, released.stack]
  obtain ⟨entry, found, _⟩ := invariant.entry_of_live live
  unfold locationAt
  rw [released.arena entry found]
  by_cases same : slot = other
  · subst same
    rw [List.getElem?_set_self (invariant.entryExists slot live), found]
    rfl
  · rw [List.getElem?_set_ne same]

/-- A borrow that is live was live before. -/
theorem live_of_live
    (released : Released operands after slot)
    (live : after.Live other) :
    operands.Live other := by
  unfold Live
  rw [released.stack]
  exact List.mem_cons_of_mem _ live

/-- Other borrows stay as they are. -/
theorem live_iff_of_ne
    (released : Released operands after slot)
    (different : other ≠ slot) :
    after.Live other ↔ operands.Live other := by
  simp [Live, released.stack, different]

theorem entryExists
    (invariant : operands.LazyInvariant)
    (released : Released operands after slot)
    (other : Nat) (otherLive : after.Live other) :
    other < after.lazyLocals.arena.length := by
  have live : operands.Live slot := by simp [Live, released.stack]
  obtain ⟨entry, found, _⟩ := invariant.entry_of_live live
  rw [released.arena entry found, List.length_set]
  exact invariant.entryExists other (released.live_of_live otherLive)

theorem refCount
    (invariant : operands.LazyInvariant)
    (released : Released operands after slot)
    (other : Nat) (otherEntry : LazyEntry)
    (otherFound : after.lazyLocals.arena[other]? = some otherEntry) :
    otherEntry.refCount = after.stack.count (.local other) := by
  have live : operands.Live slot := by simp [Live, released.stack]
  obtain ⟨entry, found, _⟩ := invariant.entry_of_live live
  rw [released.arena entry found] at otherFound
  have counted := fun entry => invariant.refCount other entry
  rw [released.stack] at counted
  by_cases same : slot = other
  · subst same
    rw [List.getElem?_set_self (invariant.entryExists slot live)] at otherFound
    cases otherFound
    have := counted entry found
    rw [List.count_cons_self] at this
    change entry.refCount - 1 = _
    omega
  · rw [List.getElem?_set_ne same] at otherFound
    rw [counted otherEntry otherFound, List.count_cons_of_ne (by simpa using same)]

theorem spilledDistinct
    (invariant : operands.LazyInvariant)
    (released : Released operands after slot)
    (spillIndex first second : Nat)
    (firstLive : after.Live first) (secondLive : after.Live second)
    (firstAt : after.locationAt first = some (.spilled spillIndex))
    (secondAt : after.locationAt second = some (.spilled spillIndex)) :
    first = second := by
  rw [released.sameLocation invariant] at firstAt secondAt
  exact invariant.spilledDistinct spillIndex first second
    (released.live_of_live firstLive) (released.live_of_live secondLive)
    firstAt secondAt

end Released

/-- Release a borrow that other stack slots still hold. -/
theorem releaseShared
    (invariant : operands.LazyInvariant)
    (released : Released operands after slot)
    (shared : after.Live slot)
    (origin : after.lazyLocals.origin = operands.lazyLocals.origin)
    (spills : after.spills = operands.spills) :
    after.LazyInvariant := by
  have sameLocation := released.sameLocation invariant
  have sameLive : ∀ other, after.Live other ↔ operands.Live other := by
    intro other
    by_cases same : other = slot
    · subst same
      exact ⟨released.live_of_live, fun _ => shared⟩
    · exact released.live_iff_of_ne same
  constructor
  · exact released.entryExists invariant
  · exact released.refCount invariant
  · intro localIndex other
    rw [origin, sameLive, sameLocation]
    exact invariant.origin localIndex other
  · exact released.spilledDistinct invariant
  · rw [spills]
    exact invariant.freeNodup
  · intro other spillIndex
    rw [sameLive, sameLocation, spills]
    exact invariant.freeDisjoint other spillIndex
  · intro spillIndex
    simp only [sameLive, sameLocation, spills]
    exact invariant.allocated spillIndex

/-- Release the last borrow of a local, which clears its origin. -/
theorem releaseOriginal
    (invariant : operands.LazyInvariant)
    (released : Released operands after slot)
    (last : ¬after.Live slot)
    (location : operands.locationAt slot = some (.original localIndex))
    (origin : after.lazyLocals.origin =
      operands.lazyLocals.origin.set localIndex none)
    (spills : after.spills = operands.spills) :
    after.LazyInvariant := by
  have sameLocation := released.sameLocation invariant
  have liveSlot : operands.Live slot := by simp [Live, released.stack]
  have heldBy := (invariant.origin localIndex slot).mpr ⟨liveSlot, location⟩
  have liveIff : ∀ other, after.Live other ↔ other ≠ slot ∧ operands.Live other := by
    intro other
    by_cases same : other = slot
    · subst same
      simp [last]
    · simp [released.live_iff_of_ne same, same]
  constructor
  · exact released.entryExists invariant
  · exact released.refCount invariant
  · intro otherLocal other
    rw [origin, liveIff, sameLocation]
    by_cases sameLocal : localIndex = otherLocal
    · subst sameLocal
      rw [List.getElem?_set_self (List.getElem?_eq_some_iff.mp heldBy).1]
      simp only [Option.some.injEq, reduceCtorEq, false_iff, not_and]
      rintro ⟨different, otherLive⟩ otherLocation
      have otherHeld :=
        (invariant.origin localIndex other).mpr ⟨otherLive, otherLocation⟩
      rw [heldBy] at otherHeld
      cases otherHeld
      exact different rfl
    · rw [List.getElem?_set_ne sameLocal, invariant.origin]
      constructor
      · rintro ⟨otherLive, otherLocation⟩
        refine ⟨⟨?_, otherLive⟩, otherLocation⟩
        rintro rfl
        rw [location] at otherLocation
        cases otherLocation
        exact sameLocal rfl
      · rintro ⟨⟨_, otherLive⟩, otherLocation⟩
        exact ⟨otherLive, otherLocation⟩
  · exact released.spilledDistinct invariant
  · rw [spills]
    exact invariant.freeNodup
  · intro other spillIndex otherLive
    rw [sameLocation, spills]
    exact invariant.freeDisjoint other spillIndex (released.live_of_live otherLive)
  · intro spillIndex
    simp only [liveIff, sameLocation, spills, invariant.allocated]
    refine or_congr_right ⟨?_, ?_⟩
    · rintro ⟨other, otherLive, otherLocation⟩
      refine ⟨other, ⟨?_, otherLive⟩, otherLocation⟩
      rintro rfl
      rw [location] at otherLocation
      cases otherLocation
    · rintro ⟨other, ⟨_, otherLive⟩, otherLocation⟩
      exact ⟨other, otherLive, otherLocation⟩

/-- Release the last borrow of a spilled value, which frees its slot. -/
theorem releaseSpilled
    (invariant : operands.LazyInvariant)
    (released : Released operands after slot)
    (last : ¬after.Live slot)
    (location : operands.locationAt slot = some (.spilled spillIndex))
    (origin : after.lazyLocals.origin = operands.lazyLocals.origin)
    (spills : after.spills = operands.spills.freeSlot spillIndex) :
    after.LazyInvariant := by
  have sameLocation := released.sameLocation invariant
  have liveSlot : operands.Live slot := by simp [Live, released.stack]
  have liveIff : ∀ other, after.Live other ↔ other ≠ slot ∧ operands.Live other := by
    intro other
    by_cases same : other = slot
    · subst same
      simp [last]
    · simp [released.live_iff_of_ne same, same]
  constructor
  · exact released.entryExists invariant
  · exact released.refCount invariant
  · intro localIndex other
    rw [origin, liveIff, sameLocation, invariant.origin]
    refine and_congr_left fun otherLocation => ?_
    simp only [ne_eq, iff_and_self]
    rintro _ rfl
    rw [location] at otherLocation
    cases otherLocation
  · exact released.spilledDistinct invariant
  · rw [spills]
    exact List.nodup_cons.mpr
      ⟨invariant.freeDisjoint slot spillIndex liveSlot location,
        invariant.freeNodup⟩
  · intro other otherSpill otherLive otherLocation
    rw [sameLocation] at otherLocation
    obtain ⟨different, otherLive⟩ := (liveIff other).mp otherLive
    rw [spills]
    simp only [SpillArena.freeSlot, List.mem_cons, not_or]
    refine ⟨?_, invariant.freeDisjoint other otherSpill otherLive otherLocation⟩
    rintro rfl
    exact different (invariant.spilledDistinct _ other slot otherLive liveSlot
      otherLocation location)
  · intro otherSpill
    simp only [liveIff, sameLocation, spills, SpillArena.freeSlot, List.mem_cons,
      invariant.allocated]
    constructor
    · rintro (free | ⟨other, otherLive, otherLocation⟩)
      · exact .inl (.inr free)
      · by_cases same : other = slot
        · subst same
          rw [location] at otherLocation
          cases otherLocation
          exact .inl (.inl rfl)
        · exact .inr ⟨other, ⟨same, otherLive⟩, otherLocation⟩
    · rintro ((rfl | free) | ⟨other, ⟨_, otherLive⟩, otherLocation⟩)
      · exact .inr ⟨slot, liveSlot, location⟩
      · exact .inl free
      · exact .inr ⟨other, otherLive, otherLocation⟩

/-- What reserving a spill slot gives: one that no live entry has, and spill
slots that account for it. -/
structure Reserved
    (operands : OperandStack) (spillIndex : Nat) (spills : SpillArena) :
    Prop where
  unused : ∀ slot, operands.Live slot →
    operands.locationAt slot ≠ some (.spilled spillIndex)
  mem_free : ∀ index, index ∈ spills.freeSlots ↔
    index ∈ operands.spills.freeSlots ∧ index ≠ spillIndex
  freeNodup : spills.freeSlots.Nodup
  allocated : ∀ index, index < spills.allocationLen ↔
    index < operands.spills.allocationLen ∨ index = spillIndex

/-- A spill slot that is reserved was free. -/
theorem reserved
    (invariant : operands.LazyInvariant)
    {spills : SpillArena}
    (returned : operands.spills.reserveSlot = .ok (spillIndex, spills)) :
    Reserved operands spillIndex spills := by
  have nodup := invariant.freeNodup
  unfold SpillArena.reserveSlot at returned
  split at returned
  -- a freed slot is reused
  · rename_i reused freeSlots free
    cases returned
    rw [free, List.nodup_cons] at nodup
    refine ⟨?_, ?_, nodup.2, ?_⟩
    · intro other otherLive otherLocation
      have := invariant.freeDisjoint other _ otherLive otherLocation
      simp [free] at this
    · intro index
      rw [free, List.mem_cons]
      constructor
      · intro member
        refine ⟨.inr member, ?_⟩
        rintro rfl
        exact nodup.1 member
      · rintro ⟨rfl | member, different⟩
        · exact absurd rfl different
        · exact member
    · intro index
      refine ⟨.inl, ?_⟩
      rintro (below | rfl)
      · exact below
      · exact (invariant.allocated _).mpr (.inl (by simp [free]))
  -- the region grows by one
  · rename_i free
    split at returned
    · cases returned
    · cases returned
      refine ⟨?_, ?_, nodup, ?_⟩
      · intro other otherLive otherLocation
        have := (invariant.allocated _).mpr (.inr ⟨other, otherLive, otherLocation⟩)
        omega
      · simp [free]
      · intro index
        change index < operands.spills.allocationLen + 1 ↔ _
        omega

/-- Redirect the borrow of a local to a spill slot just reserved. -/
theorem redirect
    (invariant : operands.LazyInvariant)
    (held : operands.lazyLocals.origin[localIndex]? = some (some slot))
    (found : operands.lazyLocals.arena[slot]? = some entry)
    (fresh : Reserved operands spillIndex after.spills)
    (stack : after.stack = operands.stack)
    (arena : after.lazyLocals.arena = operands.lazyLocals.arena.set slot
      { entry with location := .spilled spillIndex })
    (origin : after.lazyLocals.origin =
      operands.lazyLocals.origin.set localIndex none) :
    after.LazyInvariant := by
  obtain ⟨liveSlot, location⟩ := (invariant.origin localIndex slot).mp held
  have sameLive : ∀ other, after.Live other ↔ operands.Live other := by
    intro other
    simp [Live, stack]
  have newLocation : after.locationAt slot = some (.spilled spillIndex) := by
    unfold locationAt
    rw [arena, List.getElem?_set_self (invariant.entryExists slot liveSlot)]
    rfl
  have oldLocation : ∀ other, other ≠ slot →
      after.locationAt other = operands.locationAt other := by
    intro other different
    unfold locationAt
    rw [arena, List.getElem?_set_ne (Ne.symm different)]
  constructor
  · intro other otherLive
    rw [arena, List.length_set]
    exact invariant.entryExists other ((sameLive other).mp otherLive)
  · intro other otherEntry otherFound
    rw [stack]
    rw [arena] at otherFound
    by_cases same : slot = other
    · subst same
      rw [List.getElem?_set_self (invariant.entryExists slot liveSlot)] at otherFound
      cases otherFound
      exact invariant.refCount slot entry found
    · rw [List.getElem?_set_ne same] at otherFound
      exact invariant.refCount other otherEntry otherFound
  · intro otherLocal other
    rw [origin, sameLive]
    by_cases same : other = slot
    · subst same
      rw [newLocation]
      simp only [Option.some.injEq, reduceCtorEq, and_false, iff_false]
      intro otherHeld
      by_cases sameLocal : localIndex = otherLocal
      · subst sameLocal
        rw [List.getElem?_set_self (List.getElem?_eq_some_iff.mp held).1] at otherHeld
        cases otherHeld
      · rw [List.getElem?_set_ne sameLocal] at otherHeld
        have otherLocation := ((invariant.origin otherLocal other).mp otherHeld).2
        rw [location] at otherLocation
        cases otherLocation
        exact sameLocal rfl
    · rw [oldLocation other same]
      by_cases sameLocal : localIndex = otherLocal
      · subst sameLocal
        rw [List.getElem?_set_self (List.getElem?_eq_some_iff.mp held).1]
        simp only [Option.some.injEq, reduceCtorEq, false_iff]
        intro otherHeld
        have := (invariant.origin localIndex other).mpr otherHeld
        rw [held] at this
        cases this
        exact same rfl
      · rw [List.getElem?_set_ne sameLocal]
        exact invariant.origin otherLocal other
  · intro otherSpill first second firstLive secondLive firstAt secondAt
    rw [sameLive] at firstLive secondLive
    by_cases firstSame : first = slot
    · subst firstSame
      rw [newLocation] at firstAt
      cases firstAt
      by_contra different
      rw [oldLocation second (Ne.symm different)] at secondAt
      exact fresh.unused second secondLive secondAt
    · rw [oldLocation first firstSame] at firstAt
      by_cases secondSame : second = slot
      · subst secondSame
        rw [newLocation] at secondAt
        cases secondAt
        exact absurd firstAt (fresh.unused first firstLive)
      · rw [oldLocation second secondSame] at secondAt
        exact invariant.spilledDistinct otherSpill first second firstLive
          secondLive firstAt secondAt
  · exact fresh.freeNodup
  · intro other otherSpill otherLive otherLocation
    rw [fresh.mem_free]
    rintro ⟨free, different⟩
    by_cases same : other = slot
    · subst same
      rw [newLocation] at otherLocation
      cases otherLocation
      exact different rfl
    · rw [oldLocation other same] at otherLocation
      exact invariant.freeDisjoint other otherSpill ((sameLive other).mp otherLive)
        otherLocation free
  · intro index
    rw [fresh.allocated, fresh.mem_free, invariant.allocated]
    simp only [sameLive]
    constructor
    · rintro ((free | ⟨other, otherLive, otherLocation⟩) | rfl)
      · by_cases same : index = spillIndex
        · subst same
          exact .inr ⟨slot, liveSlot, newLocation⟩
        · exact .inl ⟨free, same⟩
      · have different : other ≠ slot := by
          rintro rfl
          rw [location] at otherLocation
          cases otherLocation
        exact .inr ⟨other, otherLive, (oldLocation other different).trans otherLocation⟩
      · exact .inr ⟨slot, liveSlot, newLocation⟩
    · rintro (⟨free, _⟩ | ⟨other, otherLive, otherLocation⟩)
      · exact .inl (.inl free)
      · by_cases same : other = slot
        · subst same
          rw [newLocation] at otherLocation
          cases otherLocation
          exact .inr rfl
        · rw [oldLocation other same] at otherLocation
          exact .inl (.inr ⟨other, otherLive, otherLocation⟩)

end Change

end LazyInvariant

end OperandStack
end Register
end TraceWasm
