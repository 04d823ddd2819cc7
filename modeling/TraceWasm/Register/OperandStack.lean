import TraceWasm.Register.Instruction
import TraceWasm.Register.Lazy

/-!
# The simulated operand stack

The pass walks the operators with the operand stack that wasm would have, whose
entries say where each value lives: in the constant pool, in an operand
register, or in a local that it borrows. The stack's top is the head of its
list.
-/

namespace TraceWasm
namespace Register

/-- Where a value on the simulated stack lives. -/
inductive StackSlot where
  | const (id : Nat)
  | register (index : Nat)
  | local (slot : Nat)
  deriving DecidableEq

/-- The part of the lowering state that the operands live in. -/
structure OperandStack where
  stack : List StackSlot
  /-- The next operand register to allocate. -/
  currRegisterIndex : Nat
  /-- One past the highest operand register the body reaches. -/
  maxRegisters : Nat
  lazyLocals : LazyArena
  spills : SpillArena

namespace OperandStack

/-- The most registers that locals and operands can take. -/
def maxRegisterSlots : Nat := u16Max

/-- No operand, behind so many locals. -/
def new (localsCount : Nat) : OperandStack where
  stack := []
  currRegisterIndex := localsCount
  maxRegisters := asU16 localsCount
  lazyLocals := .new localsCount
  spills := .empty

/-- How many operands there are. -/
def height (operands : OperandStack) : Nat := operands.stack.length

/-- Parameters and declared locals, which is where operand registers begin. -/
def localsCount (operands : OperandStack) : Nat :=
  asU16 operands.lazyLocals.origin.length

/-- The error of a function that needs more registers. -/
def registerFrameTooLarge (needed : Nat) : TraceWasmError :=
  .registerFrameTooLarge "locals and operand registers" needed maxRegisterSlots

/-- Allocate one register. -/
def advancedRegisterIndex (operands : OperandStack) :
    Attempt TraceWasmError OperandStack :=
  let operands :=
    { operands with currRegisterIndex := operands.currRegisterIndex + 1 }
  if operands.currRegisterIndex > operands.maxRegisters then
    if operands.maxRegisters ≥ maxRegisterSlots then
      .fail (registerFrameTooLarge (operands.maxRegisters + 1))
    else .ok { operands with maxRegisters := operands.maxRegisters + 1 }
  else .ok operands

/-- Free the top register. -/
def recedeRegisterIndex (operands : OperandStack) : Attempt ε OperandStack := do
  let currRegisterIndex ← Attempt.sub operands.currRegisterIndex 1
  return { operands with currRegisterIndex }

/-- Release one borrow and report where its value was. The location is read
before the count drops: the last borrow of a local clears its origin, the last
borrow of a spilled value returns the spill slot. -/
def popLazy (slot : Nat) (arena : LazyArena) (spills : SpillArena) :
    Attempt ε (LazyLocation × LazyArena × SpillArena) := do
  let location ← arena.location slot
  let (dropped, arena) ← arena.decreaseRefCount slot
  if dropped then
    match location with
    | .original localIndex =>
        return (location, ← arena.setOrigin localIndex none, spills)
    | .spilled spillIndex =>
        return (location, arena, spills.freeSlot spillIndex)
  else return (location, arena, spills)

/-- Start a borrow of a local, or join the one that there is. -/
def pushLazy (location : Nat) (arena : LazyArena) :
    Attempt ε (Nat × LazyArena) := do
  match ← arena.getOrigin location with
  | some slot => return (slot, ← arena.advancedRefCount slot)
  | none =>
      let (slot, arena) := arena.allocate location
      return (slot, ← arena.setOrigin location (some slot))

/-- What an instruction reads for a borrow at this location. -/
def slotOfLocation : LazyLocation → BackPatchableSlot
  | .original localIndex => .slot localIndex
  | .spilled spillIndex => .spill spillIndex

/-- What an instruction reads for an entry of the stack. -/
def resolve (operands : OperandStack) :
    StackSlot → Attempt ε BackPatchableSlot
  | .const id => return .const id
  | .register index => return .register index
  | .local slot => return slotOfLocation (← operands.lazyLocals.location slot)

/-- Consume the top operand and resolve it. -/
def pop (operands : OperandStack) :
    Attempt ε (BackPatchableSlot × OperandStack) :=
  match operands.stack with
  | [] => Attempt.panicked
  | val :: stack => do
      let operands := { operands with stack }
      match val with
      | .const id => return (.const id, operands)
      | .register index =>
          return (.register index, ← operands.recedeRegisterIndex)
      | .local slot =>
          let (location, lazyLocals, spills) ←
            popLazy slot operands.lazyLocals operands.spills
          return (slotOfLocation location, { operands with lazyLocals, spills })

/-- Resolve the operand `depth` entries below the top without consuming it. -/
def simulatedPop (operands : OperandStack) (depth : Nat) :
    Attempt ε BackPatchableSlot := do
  operands.resolve (← .orPanic operands.stack[depth]?)

/-- Push an operand. An index below the number of locals is a borrow, any other
a register. -/
def push (operands : OperandStack) (slot : Slot) :
    Attempt TraceWasmError OperandStack := do
  if slot < operands.localsCount then
    let (entry, lazyLocals) ← pushLazy slot operands.lazyLocals
    return { operands with lazyLocals, stack := .local entry :: operands.stack }
  else
    let operands ← operands.advancedRegisterIndex
    return { operands with stack := .register slot :: operands.stack }

/-- Resolve the top operand without consuming it, for `local.tee`. -/
def tee (operands : OperandStack) : Attempt ε BackPatchableSlot := do
  operands.resolve (← .orPanic operands.stack.head?)

/-- `local.get`. -/
def pushLocal (operands : OperandStack) (index : Nat) :
    Attempt TraceWasmError OperandStack :=
  operands.push index

/-- Push an interned constant. -/
def pushConstId (operands : OperandStack) (id : Nat) : OperandStack :=
  { operands with stack := .const id :: operands.stack }

/-- Pop several operands. The result lists the deepest one first. -/
def popMany (operands : OperandStack) :
    Nat → Attempt ε (List BackPatchableSlot × OperandStack)
  | 0 => return ([], operands)
  | pops + 1 => do
      let (slot, operands) ← operands.pop
      let (slots, operands) ← operands.popMany pops
      return (slots ++ [slot], operands)

/-- Push registers, each the next one to allocate. -/
def pushMany (operands : OperandStack) :
    Nat → Attempt TraceWasmError OperandStack
  | 0 => return operands
  | pushes + 1 => do
      (← operands.push (asU16 operands.currRegisterIndex)).pushMany pushes

/-- Apply a stack effect, recording nothing. -/
def popsAndPushes (operands : OperandStack) (pops pushes : Nat) :
    Attempt TraceWasmError OperandStack := do
  let (_, operands) ← operands.popMany pops
  operands.pushMany pushes

/-- Rescue every operand that still borrows the local, ahead of a write to it.
The result names the spill slot to copy the local into, if any. -/
def setLazy (operands : OperandStack) (location : Nat) :
    Attempt TraceWasmError (Option Nat × OperandStack) := do
  match ← operands.lazyLocals.getOrigin location with
  | none => return (none, operands)
  | some slot =>
      let (spillIndex, spills) ← operands.spills.reserveSlot
      let lazyLocals ← operands.lazyLocals.spill slot spillIndex
      let lazyLocals ← lazyLocals.setOrigin location none
      return (some spillIndex, { operands with lazyLocals, spills })

/-- Rescue the borrows of each of the locals, in order. The result names the
copies to emit: a local and its spill slot. -/
def spillLazyOf (operands : OperandStack) :
    List Nat → Attempt TraceWasmError (List (Nat × Nat) × OperandStack)
  | [] => return ([], operands)
  | index :: indices => do
      let (spillIndex, operands) ← operands.setLazy index
      let (copies, operands) ← operands.spillLazyOf indices
      match spillIndex with
      | none => return (copies, operands)
      | some spillIndex => return ((index, spillIndex) :: copies, operands)

/-- Rescue every live borrow. -/
def spillLazy (operands : OperandStack) :
    Attempt TraceWasmError (List (Nat × Nat) × OperandStack) :=
  operands.spillLazyOf (List.range operands.lazyLocals.origin.length)

/-- What the register index would be after popping some operands. -/
def registerIndexAtDepth (operands : OperandStack) (depth : Nat) :
    Attempt ε Nat :=
  (List.range depth).foldlM (fun registerIndex i => do
    match ← Attempt.orPanic operands.stack[i]? with
    | .register _ => Attempt.sub registerIndex 1
    | _ => return registerIndex) operands.currRegisterIndex

/-- Read the operands down to a depth, the top one first, and the register
index that popping them would leave. -/
def simulatedPops (operands : OperandStack) (popped : Nat) :
    Attempt ε (List BackPatchableSlot × Nat) :=
  (List.range popped).foldlM (fun (slots, registerIndex) i => do
    let slot ← operands.simulatedPop i
    let registerIndex ←
      if slot.isRegister then Attempt.sub registerIndex 1 else pure registerIndex
    return (slots ++ [slot], registerIndex))
    ([], asU16 operands.currRegisterIndex)

/-- The move that a branch to a label performs: the operands it carries, deepest
first, and the register they go to. Nothing is popped; only the peak of the
registers is raised. -/
def brTruncationRegisters
    (operands : OperandStack) (baseHeight arityToPreserve : Nat) :
    Attempt TraceWasmError
      (List BackPatchableSlot × DynSignature Slot × OperandStack) := do
  let popped ← Attempt.sub operands.height baseHeight
  let (slots, registerIndex) ← operands.simulatedPops popped
  let carried := (List.range arityToPreserve).map fun i =>
    slots.getD (arityToPreserve - 1 - i) (.register placeholder)
  let mov := ⟨List.replicate arityToPreserve placeholder, registerIndex⟩
  let peak := registerIndex + arityToPreserve
  if peak > operands.maxRegisters then
    if peak > maxRegisterSlots then .fail (registerFrameTooLarge peak)
    else return (carried, mov, { operands with maxRegisters := asU16 peak })
  else return (carried, mov, operands)

end OperandStack

end Register
end TraceWasm
