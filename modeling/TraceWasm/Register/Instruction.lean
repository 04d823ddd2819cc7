import TraceWasm.Instruction.Block
import TraceWasm.Wasm.Syntax

/-!
# Register instructions and the resolution of their operands

Lowering gives every operand a placeholder and records what the operand is,
keyed by the index of the instruction that carries it. Once the body is done
and the sizes of the frame's regions are known, the recorded operands are
written into the instructions as frame indices.

An instruction is generic in its operands. Lowered code has frame indices; the
proofs also use instructions whose operands are not placed yet.
-/

namespace TraceWasm
namespace Register

/-- A frame index. -/
abbrev Slot := Nat

/-- The operand an instruction is built with before its own is known. -/
def placeholder : Slot := u16Max

/-- What an operand is, before the frame is laid out. -/
inductive BackPatchableSlot where
  | register (index : Nat)
  | spill (spillIndex : Nat)
  | const (id : Nat)
  | slot (index : Slot)
  deriving DecidableEq

namespace BackPatchableSlot

/-- The slot is a register. -/
def isRegister : BackPatchableSlot → Bool
  | .register _ => true
  | _ => false

/-- The frame index of an operand, given the number of locals and the sizes of
the constant and spill regions. -/
def absoluteSlotInFrame (locals consts spills : Nat) :
    BackPatchableSlot → Attempt ε Slot
  | .slot index => .ok index
  | .const id => addU16 id locals
  | .spill spillIndex => do addU16 (← addU16 spillIndex locals) consts
  | .register index => do addU16 (← addU16 index consts) spills

end BackPatchableSlot

/-- Which operand run of its instruction a recording fills. -/
inductive InstructionSource where
  | emit
  | brIfCond
  | brIfMov
  | brTableIndex
  | brTableMov
  | callIndirectSlot
  | callIndirectMov
  deriving DecidableEq

/-- Operands moved to the registers that start at `outputStart`. -/
structure DynSignature (operand : Type) where
  input : List operand
  outputStart : Nat

/-- The move moves nothing. -/
def DynSignature.isEmpty (mov : DynSignature operand) : Bool := mov.input.isEmpty

/-- One arm of a `br_table`. -/
structure RegBrTableTarget (operand : Type) where
  mov : DynSignature operand
  targetIndex : Nat

/-- One lowered instruction. What the source keeps in an arena beside the body,
under an id that only this instruction holds, is a field here. -/
inductive RegInstruction (operand : Type) where
  | localSet (index : Nat) (input : operand)
  | localTee (index : Nat) (input : operand)
  | localSpill (index spillIndex : Nat)
  /-- `memarg` is an index into the offset pool; an operator without results
  does not use `outputStart`. -/
  | data (op : DataOp Nat Unit) (input : List operand) (outputStart : Nat)
  | dataDrop (dataIndex : Nat)
  | loop
  | ifOp (cond : operand) (elseIndex : Option Nat) (endIndex : Nat)
  | elseOp (endIndex : Nat)
  | endOp
  | br (targetIndex : Nat)
  | brIf (cond : operand) (mov : DynSignature operand) (targetIndex : Nat)
  | brTable (index : operand) (brTargets : List (RegBrTableTarget operand))
  | returnOp (targetIndex : Nat)
  | call (funcIndex callerBase : Nat)
  | callIndirect
      (tyIndex tableIndex : Nat) (slot : operand)
      (operands : DynSignature operand) (callerBase : Nat)
  | unreachable
  | move (mov : DynSignature operand)

/-- The regions of a frame, and what execution reads beside the code. -/
structure RegFrameLayout where
  /-- One past the highest operand register, counted from the first local. -/
  registers : Nat
  spills : Nat
  localsCount : Nat
  consts : List Const
  memoryOffsets : List Nat

namespace RegFrameLayout

/-- The width of the frame. -/
def width (layout : RegFrameLayout) : Nat :=
  layout.registers + layout.spills + layout.consts.length

/-- Where frame entry puts a constant. -/
def constSlot (layout : RegFrameLayout) (constId : Nat) : Slot :=
  layout.localsCount + constId

/-- Where a `LocalSpill` puts its local. -/
def spillSlot (layout : RegFrameLayout) (spillIndex : Nat) : Slot :=
  spillIndex + layout.localsCount + layout.consts.length

/-- Where the operand registers start. -/
def operandBase (layout : RegFrameLayout) : Slot :=
  layout.localsCount + layout.consts.length + layout.spills

end RegFrameLayout

/-- A recorded operand run. -/
abbrev Patch := InstructionSource × List BackPatchableSlot

/-- The recorded operand runs, each with the index of its instruction, in the
order lowering recorded them. -/
abbrev BackpatchMap := List (Nat × Patch)

namespace BackpatchMap

/-- The runs recorded against one instruction. -/
def patchesAt (map : BackpatchMap) (instrIndex : Nat) : List Patch :=
  (map.filter fun entry => entry.1 = instrIndex).map Prod.snd

section Apply

variable (locals consts spills : Nat)

/-- Write the next recorded run over an operand run. Nothing is written when no
run is left. -/
def applyToInputRegisters
    (patches : List Patch)
    (inputs : List Slot)
    (expectedSource : InstructionSource) :
    Attempt ε (List Slot × List Patch) :=
  match patches with
  | [] => .ok (inputs, [])
  | (source, patch) :: rest => do
      Attempt.assert (source = expectedSource)
      Attempt.assert (patch.length = inputs.length)
      return (← patch.mapM (·.absoluteSlotInFrame locals consts spills), rest)

/-- `applyToInputRegisters` for an instruction with a single operand. -/
def applyToInputRegister
    (patches : List Patch)
    (input : Slot)
    (expectedSource : InstructionSource) :
    Attempt ε (Slot × List Patch) := do
  match ← applyToInputRegisters locals consts spills patches [input]
      expectedSource with
  | ([input], rest) => return (input, rest)
  | _ => Attempt.panicked

/-- Move an output register up, behind the constants and the spills. -/
def applyToOutputRegisters (outputStart : Nat) : Attempt ε Nat := do
  addU16 (← addU16 outputStart consts) spills

/-- Resolve the inputs of a move and move its outputs up. -/
def applyToDynSignature
    (patches : List Patch)
    (mov : DynSignature Slot)
    (expectedSource : InstructionSource) :
    Attempt ε (DynSignature Slot × List Patch) := do
  let (input, rest) ←
    applyToInputRegisters locals consts spills patches mov.input expectedSource
  let outputStart ← applyToOutputRegisters consts spills mov.outputStart
  return (⟨input, outputStart⟩, rest)

/-- Resolve the moves of the arms of a `br_table`, in order. -/
def applyToBrTargets
    (patches : List Patch) :
    List (RegBrTableTarget Slot) → Attempt ε (List (RegBrTableTarget Slot))
  | [] => .ok []
  | target :: targets => do
      let (mov, rest) ←
        applyToDynSignature locals consts spills patches target.mov .brTableMov
      return ⟨mov, target.targetIndex⟩ :: (← applyToBrTargets rest targets)

/-- Write the recorded operands of one instruction, which has recorded some. -/
def applyTo (patches : List Patch) :
    RegInstruction Slot → Attempt ε (RegInstruction Slot)
  | .localSet index input => do
      let (input, _) ←
        applyToInputRegister locals consts spills patches input .emit
      return .localSet index input
  | .localTee index input => do
      Attempt.assert (patches.length = 1)
      let (input, _) ←
        applyToInputRegister locals consts spills patches input .emit
      return .localTee index input
  | .data op input outputStart => do
      let (input, _) ←
        applyToInputRegisters locals consts spills patches input .emit
      let outputStart ← applyToOutputRegisters consts spills outputStart
      return .data op input outputStart
  | .ifOp cond elseIndex endIndex => do
      let (cond, _) ← applyToInputRegister locals consts spills patches cond .emit
      return .ifOp cond elseIndex endIndex
  | .brIf cond mov targetIndex => do
      let (cond, rest) ←
        applyToInputRegister locals consts spills patches cond .brIfCond
      let (mov, _) ←
        applyToDynSignature locals consts spills rest mov .brIfMov
      return .brIf cond mov targetIndex
  | .brTable index brTargets => do
      let (index, rest) ←
        applyToInputRegister locals consts spills patches index .brTableIndex
      return .brTable index
        (← applyToBrTargets locals consts spills rest brTargets)
  | .callIndirect tyIndex tableIndex slot operands callerBase => do
      let (slot, rest) ←
        applyToInputRegister locals consts spills patches slot .callIndirectSlot
      let (operands, _) ←
        applyToDynSignature locals consts spills rest operands .callIndirectMov
      return .callIndirect tyIndex tableIndex slot operands callerBase
  | .move mov => do
      let (mov, _) ← applyToDynSignature locals consts spills patches mov .emit
      return .move mov
  -- these carry no operands, so lowering records none for them
  | .localSpill _ _ => Attempt.panicked
  | .loop => Attempt.panicked
  | .elseOp _ => Attempt.panicked
  | .br _ => Attempt.panicked
  | .returnOp _ => Attempt.panicked
  | .call _ _ => Attempt.panicked
  | .unreachable => Attempt.panicked
  | .dataDrop _ => Attempt.panicked
  | .endOp => Attempt.panicked

/-- Write the recorded operands of an instruction, if it has recorded any. -/
def applyPatches
    (patches : List Patch) (instr : RegInstruction Slot) :
    Attempt ε (RegInstruction Slot) :=
  match patches with
  | [] => .ok instr
  | patches => applyTo locals consts spills patches instr

/-- Write the recorded operands of the instruction at an index. -/
def applyAt
    (map : BackpatchMap) (instrIndex : Nat) (instr : RegInstruction Slot) :
    Attempt ε (RegInstruction Slot) :=
  applyPatches locals consts spills (map.patchesAt instrIndex) instr

/-- Write the recorded operands of the instructions from an index on. -/
def applyFrom
    (map : BackpatchMap) (instrIndex : Nat) :
    List (RegInstruction Slot) → Attempt ε (List (RegInstruction Slot))
  | [] => .ok []
  | instr :: rest => do
      let instr ← applyAt locals consts spills map instrIndex instr
      return instr :: (← applyFrom map (instrIndex + 1) rest)

/-- Write every recorded operand into the body. -/
def apply (map : BackpatchMap) (instructions : List (RegInstruction Slot)) :
    Attempt ε (List (RegInstruction Slot)) := do
  Attempt.assert (∀ entry ∈ map, entry.1 < instructions.length)
  applyFrom locals consts spills map 0 instructions

end Apply

end BackpatchMap

end Register
end TraceWasm
