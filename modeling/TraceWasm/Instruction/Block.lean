import TraceWasm.Foundation.Fault
import TraceWasm.Wasm.Syntax

/-!
# What both lowerings share

The record a lowering keeps for each open label, the errors a lowering reports,
and the memory check.
-/

namespace TraceWasm

/-- Errors of the lowerings. -/
inductive TraceWasmError where
  | unsupported (message : String)
  | registerFrameTooLarge (what : String) (needed limit : Nat)
  | tooManyUniqueValues (needed limit : Nat)
  deriving DecidableEq

/-- The limits that only the register machine has. -/
def TraceWasmError.IsLimit : TraceWasmError → Prop
  | .unsupported _ => False
  | .registerFrameTooLarge _ _ _ => True
  | .tooManyUniqueValues _ _ => True

/-- The operator is reported as one the lowering does not know. -/
def unsupportedInstruction (debug : String) : TraceWasmError :=
  .unsupported ("instruction `" ++ debug ++ "`")

/-- The largest `u16`. -/
def u16Max : Nat := 65535

/-- The largest `u32`. -/
def u32Max : Nat := 4294967295

/-- Conversion to a sixteen-bit integer. -/
def asU16 (value : Nat) : Nat := value % 65536

theorem asU16_of_le (le : value ≤ u16Max) : asU16 value = value :=
  Nat.mod_eq_of_lt (Nat.lt_succ_of_le le)

/-- Addition on sixteen-bit integers. -/
def addU16 (left right : Nat) : Attempt ε Nat :=
  if left + right ≤ u16Max then .ok (left + right) else Attempt.panicked

/-- A sum that fits a `u16`. -/
theorem addU16_of_le
    (le : left + right ≤ u16Max) :
    (addU16 left right : Attempt ε Nat) = .ok (left + right) := if_pos le

/-- What kind of label a lowering opens. -/
inductive BlockVariant where
  | func | block | ifOp | loop
  deriving DecidableEq

/-- A label's kind, with the indices that branches and the closing `end`
need. -/
inductive BlockKind where
  | func
  | block
  | loop (index : Nat)
  | ifOp (index : Nat) (elseIndex : Option Nat)
  deriving DecidableEq

/-- The target of a back-edge, for a loop. -/
def BlockKind.isLoop : BlockKind → Option Nat
  | .loop index => some index
  | _ => none

/-- An open label. -/
structure Block where
  kind : BlockKind
  /-- Operands below the label's parameters. -/
  recordedHeight : Nat
  params : Nat
  results : Nat
  /-- Read by the stack lowering only. -/
  isUnreachableTraversing : Bool
  /-- Read by the stack lowering only. -/
  hasInherited : Bool
  /-- Branches whose target is the label's `end`: an instruction's index, and
  the arm for one that has several. -/
  attachedBreaks : List (Nat × Nat)
  deriving DecidableEq

/-- How many operands a branch to the label carries. -/
def Block.labelArity (block : Block) : Nat :=
  if block.kind.isLoop.isSome then block.params else block.results

/-- Memory operators address memory 0 only. -/
def checkMemoryIndex (index : Nat) : Attempt TraceWasmError Unit :=
  if index ≠ 0 then .fail (.unsupported "more than one memory") else .ok ()

/-- The memory checks an operator's arm makes, which drop its immediates. -/
def DataOp.checkMemory (op : DataOp offset Nat) :
    Attempt TraceWasmError (DataOp offset Unit) :=
  match op with
  | .globalGet index => .ok (.globalGet index)
  | .globalSet index => .ok (.globalSet index)
  | .unary op => .ok (.unary op)
  | .binary op => .ok (.binary op)
  | .load op memarg => .ok (.load op memarg)
  | .store op memarg => .ok (.store op memarg)
  | .select => .ok .select
  | .memorySize mem => do
      checkMemoryIndex mem
      return .memorySize ()
  | .memoryGrow mem => do
      checkMemoryIndex mem
      return .memoryGrow ()
  | .memoryCopy dst src => do
      checkMemoryIndex dst
      checkMemoryIndex src
      return .memoryCopy () ()
  | .memoryFill mem => do
      checkMemoryIndex mem
      return .memoryFill ()
  | .memoryInit dataIndex mem => do
      checkMemoryIndex mem
      return .memoryInit dataIndex ()

/-- The error for an operator that a lowering does not know. -/
def Operator.rejection : Operator → Option TraceWasmError
  | .data op =>
      match op.checkMemory with
      | .error (.error reported) => some reported
      | _ => none
  | .tryTable _ debug => some (unsupportedInstruction debug)
  | .other op => some (unsupportedInstruction op.debug)
  | _ => none

/-- The operator without its memory immediates. -/
def DataOp.dropMemory : DataOp offset Nat → DataOp offset Unit
  | .globalGet index => .globalGet index
  | .globalSet index => .globalSet index
  | .unary op => .unary op
  | .binary op => .binary op
  | .load op memarg => .load op memarg
  | .store op memarg => .store op memarg
  | .select => .select
  | .memorySize _ => .memorySize ()
  | .memoryGrow _ => .memoryGrow ()
  | .memoryCopy _ _ => .memoryCopy () ()
  | .memoryFill _ => .memoryFill ()
  | .memoryInit dataIndex _ => .memoryInit dataIndex ()

@[simp] theorem DataOp.inputs_dropMemory (op : DataOp offset Nat) :
    op.dropMemory.inputs = op.inputs := by
  cases op <;> rfl

/-- Only a second memory is refused. -/
theorem checkMemoryIndex_meets (index : Nat) :
    (checkMemoryIndex index).Meets
      (fun reported => reported = .unsupported "more than one memory")
      fun _ => True := by
  unfold checkMemoryIndex
  split <;> trivial

/-- The memory checks report an error or do nothing but drop the immediates. -/
theorem DataOp.checkMemory_meets (op : DataOp offset Nat) :
    op.checkMemory.Meets
      (fun reported => reported = .unsupported "more than one memory")
      fun lowered => lowered = op.dropMemory := by
  cases op with
  | memorySize mem => exact (checkMemoryIndex_meets mem).bind fun _ _ => rfl
  | memoryGrow mem => exact (checkMemoryIndex_meets mem).bind fun _ _ => rfl
  | memoryCopy dst src =>
      exact (checkMemoryIndex_meets dst).bind fun _ _ =>
        (checkMemoryIndex_meets src).bind fun _ _ => rfl
  | memoryFill mem => exact (checkMemoryIndex_meets mem).bind fun _ _ => rfl
  | memoryInit dataIndex mem => exact (checkMemoryIndex_meets mem).bind fun _ _ => rfl
  | _ => rfl

/-- The checks of an operator that is not rejected pass. -/
theorem DataOp.checkMemory_eq
    {op : DataOp Nat Nat}
    (known : (Operator.data op).rejection = none) :
    op.checkMemory = .ok op.dropMemory := by
  have meets := op.checkMemory_meets
  unfold Operator.rejection at known
  cases checked : op.checkMemory with
  | ok lowered =>
      rw [checked] at meets
      exact congrArg _ meets
  | error fault =>
      cases fault with
      | error reported => simp [checked] at known
      | panic => exact absurd checked meets.ne_panic

/-- The checks of an operator that is rejected report its error. -/
theorem DataOp.checkMemory_eq_fail
    {op : DataOp Nat Nat}
    (rejected : (Operator.data op).rejection = some reported) :
    op.checkMemory = .fail reported := by
  unfold Operator.rejection at rejected
  cases checked : op.checkMemory with
  | ok lowered => simp [checked] at rejected
  | error fault =>
      cases fault with
      | error other =>
          simp only [checked, Option.some.injEq] at rejected
          rw [rejected]
          rfl
      | panic => simp [checked] at rejected

end TraceWasm
