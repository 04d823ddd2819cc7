import TraceWasm.Instruction.Block
import TraceWasm.Stack.Instruction
import TraceWasm.Wasm.Validation

/-!
# Lowering a body to stack instructions

Every operator becomes one instruction, dead or not. The open labels carry the
operand height below them, and the height itself stands still in dead code.
-/

namespace TraceWasm
namespace Stack

/-- The open labels, innermost first, and the operand height. -/
structure ControlStack where
  inner : List Block
  currHeight : Nat

namespace ControlStack

/-- The innermost label stands in dead code. -/
def isDead (control : ControlStack) : Bool :=
  control.inner.head?.elim false Block.isUnreachableTraversing

/-- Open a label. One that is opened in dead code is dead throughout, and its
height is never used. -/
def addBlock
    (control : ControlStack) (kind : BlockKind) (blockty : BlockType)
    (types : List FuncType) : Attempt TraceWasmError ControlStack := do
  let (params, results) ← .orPanic (paramsAndResultsFromBlockty types blockty)
  if control.isDead then
    return { control with
      inner := ⟨kind, 0, params, results, true, true, []⟩ :: control.inner }
  else
    let recordedHeight ←
      match kind with
      | .func => pure 0
      | .block => Attempt.sub control.currHeight params
      | .loop _ => Attempt.sub control.currHeight params
      -- the condition lies above the parameters
      | .ifOp _ _ => do Attempt.sub (← Attempt.sub control.currHeight params) 1
    return { control with
      inner := ⟨kind, recordedHeight, params, results, false, false, []⟩ ::
        control.inner }

/-- Change the innermost label. -/
def modifyCurrBlock (control : ControlStack) (change : Block → Block) :
    Attempt TraceWasmError ControlStack :=
  match control.inner with
  | [] => Attempt.panicked
  | block :: outer => .ok { control with inner := change block :: outer }

/-- The rest of the innermost label is dead. -/
def setUnreachableTraversing (control : ControlStack) :
    Attempt TraceWasmError ControlStack :=
  control.modifyCurrBlock fun block => { block with isUnreachableTraversing := true }

/-- The innermost label is live again, unless it was opened dead. -/
def endUnreachableTraversing (control : ControlStack) :
    Attempt TraceWasmError ControlStack :=
  control.modifyCurrBlock fun block =>
    if block.hasInherited then block else { block with isUnreachableTraversing := false }

/-- Set the height, unless the code is dead. -/
def setHeight (control : ControlStack) (height : Nat) : ControlStack :=
  if control.isDead then control else { control with currHeight := height }

/-- Pop and push, unless the code is dead or behind the body. -/
def applyStackEffectsToHeight (control : ControlStack) (pops pushes : Nat) :
    Attempt TraceWasmError ControlStack :=
  if control.inner = [] then .ok control
  else if control.isDead then .ok control
  else do
    let below ← Attempt.sub control.currHeight pops
    return { control with currHeight := below + pushes }

/-- Record a branch whose target is the label's `end`. -/
def attachBreak (control : ControlStack) (relativeDepth : Nat) (attached : Nat × Nat) :
    ControlStack :=
  { control with
    inner := control.inner.modify relativeDepth fun block =>
      { block with attachedBreaks := block.attachedBreaks ++ [attached] } }

end ControlStack

/-- What an operator does to the height. -/
inductive StackEffectResult where
  | popPush (pops pushes : Nat)
  | setHeight (height : Nat)
  | noEffect
  /-- What follows is dead up to the label's `else` or `end`. -/
  | unreachable
  | loads
  | stores
  | binaryOperator
  | unaryOperator

/-- Apply an operator's effect to the height. -/
def ControlStack.applyEffect (control : ControlStack) :
    StackEffectResult → Attempt TraceWasmError ControlStack
  | .popPush pops pushes => control.applyStackEffectsToHeight pops pushes
  | .stores => control.applyStackEffectsToHeight 2 0
  | .binaryOperator => control.applyStackEffectsToHeight 2 1
  | .setHeight height => .ok (control.setHeight height)
  | .noEffect => .ok control
  | .unreachable => .ok control
  | .unaryOperator => .ok control
  | .loads => .ok control

/-- The state of the lowering loop. -/
structure Lowering where
  instructions : List StackInstruction
  /-- The byte offset of the operator that an instruction comes from. -/
  instructionOffsets : List Nat
  controlStack : ControlStack
  brTableTargetBranches : List Target

/-- What the arm of an operator returns: its instruction and its effect. -/
abbrev Lowered := StackInstruction × StackEffectResult

namespace Lowering

/-- The state in which a body starts, inside the function's own label. -/
def initial (func : FuncHeader) : Lowering where
  instructions := []
  instructionOffsets := []
  controlStack := ⟨[⟨.func, 0, func.params, func.results, false, false, []⟩], 0⟩
  brTableTargetBranches := []

/-- How many instructions there are so far. -/
def len (s : Lowering) : Nat := s.instructions.length

/-- The label that a branch names. -/
def getBlock (s : Lowering) (relativeDepth : Nat) : Attempt TraceWasmError Block :=
  .orPanic s.controlStack.inner[relativeDepth]?

/-- Where a branch to a label goes. Anything but a loop is patched at its `end`. -/
def targetOf (block : Block) : Target :=
  ⟨block.kind.isLoop.getD u32Max, block.labelArity, block.recordedHeight⟩

/-- Resolve a branch, attaching it to its label unless that is a loop. -/
def resolveBranch (s : Lowering) (relativeDepth : Nat) (attached : Nat × Nat) :
    Attempt TraceWasmError (Target × Lowering) := do
  let block ← s.getBlock relativeDepth
  let s :=
    match block.kind.isLoop with
    | some _ => s
    | none => { s with controlStack := s.controlStack.attachBreak relativeDepth attached }
  return (targetOf block, s)

/-- The arms of a `br_table`, whose index in the body's array is also what waits
for a target. -/
def lowerBrTargets (s : Lowering) (start arm : Nat) :
    List Nat → Attempt TraceWasmError Lowering
  | [] => return s
  | relativeDepth :: targets => do
      let (target, s) ← s.resolveBranch relativeDepth (s.len, start + arm)
      { s with brTableTargetBranches := s.brTableTargetBranches ++ [target] }.lowerBrTargets
        start (arm + 1) targets

/-- The effect of an operator that pops operands, acts on the instance and pushes
results. -/
def dataEffect : DataOp Nat Unit → StackEffectResult
  | .unary _ => .unaryOperator
  | .binary _ => .binaryOperator
  | .load _ _ => .loads
  | .store _ _ => .stores
  | op => .popPush op.inputs op.outputs

/-- The operator with its offset narrowed to a word. -/
def narrowOffset : DataOp Nat Unit → DataOp Nat Unit
  | .load op memarg => .load op (memarg % 2 ^ 32)
  | .store op memarg => .store op (memarg % 2 ^ 32)
  | op => op

/-- Lower an operator on data. -/
def lowerData (s : Lowering) (op : DataOp Nat Nat) :
    Attempt TraceWasmError (Lowered × Lowering) := do
  let op ← op.checkMemory
  return ((.data (narrowOffset op), dataEffect op), s)

/-- Open a label, as an operator that becomes the given instruction. -/
def lowerBlock
    (types : List FuncType) (s : Lowering) (kind : BlockKind) (blockty : BlockType)
    (lowered : Lowered) : Attempt TraceWasmError (Lowered × Lowering) := do
  let controlStack ← s.controlStack.addBlock kind blockty types
  return (lowered, { s with controlStack })

/-- Lower an `else`, and tell its label where it is. -/
def lowerElse (s : Lowering) : Attempt TraceWasmError (Lowered × Lowering) := do
  let block ← s.getBlock 0
  match block.kind with
  | .ifOp index _ =>
      let controlStack ← s.controlStack.modifyCurrBlock fun block =>
        { block with kind := .ifOp index (some s.len) }
      let controlStack ← controlStack.endUnreachableTraversing
      return ((.elseOp u32Max, .setHeight (block.recordedHeight + block.params)),
        { s with controlStack })
  | _ => Attempt.panicked

/-- The rest of the innermost label is dead. -/
def leaveBlock (s : Lowering) : Attempt TraceWasmError Lowering := do
  return { s with controlStack := ← s.controlStack.setUnreachableTraversing }

/-- Lower a `br`, behind which the code is dead. -/
def lowerBr (s : Lowering) (relativeDepth : Nat) :
    Attempt TraceWasmError (Lowered × Lowering) := do
  let (target, s) ← s.resolveBranch relativeDepth (s.len, u32Max)
  return ((.br target, .unreachable), ← s.leaveBlock)

/-- Lower a `br_if`. -/
def lowerBrIf (s : Lowering) (relativeDepth : Nat) :
    Attempt TraceWasmError (Lowered × Lowering) := do
  let (target, s) ← s.resolveBranch relativeDepth (s.len, u32Max)
  return ((.brIf target, .popPush 1 0), s)

/-- Lower a `br_table`, behind which the code is dead. -/
def lowerBrTable (s : Lowering) (targets : List Nat) (default : Nat) :
    Attempt TraceWasmError (Lowered × Lowering) := do
  let start := s.brTableTargetBranches.length
  let s ← s.lowerBrTargets start 0 (targets ++ [default])
  return ((.brTable start (targets.length + 1), .unreachable), ← s.leaveBlock)

/-- A branch to the function's label, which comes last. -/
def lowerReturn (s : Lowering) : Attempt TraceWasmError (Lowered × Lowering) := do
  let block ← .orPanic s.controlStack.inner.getLast?
  let s := { s with
    controlStack := s.controlStack.attachBreak (s.controlStack.inner.length - 1)
      (s.len, u32Max) }
  return ((.returnOp ⟨u32Max, block.results, block.recordedHeight⟩, .unreachable),
    ← s.leaveBlock)

/-- Lower a call. -/
def lowerCall (mod : ModuleTypes) (s : Lowering) (functionIndex : Nat) :
    Attempt TraceWasmError (Lowered × Lowering) := do
  let ty ← .orPanic (mod.funcType functionIndex)
  return ((.call functionIndex ty.params.length,
    .popPush ty.params.length ty.results.length), s)

/-- Lower a call through a table. -/
def lowerCallIndirect (types : List FuncType) (s : Lowering) (typeIndex tableIndex : Nat) :
    Attempt TraceWasmError (Lowered × Lowering) := do
  let ty ← .orPanic types[typeIndex]?
  return ((.callIndirect typeIndex tableIndex,
    .popPush (1 + ty.params.length) ty.results.length), s)

/-- The code and the `br_table` arms, which an `end` patches. -/
abbrev Patched := List StackInstruction × List Target

/-- Give one attached branch its target. -/
def patchBreak (index : Nat) (code : Patched) (attached : Nat × Nat) :
    Attempt TraceWasmError Patched := do
  match ← Attempt.orPanic code.1[attached.1]? with
  | .br target =>
      return (code.1.set attached.1 (.br { target with targetIndex := index }), code.2)
  | .brIf target =>
      return (code.1.set attached.1 (.brIf { target with targetIndex := index }), code.2)
  | .brTable _ _ => do
      let target ← Attempt.orPanic code.2[attached.2]?
      return (code.1, code.2.set attached.2 { target with targetIndex := index })
  | .returnOp target =>
      return (code.1.set attached.1 (.returnOp { target with targetIndex := index }), code.2)
  | _ => Attempt.panicked

/-- Give an `if` and its `else` the targets they need. -/
def patchIf (index : Nat) (instructions : List StackInstruction) :
    BlockKind → Attempt TraceWasmError (List StackInstruction)
  | .ifOp ifIndex elseIndex => do
      match ← Attempt.orPanic instructions[ifIndex]? with
      | .ifOp _ _ =>
          let instructions := instructions.set ifIndex (.ifOp elseIndex index)
          match elseIndex with
          | none => return instructions
          | some elseIndex =>
              match ← Attempt.orPanic instructions[elseIndex]? with
              | .elseOp _ => return instructions.set elseIndex (.elseOp index)
              | _ => Attempt.panicked
      | _ => Attempt.panicked
  | _ => return instructions

/-- Lower an `end`, and patch the branches that its label remembers. -/
def lowerEnd (s : Lowering) : Attempt TraceWasmError (Lowered × Lowering) := do
  match s.controlStack.inner with
  | [] => Attempt.panicked
  | block :: outer =>
      let (instructions, branches) ←
        block.attachedBreaks.foldlM (patchBreak s.len) (s.instructions, s.brTableTargetBranches)
      let instructions ← patchIf s.len instructions block.kind
      return ((.endOp block.results block.recordedHeight,
          .setHeight (block.recordedHeight + block.results)),
        { s with
          instructions
          brTableTargetBranches := branches
          controlStack := { s.controlStack with inner := outer } })

/-- The arm of an operator. -/
def lowerArm (mod : ModuleTypes) (s : Lowering) :
    Operator → Attempt TraceWasmError (Lowered × Lowering)
  | .localGet index => return ((.localGet index, .popPush 0 1), s)
  | .localSet index => return ((.localSet index, .popPush 1 0), s)
  | .localTee index => return ((.localTee index, .popPush 1 1), s)
  | .const value => return ((.const value, .popPush 0 1), s)
  | .data op => s.lowerData op
  | .dataDrop dataIndex => return ((.dataDrop dataIndex, .noEffect), s)
  | .nop => return ((.nop, .noEffect), s)
  | .drop => return ((.drop, .popPush 1 0), s)
  | .block blockty => lowerBlock mod.types s .block blockty (.block, .noEffect)
  | .loop blockty => lowerBlock mod.types s (.loop s.len) blockty (.loop, .noEffect)
  | .ifOp blockty =>
      lowerBlock mod.types s (.ifOp s.len none) blockty (.ifOp none u32Max, .popPush 1 0)
  | .elseOp => s.lowerElse
  | .endOp => s.lowerEnd
  | .br relativeDepth => s.lowerBr relativeDepth
  | .brIf relativeDepth => s.lowerBrIf relativeDepth
  | .brTable targets default => s.lowerBrTable targets default
  | .returnOp => s.lowerReturn
  | .call functionIndex => lowerCall mod s functionIndex
  | .callIndirect typeIndex tableIndex => lowerCallIndirect mod.types s typeIndex tableIndex
  | .unreachable => do return ((.unreachable, .noEffect), ← s.leaveBlock)
  | .tryTable _ debug => .fail (unsupportedInstruction debug)
  | .other op => .fail (unsupportedInstruction op.debug)

/-- One iteration of the loop over the operators. -/
def lowerOperator (mod : ModuleTypes) (s : Lowering) (located : Operator × Nat) :
    Attempt TraceWasmError Lowering := do
  let ((instruction, effect), s) ← s.lowerArm mod located.1
  let controlStack ← s.controlStack.applyEffect effect
  return { s with
    controlStack
    instructionOffsets := s.instructionOffsets ++ [located.2 % 2 ^ 32]
    instructions := s.instructions ++ [instruction] }

/-- The loop over the operators. -/
def lowerOperators (mod : ModuleTypes) (s : Lowering) (ops : List (Operator × Nat)) :
    Attempt TraceWasmError Lowering :=
  ops.foldlM (lowerOperator mod) s

end Lowering

/-- A lowered body: the instructions, the byte offsets of their operators, and the
arms of the `br_table`s. -/
structure LoweredFuncBody where
  instructions : List StackInstruction
  instructionOffsets : List Nat
  frame : StackFrameLayout

/-- Lower one function body, each operator with its byte offset. -/
def emitInstructionsForFunc
    (mod : ModuleTypes) (func : FuncHeader) (ops : List (Operator × Nat)) :
    Attempt TraceWasmError LoweredFuncBody := do
  let s ← (Lowering.initial func).lowerOperators mod ops
  return ⟨s.instructions, s.instructionOffsets, ⟨s.brTableTargetBranches⟩⟩

end Stack
end TraceWasm
