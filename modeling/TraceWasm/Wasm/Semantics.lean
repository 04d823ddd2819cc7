import TraceWasm.Instruction.Block
import TraceWasm.Runtime.CallImported
import TraceWasm.Runtime.DataEffect
import TraceWasm.Runtime.Driver
import TraceWasm.Wasm.Nesting

/-!
# What a function body means

The operators themselves are executed, without lowering them. A call has its own
locals, and its operands lie in labels: a construct that is entered sets aside what
lies below its parameters, and a branch leaves every label above the one it goes to.
Nothing is counted, so there are no heights to unwind to, and where a construct ends
is read off the body.
-/

namespace TraceWasm

/-! ## Where a construct goes on -/

namespace Operator

/-- The operator is an `end`. -/
def isEnd : Operator → Bool
  | .endOp => true
  | _ => false

/-- The operator is an `else`. -/
def isElse : Operator → Bool
  | .elseOp => true
  | _ => false

/-- The operator is a `loop`. -/
def isLoop : Operator → Bool
  | .loop _ => true
  | _ => false

end Operator

namespace Wasm

open Nesting (ElseAt EndsAt InnermostAt IsLoop LeadsTo OneElse)

/-- The position of a construct's `end`. -/
def endOf (ops : List Operator) (opener : Option Nat) : Option Nat :=
  (List.range ops.length).find? fun position =>
    ops[position]?.any Operator.isEnd && decide (InnermostAt ops opener position)

/-- The position of an `if`'s `else`. -/
def elseOf (ops : List Operator) (opener : Option Nat) : Option Nat :=
  (List.range ops.length).find? fun position =>
    ops[position]?.any Operator.isElse && decide (InnermostAt ops opener position)

/-- Whether a construct is a loop. -/
def opensLoop (ops : List Operator) (opener : Option Nat) : Bool :=
  (opener.bind (ops[·]?)).any Operator.isLoop

/-- Where a branch to a construct goes. -/
def continuation (ops : List Operator) (opener : Option Nat) : Option Nat :=
  if opensLoop ops opener then opener else endOf ops opener

/-! ## A call's own state -/

/-- A construct that is entered. -/
structure Label where
  opener : Option Nat
  /-- How many values a branch to it carries. -/
  arity : Nat
  /-- The operands that lie below it. -/
  below : List Value

/-- What a call has for itself. The innermost label comes first. -/
structure CallFrame where
  locals : List Value
  labels : List Label
  /-- The operands of the innermost label. -/
  operands : List Value

/-- The calls, the innermost one first, and the values that the caller from outside
hands over or takes back. -/
structure CallStack where
  frames : List CallFrame
  outside : List Value

/-- What the machine looks up beside an operator. -/
structure Layout where
  ops : List Operator
  results : Nat

/-- Split the topmost values off. -/
def splitTop (operands : List Value) (count : Nat) : Option (List Value × List Value) := do
  guard (count ≤ operands.length)
  return (operands.take (operands.length - count), operands.drop (operands.length - count))

namespace CallFrame

/-- The frame with one more operand. -/
def push (frame : CallFrame) (val : Value) : CallFrame :=
  { frame with operands := frame.operands ++ [val] }

/-- Enter a construct, whose parameters are on top. -/
def enterLabel
    (frame : CallFrame) (opener : Option Nat) (params arity : Nat) : Option CallFrame := do
  let (below, operands) ← splitTop frame.operands params
  return { frame with labels := ⟨opener, arity, below⟩ :: frame.labels, operands }

/-- Leave the innermost construct with all its operands. -/
def leaveLabel (frame : CallFrame) : Option CallFrame :=
  match frame.labels with
  | [] => none
  | label :: labels =>
      some { frame with labels, operands := label.below ++ frame.operands }

/-- Branch to a label, leaving those above it. A loop enters its own label again. -/
def branch
    (ops : List Operator) (frame : CallFrame) (depth : Nat) :
    Option (Step Unit × CallFrame) := do
  let label ← frame.labels[depth]?
  let (_, carried) ← splitTop frame.operands label.arity
  let target ← continuation ops label.opener
  if opensLoop ops label.opener then
    return (.jumpTo target,
      { frame with
        labels := frame.labels.drop (depth + 1)
        operands := label.below ++ carried })
  else
    return (.jumpTo target,
      { frame with labels := frame.labels.drop depth, operands := carried })

/-- What an operator without effects beyond its call does. -/
def act
    (types : List FuncType) (ops : List Operator) (position : Nat) (frame : CallFrame) :
    Operator → Option (Step Unit × CallFrame)
  | .const value => some (.next, frame.push value.toValue)
  | .localGet index => do
      let val ← frame.locals[index]?
      return (.next, frame.push val)
  | .localSet index => do
      guard (index < frame.locals.length)
      let val ← frame.operands.getLast?
      return (.next,
        { frame with
          locals := frame.locals.set index val
          operands := frame.operands.dropLast })
  | .localTee index => do
      guard (index < frame.locals.length)
      let val ← frame.operands.getLast?
      return (.next, { frame with locals := frame.locals.set index val })
  | .nop => some (.next, frame)
  | .drop => do
      let _ ← frame.operands.getLast?
      return (.next, { frame with operands := frame.operands.dropLast })
  | .block blockty => do
      let (params, results) ← paramsAndResultsFromBlockty types blockty
      return (.next, ← frame.enterLabel (some position) params results)
  | .loop blockty => do
      let (params, _) ← paramsAndResultsFromBlockty types blockty
      return (.next, ← frame.enterLabel (some position) params params)
  | .ifOp blockty => do
      let (params, results) ← paramsAndResultsFromBlockty types blockty
      let cond ← frame.operands.getLast?
      let frame ← { frame with operands := frame.operands.dropLast }.enterLabel
        (some position) params results
      if cond.asI32 ≠ 0 then return (.next, frame)
      else
        match elseOf ops (some position) with
        | some elseAt => return (.jumpTo (elseAt + 1), frame)
        | none => return (.jumpTo (← endOf ops (some position)), frame)
  | .elseOp => do
      let label ← frame.labels.head?
      return (.jumpTo (← endOf ops label.opener), frame)
  | .endOp => do return (.next, ← frame.leaveLabel)
  | .br depth => frame.branch ops depth
  | .brIf depth => do
      let cond ← frame.operands.getLast?
      let frame := { frame with operands := frame.operands.dropLast }
      if cond.asI32 ≠ 0 then frame.branch ops depth else return (.next, frame)
  | .brTable targets default => do
      let index ← frame.operands.getLast?
      { frame with operands := frame.operands.dropLast }.branch ops
        (targets[index.asOffset]?.getD default)
  | .returnOp => frame.branch ops (frame.labels.length - 1)
  | _ => none

@[simp] theorem act_nop
    (types : List FuncType) (ops : List Operator) (position : Nat) (frame : CallFrame) :
    frame.act types ops position .nop = some (.next, frame) := by
  simp only [act]

end CallFrame

namespace CallStack

/-- Take the topmost values of the innermost call, or of the outside. -/
def take (stack : CallStack) (count : Nat) : Option (List Value × CallStack) :=
  match stack.frames with
  | [] => do
      let (outside, taken) ← splitTop stack.outside count
      return (taken, { stack with outside })
  | frame :: frames => do
      let (operands, taken) ← splitTop frame.operands count
      return (taken, { stack with frames := { frame with operands } :: frames })

/-- Give values to the innermost call, or to the outside. -/
def give (stack : CallStack) (vals : List Value) : CallStack :=
  match stack.frames with
  | [] => { stack with outside := stack.outside ++ vals }
  | frame :: frames =>
      { stack with frames := { frame with operands := frame.operands ++ vals } :: frames }

/-- Begin a call: its arguments are its first locals. -/
def enterFrame
    (stack : CallStack) (paramsCount : Nat) (localsTy : List ValType) (layout : Layout) :
    Option CallStack := do
  let (args, stack) ← stack.take paramsCount
  let zeros ← Stack.zeros (localsTy.drop paramsCount)
  return { stack with
    frames := ⟨args ++ zeros, [⟨none, layout.results, []⟩], []⟩ :: stack.frames }

/-- End a call: its caller has the results. -/
def exitFrame (stack : CallStack) (resultsCount : Nat) : Option CallStack := do
  let (results, stack) ← stack.take resultsCount
  return { stack with frames := stack.frames.tail }.give results

/-- A stack without calls. -/
def reset (_ : CallStack) : CallStack where
  frames := []
  outside := []

/-- How the reference machine hands parameters to the host and takes results. -/
def boundary : HostBoundary CallStack Unit where
  getParams := fun stack paramsCount _ => stack.take paramsCount
  setResults := fun stack results _ => some (stack.give (results.map Val.toValue))

end CallStack

/-! ## The machine -/

section Execute

variable {memory registry : Type} [Memory memory]

/-- An operator with its position. -/
abbrev Located := Nat × Operator

/-- An instance of a module on the reference machine. -/
abbrev SourceInstance (memory registry : Type) := Instance CallStack memory registry

/-- What a step of the reference machine comes to. -/
abbrev SourceAnswer (memory registry : Type) :=
  Attempt InstructionExecutionError (Step Unit) × SourceInstance memory registry

/-- Call a function, or run it to completion when it is imported. -/
def callFunction
    (host : ImportRegistry registry) (module : Module Located Layout)
    (callee : FuncIndex) (isIndirect : Option Nat) (inst : SourceInstance memory registry) :
    SourceAnswer memory registry :=
  if module.importedFuncCount ≤ callee.toNat then (.ok (.call callee () isIndirect), inst)
  else
    match callImported host CallStack.boundary callee module inst isIndirect () with
    | (.ok (), inst) => (.ok .next, inst)
    | (.error fault, inst) => (.error fault, inst)

/-- Execute one operator. -/
def executeOperator
    (host : ImportRegistry registry) (numerics : Numerics)
    (module : Module Located Layout) (located : Located) (layout : Layout)
    (inst : SourceInstance memory registry) : SourceAnswer memory registry :=
  match located.2 with
  | .data op =>
      match inst.frame.take op.inputs with
      | none => (Attempt.panicked, inst)
      | some (operands, stack) =>
          match op.dropMemory.effect numerics module { inst with frame := stack } operands with
          | (.ok results, inst) =>
              (.ok .next, { inst with frame := inst.frame.give results })
          | (.error fault, inst) => (.error fault, inst)
  | .dataDrop dataIndex =>
      match DataOp.dropData inst dataIndex with
      | some inst => (.ok .next, inst)
      | none => (Attempt.panicked, inst)
  | .call functionIndex => callFunction host module (BitVec.ofNat 32 functionIndex) none inst
  | .callIndirect typeIndex tableIndex =>
      match inst.frame.take 1 with
      | some ([slot], stack) =>
          let inst := { inst with frame := stack }
          match resolveIndirect module inst typeIndex tableIndex slot.asOffset with
          | .error fault => (.error fault, inst)
          | .ok (callee, _) => callFunction host module callee (some tableIndex) inst
      | _ => (Attempt.panicked, inst)
  | .unreachable => (.fail .unreachable, inst)
  | op =>
      match inst.frame.frames with
      | [] => (Attempt.panicked, inst)
      | frame :: frames =>
          match frame.act module.types layout.ops located.1 op with
          | none => (Attempt.panicked, inst)
          | some (step, frame) =>
              (.ok step, { inst with frame := { inst.frame with frames := frame :: frames } })

theorem executeOperator_end
    {host : ImportRegistry registry} {numerics : Numerics}
    {module : Module Located Layout} {located : Located} {layout : Layout}
    {inst : SourceInstance memory registry} {step : Step Unit}
    (isEnd : located.2 = .endOp)
    (executed : (executeOperator host numerics module located layout inst).1 = .ok step) :
    step = .next := by
  unfold executeOperator at executed
  rw [isEnd] at executed
  dsimp only at executed
  cases called : inst.frame.frames with
  | nil =>
      rw [called] at executed
      cases executed
  | cons frame frames =>
      rw [called] at executed
      dsimp only [CallFrame.act] at executed
      cases left : frame.leaveLabel with
      | none =>
          rw [left] at executed
          cases executed
      | some after =>
          rw [left] at executed
          cases executed
          rfl

/-- The machine that executes operators. -/
def machine (host : ImportRegistry registry) (numerics : Numerics) :
    Machine memory registry where
  Instr := Located
  FrameLayout := Layout
  CallerBaseData := Unit
  RuntimeFrame := CallStack
  initialData := ()
  reset := CallStack.reset
  setInitialParams := fun stack params => stack.give (params.map Val.toValue)
  getFinalResults := fun stack resultsCount => stack.take resultsCount
  enterFrame := fun stack paramsCount localsTy _ layout =>
    (stack.enterFrame paramsCount localsTy layout).map fun stack => (stack, ())
  exitFrame := fun stack resultsCount _ _ => stack.exitFrame resultsCount
  execute := fun module located layout _ inst =>
    executeOperator host numerics module located layout inst
  IsEnd := fun located => located.2 = .endOp
  executeEnd := fun _ _ _ _ _ _ isEnd executed => executeOperator_end isEnd executed

end Execute

end Wasm
end TraceWasm
