import TraceWasm.Wasm.Syntax

/-!
# Validation of a function body

The validator's algorithm with operand types erased: it keeps the number of
operands and a stack of control frames, innermost first. Every body that
passes the typed algorithm passes this one, so a result about the bodies
accepted here covers the bodies accepted there.
-/

namespace TraceWasm

/-- What a control frame was opened by, and for an `if` which arm is open. -/
inductive FrameKind where
  | func
  | block
  | loop
  | ifThen
  | ifElse
  | tryTable
  deriving DecidableEq

/-- A control frame of the validator. -/
structure Frame where
  kind : FrameKind
  params : Nat
  results : Nat
  /-- Operands below the frame. -/
  height : Nat
  /-- Whether the rest of the frame cannot be reached. -/
  unreachable : Bool
  deriving DecidableEq

/-- How many operands a branch to the frame carries. -/
def Frame.labelArity (frame : Frame) : Nat :=
  if frame.kind = .loop then frame.params else frame.results

/-- The open frames, and how many operands there are. -/
structure Validator where
  frames : List Frame
  height : Nat
  deriving DecidableEq

namespace Validator

/-- The state in which a function body starts. -/
def initial (params results : Nat) : Validator where
  frames := [⟨.func, params, results, 0, false⟩]
  height := 0

/-- Pop one operand. An unreachable frame supplies what it does not hold. -/
def popOperand (v : Validator) : Option Validator :=
  match v.frames with
  | [] => none
  | frame :: _ =>
      if frame.height < v.height then some { v with height := v.height - 1 }
      else if frame.unreachable then some v
      else none

/-- Pop operands of any types. -/
def popOperands (v : Validator) : Nat → Option Validator
  | 0 => some v
  | count + 1 => do (← v.popOperand).popOperands count

/-- Push operands of any types. -/
def pushOperands (v : Validator) (count : Nat) : Validator :=
  { v with height := v.height + count }

/-- Mark the rest of the innermost frame unreachable. -/
def setUnreachable (v : Validator) : Option Validator :=
  match v.frames with
  | [] => none
  | frame :: rest =>
      some ⟨{ frame with unreachable := true } :: rest, frame.height⟩

/-- Open a frame whose parameters are on the operand stack. -/
def pushFrame
    (v : Validator) (kind : FrameKind) (params results : Nat) :
    Option Validator := do
  let v ← v.popOperands params
  some ⟨⟨kind, params, results, v.height, false⟩ :: v.frames,
    v.height + params⟩

/-- Close the innermost frame, whose results are on the operand stack. -/
def popFrame (v : Validator) : Option (Frame × Validator) :=
  match v.frames with
  | [] => none
  | frame :: rest => do
      let v ← v.popOperands frame.results
      if v.height = frame.height then some (frame, ⟨rest, v.height⟩) else none

/-- Check one operator of a body with `localsCount` locals, of a function with
`results` results. -/
def step
    (mod : ModuleTypes)
    (localsCount results : Nat)
    (v : Validator) :
    Operator → Option Validator
  | .localGet index =>
      if index < localsCount ∧ v.frames ≠ [] then some (v.pushOperands 1)
      else none
  | .localSet index =>
      if index < localsCount then v.popOperand else none
  | .localTee index => do
      if index < localsCount then some ((← v.popOperand).pushOperands 1)
      else none
  | .const _ => if v.frames ≠ [] then some (v.pushOperands 1) else none
  | .data op => do
      if v.frames ≠ [] then
        some ((← v.popOperands op.inputs).pushOperands op.outputs)
      else none
  | .dataDrop _ => if v.frames ≠ [] then some v else none
  | .nop => if v.frames ≠ [] then some v else none
  | .drop => v.popOperand
  | .block blockty => do
      let (params, results) ← paramsAndResultsFromBlockty mod.types blockty
      if v.frames ≠ [] then v.pushFrame .block params results else none
  | .loop blockty => do
      let (params, results) ← paramsAndResultsFromBlockty mod.types blockty
      if v.frames ≠ [] then v.pushFrame .loop params results else none
  | .ifOp blockty => do
      let (params, results) ← paramsAndResultsFromBlockty mod.types blockty
      (← v.popOperand).pushFrame .ifThen params results
  | .elseOp => do
      let (frame, v) ← v.popFrame
      if frame.kind = .ifThen then
        some ⟨⟨.ifElse, frame.params, frame.results, frame.height, false⟩ ::
          v.frames, v.height + frame.params⟩
      else none
  | .endOp => do
      let (frame, v) ← v.popFrame
      -- an `if` without an `else` passes its parameters through
      if frame.kind = .ifThen ∧ frame.params ≠ frame.results then none
      else some (v.pushOperands frame.results)
  | .br depth => do
      let frame ← v.frames[depth]?
      (← v.popOperands frame.labelArity).setUnreachable
  | .brIf depth => do
      let frame ← v.frames[depth]?
      let v ← v.popOperand
      some ((← v.popOperands frame.labelArity).pushOperands frame.labelArity)
  | .brTable targets default => do
      let frame ← v.frames[default]?
      if ∀ depth ∈ targets,
          (v.frames[depth]?).map Frame.labelArity = some frame.labelArity then
        let v ← v.popOperand
        (← v.popOperands frame.labelArity).setUnreachable
      else none
  | .returnOp => do (← v.popOperands results).setUnreachable
  | .call func => do
      let ty ← mod.funcType func
      if v.frames ≠ [] then
        some ((← v.popOperands ty.params.length).pushOperands ty.results.length)
      else none
  | .callIndirect type _ => do
      let ty ← mod.types[type]?
      let v ← v.popOperand
      some ((← v.popOperands ty.params.length).pushOperands ty.results.length)
  | .unreachable => v.setUnreachable
  | .tryTable blockty _ => do
      let (params, results) ← paramsAndResultsFromBlockty mod.types blockty
      if v.frames ≠ [] then v.pushFrame .tryTable params results else none
  | .other op => do
      if v.frames ≠ [] then
        let v ← v.popOperands op.pops
        if op.diverges then v.setUnreachable
        else some (v.pushOperands op.pushes)
      else none

/-- Check a list of operators. -/
def run
    (mod : ModuleTypes) (localsCount results : Nat)
    (v : Validator) (ops : List Operator) : Option Validator :=
  ops.foldlM (step mod localsCount results) v

end Validator

/-- The signature and the number of locals, parameters included, of the
function whose body is compiled. -/
structure FuncHeader where
  params : Nat
  results : Nat
  localsCount : Nat
  /-- Parameters are the first locals. -/
  params_le : params ≤ localsCount
  /-- The validator's limit on locals, which keeps every local index in
  sixteen bits. -/
  locals_le : localsCount ≤ 50000

/-- The validator accepts the body: it closes the function's frame with the
last operator and not before. -/
def Validates
    (mod : ModuleTypes) (func : FuncHeader) (ops : List Operator) : Prop :=
  ∃ v, Validator.run mod func.localsCount func.results
      (.initial func.params func.results) ops = some v ∧ v.frames = []

end TraceWasm
