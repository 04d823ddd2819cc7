import TraceWasm.Runtime.CallImported
import TraceWasm.Runtime.DataEffect
import TraceWasm.Runtime.Driver

/-!
# Executing stack instructions

Every operand comes off the shared operand stack and every result goes onto it.
Locals are read and written in place, below the operands of their frame.
-/

namespace TraceWasm
namespace Stack

section Locals

/-- Read a local. The access is unchecked in a release build; a slot outside the
storage fails the assertion of a debug build. -/
def getLocal (s : Stack Value) (base : StackCallerBaseData) (index : Nat) :
    Option Value := do
  let slot ← addHeights index base.baseHeight
  s.stack[slot]?

/-- Write a local of the running function. -/
def setLocal (s : Stack Value) (base : StackCallerBaseData) (index : Nat) (val : Value) :
    Option (Stack Value) := do
  let slot ← addHeights index base.baseHeight
  guard (slot < s.stack.length)
  return { s with stack := s.stack.set slot val }

/-- Unwind to the height of a label, keeping what the branch carries. -/
def unwindTo (s : Stack Value) (base : StackCallerBaseData) (target : Target) :
    Option (Stack Value) := do
  let newHeight ← addHeights target.recordedHeight base.calleeFrameBaseHeight
  s.truncateByPreservingArity newHeight target.arity

/-- The height at which a label's `End` finds the stack. -/
def endHeight (base : StackCallerBaseData) (arity recordedHeight : Nat) : Option Nat := do
  addHeights (← addHeights recordedHeight arity) base.calleeFrameBaseHeight

/-- The arm that a `br_table` index selects: the last one when it is too large. -/
def selectArm (targets : List Target) (index : Nat) : Option Target := do
  guard (0 < targets.length)
  targets[min index (targets.length - 1)]?

end Locals

section Execute

variable {memory registry : Type} [Memory memory]

/-- The instances of the stack machine. -/
abbrev StackInstance (memory registry : Type) := Instance (Stack Value) memory registry

/-- What an instruction answers its driver, and the instance it leaves. -/
abbrev Answer (memory registry : Type) :=
  Attempt InstructionExecutionError (Step StackCallerBaseData) ×
    StackInstance memory registry

/-- Put a new operand stack into the instance and go on as told. -/
def proceed
    (inst : StackInstance memory registry) (frame : Option (Stack Value))
    (step : Step StackCallerBaseData) : Answer memory registry :=
  match frame with
  | some frame => (.ok step, { inst with frame })
  | none => (Attempt.panicked, inst)

/-- Take operands off, act on the instance, and push the results. -/
def executeData
    (numerics : Numerics) (module : Module StackInstruction StackFrameLayout)
    (op : DataOp Nat Unit) (inst : StackInstance memory registry) :
    Answer memory registry :=
  match inst.frame.takeRun op.inputs with
  | none => (Attempt.panicked, inst)
  | some (operands, frame) =>
      match op.effect numerics module { inst with frame } operands with
      | (.ok results, inst) => (.ok .next, { inst with frame := inst.frame.pushAll results })
      | (.error fault, inst) => (.error fault, inst)

/-- Hand a call to the driver, or run it to completion when the callee is
imported. -/
def dispatch
    (host : ImportRegistry registry) (module : Module StackInstruction StackFrameLayout)
    (callee : FuncIndex) (isIndirect : Option Nat) (paramsCount : Nat)
    (inst : StackInstance memory registry) : Answer memory registry :=
  if inst.frame.height < paramsCount then (Attempt.panicked, inst)
  else
    let calleeBase : StackCallerBaseData :=
      { StackCallerBaseData.initialData with
        baseHeight := inst.frame.height - paramsCount }
    if module.importedFuncCount ≤ callee.toNat then
      (.ok (.call callee calleeBase isIndirect), inst)
    else
      match callImported host boundary callee module inst isIndirect calleeBase with
      | (.ok (), inst) => (.ok .next, inst)
      | (.error fault, inst) => (.error fault, inst)

/-- Execute one instruction. -/
def execute
    (host : ImportRegistry registry) (numerics : Numerics)
    (module : Module StackInstruction StackFrameLayout)
    (instr : StackInstruction) (layout : StackFrameLayout) (base : StackCallerBaseData)
    (inst : StackInstance memory registry) : Answer memory registry :=
  match instr with
  | .const value => proceed inst (some (inst.frame.push value.toValue)) .next
  | .localGet index =>
      proceed inst ((inst.frame.getLocal base index).map inst.frame.push) .next
  | .localSet index =>
      proceed inst
        (inst.frame.pop.bind fun (val, frame) => frame.setLocal base index val) .next
  | .localTee index =>
      proceed inst
        (inst.frame.tee.bind fun val => inst.frame.setLocal base index val) .next
  | .data op => executeData numerics module op inst
  | .dataDrop dataIndex =>
      match DataOp.dropData inst dataIndex with
      | some inst => (.ok .next, inst)
      | none => (Attempt.panicked, inst)
  | .nop | .block | .loop => (.ok .next, inst)
  | .drop => proceed inst (inst.frame.pop.map Prod.snd) .next
  | .ifOp elseIndex endIndex =>
      match inst.frame.pop with
      | none => (Attempt.panicked, inst)
      | some (cond, frame) =>
          if cond.asI32 ≠ 0 then (.ok .next, { inst with frame })
          else
            match elseIndex with
            -- the first instruction of the else branch
            | some elseIndex => (.ok (.jumpTo (elseIndex + 1)), { inst with frame })
            | none => (.ok (.jumpTo endIndex), { inst with frame })
  | .elseOp ifEndIndex => (.ok (.jumpTo ifEndIndex), inst)
  | .endOp arity recordedHeight =>
      if endHeight base arity recordedHeight = some inst.frame.height
      then (.ok .next, inst)
      else (Attempt.panicked, inst)
  | .br target | .returnOp target =>
      proceed inst (inst.frame.unwindTo base target) (.jumpTo target.targetIndex)
  | .brIf target =>
      match inst.frame.pop with
      | none => (Attempt.panicked, inst)
      | some (cond, frame) =>
          if cond.asI32 ≠ 0 then
            proceed inst (frame.unwindTo base target) (.jumpTo target.targetIndex)
          else (.ok .next, { inst with frame })
  | .brTable startIndex len =>
      match inst.frame.pop with
      | none => (Attempt.panicked, inst)
      | some (index, frame) =>
          match (readRun layout.brTargetsArena startIndex len).bind
              (selectArm · index.asOffset) with
          | none => (Attempt.panicked, inst)
          | some target =>
              proceed inst (frame.unwindTo base target) (.jumpTo target.targetIndex)
  | .call funcIndex paramsCount =>
      dispatch host module (BitVec.ofNat 32 funcIndex) none paramsCount inst
  | .callIndirect tyIndex tableIndex =>
      match inst.frame.pop with
      | none => (Attempt.panicked, inst)
      | some (slot, frame) =>
          match resolveIndirect module inst tyIndex tableIndex slot.asOffset with
          | .error fault => (.error fault, { inst with frame })
          | .ok (callee, ty) =>
              dispatch host module callee (some tableIndex) ty.params.length
                { inst with frame }
  | .unreachable => (.fail .unreachable, inst)

end Execute

end Stack
end TraceWasm
