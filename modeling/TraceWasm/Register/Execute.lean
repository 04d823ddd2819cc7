import TraceWasm.Runtime.CallImported
import TraceWasm.Runtime.DataEffect
import TraceWasm.Runtime.Driver

/-!
# Executing register instructions

Operands are frame indices, counted from the base of the running frame.
-/

namespace TraceWasm
namespace Register

namespace RegFrame

/-- Read one operand, whatever region it lies in. -/
def slotValue (frame : RegFrame) (base : RegCallerBaseData) (slot : Slot) :
    Option Value :=
  frame.registers[base.baseRegisterIndex + slot]?

/-- Write one frame slot. -/
def setValue (frame : RegFrame) (base : RegCallerBaseData) (slot : Slot) (val : Value) :
    Option RegFrame := do
  guard (base.baseRegisterIndex + slot < frame.registers.length)
  return ⟨frame.registers.set (base.baseRegisterIndex + slot) val⟩

/-- Read a list of operands. -/
def slotValues (frame : RegFrame) (base : RegCallerBaseData) (slots : List Slot) :
    Option (List Value) :=
  slots.mapM (frame.slotValue base)

/-- Write a run of frame slots. -/
def setValues
    (frame : RegFrame) (base : RegCallerBaseData) (start : Slot) (vals : List Value) :
    Option RegFrame :=
  (writeRun frame.registers (base.baseRegisterIndex + start) vals).map RegFrame.mk

/-- Copy a local to a spill slot, whose index is the one of the slot in its own
region. -/
def spillLocal
    (frame : RegFrame) (base : RegCallerBaseData) (layout : RegFrameLayout)
    (index spillIndex : Nat) : Option RegFrame := do
  let val ← frame.slotValue base index
  frame.setValue base (layout.spillSlot spillIndex) val

/-- Read every source of a move, then write every destination. -/
def executeMov
    (frame : RegFrame) (base : RegCallerBaseData) (mov : DynSignature Slot) :
    Option RegFrame := do
  let tmp ← frame.slotValues base mov.input
  frame.setValues base mov.outputStart tmp

end RegFrame

section Execute

variable {memory registry : Type} [Memory memory]

/-- The instances of the register machine. -/
abbrev RegInstance (memory registry : Type) := Instance RegFrame memory registry

/-- What an instruction answers its driver, and the instance it leaves. -/
abbrev Answer (memory registry : Type) :=
  Attempt InstructionExecutionError (Step RegCallerBaseData) × RegInstance memory registry

/-- The lowered modules of the register machine. -/
abbrev RegModule := Module (RegInstruction Slot) RegFrameLayout

/-- Put a new register file into the instance and go on as told. -/
def proceed
    (inst : RegInstance memory registry) (frame : Option RegFrame)
    (step : Step RegCallerBaseData) : Answer memory registry :=
  match frame with
  | some frame => (.ok step, { inst with frame })
  | none => (Attempt.panicked, inst)

/-- The operator with its static offset in place of the offset's index in the
pool. -/
def resolveOffset (layout : RegFrameLayout) : DataOp Nat Unit → Option (DataOp Nat Unit)
  | .load op memarg => (layout.memoryOffsets[memarg]?).map (.load op)
  | .store op memarg => (layout.memoryOffsets[memarg]?).map (.store op)
  | op => some op

/-- Read the operands, act on the instance, and write the results. -/
def executeData
    (numerics : Numerics) (module : RegModule) (layout : RegFrameLayout)
    (base : RegCallerBaseData) (op : DataOp Nat Unit) (input : List Slot)
    (outputStart : Nat) (inst : RegInstance memory registry) :
    Answer memory registry :=
  match resolveOffset layout op, inst.frame.slotValues base input with
  | some op, some operands =>
      match op.effect numerics module inst operands with
      | (.ok results, inst) =>
          proceed inst (inst.frame.setValues base outputStart results) .next
      | (.error fault, inst) => (.error fault, inst)
  | _, _ => (Attempt.panicked, inst)

/-- Hand a call to the driver, or run it to completion when the callee is
imported. The base of the callee's frame is a 32-bit word. -/
def dispatch
    (host : ImportRegistry registry) (module : RegModule) (callee : FuncIndex)
    (isIndirect : Option Nat) (base : RegCallerBaseData) (callerBase : Nat)
    (inst : RegInstance memory registry) : Answer memory registry :=
  let calleeBase : RegCallerBaseData := ⟨callerBase + base.baseRegisterIndex⟩
  if 2 ^ 32 ≤ calleeBase.baseRegisterIndex then (Attempt.panicked, inst)
  else if module.importedFuncCount ≤ callee.toNat then
    (.ok (.call callee calleeBase isIndirect), inst)
  else
    match callImported host boundary callee module inst isIndirect calleeBase with
    | (.ok (), inst) => (.ok .next, inst)
    | (.error fault, inst) => (.error fault, inst)

/-- Bring the operands of an indirect call to where the callee's frame starts. -/
def stageOperands
    (frame : RegFrame) (base : RegCallerBaseData) (operands : List Slot)
    (paramsCount callerBase : Nat) : Option RegFrame := do
  guard (paramsCount ≤ operands.length)
  let tmp ← frame.slotValues base (operands.take paramsCount)
  frame.setValues base callerBase tmp

/-- The arm that a `br_table` index selects: the last one when it is too large. -/
def selectArm (targets : List (RegBrTableTarget Slot)) (index : Nat) :
    Option (RegBrTableTarget Slot) := do
  guard (0 < targets.length)
  targets[min index (targets.length - 1)]?

/-- Execute one instruction. -/
def execute
    (host : ImportRegistry registry) (numerics : Numerics) (module : RegModule)
    (instr : RegInstruction Slot) (layout : RegFrameLayout) (base : RegCallerBaseData)
    (inst : RegInstance memory registry) : Answer memory registry :=
  match instr with
  | .localSet index input | .localTee index input =>
      proceed inst
        ((inst.frame.slotValue base input).bind (inst.frame.setValue base index)) .next
  | .localSpill index spillIndex =>
      proceed inst (inst.frame.spillLocal base layout index spillIndex) .next
  | .data op input outputStart =>
      executeData numerics module layout base op input outputStart inst
  | .dataDrop dataIndex =>
      match DataOp.dropData inst dataIndex with
      | some inst => (.ok .next, inst)
      | none => (Attempt.panicked, inst)
  | .loop | .endOp => (.ok .next, inst)
  | .ifOp cond elseIndex endIndex =>
      match inst.frame.slotValue base cond with
      | none => (Attempt.panicked, inst)
      | some cond =>
          if cond.asI32 ≠ 0 then (.ok .next, inst)
          else
            match elseIndex with
            -- the first instruction of the else branch
            | some elseIndex => (.ok (.jumpTo (elseIndex + 1)), inst)
            | none => (.ok (.jumpTo endIndex), inst)
  | .elseOp endIndex => (.ok (.jumpTo endIndex), inst)
  | .br targetIndex | .returnOp targetIndex => (.ok (.jumpTo targetIndex), inst)
  | .brIf cond mov targetIndex =>
      match inst.frame.slotValue base cond with
      | none => (Attempt.panicked, inst)
      | some cond =>
          if cond.asI32 ≠ 0 then
            proceed inst (inst.frame.executeMov base mov) (.jumpTo targetIndex)
          else (.ok .next, inst)
  | .brTable index brTargets =>
      match (inst.frame.slotValue base index).bind
          fun index => selectArm brTargets index.asOffset with
      | none => (Attempt.panicked, inst)
      | some branch =>
          proceed inst (inst.frame.executeMov base branch.mov)
            (.jumpTo branch.targetIndex)
  | .call funcIndex callerBase =>
      dispatch host module (BitVec.ofNat 32 funcIndex) none base callerBase inst
  | .callIndirect tyIndex tableIndex slot operands callerBase =>
      match inst.frame.slotValue base slot with
      | none => (Attempt.panicked, inst)
      | some slot =>
          match resolveIndirect module inst tyIndex tableIndex slot.asOffset with
          | .error fault => (.error fault, inst)
          | .ok (callee, ty) =>
              match stageOperands inst.frame base operands.input ty.params.length
                  callerBase with
              | none => (Attempt.panicked, inst)
              | some frame =>
                  dispatch host module callee (some tableIndex) base callerBase
                    { inst with frame }
  | .unreachable => (.fail .unreachable, inst)
  | .move mov => proceed inst (inst.frame.executeMov base mov) .next

end Execute

end Register
end TraceWasm
