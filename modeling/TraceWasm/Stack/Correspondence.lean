import TraceWasm.Module.Code
import TraceWasm.Runtime.Framing
import TraceWasm.Stack.Machine
import TraceWasm.Stack.Matching

/-!
# Configurations of the stack machine and of the operators

A configuration of the stack machine corresponds to one of the machine that executes
the operators themselves when each activation runs the lowered body of the other's,
and the operand stack holds, call by call, the locals and all operands.
-/

namespace TraceWasm

namespace Wasm

/-- The operators with their positions. -/
def numbered (ops : List Operator) : List Located := ops.mapIdx Prod.mk

theorem getElem?_numbered (ops : List Operator) (position : Nat) :
    (numbered ops)[position]? = ops[position]?.map (Prod.mk position) :=
  List.getElem?_mapIdx

@[simp] theorem length_numbered (ops : List Operator) : (numbered ops).length = ops.length :=
  List.length_mapIdx

/-- The body itself, for the machine that executes operators. -/
def emitter : Emitter Located Layout := fun _ func ops =>
  return (numbered (ops.map Prod.fst), ops.map (·.2 % 2 ^ 32), ⟨ops.map Prod.fst, func.results⟩)

end Wasm

/-- The offset of a load or store is a word, as it is in a memory of 32 bits. -/
def Operator.Narrow : Operator → Prop
  | .data (.load _ memarg) => memarg < 2 ^ 32
  | .data (.store _ memarg) => memarg < 2 ^ 32
  | _ => True

namespace Stack

open Wasm (CallFrame CallStack Layout Located Shaped Stands numbered)

/-! ## Bodies -/

/-- Two bodies of one function: its operators, and what they are lowered to. -/
structure SameBody
    (mod : ModuleTypes) (func : FuncHeader) (located : List (Operator × Nat))
    (lowered : LoweredFuncBody) (source : FuncBody Located Layout)
    (target : FuncBody StackInstruction StackFrameLayout) : Prop where
  validates : Validates mod func (located.map Prod.fst)
  emitted : emitInstructionsForFunc mod func located = .ok lowered
  /-- Indices are words. -/
  fits : located.length ≤ 2 ^ 32
  narrow : ∀ op ∈ located.map Prod.fst, op.Narrow
  operators : source.instructions = numbered (located.map Prod.fst)
  layout : source.frameLayout = ⟨located.map Prod.fst, func.results⟩
  instructions : target.instructions = lowered.instructions
  frame : target.frameLayout = lowered.frame
  offsets : target.instructionOffsets = source.instructionOffsets

namespace SameBody

variable {mod : ModuleTypes} {func : FuncHeader} {located : List (Operator × Nat)}
  {lowered : LoweredFuncBody} {source : FuncBody Located Layout}
  {target : FuncBody StackInstruction StackFrameLayout}

theorem length_source (same : SameBody mod func located lowered source target) :
    source.instructions.length = (located.map Prod.fst).length := by
  rw [same.operators, Wasm.length_numbered]

theorem length_target (same : SameBody mod func located lowered source target) :
    target.instructions.length = (located.map Prod.fst).length := by
  rw [same.instructions, length_of_emitted same.validates same.emitted, List.length_map]

end SameBody

/-! ## What the operand stack holds -/

/-- The values of all calls, the outermost first. -/
def contents (outside : List Value) : List CallFrame → List Value
  | [] => outside
  | call :: calls => contents outside calls ++ call.locals ++ call.flat

/-- How high the values of all calls make the operand stack. -/
def heightOf (stack : CallStack) : Nat := (contents stack.outside stack.frames).length

/-- The frame of a call lies where its locals and operands are. -/
structure Placed
    (base : StackCallerBaseData) (outside : List Value) (call : CallFrame)
    (calls : List CallFrame) : Prop where
  baseHeight : base.baseHeight = (contents outside calls).length
  operandBase : base.calleeFrameBaseHeight =
    (contents outside calls).length + call.locals.length

/-- A call that waits for so many results behind a position. -/
structure Waits
    (mod : ModuleTypes) (func : FuncHeader) (ops : List Operator)
    (position results : Nat) (call : CallFrame) : Prop where
  inside : position + 1 < ops.length
  shaped : Shaped mod func ops (position + 1) call
  height : heights mod func ops (position + 1) = some (call.flat.length + results)

/-! ## Configurations -/

section Machines

variable {registry : Type}

/-- The machine of the operators. -/
abbrev sourceMachine (memory : Type) [Memory memory]
    (host : ImportRegistry registry) (numerics : Numerics) : Machine memory registry :=
  Wasm.machine host numerics

/-- The machine of the instructions. -/
abbrev stackMachine (memory : Type) [Memory memory]
    (host : ImportRegistry registry) (numerics : Numerics) : Machine memory registry :=
  Stack.machine host numerics

variable {memory : Type} [Memory memory] {host : ImportRegistry registry}
  {numerics : Numerics}
variable (mod : ModuleTypes) (outside : List Value)

/-- Two activations of one function. -/
structure SameActivation
    (func : FuncHeader) (located : List (Operator × Nat)) (lowered : LoweredFuncBody)
    (a : (sourceMachine memory host numerics).Activation)
    (b : (stackMachine memory host numerics).Activation) : Prop where
  funcIndex : b.funcIndex = a.funcIndex
  body : SameBody mod func located lowered a.body b.body

/-- Two callers suspended at one call. -/
structure SameCaller
    (f : (sourceMachine memory host numerics).Frame)
    (g : (stackMachine memory host numerics).Frame) : Prop where
  pc : g.pc = f.pc
  calleeResultsCount : g.calleeResultsCount = f.calleeResultsCount
  calleeFuncIndex : g.calleeFuncIndex = f.calleeFuncIndex
  calleeIsIndirect : g.calleeIsIndirect = f.calleeIsIndirect

/-- The suspended callers, below a function with so many results. The function that
was called from outside has as many as the caller takes. -/
inductive Suspended (entryResults : Nat) :
    Nat → List (sourceMachine memory host numerics).Frame →
      List (stackMachine memory host numerics).Frame → List CallFrame → Prop where
  | nil : Suspended entryResults entryResults [] [] []
  | cons
      {func : FuncHeader} {located : List (Operator × Nat)} {lowered : LoweredFuncBody}
      {f : (sourceMachine memory host numerics).Frame}
      {g : (stackMachine memory host numerics).Frame}
      {fs : List (sourceMachine memory host numerics).Frame}
      {gs : List (stackMachine memory host numerics).Frame}
      {call : CallFrame} {calls : List CallFrame}
      (activation : SameActivation mod func located lowered f.activation g.activation)
      (caller : SameCaller f g)
      (placed : Placed g.activation.callerBaseData outside call calls)
      (waits : Waits mod func (located.map Prod.fst) f.pc f.calleeResultsCount call)
      (callers : Suspended entryResults func.results fs gs calls) :
      Suspended entryResults f.calleeResultsCount (f :: fs) (g :: gs) (call :: calls)

/-- The stack machine runs the instruction of the operator that the other machine
runs, on the same operands. -/
structure Corresponds
    (entryResults : Nat) (func : FuncHeader) (located : List (Operator × Nat))
    (lowered : LoweredFuncBody) (call : CallFrame) (calls : List CallFrame)
    (c : (sourceMachine memory host numerics).Configuration)
    (d : (stackMachine memory host numerics).Configuration) : Prop where
  activation : SameActivation mod func located lowered c.activation d.activation
  pc : d.pc = c.pc
  inside : c.pc < (located.map Prod.fst).length
  frames : c.inst.frame = ⟨call :: calls, outside⟩
  inst : d.inst = c.inst.withFrame d.inst.frame
  segmented : Segmented d.inst.frame d.activation.callerBaseData (contents outside calls)
    call.locals call.flat
  stands : Stands mod func (located.map Prod.fst) c.pc call
  suspended : Suspended mod outside entryResults func.results c.frames d.frames calls

/-- The results are all that a finished call leaves. -/
def Leaves (entryResults : Nat) (left : CallStack) (stack : Stack Value) : Prop :=
  left.frames = [] ∧ entryResults ≤ left.outside.length ∧ stack.Holds left.outside

end Machines

end Stack
end TraceWasm
