import TraceWasm.Register.DataCode
import TraceWasm.Register.Execute
import TraceWasm.Stack.DataCode
import TraceWasm.Stack.Execute

/-!
# Operators on data, from the operator to the machine

On the stack machine the instruction of an operator takes its operands from the top
of the operand stack and pushes its results. On the register machine it reads the
slots that lowering gave its operands, and writes the slot it gave the result. What
it does to the rest of the instance is the operator's effect, which sees the operands
only as a list.
-/

namespace TraceWasm

/-- The operator has the outcome, and changes nothing but the memory, whatever the
frame is. -/
def DataOp.Effects
    {frame memory registry Instr FrameLayout : Type} [Memory memory]
    (numerics : Numerics) (module : Module Instr FrameLayout)
    (inst : Instance frame memory registry) (op : DataOp Nat Unit) (operands : List Value)
    (outcome : Attempt InstructionExecutionError (List Value)) (m : memory) : Prop :=
  ∀ current : frame, op.effect numerics module { inst with frame := current } operands =
    (outcome, { inst with frame := current, memory := m })

namespace Stack

/-- A push over storage that is there overwrites it. -/
theorem pushAll_eq
    {s : Stack α} {vals : List α}
    (room : s.stackPointer + vals.length ≤ s.stack.length) :
    s.pushAll vals =
      ⟨overwrite s.stack s.stackPointer vals, s.stackPointer + vals.length⟩ := by
  induction vals generalizing s with
  | nil => rw [overwrite_nil]; rfl
  | cons val vals inductionHypothesis =>
      rw [List.length_cons] at room
      have pushed : s.push val = ⟨s.stack.set s.stackPointer val, s.stackPointer + 1⟩ :=
        if_pos (by omega)
      change (s.push val).pushAll vals = _
      rw [pushed, inductionHypothesis (by dsimp only; rw [List.length_set]; omega)]
      dsimp only
      rw [overwrite_cons val vals (by omega), List.length_cons, Nat.add_right_comm,
        Nat.add_assoc]

/-- What the machine answers, with the operands off and the results on the stack. -/
def dataAnswer
    {memory registry : Type} (inst : StackInstance memory registry) (below : List Value)
    (m : memory) : Attempt InstructionExecutionError (List Value) → Answer memory registry
  | .ok results => (.ok .next,
      { inst with
        memory := m
        frame := ⟨overwrite inst.frame.stack below.length results,
          below.length + results.length⟩ })
  | .error fault => (.error fault,
      { inst with memory := m, frame := ⟨inst.frame.stack, below.length⟩ })

theorem execute_data
    {memory registry : Type} [Memory memory] {host : ImportRegistry registry}
    {numerics : Numerics} {module : Module StackInstruction StackFrameLayout}
    {layout : StackFrameLayout} {base : StackCallerBaseData}
    {inst : StackInstance memory registry} {op : DataOp Nat Unit}
    {below operands : List Value} {m : memory}
    {outcome : Attempt InstructionExecutionError (List Value)}
    (valid : inst.frame.Valid)
    (onTop : inst.frame.live = below ++ operands)
    (count : operands.length = op.inputs)
    (effects : op.Effects numerics module inst operands outcome m)
    (fewer : ∀ results, outcome = .ok results → results.length ≤ operands.length) :
    execute host numerics module (.data op) layout base inst =
      dataAnswer inst below m outcome := by
  have height : inst.frame.stackPointer = below.length + operands.length := by
    rw [← length_live valid, onTop, List.length_append]
  have taken : inst.frame.takeRun op.inputs =
      some (operands, ⟨inst.frame.stack, below.length⟩) := by
    rw [takeRun_of_le valid (by omega), onTop, ← count, height, Nat.add_sub_cancel,
      List.drop_left]
  change executeData numerics module op inst = _
  unfold executeData
  rw [taken]
  dsimp only
  rw [effects]
  cases outcome with
  | error fault => rfl
  | ok results =>
      have room : below.length + results.length ≤ inst.frame.stack.length := by
        have bound : inst.frame.stackPointer ≤ inst.frame.stack.length := valid
        have few := fewer results rfl
        omega
      dsimp only
      rw [pushAll_eq room]
      rfl

/-- Wherever a validated body has the operator, its instruction does this. -/
def Lowers (op : DataOp Nat Nat) (Does : StackInstruction → Prop) : Prop :=
  ∀ (mod : ModuleTypes) (func : FuncHeader) (ops : List (Operator × Nat))
    (body : LoweredFuncBody) (position offset : Nat),
    Validates mod func (ops.map Prod.fst) →
    emitInstructionsForFunc mod func ops = .ok body →
    ops[position]? = some (.data op, offset) →
      ∃ instr, body.instructions[position]? = some instr ∧ Does instr

theorem lowers_of
    {op : DataOp Nat Nat} {Does : StackInstruction → Prop}
    (does : Does (.data (Lowering.narrowOffset op.dropMemory))) :
    Lowers op Does :=
  fun _ _ _ _ _ _ validates emitted found =>
    ⟨_, data_of_emitted validates emitted found, does⟩

end Stack

namespace Register

/-- What the machine answers, with the results in their slots. -/
def dataAnswer
    {memory registry : Type} (inst : RegInstance memory registry) (start : Nat)
    (m : memory) : Attempt InstructionExecutionError (List Value) → Answer memory registry
  | .ok results => (.ok .next,
      { inst with memory := m, frame := ⟨overwrite inst.frame.registers start results⟩ })
  | .error fault => (.error fault, { inst with memory := m })

theorem execute_data
    {memory registry : Type} [Memory memory] {host : ImportRegistry registry}
    {numerics : Numerics} {module : RegModule} {layout : RegFrameLayout}
    {base : RegCallerBaseData} {inst : RegInstance memory registry}
    {lowered op : DataOp Nat Unit} {input : List Slot} {outputStart : Nat}
    {operands : List Value} {m : memory}
    {outcome : Attempt InstructionExecutionError (List Value)}
    (resolved : resolveOffset layout lowered = some op)
    (read : inst.frame.slotValues base input = some operands)
    (effects : op.Effects numerics module inst operands outcome m)
    (room : ∀ results, outcome = .ok results →
      base.baseRegisterIndex + outputStart + results.length ≤ inst.frame.registers.length) :
    execute host numerics module (.data lowered input outputStart) layout base inst =
      dataAnswer inst (base.baseRegisterIndex + outputStart) m outcome := by
  change executeData numerics module layout base lowered input outputStart inst = _
  unfold executeData
  rw [resolved, read]
  dsimp only
  rw [effects inst.frame]
  cases outcome with
  | error fault => rfl
  | ok results =>
      dsimp only
      unfold RegFrame.setValues
      rw [writeRun_of_le (room results rfl)]
      rfl

/-- Wherever a validated body has the operator live, its instruction does this with the
slots of its operands, in the order they were pushed, and the slot of its result. -/
def Lowers
    (op : DataOp Nat Nat)
    (Does : RegFrameLayout → RegInstruction Slot → List Slot → Slot → Prop) : Prop :=
  ∀ (mod : ModuleTypes) (func : FuncHeader) (ops : List Operator)
    (body : LoweredFuncBody) (position : Nat),
    Validates mod func ops →
    emitInstructionsForFunc mod func ops = .ok body →
    ops[position]? = some (.data op) → ¬DeadAt ops position →
      ∃ state, Trace mod func ops state ops.length ∧
        Resolves mod func.localsCount (state ops.length) body ∧
        ∃ instr, body.instructions[(state position).code.length]? = some instr ∧
          Does body.frame instr
            ((((state position).view.take op.inputs).reverse).map
              (·.resolve func.localsCount body.frame.consts.length body.frame.spills))
            (Symbolic.baseOf func.localsCount ((state position).view.drop op.inputs) +
              body.frame.consts.length + body.frame.spills)

theorem resolveOffset_eq (layout : RegFrameLayout) (op : DataOp Nat Unit) :
    resolveOffset layout op = op.resolveOffset layout.memoryOffsets := by
  cases op <;> rfl

theorem lowers_of
    {op : DataOp Nat Nat}
    {Does : RegFrameLayout → RegInstruction Slot → List Slot → Slot → Prop}
    (does : ∀ layout lowered input outputStart,
      resolveOffset layout lowered = some op.meaning → input.length = op.inputs →
      (∀ slot ∈ input, slot < layout.width) → outputStart + op.outputs ≤ layout.width →
        Does layout (.data lowered input outputStart) input outputStart) :
    Lowers op Does := by
  intro mod func ops body position validates emitted found live
  obtain ⟨state, trace, resolves⟩ := resolves_of_emitted validates emitted
  obtain ⟨enough, lowered, isOffset, isInstr⟩ := data_of_emitted trace resolves found live
  have inside := resolves.inside isInstr
  refine ⟨state, trace, resolves, _, isInstr, ?_⟩
  apply does
  · rw [resolveOffset_eq]
    exact isOffset
  · rw [List.length_map, List.length_reverse, List.length_take, Nat.min_eq_left enough]
  · exact inside.operands
  · rw [← DataOp.outputs_eq isOffset]
    exact (inside.outputRuns _ List.mem_cons_self).2

/-- The slots of a frame that lies in the register file can be read. -/
theorem exists_slotValues
    {frame : RegFrame} {base : RegCallerBaseData} {width : Nat} {input : List Slot}
    (inFile : base.baseRegisterIndex + width ≤ frame.registers.length)
    (inside : ∀ slot ∈ input, slot < width) :
    ∃ operands, frame.slotValues base input = some operands ∧
      operands.length = input.length := by
  induction input with
  | nil => exact ⟨[], rfl, rfl⟩
  | cons slot input inductionHypothesis =>
      have first : slot < width := inside slot List.mem_cons_self
      obtain ⟨operands, read, count⟩ := inductionHypothesis
        fun other member => inside other (List.mem_cons_of_mem slot member)
      have slotInside : base.baseRegisterIndex + slot < frame.registers.length :=
        (Nat.add_lt_add_left first _).trans_le inFile
      have found : frame.slotValue base slot =
          some frame.registers[base.baseRegisterIndex + slot] :=
        List.getElem?_eq_getElem slotInside
      refine ⟨frame.registers[base.baseRegisterIndex + slot] :: operands, ?_,
        congrArg (· + 1) count⟩
      unfold RegFrame.slotValues at read ⊢
      rw [List.mapM_cons, found, read]
      rfl

end Register

end TraceWasm
