import TraceWasm.Operators.Execution
import TraceWasm.Runtime.Integers

/-!
# Integer operators on both machines

An integer operator is specified by what it computes on numbers of its width.
Whichever machine executes the instruction it is lowered to, the result is that
number, and nothing but the result's slot changes.
-/

namespace TraceWasm

/-- An operator on integers, with what it means. -/
inductive IntegerOperator where
  | unary (op : UnaryOp) (meaning : UnaryMeaning) (means : op.meaning = some meaning)
  | binary (op : BinaryOp) (meaning : BinaryMeaning) (means : op.meaning = some meaning)

namespace IntegerOperator

/-- The operator as one on data. -/
def toDataOp {offset memory : Type} : IntegerOperator → DataOp offset memory
  | .unary op _ _ => .unary op
  | .binary op _ _ => .binary op

/-- The bits of the operator's result. -/
def resultWidth : IntegerOperator → Nat
  | .unary _ meaning _ => meaning.resultWidth
  | .binary _ meaning _ => meaning.resultWidth

/-- The number that the operator gives on operands read from slots at its width. -/
def value : IntegerOperator → List Value → Option Nat
  | .unary _ meaning _, [a] => some (meaning.apply (a.toNat % 2 ^ meaning.operandWidth))
  | .binary _ meaning _, [a, b] =>
      meaning.apply (a.toNat % 2 ^ meaning.operandWidth) (b.toNat % 2 ^ meaning.operandWidth)
  | _, _ => none

/-- The operator's outcome is its value, in a slot, or a trap. -/
def Outcome (op : IntegerOperator) (operands : List Value)
    (outcome : Attempt InstructionExecutionError (List Value)) : Prop :=
  match op.value operands with
  | some value => value < 2 ^ op.resultWidth ∧ outcome = .ok [BitVec.ofNat 64 value]
  | none => ∃ trap, outcome = .fail trap

section Effects

variable {frame memory registry Instr FrameLayout : Type} [Memory memory]

/-- What a unary operator does on either machine. -/
theorem effect_unary
    {numerics : Numerics} {module : Module Instr FrameLayout}
    {inst : Instance frame memory registry} {op : UnaryOp} {a : Value}
    (numeric : op ≠ .refIsNull) :
    (DataOp.unary op : DataOp Nat Unit).effect numerics module inst [a] =
      (numerics.unary op a >>= fun result => return [result], inst) := by
  cases op <;> first | rfl | exact absurd rfl numeric

/-- An integer operator has the outcome that it means. -/
theorem exists_effects
    (others : Numerics) (module : Module Instr FrameLayout)
    (inst : Instance frame memory registry) (op : IntegerOperator) {operands : List Value}
    (count : operands.length = (op.toDataOp : DataOp Nat Unit).inputs) :
    ∃ outcome, op.toDataOp.Effects others.withIntegers module inst operands outcome
      inst.memory ∧ op.Outcome operands outcome := by
  cases op with
  | unary op meaning means =>
      obtain ⟨a, rfl⟩ := List.length_eq_one_iff.mp count
      obtain ⟨result, arm, fits, rfl⟩ := UnaryOp.integerArm_answers means a
      have numeric : op ≠ .refIsNull := by
        rintro rfl
        cases means
      refine ⟨.ok [_], ?_, fits, rfl⟩
      intro current
      refine (effect_unary numeric).trans ?_
      dsimp only [Numerics.withIntegers]
      rw [arm]
      rfl
  | binary op meaning means =>
      obtain ⟨a, b, rfl⟩ := List.length_eq_two.mp count
      obtain ⟨outcome, arm, answers⟩ := BinaryOp.integerArm_answers means a b
      refine ⟨outcome.map fun result => [result], ?_, ?_⟩
      · intro current
        change (others.withIntegers.binary op a b >>= fun result => return [result], _) = _
        dsimp only [Numerics.withIntegers]
        rw [arm]
        cases outcome <;> rfl
      · unfold BinaryMeaning.Answers at answers
        unfold Outcome value resultWidth
        dsimp only
        revert answers
        cases meaning.apply (a.toNat % 2 ^ meaning.operandWidth)
            (b.toNat % 2 ^ meaning.operandWidth) with
        | some value =>
            rintro ⟨fits, rfl⟩
            exact ⟨fits, rfl⟩
        | none =>
            rintro ⟨trap, rfl⟩
            exact ⟨trap, rfl⟩

/-- An operator has one result. -/
theorem length_of_outcome
    {op : IntegerOperator} {operands results : List Value}
    (outcome : op.Outcome operands (.ok results)) :
    results.length = 1 := by
  unfold Outcome at outcome
  split at outcome
  · obtain ⟨_, same⟩ := outcome
    cases same
    rfl
  · obtain ⟨_, same⟩ := outcome
    cases same

end Effects

end IntegerOperator

/-! ## Traps -/

/-- The operands on which an operator traps. -/
def BinaryOp.Traps (i j : Nat) : BinaryOp → Prop
  | .i32DivU | .i32RemU | .i32RemS | .i64DivU | .i64RemU | .i64RemS => j = 0
  | .i32DivS => j = 0 ∨ (i = 2 ^ 31 ∧ j = 2 ^ 32 - 1)
  | .i64DivS => j = 0 ∨ (i = 2 ^ 63 ∧ j = 2 ^ 64 - 1)
  | _ => False

/-- A binary operator has no result exactly where it traps. -/
theorem BinaryOp.apply_eq_none
    {op : BinaryOp} {meaning : BinaryMeaning} {i j : Nat}
    (means : op.meaning = some meaning)
    (left : i < 2 ^ meaning.operandWidth) (right : j < 2 ^ meaning.operandWidth) :
    meaning.apply i j = none ↔ op.Traps i j := by
  have total : ∀ {value : Nat}, some value = none ↔ False := by simp
  cases op <;> cases means
  case i32DivS => exact Integer.idivS_eq_none (by decide) left right
  case i32DivU => exact Integer.idivU_eq_none
  case i32RemS => exact Integer.iremS_eq_none left right
  case i32RemU => exact Integer.iremU_eq_none
  case i64DivS => exact Integer.idivS_eq_none (by decide) left right
  case i64DivU => exact Integer.idivU_eq_none
  case i64RemS => exact Integer.iremS_eq_none left right
  case i64RemU => exact Integer.iremU_eq_none
  all_goals exact total

namespace IntegerOperator

/-- The operator has no result on the operands. -/
def Traps : IntegerOperator → List Value → Prop
  | .binary op meaning _, [a, b] =>
      op.Traps (a.toNat % 2 ^ meaning.operandWidth) (b.toNat % 2 ^ meaning.operandWidth)
  | _, _ => False

/-- The operands are the most negative number and minus one, of which a remainder is
taken. -/
def LeastRemainder (a b : Value) : IntegerOperator → Prop
  | .binary .i32RemS _ _ => a.toNat % 2 ^ 32 = 2 ^ 31 ∧ b.toNat % 2 ^ 32 = 2 ^ 32 - 1
  | .binary .i64RemS _ _ => a.toNat % 2 ^ 64 = 2 ^ 63 ∧ b.toNat % 2 ^ 64 = 2 ^ 64 - 1
  | _ => False

theorem value_of_leastRemainder
    {op : IntegerOperator} {a b : Value}
    (least : op.LeastRemainder a b) :
    op.value [a, b] = some 0 := by
  cases op with
  | unary op meaning means => exact least.elim
  | binary op meaning means =>
      cases op
      case i32RemS =>
          cases means
          change Integer.iremS 32 (a.toNat % 2 ^ 32) (b.toNat % 2 ^ 32) = some 0
          rw [least.1, least.2]
          exact Integer.iremS_least (by decide)
      case i64RemS =>
          cases means
          change Integer.iremS 64 (a.toNat % 2 ^ 64) (b.toNat % 2 ^ 64) = some 0
          rw [least.1, least.2]
          exact Integer.iremS_least (by decide)
      all_goals exact least.elim

/-- An operator has no value exactly where it traps. -/
theorem value_eq_none
    {op : IntegerOperator} {operands : List Value}
    (count : operands.length = (op.toDataOp : DataOp Nat Nat).inputs) :
    op.value operands = none ↔ op.Traps operands := by
  cases op with
  | unary op meaning means =>
      obtain ⟨a, rfl⟩ := List.length_eq_one_iff.mp count
      simp [value, Traps]
  | binary op meaning means =>
      obtain ⟨a, b, rfl⟩ := List.length_eq_two.mp count
      exact BinaryOp.apply_eq_none means (Nat.mod_lt _ (Nat.two_pow_pos _))
        (Nat.mod_lt _ (Nat.two_pow_pos _))

/-! ## Both machines -/

/-- Executing the operator gives what it means on both machines. -/
structure ExecutesAsMeant (op : IntegerOperator) (others : Numerics) : Prop where
  stack : Stack.Lowers op.toDataOp fun instr =>
    ∀ {memory registry : Type} [Memory memory] (host : ImportRegistry registry)
      (module : Module Stack.StackInstruction Stack.StackFrameLayout)
      (layout : Stack.StackFrameLayout) (base : Stack.StackCallerBaseData)
      (inst : Stack.StackInstance memory registry) (below operands : List Value),
      inst.frame.Valid → inst.frame.live = below ++ operands →
      operands.length = (op.toDataOp : DataOp Nat Nat).inputs →
        ∃ outcome, op.Outcome operands outcome ∧
          Stack.execute host others.withIntegers module instr layout base inst =
            Stack.dataAnswer inst below inst.memory outcome
  register : Register.Lowers op.toDataOp fun layout instr input output =>
    ∀ {memory registry : Type} [Memory memory] (host : ImportRegistry registry)
      (module : Register.RegModule) (base : Register.RegCallerBaseData)
      (inst : Register.RegInstance memory registry),
      base.baseRegisterIndex + layout.width ≤ inst.frame.registers.length →
        ∃ operands outcome, inst.frame.slotValues base input = some operands ∧
          operands.length = (op.toDataOp : DataOp Nat Nat).inputs ∧
          op.Outcome operands outcome ∧
          Register.execute host others.withIntegers module instr layout base inst =
            Register.dataAnswer inst (base.baseRegisterIndex + output) inst.memory outcome
  traps : ∀ operands, operands.length = (op.toDataOp : DataOp Nat Nat).inputs →
    (op.value operands = none ↔ op.Traps operands)
  leastRemainder : ∀ a b, op.LeastRemainder a b → op.value [a, b] = some 0

theorem narrowOffset_toDataOp (op : IntegerOperator) :
    Stack.Lowering.narrowOffset (op.toDataOp : DataOp Nat Nat).dropMemory = op.toDataOp := by
  cases op <;> rfl

/-- The integer operators of both machines are those of the specification. -/
theorem executes_as_meant (op : IntegerOperator) (others : Numerics) :
    op.ExecutesAsMeant others where
  stack := by
    apply Stack.lowers_of
    intro memory registry _ host module layout base inst below operands valid onTop count
    have inputs : operands.length = (op.toDataOp : DataOp Nat Unit).inputs := by
      cases op <;> exact count
    obtain ⟨outcome, effects, meant⟩ := exists_effects others module inst op inputs
    refine ⟨outcome, meant, ?_⟩
    rw [narrowOffset_toDataOp]
    apply Stack.execute_data valid onTop inputs effects
    rintro results rfl
    have one := length_of_outcome meant
    have some : 1 ≤ operands.length := by
      rw [inputs]
      cases op <;> exact Nat.succ_le_succ (Nat.zero_le _)
    omega
  register := by
    apply Register.lowers_of
    intro layout lowered input output resolved count inside outputLe
      memory registry _ host module base inst inFile
    obtain ⟨operands, read, sameCount⟩ := Register.exists_slotValues inFile inside
    have inputs : operands.length = (op.toDataOp : DataOp Nat Unit).inputs := by
      rw [sameCount, count]
      cases op <;> rfl
    obtain ⟨outcome, effects, meant⟩ := exists_effects others module inst op inputs
    refine ⟨operands, outcome, read, sameCount.trans count, meant, ?_⟩
    have same : (op.toDataOp : DataOp Nat Nat).meaning = op.toDataOp := by
      cases op <;> rfl
    rw [same] at resolved
    apply Register.execute_data resolved read effects
    rintro results rfl
    have one := length_of_outcome meant
    have outputs : (op.toDataOp : DataOp Nat Nat).outputs = 1 := by
      cases op <;> rfl
    omega
  traps := fun _ count => value_eq_none count
  leastRemainder := fun _ _ least => value_of_leastRemainder least

end IntegerOperator

end TraceWasm
