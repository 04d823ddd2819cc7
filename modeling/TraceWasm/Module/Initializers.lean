import TraceWasm.Foundation.Integer
import TraceWasm.Foundation.Loop
import TraceWasm.Instruction.Block
import TraceWasm.Module.Instantiate

/-!
# What constant expressions mean

The lowering of a constant expression and its evaluator each have a list of the
operators they know. Both lists are the same one, and a validated expression that is
lowered evaluates to the value that the specification gives it.
-/

namespace TraceWasm

open Integer (iadd isub imul)
open Stack (StackInstruction)

namespace ConstExpr

/-! ## Lowering -/

/-- The instruction of an operator. The `end` has none, it closes the expression. The
printed form of an operator is the parser's. -/
def lowerOperator (debug : Operator → String) :
    Operator → Attempt TraceWasmError (Option StackInstruction)
  | .const value => return some (.const value)
  | .data (.globalGet index) => return some (.data (.globalGet index))
  | .data (.binary .i32Add) => return some (.data (.binary .i32Add))
  | .data (.binary .i32Sub) => return some (.data (.binary .i32Sub))
  | .data (.binary .i32Mul) => return some (.data (.binary .i32Mul))
  | .data (.binary .i64Add) => return some (.data (.binary .i64Add))
  | .data (.binary .i64Sub) => return some (.data (.binary .i64Sub))
  | .data (.binary .i64Mul) => return some (.data (.binary .i64Mul))
  | .endOp => return none
  | operator =>
      .fail (.unsupported
        ("operator `" ++ debug operator ++ "` in const expression stream"))

/-- `emit_instruction_for_const_expr`: up to the first `end`, or the end of the
operators. -/
def emitInstructionForConstExpr (debug : Operator → String) :
    List Operator → Attempt TraceWasmError ConstExpr
  | [] => return []
  | operator :: operators => do
      match ← lowerOperator debug operator with
      | none => return []
      | some instr => return instr :: (← emitInstructionForConstExpr debug operators)

/-! ## Validation -/

/-- The type of an arithmetic operator of constant expressions, and what it computes. -/
def arithmetic : BinaryOp → Option (ValType × (Nat → Nat → Nat))
  | .i32Add => some (.i32, iadd 32)
  | .i32Sub => some (.i32, isub 32)
  | .i32Mul => some (.i32, imul 32)
  | .i64Add => some (.i64, iadd 64)
  | .i64Sub => some (.i64, isub 64)
  | .i64Mul => some (.i64, imul 64)
  | _ => none

/-- What an expression is validated against. -/
structure Context where
  /-- The globals that are declared so far. -/
  globals : List GlobalType
  funcCount : Nat
  /-- A function index is a 32-bit word. -/
  funcFits : funcCount ≤ 2 ^ 32

/-- The immediate is of the type. -/
inductive Context.HasType (context : Context) : Const → ValType → Prop where
  | i32 : context.HasType (.i32 value) .i32
  | i64 : context.HasType (.i64 value) .i64
  | f32 : context.HasType (.f32 bits) .f32
  | f64 : context.HasType (.f64 bits) .f64
  | refNull : context.HasType (.ref none) (.ref ty)
  | refFunc
      (inside : func < context.funcCount) :
      context.HasType (.ref (some func)) (.ref ty)

/-- The operator takes one operand stack to another, the topmost type first. -/
inductive Context.Step (context : Context) :
    Operator → List ValType → List ValType → Prop where
  | const
      (typed : context.HasType value ty) :
      context.Step (.const value) below (ty :: below)
  | globalGet
      (declared : context.globals[index]? = some global)
      (immutable : global.isMutable = false) :
      context.Step (.data (.globalGet index)) below (global.contentType :: below)
  | binary
      (computes : arithmetic op = some (ty, compute)) :
      context.Step (.data (.binary op)) (ty :: ty :: below) (ty :: below)
  /-- The validator knows more operators than the lowering does. -/
  | other :
      context.Step (.other op) (inputs ++ below) (outputs ++ below)

/-- A value of one type is accepted for another. Any reference type is, for any. -/
def Accepted : ValType → ValType → Prop
  | .ref _, .ref _ => True
  | ty, expected => ty = expected

/-- From an operand stack on, the operators leave one value of the expected type. -/
inductive Context.Validates (context : Context) (expected : ValType) :
    List Operator → List ValType → Prop where
  | endOp
      (accepted : Accepted ty expected) :
      context.Validates expected [.endOp] [ty]
  | step
      (step : context.Step operator before after)
      (rest : context.Validates expected operators after) :
      context.Validates expected (operator :: operators) before

/-- Every global that is declared so far has a value of its type. -/
def Context.Assigned (context : Context) (globals : List Val) : Prop :=
  ∀ (index : Nat) (global : GlobalType), context.globals[index]? = some global →
    ∃ val : Val, globals[index]? = some val ∧ val.HasTy global.contentType

/-! ## Meaning -/

/-- A value as the specification has it. A float is its bit pattern. -/
inductive Denotation where
  | i32 (i : Nat)
  | i64 (i : Nat)
  | f32 (bits : BitVec 32)
  | f64 (bits : BitVec 64)
  | refNull
  | refFunc (func : Nat)

/-- The value of an immediate. -/
def ofConst : Const → Denotation
  | .i32 value => .i32 value.toNat
  | .i64 value => .i64 value.toNat
  | .f32 bits => .f32 bits
  | .f64 bits => .f64 bits
  | .ref none => .refNull
  | .ref (some func) => .refFunc func

/-- What a value stands for. -/
def denotation : Val → Denotation
  | .i32 value => .i32 value.toNat
  | .i64 value => .i64 value.toNat
  | .f32 bits => .f32 bits
  | .f64 bits => .f64 bits
  | .ref none => .refNull
  | .ref (some func) => .refFunc func.toNat

/-- Compute with two integers of a type. -/
def combine : ValType → (Nat → Nat → Nat) → Denotation → Denotation → Option Denotation
  | .i32, compute, .i32 left, .i32 right => some (.i32 (compute left right))
  | .i64, compute, .i64 left, .i64 right => some (.i64 (compute left right))
  | _, _, _, _ => none

/-- One operator on the specification's stack, the topmost value first. -/
def stepMeaning (globals : List Denotation) :
    Operator → List Denotation → Option (List Denotation)
  | .const value, stack => some (ofConst value :: stack)
  | .data (.globalGet index), stack => do
      let global ← globals[index]?
      return global :: stack
  | .data (.binary op), right :: left :: stack => do
      let (ty, compute) ← arithmetic op
      let value ← combine ty compute left right
      return value :: stack
  | _, _ => none

/-- The value of the expression. -/
def meaning (globals : List Denotation) :
    List Operator → List Denotation → Option Denotation
  | [], _ => none
  | .endOp :: _, [value] => some value
  | .endOp :: _, _ => none
  | operator :: operators, stack => do
      let stack ← stepMeaning globals operator stack
      meaning globals operators stack

/-! ## The evaluator's stack -/

/-- The stack holds the values, the topmost first. -/
structure Holds (stack : Stack Val) (vals : List Val) : Prop where
  valid : stack.Valid
  live : stack.live = vals.reverse

theorem Holds.empty : Holds Stack.empty [] := ⟨Nat.le_refl _, rfl⟩

/-- The stack after a push. -/
theorem Holds.push
    {stack : Stack Val}
    (holds : Holds stack vals) (val : Val) :
    Holds (stack.push val) (val :: vals) where
  valid := Stack.valid_push holds.valid val
  live := by rw [Stack.live_push holds.valid, holds.live, List.reverse_cons]

/-- The stack after a pop. -/
theorem Holds.pop
    {stack : Stack Val}
    (holds : Holds stack (val :: vals)) :
    ∃ below, stack.pop = some (val, below) ∧ Holds below vals := by
  obtain ⟨storage, pointer⟩ := stack
  have valid : pointer ≤ storage.length := holds.valid
  have live : storage.take pointer = vals.reverse ++ [val] := by
    rw [← List.reverse_cons]
    exact holds.live
  have length := congrArg List.length live
  rw [List.length_take_of_le valid, List.length_append, List.length_singleton] at length
  obtain ⟨height, rfl⟩ : ∃ height, pointer = height + 1 := ⟨_, length⟩
  rw [List.take_succ_eq_append_getElem valid] at live
  obtain ⟨below, top⟩ := List.append_inj' live rfl
  refine ⟨⟨storage, height⟩, ?_, Nat.le_of_succ_le valid, below⟩
  simp only [Stack.pop, List.getElem?_eq_getElem valid, List.singleton_inj.mp top]
  rfl

/-! ## One instruction -/

/-- A constant has its type. -/
theorem hasTy_constVal
    {context : Context}
    (typed : context.HasType value ty) :
    (constVal value).HasTy ty := by
  cases typed <;> constructor

/-- A constant means itself. -/
theorem denotation_constVal
    {context : Context}
    (typed : context.HasType value ty) :
    denotation (constVal value) = ofConst value := by
  cases typed with
  | refFunc inside =>
      have word := Nat.lt_of_lt_of_le inside context.funcFits
      exact congrArg Denotation.refFunc (Integer.toNat_ofNat_of_lt word)
  | _ => rfl

/-- Arithmetic on the two topmost words is that of the specification. -/
theorem i32Binary_eq
    {stack : Stack Val} {op : BitVec 32 → BitVec 32 → BitVec 32}
    (holds : Holds stack (.i32 right :: .i32 left :: vals)) :
    ∃ after, (i32Binary op stack : Attempt ε _) = .ok after ∧
      Holds after (.i32 (op left right) :: vals) := by
  obtain ⟨below, popRight, holds⟩ := holds.pop
  obtain ⟨rest, popLeft, holds⟩ := holds.pop
  refine ⟨rest.push (.i32 (op left right)), ?_, holds.push _⟩
  simp only [i32Binary, popRight, popLeft, Attempt.orPanic_some, Attempt.ok_bind, Val.asI32,
    Attempt.pure_eq]

/-- An operation takes the two topmost `i64`s. -/
theorem i64Binary_eq
    {stack : Stack Val} {op : BitVec 64 → BitVec 64 → BitVec 64}
    (holds : Holds stack (.i64 right :: .i64 left :: vals)) :
    ∃ after, (i64Binary op stack : Attempt ε _) = .ok after ∧
      Holds after (.i64 (op left right) :: vals) := by
  obtain ⟨below, popRight, holds⟩ := holds.pop
  obtain ⟨rest, popLeft, holds⟩ := holds.pop
  refine ⟨rest.push (.i64 (op left right)), ?_, holds.push _⟩
  simp only [i64Binary, popRight, popLeft, Attempt.orPanic_some, Attempt.ok_bind, Val.asI64,
    Attempt.pure_eq]

/-- The evaluator takes the stack to one that holds the values, and the specification's
step agrees with it. -/
def Takes (globals : List Val) (stack : Stack Val) (vals : List Val) (after : List ValType)
    (operator : Operator) (instr : StackInstruction) (ε : Type) : Prop :=
  ∃ stack' vals', (evalInstruction globals stack instr : Attempt ε _) = .ok stack' ∧
    Holds stack' vals' ∧ List.Forall₂ Val.HasTy vals' after ∧
    stepMeaning (globals.map denotation) operator (vals.map denotation) =
      some (vals'.map denotation)

section Binary

variable {stack : Stack Val}

/-- An arithmetic operator on two `i32`s computes its meaning. -/
theorem takes_i32
    (computes : arithmetic op = some (.i32, compute))
    (exact : ∀ x y : BitVec 32, (word x y).toNat = compute x.toNat y.toNat)
    (evaluates : (evalInstruction globals stack (.data (.binary op)) : Attempt ε _) =
      i32Binary word stack)
    (holds : Holds stack (right :: left :: vals))
    (rightTyped : right.HasTy .i32)
    (leftTyped : left.HasTy .i32)
    (typed : List.Forall₂ Val.HasTy vals below) :
    Takes globals stack (right :: left :: vals) (.i32 :: below) (.data (.binary op))
      (.data (.binary op)) ε := by
  cases rightTyped
  cases leftTyped
  obtain ⟨after, evaluated, holds⟩ := i32Binary_eq holds
  refine ⟨after, _, evaluates.trans evaluated, holds, .cons .i32 typed, ?_⟩
  simp [stepMeaning, computes, combine, denotation, exact]

/-- An arithmetic operator on two `i64`s computes its meaning. -/
theorem takes_i64
    (computes : arithmetic op = some (.i64, compute))
    (exact : ∀ x y : BitVec 64, (word x y).toNat = compute x.toNat y.toNat)
    (evaluates : (evalInstruction globals stack (.data (.binary op)) : Attempt ε _) =
      i64Binary word stack)
    (holds : Holds stack (right :: left :: vals))
    (rightTyped : right.HasTy .i64)
    (leftTyped : left.HasTy .i64)
    (typed : List.Forall₂ Val.HasTy vals below) :
    Takes globals stack (right :: left :: vals) (.i64 :: below) (.data (.binary op))
      (.data (.binary op)) ε := by
  cases rightTyped
  cases leftTyped
  obtain ⟨after, evaluated, holds⟩ := i64Binary_eq holds
  refine ⟨after, _, evaluates.trans evaluated, holds, .cons .i64 typed, ?_⟩
  simp [stepMeaning, computes, combine, denotation, exact]

/-- An arithmetic operator computes its meaning. -/
theorem takes_binary
    (computes : arithmetic op = some (ty, compute))
    (holds : Holds stack (right :: left :: vals))
    (rightTyped : right.HasTy ty)
    (leftTyped : left.HasTy ty)
    (typed : List.Forall₂ Val.HasTy vals below) :
    Takes globals stack (right :: left :: vals) (ty :: below) (.data (.binary op))
      (.data (.binary op)) ε := by
  unfold arithmetic at computes
  split at computes <;> cases computes
  · exact takes_i32 rfl Integer.toNat_add rfl holds rightTyped leftTyped typed
  · exact takes_i32 rfl Integer.toNat_sub rfl holds rightTyped leftTyped typed
  · exact takes_i32 rfl Integer.toNat_mul rfl holds rightTyped leftTyped typed
  · exact takes_i64 rfl Integer.toNat_add rfl holds rightTyped leftTyped typed
  · exact takes_i64 rfl Integer.toNat_sub rfl holds rightTyped leftTyped typed
  · exact takes_i64 rfl Integer.toNat_mul rfl holds rightTyped leftTyped typed

end Binary

/-- The lowering's list: which operators have an instruction, and which one. -/
inductive Lowered : Operator → StackInstruction → Prop where
  | const : Lowered (.const value) (.const value)
  | globalGet : Lowered (.data (.globalGet index)) (.data (.globalGet index))
  | binary
      (computes : arithmetic op = some result) :
      Lowered (.data (.binary op)) (.data (.binary op))

/-- Only a constant operator is lowered. -/
theorem lowerOperator_eq_some
    {debug : Operator → String} :
    lowerOperator debug operator = .ok (some instr) ↔ Lowered operator instr := by
  constructor
  · intro lowered
    unfold lowerOperator at lowered
    split at lowered <;> cases lowered <;>
      first | exact .const | exact .globalGet | exact .binary rfl
  · intro lowered
    cases lowered with
    | const => rfl
    | globalGet => rfl
    | binary computes =>
        unfold arithmetic at computes
        split at computes <;> cases computes <;> rfl

/-- Only an `end` is dropped. -/
theorem lowerOperator_eq_none
    {debug : Operator → String} :
    lowerOperator debug operator = .ok none ↔ operator = .endOp := by
  constructor
  · intro closes
    unfold lowerOperator at closes
    split at closes <;> cases closes
    rfl
  · rintro rfl
    rfl

/-- The evaluator has an arm for the instruction, other than its panic. -/
def Implements (instr : StackInstruction) : Prop :=
  ∃ globals stack after, (evalInstruction globals stack instr : Attempt Empty _) = .ok after

/-- An instruction that takes its operands implements its operator. -/
theorem Takes.implements
    (takes : Takes globals stack vals after operator instr Empty) :
    Implements instr := by
  obtain ⟨after, _, evaluated, _⟩ := takes
  exact ⟨globals, stack, after, evaluated⟩

/-- Every type of an arithmetic operator has a value. -/
theorem exists_hasTy
    (computes : arithmetic op = some (ty, compute)) :
    ∃ val : Val, val.HasTy ty := by
  unfold arithmetic at computes
  split at computes <;> cases computes
  all_goals first | exact ⟨.i32 0, .i32⟩ | exact ⟨.i64 0, .i64⟩

/-- Every lowered instruction implements its operator. -/
theorem implements_of_lowered
    (lowered : Lowered operator instr) :
    Implements instr := by
  cases lowered with
  | const => exact ⟨[], .empty, _, rfl⟩
  | @globalGet index =>
      refine ⟨List.replicate (index + 1) (.i32 0), .empty, Stack.empty.push (.i32 0), ?_⟩
      simp only [evalInstruction, List.getElem?_replicate_of_lt (Nat.lt_succ_self index),
        Attempt.orPanic_some, Attempt.ok_bind, Attempt.pure_eq]
  | @binary op result computes =>
      obtain ⟨ty, compute⟩ := result
      obtain ⟨val, typed⟩ := exists_hasTy computes
      have holds := (Holds.empty.push val).push val
      have takes : Takes [] _ [val, val] [ty] _ _ Empty :=
        takes_binary computes holds typed typed .nil
      exact takes.implements

/-- The evaluator's list is the lowering's. -/
theorem implements_iff
    {debug : Operator → String} {instr : StackInstruction} :
    Implements instr ↔
      (∃ operator, lowerOperator debug operator = .ok (some instr)) ∨
        ∃ arity recordedHeight, instr = .endOp arity recordedHeight := by
  constructor
  · rintro ⟨globals, stack, after, evaluated⟩
    unfold evalInstruction at evaluated
    split at evaluated
    · exact .inl ⟨_, lowerOperator_eq_some.mpr .const⟩
    · exact .inl ⟨_, lowerOperator_eq_some.mpr .globalGet⟩
    iterate 6 exact .inl ⟨_, lowerOperator_eq_some.mpr (.binary rfl)⟩
    · exact .inr ⟨_, _, rfl⟩
    · cases evaluated
  · rintro (⟨operator, lowered⟩ | ⟨arity, recordedHeight, rfl⟩)
    · exact implements_of_lowered (lowerOperator_eq_some.mp lowered)
    · exact ⟨[], .empty, .empty, rfl⟩

/-! ## The expression -/

/-- A value of an accepted type has the expected one. -/
theorem Accepted.hasTy
    {val : Val}
    (accepted : Accepted ty expected)
    (typed : val.HasTy ty) :
    val.HasTy expected := by
  cases typed <;> cases expected <;> first | constructor | cases accepted

/-- One instruction. -/
theorem takes_of_step
    {context : Context} {stack : Stack Val}
    (step : context.Step operator before after)
    (lowered : Lowered operator instr)
    (assigned : context.Assigned globals)
    (holds : Holds stack vals)
    (typed : List.Forall₂ Val.HasTy vals before) :
    Takes globals stack vals after operator instr ε := by
  cases lowered with
  | const =>
      cases step with
      | const valueTyped =>
          refine ⟨_, _, rfl, holds.push _, .cons (hasTy_constVal valueTyped) typed, ?_⟩
          rw [List.map_cons, denotation_constVal valueTyped]
          rfl
  | globalGet =>
      cases step with
      | globalGet declared immutable =>
          obtain ⟨val, found, valTyped⟩ := assigned _ _ declared
          refine ⟨stack.push val, _, ?_, holds.push val, .cons valTyped typed, ?_⟩
          · simp only [evalInstruction, found, Attempt.orPanic_some, Attempt.ok_bind,
              Attempt.pure_eq]
          · simp [stepMeaning, found]
  | binary _ =>
      cases step with
      | binary computes =>
          obtain _ | ⟨rightTyped, _ | ⟨leftTyped, typed⟩⟩ := typed
          exact takes_binary computes holds rightTyped leftTyped typed

/-- The meaning of an expression starts with its first operator. -/
theorem meaning_cons
    {context : Context}
    (step : context.Step operator before after)
    (globals : List Denotation) (operators : List Operator) (stack : List Denotation) :
    meaning globals (operator :: operators) stack =
      (stepMeaning globals operator stack).bind (meaning globals operators) := by
  cases step <;> rfl

/-- From a stack that holds values of the types on, the expression leaves one value,
and it is the one that is meant. -/
theorem foldlM_of_validates
    {ε : Type} {context : Context} {stack : Stack Val} {debug : Operator → String}
    (validates : context.Validates expected operators types)
    (emitted : emitInstructionForConstExpr debug operators = .ok init)
    (assigned : context.Assigned globals)
    (holds : Holds stack vals)
    (typed : List.Forall₂ Val.HasTy vals types) :
    ∃ after val, (init.foldlM (evalInstruction globals) stack : Attempt ε _) = .ok after ∧
      Holds after [val] ∧ val.HasTy expected ∧
      meaning (globals.map denotation) operators (vals.map denotation) =
        some ( denotation val) := by
  induction validates generalizing init stack vals with
  | endOp accepted =>
      cases emitted
      obtain _ | ⟨valTyped, _ | _⟩ := typed
      exact ⟨stack, _, rfl, holds, accepted.hasTy valTyped, rfl⟩
  | @step operator before after operators step rest inductionHypothesis =>
      obtain ⟨instr?, lowered, emitted⟩ := Attempt.bind_eq_ok.mp emitted
      cases instr? with
      | none =>
          cases lowerOperator_eq_none.mp lowered
          cases step
      | some instr =>
          dsimp only at emitted
          obtain ⟨instrs, emittedRest, same⟩ := Attempt.bind_eq_ok.mp emitted
          cases same
          obtain ⟨stack', vals', evaluated, holds, typed, meant⟩ :=
            takes_of_step step (lowerOperator_eq_some.mp lowered) assigned holds typed
          obtain ⟨final, val, folded, holds, valTyped, value⟩ :=
            inductionHypothesis emittedRest holds typed
          refine ⟨final, val, ?_, holds, valTyped, ?_⟩
          · rw [List.foldlM_cons, evaluated]
            exact folded
          · rw [meaning_cons step, meant]
            exact value

/-- An expression that leaves one value evaluates to it. -/
theorem evaluate_of_holds
    {ε : Type} {stack : Stack Val}
    (folded : (List.foldlM (evalInstruction globals) Stack.empty init : Attempt ε _) =
      .ok stack)
    (holds : Holds stack [val]) :
    (evaluate init globals : Attempt ε Val) = .ok val := by
  obtain ⟨below, popped, _⟩ := holds.pop
  unfold evaluate
  rw [folded, Attempt.ok_bind, popped]
  rfl

/-- The evaluator leaves exactly one value, the one that is meant. -/
def LeavesMeaning
    (globals : List Val) (operators : List Operator) (expected : ValType)
    (init : ConstExpr) (ε : Type) : Prop :=
  ∃ stack val,
    (init.foldlM (evalInstruction globals) Stack.empty : Attempt ε _) = .ok stack ∧
      stack.live = [val] ∧
      (init.evaluate globals : Attempt ε Val) = .ok val ∧
      val.HasTy expected ∧
      meaning (globals.map denotation) operators [] = some ( denotation val)

/-- What the lowering accepts is what the evaluator implements. -/
structure SameOperators (debug : Operator → String) : Prop where
  instructions : ∀ instr, Implements instr ↔
    (∃ operator, lowerOperator debug operator = .ok (some instr)) ∨
      ∃ arity recordedHeight, instr = .endOp arity recordedHeight
  closes : ∀ operator, lowerOperator debug operator = .ok none ↔ operator = .endOp

/-- A validated expression leaves its meaning. -/
theorem leavesMeaning_of_validates
    {ε : Type} {debug : Operator → String} {context : Context}
    (validates : context.Validates expected operators [])
    (emitted : emitInstructionForConstExpr debug operators = .ok init)
    (assigned : context.Assigned globals) :
    LeavesMeaning globals operators expected init ε := by
  obtain ⟨stack, val, folded, holds, typed, meant⟩ :=
    @foldlM_of_validates _ _ _ _ _ _ ε _ _ _ validates emitted assigned Holds.empty .nil
  exact ⟨stack, val, folded, holds.live, evaluate_of_holds folded holds, typed, meant⟩

/-- A validated expression that is lowered evaluates to what it means, whatever the
values of the globals. -/
theorem evaluates_as_meant
    (ε : Type) (debug : Operator → String) (context : Context)
    {operators : List Operator} {expected : ValType} {init : ConstExpr} {globals : List Val}
    (validates : context.Validates expected operators [])
    (emitted : emitInstructionForConstExpr debug operators = .ok init)
    (assigned : context.Assigned globals) :
    LeavesMeaning globals operators expected init ε ∧ SameOperators debug := by
  constructor
  · exact leavesMeaning_of_validates validates emitted assigned
  · exact ⟨fun _ => implements_iff, fun _ => lowerOperator_eq_none⟩

/-- The negation of a global. -/
theorem evaluates_as_meant_negation :
    LeavesMeaning [.i32 7]
        [.data (.globalGet 0), .const (.i32 (-1)), .data (.binary .i32Mul), .endOp] .i32
        [.data (.globalGet 0), .const (.i32 (-1)), .data (.binary .i32Mul)] Empty ∧
      SameOperators fun _ => "" := by
  let context : Context := ⟨[⟨.i32, false⟩], 0, Nat.zero_le _⟩
  apply evaluates_as_meant Empty (fun _ => "") context _ rfl
  · rintro (_ | index) global declared
    · cases declared
      exact ⟨.i32 7, rfl, .i32⟩
    · cases declared
  · exact .step (.globalGet rfl rfl) (.step (.const .i32) (.step (.binary rfl) (.endOp rfl)))

/-! ## The globals of a module -/

/-- Every initializer is a validated expression over the globals before it. -/
inductive Declares (debug : Operator → String) (funcCount : Nat)
    (funcFits : funcCount ≤ 2 ^ 32) : List GlobalType → List Global → Prop where
  | nil : Declares debug funcCount funcFits before []
  | cons
      (validates : Context.Validates ⟨before, funcCount, funcFits⟩ ty.contentType operators [])
      (emitted : emitInstructionForConstExpr debug operators = .ok init)
      (rest : Declares debug funcCount funcFits (before ++ [ty]) globals) :
      Declares debug funcCount funcFits before (⟨ty, .«local» init⟩ :: globals)

/-- The values are of the types. -/
abbrev Typed (vals : List Val) (types : List GlobalType) : Prop :=
  List.Forall₂ (fun val global => Val.HasTy val global.contentType) vals types

/-- Typed globals are an assignment of the context. -/
theorem assigned_of_typed
    {context : Context}
    (typed : Typed vals context.globals) :
    context.Assigned vals := by
  intro index global declared
  obtain ⟨inside, same⟩ := List.getElem?_eq_some_iff.mp declared
  have length := typed.length_eq
  refine ⟨vals[index], List.getElem?_eq_getElem (by omega), ?_⟩
  rw [← same]
  exact typed.get _ _

/-- Instantiation gives every global a value of its type, and panics at none. -/
theorem foldlM_pushLocalGlobal
    {debug : Operator → String} {globals : List Global} {before : List GlobalType}
    {vals : List Val}
    (declares : Declares debug funcCount funcFits before globals)
    (typed : Typed vals before) :
    ∃ final, globals.foldlM Instantiate.pushLocalGlobal vals = .ok final ∧
      Typed final (before ++ globals.map Global.ty) := by
  induction declares generalizing vals with
  | nil => exact ⟨vals, rfl, by rwa [List.map_nil, List.append_nil]⟩
  | cons validates emitted _ inductionHypothesis =>
      obtain ⟨_, val, _, _, evaluated, valTyped, _⟩ :=
        @leavesMeaning_of_validates _ _ _ _ InstantiateError _ _ validates emitted
          (assigned_of_typed typed)
      obtain ⟨final, folded, finalTyped⟩ :=
        inductionHypothesis (List.rel_append typed (.cons valTyped .nil))
      refine ⟨final, ?_, ?_⟩
      · rw [List.foldlM_cons]
        simp only [Instantiate.pushLocalGlobal, evaluated, Attempt.ok_bind, Attempt.pure_eq]
        exact folded
      · rw [List.map_cons, List.append_cons]
        exact finalTyped

/-- What a host answers for a global is checked against its type. -/
theorem hasTy_of_importedGlobal
    {registry : Type} {host : ImportRegistry registry} {importRegistry : registry}
    {global : Global} {val : Val}
    (imported : Instantiate.importedGlobal host importRegistry global = .ok val) :
    val.HasTy global.ty.contentType := by
  unfold Instantiate.importedGlobal at imported
  split at imported
  · cases imported
  · split at imported
    · cases imported
    · dsimp only at imported
      split at imported
      · cases imported
      · rename_i answer
        cases imported
        exact Val.hasTy_eq_some_true.mp answer
      · cases imported

/-- Once the globals are resolved, imported and local ones are of their types. -/
theorem typed_of_initGlobals
    {registry : Type} {host : ImportRegistry registry} {importRegistry : registry}
    {Instr FrameLayout : Type} {module : Module Instr FrameLayout}
    {debug : Operator → String} {vals : List Val}
    (declares : Declares debug funcCount funcFits
      ((module.globals.take module.importedGlobalCount).map Global.ty)
      (module.globals.drop module.importedGlobalCount))
    (resolved : Instantiate.initGlobals host importRegistry module = .ok vals) :
    Typed vals (module.globals.map Global.ty) := by
  unfold Instantiate.initGlobals at resolved
  dsimp only at resolved
  split at resolved
  · cases resolved
  · obtain ⟨_, _, resolved⟩ := Attempt.bind_eq_ok.mp resolved
    obtain ⟨imported, isImported, isFinal⟩ := Attempt.bind_eq_ok.mp resolved
    have importedTyped : Typed imported
        ((module.globals.take module.importedGlobalCount).map Global.ty) := by
      rw [Typed, List.forall₂_map_right_iff]
      apply List.Forall₂.flip
      exact (Attempt.mapM_eq_ok.mp isImported).imp fun _ _ => hasTy_of_importedGlobal
    obtain ⟨final, folded, typed⟩ := foldlM_pushLocalGlobal declares importedTyped
    cases folded.symm.trans isFinal
    rw [← List.map_append, List.take_append_drop] at typed
    exact typed

end ConstExpr
end TraceWasm
