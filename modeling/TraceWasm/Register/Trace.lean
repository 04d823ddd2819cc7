import TraceWasm.Instruction.Rejections
import TraceWasm.Register.Alignment
import TraceWasm.Register.Depth

/-!
# Lowering a body passes through symbolic states

The lowering of a validated body goes through states that model the states of
symbolic lowering, operator by operator. It stops early at an operator it does
not know, if that operator is live, or at one of the register machine's limits.
-/

namespace TraceWasm

theorem deadAt_iff
    {ops : List Operator} {position : Nat}
    (found : ops[position]? = some op) :
    DeadAt ops position ↔
      (Liveness.after (ops.take position)).deadAt op = true := by
  unfold DeadAt
  rw [found]
  simp

namespace Validator

/-- The validator goes on with the next operator. -/
theorem run_succ
    {mod : ModuleTypes} {v : Validator} {ops : List Operator} {position : Nat}
    (found : ops[position]? = some op) :
    v.run mod localsCount results (ops.take (position + 1)) =
      (v.run mod localsCount results (ops.take position)).bind
        fun middle => middle.step mod localsCount results op := by
  unfold run
  rw [List.take_add_one, found, List.foldlM_append]
  congr 1
  funext middle
  exact bind_pure _

/-- The validator accepts every prefix of what it accepts. -/
theorem run_take
    {mod : ModuleTypes} {v last : Validator} {ops : List Operator}
    (ran : v.run mod localsCount results ops = some last)
    (position : Nat) :
    ∃ middle, v.run mod localsCount results (ops.take position) = some middle := by
  rw [← List.take_append_drop position ops] at ran
  unfold run at ran
  rw [List.foldlM_append] at ran
  obtain ⟨middle, prior, _⟩ := Option.bind_eq_some_iff.mp ran
  exact ⟨middle, prior⟩

end Validator

namespace Register

theorem UnreachableTrackingControlStack.after_succ
    {ops : List Operator} {position : Nat}
    (found : ops[position]? = some op) :
    (after (ops.take (position + 1)) : Attempt ε _) =
      after (ops.take position) >>= fun filter => return (← filter.step op).2 := by
  unfold after
  rw [List.take_add_one, found, List.foldlM_append]
  congr 1
  funext filter
  exact bind_pure _

/-- The lowering reads the operator at the position: it has lowered what stands
before it, and reported nothing. -/
def ReadsUpTo
    (mod : ModuleTypes) (func : FuncHeader) (ops : List Operator) (position : Nat) :
    Prop :=
  ∃ s, (Lowering.initial func).lowerOperators mod func.results (ops.take position) =
    .ok s

/-- No `try_table` that the lowering reads is dead. -/
def NoDeadTryTable
    (mod : ModuleTypes) (func : FuncHeader) (ops : List Operator) : Prop :=
  ∀ position blockty debug, ReadsUpTo mod func ops position →
    ops[position]? = some (.tryTable blockty debug) → ¬DeadAt ops position

/-! ## Traces -/

/-- The symbolic state changes as the operator, if it is live, says. -/
def Transition
    (mod : ModuleTypes) (func : FuncHeader) (l : Liveness) (op : Operator)
    (a a' : Symbolic) : Prop :=
  if l.deadAt op = true then a' = a
  else SymbolicStep mod func.localsCount func.results op a a'

/-- The symbolic states between the operators before a position. -/
structure Trace
    (mod : ModuleTypes) (func : FuncHeader) (ops : List Operator)
    (state : Nat → Symbolic) (last : Nat) : Prop where
  start : state 0 = Symbolic.initial func
  steps : ∀ position < last, ∀ op, ops[position]? = some op →
    Transition mod func (Liveness.after (ops.take position)) op (state position)
      (state (position + 1))

/-- The validator, the spec of deadness, the lowering and the symbolic state
agree between two operators. -/
structure Agreement
    (mod : ModuleTypes) (func : FuncHeader) (v : Validator) (l : Liveness)
    (s : Lowering) (a : Symbolic) : Prop where
  models : Models mod func.localsCount [] s a
  coherent : Coherent a.code a.control
  aligned : Aligned v l s.unreachableTrackingStack a

/-- Validator, filter and symbolic state agree at the beginning. -/
theorem aligned_initial (func : FuncHeader) :
    Aligned (Validator.initial func.params func.results) Liveness.initial
      UnreachableTrackingControlStack.new (Symbolic.initial func) := by
  have live : Live (.initial func.params func.results) (Symbolic.initial func) :=
    ⟨.cons ⟨⟨trivial, rfl, rfl, rfl⟩, rfl⟩ .nil, rfl, Nat.zero_le _, trivial⟩
  exact .live live

/-- The labels are coherent at the beginning. -/
theorem coherent_initial (func : FuncHeader) :
    Coherent (Symbolic.initial func).code (Symbolic.initial func).control where
  labels := by
    intro block member
    cases List.mem_singleton.mp member
    exact ⟨by simp, by simp, by simp, by simp⟩
  uniqueKeys := List.nodup_nil
  uniqueIfs := List.nodup_nil

/-- The refinement holds at the beginning. -/
theorem models_initial (mod : ModuleTypes) (func : FuncHeader) :
    Models mod func.localsCount [] (Lowering.initial func)
      (Symbolic.initial func) where
  sound := OperandStack.sound_new func.locals_le
  view := rfl
  control := rfl
  consts := rfl
  constsLe := Nat.zero_le _
  offsets := rfl
  offsetsLe := Nat.zero_le _
  constIds := by simp [Symbolic.initial]
  represents := ⟨[], rfl, .nil⟩
  pendingBelow := by simp
  codeBelow := by simp [Symbolic.initial]

/-- Lowering one operator keeps the agreement, or reports that operator or a
limit. -/
theorem Agreement.lowerOperator_meets
    {mod : ModuleTypes} {func : FuncHeader}
    (agreement : Agreement mod func v l s a)
    (accepted : v.step mod func.localsCount func.results op = some v')
    (known : l.dead = true → ∀ blockty debug, op ≠ .tryTable blockty debug) :
    (s.lowerOperator mod func.results op).Meets
      (fun reported => reported.IsLimit ∨
        l.deadAt op = false ∧ op.rejection = some reported)
      fun s' => ∃ a' result, (l.deadAt op = false → op.rejection = none) ∧
        (s.unreachableTrackingStack.step op : Attempt TraceWasmError _) =
          .ok (result, s'.unreachableTrackingStack) ∧
        (result = .continue ↔ l.deadAt op = true) ∧
        Transition mod func l op a a' ∧ Agreement mod func v' (l.step op) s' a' := by
  obtain ⟨result, filter, checked, decided⟩ :=
    agreement.aligned.decides accepted known
  unfold Lowering.lowerOperator
  rw [checked, Attempt.ok_bind]
  cases result with
  | «continue» =>
      obtain ⟨dead, aligned⟩ := decided
      refine ⟨a, .continue, by simp [dead], ?_, by simp [dead], ?_,
        agreement.models.setFilter filter, agreement.coherent, aligned⟩
      · unfold UnreachableTrackingControlStack.step
        rw [checked]
        rfl
      unfold Transition
      rw [if_pos dead]
  | reachable =>
      obtain ⟨live, ready, next⟩ := decided
      dsimp only
      cases rejection : op.rejection with
      | some reported =>
          rw [lowerReachable_eq_fail _ _ _ rejection]
          exact .inr ⟨live, rfl⟩
      | none =>
          have lowered := lowerReachable_meets (agreement.models.setFilter filter)
            agreement.coherent ready rejection
          refine (lowered.monoError fun reported limit => .inl limit).mono ?_
          rintro s' ⟨a', step, models, filterEq⟩
          refine ⟨a', .reachable, fun _ => rfl, ?_, by simp [live], ?_, models,
            step.coherent agreement.coherent, ?_⟩
          · unfold UnreachableTrackingControlStack.step
            rw [checked, filterEq]
            rfl
          · unfold Transition
            rw [if_neg (by simp [live])]
            exact step
          · rw [filterEq]
            exact next a' step

/-! ## Runs -/

section Runs

variable {mod : ModuleTypes} {func : FuncHeader} {ops : List Operator}

/-- What lowering the operators before a position has led to. -/
structure Reached
    (mod : ModuleTypes) (func : FuncHeader) (ops : List Operator)
    (position : Nat) (s : Lowering) (state : Nat → Symbolic) (v : Validator) :
    Prop where
  trace : Trace mod func ops state position
  ran : Validator.run mod func.localsCount func.results
    (.initial func.params func.results) (ops.take position) = some v
  agreement : Agreement mod func v (Liveness.after (ops.take position)) s
    (state position)
  lowered : (Lowering.initial func).lowerOperators mod func.results
    (ops.take position) = .ok s
  /-- They agree between the earlier operators as well. -/
  passed : ∀ earlier ≤ position, ∃ before w,
    (Lowering.initial func).lowerOperators mod func.results (ops.take earlier) = .ok before ∧
      Validator.run mod func.localsCount func.results
        (.initial func.params func.results) (ops.take earlier) = some w ∧
      Agreement mod func w (Liveness.after (ops.take earlier)) before (state earlier)
  /-- The filter alone reaches the same state. -/
  filter : (UnreachableTrackingControlStack.after (ops.take position) :
    Attempt TraceWasmError _) = .ok s.unreachableTrackingStack

theorem reached_zero :
    Reached mod func ops 0 (Lowering.initial func)
      (fun _ => Symbolic.initial func) (.initial func.params func.results) where
  trace := ⟨rfl, by simp⟩
  ran := rfl
  agreement := ⟨models_initial mod func, coherent_initial func, aligned_initial func⟩
  lowered := rfl
  passed := by
    intro earlier le
    obtain rfl := Nat.le_zero.mp le
    exact ⟨_, _, rfl, rfl, models_initial mod func, coherent_initial func,
      aligned_initial func⟩
  filter := rfl

/-- A trace goes on with one more state. -/
theorem Trace.extend
    {position : Nat}
    (trace : Trace mod func ops state position)
    (found : ops[position]? = some op)
    (transition : Transition mod func (Liveness.after (ops.take position)) op
      (state position) a') :
    Trace mod func ops (Function.update state (position + 1) a') (position + 1) where
  start := by
    rw [Function.update_of_ne (by omega)]
    exact trace.start
  steps := by
    intro earlier before other foundOther
    rw [Function.update_of_ne (by omega)]
    rcases Nat.lt_succ_iff_lt_or_eq.mp before with before | rfl
    · rw [Function.update_of_ne (by omega)]
      exact trace.steps earlier before other foundOther
    · rw [found] at foundOther
      cases foundOther
      rw [Function.update_self]
      exact transition

theorem lowerOperators_succ
    (s : Lowering) {position : Nat}
    (found : ops[position]? = some op) :
    s.lowerOperators mod results (ops.take (position + 1)) =
      s.lowerOperators mod results (ops.take position) >>=
        fun middle => middle.lowerOperator mod results op := by
  unfold Lowering.lowerOperators
  rw [List.take_add_one, found, List.foldlM_append]
  congr 1
  funext middle
  exact bind_pure _

/-- Lowering the operator at the position, which is known if it is live, reaches one
more state, or reports it or a limit. -/
theorem Reached.lowerOperator_meets
    {position : Nat} {s : Lowering} {v : Validator}
    (reached : Reached mod func ops position s state v)
    (validates : Validates mod func ops)
    (noDead : NoDeadTryTable mod func ops)
    (found : ops[position]? = some op) :
    (s.lowerOperator mod func.results op).Meets
      (fun reported => reported.IsLimit ∨
        ¬DeadAt ops position ∧ op.rejection = some reported)
      fun s' => (¬DeadAt ops position → op.rejection = none) ∧
        ∃ a' v', Reached mod func ops (position + 1) s'
          (Function.update state (position + 1) a') v' := by
  obtain ⟨last, ran, _⟩ := validates
  obtain ⟨v', ranNext⟩ := Validator.run_take ran (position + 1)
  have accepted := ranNext
  rw [Validator.run_succ found, reached.ran, Option.bind_some] at accepted
  have known : (Liveness.after (ops.take position)).dead = true →
      ∀ blockty debug, op ≠ .tryTable blockty debug := by
    intro dead blockty debug isTry
    rw [isTry] at found
    refine noDead position blockty debug ⟨s, reached.lowered⟩ found ?_
    rw [deadAt_iff found]
    exact dead
  have meets := (reached.agreement.lowerOperator_meets accepted known).returned
  refine (meets.monoError ?_).mono ?_
  · rintro reported (limit | ⟨live, rejected⟩)
    · exact .inl limit
    · refine .inr ⟨?_, rejected⟩
      rw [deadAt_iff found, live]
      exact Bool.false_ne_true
  · rintro s' ⟨lowered, a', result, isKnown, filterStep, _, transition, agreement⟩
    have loweredNext : (Lowering.initial func).lowerOperators mod func.results
        (ops.take (position + 1)) = .ok s' := by
      rw [lowerOperators_succ _ found, reached.lowered]
      exact lowered
    rw [← Liveness.after_succ found] at agreement
    refine ⟨?_, a', v', reached.trace.extend found transition, ranNext, ?_, loweredNext, ?_, ?_⟩
    · rw [deadAt_iff found, Bool.not_eq_true]
      exact isKnown
    · rw [Function.update_self]
      exact agreement
    · intro earlier le
      rcases Nat.lt_or_eq_of_le le with before | rfl
      · rw [Function.update_of_ne (Nat.ne_of_lt before)]
        exact reached.passed earlier (Nat.le_of_lt_succ before)
      · rw [Function.update_self]
        exact ⟨s', v', loweredNext, ranNext, agreement⟩
    · rw [UnreachableTrackingControlStack.after_succ found, reached.filter,
        Attempt.ok_bind, filterStep]
      rfl

/-- The lowering of what stands before a position knows its live operators and reaches
a state that is modelled, or reports the first live one that it does not know, or a
limit. -/
theorem lowerOperators_take_meets
    (validates : Validates mod func ops)
    (noDead : NoDeadTryTable mod func ops)
    (position : Nat) (inside : position ≤ ops.length) :
    ((Lowering.initial func).lowerOperators mod func.results (ops.take position)).Meets
      (fun reported => reported.IsLimit ∨
        FirstRejected ops (fun position => ¬DeadAt ops position) reported)
      fun s => AllKnown (ops.take position) (fun position => ¬DeadAt ops position) ∧
        ∃ state v, Reached mod func ops position s state v := by
  induction position with
  | zero =>
      refine ⟨?_, _, _, reached_zero⟩
      intro position op _ found
      cases found
  | succ position inductionHypothesis =>
      have found := List.getElem?_eq_getElem (l := ops) (i := position) (by omega)
      rw [lowerOperators_succ _ found]
      refine (inductionHypothesis (by omega)).bind ?_
      rintro s ⟨known, state, v, reached⟩
      refine ((reached.lowerOperator_meets validates noDead found).monoError ?_).mono ?_
      · rintro reported (limited | ⟨alive, rejected⟩)
        · exact .inl limited
        · exact .inr ⟨position, _, alive, found, rejected, known⟩
      · rintro s' ⟨here, a', v', reached⟩
        exact ⟨known.succ found here, _, v', reached⟩

/-- A lowering that succeeds has met no dead `try_table`. -/
theorem noDeadTryTable_of_lowered
    (validates : Validates mod func ops)
    (lowered : (Lowering.initial func).lowerOperators mod func.results ops =
      .ok s) :
    NoDeadTryTable mod func ops := by
  intro position blockty debug _ found _
  have absent := Lowering.noTryTable_of_lowered validates lowered _
    (List.mem_of_getElem? found)
  cases absent

/-- The lowering of a body that succeeds passes through the states of a trace. -/
theorem trace_of_lowered
    (validates : Validates mod func ops)
    (lowered : (Lowering.initial func).lowerOperators mod func.results ops =
      .ok s) :
    ∃ state v, Reached mod func ops ops.length s state v := by
  have noDead := noDeadTryTable_of_lowered validates lowered
  have meets := lowerOperators_take_meets validates noDead ops.length le_rfl
  rw [List.take_length] at meets
  exact (meets.of_ok lowered).2

end Runs

end Register
end TraceWasm
