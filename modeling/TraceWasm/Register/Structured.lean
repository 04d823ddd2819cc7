import TraceWasm.Foundation.Loop
import TraceWasm.Register.Branching
import TraceWasm.Register.Emitter
import TraceWasm.Register.Resolution
import TraceWasm.Wasm.LiveNesting
import TraceWasm.Wasm.WellNested

/-!
# Register code follows the structure of the body

The symbolic states between the operators of a body are a run of back-patching that
skips dead code. Resolving the operands changes no jump.
-/

namespace TraceWasm
namespace Register

open Nesting (WellNested openAt openAt_succ)

/-- Resolving the operands leaves the jumps. -/
theorem control_resolve (locals consts spills : Nat) (sym : SymInstruction) :
    (sym.resolve locals consts spills).control = sym.control := by
  cases sym with
  | brTable selector brTargets =>
      simp [RegInstruction.resolve, RegInstruction.control, Function.comp_def]
  | _ => rfl

theorem controls_resolve (locals consts spills : Nat) (code : List SymInstruction) :
    controls (code.map (·.resolve locals consts spills)) = controls code := by
  unfold controls
  rw [List.map_map]
  apply List.map_congr_left
  intro sym _
  exact control_resolve locals consts spills sym

section Run

variable {mod : ModuleTypes} {func : FuncHeader} {ops : List Operator}
  {state : Nat → Symbolic}

/-- The states of a trace, and its last one behind them, as far as back-patching is
concerned. -/
def patchingAt (ops : List Operator) (state : Nat → Symbolic) (position : Nat) : Patching :=
  (state (min position ops.length)).patching

/-- Behind the body nothing is open that was not open at its end. -/
theorem liveNesting_behind
    {position : Nat} (behind : ops.length ≤ position) :
    liveNesting ops (position + 1) = liveNesting ops position := by
  have none : ops[position]? = none := List.getElem?_eq_none behind
  have same : openAt ops (position + 1) = openAt ops position := by simp [openAt, none]
  unfold liveNesting
  rw [same, List.take_of_length_le behind, List.take_of_length_le (Nat.le_succ_of_le behind)]

/-- The states of a trace are a run of back-patching over the live operators. -/
theorem patchRun_of_trace
    (trace : Trace mod func ops state ops.length) :
    PatchRun ops (fun position => ¬DeadAt ops position) (liveNesting ops)
      (patchingAt ops state) where
  start := by
    unfold patchingAt
    rw [Nat.zero_min, trace.start]
    rfl
  startNesting := rfl
  step := by
    intro position op found live
    obtain ⟨here, next⟩ := liveNesting_of_live found live
    have inside := (List.getElem?_eq_some_iff.mp found).1
    have transition := trace.steps position inside op found
    rw [deadAt_iff found] at live
    unfold Transition at transition
    rw [if_neg live] at transition
    unfold patchingAt
    rw [Nat.min_eq_left inside.le, Nat.min_eq_left (Nat.succ_le_of_lt inside)]
    exact ⟨here, next, transition.patches⟩
  skip := by
    intro position skipped
    by_cases inside : position < ops.length
    · have dead : DeadAt ops position := by
        by_contra live
        exact skipped ⟨live, inside⟩
      have found := List.getElem?_eq_getElem inside
      have transition := trace.steps position inside _ found
      have isDead := (deadAt_iff found).mp dead
      unfold Transition at transition
      rw [if_pos isDead] at transition
      unfold patchingAt
      rw [Nat.min_eq_left inside.le, Nat.min_eq_left (Nat.succ_le_of_lt inside), transition]
      exact ⟨rfl, liveNesting_of_dead dead⟩
    · have behind := Nat.not_lt.mp inside
      unfold patchingAt
      rw [Nat.min_eq_right behind, Nat.min_eq_right (Nat.le_succ_of_le behind)]
      exact ⟨rfl, liveNesting_behind behind⟩

/-- As many labels are open as constructs that were opened live. -/
theorem length_labels_of_trace
    (trace : Trace mod func ops state ops.length) (position : Nat) :
    (liveNesting ops position).length = (patchingAt ops state position).labels.length := by
  have run := patchRun_of_trace trace
  induction position with
  | zero =>
      rw [run.start, run.startNesting]
      rfl
  | succ position inductionHypothesis =>
      by_cases isLowered : ¬DeadAt ops position ∧ position < ops.length
      · have found := List.getElem?_eq_getElem isLowered.2
        obtain ⟨here, next, step⟩ := run.step position _ found isLowered.1
        rw [here] at inductionHypothesis
        rw [next, openAt_succ found]
        exact step.length_labels inductionHypothesis
      · obtain ⟨sameState, sameNesting⟩ := run.skip position isLowered
        rw [sameState, sameNesting]
        exact inductionHypothesis

/-- Where the code of an operator begins. -/
def startsAt (ops : List Operator) (state : Nat → Symbolic) (position : Nat) : Nat :=
  (state (min position ops.length)).code.length

/-- The code of a trace follows the structure of the body. -/
theorem structured_of_trace
    (wellNested : WellNested ops)
    (trace : Trace mod func ops state ops.length) :
    Structured ops (fun position => ¬DeadAt ops position) (startsAt ops state)
      (controls (state ops.length).code) := by
  have closed : (patchingAt ops state ops.length).labels = [] := by
    have labels := length_labels_of_trace trace ops.length
    unfold liveNesting at labels
    rw [wellNested.closed, List.drop_nil] at labels
    exact List.eq_nil_of_length_eq_zero labels.symm
  have structured := (patchRun_of_trace trace).structured wellNested closed
  have starts : (fun position => (patchingAt ops state position).code.length) =
      startsAt ops state := by
    funext position
    exact Symbolic.length_patching _
  rw [starts] at structured
  unfold patchingAt at structured
  rw [Nat.min_self] at structured
  exact structured

end Run

/-! ## Byte offsets -/

section Offsets

variable {mod : ModuleTypes} {func : FuncHeader} {located : List (Operator × Nat)}

/-- What the emitter returns. -/
theorem emitter_eq_ok
    {instructions : List (RegInstruction Slot)} {offsets : List Nat} {frame : RegFrameLayout}
    (emitted : emitter mod func located = .ok (instructions, offsets, frame)) :
    ∃ s, located.foldlM (Lowering.lowerLocated mod func.results) (Lowering.initial func, []) =
        .ok (s, offsets) ∧
      s.finish = .ok (instructions, frame) := by
  obtain ⟨⟨s, added⟩, lowered, emitted⟩ := Attempt.bind_eq_ok.mp emitted
  obtain ⟨⟨code, layout⟩, finished, same⟩ := Attempt.bind_eq_ok.mp emitted
  cases same
  exact ⟨s, lowered, finished⟩

/-- The lowering up to a position, with the offsets. -/
theorem lowerLocated_take
    {states : Nat → Lowering × List Nat}
    (isStart : states 0 = (Lowering.initial func, []))
    (steps : ∀ position operator, located[position]? = some operator →
      Lowering.lowerLocated mod func.results (states position) operator =
        .ok (states (position + 1)))
    (position : Nat) (inside : position ≤ located.length) :
    (Lowering.initial func).lowerOperators mod func.results
      ((located.map Prod.fst).take position) = .ok (states position).1 := by
  induction position with
  | zero =>
      rw [isStart]
      rfl
  | succ position inductionHypothesis =>
      have found := List.getElem?_eq_getElem (show position < located.length from inside)
      have isOp : (located.map Prod.fst)[position]? = some located[position].1 := by
        rw [List.getElem?_map, found]
        rfl
      rw [lowerOperators_succ _ isOp, inductionHypothesis (by omega), Attempt.ok_bind]
      obtain ⟨s, lowered, same⟩ := Attempt.bind_eq_ok.mp (steps position _ found)
      rw [lowered]
      exact congrArg (fun state : Lowering × List Nat => Except.ok state.1) (Except.ok.inj same)

/-- Up to a position every instruction has the byte offset of its operator. -/
theorem offsets_take
    {states : Nat → Lowering × List Nat} {lengths : Nat → Nat}
    (isStart : states 0 = (Lowering.initial func, []))
    (steps : ∀ position operator, located[position]? = some operator →
      Lowering.lowerLocated mod func.results (states position) operator =
        .ok (states (position + 1)))
    (isLength : ∀ position ≤ located.length,
      (states position).1.instructions.length = lengths position)
    (grows : ∀ position, lengths position ≤ lengths (position + 1))
    (last : Nat) (inside : last ≤ located.length) :
    (states last).2.length = lengths last ∧
      ∀ position < last, ∀ op offset index, located[position]? = some (op, offset) →
        lengths position ≤ index → index < lengths (position + 1) →
          (states last).2[index]? = some (offset % 2 ^ 32) := by
  induction last with
  | zero =>
      refine ⟨?_, fun position before => (Nat.not_lt_zero _ before).elim⟩
      rw [← isLength 0 (Nat.zero_le _), isStart]
      rfl
  | succ last inductionHypothesis =>
      obtain ⟨length, earlier⟩ := inductionHypothesis (by omega)
      have found := List.getElem?_eq_getElem (show last < located.length from inside)
      obtain ⟨s, _, same⟩ := Attempt.bind_eq_ok.mp (steps last _ found)
      have isNext : states (last + 1) = (s, (states last).2 ++ List.replicate
          (s.instructions.length - (states last).1.instructions.length)
            (located[last].2 % 2 ^ 32)) := (Except.ok.inj same).symm
      have added : (states (last + 1)).2 = (states last).2 ++
          List.replicate (lengths (last + 1) - lengths last) (located[last].2 % 2 ^ 32) := by
        rw [← isLength (last + 1) inside, ← isLength last (by omega), isNext]
      have monotone := monotone_nat_of_le_succ grows
      have here := grows last
      constructor
      · rw [added, List.length_append, List.length_replicate, length]
        omega
      · intro position before op offset index isLocated above below
        rw [added]
        rcases Nat.lt_succ_iff_lt_or_eq.mp before with before | rfl
        · have within := monotone (show position + 1 ≤ last from before)
          rw [List.getElem?_append_left (by omega)]
          exact earlier position before op offset index isLocated above below
        · rw [List.getElem?_append_right (by omega), List.getElem?_replicate, if_pos (by omega)]
          rw [found] at isLocated
          rw [Option.some.inj isLocated]

/-- The jumps of an emitted body follow the structure of its operators, and every
instruction has the byte offset of the operator that it comes from. -/
theorem structured_of_emitted
    {instructions : List (RegInstruction Slot)} {offsets : List Nat} {frame : RegFrameLayout}
    (validates : Validates mod func (located.map Prod.fst))
    (emitted : emitter mod func located = .ok (instructions, offsets, frame)) :
    ∃ starts, Structured (located.map Prod.fst)
        (fun position => ¬DeadAt (located.map Prod.fst) position) starts
        (controls instructions) ∧
      OffsetsParallel located starts (controls instructions) offsets := by
  obtain ⟨s, lowered, finished⟩ := emitter_eq_ok emitted
  obtain ⟨states, isStart, isLast, steps, _⟩ := Attempt.exists_states lowered
  have sameLength : (located.map Prod.fst).length = located.length := List.length_map _
  have loweredOps : (Lowering.initial func).lowerOperators mod func.results
      (located.map Prod.fst) = .ok s := by
    have whole := lowerLocated_take isStart steps located.length le_rfl
    rw [isLast, ← sameLength, List.take_length] at whole
    exact whole
  obtain ⟨state, v, reached⟩ := trace_of_lowered validates loweredOps
  have resolves := (finish_meets reached.agreement.models).of_ok finished
  have structured := structured_of_trace validates.wellNested reached.trace
  have sameControls : controls instructions =
      controls (state (located.map Prod.fst).length).code := by
    have resolved := resolves.instructions
    dsimp only at resolved
    rw [resolved, controls_resolve]
  have isLength : ∀ position ≤ located.length, (states position).1.instructions.length =
      startsAt (located.map Prod.fst) state position := by
    intro position inside
    obtain ⟨before, _, isBefore, _, agreement⟩ :=
      reached.passed position (sameLength ▸ inside)
    rw [lowerLocated_take isStart steps position inside] at isBefore
    rw [Except.ok.inj isBefore]
    unfold startsAt
    rw [Nat.min_eq_left (sameLength ▸ inside)]
    exact agreement.models.length_code
  obtain ⟨length, parallel⟩ := offsets_take isStart steps isLength structured.next
    located.length le_rfl
  rw [isLast] at length parallel
  refine ⟨startsAt (located.map Prod.fst) state, ?_, ?_, ?_⟩
  · rw [sameControls]
    exact structured
  · rw [sameControls, ← structured.last, sameLength]
    exact length
  · intro position op offset index found above below
    exact parallel position (List.getElem?_eq_some_iff.mp found).1 op offset index found above
      below

end Offsets

end Register
end TraceWasm
