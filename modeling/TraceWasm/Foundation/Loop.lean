import TraceWasm.Foundation.Fault
import Mathlib.Data.List.Forall2

/-!
# Loops that can fail

What is known of every iteration is known of the whole loop, and a loop over a
list is a loop over its front followed by one over its rest. A relation between a
state, an item and the next state says what a loop is for.
-/

namespace TraceWasm

/-- A relation leads from one state over the items of a list to another. -/
inductive Folds {α : Type u} {σ : Type v} (relation : σ → α → σ → Prop) :
    σ → List α → σ → Prop where
  | nil : Folds relation state [] state
  | cons
      (first : relation state item next)
      (rest : Folds relation next items final) :
      Folds relation state (item :: items) final

namespace Folds

variable {α : Type u} {σ : Type v} {relation : σ → α → σ → Prop}

/-- What no step changes, the whole way does not change. -/
theorem measure_eq
    {β : Type w} {list : List α} {start final : σ} (measure : σ → β)
    (each : ∀ {state item next}, relation state item next → measure next = measure state)
    (folds : Folds relation start list final) :
    measure final = measure start := by
  induction folds with
  | nil => rfl
  | cons first _ inductionHypothesis => exact inductionHypothesis.trans (each first)

/-- Where there is one way only, it passes every item. -/
theorem step_of_append
    {front rest : List α} {item : α} {start state final : σ}
    (functional : ∀ {state item next other}, relation state item next →
      relation state item other → next = other)
    (before : Folds relation start front state)
    (whole : Folds relation start (front ++ item :: rest) final) :
    ∃ next, relation state item next := by
  induction before with
  | nil =>
      cases whole with
      | cons first _ => exact ⟨_, first⟩
  | cons first _ inductionHypothesis =>
      cases whole with
      | cons other others =>
          cases functional first other
          exact inductionHypothesis others

/-- A list that cannot be passed has an item that cannot. -/
theorem exists_stuck
    {list : List α} {start : σ}
    (blocked : ¬∃ final, Folds relation start list final) :
    ∃ front item rest state, list = front ++ item :: rest ∧
      Folds relation start front state ∧ ∀ next, ¬relation state item next := by
  induction list generalizing start with
  | nil => exact absurd ⟨start, .nil⟩ blocked
  | cons item items inductionHypothesis =>
      by_cases passes : ∃ next, relation start item next
      · obtain ⟨next, first⟩ := passes
        have blockedRest : ¬∃ final, Folds relation next items final := fun ⟨final, rest⟩ =>
          blocked ⟨final, .cons first rest⟩
        obtain ⟨front, other, rest, state, rfl, before, stuck⟩ :=
          inductionHypothesis blockedRest
        exact ⟨item :: front, other, rest, state, rfl, .cons first before, stuck⟩
      · exact ⟨[], item, items, start, rfl, .nil, fun next first => passes ⟨next, first⟩⟩

end Folds

namespace Attempt

variable {ε : Type u} {α β σ : Type v}

/-- What every step keeps, a finished fold keeps. -/
theorem foldlM_keeps
    {step : σ → α → Attempt ε σ} {kept : σ → Prop} {list : List α} {start final : σ}
    (keeps : ∀ state item next, step state item = .ok next → kept state → kept next)
    (finished : list.foldlM step start = .ok final)
    (holds : kept start) :
    kept final := by
  induction list generalizing start with
  | nil =>
      cases finished
      exact holds
  | cons item rest inductionHypothesis =>
      rw [List.foldlM_cons] at finished
      obtain ⟨next, stepped, finished⟩ := bind_eq_ok.mp finished
      exact inductionHypothesis finished (keeps start item next stepped holds)

/-- A loop of checks passes if every check does. -/
theorem forM_eq_ok
    {check : α → Attempt ε PUnit} {list : List α} :
    list.forM check = .ok ⟨⟩ ↔ ∀ item ∈ list, check item = .ok ⟨⟩ := by
  induction list with
  | nil => simp [List.forM_eq_forM]
  | cons item rest inductionHypothesis =>
      rw [List.forM_eq_forM] at inductionHypothesis ⊢
      rw [List.forM_cons, bind_eq_ok, List.forall_mem_cons, inductionHypothesis]
      constructor
      · rintro ⟨⟨⟩, first, others⟩
        exact ⟨first, others⟩
      · rintro ⟨first, others⟩
        exact ⟨⟨⟩, first, others⟩

/-- A fold fails where its first failing step does. -/
theorem foldlM_of_error
    {step : σ → α → Attempt ε σ} {front rest : List α} {item : α} {start reached : σ}
    {fault : Fault ε}
    (before : front.foldlM step start = .ok reached)
    (failed : step reached item = .error fault) :
    (front ++ item :: rest).foldlM step start = .error fault := by
  rw [List.foldlM_append, before, ok_bind, List.foldlM_cons, failed]
  rfl

/-- A finished fold passes through a state between any two items. -/
theorem exists_states
    {step : σ → α → Attempt ε σ} {list : List α} {start final : σ}
    (finished : list.foldlM step start = .ok final) :
    ∃ state : Nat → σ, state 0 = start ∧ state list.length = final ∧
      (∀ position item, list[position]? = some item →
        step (state position) item = .ok (state (position + 1))) ∧
      ∀ position, list.length ≤ position → state (position + 1) = state position := by
  induction list generalizing start with
  | nil =>
      cases finished
      exact ⟨fun _ => final, rfl, rfl, by simp, fun _ _ => rfl⟩
  | cons item rest inductionHypothesis =>
      rw [List.foldlM_cons] at finished
      obtain ⟨next, stepped, finished⟩ := bind_eq_ok.mp finished
      obtain ⟨state, isStart, isFinal, steps, rested⟩ := inductionHypothesis finished
      refine ⟨fun position => position.casesOn start state, rfl, isFinal, ?_, ?_⟩
      · intro position other found
        cases position with
        | zero =>
            cases found
            change step start item = .ok (state 0)
            rw [isStart]
            exact stepped
        | succ position => exact steps position other found
      · intro position behind
        cases position with
        | zero => cases behind
        | succ position => exact rested position (Nat.le_of_succ_le_succ behind)

/-- A map is finished when every item has its image. -/
theorem mapM_eq_ok
    {image : α → Attempt ε β} {list : List α} {images : List β} :
    list.mapM image = .ok images ↔
      List.Forall₂ (fun item value => image item = .ok value) list images := by
  induction list generalizing images with
  | nil =>
      rw [List.mapM_nil, List.forall₂_nil_left_iff]
      exact ⟨fun same => (Except.ok.inj same).symm, fun same => same ▸ rfl⟩
  | cons item rest inductionHypothesis =>
      rw [List.mapM_cons, bind_eq_ok, List.forall₂_cons_left_iff]
      constructor
      · rintro ⟨first, mapped, finished⟩
        obtain ⟨others, mappedRest, same⟩ := bind_eq_ok.mp finished
        cases same
        exact ⟨first, others, mapped, inductionHypothesis.mp mappedRest, rfl⟩
      · rintro ⟨first, others, mapped, mappedRest, rfl⟩
        rw [inductionHypothesis.mpr mappedRest]
        exact ⟨first, mapped, rfl⟩

/-- What is known of every image is known of every item of a finished map. -/
theorem forall_mem_of_mapM
    {image : α → Attempt ε β} {known : β → Prop} {list : List α} {images : List β}
    (each : ∀ item ∈ list, ∀ value, image item = .ok value → known value)
    (finished : list.mapM image = .ok images) :
    ∀ value ∈ images, known value := by
  intro value inside
  obtain ⟨position, bound, rfl⟩ := List.getElem_of_mem inside
  have mapped := mapM_eq_ok.mp finished
  have within : position < list.length := mapped.length_eq ▸ bound
  exact each _ (List.getElem_mem within) _ (mapped.get within bound)

/-- A fold goes where a relation leads, when every step on the way does. -/
theorem foldlM_of_folds
    {step : σ → α → Attempt ε σ} {relation : σ → α → σ → Prop} {list : List α}
    {start final : σ}
    (follows : ∀ front item rest state next, list = front ++ item :: rest →
      Folds relation start front state → relation state item next →
        step state item = .ok next)
    (folds : Folds relation start list final) :
    list.foldlM step start = .ok final := by
  induction folds with
  | nil => rfl
  | @cons start item next items final first _ inductionHypothesis =>
      rw [List.foldlM_cons, follows [] item items start next rfl .nil first, ok_bind]
      apply inductionHypothesis
      rintro front other rest state after rfl between led
      exact follows (item :: front) other rest state after rfl (.cons first between) led

end Attempt
end TraceWasm
