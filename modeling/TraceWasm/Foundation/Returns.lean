import TraceWasm.Foundation.Fault

/-!
# Partial correctness of attempts

What is known of the values that an attempt returns, if it returns one. The rules push
the predicate through a sequence, so that a check's condition is at hand in what
follows it.
-/

namespace TraceWasm
namespace Attempt

/-- Whatever the attempt returns satisfies the predicate. -/
def Returns (attempt : Attempt ε α) (onValue : α → Prop) : Prop :=
  ∀ value, attempt = .ok value → onValue value

variable {onValue : α → Prop}

@[simp] theorem returns_ok :
    Returns (.ok value : Attempt ε α) onValue ↔ onValue value := by
  constructor
  · exact fun returns => returns value rfl
  · rintro holds _ ⟨rfl⟩
    exact holds

@[simp] theorem returns_fail :
    Returns (fail reported : Attempt ε α) onValue ↔ True := by
  simp [Returns, fail]

@[simp] theorem returns_panicked :
    Returns (panicked : Attempt ε α) onValue ↔ True := by
  simp [Returns, panicked]

/-- A sequence returns what its second part returns on what the first returns. -/
@[simp] theorem returns_bind
    {onValue : β → Prop} {first : Attempt ε α} {next : α → Attempt ε β} :
    Returns (first >>= next) onValue ↔
      Returns first fun value => Returns (next value) onValue := by
  constructor
  · intro returns value returned result rest
    exact returns result (bind_eq_ok.mpr ⟨value, returned, rest⟩)
  · intro returns result ran
    obtain ⟨value, returned, rest⟩ := bind_eq_ok.mp ran
    exact returns value returned result rest

@[simp] theorem returns_require
    {condition : Prop} [Decidable condition] {otherwise : ε} {onDone : Unit → Prop} :
    Returns (require condition otherwise) onDone ↔ (condition → onDone ()) := by
  constructor
  · exact fun returns holds => returns () (require_eq_ok.mpr holds)
  · exact fun returns _ done => returns (require_eq_ok.mp done)

@[simp] theorem returns_orFail
    {optional : Option α} {otherwise : ε} :
    Returns (orFail otherwise optional) onValue ↔
      ∀ value, optional = some value → onValue value := by
  simp [Returns, orFail_eq_ok]

@[simp] theorem returns_orPanic
    {optional : Option α} :
    Returns (orPanic optional : Attempt ε α) onValue ↔
      ∀ value, optional = some value → onValue value := by
  simp [Returns, orPanic_eq_ok]

@[simp] theorem returns_mapError
    {attempt : Attempt ε α} {convert : ε → ε'} :
    Returns (attempt.mapError convert) onValue ↔ Returns attempt onValue := by
  simp [Returns, mapError_eq_ok]

/-- What is returned meets every weaker condition. -/
theorem Returns.mono
    {attempt : Attempt ε α} {weaker stronger : α → Prop}
    (returns : attempt.Returns stronger) (implies : ∀ value, stronger value → weaker value) :
    attempt.Returns weaker :=
  fun value returned => implies value (returns value returned)

@[simp] theorem returns_true
    {attempt : Attempt ε α} :
    (attempt.Returns fun _ => True) ↔ True :=
  iff_true_intro fun _ _ => trivial

/-! ## Lists -/

/-- Computations over a list that all succeed succeed one by one. -/
theorem forall₂_of_mapM
    {each : α → Attempt ε β} {values : List α} {results : List β}
    (ran : values.mapM each = .ok results) :
    List.Forall₂ (fun value result => each value = .ok result) values results := by
  induction values generalizing results with
  | nil =>
      cases ran
      exact .nil
  | cons value values inductionHypothesis =>
      rw [List.mapM_cons] at ran
      obtain ⟨first, done, ran⟩ := bind_eq_ok.mp ran
      obtain ⟨others, later, same⟩ := bind_eq_ok.mp ran
      cases same
      exact .cons done (inductionHypothesis later)

/-- If each step adds a piece to the state, the whole run adds the pieces in order. -/
theorem exists_of_foldlM
    {step : σ → α → Attempt ε σ} {piece : α → β → Prop} {add : σ → β → σ}
    {values : List α} {start last : σ}
    (each : ∀ value ∈ values, ∀ state next, step state value = .ok next →
      ∃ result, piece value result ∧ next = add state result)
    (ran : values.foldlM step start = .ok last) :
    ∃ results, List.Forall₂ piece values results ∧ last = results.foldl add start := by
  induction values generalizing start with
  | nil =>
      cases ran
      exact ⟨[], .nil, rfl⟩
  | cons value values inductionHypothesis =>
      rw [List.foldlM_cons] at ran
      obtain ⟨next, done, ran⟩ := bind_eq_ok.mp ran
      obtain ⟨head, tail⟩ := List.forall_mem_cons.mp each
      obtain ⟨result, made, rfl⟩ := head start next done
      obtain ⟨results, pieces, rfl⟩ := inductionHypothesis tail ran
      exact ⟨result :: results, .cons made pieces, rfl⟩

end Attempt
end TraceWasm
