import TraceWasm.Foundation.Fault

/-!
# Computations over a state

A computation that fails keeps what it had changed. It is atomic for a view of the
state if the view is unchanged whenever it fails. Atomicity composes after parts that
never touch the view, which is the shape of a check followed by one change.
-/

namespace TraceWasm

/-- A computation that changes a state and may fail. -/
def Stateful (ε σ α : Type) := σ → Attempt ε α × σ

namespace Stateful

variable {ε ε' σ α β : Type}

instance : Monad (Stateful ε σ) where
  pure value := fun state => (.ok value, state)
  bind first next := fun state =>
    match first state with
    | (.ok value, between) => next value between
    | (.error fault, between) => (.error fault, between)

/-- Look at the state. -/
def read (look : σ → Attempt ε α) : Stateful ε σ α :=
  fun state => (look state, state)

/-- Change the state, or fail and leave it. -/
def change (alter : σ → Attempt ε (α × σ)) : Stateful ε σ α :=
  fun state =>
    match alter state with
    | .ok (value, next) => (.ok value, next)
    | .error fault => (.error fault, state)

/-- Change the state, whatever it is. -/
def modify (alter : σ → σ) : Stateful ε σ Unit :=
  fun state => (.ok (), alter state)

/-- Report the error as one of another kind. -/
def mapError (convert : ε → ε') (computation : Stateful ε σ α) : Stateful ε' σ α :=
  fun state =>
    match computation state with
    | (.ok value, next) => (.ok value, next)
    | (.error (.error reported), next) => (.error (.error (convert reported)), next)
    | (.error .panic, next) => (.error .panic, next)

/-! ## What a computation did -/

theorem pure_apply (value : α) (state : σ) :
    (pure value : Stateful ε σ α) state = (.ok value, state) := rfl

/-- A sequence goes on with the value and the state of its first part. -/
theorem bind_of_ok
    {first : Stateful ε σ α} {next : α → Stateful ε σ β}
    (ran : first state = (.ok value, between)) :
    (first >>= next) state = next value between := by
  change (match first state with | (.ok value, between) => _ | (.error fault, between) => _) = _
  rw [ran]

/-- A sequence went through its first part, or stopped in it. -/
theorem bind_cases
    {first : Stateful ε σ α} {next : α → Stateful ε σ β}
    (ran : (first >>= next) state = (outcome, after)) :
    (∃ value between, first state = (.ok value, between) ∧
      next value between = (outcome, after)) ∨
      ∃ fault, first state = (.error fault, after) ∧ outcome = .error fault := by
  change (match first state with | (.ok value, between) => _ | (.error fault, between) => _) =
    (outcome, after) at ran
  cases done : first state with
  | mk result between =>
      rw [done] at ran
      cases result with
      | ok value => exact .inl ⟨value, between, rfl, ran⟩
      | error fault =>
          cases ran
          exact .inr ⟨fault, rfl, rfl⟩

/-- Both parts of a sequence that succeeds succeed. -/
theorem bind_eq_ok
    {first : Stateful ε σ α} {next : α → Stateful ε σ β}
    (ran : (first >>= next) state = (.ok result, after)) :
    ∃ value between, first state = (.ok value, between) ∧
      next value between = (.ok result, after) := by
  rcases bind_cases ran with through | ⟨fault, _, stopped⟩
  · exact through
  · cases stopped

/-- Reading leaves the state. -/
theorem read_cases
    {look : σ → Attempt ε α}
    (ran : read look state = (outcome, after)) :
    look state = outcome ∧ state = after := by
  cases ran
  exact ⟨rfl, rfl⟩

/-- A change that succeeds made the change. -/
theorem change_ok
    {alter : σ → Attempt ε (α × σ)}
    (ran : change alter state = (.ok value, after)) :
    alter state = .ok (value, after) := by
  unfold change at ran
  split at ran
  case h_1 altered =>
    cases ran
    exact altered
  case h_2 => cases ran

/-- A change that fails changes nothing. -/
theorem change_error
    {alter : σ → Attempt ε (α × σ)}
    (ran : change alter state = (.error fault, after)) :
    state = after := by
  unfold change at ran
  split at ran
  case h_1 => cases ran
  case h_2 =>
    cases ran
    rfl

theorem mapError_ok
    {convert : ε → ε'} {computation : Stateful ε σ α}
    (ran : computation.mapError convert state = (.ok value, after)) :
    computation state = (.ok value, after) := by
  unfold mapError at ran
  split at ran
  case h_1 done =>
    cases ran
    exact done
  case h_2 => cases ran
  case h_3 => cases ran

theorem mapError_error
    {convert : ε → ε'} {computation : Stateful ε σ α}
    (ran : computation.mapError convert state = (.error fault, after)) :
    ∃ reported, computation state = (.error reported, after) := by
  unfold mapError at ran
  split at ran
  case h_1 => cases ran
  case h_2 failed =>
    cases ran
    exact ⟨_, failed⟩
  case h_3 panicked =>
    cases ran
    exact ⟨_, panicked⟩

/-- A reported error was reported, in its own kind. -/
theorem mapError_refused
    {convert : ε → ε'} {computation : Stateful ε σ α}
    (ran : computation.mapError convert state = (.error (.error reported), after)) :
    ∃ cause, computation state = (.error (.error cause), after) := by
  unfold mapError at ran
  split at ran
  case h_1 => cases ran
  case h_2 cause _ failed =>
    cases ran
    exact ⟨cause, failed⟩
  case h_3 => cases ran

theorem change_refused
    {alter : σ → Attempt ε (α × σ)}
    (ran : change alter state = (.error fault, after)) :
    alter state = .error fault := by
  unfold change at ran
  split at ran
  case h_1 => cases ran
  case h_2 failed =>
    cases ran
    exact failed

/-! ## Atomicity -/

section Atomicity

variable {view : σ → β'}

/-- The computation leaves the view as it is. -/
def Silent (view : σ → β') (computation : Stateful ε σ α) : Prop :=
  ∀ state, view (computation state).2 = view state

/-- The computation leaves the view as it is whenever it fails. -/
def Atomic (view : σ → β') (computation : Stateful ε σ α) : Prop :=
  ∀ state fault after, computation state = (.error fault, after) → view after = view state

theorem silent_read (look : σ → Attempt ε α) : Silent view (read look) :=
  fun _ => rfl

theorem silent_pure (value : α) : Silent view (pure value : Stateful ε σ α) :=
  fun _ => rfl

/-- A change that the view does not show. -/
theorem silent_change
    {alter : σ → Attempt ε (α × σ)}
    (hidden : ∀ state value after, alter state = .ok (value, after) →
      view after = view state) :
    Silent view (change alter) := by
  intro state
  unfold change
  split
  case h_1 value after altered => exact hidden state value after altered
  case h_2 => rfl

theorem Silent.mapError
    {computation : Stateful ε σ α}
    (silent : Silent view computation) (convert : ε → ε') :
    Silent view (computation.mapError convert) := by
  intro state
  have kept := silent state
  unfold Stateful.mapError
  split
  case h_1 done =>
    rw [done] at kept
    exact kept
  case h_2 failed =>
    rw [failed] at kept
    exact kept
  case h_3 panicked =>
    rw [panicked] at kept
    exact kept

/-- Parts that do not touch the view make a whole that does not. -/
theorem Silent.seq
    {first : Stateful ε σ α} {next : α → Stateful ε σ β}
    (silent : Silent view first) (silentNext : ∀ value, Silent view (next value)) :
    Silent view (first >>= next) := by
  intro state
  have kept := silent state
  cases ran : first state with
  | mk outcome between =>
      rw [ran] at kept
      cases outcome with
      | ok value =>
          rw [bind_of_ok ran, silentNext value between]
          exact kept
      | error fault =>
          have stopped : (first >>= next) state = (.error fault, between) := by
            change (match first state with
              | (.ok value, between) => _ | (.error fault, between) => _) = _
            rw [ran]
          rw [stopped]
          exact kept

/-- A change is made whole or not at all. -/
theorem atomic_change (alter : σ → Attempt ε (α × σ)) : Atomic view (change alter) := by
  intro state fault after failed
  rw [change_error failed]

theorem Atomic.mapError
    {computation : Stateful ε σ α}
    (atomic : Atomic view computation) (convert : ε → ε') :
    Atomic view (computation.mapError convert) := by
  intro state fault after failed
  obtain ⟨reported, failed⟩ := mapError_error failed
  exact atomic state reported after failed

/-- What does not touch the view may go first. -/
theorem Silent.bind
    {first : Stateful ε σ α} {next : α → Stateful ε σ β}
    (silent : Silent view first) (atomic : ∀ value, Atomic view (next value)) :
    Atomic view (first >>= next) := by
  intro state fault after failed
  rcases bind_cases failed with ⟨value, between, ran, failed⟩ | ⟨_, ran, _⟩
  · have kept := silent state
    rw [ran] at kept
    exact (atomic value between fault after failed).trans kept
  · have kept := silent state
    rw [ran] at kept
    exact kept

/-- What cannot fail may follow. -/
theorem Atomic.bind
    {first : Stateful ε σ α} {next : α → Stateful ε σ β}
    (atomic : Atomic view first)
    (total : ∀ value state, ∃ result after, next value state = (.ok result, after)) :
    Atomic view (first >>= next) := by
  intro state fault after failed
  rcases bind_cases failed with ⟨value, between, _, failed⟩ | ⟨_, ran, _⟩
  · obtain ⟨result, other, returned⟩ := total value between
    rw [returned] at failed
    cases failed
  · exact atomic state _ after ran

end Atomicity

end Stateful

end TraceWasm
