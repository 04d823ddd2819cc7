import Mathlib.Data.List.Basic
import Mathlib.Tactic.Common

/-!
# Computations that fail or panic

An attempt returns a value, returns an error to its caller, or panics. The
weakest-precondition predicate `Meets` treats the three outcomes differently:
a value has to satisfy the postcondition, an error has to be one that the
specification lists, and a panic satisfies nothing.
-/

namespace TraceWasm

/-- How an attempt can fail to return a value. -/
inductive Fault (ε : Type u) where
  | error (reported : ε)
  | panic
  deriving DecidableEq, Repr

/-- A computation that returns a value, reports an error or panics. -/
abbrev Attempt (ε : Type u) (α : Type v) := Except (Fault ε) α

namespace Attempt

/-- Report an error to the caller. -/
def fail (reported : ε) : Attempt ε α := .error (.error reported)

/-- Abort, as a failed assertion, a checked overflow or an index past a
vector's end does. -/
def panicked : Attempt ε α := .error .panic

/-- Unwrap an optional value, panicking when there is none. -/
def orPanic : Option α → Attempt ε α
  | some value => .ok value
  | none => panicked

@[simp] theorem orPanic_some (value : α) :
    (orPanic (some value) : Attempt ε α) = .ok value := rfl

@[simp] theorem orPanic_none :
    (orPanic none : Attempt ε α) = panicked := rfl

@[simp] theorem pure_eq (value : α) :
    (pure value : Attempt ε α) = .ok value := rfl

@[simp] theorem ok_bind (value : α) (next : α → Attempt ε β) :
    ((.ok value : Attempt ε α) >>= next) = next value := rfl

@[simp] theorem fail_bind (reported : ε) (next : α → Attempt ε β) :
    ((fail reported : Attempt ε α) >>= next) = fail reported := rfl

@[simp] theorem panicked_bind (next : α → Attempt ε β) :
    ((panicked : Attempt ε α) >>= next) = panicked := rfl

/-- Assert a decidable condition. -/
def assert (condition : Prop) [Decidable condition] : Attempt ε Unit :=
  if condition then .ok () else panicked

/-- Subtraction on an unsigned integer. -/
def sub (left right : Nat) : Attempt ε Nat :=
  if right ≤ left then .ok (left - right) else panicked

/-- An assertion that holds lets the code go on. -/
theorem assert_of
    {condition : Prop} [Decidable condition]
    (holds : condition) :
    (assert condition : Attempt ε Unit) = .ok () := if_pos holds

/-- A subtraction that does not underflow. -/
theorem sub_of_le
    (le : right ≤ left) :
    (sub left right : Attempt ε Nat) = .ok (left - right) := if_pos le

/-- Report an error unless the condition holds. -/
def require (condition : Prop) [Decidable condition] (otherwise : ε) : Attempt ε Unit :=
  if condition then .ok () else fail otherwise

/-- Unwrap an optional value, reporting an error when there is none. -/
def orFail (otherwise : ε) : Option α → Attempt ε α
  | some value => .ok value
  | none => fail otherwise

/-- Report the error as one of another kind. -/
def mapError (convert : ε → ε') : Attempt ε α → Attempt ε' α
  | .ok value => .ok value
  | .error (.error reported) => fail (convert reported)
  | .error .panic => panicked

/-- Every outcome of the attempt is allowed: values by `onValue`, errors by
`onError`, and no panic. -/
def Meets
    (attempt : Attempt ε α)
    (onError : ε → Prop)
    (onValue : α → Prop) : Prop :=
  match attempt with
  | .ok value => onValue value
  | .error (.error reported) => onError reported
  | .error .panic => False

section Meets

variable {onError : ε → Prop}

@[simp] theorem meets_ok
    {onValue : α → Prop} {value : α} :
    Meets (.ok value : Attempt ε α) onError onValue ↔ onValue value := Iff.rfl

/-- Weaken what an attempt is known to return. -/
theorem Meets.mono
    {attempt : Attempt ε α} {weaker stronger : α → Prop}
    (meets : attempt.Meets onError stronger)
    (implies : ∀ value, stronger value → weaker value) :
    attempt.Meets onError weaker := by
  cases attempt with
  | ok value => exact implies value meets
  | error fault =>
      cases fault with
      | error reported => exact meets
      | panic => exact meets

/-- Weaken the errors an attempt is known to report. -/
theorem Meets.monoError
    {attempt : Attempt ε α} {onValue : α → Prop} {weaker : ε → Prop}
    (meets : attempt.Meets onError onValue)
    (implies : ∀ reported, onError reported → weaker reported) :
    attempt.Meets weaker onValue := by
  cases attempt with
  | ok value => exact meets
  | error fault =>
      cases fault with
      | error reported => exact implies reported meets
      | panic => exact meets

/-- Run the second attempt on whatever the first returns. -/
theorem Meets.bind
    {first : Attempt ε α} {next : α → Attempt ε β}
    {between : α → Prop} {onValue : β → Prop}
    (meetsFirst : first.Meets onError between)
    (meetsNext : ∀ value, between value → (next value).Meets onError onValue) :
    (first >>= next : Attempt ε β).Meets onError onValue := by
  cases first with
  | ok value => exact meetsNext value meetsFirst
  | error fault =>
      cases fault with
      | error reported => exact meetsFirst
      | panic => exact meetsFirst

/-- What is known of an attempt applies to the value it did return. -/
theorem Meets.of_ok
    {attempt : Attempt ε α} {onValue : α → Prop} {value : α}
    (meets : attempt.Meets onError onValue)
    (returned : attempt = .ok value) :
    onValue value := by
  rw [returned] at meets
  exact meets

/-- What is known of an attempt is known of the very value it returns. -/
theorem Meets.returned
    {attempt : Attempt ε α} {onValue : α → Prop}
    (meets : attempt.Meets onError onValue) :
    attempt.Meets onError fun value => attempt = .ok value ∧ onValue value := by
  cases attempt with
  | ok value => exact ⟨rfl, meets⟩
  | error fault =>
      cases fault with
      | error reported => exact meets
      | panic => exact meets

/-- A computation that meets anything does not panic. -/
theorem Meets.ne_panic
    {attempt : Attempt ε α} {onValue : α → Prop}
    (meets : attempt.Meets onError onValue) :
    attempt ≠ .error .panic := by
  intro panics
  rw [panics] at meets
  exact meets

end Meets

/-- Only a returned value is mapped. -/
theorem map_eq_ok
    {attempt : Attempt ε α} {convert : α → β} {result : β} :
    attempt.map convert = .ok result ↔ ∃ value, attempt = .ok value ∧ convert value = result := by
  cases attempt with
  | ok value => simp [Except.map]
  | error fault => simp [Except.map]

/-- Converting the result keeps the fault. -/
theorem map_eq_error
    {attempt : Attempt ε α} {convert : α → β} {fault : Fault ε} :
    attempt.map convert = .error fault ↔ attempt = .error fault := by
  cases attempt with
  | ok value => simp [Except.map]
  | error fault => simp [Except.map]

/-- A sequence returns exactly when both of its parts do. -/
theorem bind_eq_ok
    {first : Attempt ε α} {next : α → Attempt ε β} {result : β} :
    (first >>= next : Attempt ε β) = .ok result ↔
      ∃ value, first = .ok value ∧ next value = .ok result := by
  cases first with
  | ok value =>
      constructor
      · intro returned
        exact ⟨value, rfl, returned⟩
      · rintro ⟨_, ⟨rfl⟩, returned⟩
        exact returned
  | error fault =>
      constructor
      · intro returned
        cases returned
      · rintro ⟨_, impossible, _⟩
        cases impossible

/-- A value that was expected was there. -/
theorem orPanic_eq_ok
    {optional : Option α} {value : α} :
    (orPanic optional : Attempt ε α) = .ok value ↔ optional = some value := by
  cases optional with
  | none => simp [orPanic, panicked]
  | some present => simp [orPanic]

/-- A requirement that let the code go on holds. -/
theorem require_eq_ok
    {condition : Prop} [Decidable condition] {otherwise : ε} {done : Unit} :
    (require condition otherwise : Attempt ε Unit) = .ok done ↔ condition := by
  unfold require
  split <;> simp_all [fail]

/-- A value that was required was there. -/
theorem orFail_eq_ok
    {optional : Option α} {otherwise : ε} {value : α} :
    orFail otherwise optional = .ok value ↔ optional = some value := by
  cases optional with
  | none => simp [orFail, fail]
  | some present => simp [orFail]

/-- Converting the error keeps the result. -/
theorem mapError_eq_ok
    {attempt : Attempt ε α} {convert : ε → ε'} {value : α} :
    attempt.mapError convert = .ok value ↔ attempt = .ok value := by
  cases attempt with
  | ok present => simp [mapError]
  | error fault => cases fault <;> simp [mapError, fail, panicked]

/-- A subtraction with a result did not underflow. -/
theorem sub_eq_ok
    {left right result : Nat} :
    (sub left right : Attempt ε Nat) = .ok result ↔
      right ≤ left ∧ result = left - right := by
  unfold sub
  split
  · simp_all [eq_comm]
  · simp only [panicked, reduceCtorEq, false_iff]
    omega

end Attempt

end TraceWasm
