import TraceWasm.Foundation.Overwrite

/-!
# Loops over a run of a list

Reading a run, writing a run, and moving a run down, one index at a time. Each
step indexes the list, so a run that reaches past the end stops the loop.
-/

namespace TraceWasm

variable {α : Type u}

/-- Read a run, one index at a time. -/
def readRun (list : List α) (start : Nat) : (count : Nat) → Option (List α)
  | 0 => some []
  | count + 1 => do
      let value ← list[start]?
      return value :: (← readRun list (start + 1) count)

/-- A run inside the list is read. -/
theorem readRun_of_le
    {list : List α} {start count : Nat}
    (inside : start + count ≤ list.length) :
    readRun list start count = some ((list.drop start).take count) := by
  induction count generalizing start with
  | zero => rfl
  | succ count inductionHypothesis =>
      have here : start < list.length := by omega
      rw [readRun, inductionHypothesis (by omega), List.getElem?_eq_getElem here,
        List.drop_eq_getElem_cons here, List.take_succ_cons]
      rfl

/-- A run that is read is inside the list. -/
theorem le_of_readRun
    {list run : List α} {start count : Nat}
    (read : readRun list start count = some run) :
    run.length = count ∧ (count ≠ 0 → start + count ≤ list.length) := by
  induction count generalizing start run with
  | zero =>
      cases read
      exact ⟨rfl, fun absurd => (absurd rfl).elim⟩
  | succ count inductionHypothesis =>
      rw [readRun] at read
      obtain ⟨value, found, read⟩ := Option.bind_eq_some_iff.mp read
      obtain ⟨rest, readRest, same⟩ := Option.bind_eq_some_iff.mp read
      cases same
      have inside := (List.getElem?_eq_some_iff.mp found).1
      have further := inductionHypothesis readRest
      refine ⟨by rw [List.length_cons, further.1], fun _ => ?_⟩
      by_cases more : count = 0
      · omega
      · have bound := further.2 more
        omega

/-- Write a run, one index at a time. -/
def writeRun (list : List α) (start : Nat) : List α → Option (List α)
  | [] => some list
  | value :: run =>
      if start < list.length then writeRun (list.set start value) (start + 1) run
      else none

/-- Overwriting one element and then the rest overwrites them all. -/
theorem overwrite_cons
    {list : List α} {start : Nat} (value : α) (run : List α)
    (inside : start < list.length) :
    overwrite (list.set start value) (start + 1) run =
      overwrite list start (value :: run) := by
  unfold overwrite
  rw [List.length_set, List.take_set, List.length_cons,
    List.drop_set_of_lt (by omega), Nat.add_right_comm,
    show list.length - start = list.length - (start + 1) + 1 by omega,
    List.take_succ_cons, List.take_succ_eq_append_getElem inside,
    List.set_append_right _ _ (by rw [List.length_take]; omega), List.length_take,
    Nat.min_eq_left (by omega), Nat.sub_self, List.set_cons_zero]
  simp only [List.append_assoc, List.cons_append, List.nil_append, Nat.add_assoc]

/-- A run inside the list is written. -/
theorem writeRun_of_le
    {list run : List α} {start : Nat}
    (inside : start + run.length ≤ list.length) :
    writeRun list start run = some (overwrite list start run) := by
  induction run generalizing list start with
  | nil => rw [writeRun, overwrite_nil]
  | cons value run inductionHypothesis =>
      rw [List.length_cons] at inside
      rw [writeRun, if_pos (by omega), ← overwrite_cons value run (by omega)]
      apply inductionHypothesis
      rw [List.length_set]
      omega

/-- A run that is written is inside the list. -/
theorem le_of_writeRun
    {list run written : List α} {start : Nat}
    (wrote : writeRun list start run = some written)
    (some : run ≠ []) :
    start + run.length ≤ list.length := by
  induction run generalizing list start with
  | nil => exact (some rfl).elim
  | cons value run inductionHypothesis =>
      rw [writeRun] at wrote
      split at wrote
      · cases run with
        | nil =>
            rw [List.length_singleton]
            omega
        | cons next run =>
            have bound := inductionHypothesis wrote (List.cons_ne_nil _ _)
            rw [List.length_set] at bound
            rw [List.length_cons]
            omega
      · cases wrote

/-- Move a run from one index to another, one value at a time. -/
def moveRun (list : List α) (source target : Nat) : (count : Nat) → Option (List α)
  | 0 => some list
  | count + 1 => do
      let value ← list[source]?
      if target < list.length then
        moveRun (list.set target value) (source + 1) (target + 1) count
      else none

/-- A run that is moved is inside the list before and after. -/
theorem le_of_moveRun
    {list moved : List α} {source target count : Nat}
    (move : moveRun list source target count = some moved) :
    moved.length = list.length ∧
      (count ≠ 0 → source + count ≤ list.length ∧ target + count ≤ list.length) := by
  induction count generalizing list source target with
  | zero =>
      cases move
      exact ⟨rfl, fun absurd => (absurd rfl).elim⟩
  | succ count inductionHypothesis =>
      rw [moveRun] at move
      obtain ⟨value, found, move⟩ := Option.bind_eq_some_iff.mp move
      have here := (List.getElem?_eq_some_iff.mp found).1
      split at move
      · have rest := inductionHypothesis move
        rw [List.length_set] at rest
        refine ⟨rest.1, fun _ => ?_⟩
        by_cases more : count = 0
        · omega
        · have bounds := rest.2 more
          omega
      · cases move

/-- Moving down bottom-up never writes over what is still to be read. -/
theorem moveRun_of_le
    {list : List α} {source target count : Nat}
    (downward : target ≤ source)
    (inside : source + count ≤ list.length) :
    moveRun list source target count =
      some (overwrite list target ((list.drop source).take count)) := by
  induction count generalizing list source target with
  | zero => rw [moveRun, List.take_zero, overwrite_nil]
  | succ count inductionHypothesis =>
      have here : source < list.length := by omega
      rw [moveRun, List.getElem?_eq_getElem here]
      change (if _ then _ else _) = _
      rw [if_pos (by omega),
        inductionHypothesis (by omega) (by rw [List.length_set]; omega),
        List.drop_set_of_lt (by omega), overwrite_cons _ _ (by omega),
        List.drop_eq_getElem_cons here, List.take_succ_cons]

end TraceWasm
