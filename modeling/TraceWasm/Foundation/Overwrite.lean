import Mathlib.Data.List.Basic
import Mathlib.Data.List.TakeDrop
import Mathlib.Tactic.Common

/-!
# Overwriting a run of a list

A run of values written over a list at an offset. The length never changes:
what would reach past the end is dropped.
-/

namespace TraceWasm

variable {α : Type u}

/-- Write a run over the list, from an offset on. -/
def overwrite (list : List α) (offset : Nat) (run : List α) : List α :=
  list.take offset ++ run.take (list.length - offset) ++
    list.drop (offset + run.length)

@[simp] theorem length_overwrite (list : List α) (offset : Nat) (run : List α) :
    (overwrite list offset run).length = list.length := by
  unfold overwrite
  simp only [List.length_append, List.length_take, List.length_drop]
  omega

/-- The index is one that the run is written over. -/
abbrev Covers (offset count index : Nat) : Prop :=
  offset ≤ index ∧ index < offset + count

/-- Inside the run there is the run, and outside what was there. -/
theorem getElem?_overwrite
    (list : List α) (offset : Nat) (run : List α)
    (fits : offset + run.length ≤ list.length) (index : Nat) :
    (overwrite list offset run)[index]? =
      if Covers offset run.length index then run[index - offset]? else list[index]? := by
  have whole : run.take (list.length - offset) = run :=
    List.take_of_length_le (by omega)
  unfold overwrite
  rw [whole]
  by_cases before : index < offset
  · have inside : index < (list.take offset ++ run).length := by
      rw [List.length_append, List.length_take]
      omega
    rw [if_neg (by omega), List.getElem?_append_left inside,
      List.getElem?_append_left (by rw [List.length_take]; omega),
      List.getElem?_take_of_lt before]
  · have prefixLength : (list.take offset).length = offset := by
      rw [List.length_take]
      omega
    by_cases within : index < offset + run.length
    · have inside : index < (list.take offset ++ run).length := by
        rw [List.length_append, prefixLength]
        exact within
      rw [if_pos ⟨by omega, within⟩, List.getElem?_append_left inside,
        List.getElem?_append_right (by omega), prefixLength]
    · have outside : (list.take offset ++ run).length ≤ index := by
        rw [List.length_append, prefixLength]
        omega
      rw [if_neg (by omega), List.getElem?_append_right outside,
        List.length_append, prefixLength, List.getElem?_drop]
      congr 1
      omega

/-- What lies below the offset stays. -/
theorem getElem?_overwrite_of_lt
    (list : List α) (offset : Nat) (run : List α) (index : Nat)
    (before : index < offset) :
    (overwrite list offset run)[index]? = list[index]? := by
  by_cases inside : index < list.length
  · unfold overwrite
    rw [List.append_assoc,
      List.getElem?_append_left (by rw [List.length_take]; omega),
      List.getElem?_take_of_lt before]
  · rw [List.getElem?_eq_none (by rw [length_overwrite]; omega),
      List.getElem?_eq_none (by omega)]

@[simp] theorem overwrite_nil (list : List α) (offset : Nat) :
    overwrite list offset [] = list := by
  unfold overwrite
  simp

/-- Two runs written one after the other are one run. -/
theorem overwrite_overwrite
    (list first second : List α) (offset : Nat)
    (fits : offset + (first.length + second.length) ≤ list.length) :
    overwrite (overwrite list offset first) (offset + first.length) second =
      overwrite list offset (first ++ second) := by
  apply List.ext_getElem?
  intro index
  rw [getElem?_overwrite _ _ _ (by rw [length_overwrite]; omega),
    getElem?_overwrite _ _ _ (by omega),
    getElem?_overwrite _ _ _ (by rw [List.length_append]; omega), List.length_append]
  by_cases inSecond : Covers (offset + first.length) second.length index
  · rw [if_pos inSecond, if_pos (by omega), List.getElem?_append_right (by omega)]
    congr 1
    omega
  · rw [if_neg inSecond]
    by_cases inFirst : Covers offset first.length index
    · rw [if_pos inFirst, if_pos (by omega), List.getElem?_append_left (by omega)]
    · rw [if_neg inFirst, if_neg (by omega)]

/-- The run that starts at an offset. -/
theorem getElem?_take_drop
    (list : List α) (offset count index : Nat)
    (inside : index < count) :
    ((list.drop offset).take count)[index]? = list[offset + index]? := by
  rw [List.getElem?_take_of_lt inside, List.getElem?_drop]

/-- A run that was written is read back. -/
theorem take_drop_overwrite
    (list run : List α) (offset : Nat)
    (fits : offset + run.length ≤ list.length) :
    ((overwrite list offset run).drop offset).take run.length = run := by
  apply List.ext_getElem?
  intro index
  by_cases inside : index < run.length
  · rw [getElem?_take_drop _ _ _ _ inside, getElem?_overwrite _ _ _ fits,
      if_pos ⟨by omega, by omega⟩, Nat.add_sub_cancel_left]
  · rw [List.getElem?_eq_none (by rw [List.length_take]; omega),
      List.getElem?_eq_none (by omega)]

end TraceWasm
