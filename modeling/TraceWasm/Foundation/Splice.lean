import Mathlib.Data.List.Nodup
import Mathlib.Tactic.Common

/-!
# Flattened lists in which one part changes

The parts are named by distinct keys. When one part changes, the flattened list changes
in that place only.
-/

namespace TraceWasm

variable {α : Type u} {β : Type v} {keys : List α} {part changed : α → List β}

/-- The flattened list, split around the part of one key. -/
theorem exists_flatMap_split
    (distinct : keys.Nodup) (member : key ∈ keys)
    (others : ∀ other ∈ keys, other ≠ key → changed other = part other) :
    ∃ before after, keys = before ++ key :: after ∧
      keys.flatMap part = before.flatMap part ++ (part key ++ after.flatMap part) ∧
      keys.flatMap changed = before.flatMap part ++ (changed key ++ after.flatMap part) := by
  obtain ⟨before, after, rfl⟩ := List.append_of_mem member
  rw [List.nodup_append, List.nodup_cons] at distinct
  obtain ⟨-, ⟨notAfter, -⟩, apart⟩ := distinct
  have sameBefore : before.flatMap changed = before.flatMap part := by
    apply List.flatMap_congr
    intro other there
    apply others other (List.mem_append_left _ there)
    exact apart other there key List.mem_cons_self
  have sameAfter : after.flatMap changed = after.flatMap part := by
    apply List.flatMap_congr
    intro other there
    apply others other (List.mem_append_right _ (List.mem_cons_of_mem _ there))
    rintro rfl
    exact notAfter there
  refine ⟨before, after, rfl, ?_, ?_⟩
  · simp only [List.flatMap_append, List.flatMap_cons]
  · simp only [List.flatMap_append, List.flatMap_cons, sameBefore, sameAfter]

end TraceWasm
