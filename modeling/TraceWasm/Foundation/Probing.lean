import Mathlib.Data.List.Nodup
import Mathlib.Tactic.Common

/-!
# Probing for an unused candidate

Candidates are numbered. A probe from a start takes the first one that is not used.
-/

namespace TraceWasm

variable {α : Type u}

/-- The number is the first one from the start on whose candidate is not used. -/
structure FirstFree
    (candidate : Nat → α) (used : List α) (start n : Nat) : Prop where
  from_start : start ≤ n
  free : candidate n ∉ used
  first : ∀ m, start ≤ m → m < n → candidate m ∈ used

namespace FirstFree

variable {candidate : Nat → α} {used : List α}

/-- The first candidate is the first free one if it is free. -/
theorem here
    (free : candidate start ∉ used) :
    FirstFree candidate used start start := by
  refine ⟨Nat.le_refl start, free, fun m fromStart before => ?_⟩
  omega

/-- Otherwise it is the first free one behind it. -/
theorem there
    (taken : candidate start ∈ used)
    (next : FirstFree candidate used (start + 1) n) :
    FirstFree candidate used start n := by
  refine ⟨by have := next.from_start; omega, next.free, fun m fromStart before => ?_⟩
  by_cases same : m = start
  · exact same ▸ taken
  · exact next.first m (by omega) before

end FirstFree

/-- Distinct candidates outnumber what is used. -/
theorem exists_free
    {candidate : Nat → α}
    (distinct : Function.Injective candidate) (used : List α) (start : Nat) :
    ∃ n, start ≤ n ∧ n ≤ start + used.length ∧ candidate n ∉ used := by
  by_contra none
  have taken : (List.range' start (used.length + 1)).map candidate ⊆ used := by
    intro name member
    obtain ⟨n, range, rfl⟩ := List.mem_map.mp member
    rw [List.mem_range'_1] at range
    by_contra free
    exact none ⟨n, range.1, by omega, free⟩
  have unlike : ((List.range' start (used.length + 1)).map candidate).Nodup :=
    List.Nodup.map distinct List.nodup_range'
  have short := unlike.length_le_of_subset taken
  rw [List.length_map, List.length_range'] at short
  omega

end TraceWasm
