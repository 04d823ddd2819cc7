import TraceWasm.Instruction.Block

/-!
# Interned pools

Values in the order they were first interned. A value's id is its position, and
the ids have to fit in sixteen bits.
-/

namespace TraceWasm
namespace Register

/-- The values that have been interned, by their ids. -/
structure Interner (α : Type) where
  values : List α

namespace Interner

variable {α : Type} [DecidableEq α]

/-- No value has been interned. -/
def empty : Interner α := ⟨[]⟩

/-- The id of a value, and the pool that holds it. -/
def tryIntern (interner : Interner α) (value : α) :
    Attempt TraceWasmError (Nat × Interner α) :=
  match interner.values.idxOf? value with
  | some id => .ok (id, interner)
  | none =>
      if interner.values.length ≥ u16Max then
        .fail (.tooManyUniqueValues (interner.values.length + 1) u16Max)
      else .ok (asU16 interner.values.length, ⟨interner.values ++ [value]⟩)

/-- An interned value stays where it was, and the new one is found at its id. -/
theorem tryIntern_meets
    {interner : Interner α}
    (fits : interner.values.length ≤ u16Max) (value : α) :
    (interner.tryIntern value).Meets TraceWasmError.IsLimit
      fun (id, after) => interner.values <+: after.values ∧
        after.values[id]? = some value ∧ after.values.length ≤ u16Max := by
  unfold tryIntern
  cases found : interner.values.idxOf? value with
  | some id =>
      obtain ⟨below, same, _⟩ := List.idxOf?_eq_some_iff.mp found
      refine ⟨List.prefix_refl _, ?_, fits⟩
      rw [List.getElem?_eq_getElem below, same]
  | none =>
      dsimp only
      split
      · trivial
      · rename_i notFull
        rw [asU16_of_le fits]
        refine ⟨List.prefix_append _ _, List.getElem?_concat_length, ?_⟩
        rw [List.length_append, List.length_singleton]
        omega

end Interner

end Register
end TraceWasm
