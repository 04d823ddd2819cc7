import TraceWasm.Llvm.Builder
import TraceWasm.Foundation.Loop
import TraceWasm.Foundation.Returns

/-!
# Types that have a size

A context builds aggregates out of members that have a size. So a type that it hands
out has a size throughout, unless it is `void` or a function type itself.
-/

namespace TraceWasm
namespace Llvm

/-! ## Building types -/

/-- What can be wrong with a compound type. -/
inductive TypeError where
  | aggregateMemberTypeNotSized (member : Ty) (aggregate : String)

/-- The structure of the fields, each of which needs a size. -/
def structTy (fields : List Ty) (isPacked : Bool) : Attempt TypeError Ty := do
  fields.forM fun field =>
    Attempt.require field.isFirstClass (.aggregateMemberTypeNotSized field "struct")
  return .struct fields isPacked

/-- The array of the elements, which need a size. -/
def arrayTy (elementTy : Ty) (size : Nat) : Attempt TypeError Ty := do
  Attempt.require elementTy.isFirstClass (.aggregateMemberTypeNotSized elementTy "array")
  return .array size elementTy

namespace Ty

/-- The types that a context hands out. -/
inductive Built : Ty → Prop where
  | ofWidth {ty : Ty} {bits : Nat} (known : ty.width = some bits) : Built ty
  | ptr : Built .ptr
  | void : Built .void
  | array {elementTy ty : Ty} {size : Nat} (element : Built elementTy)
      (made : arrayTy elementTy size = .ok ty) : Built ty
  | struct {fields : List Ty} {isPacked : Bool} {ty : Ty}
      (members : ∀ field ∈ fields, Built field)
      (made : structTy fields isPacked = .ok ty) : Built ty
  /-- What the address of a function points at. -/
  | func (params : List Ty) (result : Ty) : Built (.func params result)

/-- A value of the type takes up space. -/
inductive Sized : Ty → Prop where
  | ofWidth {ty : Ty} {bits : Nat} (known : ty.width = some bits) : Sized ty
  | ptr : Sized .ptr
  | array {elementTy : Ty} (size : Nat) (element : Sized elementTy) :
      Sized (.array size elementTy)
  | struct {fields : List Ty} (isPacked : Bool) (members : ∀ field ∈ fields, Sized field) :
      Sized (.struct fields isPacked)

/-- The elements of a sized array are sized. -/
theorem Sized.element
    {elementTy : Ty}
    (sized : Sized (.array size elementTy)) :
    elementTy.Sized := by
  cases sized with
  | ofWidth known => cases known
  | array size element => exact element

/-- The fields of a sized structure are sized. -/
theorem Sized.member
    {fields : List Ty}
    (sized : Sized (.struct fields isPacked)) :
    ∀ field ∈ fields, field.Sized := by
  cases sized with
  | ofWidth known => cases known
  | struct isPacked members => exact members

/-- A sized type is first class. -/
theorem Sized.isFirstClass
    {ty : Ty}
    (sized : ty.Sized) :
    ty.isFirstClass = true := by
  cases sized with
  | ofWidth known => cases ty <;> first | rfl | cases known
  | _ => rfl

/-- The check on the outside of a type is enough for one that a context hands out. -/
theorem Built.sized
    {ty : Ty}
    (built : ty.Built) (firstClass : ty.isFirstClass = true) :
    ty.Sized := by
  induction built with
  | ofWidth known => exact .ofWidth known
  | ptr => exact .ptr
  | void => cases firstClass
  | array element made inductionHypothesis =>
      obtain ⟨_, checked, same⟩ := Attempt.bind_eq_ok.mp made
      cases same
      exact .array _ (inductionHypothesis (Attempt.require_eq_ok.mp checked))
  | @struct fields isPacked ty members made inductionHypothesis =>
      obtain ⟨_, checked, same⟩ := Attempt.bind_eq_ok.mp made
      cases same
      apply Sized.struct
      intro field member
      exact inductionHypothesis field member
        (Attempt.require_eq_ok.mp (Attempt.forM_eq_ok.mp checked field member))
  | func params result => cases firstClass

end Ty

/-! ## What a `getelementptr` reaches has a size -/

/-- A walk through a sized type reaches a sized one. -/
theorem sized_of_walk
    {indices : List Value} {ty : Ty}
    (sized : ty.Sized) :
    (walkPointeeTyInGep indices ty).Returns Ty.Sized := by
  induction indices generalizing ty with
  | nil => simpa [walkPointeeTyInGep] using sized
  | cons index indices inductionHypothesis =>
      cases ty with
      | struct fields isPacked =>
          simp only [walkPointeeTyInGep, Attempt.returns_bind, Attempt.returns_require,
            Attempt.returns_orFail]
          intro _ _ _ _ _ fieldTy found
          apply inductionHypothesis
          apply sized.member
          split at found
          · cases found
          · exact List.mem_of_getElem? found
      | array size element =>
          have later := inductionHypothesis sized.element
          simp only [walkPointeeTyInGep]
          split
          · simp only [Attempt.returns_bind, Attempt.returns_require]
            exact fun _ => later
          · exact later
      | _ => simp [walkPointeeTyInGep]

/-- Indices descend into a type only if its outside has a size. -/
theorem isFirstClass_of_walk
    {index : Value} {indices : List Value} {ty reached : Ty}
    (walked : walkPointeeTyInGep (index :: indices) ty = .ok reached) :
    ty.isFirstClass = true := by
  cases ty with
  | func params result => simp [walkPointeeTyInGep, Attempt.fail] at walked
  | void => simp [walkPointeeTyInGep, Attempt.fail] at walked
  | _ => rfl

namespace GetElementPtrOperands

variable {operands : GetElementPtrOperands} {ty : Ty}

/-- What an address points to is sized. -/
theorem sized_resultPointeeTy
    (sized : operands.sourceTy.Sized) (reached : operands.resultPointeeTy = some ty) :
    ty.Sized := by
  unfold resultPointeeTy at reached
  split at reached
  · cases reached
    exact sized
  · cases walked : walkPointeeTyInGep operands.indices.tail operands.sourceTy with
    | error fault =>
        rw [walked] at reached
        cases reached
    | ok result =>
        rw [walked] at reached
        cases reached
        exact sized_of_walk sized _ walked

/-- What a constant expression addresses has a size, if anything is descended into. -/
theorem sized_resultPointeeTy_of_built
    (built : operands.sourceTy.Built)
    (descends : operands.indices.length ≤ 1 → operands.sourceTy.isFirstClass = true)
    (reached : operands.resultPointeeTy = some ty) :
    ty.Sized := by
  apply sized_resultPointeeTy (built.sized _) reached
  by_cases short : operands.indices.length ≤ 1
  · exact descends short
  · unfold resultPointeeTy at reached
    rw [if_neg short] at reached
    cases walked : walkPointeeTyInGep operands.indices.tail operands.sourceTy with
    | error fault =>
        rw [walked] at reached
        cases reached
    | ok result =>
        cases rest : operands.indices.tail with
        | nil =>
            have lengths := congrArg List.length rest
            rw [List.length_tail, List.length_nil] at lengths
            omega
        | cons index indices =>
            rw [rest] at walked
            exact isFirstClass_of_walk walked

end GetElementPtrOperands

end Llvm
end TraceWasm
