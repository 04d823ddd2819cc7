import TraceWasm.Llvm.Value

/-!
# Descending into a type

A `getelementptr` descends one level of its source type with every index after the
first. The walk compares a constant array index with the array's size after cutting an
`i64` to its low 32 bits, so it judges some indices differently from the integers that
they are.
-/

namespace TraceWasm
namespace Llvm

/-! ## Indices -/

/-- The integer that a constant is. -/
def ConstValue.exactInteger : ConstValue → Option Int
  | .i1 val _ => some val.toInt
  | .i8 val => some val.toInt
  | .i16 val => some val.toInt
  | .i32 val => some val.toInt
  | .i64 val => some val.toInt
  | _ => none

/-- An integer operand. One that is a constant has the constant's type. -/
abbrev IndexValue :=
  {value : Value // value.ty.isInteger = true ∧
    ∀ constVal, value.tryConst = some constVal → constVal.ty = value.ty}

/-- The integer that the index is known to be. -/
def Value.exactIndex (self : Value) : Option Int :=
  self.tryConst.bind (·.exactInteger)

/-! ## What a descent means -/

/-- One legal step down, by an index. -/
inductive StepsTo : Ty → Value → Ty → Prop where
  | field {fields : List Ty} {packed : Bool} {index : Value} {field : BitVec 32}
      {fieldTy : Ty}
      (isConst : index.tryConst = some (.i32 field)) (nonneg : 0 ≤ field.toInt)
      (found : fields[field.toInt.toNat]? = some fieldTy) :
      StepsTo (.struct fields packed) index fieldTy
  | element {size : Nat} {element : Ty} {index : Value}
      (inside : ∀ n, index.exactIndex = some n → 0 ≤ n ∧ n < size) :
      StepsTo (.array size element) index element

/-- A legal step down for every index. -/
inductive Descends : Ty → List Value → Ty → Prop where
  | done {ty : Ty} : Descends ty [] ty
  | step {ty between reached : Ty} {index : Value} {indices : List Value}
      (first : StepsTo ty index between) (rest : Descends between indices reached) :
      Descends ty (index :: indices) reached

/-- The walk returns what the descent reaches, and fails if a step is illegal. -/
structure WalksExactly (ty : Ty) (indices : List Value) : Prop where
  returns : ∀ reached,
    walkPointeeTyInGep indices ty = .ok reached ↔ Descends ty indices reached
  fails : (∃ reported, walkPointeeTyInGep indices ty = Attempt.fail reported) ↔
    ¬∃ reached, Descends ty indices reached

/-! ## The shape of a descent -/

/-- A constant index at an array. -/
structure ArrayIndex where
  size : Nat
  index : Int

namespace ArrayIndex

/-- The index is one of the array's elements. -/
def Inside (self : ArrayIndex) : Prop := 0 ≤ self.index ∧ self.index < self.size

/-- The index with all but its low 32 bits cut off. -/
def cut (self : ArrayIndex) : ArrayIndex :=
  { self with index := self.index.bmod (2 ^ 32) }

end ArrayIndex

/-- The type that the indices reach if no array is asked for its size, and the constant
indices that arrays are given on the way. -/
def shapeOfDescent : List Value → Ty → Option (Ty × List ArrayIndex)
  | [], self => some (self, [])
  | index :: indices, .struct fields _ =>
      match index.tryConst with
      | some (.i32 field) =>
          if 0 ≤ field.toInt then
            (fields[field.toInt.toNat]?).bind (shapeOfDescent indices)
          else none
      | _ => none
  | index :: indices, .array size element =>
      (shapeOfDescent indices element).map fun (reached, arrayIndices) =>
        (reached, (index.exactIndex.map (ArrayIndex.mk size)).toList ++ arrayIndices)
  | _ :: _, _ => none

section Shape

variable {ty reached : Ty} {index : Value} {indices : List Value}

/-- An index goes into a structure if it is a constant that names a field. -/
theorem stepsTo_struct
    {fields : List Ty} {packed : Bool} {fieldTy : Ty} :
    StepsTo (.struct fields packed) index fieldTy ↔
      ∃ field, index.tryConst = some (.i32 field) ∧ 0 ≤ field.toInt ∧
        fields[field.toInt.toNat]? = some fieldTy := by
  constructor
  · rintro ⟨isConst, nonneg, found⟩
    exact ⟨_, isConst, nonneg, found⟩
  · rintro ⟨field, isConst, nonneg, found⟩
    exact .field isConst nonneg found

/-- An index goes into an array if it is not a constant out of bounds. -/
theorem stepsTo_array
    {size : Nat} {element between : Ty} :
    StepsTo (.array size element) index between ↔
      between = element ∧ ∀ n, index.exactIndex = some n → 0 ≤ n ∧ n < size := by
  constructor
  · intro step
    cases step with
    | element inside => exact ⟨rfl, inside⟩
  · rintro ⟨rfl, inside⟩
    exact .element inside

/-- The first index steps into the type, and the rest go on from there. -/
theorem descends_cons :
    Descends ty (index :: indices) reached ↔
      ∃ between, StepsTo ty index between ∧ Descends between indices reached := by
  constructor
  · rintro ⟨⟩
    case step between first rest => exact ⟨between, first, rest⟩
  · rintro ⟨between, first, rest⟩
    exact .step first rest

/-- The shape of a descent into a structure is that of the descent into the field. -/
theorem shapeOfDescent_struct
    {fields : List Ty} {packed : Bool} {shape : Ty × List ArrayIndex} :
    shapeOfDescent (index :: indices) (.struct fields packed) = some shape ↔
      ∃ field fieldTy, index.tryConst = some (.i32 field) ∧ 0 ≤ field.toInt ∧
        fields[field.toInt.toNat]? = some fieldTy ∧
        shapeOfDescent indices fieldTy = some shape := by
  rw [shapeOfDescent]
  constructor
  · intro shaped
    split at shaped
    case h_1 field isConst =>
      split at shaped
      case isTrue nonneg =>
        obtain ⟨fieldTy, found, shaped⟩ := Option.bind_eq_some_iff.mp shaped
        exact ⟨field, fieldTy, isConst, nonneg, found, shaped⟩
      case isFalse => cases shaped
    case h_2 => cases shaped
  · rintro ⟨field, fieldTy, isConst, nonneg, found, shaped⟩
    rw [isConst]
    dsimp only
    rw [if_pos nonneg, found]
    exact shaped

/-- The shape of a descent into an array has one more index to check. -/
theorem shapeOfDescent_array
    {size : Nat} {element : Ty} {arrayIndices : List ArrayIndex} :
    shapeOfDescent (index :: indices) (.array size element) = some (reached, arrayIndices) ↔
      ∃ later, shapeOfDescent indices element = some (reached, later) ∧
        arrayIndices = (index.exactIndex.map (ArrayIndex.mk size)).toList ++ later := by
  rw [shapeOfDescent, Option.map_eq_some_iff]
  constructor
  · rintro ⟨⟨_, later⟩, shaped, same⟩
    cases same
    exact ⟨later, shaped, rfl⟩
  · rintro ⟨later, shaped, rfl⟩
    exact ⟨(reached, later), shaped, rfl⟩

/-- What holds at the first index, if it is constant, and at the later ones. -/
theorem forall_mem_arrayIndices
    {size : Nat} {exactIndex : Option Int} {later : List ArrayIndex}
    {holds : ArrayIndex → Prop} :
    (∀ arrayIndex ∈ (exactIndex.map (ArrayIndex.mk size)).toList ++ later,
        holds arrayIndex) ↔
      (∀ n, exactIndex = some n → holds ⟨size, n⟩) ∧ ∀ arrayIndex ∈ later, holds arrayIndex := by
  rw [List.forall_mem_append]
  cases exactIndex <;> simp

/-- A descent is one of the right shape, in which every array has the element. -/
theorem descends_iff :
    Descends ty indices reached ↔
      ∃ arrayIndices, shapeOfDescent indices ty = some (reached, arrayIndices) ∧
        ∀ arrayIndex ∈ arrayIndices, arrayIndex.Inside := by
  induction indices generalizing ty with
  | nil =>
      constructor
      · rintro ⟨⟩
        exact ⟨[], rfl, by simp⟩
      · rintro ⟨arrayIndices, shaped, _⟩
        cases shaped
        exact .done
  | cons index indices inductionHypothesis =>
      rw [descends_cons]
      cases ty with
      | struct fields packed =>
          simp only [stepsTo_struct, shapeOfDescent_struct, inductionHypothesis]
          constructor
          · rintro ⟨fieldTy, ⟨field, isConst, nonneg, found⟩, arrayIndices, shaped, inside⟩
            exact ⟨arrayIndices, ⟨field, fieldTy, isConst, nonneg, found, shaped⟩, inside⟩
          · rintro ⟨arrayIndices, ⟨field, fieldTy, isConst, nonneg, found, shaped⟩, inside⟩
            exact ⟨fieldTy, ⟨field, isConst, nonneg, found⟩, arrayIndices, shaped, inside⟩
      | array size element =>
          simp only [stepsTo_array, shapeOfDescent_array, inductionHypothesis]
          constructor
          · rintro ⟨_, ⟨rfl, first⟩, later, shaped, inside⟩
            exact ⟨_, ⟨later, shaped, rfl⟩, forall_mem_arrayIndices.mpr ⟨first, inside⟩⟩
          · rintro ⟨_, ⟨later, shaped, rfl⟩, inside⟩
            obtain ⟨first, inside⟩ := forall_mem_arrayIndices.mp inside
            exact ⟨element, ⟨rfl, first⟩, later, shaped, inside⟩
      | _ =>
          constructor
          · rintro ⟨between, ⟨⟩, _⟩
          · rintro ⟨arrayIndices, shaped, _⟩
            cases shaped

end Shape

/-! ## What the walk compares -/

/-- The walk reads the low 32 bits of a constant. -/
theorem toInt_tryInteger (constVal : ConstValue) :
    constVal.tryInteger.map BitVec.toInt =
      constVal.exactInteger.map (·.bmod (2 ^ 32)) := by
  have narrow {w : Nat} (val : BitVec w) (le : w ≤ 32) :
      (val.signExtend 32).toInt = val.toInt.bmod (2 ^ 32) := by
    have cancelled := BitVec.toInt_bmod_cancel (val.signExtend 32)
    rw [BitVec.toInt_signExtend_of_le le] at cancelled ⊢
    exact cancelled.symm
  cases constVal with
  | i1 val bit => exact congrArg some (narrow val (by decide))
  | i8 val => exact congrArg some (narrow val (by decide))
  | i16 val => exact congrArg some (narrow val (by decide))
  | i32 val => exact congrArg some (BitVec.toInt_bmod_cancel val).symm
  | i64 val =>
      have low : (val.setWidth 32).toInt = val.toInt.bmod (2 ^ 32) := by
        rw [BitVec.toInt_setWidth, BitVec.toInt_eq_toNat_bmod,
          Int.bmod_bmod_of_dvd (by decide)]
      exact congrArg some low
  | _ => rfl

/-- The index that the walk compares. -/
theorem toInt_readIndex (index : Value) :
    (index.tryConst.bind (·.tryInteger)).map BitVec.toInt =
      index.exactIndex.map (·.bmod (2 ^ 32)) := by
  unfold Value.exactIndex
  cases index.tryConst with
  | none => rfl
  | some constVal => exact toInt_tryInteger constVal

/-- Bits that are not negative are read alike with and without the sign. -/
theorem toNat_toInt_of_nonneg
    {w : Nat} {x : BitVec w}
    (nonneg : 0 ≤ x.toInt) :
    x.toInt.toNat = x.toNat := by
  rw [BitVec.toInt_eq_toNat_cond] at nonneg ⊢
  split at nonneg <;> rename_i small
  · rw [if_pos small]
    rfl
  · have := x.isLt
    omega

/-- An integer that is not negative is the same in 64 bits. -/
theorem toNat_signExtend_of_nonneg
    (x : BitVec 32)
    (nonneg : 0 ≤ x.toInt) :
    (x.signExtend 64).toNat = x.toInt.toNat := by
  have notNegative : x.msb = false := by
    rw [BitVec.msb_eq_toInt, decide_eq_false_iff_not]
    omega
  rw [BitVec.toNat_signExtend, notNegative, toNat_toInt_of_nonneg nonneg]
  simp only [Bool.false_eq_true, if_false, Nat.add_zero, BitVec.toNat_setWidth]
  exact Nat.mod_eq_of_lt (by have := x.isLt; omega)

/-- The walk goes into an array if the cut index is inside. -/
theorem walk_array
    {size : Nat} {element : Ty} {index : Value} {indices : List Value} {reached : Ty} :
    walkPointeeTyInGep (index :: indices) (.array size element) = .ok reached ↔
      (∀ n, index.exactIndex = some n → (ArrayIndex.mk size n).cut.Inside) ∧
        walkPointeeTyInGep indices element = .ok reached := by
  have read := toInt_readIndex index
  rw [walkPointeeTyInGep]
  cases isRead : index.tryConst.bind (·.tryInteger) with
  | none =>
      rw [isRead, Option.map_none, eq_comm, Option.map_eq_none_iff] at read
      simp [read]
  | some elementIndex =>
      rw [isRead, Option.map_some, eq_comm] at read
      obtain ⟨n, isIndex, same⟩ := Option.map_eq_some_iff.mp read
      have inside : ¬(elementIndex.toInt < 0 ∨ (elementIndex.signExtend 64).toNat ≥ size) ↔
          (ArrayIndex.mk size n).cut.Inside := by
        unfold ArrayIndex.cut ArrayIndex.Inside
        dsimp only
        rw [same, not_or, Int.not_lt]
        refine and_congr_right fun nonneg => ?_
        rw [toNat_signExtend_of_nonneg elementIndex nonneg]
        omega
      simp only [isIndex, Option.some.injEq, forall_eq', ← inside]
      constructor
      · intro returned
        obtain ⟨_, required, walked⟩ := Attempt.bind_eq_ok.mp returned
        exact ⟨Attempt.require_eq_ok.mp required, walked⟩
      · rintro ⟨required, walked⟩
        exact Attempt.bind_eq_ok.mpr ⟨(), Attempt.require_eq_ok.mpr required, walked⟩

/-- The walk goes into a structure if the index is a constant that names a field. -/
theorem walk_struct
    {fields : List Ty} {packed : Bool} {index : Value} {indices : List Value} {reached : Ty}
    (typed : ∀ constVal, index.tryConst = some constVal → constVal.ty = index.ty) :
    walkPointeeTyInGep (index :: indices) (.struct fields packed) = .ok reached ↔
      ∃ field fieldTy, index.tryConst = some (.i32 field) ∧ 0 ≤ field.toInt ∧
        fields[field.toInt.toNat]? = some fieldTy ∧
        walkPointeeTyInGep indices fieldTy = .ok reached := by
  rw [walkPointeeTyInGep]
  constructor
  · intro returned
    obtain ⟨_, isI32, returned⟩ := Attempt.bind_eq_ok.mp returned
    obtain ⟨constVal, isConst, returned⟩ := Attempt.bind_eq_ok.mp returned
    obtain ⟨field, isField, returned⟩ := Attempt.bind_eq_ok.mp returned
    obtain ⟨fieldTy, found, walked⟩ := Attempt.bind_eq_ok.mp returned
    have isI32 := Attempt.require_eq_ok.mp isI32
    have isConst := Attempt.orFail_eq_ok.mp isConst
    have isField := Attempt.orFail_eq_ok.mp isField
    have found := Attempt.orFail_eq_ok.mp found
    have ty := typed constVal isConst
    rw [isI32] at ty
    cases constVal with
    | i32 val =>
        obtain rfl : val = field := Option.some.inj isField
        split at found
        case isTrue => cases found
        case isFalse nonneg =>
          have nonneg : 0 ≤ val.toInt := Int.not_lt.mp nonneg
          refine ⟨val, fieldTy, isConst, nonneg, ?_, walked⟩
          rw [toNat_toInt_of_nonneg nonneg]
          exact found
    | _ => cases ty
  · rintro ⟨field, fieldTy, isConst, nonneg, found, walked⟩
    have ty : .i32 = index.ty := typed _ isConst
    rw [isConst, ← ty]
    rw [toNat_toInt_of_nonneg nonneg] at found
    apply Attempt.bind_eq_ok.mpr
    refine ⟨(), rfl, Attempt.bind_eq_ok.mpr ⟨_, rfl, Attempt.bind_eq_ok.mpr ⟨field, rfl, ?_⟩⟩⟩
    rw [if_neg (Int.not_lt.mpr nonneg), found]
    exact walked

/-- The walk returns what a descent of the right shape reaches, if every array has the
element that the low 32 bits name. -/
theorem walk_eq_ok_iff
    {indices : List IndexValue} {ty reached : Ty} :
    walkPointeeTyInGep (indices.map Subtype.val) ty = .ok reached ↔
      ∃ arrayIndices,
        shapeOfDescent (indices.map Subtype.val) ty = some (reached, arrayIndices) ∧
        ∀ arrayIndex ∈ arrayIndices, arrayIndex.cut.Inside := by
  induction indices generalizing ty with
  | nil =>
      constructor
      · intro returned
        cases returned
        exact ⟨[], rfl, by simp⟩
      · rintro ⟨arrayIndices, shaped, _⟩
        cases shaped
        rfl
  | cons index indices inductionHypothesis =>
      rw [List.map_cons]
      cases ty with
      | struct fields packed =>
          simp only [walk_struct index.property.2, shapeOfDescent_struct, inductionHypothesis]
          constructor
          · rintro ⟨field, fieldTy, isConst, nonneg, found, arrayIndices, shaped, inside⟩
            exact ⟨arrayIndices, ⟨field, fieldTy, isConst, nonneg, found, shaped⟩, inside⟩
          · rintro ⟨arrayIndices, ⟨field, fieldTy, isConst, nonneg, found, shaped⟩, inside⟩
            exact ⟨field, fieldTy, isConst, nonneg, found, arrayIndices, shaped, inside⟩
      | array size element =>
          simp only [walk_array, shapeOfDescent_array, inductionHypothesis]
          constructor
          · rintro ⟨first, later, shaped, inside⟩
            exact ⟨_, ⟨later, shaped, rfl⟩, forall_mem_arrayIndices.mpr ⟨first, inside⟩⟩
          · rintro ⟨_, ⟨later, shaped, rfl⟩, inside⟩
            obtain ⟨first, inside⟩ := forall_mem_arrayIndices.mp inside
            exact ⟨first, later, shaped, inside⟩
      | _ =>
          constructor
          · rintro ⟨⟩
          · rintro ⟨arrayIndices, shaped, _⟩
            cases shaped

/-- The walk never panics. -/
theorem walk_meets (indices : List Value) (ty : Ty) :
    (walkPointeeTyInGep indices ty).Meets (fun _ => True) fun _ => True := by
  have required {condition : Prop} [Decidable condition] (otherwise : GepError) :
      (Attempt.require condition otherwise).Meets (fun _ => True) fun _ => True := by
    unfold Attempt.require
    split <;> trivial
  have unwrapped {α : Type} (otherwise : GepError) (optional : Option α) :
      (Attempt.orFail otherwise optional).Meets (fun _ => True) fun _ => True := by
    cases optional <;> trivial
  induction indices generalizing ty with
  | nil => trivial
  | cons index indices inductionHypothesis =>
      cases ty with
      | struct fields packed =>
          rw [walkPointeeTyInGep]
          refine (required _).bind fun _ _ => (unwrapped _ _).bind fun _ _ => ?_
          refine (unwrapped _ _).bind fun _ _ => (unwrapped _ _).bind fun fieldTy _ => ?_
          exact inductionHypothesis fieldTy
      | array size element =>
          rw [walkPointeeTyInGep]
          split
          · exact (required _).bind fun _ _ => inductionHypothesis element
          · exact inductionHypothesis element
      | _ => trivial

/-- A walk that does not return reports an error. -/
theorem walk_fails_iff {indices : List Value} {ty : Ty} :
    (∃ reported, walkPointeeTyInGep indices ty = Attempt.fail reported) ↔
      ¬∃ reached, walkPointeeTyInGep indices ty = .ok reached := by
  have meets := walk_meets indices ty
  cases walked : walkPointeeTyInGep indices ty with
  | ok reached => simp [Attempt.fail]
  | error fault =>
      cases fault with
      | error reported => simp [Attempt.fail]
      | panic =>
          rw [walked] at meets
          exact meets.elim

/-- The walk is exact for indices that do not fit the shape of the type, and for those
of which all that are constant are elements of their arrays exactly if all of their low
32 bits are. -/
theorem walks_exactly_iff (ty : Ty) (indices : List IndexValue) :
    WalksExactly ty (indices.map Subtype.val) ↔
      ∀ reached arrayIndices,
        shapeOfDescent (indices.map Subtype.val) ty = some (reached, arrayIndices) →
        ((∀ arrayIndex ∈ arrayIndices, arrayIndex.Inside) ↔
          ∀ arrayIndex ∈ arrayIndices, arrayIndex.cut.Inside) := by
  constructor
  · intro exactly reached arrayIndices shaped
    have same := exactly.returns reached
    rw [walk_eq_ok_iff, descends_iff, shaped] at same
    simpa using same.symm
  · intro alike
    have returns : ∀ reached, walkPointeeTyInGep (indices.map Subtype.val) ty = .ok reached ↔
        Descends ty (indices.map Subtype.val) reached := by
      intro reached
      rw [walk_eq_ok_iff, descends_iff]
      apply exists_congr
      intro arrayIndices
      exact and_congr_right fun shaped => (alike reached arrayIndices shaped).symm
    refine ⟨returns, ?_⟩
    rw [walk_fails_iff]
    exact not_congr (exists_congr returns)

/-- An index that fits an `i32` is not changed by cutting it. -/
theorem ArrayIndex.cut_eq
    {arrayIndex : ArrayIndex}
    (low : -2 ^ 31 ≤ arrayIndex.index) (high : arrayIndex.index < 2 ^ 31) :
    arrayIndex.cut = arrayIndex := by
  have same : arrayIndex.index.bmod (2 ^ 32) = arrayIndex.index :=
    Int.bmod_eq_of_le_mul_two (by omega) (by omega)
  unfold cut
  rw [same]

/-- The walk is exact where every constant array index fits an `i32`. -/
theorem walksExactly_of_fits
    {ty : Ty} {indices : List IndexValue}
    (fits : ∀ reached arrayIndices,
      shapeOfDescent (indices.map Subtype.val) ty = some (reached, arrayIndices) →
      ∀ arrayIndex ∈ arrayIndices, -2 ^ 31 ≤ arrayIndex.index ∧ arrayIndex.index < 2 ^ 31) :
    WalksExactly ty (indices.map Subtype.val) := by
  rw [walks_exactly_iff]
  intro reached arrayIndices shaped
  apply forall₂_congr
  intro arrayIndex member
  obtain ⟨low, high⟩ := fits reached arrayIndices shaped arrayIndex member
  rw [ArrayIndex.cut_eq low high]

/-- The operand `i64 n`. -/
def i64Index (n : BitVec 64) : IndexValue :=
  ⟨Value.fromConstExpr (.const (.i64 n)), rfl, by rintro _ ⟨⟩; rfl⟩

/-- The index `2^32` into ten elements is taken for 0, and the index `3000000000` into
`2^32` elements is refused as negative. -/
theorem wide_indices_are_misjudged :
    walkPointeeTyInGep [(i64Index 4294967296).val] (.array 10 .i32) = .ok .i32 ∧
      ¬WalksExactly (.array 10 .i32) [(i64Index 4294967296).val] ∧
      walkPointeeTyInGep [(i64Index 3000000000).val] (.array 4294967296 .i8) =
        Attempt.fail (.arrayIndexOutOfRange 18446744072414584320 4294967296) ∧
      ¬WalksExactly (.array 4294967296 .i8) [(i64Index 3000000000).val] := by
  refine ⟨rfl, fun exactly => ?_, rfl, fun exactly => ?_⟩
  · have descends := (exactly.returns .i32).mp rfl
    obtain ⟨between, step, _⟩ := descends_cons.mp descends
    obtain ⟨_, inside⟩ := stepsTo_array.mp step
    exact absurd (inside 4294967296 rfl).2 (by decide)
  · have inside : StepsTo (.array 4294967296 .i8) (i64Index 3000000000).val .i8 :=
      .element fun n isIndex => by
        have isIndex : n = 3000000000 := (Option.some.inj isIndex).symm
        subst isIndex
        decide
    have walked := (exactly.returns .i8).mpr (.step inside .done)
    cases walked

end Llvm
end TraceWasm
