import TraceWasm.Foundation.Ieee
import TraceWasm.Foundation.Reading
import TraceWasm.Llvm.Types

/-!
# LLVM constants

A constant keeps its bits in a signed integer of its type's width, an `i1` in a byte.
Giving it another type folds it, which is to keep the integer that the bits denote
under the reading asked for.
-/

namespace TraceWasm
namespace Llvm

/-- How to read an integer's bits when its width changes. -/
inductive Signedness where
  | unsigned
  | signed
  | notApplicable
  deriving DecidableEq

/-- A constant. Two are equal if the variant and the bits are. -/
inductive ConstValue where
  /-- Stored as 0 or 1. -/
  | i1 (val : BitVec 8) (bit : val = 0 ∨ val = 1)
  | i8 (val : BitVec 8)
  | i16 (val : BitVec 16)
  | i32 (val : BitVec 32)
  | i64 (val : BitVec 64)
  | float (bits : BitVec 32)
  | double (bits : BitVec 64)
  | nullPtr
  deriving DecidableEq

/-- A literal that is usable as a constant. -/
inductive Literal where
  | bool (self : Bool)
  | i8 (self : BitVec 8)
  | i16 (self : BitVec 16)
  | i32 (self : BitVec 32)
  | i64 (self : BitVec 64)
  | f32 (bits : BitVec 32)
  | f64 (bits : BitVec 64)
  | nullPtr

/-- The byte of a truth value. -/
def boolConst : Bool → ConstValue
  | true => .i1 1 (.inr rfl)
  | false => .i1 0 (.inl rfl)

/-! ## Folding a literal -/

/-- A `bool` is an `i1` and nothing else. -/
def boolTryCast (self : Bool) (ty : Ty) : Option ConstValue :=
  if ty = .i1 then some (boolConst self) else none

/-- An `i8` widens to every larger type, by its sign or with zeros. -/
def i8TryCast (self : BitVec 8) (ty : Ty) : Signedness → Option ConstValue
  | .signed =>
      match ty with
      | .i8 => some (.i8 self)
      | .i16 => some (.i16 (self.signExtend 16))
      | .i32 => some (.i32 (self.signExtend 32))
      | .i64 => some (.i64 (self.signExtend 64))
      | _ => none
  | .unsigned =>
      match ty with
      | .i8 => some (.i8 self)
      | .i16 => some (.i16 (self.setWidth 16))
      | .i32 => some (.i32 (self.setWidth 32))
      | .i64 => some (.i64 (self.setWidth 64))
      | _ => none
  | .notApplicable => none

/-- An `i16` also narrows to an `i8`, if the value fits. -/
def i16TryCast (self : BitVec 16) (ty : Ty) : Signedness → Option ConstValue
  | .signed =>
      match ty with
      | .i8 =>
          if self.toInt > 127 ∨ self.toInt < -128 then none
          else some (.i8 (self.setWidth 8))
      | .i16 => some (.i16 self)
      | .i32 => some (.i32 (self.signExtend 32))
      | .i64 => some (.i64 (self.signExtend 64))
      | _ => none
  | .unsigned =>
      match ty with
      | .i8 => if self.toNat > 255 then none else some (.i8 (self.setWidth 8))
      | .i16 => some (.i16 self)
      | .i32 => some (.i32 (self.setWidth 32))
      | .i64 => some (.i64 (self.setWidth 64))
      | _ => none
  | .notApplicable => none

/-- An `i32` also narrows to the two smaller types, if the value fits. -/
def i32TryCast (self : BitVec 32) (ty : Ty) : Signedness → Option ConstValue
  | .signed =>
      match ty with
      | .i8 =>
          if self.toInt > 127 ∨ self.toInt < -128 then none
          else some (.i8 (self.setWidth 8))
      | .i16 =>
          if self.toInt > 32767 ∨ self.toInt < -32768 then none
          else some (.i16 (self.setWidth 16))
      | .i32 => some (.i32 self)
      | .i64 => some (.i64 (self.signExtend 64))
      | _ => none
  | .unsigned =>
      match ty with
      | .i8 => if self.toNat > 255 then none else some (.i8 (self.setWidth 8))
      | .i16 => if self.toNat > 65535 then none else some (.i16 (self.setWidth 16))
      | .i32 => some (.i32 self)
      | .i64 => some (.i64 (self.setWidth 64))
      | _ => none
  | .notApplicable => none

/-- An `i64` narrows to every smaller type, if the value fits. -/
def i64TryCast (self : BitVec 64) (ty : Ty) : Signedness → Option ConstValue
  | .signed =>
      match ty with
      | .i8 =>
          if self.toInt > 127 ∨ self.toInt < -128 then none
          else some (.i8 (self.setWidth 8))
      | .i16 =>
          if self.toInt > 32767 ∨ self.toInt < -32768 then none
          else some (.i16 (self.setWidth 16))
      | .i32 =>
          if self.toInt > 2147483647 ∨ self.toInt < -2147483648 then none
          else some (.i32 (self.setWidth 32))
      | .i64 => some (.i64 self)
      | _ => none
  | .unsigned =>
      match ty with
      | .i8 => if self.toNat > 255 then none else some (.i8 (self.setWidth 8))
      | .i16 => if self.toNat > 65535 then none else some (.i16 (self.setWidth 16))
      | .i32 => if self.toNat > 4294967295 then none else some (.i32 (self.setWidth 32))
      | .i64 => some (.i64 self)
      | _ => none
  | .notApplicable => none

/-- A `float` always widens. -/
def f32TryCast (self : BitVec 32) : Ty → Option ConstValue
  | .float => some (.float self)
  | .double => some (.double (Ieee.widen self))
  | _ => none

/-- A `double` narrows if nothing is lost. -/
def f64TryCast (self : BitVec 64) : Ty → Option ConstValue
  | .float =>
      -- what narrowing loses shows in the way back; a NaN is never equal to itself
      if !Ieee.isNan self ∧ !Ieee.equal (Ieee.widen (Ieee.narrow self)) self then
        none
      else some (.float (Ieee.narrow self))
  | .double => some (.double self)
  | _ => none

/-- The null pointer is a pointer and nothing else. -/
def nullPtrTryCast (ty : Ty) : Option ConstValue :=
  if ty = .ptr then some .nullPtr else none

namespace Literal

/-- The constant at the literal's own type. -/
def intoConst : Literal → ConstValue
  | .bool self => boolConst self
  | .i8 self => .i8 self
  | .i16 self => .i16 self
  | .i32 self => .i32 self
  | .i64 self => .i64 self
  | .f32 bits => .float bits
  | .f64 bits => .double bits
  | .nullPtr => .nullPtr

/-- The constant of the type that a literal stands for. -/
def tryCast (ty : Ty) (signedness : Signedness) : Literal → Option ConstValue
  | .bool self => boolTryCast self ty
  | .i8 self => i8TryCast self ty signedness
  | .i16 self => i16TryCast self ty signedness
  | .i32 self => i32TryCast self ty signedness
  | .i64 self => i64TryCast self ty signedness
  | .f32 bits => f32TryCast bits ty
  | .f64 bits => f64TryCast bits ty
  | .nullPtr => nullPtrTryCast ty

end Literal

/-! ## Folding a stored constant -/

namespace ConstValue

/-- The type of a constant. -/
def ty : ConstValue → Ty
  | .i1 _ _ => .i1
  | .i8 _ => .i8
  | .i16 _ => .i16
  | .i32 _ => .i32
  | .i64 _ => .i64
  | .float _ => .float
  | .double _ => .double
  | .nullPtr => .ptr

/-- The value as an `i32`. An `i64` is truncated. -/
def tryInteger : ConstValue → Option (BitVec 32)
  | .i1 val _ => some (val.signExtend 32)
  | .i8 val => some (val.signExtend 32)
  | .i16 val => some (val.signExtend 32)
  | .i32 val => some val
  | .i64 val => some (val.setWidth 32)
  | _ => none

/-- An `i1` is folded as the byte that it is stored in. -/
def tryCast (ty : Ty) (signedness : Signedness) : ConstValue → Option ConstValue
  | .i1 val _ => i8TryCast val ty signedness
  | .i8 val => i8TryCast val ty signedness
  | .i16 val => i16TryCast val ty signedness
  | .i32 val => i32TryCast val ty signedness
  | .i64 val => i64TryCast val ty signedness
  | .float bits => f32TryCast bits ty
  | .double bits => f64TryCast bits ty
  | .nullPtr => if ty = .ptr then some .nullPtr else none

end ConstValue

/-! ## Integer constants -/

/-- The integer types. -/
inductive IntTy where
  | i1 | i8 | i16 | i32 | i64
  deriving DecidableEq

namespace IntTy

/-- The type that the integer type is. -/
def toTy : IntTy → Ty
  | .i1 => .i1
  | .i8 => .i8
  | .i16 => .i16
  | .i32 => .i32
  | .i64 => .i64

/-- The bits of a value of the type. -/
def width : IntTy → Nat
  | .i1 => 1
  | .i8 => 8
  | .i16 => 16
  | .i32 => 32
  | .i64 => 64

/-- The constant of the type with the given bits. -/
def const : (ty : IntTy) → BitVec ty.width → ConstValue
  | .i1, bits => boolConst (bits = 1)
  | .i8, bits => .i8 bits
  | .i16, bits => .i16 bits
  | .i32, bits => .i32 bits
  | .i64, bits => .i64 bits

/-- Every constant of an integer type is the constant of its bits. -/
theorem exists_const
    {c : ConstValue}
    (integer : c.ty.isInteger) :
    ∃ (ty : IntTy) (bits : BitVec ty.width), c.ty = ty.toTy ∧ c = ty.const bits := by
  cases c with
  | i1 val bit =>
      rcases bit with rfl | rfl
      · exact ⟨.i1, 0, rfl, rfl⟩
      · exact ⟨.i1, 1, rfl, rfl⟩
  | i8 val => exact ⟨.i8, val, rfl, rfl⟩
  | i16 val => exact ⟨.i16, val, rfl, rfl⟩
  | i32 val => exact ⟨.i32, val, rfl, rfl⟩
  | i64 val => exact ⟨.i64, val, rfl, rfl⟩
  | _ => cases integer

end IntTy

/-! ## What folding keeps -/

/-- The flag that asks for a reading. -/
def signednessOf : Reading → Signedness
  | .unsigned => .unsigned
  | .signed => .signed

/-- The range check of a signed narrowing cast is exact. -/
theorem narrow_signed
    {target : BitVec v → ConstValue} {low high : Int}
    (x : BitVec w) (narrow : v ≤ w) (positive : 0 < v)
    (lowest : low = -2 ^ (v - 1)) (highest : high = 2 ^ (v - 1) - 1) :
    (if x.toInt > high ∨ x.toInt < low then none else some (target (x.setWidth v))) =
      (Reading.signed.encode v (Reading.signed.read x)).map target := by
  by_cases represents : Reading.signed.Represents v x.toInt
  · have range := (Reading.represents_signed positive).mp represents
    rw [Reading.encode_signed_of_le x narrow represents, if_neg (by omega)]
    rfl
  · have range := mt (Reading.represents_signed positive).mpr represents
    rw [Reading.read_signed, Reading.encode_eq_none.mpr represents, if_pos (by omega)]
    rfl

/-- So is that of an unsigned one. -/
theorem narrow_unsigned
    {target : BitVec v → ConstValue} {high : Nat}
    (x : BitVec w) (highest : high + 1 = 2 ^ v) :
    (if x.toNat > high then none else some (target (x.setWidth v))) =
      (Reading.unsigned.encode v (Reading.unsigned.read x)).map target := by
  by_cases represents : Reading.unsigned.Represents v x.toNat
  · have range := Reading.represents_unsigned.mp represents
    rw [Reading.encode_unsigned_of_le x represents, if_neg (by omega)]
    rfl
  · have range := mt Reading.represents_unsigned.mpr represents
    rw [Reading.read_unsigned, Reading.encode_eq_none.mpr represents, if_pos (by omega)]
    rfl

/-- Extending by the sign keeps the signed number. -/
theorem widen_signed
    {target : BitVec v → ConstValue} (x : BitVec w) (wide : w ≤ v) :
    some (target (x.signExtend v)) =
      (Reading.signed.encode v (Reading.signed.read x)).map target := by
  rw [Reading.encode_signExtend x wide]
  rfl

/-- Extending with zeros keeps the unsigned number. -/
theorem widen_unsigned
    {target : BitVec v → ConstValue} (x : BitVec w) (wide : w ≤ v) :
    some (target (x.setWidth v)) =
      (Reading.unsigned.encode v (Reading.unsigned.read x)).map target := by
  rw [Reading.encode_setWidth x wide]
  rfl

/-- Bits encode the number that they are read as. -/
theorem keep
    {target : BitVec w → ConstValue} (reading : Reading) (x : BitVec w) :
    some (target x) = (reading.encode w (reading.read x)).map target := by
  rw [reading.encode_read]
  rfl

/-- The constant of the type that denotes the integer under the reading. -/
def IntTy.denoting (target : IntTy) (reading : Reading) (n : Int) : Option ConstValue :=
  (reading.encode target.width n).map target.const

/-- The constant that denotes a number is one whose bits are read as it. -/
theorem denoting_eq_some
    {target : IntTy} {reading : Reading} :
    target.denoting reading n = some result ↔
      ∃ y, result = target.const y ∧ reading.read y = n := by
  unfold IntTy.denoting
  rw [Option.map_eq_some_iff]
  apply exists_congr
  intro y
  rw [Reading.encode_eq_some, and_comm, eq_comm]

/-- The number that bits are read as is denoted by them. -/
theorem denoting_read
    {target : IntTy} (reading : Reading) (y : BitVec target.width) :
    target.denoting reading (reading.read y) = some (target.const y) :=
  denoting_eq_some.mpr ⟨y, rfl, rfl⟩

/-- A wider type has every integer of a narrower one. -/
theorem represents_of_le
    {reading : Reading} (x : BitVec w) (wide : w ≤ v) :
    reading.Represents v (reading.read x) := by
  apply Reading.represents_iff.mpr
  cases reading with
  | unsigned => exact ⟨_, Reading.encode_setWidth x wide⟩
  | signed => exact ⟨_, Reading.encode_signExtend x wide⟩

/-- An `i8` is cast to the constant of its number, if the type has one. -/
theorem i8TryCast_eq
    {target : IntTy} (x : BitVec 8) (reading : Reading) (wide : target ≠ .i1) :
    i8TryCast x target.toTy (signednessOf reading) =
      target.denoting reading (reading.read x) := by
  cases reading with
  | unsigned =>
      cases target with
      | i1 => exact (wide rfl).elim
      | i8 => exact keep .unsigned x
      | i16 => exact widen_unsigned x (by decide)
      | i32 => exact widen_unsigned x (by decide)
      | i64 => exact widen_unsigned x (by decide)
  | signed =>
      cases target with
      | i1 => exact (wide rfl).elim
      | i8 => exact keep .signed x
      | i16 => exact widen_signed x (by decide)
      | i32 => exact widen_signed x (by decide)
      | i64 => exact widen_signed x (by decide)

/-- So is an `i16`. -/
theorem i16TryCast_eq
    {target : IntTy} (x : BitVec 16) (reading : Reading) (wide : target ≠ .i1) :
    i16TryCast x target.toTy (signednessOf reading) =
      target.denoting reading (reading.read x) := by
  cases reading with
  | unsigned =>
      cases target with
      | i1 => exact (wide rfl).elim
      | i8 => exact narrow_unsigned x rfl
      | i16 => exact keep .unsigned x
      | i32 => exact widen_unsigned x (by decide)
      | i64 => exact widen_unsigned x (by decide)
  | signed =>
      cases target with
      | i1 => exact (wide rfl).elim
      | i8 => exact narrow_signed x (by decide) (by decide) rfl rfl
      | i16 => exact keep .signed x
      | i32 => exact widen_signed x (by decide)
      | i64 => exact widen_signed x (by decide)

/-- So is an `i32`. -/
theorem i32TryCast_eq
    {target : IntTy} (x : BitVec 32) (reading : Reading) (wide : target ≠ .i1) :
    i32TryCast x target.toTy (signednessOf reading) =
      target.denoting reading (reading.read x) := by
  cases reading with
  | unsigned =>
      cases target with
      | i1 => exact (wide rfl).elim
      | i8 => exact narrow_unsigned x rfl
      | i16 => exact narrow_unsigned x rfl
      | i32 => exact keep .unsigned x
      | i64 => exact widen_unsigned x (by decide)
  | signed =>
      cases target with
      | i1 => exact (wide rfl).elim
      | i8 => exact narrow_signed x (by decide) (by decide) rfl rfl
      | i16 => exact narrow_signed x (by decide) (by decide) rfl rfl
      | i32 => exact keep .signed x
      | i64 => exact widen_signed x (by decide)

/-- So is an `i64`. -/
theorem i64TryCast_eq
    {target : IntTy} (x : BitVec 64) (reading : Reading) (wide : target ≠ .i1) :
    i64TryCast x target.toTy (signednessOf reading) =
      target.denoting reading (reading.read x) := by
  cases reading with
  | unsigned =>
      cases target with
      | i1 => exact (wide rfl).elim
      | i8 => exact narrow_unsigned x rfl
      | i16 => exact narrow_unsigned x rfl
      | i32 => exact narrow_unsigned x rfl
      | i64 => exact keep .unsigned x
  | signed =>
      cases target with
      | i1 => exact (wide rfl).elim
      | i8 => exact narrow_signed x (by decide) (by decide) rfl rfl
      | i16 => exact narrow_signed x (by decide) (by decide) rfl rfl
      | i32 => exact narrow_signed x (by decide) (by decide) rfl rfl
      | i64 => exact keep .signed x

/-- Between the types wider than `i1` folding keeps the integer. -/
theorem tryCast_const
    {source target : IntTy} (x : BitVec source.width) (reading : Reading)
    (sourceWide : source ≠ .i1) (targetWide : target ≠ .i1) :
    (source.const x).tryCast target.toTy (signednessOf reading) =
      target.denoting reading (reading.read x) := by
  cases source with
  | i1 => exact (sourceWide rfl).elim
  | i8 => exact i8TryCast_eq x reading targetWide
  | i16 => exact i16TryCast_eq x reading targetWide
  | i32 => exact i32TryCast_eq x reading targetWide
  | i64 => exact i64TryCast_eq x reading targetWide

/-- No integer constant folds into `i1`. -/
theorem tryCast_i1
    {source : IntTy} (x : BitVec source.width) (reading : Reading) :
    (source.const x).tryCast .i1 (signednessOf reading) = none := by
  cases source with
  | i1 =>
      change (boolConst (x = 1)).tryCast .i1 _ = none
      cases decide (x = 1) <;> cases reading <;> rfl
  | _ => cases reading <;> rfl

/-- Folding a constant of `source` with the bits `x` into `target` is exact. -/
structure CastsExactly
    (source target : IntTy) (x : BitVec source.width) (reading : Reading) : Prop where
  /-- There is a result if the integer is representable in the target. -/
  representable :
    (∃ result, (source.const x).tryCast target.toTy (signednessOf reading) = some result) ↔
      reading.Represents target.width (reading.read x)
  /-- The result denotes the same integer. -/
  denotes : ∀ result,
    (source.const x).tryCast target.toTy (signednessOf reading) = some result →
      ∃ y, result = target.const y ∧ reading.read y = reading.read x
  /-- A cast to the constant's own type is the identity. -/
  identity : target = source →
    (source.const x).tryCast target.toTy (signednessOf reading) = some (source.const x)
  /-- A wider type is left again for the same constant. -/
  roundTrip : source.width ≤ target.width →
    ((source.const x).tryCast target.toTy (signednessOf reading)).bind
      (ConstValue.tryCast source.toTy (signednessOf reading)) = some (source.const x)
  /-- A type passed through makes no difference. -/
  through : ∀ (between : IntTy) passed,
    (source.const x).tryCast between.toTy (signednessOf reading) = some passed →
      passed.tryCast target.toTy (signednessOf reading) =
        (source.const x).tryCast target.toTy (signednessOf reading)
  /-- The literal that the constant was made from folds as the constant does. -/
  literal : ∀ self : Literal, self.intoConst = source.const x →
    self.tryCast target.toTy (signednessOf reading) =
      (source.const x).tryCast target.toTy (signednessOf reading)

/-- The literal that made a constant is cast like the constant. -/
theorem exists_literal_eq
    {source : IntTy} {x : BitVec source.width} {self : Literal}
    (sourceWide : source ≠ .i1)
    (made : self.intoConst = source.const x) :
    ∀ ty signedness, self.tryCast ty signedness = (source.const x).tryCast ty signedness := by
  intro ty signedness
  rw [← made]
  cases self with
  | bool self =>
      cases source with
      | i1 => exact (sourceWide rfl).elim
      | _ => cases self <;> cases made
  | _ => rfl

/-- An `i1` does not fold as the literal it was made from. -/
theorem literal_i1
    (bit : Bool) (target : IntTy) (reading : Reading) :
    (Literal.bool bit).tryCast target.toTy (signednessOf reading) ≠
      (boolConst bit).tryCast target.toTy (signednessOf reading) := by
  cases bit <;> cases target <;> cases reading <;> exact nofun

/-- A wide constant beyond an `i1` is rightly refused as one. -/
theorem castsExactly_i1
    {source : IntTy} {x : BitVec source.width} {reading : Reading}
    (sourceWide : source ≠ .i1)
    (beyond : ¬reading.Represents 1 (reading.read x)) :
    CastsExactly source .i1 x reading where
  representable := by
    rw [show IntTy.i1.toTy = .i1 from rfl, tryCast_i1]
    exact ⟨nofun, fun represents => (beyond represents).elim⟩
  denotes := by
    rw [show IntTy.i1.toTy = .i1 from rfl, tryCast_i1]
    exact nofun
  identity := fun same => (sourceWide same.symm).elim
  roundTrip := by
    intro wide
    exact (beyond (represents_of_le x wide)).elim
  through := by
    intro between passed folded
    rw [show IntTy.i1.toTy = .i1 from rfl, tryCast_i1]
    by_cases betweenWide : between = .i1
    · rw [betweenWide, show IntTy.i1.toTy = .i1 from rfl, tryCast_i1] at folded
      cases folded
    · rw [tryCast_const x reading sourceWide betweenWide] at folded
      obtain ⟨y, rfl, _⟩ := denoting_eq_some.mp folded
      exact tryCast_i1 y reading
  literal := fun _ made => exists_literal_eq sourceWide made _ _

/-- Between types wider than `i1` every cast is exact. -/
theorem castsExactly_of_wide
    {source target : IntTy} (x : BitVec source.width) (reading : Reading)
    (sourceWide : source ≠ .i1) (targetWide : target ≠ .i1) :
    CastsExactly source target x reading where
  representable := by
    rw [tryCast_const x reading sourceWide targetWide]
    unfold IntTy.denoting
    rw [Reading.represents_iff, ← Option.isSome_iff_exists, ← Option.isSome_iff_exists,
      Option.isSome_map]
  denotes := by
    intro result folded
    rw [tryCast_const x reading sourceWide targetWide] at folded
    exact denoting_eq_some.mp folded
  identity := by
    rintro rfl
    rw [tryCast_const x reading sourceWide targetWide, denoting_read]
  roundTrip := by
    intro wide
    have represents : reading.Represents target.width (reading.read x) :=
      represents_of_le x wide
    obtain ⟨y, same⟩ := represents
    rw [tryCast_const x reading sourceWide targetWide, ← same, denoting_read,
      Option.bind_some, tryCast_const y reading targetWide sourceWide, same, denoting_read]
  through := by
    intro between passed folded
    by_cases betweenWide : between = .i1
    · rw [betweenWide, show IntTy.i1.toTy = .i1 from rfl, tryCast_i1] at folded
      cases folded
    · rw [tryCast_const x reading sourceWide betweenWide] at folded
      obtain ⟨y, rfl, same⟩ := denoting_eq_some.mp folded
      rw [tryCast_const y reading betweenWide targetWide, same,
        tryCast_const x reading sourceWide targetWide]
  literal := fun _ made => exists_literal_eq sourceWide made _ _

/-- Folding is exact for the constants wider than `i1`, and into `i1` where the
integer is none of its two. -/
theorem casts_exactly_iff
    (source target : IntTy) (x : BitVec source.width) (reading : Reading) :
    CastsExactly source target x reading ↔
      source ≠ .i1 ∧ (target = .i1 → ¬reading.Represents 1 (reading.read x)) := by
  constructor
  · intro exact
    constructor
    · rintro rfl
      exact literal_i1 _ target reading (exact.literal (.bool (decide (x = 1))) rfl)
    · rintro rfl represents
      obtain ⟨result, folded⟩ := exact.representable.mpr represents
      rw [show IntTy.i1.toTy = .i1 from rfl, tryCast_i1] at folded
      cases folded
  · rintro ⟨sourceWide, beyond⟩
    by_cases targetWide : target = .i1
    · rw [targetWide]
      exact castsExactly_i1 sourceWide (beyond targetWide)
    · exact castsExactly_of_wide x reading sourceWide targetWide

/-- The constant `i1 true` does not fold into its own type. -/
theorem true_does_not_fold :
    (IntTy.const .i1 1).tryCast .i1 .signed = none ∧
      ¬CastsExactly .i1 .i1 1 .signed := by
  refine ⟨rfl, fun exact => ?_⟩
  cases exact.identity rfl

end Llvm
end TraceWasm
