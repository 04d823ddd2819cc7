import Mathlib.Data.BitVec

/-!
# Readings of a word

A word is read as an unsigned or as a two's-complement integer. Under one reading a
word of one width is a word of another exactly when that width has a word for the
integer it is read as.
-/

namespace TraceWasm

/-- How bits are read as a number. -/
inductive Reading where
  | unsigned
  | signed
  deriving DecidableEq

namespace Reading

/-- The integer that a word is read as. -/
def read : Reading → BitVec w → Int
  | .unsigned, x => x.toNat
  | .signed, x => x.toInt

@[simp] theorem read_unsigned (x : BitVec w) : unsigned.read x = x.toNat := rfl

@[simp] theorem read_signed (x : BitVec w) : signed.read x = x.toInt := rfl

/-- Some word of the width is read as the integer. -/
def Represents (reading : Reading) (w : Nat) (n : Int) : Prop :=
  ∃ x : BitVec w, reading.read x = n

/-- The word of the width that is read as the integer. -/
def encode (reading : Reading) (w : Nat) (n : Int) : Option (BitVec w) :=
  if reading.read (BitVec.ofInt w n) = n then some (BitVec.ofInt w n) else none

/-- Bits are known by the number they are read as. -/
theorem ofInt_read (reading : Reading) (x : BitVec w) :
    BitVec.ofInt w (reading.read x) = x := by
  cases reading with
  | unsigned => simp [read]
  | signed => exact BitVec.ofInt_toInt

/-- A number is encoded by the bits that are read as it. -/
theorem encode_eq_some
    {reading : Reading} {x : BitVec w} :
    reading.encode w n = some x ↔ reading.read x = n := by
  unfold encode
  constructor
  · intro encoded
    split at encoded
    · next same =>
        cases encoded
        exact same
    · cases encoded
  · rintro rfl
    rw [reading.ofInt_read, if_pos rfl]

/-- The number that bits are read as is encoded by them. -/
theorem encode_read (reading : Reading) (x : BitVec w) :
    reading.encode w (reading.read x) = some x := encode_eq_some.mpr rfl

/-- A number is representable if it is encoded. -/
theorem represents_iff
    {reading : Reading} :
    reading.Represents w n ↔ ∃ x, reading.encode w n = some x :=
  exists_congr fun _ => encode_eq_some.symm

theorem encode_eq_none
    {reading : Reading} :
    reading.encode w n = none ↔ ¬reading.Represents w n := by
  rw [represents_iff, ← Option.isSome_iff_exists, Option.not_isSome_iff_eq_none]

instance (reading : Reading) (w : Nat) (n : Int) : Decidable (reading.Represents w n) :=
  decidable_of_iff ((reading.encode w n).isSome) (by
    rw [represents_iff, Option.isSome_iff_exists])

/-! ## Changing the width -/

/-- Sign extension keeps the signed reading. -/
theorem encode_signExtend (x : BitVec w) (wide : w ≤ v) :
    signed.encode v (signed.read x) = some (x.signExtend v) :=
  encode_eq_some.mpr (BitVec.toInt_signExtend_of_le wide)

/-- Zero extension keeps the unsigned reading. -/
theorem encode_setWidth (x : BitVec w) (wide : w ≤ v) :
    unsigned.encode v (unsigned.read x) = some (x.setWidth v) := by
  apply encode_eq_some.mpr
  rw [read_unsigned, read_unsigned, BitVec.toNat_setWidth_of_le wide]

/-- The range of signed numbers. -/
theorem represents_signed
    {n : Int} (positive : 0 < v) :
    signed.Represents v n ↔ -2 ^ (v - 1) ≤ n ∧ n < 2 ^ (v - 1) := by
  constructor
  · rintro ⟨x, rfl⟩
    exact ⟨x.le_toInt, x.toInt_lt⟩
  · intro ⟨low, high⟩
    exact ⟨BitVec.ofInt v n, BitVec.toInt_ofInt_eq_self positive low high⟩

/-- The range of unsigned numbers. -/
theorem represents_unsigned
    {n : Nat} :
    unsigned.Represents v n ↔ n < 2 ^ v := by
  constructor
  · rintro ⟨x, same⟩
    rw [read_unsigned, Nat.cast_inj] at same
    rw [← same]
    exact x.isLt
  · intro inside
    refine ⟨BitVec.ofNat v n, ?_⟩
    rw [read_unsigned, BitVec.toNat_ofNat, Nat.mod_eq_of_lt inside]

/-- Dropping the high bits keeps the signed reading of a word in the range. -/
theorem encode_signed_of_le
    (x : BitVec w) (narrow : v ≤ w)
    (represents : signed.Represents v x.toInt) :
    signed.encode v (signed.read x) = some (x.setWidth v) := by
  obtain ⟨y, encoded⟩ := represents_iff.mp represents
  have same := encode_eq_some.mp encoded
  rw [read_signed] at same
  rw [read_signed, encoded, ← BitVec.signExtend_eq_setWidth_of_le x narrow, BitVec.signExtend,
    ← same,
    BitVec.ofInt_toInt]

/-- An unsigned number that fits is encoded by its lower bits. -/
theorem encode_unsigned_of_le
    (x : BitVec w)
    (represents : unsigned.Represents v x.toNat) :
    unsigned.encode v (unsigned.read x) = some (x.setWidth v) := by
  apply encode_eq_some.mpr
  rw [read_unsigned, read_unsigned, BitVec.toNat_setWidth,
    Nat.mod_eq_of_lt (represents_unsigned.mp represents)]

end Reading
end TraceWasm
