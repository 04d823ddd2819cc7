import Mathlib.Data.BitVec
import Mathlib.Data.Nat.Log
import Mathlib.Tactic.Common
import Mathlib.Tactic.Ring

/-!
# The two binary float formats

A number is a sign and a magnitude, the bits below the sign: an exponent field and the
fraction behind it. Widening keeps the number. Narrowing takes the nearest number of the
smaller format, one of two that are equally near with an even last bit.
-/

namespace TraceWasm
namespace Ieee

/-- Divide by a power of two and round to the nearest integer, a half to the even one. -/
def roundEven (m shift : Nat) : Nat :=
  let quotient := m / 2 ^ shift
  let twice := 2 * (m % 2 ^ shift)
  if twice > 2 ^ shift ∨ twice = 2 ^ shift ∧ quotient % 2 = 1 then quotient + 1
  else quotient

/-- The magnitude of infinity in the smaller format. Those above it are no numbers. -/
def infinity32 : Nat := 255 * 2 ^ 23

/-- The same in the larger format. -/
def infinity64 : Nat := 2047 * 2 ^ 52

/-- The bit of a fraction that makes what is no number a quiet one. -/
def quiet32 : Nat := 2 ^ 22

/-- The bit that makes a NaN of 64 bits quiet. -/
def quiet64 : Nat := 2 ^ 51

/-! ## Magnitudes -/

/-- The magnitude of the same number in the larger format. What is no number stays none
and becomes quiet. -/
def widenMagnitude (magnitude : Nat) : Nat :=
  let exponent := magnitude / 2 ^ 23
  let fraction := magnitude % 2 ^ 23
  if exponent = 255 then
    infinity64 + if fraction = 0 then 0 else fraction * 2 ^ 29 ||| quiet64
  else if exponent ≠ 0 then (exponent + 896) * 2 ^ 52 + fraction * 2 ^ 29
  else if fraction = 0 then 0
  else
    -- a number below the smaller format's normal ones is a normal one of the larger
    let top := Nat.log 2 fraction
    (top + 874) * 2 ^ 52 + (fraction - 2 ^ top) * 2 ^ (52 - top)

/-- The magnitude of the nearest number of the smaller format. -/
def narrowMagnitude (magnitude : Nat) : Nat :=
  let exponent := magnitude / 2 ^ 52
  let fraction := magnitude % 2 ^ 52
  if exponent = 2047 then
    infinity32 + if fraction = 0 then 0 else fraction / 2 ^ 29 ||| quiet32
  else
    let significand := if exponent = 0 then fraction else 2 ^ 52 + fraction
    -- below the normal numbers the unit of the last place stays the same
    let shift := max (926 - max exponent 1) 29
    -- a carry out of the fraction goes to the exponent, and from the largest to infinity
    min infinity32 ((exponent - 897) * 2 ^ 23 + roundEven significand shift)

/-! ## Bits -/

/-- `f32` as `f64`. -/
def widen (bits : BitVec 32) : BitVec 64 :=
  BitVec.ofNat 64 (bits.toNat / 2 ^ 31 * 2 ^ 63 + widenMagnitude (bits.toNat % 2 ^ 31))

/-- `f64` as `f32`. -/
def narrow (bits : BitVec 64) : BitVec 32 :=
  BitVec.ofNat 32 (bits.toNat / 2 ^ 63 * 2 ^ 31 + narrowMagnitude (bits.toNat % 2 ^ 63))

/-- `f64::is_nan`. -/
def isNan (bits : BitVec 64) : Bool := bits.toNat % 2 ^ 63 > infinity64

/-- `==` of two `f64`, by which both zeros are one number. -/
def equal (a b : BitVec 64) : Bool :=
  !isNan a && !isNan b &&
    (a == b || (a.toNat % 2 ^ 63 == 0 && b.toNat % 2 ^ 63 == 0))

/-! ## Widening loses nothing -/

/-- A multiple of the unit is not rounded. -/
theorem roundEven_mul (n shift : Nat) : roundEven (n * 2 ^ shift) shift = n := by
  have positive : 0 < 2 ^ shift := Nat.two_pow_pos shift
  unfold roundEven
  rw [Nat.mul_div_cancel _ positive, Nat.mul_mod_left]
  exact if_neg (by omega)

/-- A magnitude of the larger format by its fields. -/
theorem fields_eq
    {exponent fraction : Nat}
    (fits : fraction < 2 ^ 52) :
    (exponent * 2 ^ 52 + fraction) / 2 ^ 52 = exponent ∧
      (exponent * 2 ^ 52 + fraction) % 2 ^ 52 = fraction := by
  omega

/-- A normal number of 64 bits that is one of 32 bits narrows to it. -/
theorem narrowMagnitude_fields
    {exponent fraction : Nat}
    (finite : exponent < 2047) (positive : 0 < exponent) (fits : fraction < 2 ^ 52) :
    narrowMagnitude (exponent * 2 ^ 52 + fraction) =
      min infinity32 ((exponent - 897) * 2 ^ 23 +
        roundEven (2 ^ 52 + fraction) (max (926 - exponent) 29)) := by
  obtain ⟨isExponent, isFraction⟩ := @fields_eq exponent fraction fits
  unfold narrowMagnitude
  rw [isExponent, isFraction]
  dsimp only
  rw [if_neg (by omega), if_neg (by omega), Nat.max_eq_left positive]

/-- A normal number. -/
theorem narrow_widen_normal
    {exponent fraction : Nat}
    (normal : 0 < exponent) (finite : exponent < 255) (fits : fraction < 2 ^ 23) :
    narrowMagnitude ((exponent + 896) * 2 ^ 52 + fraction * 2 ^ 29) =
      exponent * 2 ^ 23 + fraction := by
  have significand : 2 ^ 52 + fraction * 2 ^ 29 = (2 ^ 23 + fraction) * 2 ^ 29 := by ring
  rw [narrowMagnitude_fields (by omega) (by omega) (by omega), significand,
    Nat.max_eq_right (by omega), roundEven_mul]
  unfold infinity32
  omega

/-- The fraction of a subnormal number, moved up, fits the longer format. -/
theorem subnormal_fraction_lt
    {fraction top : Nat}
    (upper : fraction < 2 ^ (top + 1)) (small : top ≤ 52) :
    (fraction - 2 ^ top) * 2 ^ (52 - top) < 2 ^ 52 := by
  have whole : 2 ^ 52 = 2 ^ top * 2 ^ (52 - top) := by
    rw [← Nat.pow_add, Nat.add_sub_cancel' small]
  rw [whole]
  apply Nat.mul_lt_mul_of_pos_right _ (Nat.two_pow_pos _)
  have positive : 0 < 2 ^ top := Nat.two_pow_pos top
  rw [Nat.pow_succ] at upper
  omega

/-- A number below the normal ones. -/
theorem narrow_widen_subnormal
    {fraction : Nat}
    (some : fraction ≠ 0) (fits : fraction < 2 ^ 23) :
    narrowMagnitude ((Nat.log 2 fraction + 874) * 2 ^ 52 +
      (fraction - 2 ^ Nat.log 2 fraction) * 2 ^ (52 - Nat.log 2 fraction)) = fraction := by
  have lower : 2 ^ Nat.log 2 fraction ≤ fraction := Nat.pow_log_le_self 2 some
  have upper : fraction < 2 ^ (Nat.log 2 fraction + 1) :=
    Nat.lt_pow_succ_log_self Nat.one_lt_two fraction
  have small : Nat.log 2 fraction < 23 := Nat.log_lt_of_lt_pow some fits
  generalize Nat.log 2 fraction = top at lower upper small
  have whole : 2 ^ 52 = 2 ^ top * 2 ^ (52 - top) := by
    rw [← Nat.pow_add, Nat.add_sub_cancel' (by omega)]
  have significand : 2 ^ 52 + (fraction - 2 ^ top) * 2 ^ (52 - top) =
      fraction * 2 ^ (52 - top) := by
    rw [whole, ← Nat.add_mul, Nat.add_sub_cancel' lower]
  have inside := subnormal_fraction_lt upper (by omega)
  rw [narrowMagnitude_fields (by omega) (by omega) inside, significand,
    show max (926 - (top + 874)) 29 = 52 - top by omega, roundEven_mul]
  unfold infinity32
  omega

theorem narrowMagnitude_zero : narrowMagnitude 0 = 0 := by
  have none (shift : Nat) : roundEven 0 shift = 0 := by
    have rounded := roundEven_mul 0 shift
    rwa [Nat.zero_mul] at rounded
  unfold narrowMagnitude
  dsimp only
  rw [Nat.zero_div, Nat.zero_mod, if_neg (by decide), if_pos rfl, none]
  decide

/-- A magnitude that is one of a number is narrowed to what it was widened from. -/
theorem narrowMagnitude_widenMagnitude
    {magnitude : Nat}
    (number : magnitude ≤ infinity32) :
    narrowMagnitude (widenMagnitude magnitude) = magnitude := by
  unfold infinity32 at number
  unfold widenMagnitude
  dsimp only
  have fits : magnitude % 2 ^ 23 < 2 ^ 23 := Nat.mod_lt _ (by decide)
  split
  · have none : magnitude % 2 ^ 23 = 0 := by omega
    rw [if_pos none, show magnitude = 255 * 2 ^ 23 by omega]
    decide
  · split
    · rw [narrow_widen_normal (by omega) (by omega) fits]
      omega
    · split
      · rw [narrowMagnitude_zero]
        omega
      · rename_i some
        rw [narrow_widen_subnormal some fits]
        omega

/-- Widening leaves the sign bit free. -/
theorem widenMagnitude_lt
    {magnitude : Nat}
    (fits : magnitude < 2 ^ 31) :
    widenMagnitude magnitude < 2 ^ 63 := by
  have fraction_lt : magnitude % 2 ^ 23 < 2 ^ 23 := Nat.mod_lt _ (by decide)
  unfold widenMagnitude infinity64
  dsimp only
  split
  · split
    · decide
    · have payload : magnitude % 2 ^ 23 * 2 ^ 29 ||| quiet64 < 2 ^ 52 :=
        Nat.or_lt_two_pow (by omega) (by decide)
      omega
  · split
    · omega
    · split
      · decide
      · rename_i some
        have upper : magnitude % 2 ^ 23 < 2 ^ (Nat.log 2 (magnitude % 2 ^ 23) + 1) :=
          Nat.lt_pow_succ_log_self Nat.one_lt_two _
        have small : Nat.log 2 (magnitude % 2 ^ 23) < 23 :=
          Nat.log_lt_of_lt_pow some fraction_lt
        have inside := subnormal_fraction_lt upper (by omega)
        omega

/-- What is no number is widened to what is none. -/
theorem infinity64_lt_widenMagnitude
    {magnitude : Nat}
    (fits : magnitude < 2 ^ 31) (noNumber : infinity32 < magnitude) :
    infinity64 < widenMagnitude magnitude := by
  unfold infinity32 at noNumber
  have payload : quiet64 ≤ magnitude % 2 ^ 23 * 2 ^ 29 ||| quiet64 := Nat.right_le_or
  have positive : 0 < quiet64 := by decide
  unfold widenMagnitude
  dsimp only
  rw [if_pos (by omega), if_neg (by omega)]
  omega

/-- Widening keeps the sign and widens the magnitude. -/
theorem toNat_widen (bits : BitVec 32) :
    (widen bits).toNat =
      bits.toNat / 2 ^ 31 * 2 ^ 63 + widenMagnitude (bits.toNat % 2 ^ 31) := by
  have small : widenMagnitude (bits.toNat % 2 ^ 31) < 2 ^ 63 :=
    widenMagnitude_lt (Nat.mod_lt _ (by decide))
  have fits := bits.isLt
  unfold widen
  rw [BitVec.toNat_ofNat]
  omega

/-- A number that is widened and narrowed again is what it was. -/
theorem narrow_widen
    {bits : BitVec 32}
    (number : isNan (widen bits) = false) :
    narrow (widen bits) = bits := by
  have fits := bits.isLt
  have masked : bits.toNat % 2 ^ 31 < 2 ^ 31 := Nat.mod_lt _ (by decide)
  have small := widenMagnitude_lt masked
  have whole := toNat_widen bits
  have magnitude : (widen bits).toNat % 2 ^ 63 = widenMagnitude (bits.toNat % 2 ^ 31) := by
    omega
  have sign : (widen bits).toNat / 2 ^ 63 = bits.toNat / 2 ^ 31 := by omega
  have bounded : bits.toNat % 2 ^ 31 ≤ infinity32 := by
    by_contra beyond
    unfold isNan at number
    rw [magnitude] at number
    have above := infinity64_lt_widenMagnitude masked (Nat.lt_of_not_le beyond)
    exact of_decide_eq_false number above
  apply BitVec.eq_of_toNat_eq
  unfold narrow
  rw [magnitude, sign, narrowMagnitude_widenMagnitude bounded, BitVec.toNat_ofNat]
  omega

/-- One and a tenth is no `f32`. The nearest one is another number. -/
example :
    narrow 0x3FF199999999999A = 0x3F8CCCCD ∧ widen 0x3F8CCCCD = 0x3FF19999A0000000 := by
  decide

end Ieee
end TraceWasm
