import Mathlib.Data.BitVec
import Mathlib.Data.Nat.ModEq
import Mathlib.Tactic.Ring

/-!
# Little-endian numbers

A word of `count` bytes as a list of bytes, least significant first.
-/

namespace TraceWasm

/-- Eight bits. -/
abbrev Byte := BitVec 8

/-- The number with the given bytes. -/
def fromLittleEndian : List Byte → Nat
  | [] => 0
  | byte :: bytes => byte.toNat + 256 * fromLittleEndian bytes

/-- The bytes of a number. -/
def toLittleEndian (count value : Nat) : List Byte :=
  match count with
  | 0 => []
  | count + 1 => BitVec.ofNat 8 value :: toLittleEndian count (value / 256)

@[simp] theorem length_toLittleEndian (count value : Nat) :
    (toLittleEndian count value).length = count := by
  induction count generalizing value with
  | zero => rfl
  | succ count inductionHypothesis =>
      rw [toLittleEndian, List.length_cons, inductionHypothesis]

/-- A number that fits is read back from its bytes. -/
theorem fromLittleEndian_toLittleEndian
    {count value : Nat}
    (fits : value < 256 ^ count) :
    fromLittleEndian (toLittleEndian count value) = value := by
  induction count generalizing value with
  | zero =>
      rw [pow_zero] at fits
      rw [toLittleEndian, fromLittleEndian]
      omega
  | succ count inductionHypothesis =>
      have smaller : value / 256 < 256 ^ count := by
        rw [pow_succ] at fits
        exact Nat.div_lt_of_lt_mul (by omega)
      rw [toLittleEndian, fromLittleEndian, inductionHypothesis smaller,
        BitVec.toNat_ofNat]
      exact Nat.mod_add_div value 256

end TraceWasm
