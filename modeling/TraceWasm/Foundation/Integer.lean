import Mathlib.Data.BitVec
import Mathlib.Tactic.Push

/-!
# Integers of a fixed width

An integer of width `N` is a natural number below `2 ^ N`. The operations are
those of the WebAssembly specification; one that is not defined on its operands
has no result. A bit vector's own operations compute them.
-/

namespace TraceWasm
namespace Integer

/-! ## Readings -/

/-- The two's-complement reading. -/
def signed (N i : Nat) : Int :=
  if i < 2 ^ (N - 1) then i else i - 2 ^ N

/-- The integer of width `N` with a given two's-complement reading. -/
def unsigned (N : Nat) (j : Int) : Nat := (j % 2 ^ N).toNat

/-- The bits, the least significant first. -/
def bits (N i : Nat) : List Bool := (List.range N).map i.testBit

/-- A truth value as an integer. -/
def bool (p : Prop) [Decidable p] : Nat := if p then 1 else 0

/-! ## Arithmetic -/

/-- The sum modulo `2 ^ N`. -/
def iadd (N i j : Nat) : Nat := (i + j) % 2 ^ N

/-- The difference modulo `2 ^ N`. -/
def isub (N i j : Nat) : Nat := (i + 2 ^ N - j) % 2 ^ N

/-- The product modulo `2 ^ N`. -/
def imul (N i j : Nat) : Nat := i * j % 2 ^ N

/-- The unsigned quotient, which there is not by zero. -/
def idivU (i j : Nat) : Option Nat := if j = 0 then none else some (i / j)

/-- The signed quotient, which there is neither by zero nor beyond the largest number. -/
def idivS (N i j : Nat) : Option Nat :=
  if signed N j = 0 then none
  else if (signed N i).tdiv (signed N j) = 2 ^ (N - 1) then none
  else some (unsigned N ((signed N i).tdiv (signed N j)))

/-- The unsigned remainder, which there is not by zero. -/
def iremU (i j : Nat) : Option Nat := if j = 0 then none else some (i - j * (i / j))

/-- The signed remainder, with the sign of the dividend. -/
def iremS (N i j : Nat) : Option Nat :=
  if signed N j = 0 then none
  else some (unsigned N
    (signed N i - signed N j * (signed N i).tdiv (signed N j)))

/-! ## Bits -/

/-- Shift left by the count modulo the width. -/
def ishl (N i j : Nat) : Nat := i * 2 ^ (j % N) % 2 ^ N

/-- Shift right by the count modulo the width, filling with zeros. -/
def ishrU (N i j : Nat) : Nat := i / 2 ^ (j % N)

/-- The vacated bits are copies of the sign. -/
def ishrS (N i j : Nat) : Nat := unsigned N (signed N i / 2 ^ (j % N))

/-- What leaves at the top comes back at the bottom. -/
def irotl (N i j : Nat) : Nat := i * 2 ^ (j % N) % 2 ^ N + i / 2 ^ (N - j % N)

/-- Rotate right by the count modulo the width. -/
def irotr (N i j : Nat) : Nat := i / 2 ^ (j % N) + i * 2 ^ (N - j % N) % 2 ^ N

/-- How many zeros there are before the first one. -/
def iclz (N i : Nat) : Nat := ((bits N i).reverse.takeWhile (!·)).length

/-- How many zeros there are behind the last one. -/
def ictz (N i : Nat) : Nat := ((bits N i).takeWhile (!·)).length

/-- How many ones there are. -/
def ipopcnt (N i : Nat) : Nat := (bits N i).count true

/-! ## Conversions -/

/-- Read the low `M` bits as signed, at the full width. -/
def iextendS (N M i : Nat) : Nat := unsigned N (signed M (i % 2 ^ M))

/-- The lower bits of a number. -/
def wrap (N i : Nat) : Nat := i % 2 ^ N

/-- The number of `N` bits with the signed value of one of `M` bits. -/
def extendS (M N i : Nat) : Nat := unsigned N (signed M i)

/-! ## What the operations of bit vectors compute -/

section BitVectors

variable {w : Nat}

/-- The signed number of a bit vector. -/
theorem signed_toNat (x : BitVec w) : signed w x.toNat = x.toInt := by
  unfold signed
  rw [BitVec.toInt_eq_toNat_cond]
  cases w with
  | zero =>
      have nil : x.toNat = 0 := by simpa using x.isLt
      simp [nil]
  | succ w =>
      have half : 2 * x.toNat < 2 ^ (w + 1) ↔ x.toNat < 2 ^ (w + 1 - 1) := by
        rw [Nat.pow_succ, Nat.add_sub_cancel]
        omega
      simp [half]

/-- The bits of a signed number. -/
theorem toNat_ofInt (j : Int) : (BitVec.ofInt w j).toNat = unsigned w j := by
  rw [BitVec.toNat_ofInt, unsigned, Nat.cast_pow, Nat.cast_two]

theorem toNat_add (x y : BitVec w) : (x + y).toNat = iadd w x.toNat y.toNat :=
  BitVec.toNat_add x y

/-- Bit vectors subtract as the numbers do modulo `2 ^ w`. -/
theorem toNat_sub (x y : BitVec w) : (x - y).toNat = isub w x.toNat y.toNat := by
  rw [BitVec.toNat_sub, isub]
  congr 1
  have bound := y.isLt
  omega

theorem toNat_mul (x y : BitVec w) : (x * y).toNat = imul w x.toNat y.toNat :=
  BitVec.toNat_mul x y

theorem toNat_eq_zero {x : BitVec w} : x.toNat = 0 ↔ x = 0 := by
  rw [← BitVec.toNat_inj, show (0 : BitVec w) = 0#w from rfl, BitVec.toNat_zero]

theorem toInt_eq_zero {x : BitVec w} : x.toInt = 0 ↔ x = 0 := by
  rw [← BitVec.toInt_zero (w := w)]
  exact BitVec.toInt_inj

/-- The one signed quotient that is not representable. -/
theorem tdiv_eq_two_pow_iff {x y : BitVec w} (wide : 0 < w) :
    x.toInt.tdiv y.toInt = 2 ^ (w - 1) ↔ x = BitVec.intMin w ∧ y = -1 := by
  constructor
  · intro overflow
    by_contra other
    have representable : (x.sdiv y).toInt = x.toInt.tdiv y.toInt := by
      apply BitVec.toInt_sdiv_of_ne_or_ne
      by_contra both
      push Not at both
      exact other both
    have bound := (x.sdiv y).toInt_lt
    rw [representable, overflow] at bound
    exact lt_irrefl _ bound
  · rintro ⟨rfl, rfl⟩
    have minusOne : (-1 : BitVec w).toInt = -1 := by
      rw [show (-1 : BitVec w) = BitVec.allOnes w from BitVec.neg_one_eq_allOnes,
        BitVec.toInt_allOnes, if_pos wide]
    rw [BitVec.toInt_intMin_of_pos wide, minusOne, Int.tdiv_neg, Int.tdiv_one, neg_neg]

/-- The signed quotient of bit vectors is that of their signed numbers. -/
theorem sdiv_eq (x y : BitVec w) :
    x.sdiv y = BitVec.ofInt w (x.toInt.tdiv y.toInt) := by
  apply BitVec.eq_of_toInt_eq
  rw [BitVec.toInt_sdiv, BitVec.toInt_ofInt]

/-- So is the signed remainder. -/
theorem srem_eq (x y : BitVec w) :
    x.srem y = BitVec.ofInt w (x.toInt - y.toInt * x.toInt.tdiv y.toInt) := by
  rw [← Int.tmod_def, ← BitVec.toInt_srem, BitVec.ofInt_toInt]

/-- The unsigned quotient of bit vectors. -/
theorem idivU_toNat (x y : BitVec w) :
    idivU x.toNat y.toNat = if y = 0 then none else some (x / y).toNat := by
  unfold idivU
  simp only [BitVec.toNat_udiv, toNat_eq_zero]

/-- The signed quotient of bit vectors, which there is not for the least number by minus
one. -/
theorem idivS_toNat (x y : BitVec w) (wide : 0 < w) :
    idivS w x.toNat y.toNat =
      if y = 0 ∨ (x = BitVec.intMin w ∧ y = -1) then none
      else some (x.sdiv y).toNat := by
  unfold idivS
  simp only [signed_toNat, toInt_eq_zero, tdiv_eq_two_pow_iff wide, ← toNat_ofInt,
    ← sdiv_eq]
  by_cases zero : y = 0
  · rw [if_pos zero, if_pos (.inl zero)]
  · rw [if_neg zero]
    simp only [zero, false_or]

/-- The unsigned remainder of bit vectors. -/
theorem iremU_toNat (x y : BitVec w) :
    iremU x.toNat y.toNat = if y = 0 then none else some (x % y).toNat := by
  unfold iremU
  simp only [BitVec.toNat_umod, Nat.mod_def, toNat_eq_zero]

/-- The signed remainder of bit vectors. -/
theorem iremS_toNat (x y : BitVec w) :
    iremS w x.toNat y.toNat = if y = 0 then none else some (x.srem y).toNat := by
  unfold iremS
  simp only [signed_toNat, toInt_eq_zero, srem_eq, toNat_ofInt]

theorem toNat_shl (x : BitVec w) (y : Nat) :
    (x <<< (y % w)).toNat = ishl w x.toNat y := by
  rw [BitVec.toNat_shiftLeft, Nat.shiftLeft_eq, ishl]

theorem toNat_shrU (x : BitVec w) (y : Nat) :
    (x >>> (y % w)).toNat = ishrU w x.toNat y := by
  rw [BitVec.toNat_ushiftRight, Nat.shiftRight_eq_div_pow, ishrU]

theorem toNat_shrS (x : BitVec w) (y : Nat) :
    (x.sshiftRight (y % w)).toNat = ishrS w x.toNat y := by
  rw [BitVec.sshiftRight, toNat_ofInt, Int.shiftRight_eq_div_pow, ishrS, signed_toNat,
    Nat.cast_pow, Nat.cast_two]

/-- Shifting out at the top and in at the bottom leaves no bit in common. -/
theorem or_shifted (i k : Nat) (below : i < 2 ^ w) (inside : k ≤ w) :
    i * 2 ^ k % 2 ^ w ||| i / 2 ^ (w - k) = i * 2 ^ k % 2 ^ w + i / 2 ^ (w - k) := by
  have split : 2 ^ w = 2 ^ k * 2 ^ (w - k) := by
    rw [← Nat.pow_add, Nat.add_sub_cancel' inside]
  have high : i * 2 ^ k % 2 ^ w = 2 ^ k * (i % 2 ^ (w - k)) := by
    rw [split, Nat.mul_comm i, Nat.mul_mod_mul_left]
  have low : i / 2 ^ (w - k) < 2 ^ k := by
    rw [Nat.div_lt_iff_lt_mul (Nat.two_pow_pos _), ← split]
    exact below
  rw [high, Nat.two_pow_add_eq_or_of_lt low]

theorem toNat_rotl (x : BitVec w) (y : Nat) (wide : 0 < w) :
    (x.rotateLeft y).toNat = irotl w x.toNat y := by
  have inside : y % w ≤ w := (Nat.mod_lt y wide).le
  rw [BitVec.rotateLeft, BitVec.rotateLeftAux, BitVec.toNat_or, BitVec.toNat_shiftLeft,
    BitVec.toNat_ushiftRight, Nat.shiftLeft_eq, Nat.shiftRight_eq_div_pow,
    or_shifted _ _ x.isLt inside, irotl]

theorem toNat_rotr (x : BitVec w) (y : Nat) (wide : 0 < w) :
    (x.rotateRight y).toNat = irotr w x.toNat y := by
  have inside : y % w ≤ w := (Nat.mod_lt y wide).le
  have shifted := or_shifted x.toNat (w - y % w) x.isLt (Nat.sub_le _ _)
  rw [Nat.sub_sub_self inside] at shifted
  rw [BitVec.rotateRight, BitVec.rotateRightAux, BitVec.toNat_or, BitVec.toNat_shiftLeft,
    BitVec.toNat_ushiftRight, Nat.shiftLeft_eq, Nat.shiftRight_eq_div_pow, Nat.or_comm,
    shifted, irotr, Nat.add_comm]

/-- The bits of a bit vector, the lowest first. -/
theorem getElem?_bits (x : BitVec w) (index : Nat) (inside : index < w) :
    (bits w x.toNat)[index]? = some (x.getLsbD index) := by
  rw [bits, List.getElem?_map, List.getElem?_range inside]
  rfl

theorem length_bits (N i : Nat) : (bits N i).length = N := by
  rw [bits, List.length_map, List.length_range]

/-- How long the longest prefix with a property is. -/
theorem length_takeWhile_eq
    {p : α → Bool} {list : List α} {n : Nat}
    (before : ∀ index < n, ∃ a, list[index]? = some a ∧ p a = true)
    (stops : ∀ a, list[n]? = some a → p a = false) :
    (list.takeWhile p).length = n := by
  induction list generalizing n with
  | nil =>
      cases n with
      | zero => rfl
      | succ n => simpa using before 0 (Nat.succ_pos n)
  | cons head tail inductionHypothesis =>
      cases n with
      | zero => simp [stops head rfl]
      | succ n =>
          obtain ⟨first, found, holds⟩ := before 0 (Nat.succ_pos n)
          cases found
          rw [List.takeWhile_cons, if_pos holds, List.length_cons, inductionHypothesis]
          · intro index inside
            simpa using before (index + 1) (Nat.succ_lt_succ inside)
          · intro a at_
            exact stops a (by simpa using at_)

/-- The width is itself representable. -/
theorem toNat_width : (w : BitVec w).toNat = w := by
  rw [BitVec.natCast_eq_ofNat, BitVec.toNat_ofNat, Nat.mod_eq_of_lt Nat.lt_two_pow_self]

/-- There are no more zeros than bits. -/
theorem toNat_ctz_le (x : BitVec w) : x.ctz.toNat ≤ w := by
  have bound := BitVec.le_def.mp (BitVec.clz_le (x := x.reverse))
  rwa [toNat_width] at bound

/-- The zeros behind the last one of a bit vector. -/
theorem toNat_ctz (x : BitVec w) : x.ctz.toNat = ictz w x.toNat := by
  symm
  apply length_takeWhile_eq
  · intro index inside
    have bound := toNat_ctz_le x
    refine ⟨_, getElem?_bits x index (by omega), ?_⟩
    rw [BitVec.getLsbD_false_of_lt_ctz inside]
    rfl
  · intro bit found
    by_cases zero : x = 0#w
    · have full : x.ctz.toNat = w := by
        rw [zero, BitVec.ctz, show (0#w).reverse = 0#w by simp,
          BitVec.clz_eq_iff_eq_zero.mpr rfl, toNat_width]
      rw [full, List.getElem?_eq_none (length_bits w _).le] at found
      cases found
    · have inside : x.ctz.toNat < w := by
        have below := BitVec.ctz_lt_iff_ne_zero.mpr zero
        rwa [BitVec.lt_def, toNat_width] at below
      rw [getElem?_bits x _ inside, BitVec.getLsbD_true_ctz_of_ne_zero zero] at found
      cases found
      rfl

/-- The bits of the reversed bit vector. -/
theorem bits_reverse (x : BitVec w) :
    bits w x.reverse.toNat = (bits w x.toNat).reverse := by
  apply List.ext_getElem?
  intro index
  by_cases inside : index < w
  · rw [getElem?_bits _ _ inside, List.getElem?_reverse (by rwa [length_bits]), length_bits,
      getElem?_bits _ _ (by omega), BitVec.getLsbD_reverse, BitVec.getMsbD]
    simp [inside]
  · rw [List.getElem?_eq_none (by rw [length_bits]; omega),
      List.getElem?_eq_none (by rw [List.length_reverse, length_bits]; omega)]

/-- The zeros before the first one of a bit vector. -/
theorem toNat_clz (x : BitVec w) : x.clz.toNat = iclz w x.toNat := by
  rw [BitVec.clz_eq_reverse_ctz, toNat_ctz, ictz, bits_reverse, iclz]

/-- The recursion over the bits counts the ones. -/
theorem cpopNatRec_eq_count (x : BitVec w) (n : Nat) :
    x.cpopNatRec n 0 = ((List.range n).map x.toNat.testBit).count true := by
  induction n with
  | zero => rfl
  | succ n inductionHypothesis =>
      rw [List.range_succ, List.map_append, List.count_append, ← inductionHypothesis,
        BitVec.cpopNatRec_succ, BitVec.cpopNatRec_eq, Nat.zero_add]
      congr 1
      simp [List.count_singleton, BitVec.getLsbD, Bool.toNat]

/-- The ones of a bit vector. -/
theorem toNat_cpop (x : BitVec w) : x.cpop.toNat = ipopcnt w x.toNat := by
  rw [BitVec.toNat_cpop, cpopNatRec_eq_count, ipopcnt, bits]

/-- Bit vectors are extended by their signs as the numbers are. -/
theorem toNat_signExtend (x : BitVec v) :
    (x.signExtend w).toNat = extendS v w x.toNat := by
  rw [BitVec.signExtend, toNat_ofInt, extendS, signed_toNat]

theorem toNat_setWidth (x : BitVec v) : (x.setWidth w).toNat = wrap w x.toNat :=
  BitVec.toNat_setWidth w x

end BitVectors

/-! ## Where an operation is not defined -/

theorem idivU_eq_none {i j : Nat} : idivU i j = none ↔ j = 0 := by
  simp [idivU]

theorem iremU_eq_none {i j : Nat} : iremU i j = none ↔ j = 0 := by
  simp [iremU]

section Signed

variable {N i j : Nat}

/-- A number of the width as a bit vector. -/
theorem toNat_ofNat_of_lt (below : i < 2 ^ N) : (BitVec.ofNat N i).toNat = i := by
  rw [BitVec.toNat_ofNat, Nat.mod_eq_of_lt below]

theorem ofNat_eq_zero (below : j < 2 ^ N) : BitVec.ofNat N j = 0 ↔ j = 0 := by
  rw [← toNat_eq_zero, toNat_ofNat_of_lt below]

/-- Only by zero there is no remainder. -/
theorem iremS_eq_none (left : i < 2 ^ N) (right : j < 2 ^ N) :
    iremS N i j = none ↔ j = 0 := by
  have means := iremS_toNat (BitVec.ofNat N i) (BitVec.ofNat N j)
  rw [toNat_ofNat_of_lt left, toNat_ofNat_of_lt right] at means
  rw [means, ← ofNat_eq_zero right]
  simp

/-- A signed quotient is not defined for a zero divisor, nor for the most negative
number divided by minus one. -/
theorem idivS_eq_none (wide : 0 < N) (left : i < 2 ^ N) (right : j < 2 ^ N) :
    idivS N i j = none ↔ j = 0 ∨ (i = 2 ^ (N - 1) ∧ j = 2 ^ N - 1) := by
  have means := idivS_toNat (BitVec.ofNat N i) (BitVec.ofNat N j) wide
  rw [toNat_ofNat_of_lt left, toNat_ofNat_of_lt right] at means
  have least : BitVec.ofNat N i = BitVec.intMin N ↔ i = 2 ^ (N - 1) := by
    rw [← BitVec.toNat_inj, toNat_ofNat_of_lt left, BitVec.toNat_intMin_of_pos wide]
  have minusOne : BitVec.ofNat N j = -1 ↔ j = 2 ^ N - 1 := by
    rw [show (-1 : BitVec N) = BitVec.allOnes N from BitVec.neg_one_eq_allOnes,
      ← BitVec.toNat_inj, toNat_ofNat_of_lt right, BitVec.toNat_allOnes]
  rw [means, ← ofNat_eq_zero right, ← least, ← minusOne]
  split
  · next holds => exact ⟨fun _ => holds, fun _ => rfl⟩
  · next fails =>
      constructor
      · intro absurd
        cases absurd
      · intro holds
        exact (fails holds).elim

/-- The remainder of the most negative number by minus one is zero. -/
theorem iremS_least (wide : 0 < N) : iremS N (2 ^ (N - 1)) (2 ^ N - 1) = some 0 := by
  have means := iremS_toNat (BitVec.intMin N) (BitVec.allOnes N)
  rw [BitVec.toNat_intMin_of_pos wide, BitVec.toNat_allOnes] at means
  have minusOne : (BitVec.allOnes N).toInt = -1 := by
    rw [BitVec.toInt_allOnes, if_pos wide]
  have nonzero : BitVec.allOnes N ≠ 0 := by
    rw [ne_eq, ← toInt_eq_zero, minusOne]
    decide
  have zero : (BitVec.intMin N).srem (BitVec.allOnes N) = 0 := by
    rw [← toInt_eq_zero, BitVec.toInt_srem, minusOne, Int.tmod_neg, Int.tmod_one]
  rw [means, if_neg nonzero, zero]
  exact congrArg some BitVec.toNat_zero

end Signed

end Integer
end TraceWasm
