import TraceWasm.Runtime.DataEffect
import TraceWasm.Wasm.IntegerMeaning

/-!
# The integer operators

What the arms of the two machines compute from the words they read. The arms
are the same in both, so they are stated once; the other numeric operators
remain a parameter. The results are those that the specification gives the
operators.
-/

namespace TraceWasm

/-! ## Words -/

namespace Word

variable {w : Nat}

/-- A truth value as a word. -/
def ofBool (p : Prop) [Decidable p] : BitVec w := if p then 1 else 0

/-- Division of signed words, unless the quotient is not representable. -/
def checkedDivS (a b : BitVec w) : Option (BitVec w) :=
  if b = 0 ∨ (a = BitVec.intMin w ∧ b = -1) then none else some (a.sdiv b)

/-- Divide without signs, unless by zero. -/
def checkedDivU (a b : BitVec w) : Option (BitVec w) :=
  if b = 0 then none else some (a / b)

/-- The remainder without signs, unless by zero. -/
def checkedRemU (a b : BitVec w) : Option (BitVec w) :=
  if b = 0 then none else some (a % b)

/-- The count is a 32-bit word, of which the low bits matter. -/
def wrappingShl (a : BitVec w) (count : BitVec 32) : BitVec w :=
  a <<< (count.toNat % w)

/-- Shift right by the count modulo the width, filling with zeros. -/
def wrappingShrU (a : BitVec w) (count : BitVec 32) : BitVec w :=
  a >>> (count.toNat % w)

/-- Shift right by the count modulo the width, filling with the sign. -/
def wrappingShrS (a : BitVec w) (count : BitVec 32) : BitVec w :=
  a.sshiftRight (count.toNat % w)

/-- Rotate left by the count modulo the width. -/
def rotateLeft (a : BitVec w) (count : BitVec 32) : BitVec w :=
  a.rotateLeft count.toNat

/-- Rotate right by the count modulo the width. -/
def rotateRight (a : BitVec w) (count : BitVec 32) : BitVec w :=
  a.rotateRight count.toNat

end Word

/-! ## The arms -/

open Word

/-- The trap of a division, with its operands as signed or unsigned words. -/
def divisionTrap (print : BitVec w → String) (a b : BitVec w) :
    InstructionExecutionError :=
  .division (print a) (print b)

/-- The trap of a remainder that there is not. -/
def remainderTrap (print : BitVec w → String) (a b : BitVec w) :
    InstructionExecutionError :=
  .remainder (print a) (print b)

/-- How a signed number is printed. -/
def printSigned (a : BitVec w) : String := toString a.toInt

/-- How an unsigned number is printed. -/
def printUnsigned (a : BitVec w) : String := toString a.toNat

/-- The value of a checked operation, or its trap. -/
def orTrap (trap : InstructionExecutionError) :
    Option α → Attempt InstructionExecutionError α
  | some result => .ok result
  | none => .fail trap

/-- A remainder of signed words. Only a zero divisor traps. -/
def remS (a b : BitVec w) : Attempt InstructionExecutionError (BitVec w) :=
  if b = 0 then .fail (remainderTrap printSigned a b) else .ok (a.srem b)

namespace UnaryOp

/-- The arm of an integer operator on one word. -/
def integerArm (a : Value) : UnaryOp → Option Value
  | .i32Clz => some (.fromI32 a.asI32.clz)
  | .i32Ctz => some (.fromI32 a.asI32.ctz)
  | .i32Popcnt => some (.fromI32 a.asI32.cpop)
  | .i32Eqz => some (.fromI32 (if a.asI32 = 0 then 1 else 0))
  | .i32Extend8S => some (.fromI32 ((a.asI32.setWidth 8).signExtend 32))
  | .i32Extend16S => some (.fromI32 ((a.asI32.setWidth 16).signExtend 32))
  | .i32WrapI64 => some (.fromI32 (a.asI64.setWidth 32))
  | .i64Clz => some (.fromI64 a.asI64.clz)
  | .i64Ctz => some (.fromI64 a.asI64.ctz)
  | .i64Popcnt => some (.fromI64 a.asI64.cpop)
  | .i64Eqz => some (.fromI32 (if a.asI64 = 0 then 1 else 0))
  | .i64Extend8S => some (.fromI64 ((a.asI64.setWidth 8).signExtend 64))
  | .i64Extend16S => some (.fromI64 ((a.asI64.setWidth 16).signExtend 64))
  | .i64Extend32S => some (.fromI64 ((a.asI64.setWidth 32).signExtend 64))
  | .i64ExtendI32S => some (.fromI64 (a.asI32.signExtend 64))
  | .i64ExtendI32U => some (.fromI64 (a.asI32.setWidth 64))
  | _ => none

end UnaryOp

namespace BinaryOp

/-- The arm of a 32-bit operator. -/
def i32Arm (a b : BitVec 32) :
    BinaryOp → Option (Attempt InstructionExecutionError (BitVec 32))
  | .i32Add => some (.ok (a + b))
  | .i32Sub => some (.ok (a - b))
  | .i32Mul => some (.ok (a * b))
  | .i32DivU => some (orTrap (divisionTrap printUnsigned a b) (checkedDivU a b))
  | .i32DivS => some (orTrap (divisionTrap printSigned a b) (checkedDivS a b))
  | .i32RemU => some (orTrap (remainderTrap printUnsigned a b) (checkedRemU a b))
  | .i32RemS => some (remS a b)
  | .i32And => some (.ok (a &&& b))
  | .i32Or => some (.ok (a ||| b))
  | .i32Xor => some (.ok (a ^^^ b))
  | .i32Shl => some (.ok (wrappingShl a b))
  | .i32ShrU => some (.ok (wrappingShrU a b))
  | .i32ShrS => some (.ok (wrappingShrS a b))
  | .i32Rotl => some (.ok (rotateLeft a b))
  | .i32Rotr => some (.ok (rotateRight a b))
  | .i32Eq => some (.ok (ofBool (a = b)))
  | .i32Ne => some (.ok (ofBool (a ≠ b)))
  | .i32LtU => some (.ok (ofBool (a.toNat < b.toNat)))
  | .i32LtS => some (.ok (ofBool (a.toInt < b.toInt)))
  | .i32GtU => some (.ok (ofBool (a.toNat > b.toNat)))
  | .i32GtS => some (.ok (ofBool (a.toInt > b.toInt)))
  | .i32LeU => some (.ok (ofBool (a.toNat ≤ b.toNat)))
  | .i32LeS => some (.ok (ofBool (a.toInt ≤ b.toInt)))
  | .i32GeU => some (.ok (ofBool (a.toNat ≥ b.toNat)))
  | .i32GeS => some (.ok (ofBool (a.toInt ≥ b.toInt)))
  | _ => none

/-- The arm of a 64-bit operator whose result is a 64-bit word. A shift count is
narrowed before it is masked. -/
def i64Arm (a b : BitVec 64) :
    BinaryOp → Option (Attempt InstructionExecutionError (BitVec 64))
  | .i64Add => some (.ok (a + b))
  | .i64Sub => some (.ok (a - b))
  | .i64Mul => some (.ok (a * b))
  | .i64DivU => some (orTrap (divisionTrap printUnsigned a b) (checkedDivU a b))
  | .i64DivS => some (orTrap (divisionTrap printSigned a b) (checkedDivS a b))
  | .i64RemU => some (orTrap (remainderTrap printUnsigned a b) (checkedRemU a b))
  | .i64RemS => some (remS a b)
  | .i64And => some (.ok (a &&& b))
  | .i64Or => some (.ok (a ||| b))
  | .i64Xor => some (.ok (a ^^^ b))
  | .i64Shl => some (.ok (wrappingShl a (b.setWidth 32)))
  | .i64ShrU => some (.ok (wrappingShrU a (b.setWidth 32)))
  | .i64ShrS => some (.ok (wrappingShrS a (b.setWidth 32)))
  | .i64Rotl => some (.ok (rotateLeft a (b.setWidth 32)))
  | .i64Rotr => some (.ok (rotateRight a (b.setWidth 32)))
  | _ => none

/-- The arm of a comparison of 64-bit words, whose result is a 32-bit one. -/
def i64ComparisonArm (a b : BitVec 64) : BinaryOp → Option (BitVec 32)
  | .i64Eq => some (ofBool (a = b))
  | .i64Ne => some (ofBool (a ≠ b))
  | .i64LtU => some (ofBool (a.toNat < b.toNat))
  | .i64LtS => some (ofBool (a.toInt < b.toInt))
  | .i64GtU => some (ofBool (a.toNat > b.toNat))
  | .i64GtS => some (ofBool (a.toInt > b.toInt))
  | .i64LeU => some (ofBool (a.toNat ≤ b.toNat))
  | .i64LeS => some (ofBool (a.toInt ≤ b.toInt))
  | .i64GeU => some (ofBool (a.toNat ≥ b.toNat))
  | .i64GeS => some (ofBool (a.toInt ≥ b.toInt))
  | _ => none

/-- The arm of an integer operator on two words, the left one first. -/
def integerArm (a b : Value) (op : BinaryOp) :
    Option (Attempt InstructionExecutionError Value) :=
  ((op.i32Arm a.asI32 b.asI32).map (·.map Value.fromI32)).orElse fun _ =>
    ((op.i64Arm a.asI64 b.asI64).map (·.map Value.fromI64)).orElse fun _ =>
      (op.i64ComparisonArm a.asI64 b.asI64).map fun result => .ok (.fromI32 result)

end BinaryOp

/-- The numeric operators, of which those that are not of integers are given. -/
def Numerics.withIntegers (others : Numerics) : Numerics where
  unary op a :=
    match op.integerArm a with
    | some result => .ok result
    | none => others.unary op a
  binary op a b :=
    match op.integerArm a b with
    | some outcome => outcome
    | none => others.binary op a b

/-! ## Against the specification -/

section Specification

open Integer

namespace BinaryMeaning

/-- The operator is given a word that stands for its value, or traps. -/
def Gives (meaning : BinaryMeaning) (i j : Nat)
    (outcome : Attempt InstructionExecutionError (BitVec w)) : Prop :=
  match meaning.apply i j with
  | some value => ∃ word : BitVec w, outcome = .ok word ∧ word.toNat = value
  | none => ∃ trap, outcome = .fail trap

theorem gives_total
    {word : BitVec w} {apply : Nat → Nat → Nat}
    (value : word.toNat = apply i j) :
    (total M N apply).Gives i j (.ok word) :=
  ⟨word, rfl, value⟩

theorem gives_comparison
    {holds : Nat → Nat → Prop} [∀ i j, Decidable (holds i j)]
    {p : Prop} [Decidable p]
    (same : p ↔ holds i j) :
    (comparison M holds).Gives i j
      (.ok (ofBool p : BitVec 32)) := by
  apply gives_total
  by_cases truth : p
  · rw [ofBool, if_pos truth, Integer.bool, if_pos (same.mp truth)]
    rfl
  · rw [ofBool, if_neg truth, Integer.bool, if_neg (mt same.mpr truth)]
    rfl

theorem gives_signedComparison
    {holds : Int → Int → Prop} [∀ i j, Decidable (holds i j)]
    (a b : BitVec w) :
    (signedComparison w holds).Gives a.toNat b.toNat
      (.ok (ofBool (holds a.toInt b.toInt) : BitVec 32)) := by
  apply gives_comparison
  rw [signed_toNat, signed_toNat]

theorem gives_orTrap
    {apply : Nat → Nat → Option Nat} {checked : Option (BitVec w)}
    (value : apply i j = checked.map BitVec.toNat)
    (trap : InstructionExecutionError) :
    (BinaryMeaning.mk M N apply).Gives i j (orTrap trap checked) := by
  unfold Gives
  dsimp only
  rw [value]
  cases checked with
  | none => exact ⟨trap, rfl⟩
  | some word => exact ⟨word, rfl, rfl⟩

theorem gives_ite
    {apply : Nat → Nat → Option Nat} {undefined : Prop} [Decidable undefined]
    {word : BitVec w} {trap : InstructionExecutionError}
    (value : apply i j = if undefined then none else some word.toNat) :
    (BinaryMeaning.mk M N apply).Gives i j (if undefined then .fail trap else .ok word) := by
  unfold Gives
  dsimp only
  rw [value]
  split
  · next defined =>
      split at defined
      · cases defined
      · next holds =>
          cases defined
          rw [if_neg holds]
          exact ⟨word, rfl, rfl⟩
  · next isUndefined =>
      split at isUndefined
      · next holds =>
          rw [if_pos holds]
          exact ⟨trap, rfl⟩
      · cases isUndefined

end BinaryMeaning

open BinaryMeaning UnaryMeaning

/-! ### Words -/

theorem map_checkedDivU (a b : BitVec w) :
    (checkedDivU a b).map BitVec.toNat = idivU a.toNat b.toNat := by
  rw [idivU_toNat, checkedDivU]
  split <;> rfl

theorem map_checkedDivS (a b : BitVec w) (wide : 0 < w) :
    (checkedDivS a b).map BitVec.toNat = idivS w a.toNat b.toNat := by
  rw [idivS_toNat a b wide, checkedDivS]
  split <;> rfl

theorem map_checkedRemU (a b : BitVec w) :
    (checkedRemU a b).map BitVec.toNat = iremU a.toNat b.toNat := by
  rw [iremU_toNat, checkedRemU]
  split <;> rfl

/-- Narrowing a count to a word does not change it modulo the width. -/
theorem narrowed_count (b : BitVec 64) : (b.setWidth 32).toNat % 64 = b.toNat % 64 := by
  rw [BitVec.toNat_setWidth]
  omega

theorem toNat_wrappingShl (a b : BitVec 64) :
    (wrappingShl a (b.setWidth 32)).toNat = ishl 64 a.toNat b.toNat := by
  rw [wrappingShl, narrowed_count, toNat_shl]

theorem toNat_wrappingShrS (a b : BitVec 64) :
    (wrappingShrS a (b.setWidth 32)).toNat = ishrS 64 a.toNat b.toNat := by
  rw [wrappingShrS, narrowed_count, toNat_shrS]

theorem toNat_wrappingShrU (a b : BitVec 64) :
    (wrappingShrU a (b.setWidth 32)).toNat = ishrU 64 a.toNat b.toNat := by
  rw [wrappingShrU, narrowed_count, toNat_shrU]

theorem toNat_rotateLeft (a b : BitVec 64) :
    (rotateLeft a (b.setWidth 32)).toNat = irotl 64 a.toNat b.toNat := by
  rw [rotateLeft, toNat_rotl _ _ (by decide), irotl, narrowed_count, irotl]

theorem toNat_rotateRight (a b : BitVec 64) :
    (rotateRight a (b.setWidth 32)).toNat = irotr 64 a.toNat b.toNat := by
  rw [rotateRight, toNat_rotr _ _ (by decide), irotr, narrowed_count, irotr]

/-! ### Operators -/

namespace BinaryOp

/-- The outcome of an arm is the one that the specification gives. -/
def Implements (op : BinaryOp) (operandWidth resultWidth i j : Nat)
    (outcome : Attempt InstructionExecutionError (BitVec resultWidth)) : Prop :=
  ∃ meaning, op.meaning = some meaning ∧ meaning.operandWidth = operandWidth ∧
    meaning.resultWidth = resultWidth ∧ meaning.Gives i j outcome

/-- An arm that gives the meaning's result implements the operator. -/
theorem implements
    {op : BinaryOp} {meaning : BinaryMeaning}
    {outcome : Attempt InstructionExecutionError (BitVec meaning.resultWidth)}
    (means : op.meaning = some meaning)
    (gives : meaning.Gives i j outcome) :
    op.Implements meaning.operandWidth meaning.resultWidth i j outcome :=
  ⟨meaning, means, rfl, rfl, gives⟩

/-- Every arm on `i32`s implements its operator. -/
theorem i32Arm_implements
    {op : BinaryOp} (a b : BitVec 32)
    {outcome : Attempt InstructionExecutionError (BitVec 32)}
    (arm : op.i32Arm a b = some outcome) :
    op.Implements 32 32 a.toNat b.toNat outcome := by
  cases op <;> cases arm
  case i32Add => exact implements rfl (gives_total (Integer.toNat_add a b))
  case i32And => exact implements rfl (gives_total (BitVec.toNat_and a b))
  case i32DivS =>
      exact implements rfl (gives_orTrap (map_checkedDivS a b (by decide)).symm _)
  case i32DivU => exact implements rfl (gives_orTrap (map_checkedDivU a b).symm _)
  case i32Eq => exact implements rfl (gives_comparison BitVec.toNat_inj.symm)
  case i32GeS => exact implements rfl (gives_signedComparison a b)
  case i32GeU => exact implements rfl (gives_comparison Iff.rfl)
  case i32GtS => exact implements rfl (gives_signedComparison a b)
  case i32GtU => exact implements rfl (gives_comparison Iff.rfl)
  case i32LeS => exact implements rfl (gives_signedComparison a b)
  case i32LeU => exact implements rfl (gives_comparison Iff.rfl)
  case i32LtS => exact implements rfl (gives_signedComparison a b)
  case i32LtU => exact implements rfl (gives_comparison Iff.rfl)
  case i32Mul => exact implements rfl (gives_total (Integer.toNat_mul a b))
  case i32Ne => exact implements rfl (gives_comparison (not_congr BitVec.toNat_inj.symm))
  case i32Or => exact implements rfl (gives_total (BitVec.toNat_or a b))
  case i32RemS => exact implements rfl (gives_ite (iremS_toNat a b))
  case i32RemU => exact implements rfl (gives_orTrap (map_checkedRemU a b).symm _)
  case i32Rotl => exact implements rfl (gives_total (toNat_rotl a b.toNat (by decide)))
  case i32Rotr => exact implements rfl (gives_total (toNat_rotr a b.toNat (by decide)))
  case i32Shl => exact implements rfl (gives_total (toNat_shl a b.toNat))
  case i32ShrS => exact implements rfl (gives_total (toNat_shrS a b.toNat))
  case i32ShrU => exact implements rfl (gives_total (toNat_shrU a b.toNat))
  case i32Sub => exact implements rfl (gives_total (Integer.toNat_sub a b))
  case i32Xor => exact implements rfl (gives_total (BitVec.toNat_xor a b))

/-- So does every arm on `i64`s. -/
theorem i64Arm_implements
    {op : BinaryOp} (a b : BitVec 64)
    {outcome : Attempt InstructionExecutionError (BitVec 64)}
    (arm : op.i64Arm a b = some outcome) :
    op.Implements 64 64 a.toNat b.toNat outcome := by
  cases op <;> cases arm
  case i64Add => exact implements rfl (gives_total (Integer.toNat_add a b))
  case i64And => exact implements rfl (gives_total (BitVec.toNat_and a b))
  case i64DivS =>
      exact implements rfl (gives_orTrap (map_checkedDivS a b (by decide)).symm _)
  case i64DivU => exact implements rfl (gives_orTrap (map_checkedDivU a b).symm _)
  case i64Mul => exact implements rfl (gives_total (Integer.toNat_mul a b))
  case i64Or => exact implements rfl (gives_total (BitVec.toNat_or a b))
  case i64RemS => exact implements rfl (gives_ite (iremS_toNat a b))
  case i64RemU => exact implements rfl (gives_orTrap (map_checkedRemU a b).symm _)
  case i64Rotl => exact implements rfl (gives_total (toNat_rotateLeft a b))
  case i64Rotr => exact implements rfl (gives_total (toNat_rotateRight a b))
  case i64Shl => exact implements rfl (gives_total (toNat_wrappingShl a b))
  case i64ShrS => exact implements rfl (gives_total (toNat_wrappingShrS a b))
  case i64ShrU => exact implements rfl (gives_total (toNat_wrappingShrU a b))
  case i64Sub => exact implements rfl (gives_total (Integer.toNat_sub a b))
  case i64Xor => exact implements rfl (gives_total (BitVec.toNat_xor a b))

/-- So does every comparison of `i64`s. -/
theorem i64ComparisonArm_implements
    {op : BinaryOp} (a b : BitVec 64) {result : BitVec 32}
    (arm : op.i64ComparisonArm a b = some result) :
    op.Implements 64 32 a.toNat b.toNat (.ok result) := by
  cases op <;> cases arm
  case i64Eq => exact implements rfl (gives_comparison BitVec.toNat_inj.symm)
  case i64GeS => exact implements rfl (gives_signedComparison a b)
  case i64GeU => exact implements rfl (gives_comparison Iff.rfl)
  case i64GtS => exact implements rfl (gives_signedComparison a b)
  case i64GtU => exact implements rfl (gives_comparison Iff.rfl)
  case i64LeS => exact implements rfl (gives_signedComparison a b)
  case i64LeU => exact implements rfl (gives_comparison Iff.rfl)
  case i64LtS => exact implements rfl (gives_signedComparison a b)
  case i64LtU => exact implements rfl (gives_comparison Iff.rfl)
  case i64Ne => exact implements rfl (gives_comparison (not_congr BitVec.toNat_inj.symm))

end BinaryOp

/-! ### Slots -/

section Slots

/-- Read as an `i32`, the lower half of the word counts. -/
theorem toNat_asI32 (a : Value) : a.asI32.toNat = a.toNat % 2 ^ 32 :=
  BitVec.toNat_setWidth 32 a

theorem toNat_asI64 (a : Value) : a.asI64.toNat = a.toNat % 2 ^ 64 :=
  (Nat.mod_eq_of_lt a.isLt).symm

/-- A slot holds a 32-bit word with a zero upper half. -/
theorem fromI32_eq (word : BitVec 32) : Value.fromI32 word = BitVec.ofNat 64 word.toNat := by
  apply BitVec.eq_of_toNat_eq
  rw [Value.fromI32, BitVec.toNat_setWidth, BitVec.toNat_ofNat]

theorem fromI64_eq (word : BitVec 64) : Value.fromI64 word = BitVec.ofNat 64 word.toNat :=
  ((BitVec.ofNat_toNat 64 word).trans (BitVec.setWidth_eq word)).symm

/-- The slot of the result, which has the width of the result, when the operand is
read from a slot at its own width. -/
def UnaryMeaning.Answers (meaning : UnaryMeaning) (a result : Value) : Prop :=
  meaning.apply (a.toNat % 2 ^ meaning.operandWidth) < 2 ^ meaning.resultWidth ∧
    result = BitVec.ofNat 64 (meaning.apply (a.toNat % 2 ^ meaning.operandWidth))

/-- The slot of the result, or a trap where the operator is not defined. -/
def BinaryMeaning.Answers
    (meaning : BinaryMeaning) (a b : Value)
    (outcome : Attempt InstructionExecutionError Value) : Prop :=
  match meaning.apply (a.toNat % 2 ^ meaning.operandWidth)
    (b.toNat % 2 ^ meaning.operandWidth) with
  | some value => value < 2 ^ meaning.resultWidth ∧ outcome = .ok (BitVec.ofNat 64 value)
  | none => ∃ trap, outcome = .fail trap

theorem UnaryMeaning.answers_i32
    {a : Value} {word : BitVec 32} {apply : Nat → Nat}
    (value : word.toNat = apply (a.toNat % 2 ^ M)) :
    (UnaryMeaning.mk M 32 apply).Answers a (.fromI32 word) := by
  unfold UnaryMeaning.Answers
  dsimp only
  rw [← value, fromI32_eq]
  exact ⟨word.isLt, rfl⟩

theorem UnaryMeaning.answers_i64
    {a : Value} {word : BitVec 64} {apply : Nat → Nat}
    (value : word.toNat = apply (a.toNat % 2 ^ M)) :
    (UnaryMeaning.mk M 64 apply).Answers a (.fromI64 word) := by
  unfold UnaryMeaning.Answers
  dsimp only
  rw [← value, fromI64_eq]
  exact ⟨word.isLt, rfl⟩

theorem toNat_ite_eq_zero (x : BitVec w) :
    (if x = 0 then 1 else 0 : BitVec 32).toNat = Integer.bool (x.toNat = 0) := by
  by_cases zero : x = 0
  · rw [if_pos zero, Integer.bool, if_pos (toNat_eq_zero.mpr zero)]
    rfl
  · rw [if_neg zero, Integer.bool, if_neg (mt toNat_eq_zero.mp zero)]
    rfl

theorem toNat_widen (x : BitVec 32) : (x.setWidth 64).toNat = x.toNat :=
  BitVec.toNat_setWidth_of_le (by decide)

theorem toNat_extendS (x : BitVec w) (v : Nat) :
    ((x.setWidth v).signExtend w).toNat = iextendS w v x.toNat := by
  rw [toNat_signExtend, toNat_setWidth]
  rfl

/-- The arm of an operator on one word gives what the operator means. -/
theorem UnaryOp.integerArm_answers
    {op : UnaryOp} {meaning : UnaryMeaning}
    (means : op.meaning = some meaning) (a : Value) :
    ∃ result, op.integerArm a = some result ∧ meaning.Answers a result := by
  cases op <;> cases means
  case i32Clz => exact ⟨_, rfl, answers_i32 (by rw [toNat_clz, toNat_asI32])⟩
  case i32Ctz => exact ⟨_, rfl, answers_i32 (by rw [toNat_ctz, toNat_asI32])⟩
  case i32Eqz => exact ⟨_, rfl, answers_i32 (by rw [toNat_ite_eq_zero, toNat_asI32])⟩
  case i32Extend16S => exact ⟨_, rfl, answers_i32 (by rw [toNat_extendS, toNat_asI32])⟩
  case i32Extend8S => exact ⟨_, rfl, answers_i32 (by rw [toNat_extendS, toNat_asI32])⟩
  case i32Popcnt => exact ⟨_, rfl, answers_i32 (by rw [toNat_cpop, toNat_asI32])⟩
  case i32WrapI64 => exact ⟨_, rfl, answers_i32 (by rw [toNat_setWidth, toNat_asI64])⟩
  case i64Clz => exact ⟨_, rfl, answers_i64 (by rw [toNat_clz, toNat_asI64])⟩
  case i64Ctz => exact ⟨_, rfl, answers_i64 (by rw [toNat_ctz, toNat_asI64])⟩
  case i64Eqz => exact ⟨_, rfl, answers_i32 (by rw [toNat_ite_eq_zero, toNat_asI64])⟩
  case i64Extend16S => exact ⟨_, rfl, answers_i64 (by rw [toNat_extendS, toNat_asI64])⟩
  case i64Extend32S => exact ⟨_, rfl, answers_i64 (by rw [toNat_extendS, toNat_asI64])⟩
  case i64Extend8S => exact ⟨_, rfl, answers_i64 (by rw [toNat_extendS, toNat_asI64])⟩
  case i64ExtendI32S => exact ⟨_, rfl, answers_i64 (by rw [toNat_signExtend, toNat_asI32])⟩
  case i64ExtendI32U => exact ⟨_, rfl, answers_i64 (by rw [toNat_widen, toNat_asI32, id])⟩
  case i64Popcnt => exact ⟨_, rfl, answers_i64 (by rw [toNat_cpop, toNat_asI64])⟩

namespace BinaryOp

/-- An outcome in words, put into a slot, is the answer on the slots the words were
read from. -/
theorem Implements.answers
    {op : BinaryOp} {meaning : BinaryMeaning}
    {outcome : Attempt InstructionExecutionError (BitVec w)} {slot : BitVec w → Value}
    (implements : op.Implements v w (a.toNat % 2 ^ v) (b.toNat % 2 ^ v) outcome)
    (stored : ∀ word, slot word = BitVec.ofNat 64 word.toNat)
    (means : op.meaning = some meaning) :
    meaning.Answers a b (outcome.map slot) := by
  obtain ⟨same, means', rfl, rfl, gives⟩ := implements
  rw [means] at means'
  cases means'
  unfold BinaryMeaning.Gives at gives
  unfold BinaryMeaning.Answers
  split
  · next value defined =>
      rw [defined] at gives
      obtain ⟨word, rfl, rfl⟩ := gives
      exact ⟨word.isLt, congrArg Except.ok (stored word)⟩
  · next undefined =>
      rw [undefined] at gives
      obtain ⟨trap, rfl⟩ := gives
      exact ⟨trap, rfl⟩

/-- Every integer operator has an arm. -/
theorem integerArm_isSome
    {op : BinaryOp} {meaning : BinaryMeaning}
    (means : op.meaning = some meaning) (a b : Value) :
    (op.integerArm a b).isSome = true := by
  cases op <;> first | rfl | cases means

/-- The arm of an operator on two words gives what the operator means. -/
theorem integerArm_answers
    {op : BinaryOp} {meaning : BinaryMeaning}
    (means : op.meaning = some meaning) (a b : Value) :
    ∃ outcome, op.integerArm a b = some outcome ∧ meaning.Answers a b outcome := by
  cases arm32 : op.i32Arm a.asI32 b.asI32 with
  | some outcome =>
      refine ⟨outcome.map Value.fromI32, by rw [integerArm, arm32]; rfl, ?_⟩
      have implemented := i32Arm_implements _ _ arm32
      rw [toNat_asI32, toNat_asI32] at implemented
      exact implemented.answers fromI32_eq means
  | none =>
      cases arm64 : op.i64Arm a.asI64 b.asI64 with
      | some outcome =>
          refine ⟨outcome.map Value.fromI64, by rw [integerArm, arm32, arm64]; rfl, ?_⟩
          have implemented := i64Arm_implements _ _ arm64
          rw [toNat_asI64, toNat_asI64] at implemented
          exact implemented.answers fromI64_eq means
      | none =>
          cases comparison : op.i64ComparisonArm a.asI64 b.asI64 with
          | some result =>
              refine ⟨.ok (.fromI32 result),
                by rw [integerArm, arm32, arm64, comparison]; rfl, ?_⟩
              have implemented := i64ComparisonArm_implements _ _ comparison
              rw [toNat_asI64, toNat_asI64] at implemented
              exact implemented.answers fromI32_eq means
          | none =>
              have present := integerArm_isSome means a b
              rw [integerArm, arm32, arm64, comparison] at present
              cases present

end BinaryOp

end Slots

end Specification

end TraceWasm
