import TraceWasm.Foundation.Integer
import TraceWasm.Wasm.Syntax

/-!
# What the integer operators mean

The widths of an operator's operands and of its result, and the integer that it
gives. An operator that is not one of integers has no meaning here.
-/

namespace TraceWasm

open Integer

/-- What an operator does to one integer. -/
structure UnaryMeaning where
  operandWidth : Nat
  resultWidth : Nat
  apply : Nat → Nat

/-- What an operator does to two integers. -/
structure BinaryMeaning where
  operandWidth : Nat
  resultWidth : Nat
  /-- Without a result the operator traps. -/
  apply : Nat → Nat → Option Nat

/-- An operator that is defined on all operands. -/
def BinaryMeaning.total (operandWidth resultWidth : Nat) (apply : Nat → Nat → Nat) :
    BinaryMeaning where
  operandWidth := operandWidth
  resultWidth := resultWidth
  apply left right := some (apply left right)

/-- A comparison, which answers in 32 bits. -/
def BinaryMeaning.comparison
    (operandWidth : Nat) (holds : Nat → Nat → Prop)
    [∀ left right, Decidable (holds left right)] : BinaryMeaning :=
  .total operandWidth 32 fun left right => bool (holds left right)

/-- A comparison of the two's-complement readings. -/
def BinaryMeaning.signedComparison
    (operandWidth : Nat) (holds : Int → Int → Prop)
    [∀ left right, Decidable (holds left right)] : BinaryMeaning :=
  .comparison operandWidth fun left right =>
    holds (signed operandWidth left) (signed operandWidth right)

/-- What the operator does, if it is one on an integer. -/
def UnaryOp.meaning : UnaryOp → Option UnaryMeaning
  | .i32Clz => some ⟨32, 32, iclz 32⟩
  | .i32Ctz => some ⟨32, 32, ictz 32⟩
  | .i32Popcnt => some ⟨32, 32, ipopcnt 32⟩
  | .i32Eqz => some ⟨32, 32, fun i => bool (i = 0)⟩
  | .i32Extend8S => some ⟨32, 32, iextendS 32 8⟩
  | .i32Extend16S => some ⟨32, 32, iextendS 32 16⟩
  | .i32WrapI64 => some ⟨64, 32, wrap 32⟩
  | .i64Clz => some ⟨64, 64, iclz 64⟩
  | .i64Ctz => some ⟨64, 64, ictz 64⟩
  | .i64Popcnt => some ⟨64, 64, ipopcnt 64⟩
  | .i64Eqz => some ⟨64, 32, fun i => bool (i = 0)⟩
  | .i64Extend8S => some ⟨64, 64, iextendS 64 8⟩
  | .i64Extend16S => some ⟨64, 64, iextendS 64 16⟩
  | .i64Extend32S => some ⟨64, 64, iextendS 64 32⟩
  | .i64ExtendI32S => some ⟨32, 64, extendS 32 64⟩
  | .i64ExtendI32U => some ⟨32, 64, id⟩
  | _ => none

/-- What the operator does, if it is one on integers. -/
def BinaryOp.meaning : BinaryOp → Option BinaryMeaning
  | .i32Add => some (.total 32 32 (iadd 32))
  | .i32Sub => some (.total 32 32 (isub 32))
  | .i32Mul => some (.total 32 32 (imul 32))
  | .i32DivS => some ⟨32, 32, idivS 32⟩
  | .i32DivU => some ⟨32, 32, idivU⟩
  | .i32RemS => some ⟨32, 32, iremS 32⟩
  | .i32RemU => some ⟨32, 32, iremU⟩
  | .i32And => some (.total 32 32 (· &&& ·))
  | .i32Or => some (.total 32 32 (· ||| ·))
  | .i32Xor => some (.total 32 32 (· ^^^ ·))
  | .i32Shl => some (.total 32 32 (ishl 32))
  | .i32ShrS => some (.total 32 32 (ishrS 32))
  | .i32ShrU => some (.total 32 32 (ishrU 32))
  | .i32Rotl => some (.total 32 32 (irotl 32))
  | .i32Rotr => some (.total 32 32 (irotr 32))
  | .i32Eq => some (.comparison 32 (· = ·))
  | .i32Ne => some (.comparison 32 (· ≠ ·))
  | .i32LtS => some (.signedComparison 32 (· < ·))
  | .i32LtU => some (.comparison 32 (· < ·))
  | .i32GtS => some (.signedComparison 32 (· > ·))
  | .i32GtU => some (.comparison 32 (· > ·))
  | .i32LeS => some (.signedComparison 32 (· ≤ ·))
  | .i32LeU => some (.comparison 32 (· ≤ ·))
  | .i32GeS => some (.signedComparison 32 (· ≥ ·))
  | .i32GeU => some (.comparison 32 (· ≥ ·))
  | .i64Add => some (.total 64 64 (iadd 64))
  | .i64Sub => some (.total 64 64 (isub 64))
  | .i64Mul => some (.total 64 64 (imul 64))
  | .i64DivS => some ⟨64, 64, idivS 64⟩
  | .i64DivU => some ⟨64, 64, idivU⟩
  | .i64RemS => some ⟨64, 64, iremS 64⟩
  | .i64RemU => some ⟨64, 64, iremU⟩
  | .i64And => some (.total 64 64 (· &&& ·))
  | .i64Or => some (.total 64 64 (· ||| ·))
  | .i64Xor => some (.total 64 64 (· ^^^ ·))
  | .i64Shl => some (.total 64 64 (ishl 64))
  | .i64ShrS => some (.total 64 64 (ishrS 64))
  | .i64ShrU => some (.total 64 64 (ishrU 64))
  | .i64Rotl => some (.total 64 64 (irotl 64))
  | .i64Rotr => some (.total 64 64 (irotr 64))
  | .i64Eq => some (.comparison 64 (· = ·))
  | .i64Ne => some (.comparison 64 (· ≠ ·))
  | .i64LtS => some (.signedComparison 64 (· < ·))
  | .i64LtU => some (.comparison 64 (· < ·))
  | .i64GtS => some (.signedComparison 64 (· > ·))
  | .i64GtU => some (.comparison 64 (· > ·))
  | .i64LeS => some (.signedComparison 64 (· ≤ ·))
  | .i64LeU => some (.comparison 64 (· ≤ ·))
  | .i64GeS => some (.signedComparison 64 (· ≥ ·))
  | .i64GeU => some (.comparison 64 (· ≥ ·))
  | _ => none

end TraceWasm
