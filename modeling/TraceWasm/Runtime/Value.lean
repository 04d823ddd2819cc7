import TraceWasm.Foundation.Fault
import TraceWasm.Wasm.Syntax
import Mathlib.Data.BitVec

/-!
# Values

A value at the boundary carries its type. In a frame it is a bare word, and it
is read back with the type that the validated code gives it.
-/

namespace TraceWasm

/-- The index of a function. -/
abbrev FuncIndex := BitVec 32

/-- A value with its type. A float is its bit pattern. -/
inductive Val where
  | i32 (value : BitVec 32)
  | i64 (value : BitVec 64)
  | f32 (bits : BitVec 32)
  | f64 (bits : BitVec 64)
  | ref (func : Option FuncIndex)
  deriving DecidableEq

/-- One slot of a frame. -/
abbrev Value := BitVec 64

namespace Value

/-- The position of the bit that tells a reference from a null one. -/
def tagShift : Nat := 56

/-- The bit that tells a reference to a function from the null reference. -/
def tagSome : Value := 1 <<< tagShift

/-- An `i32` leaves the upper half zero. -/
def fromI32 (val : BitVec 32) : Value := val.setWidth 64

/-- An `i64` fills the word. -/
def fromI64 (val : BitVec 64) : Value := val

/-- An `f32` leaves the upper half zero. -/
def fromF32 (bits : BitVec 32) : Value := bits.setWidth 64

/-- An `f64` fills the word. -/
def fromF64 (bits : BitVec 64) : Value := bits

/-- A reference is the index with a tag, and the null reference is zero. -/
def fromRef : Option FuncIndex → Value
  | some func => tagSome ||| func.setWidth 64
  | none => 0

/-- Read the word as an `i32`, whatever its upper half. -/
def asI32 (value : Value) : BitVec 32 := value.setWidth 32

/-- Read the word as an `i64`. -/
def asI64 (value : Value) : BitVec 64 := value

/-- Read the word as an `f32`, whatever its upper half. -/
def asF32 (value : Value) : BitVec 32 := value.setWidth 32

/-- Read the word as an `f64`. -/
def asF64 (value : Value) : BitVec 64 := value

/-- Any bit from the tag on makes a reference. -/
def asRef (value : Value) : Option FuncIndex :=
  if value >>> tagShift ≠ 0 then some (value.setWidth 32) else none

/-- What a declared local of the type starts as. -/
def zeroOfTy : ValType → Attempt ε Value
  | .i32 => return fromI32 0
  | .i64 => return fromI64 0
  | .f32 => return fromF32 0
  | .f64 => return fromF64 0
  | .ref _ => return fromI32 0
  | .v128 => Attempt.panicked

/-- Give the slot back the type it was written with. -/
def intoVal (value : Value) : ValType → Attempt ε Val
  | .i32 => return .i32 value.asI32
  | .i64 => return .i64 value.asI64
  | .f32 => return .f32 value.asF32
  | .f64 => return .f64 value.asF64
  | .ref _ => return .ref value.asRef
  | .v128 => Attempt.panicked

end Value

/-- The word of an immediate. -/
def Const.toValue : Const → Value
  | .i32 value => .fromI32 value
  | .i64 value => .fromI64 value
  | .f32 bits => .fromF32 bits
  | .f64 bits => .fromF64 bits
  | .ref func => .fromRef (func.map (BitVec.ofNat 32))

namespace Val

/-- Drop the type, keeping the bits. -/
def toValue : Val → Value
  | .i32 value => .fromI32 value
  | .i64 value => .fromI64 value
  | .f32 bits => .fromF32 bits
  | .f64 bits => .fromF64 bits
  | .ref func => .fromRef func

/-- The `i32` that the value is. -/
def asI32 : Val → Attempt ε (BitVec 32)
  | .i32 value => .ok value
  | _ => Attempt.panicked

/-- The `i64` that the value is. -/
def asI64 : Val → Attempt ε (BitVec 64)
  | .i64 value => .ok value
  | _ => Attempt.panicked

/-- The reference that the value is. -/
def asRef : Val → Attempt ε (Option FuncIndex)
  | .ref func => .ok func
  | _ => Attempt.panicked

/-- The value's variant is the one of the type. A reference type is not looked
into further. -/
inductive HasTy : Val → ValType → Prop where
  | i32 : HasTy (.i32 value) .i32
  | i64 : HasTy (.i64 value) .i64
  | f32 : HasTy (.f32 bits) .f32
  | f64 : HasTy (.f64 bits) .f64
  | ref : HasTy (.ref func) (.ref ty)

/-- `has_ty`. There is no value of a vector type, and the question whether one
has it is an error. -/
def hasTy (val : Val) : ValType → Option Bool
  | .i32 => some (val matches .i32 _)
  | .i64 => some (val matches .i64 _)
  | .f32 => some (val matches .f32 _)
  | .f64 => some (val matches .f64 _)
  | .ref _ => some (val matches .ref _)
  | .v128 => none

theorem hasTy_eq_some_true
    {val : Val} {ty : ValType} :
    val.hasTy ty = some true ↔ val.HasTy ty := by
  constructor
  · intro answer
    cases ty <;> cases val <;> first | constructor | cases answer
  · intro typed
    cases typed <;> rfl

end Val

namespace Value

theorem asRef_fromRef (func : Option FuncIndex) : (fromRef func).asRef = func := by
  cases func with
  | none => rfl
  | some func =>
      have tagged : (tagSome ||| func.setWidth 64) >>> tagShift ≠ 0 := by
        unfold tagSome tagShift
        intro none
        have bit : ((1#64 <<< 56 ||| func.setWidth 64) >>> 56).getLsbD 0 = false := by
          rw [show ((1#64 <<< 56 ||| func.setWidth 64) >>> 56) = 0 from none]
          rfl
        simp at bit
      have low : (tagSome ||| func.setWidth 64).setWidth 32 = func := by
        unfold tagSome tagShift
        ext index inside
        simp
      unfold fromRef asRef
      rw [if_pos tagged, low]

/-- A value that is stored and read back with its own type is unchanged. -/
theorem intoVal_toValue
    {val : Val} {ty : ValType}
    (typed : val.HasTy ty) :
    (val.toValue.intoVal ty : Attempt ε Val) = .ok val := by
  cases typed with
  | i32 =>
      change (Except.ok (Val.i32 _) : Attempt ε Val) = _
      rw [asI32, Val.toValue, fromI32, BitVec.setWidth_setWidth_of_le _ (by omega),
        BitVec.setWidth_eq]
  | i64 => rfl
  | f32 =>
      change (Except.ok (Val.f32 _) : Attempt ε Val) = _
      rw [asF32, Val.toValue, fromF32, BitVec.setWidth_setWidth_of_le _ (by omega),
        BitVec.setWidth_eq]
  | f64 => rfl
  | ref =>
      change (Except.ok (Val.ref _) : Attempt ε Val) = _
      rw [Val.toValue, asRef_fromRef]

/-- What a slot is read back as has the type it is read with. -/
theorem hasTy_of_intoVal
    {value : Value} {ty : ValType} {val : Val}
    (read : (value.intoVal ty : Attempt ε Val) = .ok val) :
    val.HasTy ty := by
  cases ty <;> cases read <;> constructor

end Value

end TraceWasm
