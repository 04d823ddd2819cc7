import Mathlib.Data.List.Basic
import Mathlib.Tactic.Common

/-!
# LLVM types

A type is a tree. The builder interns types and compares their ids, which is
comparing the trees: one pool holds no type twice.
-/

namespace TraceWasm
namespace Llvm

/-- The types of the language. -/
inductive Ty where
  | i1 | i8 | i16 | i32 | i64
  | half | bfloat | float | double
  | ptr
  | array (size : Nat) (element : Ty)
  | struct (fields : List Ty) (packed : Bool)
  | func (params : List Ty) (result : Ty)
  | void

namespace Ty

/-! ## Equality -/

mutual

/-- Two types are equal. -/
def same : Ty → Ty → Bool
  | .array n a, .array m b => n == m && a.same b
  | .struct as p, .struct bs q => sameAll as bs && p == q
  | .func as a, .func bs b => sameAll as bs && a.same b
  | .i1, .i1 | .i8, .i8 | .i16, .i16 | .i32, .i32 | .i64, .i64 | .half, .half
  | .bfloat, .bfloat | .float, .float | .double, .double | .ptr, .ptr | .void, .void => true
  | _, _ => false

/-- Two lists of types are equal. -/
def sameAll : List Ty → List Ty → Bool
  | [], [] => true
  | a :: as, b :: bs => a.same b && sameAll as bs
  | _, _ => false

end

mutual

/-- The comparison of types is exact. -/
theorem same_iff : (a b : Ty) → (a.same b = true ↔ a = b)
  | .array _ a, b => by cases b <;> simp [same, same_iff a]
  | .struct as _, b => by cases b <;> simp [same, sameAll_iff as]
  | .func as a, b => by cases b <;> simp [same, sameAll_iff as, same_iff a]
  | .i1, b | .i8, b | .i16, b | .i32, b | .i64, b | .half, b | .bfloat, b | .float, b
  | .double, b | .ptr, b | .void, b => by cases b <;> simp [same]

theorem sameAll_iff : (as bs : List Ty) → (sameAll as bs = true ↔ as = bs)
  | [], bs => by cases bs <;> simp [sameAll]
  | a :: as, bs => by cases bs <;> simp [sameAll, same_iff a, sameAll_iff as]

end

instance : DecidableEq Ty := fun a b => decidable_of_iff _ (same_iff a b)

/-! ## Families -/

/-- Whether the type has a size. Only `void` and the function types have none. -/
def isFirstClass : Ty → Bool
  | .void | .func _ _ => false
  | _ => true

/-- The type is one of integers. -/
def isInteger : Ty → Bool
  | .i1 | .i8 | .i16 | .i32 | .i64 => true
  | _ => false

/-- The type is one of floating-point numbers. -/
def isFloat : Ty → Bool
  | .half | .bfloat | .float | .double => true
  | _ => false

/-- How many bits the type occupies, where that is a fixed number. -/
def width : Ty → Option Nat
  | .i1 => some 1
  | .i8 => some 8
  | .i16 => some 16
  | .i32 => some 32
  | .i64 => some 64
  | .half => some 16
  | .bfloat => some 16
  | .float => some 32
  | .double => some 64
  | .ptr | .array _ _ | .struct _ _ | .func _ _ | .void => none

end Ty

end Llvm
end TraceWasm
