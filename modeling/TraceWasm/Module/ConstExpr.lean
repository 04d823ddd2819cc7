import TraceWasm.Module.Sections
import TraceWasm.Stack.Frame

/-!
# Constant expressions

Initializers run on a small stack of typed values at instantiation. An
instruction that no constant expression has is a panic.
-/

namespace TraceWasm

open Stack (StackInstruction)

namespace ConstExpr

/-- The value of an immediate. -/
def constVal : Const → Val
  | .i32 value => .i32 value
  | .i64 value => .i64 value
  | .f32 bits => .f32 bits
  | .f64 bits => .f64 bits
  | .ref func => .ref (func.map (BitVec.ofNat 32))

/-- Pop the right operand, then the left one, and push the result. -/
def i32Binary
    (op : BitVec 32 → BitVec 32 → BitVec 32) (stack : Stack Val) :
    Attempt ε (Stack Val) := do
  let (right, stack) ← .orPanic stack.pop
  let right ← right.asI32
  let (left, stack) ← .orPanic stack.pop
  let left ← left.asI32
  return stack.push (.i32 (op left right))

/-- Apply an operation to the two topmost `i64`s, the topmost being the right one. -/
def i64Binary
    (op : BitVec 64 → BitVec 64 → BitVec 64) (stack : Stack Val) :
    Attempt ε (Stack Val) := do
  let (right, stack) ← .orPanic stack.pop
  let right ← right.asI64
  let (left, stack) ← .orPanic stack.pop
  let left ← left.asI64
  return stack.push (.i64 (op left right))

/-- One instruction of an initializer. -/
def evalInstruction (globals : List Val) (stack : Stack Val) :
    StackInstruction → Attempt ε (Stack Val)
  | .const value => return stack.push (constVal value)
  | .data (.globalGet index) => do
      let global ← .orPanic globals[index]?
      return stack.push global
  | .data (.binary .i32Add) => i32Binary (· + ·) stack
  | .data (.binary .i32Sub) => i32Binary (· - ·) stack
  | .data (.binary .i32Mul) => i32Binary (· * ·) stack
  | .data (.binary .i64Add) => i64Binary (· + ·) stack
  | .data (.binary .i64Sub) => i64Binary (· - ·) stack
  | .data (.binary .i64Mul) => i64Binary (· * ·) stack
  | .endOp _ _ => return stack
  | _ => Attempt.panicked

/-- `TraceVM::const_expr_evaluator`. -/
def evaluate (init : ConstExpr) (globals : List Val) : Attempt ε Val := do
  let stack ← init.foldlM (evalInstruction globals) Stack.empty
  let (val, _) ← .orPanic stack.pop
  return val

end ConstExpr

end TraceWasm
