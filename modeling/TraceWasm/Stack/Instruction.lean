import TraceWasm.Wasm.Syntax

/-!
# Stack instructions

The instructions of the stack machine keep wasm's own operand stack, so an
operator is lowered to one instruction that names no operand. A branch carries
the height its label unwinds to, counted from the frame's first operand, and
how many values it keeps.
-/

namespace TraceWasm
namespace Stack

/-- Where a branch goes and what it leaves on the operand stack. -/
structure Target where
  targetIndex : Nat
  arity : Nat
  recordedHeight : Nat
  deriving DecidableEq

/-- One lowered instruction. -/
inductive StackInstruction where
  | const (value : Const)
  | localGet (index : Nat)
  | localSet (index : Nat)
  | localTee (index : Nat)
  /-- `memarg` is the byte offset, narrowed to a word. -/
  | data (op : DataOp Nat Unit)
  | dataDrop (dataIndex : Nat)
  | nop
  | drop
  | block
  | loop
  | ifOp (elseIndex : Option Nat) (endIndex : Nat)
  | elseOp (ifEndIndex : Nat)
  | endOp (arity recordedHeight : Nat)
  | br (target : Target)
  | brIf (target : Target)
  /-- The arms are a run of the body's own array, the default last. -/
  | brTable (startIndex len : Nat)
  | returnOp (target : Target)
  | call (funcIndex paramsCount : Nat)
  | callIndirect (tyIndex tableIndex : Nat)
  | unreachable

/-- What execution reads beside the code. -/
structure StackFrameLayout where
  brTargetsArena : List Target

end Stack
end TraceWasm
