import TraceWasm.Memory.View
import TraceWasm.Runtime.Value

/-!
# Traps and traces

Why an instruction failed, and the record of frames that the failure passed
through.
-/

namespace TraceWasm

/-- Why a call through a table fails. -/
inductive CallIndirectError where
  | tableSlotOutOfBounds
  | nullElementInTable
  /-- The signature of the function in the table, and the one expected. -/
  | functionSignatureMismatch (declared expected : List ValType × List ValType)
  | functionCall (callee : FuncIndex) (error : String)
  deriving DecidableEq

/-- Why an instruction traps. -/
inductive InstructionExecutionError where
  | unreachable
  | call (callee : FuncIndex) (error : String)
  | callStackExhausted (maxDepth : Nat)
  | callIndirect (tableIndex : Nat) (error : CallIndirectError)
  | memory (error : MemoryError)
  | division (num deno : String)
  | remainder (left right : String)
  | floatToIntTruncation (operand target : String)
  deriving DecidableEq

/-- What a record of the trace of a failed call is about. -/
inductive TraceRecordKind where
  /-- A caller. `isIndirect` is the table the call went through. -/
  | call (callee : FuncIndex) (isIndirect : Option Nat)
  /-- The instruction that trapped. -/
  | nonCall (error : InstructionExecutionError)
  deriving DecidableEq

/-- One frame of a trace. -/
structure TraceRecord where
  funcIndex : FuncIndex
  instrIndex : Nat
  kind : TraceRecordKind
  instrOffset : Nat
  deriving DecidableEq

/-- A trace, innermost frame first. -/
abbrev Unwind := List TraceRecord

/-- What the caller of an exported function sees of a trap. -/
structure FuncCallError where
  /-- The function the call was made through. -/
  funcName : String
  trace : Unwind
  deriving DecidableEq

end TraceWasm
