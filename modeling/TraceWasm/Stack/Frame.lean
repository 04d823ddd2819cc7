import TraceWasm.Foundation.Run
import TraceWasm.Runtime.Value
import TraceWasm.Stack.Instruction

/-!
# The operand stack

The top is a pointer into a vector that never shrinks, so that a slot above it
keeps what was popped. The stack is shared by every activation of a call; an
activation's locals lie on it, below its operands. The pointer is as wide as an
address, but a frame keeps heights as 32-bit words.
-/

namespace TraceWasm

/-- A stack with its storage. `none` is a panic of an operation. -/
structure Stack (α : Type) where
  stack : List α
  /-- One past the top. -/
  stackPointer : Nat

namespace Stack

variable {α : Type}

/-- A stack without values. -/
def empty : Stack α where
  stack := []
  stackPointer := 0

/-- The storage reaches up to the top. -/
def Valid (s : Stack α) : Prop := s.stackPointer ≤ s.stack.length

/-- What the stack holds, the deepest value first. -/
def live (s : Stack α) : List α := s.stack.take s.stackPointer

/-- The number of values, as a 32-bit word. -/
def height (s : Stack α) : Nat := s.stackPointer % 2 ^ 32

/-- Add two heights. The sum of the words panics on overflow. -/
def addHeights (first second : Nat) : Option Nat := do
  guard (first + second < 2 ^ 32)
  return first + second

/-- Push a value, over a stale one if there is one. -/
def push (s : Stack α) (val : α) : Stack α :=
  if s.stackPointer < s.stack.length then
    ⟨s.stack.set s.stackPointer val, s.stackPointer + 1⟩
  else ⟨s.stack ++ [val], s.stackPointer + 1⟩

/-- Pop a value, which stays behind as a stale one. -/
def pop (s : Stack α) : Option (α × Stack α) :=
  match s.stackPointer with
  | 0 => none
  | sp + 1 => do
      let val ← s.stack[sp]?
      return (val, { s with stackPointer := sp })

/-- A run of the topmost values, in push order. -/
def topRun (s : Stack α) (count : Nat) : Option (List α) := do
  guard (count ≤ s.stackPointer)
  readRun s.stack (s.stackPointer - count) count

/-- The topmost values in push order, taken off. -/
def takeRun (s : Stack α) (count : Nat) : Option (List α × Stack α) := do
  let run ← s.topRun count
  return (run, { s with stackPointer := s.stackPointer - count })

/-- The value on top, which stays. -/
def tee (s : Stack α) : Option α := do
  guard (0 < s.stackPointer)
  s.stack[s.stackPointer - 1]?

/-- Unwind to a height and keep the topmost values above it. -/
def truncateByPreservingArity (s : Stack α) (newHeight arity : Nat) :
    Option (Stack α) := do
  guard (arity ≤ s.stackPointer)
  let stack ← moveRun s.stack (s.stackPointer - arity) newHeight arity
  return ⟨stack, newHeight + arity⟩

/-- Push values one after the other. -/
def pushAll (s : Stack α) (vals : List α) : Stack α := vals.foldl push s

/-- Where a frame lies. The heights are 32-bit words. -/
structure StackCallerBaseData where
  /-- The height at which the locals start. -/
  baseHeight : Nat
  /-- The height at which the operands start, once the frame is entered. -/
  calleeFrameBaseHeight : Nat

/-- What the entry function is called with: no caller's frame. -/
def StackCallerBaseData.initialData : StackCallerBaseData where
  baseHeight := 0
  calleeFrameBaseHeight := 2 ^ 32 - 1

/-- Empty the stack, keeping the storage. -/
def reset (s : Stack Value) : Stack Value := { s with stackPointer := 0 }

/-- Push the parameters of the entry function. -/
def setInitialParams (s : Stack Value) (params : List Val) : Stack Value :=
  s.pushAll (params.map Val.toValue)

/-- Take the parameters of an imported function. -/
def getParamsForImportCall (s : Stack Value) (paramsCount : Nat) :
    Option (List Value × Stack Value) :=
  s.takeRun paramsCount

/-- Push the results of an imported function. -/
def setResultsFromImportCall (s : Stack Value) (results : List Val) : Stack Value :=
  s.pushAll (results.map Val.toValue)

/-- Take the results of the entry function. -/
def getFinalResults (s : Stack Value) (resultsCount : Nat) :
    Option (List Value × Stack Value) :=
  s.takeRun resultsCount

/-- The zeros of the declared locals. -/
def zeros (localsTy : List ValType) : Option (List Value) :=
  localsTy.mapM fun ty => ((Value.zeroOfTy ty : Attempt Empty Value).toOption)

/-- Push a zero for each declared local. The arguments are already in place. -/
def enterFrame
    (s : Stack Value) (paramsCount : Nat) (localsTy : List ValType)
    (callerBaseData : StackCallerBaseData) :
    Option (Stack Value × StackCallerBaseData) := do
  guard (paramsCount ≤ localsTy.length)
  let locals ← zeros (localsTy.drop paramsCount)
  let calleeFrameBaseHeight ←
    addHeights callerBaseData.baseHeight (localsTy.length % 2 ^ 32)
  return (s.pushAll locals, { callerBaseData with calleeFrameBaseHeight })

/-- Drop the frame, leaving its results where its arguments were. -/
def exitFrame
    (s : Stack Value) (resultsCount : Nat) (callerBaseData : StackCallerBaseData) :
    Option (Stack Value) :=
  s.truncateByPreservingArity callerBaseData.baseHeight resultsCount

/-! ## What the operations do to a valid stack -/

/-- Below `2 ^ 32` values the height is exact. -/
theorem height_of_lt {s : Stack α} (fits : s.stackPointer < 2 ^ 32) :
    s.height = s.stackPointer :=
  Nat.mod_eq_of_lt fits

/-- A sum of heights that fits 32 bits. -/
theorem addHeights_of_lt {first second : Nat} (fits : first + second < 2 ^ 32) :
    addHeights first second = some (first + second) := by
  unfold addHeights
  rw [guard, if_pos fits]
  rfl

/-- A sum that does not panics. -/
theorem addHeights_of_le {first second : Nat} (overflows : 2 ^ 32 ≤ first + second) :
    addHeights first second = none := by
  unfold addHeights
  rw [guard, if_neg (Nat.not_lt.mpr overflows)]
  rfl

theorem valid_push {s : Stack α} (valid : s.Valid) (val : α) : (s.push val).Valid := by
  have bound : s.stackPointer ≤ s.stack.length := valid
  unfold push Valid
  split
  · dsimp only
    rw [List.length_set]
    omega
  · dsimp only
    rw [List.length_append, List.length_singleton]
    omega

@[simp] theorem stackPointer_push (s : Stack α) (val : α) :
    (s.push val).stackPointer = s.stackPointer + 1 := by
  unfold push
  split <;> rfl

/-- A push adds a live value. -/
theorem live_push {s : Stack α} (valid : s.Valid) (val : α) :
    (s.push val).live = s.live ++ [val] := by
  have bound : s.stackPointer ≤ s.stack.length := valid
  unfold push live
  split
  · dsimp only
    rw [List.take_succ_eq_append_getElem (by rw [List.length_set]; omega),
      List.take_set, List.set_eq_of_length_le (by rw [List.length_take]; omega),
      List.getElem_set_self]
  · have full : s.stackPointer = s.stack.length := by omega
    dsimp only
    rw [full, List.take_length, List.take_of_length_le]
    rw [List.length_append, List.length_singleton]

theorem valid_pushAll {s : Stack α} (valid : s.Valid) (vals : List α) :
    (s.pushAll vals).Valid := by
  induction vals generalizing s with
  | nil => exact valid
  | cons val vals inductionHypothesis => exact inductionHypothesis (valid_push valid val)

@[simp] theorem stackPointer_pushAll (s : Stack α) (vals : List α) :
    (s.pushAll vals).stackPointer = s.stackPointer + vals.length := by
  induction vals generalizing s with
  | nil => rfl
  | cons val vals inductionHypothesis =>
      change ((s.push val).pushAll vals).stackPointer = _
      rw [inductionHypothesis, stackPointer_push, List.length_cons]
      omega

/-- Pushes add live values in order. -/
theorem live_pushAll {s : Stack α} (valid : s.Valid) (vals : List α) :
    (s.pushAll vals).live = s.live ++ vals := by
  induction vals generalizing s with
  | nil => exact (List.append_nil _).symm
  | cons val vals inductionHypothesis =>
      change ((s.push val).pushAll vals).live = _
      rw [inductionHypothesis (valid_push valid val), live_push valid, List.append_assoc]
      rfl

theorem length_live {s : Stack α} (valid : s.Valid) : s.live.length = s.stackPointer := by
  unfold live
  rw [List.length_take]
  exact Nat.min_eq_left valid

/-- Taking values off leaves those below them. -/
theorem takeRun_of_le
    {s : Stack α} {count : Nat}
    (valid : s.Valid) (enough : count ≤ s.stackPointer) :
    s.takeRun count =
      some (s.live.drop (s.stackPointer - count),
        { s with stackPointer := s.stackPointer - count }) := by
  have bound : s.stackPointer ≤ s.stack.length := valid
  have run : readRun s.stack (s.stackPointer - count) count =
      some (s.live.drop (s.stackPointer - count)) := by
    rw [readRun_of_le (by omega), live, List.drop_take]
    congr 2
    omega
  unfold takeRun topRun
  rw [guard, if_pos enough, run]
  rfl

end Stack
end TraceWasm
