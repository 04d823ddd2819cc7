import Mathlib.Data.List.Forall2
import Mathlib.Data.Nat.Find
import Mathlib.Order.Monotone.Basic
import TraceWasm.Wasm.Nesting

/-!
# Jumps that follow the structure of a body

What both machines' instructions do to the program counter, and where the
structure of the body wants it to go. An operator that is lowered becomes a run
of instructions, the last of which is the operator's own.
-/

namespace TraceWasm

open Nesting (BranchesTo ElseAt EndsAt)

/-- What an instruction does to the program counter. -/
inductive Control where
  | plain
  | loop
  | endOp
  | branch (target : Nat)
  | table (arms : List Nat)
  | returnOp (target : Nat)
  | ifOp (elseIndex : Option Nat) (endIndex : Nat)
  | elseOp (endIndex : Nat)
  deriving DecidableEq

/-- The indices the instruction may jump to. A false `if` enters its `else` arm
behind the `else` itself. -/
def Control.targets : Control → List Nat
  | .plain => []
  | .loop => []
  | .endOp => []
  | .branch target => [target]
  | .table arms => arms
  | .returnOp target => [target]
  | .ifOp (some elseIndex) _ => [elseIndex + 1]
  | .ifOp none endIndex => [endIndex]
  | .elseOp endIndex => [endIndex]

/-- Lowering the operator gives it an instruction of its own, whatever else. -/
def Operator.steers : Operator → Bool
  | .loop _ => true
  | .ifOp _ => true
  | .elseOp => true
  | .endOp => true
  | .br _ => true
  | .brIf _ => true
  | .brTable _ _ => true
  | .returnOp => true
  | _ => false

section Prescription

variable (ops : List Operator) (starts : Nat → Nat)

/-- The operator at the position has its own instruction at the index, when the
run of the operator at a position begins where `starts` says. -/
def OwnIndex (position index : Nat) : Prop :=
  starts position ≤ index ∧ index + 1 = starts (position + 1)

/-- The index that a branch at the position goes to. -/
def BranchIndex (position relativeDepth index : Nat) : Prop :=
  ∃ target, BranchesTo ops position relativeDepth target ∧ OwnIndex starts target index

/-- The index of the construct's `end`. -/
def EndIndex (opener : Option Nat) (index : Nat) : Prop :=
  ∃ last, EndsAt ops opener last ∧ OwnIndex starts last index

/-- The index of the construct's `else`, if it has one. -/
def ElseIndex (opener : Option Nat) : Option Nat → Prop
  | none => ∀ position, ¬ElseAt ops opener position
  | some index => ∃ position, ElseAt ops opener position ∧ OwnIndex starts position index

/-- What the structure of the body wants of the instruction of an operator. -/
def Operator.Prescribes (position : Nat) (control : Control) : Operator → Prop
  | .loop _ => control = .loop
  | .endOp => control = .endOp
  | .br relativeDepth => ∃ index, BranchIndex ops starts position relativeDepth index ∧
      control = .branch index
  | .brIf relativeDepth => ∃ index, BranchIndex ops starts position relativeDepth index ∧
      control = .branch index
  | .brTable targets default => ∃ arms,
      List.Forall₂ (BranchIndex ops starts position) (targets ++ [default]) arms ∧
      control = .table arms
  | .returnOp => ∃ index, EndIndex ops starts none index ∧ control = .returnOp index
  | .ifOp _ => ∃ elseIndex endIndex, ElseIndex ops starts (some position) elseIndex ∧
      EndIndex ops starts (some position) endIndex ∧ control = .ifOp elseIndex endIndex
  | .elseOp => ∃ opener index, ElseAt ops opener position ∧
      EndIndex ops starts opener index ∧ control = .elseOp index
  | _ => control = .plain

end Prescription

/-- The instructions of the operators that are lowered follow the structure of the
body. -/
structure Structured
    (ops : List Operator) (lowered : Nat → Prop) (starts : Nat → Nat)
    (code : List Control) : Prop where
  first : starts 0 = 0
  last : starts ops.length = code.length
  next : ∀ position, starts position ≤ starts (position + 1)
  skipped : ∀ position, ¬lowered position → starts (position + 1) = starts position
  steers : ∀ position op, ops[position]? = some op → lowered position →
    op.steers = true → starts position < starts (position + 1)
  own : ∀ position op index control, ops[position]? = some op →
    OwnIndex starts position index → code[index]? = some control →
      op.Prescribes ops starts position control
  /-- What comes ahead of the own instruction goes on to the next one. -/
  ahead : ∀ position index, starts position ≤ index → index + 1 < starts (position + 1) →
    code[index]? = some .plain

/-- Every instruction has the byte offset of the operator in whose run it is. -/
structure OffsetsParallel
    (located : List (Operator × Nat)) (starts : Nat → Nat)
    (code : List Control) (offsets : List Nat) : Prop where
  length : offsets.length = code.length
  offset : ∀ position op offset index, located[position]? = some (op, offset) →
    starts position ≤ index → index < starts (position + 1) →
    offsets[index]? = some (offset % 2 ^ 32)

namespace Structured

variable {ops : List Operator} {lowered : Nat → Prop} {starts : Nat → Nat}
  {code : List Control}

/-- Later operators start at later instructions. -/
theorem starts_le
    (structured : Structured ops lowered starts code)
    {position later : Nat}
    (le : position ≤ later) :
    starts position ≤ starts later :=
  monotone_nat_of_le_succ structured.next le

/-- Every instruction is in the run of one operator. -/
theorem exists_position
    (structured : Structured ops lowered starts code)
    {index : Nat}
    (inside : index < code.length) :
    ∃ position op, ops[position]? = some op ∧ starts position ≤ index ∧
      index < starts (position + 1) := by
  have reached : ∃ position, index < starts position := by
    refine ⟨ops.length, ?_⟩
    rw [structured.last]
    exact inside
  have above := Nat.find_spec reached
  cases isFirst : Nat.find reached with
  | zero =>
      rw [isFirst, structured.first] at above
      cases above
  | succ position =>
      rw [isFirst] at above
      have notYet : ¬index < starts position :=
        Nat.find_min reached (by omega)
      have bounded : Nat.find reached ≤ ops.length :=
        Nat.find_min' reached (by rw [structured.last]; exact inside)
      have isOperator : position < ops.length := by omega
      exact ⟨position, ops[position], List.getElem?_eq_getElem isOperator,
        Nat.not_lt.mp notYet, above⟩

/-- An operator's own instruction is in the code. -/
theorem own_lt
    (structured : Structured ops lowered starts code)
    {position index : Nat}
    (inside : position < ops.length)
    (own : OwnIndex starts position index) :
    index < code.length := by
  have := structured.starts_le (show position + 1 ≤ ops.length from inside)
  have := structured.last
  have := own.2
  omega

/-- A branch goes to an instruction of the code. -/
theorem branchIndex_lt
    (structured : Structured ops lowered starts code)
    {position relativeDepth index : Nat}
    (branch : BranchIndex ops starts position relativeDepth index) :
    index < code.length := by
  obtain ⟨target, ⟨construct, _, leads⟩, own⟩ := branch
  refine structured.own_lt ?_ own
  rcases leads with ⟨⟨loopAt, blockty, isOpener, isLoop⟩, same⟩ | ⟨_, isEnd, _⟩
  · rw [isOpener] at same
    cases same
    exact (List.getElem?_eq_some_iff.mp isLoop).1
  · exact (List.getElem?_eq_some_iff.mp isEnd).1

/-- A construct ends at an instruction of the code. -/
theorem endIndex_lt
    (structured : Structured ops lowered starts code)
    {opener : Option Nat} {index : Nat}
    (ends : EndIndex ops starts opener index) :
    index < code.length := by
  obtain ⟨last, ⟨isEnd, _⟩, own⟩ := ends
  exact structured.own_lt (List.getElem?_eq_some_iff.mp isEnd).1 own

/-- The `else` comes before the `end`, so its arm is in the code. -/
theorem elseIndex_succ_lt
    (structured : Structured ops lowered starts code)
    {opener : Option Nat} {elseIndex endIndex : Nat}
    (ends : EndIndex ops starts opener endIndex)
    (isElse : ElseIndex ops starts opener (some elseIndex)) :
    elseIndex + 1 < code.length := by
  have endLt := structured.endIndex_lt ends
  obtain ⟨last, endsAt, ownEnd⟩ := ends
  obtain ⟨elseAt, isElseAt, ownElse⟩ := isElse
  have before := isElseAt.lt_end endsAt
  have := structured.starts_le (show elseAt + 1 ≤ last from before)
  have := ownElse.2
  have := ownEnd.1
  have := ownEnd.2
  omega

/-- Every jump stays in the code. -/
theorem target_lt
    (structured : Structured ops lowered starts code)
    {control : Control} {target : Nat}
    (member : control ∈ code) (isTarget : target ∈ control.targets) :
    target < code.length := by
  obtain ⟨index, inside, isControl⟩ := List.getElem_of_mem member
  have found : code[index]? = some control := List.getElem?_eq_some_iff.mpr ⟨inside, isControl⟩
  obtain ⟨position, op, isOp, start, below⟩ := structured.exists_position inside
  rcases Nat.lt_or_ge (index + 1) (starts (position + 1)) with notOwn | isOwn
  · rw [structured.ahead position index start notOwn] at found
    cases found
    simp [Control.targets] at isTarget
  have prescribed := structured.own position op index control isOp ⟨start, by omega⟩ found
  cases op with
  | br relativeDepth =>
      obtain ⟨destination, branch, rfl⟩ := prescribed
      simp only [Control.targets, List.mem_singleton] at isTarget
      exact isTarget ▸ structured.branchIndex_lt branch
  | brIf relativeDepth =>
      obtain ⟨destination, branch, rfl⟩ := prescribed
      simp only [Control.targets, List.mem_singleton] at isTarget
      exact isTarget ▸ structured.branchIndex_lt branch
  | brTable targets default =>
      obtain ⟨arms, branches, rfl⟩ := prescribed
      obtain ⟨arm, armLt, rfl⟩ := List.getElem_of_mem isTarget
      obtain ⟨length, related⟩ := List.forall₂_iff_get.mp branches
      exact structured.branchIndex_lt (related arm (length ▸ armLt) armLt)
  | returnOp =>
      obtain ⟨destination, ends, rfl⟩ := prescribed
      simp only [Control.targets, List.mem_singleton] at isTarget
      exact isTarget ▸ structured.endIndex_lt ends
  | ifOp blockty =>
      obtain ⟨elseIndex, endIndex, isElse, ends, rfl⟩ := prescribed
      cases elseIndex with
      | none =>
          simp only [Control.targets, List.mem_singleton] at isTarget
          exact isTarget ▸ structured.endIndex_lt ends
      | some elseIndex =>
          simp only [Control.targets, List.mem_singleton] at isTarget
          exact isTarget ▸ structured.elseIndex_succ_lt ends isElse
  | elseOp =>
      obtain ⟨opener, endIndex, _, ends, rfl⟩ := prescribed
      simp only [Control.targets, List.mem_singleton] at isTarget
      exact isTarget ▸ structured.endIndex_lt ends
  | _ =>
      simp only [Operator.Prescribes] at prescribed
      subst prescribed
      simp [Control.targets] at isTarget

end Structured

end TraceWasm
