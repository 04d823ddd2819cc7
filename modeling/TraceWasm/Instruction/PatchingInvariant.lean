import Mathlib.Data.List.Zip
import TraceWasm.Instruction.Patching

/-!
# Back-patching follows the structure of a body

Between two operators every branch emitted so far either goes where the structure
of the body wants it or is remembered by the open label it belongs to, and an open
label remembers nothing else. Each step keeps this; at the end of a body no label is
open.
-/

namespace TraceWasm

open Nesting (ElseAt EndsAt IsLoop LeadsTo OneElse openAt)

/-- The open constructs, each with its label. -/
abbrev OpenLabels := List (Construct × Label)

section Invariant

variable (ops : List Operator) (starts : Nat → Nat)

/-- The construct is open. -/
def IsOpen (opened : OpenLabels) (opener : Option Nat) : Prop :=
  ∃ pair ∈ opened, pair.1.opener = opener

/-- The construct's label remembers such a branch. -/
def Pending (opened : OpenLabels) (opener : Option Nat) (isKey : Nat × Nat → Prop) : Prop :=
  ∃ pair ∈ opened, pair.1.opener = opener ∧ ∃ key ∈ pair.2.keys, isKey key

/-- A branch to the construct has its target, or the construct's label remembers
it. -/
def Settles
    (opened : OpenLabels) (opener : Option Nat) (isKey : Nat × Nat → Prop) (index : Nat) :
    Prop :=
  (∃ target, LeadsTo ops opener target ∧ OwnIndex starts target index) ∨
    Pending opened opener isKey

/-- The own instruction of an operator is as the structure of the body wants it, but
for what open labels remember. -/
def Operator.Steered
    (opened : OpenLabels) (position index : Nat) (control : Control) : Operator → Prop
  | .loop _ => control = .loop
  | .endOp => control = .endOp
  | .br relativeDepth => ∃ construct target,
      (openAt ops position)[relativeDepth]? = some construct ∧
      Settles ops starts opened construct.opener (fun key => key.1 = index) target ∧
      control = .branch target
  | .brIf relativeDepth => ∃ construct target,
      (openAt ops position)[relativeDepth]? = some construct ∧
      Settles ops starts opened construct.opener (fun key => key.1 = index) target ∧
      control = .branch target
  | .brTable targets default => ∃ arms, arms.length = (targets ++ [default]).length ∧
      (∀ arm relativeDepth target, (targets ++ [default])[arm]? = some relativeDepth →
        arms[arm]? = some target → ∃ construct,
          (openAt ops position)[relativeDepth]? = some construct ∧
          Settles ops starts opened construct.opener (· = (index, arm)) target) ∧
      control = .table arms
  | .returnOp => ∃ target,
      Settles ops starts opened none (fun key => key.1 = index) target ∧
      control = .returnOp target
  | .ifOp _ => ∃ elseIndex endIndex,
      (IsOpen opened (some position) ∨ ElseIndex ops starts (some position) elseIndex ∧
        EndIndex ops starts (some position) endIndex) ∧
      control = .ifOp elseIndex endIndex
  | .elseOp => ∃ opener endIndex, ElseAt ops opener position ∧
      (IsOpen opened opener ∨ EndIndex ops starts opener endIndex) ∧
      control = .elseOp endIndex
  | _ => control = .plain

/-- The arm of the operator is a branch to the construct. -/
def Operator.ArmTo
    (position : Nat) (opener : Option Nat) (arm : Nat) : Operator → Prop
  | .br relativeDepth => ∃ construct,
      (openAt ops position)[relativeDepth]? = some construct ∧ construct.opener = opener
  | .brIf relativeDepth => ∃ construct,
      (openAt ops position)[relativeDepth]? = some construct ∧ construct.opener = opener
  | .brTable targets default => ∃ relativeDepth construct,
      (targets ++ [default])[arm]? = some relativeDepth ∧
      (openAt ops position)[relativeDepth]? = some construct ∧ construct.opener = opener
  | .returnOp => opener = none
  | _ => False

/-- What a label remembers is a branch to its construct. -/
def KeyOf (key : Nat × Nat) (opener : Option Nat) : Prop :=
  ¬IsLoop ops opener ∧ ∃ position op, ops[position]? = some op ∧
    OwnIndex starts position key.1 ∧ op.ArmTo ops position opener key.2

/-- The label is of the construct's kind and knows its instructions. -/
def LabelFor (construct : Construct) (kind : BlockKind) : Prop :=
  match construct.opener with
  | none => kind = .func ∧ construct.elseAt = none
  | some position =>
      match ops[position]? with
      | some (.block _) => kind = .block ∧ construct.elseAt = none
      | some (.loop _) => construct.elseAt = none ∧ ∃ index,
          OwnIndex starts position index ∧ kind = .loop index
      | some (.ifOp _) => ∃ index elseIndex, OwnIndex starts position index ∧
          Option.Rel (OwnIndex starts) construct.elseAt elseIndex ∧
          kind = .ifOp index elseIndex
      | _ => False

/-- What holds between two operators. -/
structure PatchInvariant (nesting : List Construct) (position : Nat) (p : Patching) :
    Prop where
  length : p.code.length = starts position
  labels : List.Forall₂ (fun construct label => LabelFor ops starts construct label.kind)
    nesting p.labels
  keys : ∀ pair ∈ nesting.zip p.labels, ∀ key ∈ pair.2.keys,
    KeyOf ops starts key pair.1.opener
  own : ∀ earlier < position, ∀ op, ops[earlier]? = some op →
    ∀ index, OwnIndex starts earlier index → ∃ control, p.code[index]? = some control ∧
      op.Steered ops starts (nesting.zip p.labels) earlier index control
  ahead : ∀ earlier < position, ∀ index, starts earlier ≤ index →
    index + 1 < starts (earlier + 1) → p.code[index]? = some .plain

end Invariant

section Labels

variable {ops : List Operator} {starts : Nat → Nat}
  {nesting : List Construct} {labels : List Label}

/-- An open construct stands beside its label. -/
theorem mem_zip_iff {construct : Construct} {label : Label} :
    (construct, label) ∈ nesting.zip labels ↔
      ∃ depth : Nat, nesting[depth]? = some construct ∧ labels[depth]? = some label := by
  rw [List.mem_iff_getElem?]
  simp [List.getElem?_zip_eq_some]

/-- What is open stays open and is remembered. -/
def Extends (opened opened' : OpenLabels) : Prop :=
  ∀ pair ∈ opened, ∃ pair' ∈ opened', pair'.1.opener = pair.1.opener ∧
    pair.2.keys ⊆ pair'.2.keys

variable {opened opened' opened'' : OpenLabels}

theorem Extends.refl (opened : OpenLabels) : Extends opened opened :=
  fun pair member => ⟨pair, member, rfl, List.Subset.refl _⟩

theorem Extends.trans
    (first : Extends opened opened') (second : Extends opened' opened'') :
    Extends opened opened'' := by
  intro pair member
  obtain ⟨pair', member', same, kept⟩ := first pair member
  obtain ⟨pair'', member'', same', kept'⟩ := second pair' member'
  exact ⟨pair'', member'', same'.trans same, List.Subset.trans kept kept'⟩

theorem Extends.cons (pair : Construct × Label) (opened : OpenLabels) :
    Extends opened (pair :: opened) :=
  fun other member => ⟨other, List.mem_cons_of_mem _ member, rfl, List.Subset.refl _⟩

/-- A construct stays open while labels remember more. -/
theorem IsOpen.mono
    (isOpen : IsOpen opened opener) (extended : Extends opened opened') :
    IsOpen opened' opener := by
  obtain ⟨pair, member, same⟩ := isOpen
  obtain ⟨pair', member', same', _⟩ := extended pair member
  exact ⟨pair', member', same'.trans same⟩

/-- A branch goes on to settle while labels remember more. -/
theorem Settles.mono
    (settles : Settles ops starts opened opener isKey index)
    (extended : Extends opened opened') :
    Settles ops starts opened' opener isKey index := by
  rcases settles with resolved | ⟨pair, member, same, key, isMember, holds⟩
  · exact .inl resolved
  · obtain ⟨pair', member', same', kept⟩ := extended pair member
    exact .inr ⟨pair', member', same'.trans same, key, kept isMember, holds⟩

/-- An instruction stays as it should be while labels remember more. -/
theorem Operator.Steered.mono
    {op : Operator} {position index : Nat} {control : Control}
    (steered : op.Steered ops starts opened position index control)
    (extended : Extends opened opened') :
    op.Steered ops starts opened' position index control := by
  cases op with
  | br relativeDepth =>
      obtain ⟨construct, target, found, settles, same⟩ := steered
      exact ⟨construct, target, found, settles.mono extended, same⟩
  | brIf relativeDepth =>
      obtain ⟨construct, target, found, settles, same⟩ := steered
      exact ⟨construct, target, found, settles.mono extended, same⟩
  | brTable targets default =>
      obtain ⟨arms, length, settle, same⟩ := steered
      refine ⟨arms, length, fun arm relativeDepth target isArm isTarget => ?_, same⟩
      obtain ⟨construct, found, settles⟩ := settle arm relativeDepth target isArm isTarget
      exact ⟨construct, found, settles.mono extended⟩
  | returnOp =>
      obtain ⟨target, settles, same⟩ := steered
      exact ⟨target, settles.mono extended, same⟩
  | ifOp blockty =>
      obtain ⟨elseIndex, endIndex, state, same⟩ := steered
      exact ⟨elseIndex, endIndex, state.imp_left (·.mono extended), same⟩
  | elseOp =>
      obtain ⟨opener, endIndex, isElse, state, same⟩ := steered
      exact ⟨opener, endIndex, isElse, state.imp_left (·.mono extended), same⟩
  | _ => exact steered

/-! ## Attaching a branch -/

/-- A change that keeps a relation keeps it along the lists. -/
theorem forall₂_modify
    {relation : α → β → Prop} {change : β → β}
    (related : List.Forall₂ relation left right)
    (kept : ∀ a b, relation a b → relation a (change b)) (position : Nat) :
    List.Forall₂ relation left (right.modify position change) := by
  induction related generalizing position with
  | nil => cases position <;> exact .nil
  | cons head tail inductionHypothesis =>
      cases position with
      | zero => exact .cons (kept _ _ head) tail
      | succ position => exact .cons head (inductionHypothesis position)

/-- A loop's label knows where it starts; no other label is one of a loop. -/
theorem LabelFor.isLoop
    {construct : Construct} {kind : BlockKind}
    (labelFor : LabelFor ops starts construct kind) :
    match kind.isLoop with
    | some index => ∃ position, IsLoop ops construct.opener ∧
        construct.opener = some position ∧ OwnIndex starts position index
    | none => ¬IsLoop ops construct.opener := by
  unfold LabelFor at labelFor
  cases isOpener : construct.opener with
  | none =>
      rw [isOpener] at labelFor
      rw [labelFor.1]
      rintro ⟨_, _, same, _⟩
      cases same
  | some position =>
      rw [isOpener] at labelFor
      dsimp only at labelFor
      have notLoop : (∀ blockty, ops[position]? ≠ some (.loop blockty)) →
          ¬IsLoop ops (some position) := by
        rintro differs ⟨_, blockty, same, isLoop⟩
        cases same
        exact differs blockty isLoop
      cases found : ops[position]? with
      | none => simp [found] at labelFor
      | some op =>
          cases op with
          | block blockty =>
              rw [found] at labelFor
              rw [labelFor.1]
              exact notLoop (by simp [found])
          | loop blockty =>
              rw [found] at labelFor
              obtain ⟨_, index, own, same⟩ := labelFor
              rw [same]
              exact ⟨position, ⟨position, blockty, rfl, found⟩, rfl, own⟩
          | ifOp blockty =>
              rw [found] at labelFor
              obtain ⟨index, elseIndex, _, _, same⟩ := labelFor
              rw [same]
              exact notLoop (by simp [found])
          | _ => simp [found] at labelFor

/-- Every label is one of the construct at its depth. -/
abbrev LabelsFor
    (ops : List Operator) (starts : Nat → Nat) (nesting : List Construct)
    (labels : List Label) : Prop :=
  List.Forall₂ (fun construct label => LabelFor ops starts construct label.kind) nesting labels

/-- A label is that of the construct at its depth. -/
theorem LabelsFor.at
    {depth : Nat} {label : Label}
    (labelsFor : LabelsFor ops starts nesting labels)
    (found : labels[depth]? = some label) :
    ∃ construct, nesting[depth]? = some construct ∧
      LabelFor ops starts construct label.kind := by
  obtain ⟨below, same⟩ := List.getElem?_eq_some_iff.mp found
  obtain ⟨length, related⟩ := List.forall₂_iff_get.mp labelsFor
  have labelFor := related depth (length ▸ below) below
  rw [List.get_eq_getElem, List.get_eq_getElem, same] at labelFor
  exact ⟨_, List.getElem?_eq_getElem _, labelFor⟩

/-- Remembering a branch keeps the labels those of the constructs. -/
theorem LabelsFor.attach
    (labelsFor : LabelsFor ops starts nesting labels) (depth : Nat) (key : Nat × Nat) :
    LabelsFor ops starts nesting (attachLabel labels depth key) := by
  apply forall₂_modify labelsFor
  intro construct label labelFor
  exact labelFor

/-- Remembering a branch forgets none. -/
theorem extends_attach (depth : Nat) (key : Nat × Nat) :
    Extends (nesting.zip labels) (nesting.zip (attachLabel labels depth key)) := by
  rintro ⟨construct, label⟩ member
  obtain ⟨position, isConstruct, isLabel⟩ := mem_zip_iff.mp member
  by_cases same : depth = position
  · refine ⟨(construct, { label with keys := label.keys ++ [key] }), ?_, rfl,
      List.subset_append_left _ _⟩
    exact mem_zip_iff.mpr ⟨position, isConstruct, by simp [attachLabel, same, isLabel]⟩
  · refine ⟨(construct, label), ?_, rfl, List.Subset.refl _⟩
    exact mem_zip_iff.mpr ⟨position, isConstruct, by simp [attachLabel, same, isLabel]⟩

/-- What a label remembers once a branch is attached to one. -/
theorem key_of_attach
    {depth : Nat} {key other : Nat × Nat} {construct : Construct} {label : Label}
    (member : (construct, label) ∈ nesting.zip (attachLabel labels depth key))
    (isKey : other ∈ label.keys) :
    (∃ before, (construct, before) ∈ nesting.zip labels ∧ other ∈ before.keys) ∨
      nesting[depth]? = some construct ∧ other = key := by
  obtain ⟨position, isConstruct, isLabel⟩ := mem_zip_iff.mp member
  unfold attachLabel at isLabel
  rw [List.getElem?_modify] at isLabel
  obtain ⟨before, isBefore, changed⟩ := Option.map_eq_some_iff.mp isLabel
  have isPair := mem_zip_iff.mpr ⟨position, isConstruct, isBefore⟩
  by_cases same : depth = position
  · rw [if_pos same] at changed
    subst changed
    rcases List.mem_append.mp isKey with isOld | isNew
    · exact .inl ⟨before, isPair, isOld⟩
    · exact .inr ⟨same ▸ isConstruct, List.mem_singleton.mp isNew⟩
  · rw [if_neg same] at changed
    subst changed
    exact .inl ⟨before, isPair, isKey⟩

/-- A branch that is emitted to a label settles. -/
theorem settles_attach
    {depth : Nat} {key : Nat × Nat} {construct : Construct} {label : Label}
    {isKey : Nat × Nat → Prop}
    (found : nesting[depth]? = some construct) (isLabel : labels[depth]? = some label)
    (labelFor : LabelFor ops starts construct label.kind)
    (holds : isKey key) :
    Settles ops starts (nesting.zip (attachUnlessLoop labels depth label key))
      construct.opener isKey label.target := by
  have loops := labelFor.isLoop
  unfold attachUnlessLoop Label.target
  cases isLoop : label.kind.isLoop with
  | some index =>
      rw [isLoop] at loops
      obtain ⟨position, isLoopOf, isOpener, own⟩ := loops
      exact .inl ⟨position, .inl ⟨isLoopOf, isOpener⟩, own⟩
  | none =>
      refine .inr ⟨(construct, { label with keys := label.keys ++ [key] }), ?_, rfl, key,
        by simp, holds⟩
      exact mem_zip_iff.mpr ⟨depth, found, by simp [attachLabel, isLabel]⟩

end Labels

end TraceWasm
