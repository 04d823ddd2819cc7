import TraceWasm.Instruction.PatchingInvariant

/-!
# Steps and runs of back-patching

Every step keeps the invariant: an operator that opens a construct, branches to one
or does neither adds to what is there, and an `end` gives its construct's branches
their target. A run that closes every label therefore leaves structured code.
-/

namespace TraceWasm

open Nesting (ElseAt EndsAt InnermostAt IsLoop LeadsTo OneElse openAt)

section Steps

variable {ops : List Operator} {starts : Nat → Nat}
  {nesting nesting' : List Construct} {labels labels' : List Label}

/-- Labels remember branches to their own constructs only. -/
def KeysOf
    (ops : List Operator) (starts : Nat → Nat) (nesting : List Construct)
    (labels : List Label) : Prop :=
  ∀ pair ∈ nesting.zip labels, ∀ key ∈ pair.2.keys, KeyOf ops starts key pair.1.opener

/-- What attaching branches keeps. -/
structure Attached
    (ops : List Operator) (starts : Nat → Nat) (nesting : List Construct)
    (labels labels' : List Label) : Prop where
  labelsFor : LabelsFor ops starts nesting labels'
  keys : KeysOf ops starts nesting labels'
  extended : Extends (nesting.zip labels) (nesting.zip labels')

/-- Remembering a branch at its construct's label attaches it. -/
theorem attached_attachLabel
    {depth : Nat} {key : Nat × Nat}
    (labelsFor : LabelsFor ops starts nesting labels)
    (keys : KeysOf ops starts nesting labels)
    (isKey : ∀ construct, nesting[depth]? = some construct →
      KeyOf ops starts key construct.opener) :
    Attached ops starts nesting labels (attachLabel labels depth key) where
  labelsFor := labelsFor.attach depth key
  keys := by
    rintro ⟨construct, label⟩ member other isOther
    rcases key_of_attach member isOther with ⟨before, isPair, isOld⟩ | ⟨found, isNew⟩
    · exact keys _ isPair other isOld
    · rw [isNew]
      exact isKey construct found
  extended := extends_attach depth key

/-- So does remembering it unless the construct is a loop. -/
theorem attached_attachUnlessLoop
    {depth : Nat} {key : Nat × Nat} {label : Label}
    (labelsFor : LabelsFor ops starts nesting labels)
    (keys : KeysOf ops starts nesting labels)
    (isLabel : labels[depth]? = some label)
    (isKey : ∀ construct, nesting[depth]? = some construct →
      ¬IsLoop ops construct.opener → KeyOf ops starts key construct.opener) :
    Attached ops starts nesting labels (attachUnlessLoop labels depth label key) := by
  obtain ⟨construct, found, labelFor⟩ := labelsFor.at isLabel
  have loops := labelFor.isLoop
  unfold attachUnlessLoop
  cases isLoop : label.kind.isLoop with
  | some index => exact ⟨labelsFor, keys, .refl _⟩
  | none =>
      rw [isLoop] at loops
      refine attached_attachLabel labelsFor keys fun other foundOther => ?_
      rw [found] at foundOther
      cases foundOther
      exact isKey construct found loops

/-- The arms of a `br_table` settle, each at its own construct. -/
theorem attached_tableArms
    {targets arms : List Nat} {index arm : Nat}
    (built : tableArms index labels arm targets = some (arms, labels'))
    (labelsFor : LabelsFor ops starts nesting labels)
    (keys : KeysOf ops starts nesting labels)
    (isKey : ∀ offset relativeDepth construct, targets[offset]? = some relativeDepth →
      nesting[relativeDepth]? = some construct → ¬IsLoop ops construct.opener →
        KeyOf ops starts (index, arm + offset) construct.opener) :
    Attached ops starts nesting labels labels' ∧ arms.length = targets.length ∧
      ∀ offset relativeDepth target, targets[offset]? = some relativeDepth →
        arms[offset]? = some target → ∃ construct,
          nesting[relativeDepth]? = some construct ∧
          Settles ops starts (nesting.zip labels') construct.opener
            (· = (index, arm + offset)) target := by
  induction targets generalizing labels arm arms with
  | nil =>
      cases built
      exact ⟨⟨labelsFor, keys, .refl _⟩, rfl, by simp⟩
  | cons relativeDepth targets inductionHypothesis =>
      obtain ⟨label, isLabel, built⟩ := Option.bind_eq_some_iff.mp built
      obtain ⟨⟨rest, final⟩, builtRest, built⟩ := Option.bind_eq_some_iff.mp built
      cases built
      have first := attached_attachUnlessLoop labelsFor keys isLabel
        fun construct found notLoop => isKey 0 relativeDepth construct rfl found notLoop
      obtain ⟨second, length, settle⟩ := inductionHypothesis builtRest first.labelsFor
        first.keys fun offset depth construct isTarget found notLoop => by
          rw [Nat.add_assoc, Nat.add_comm 1]
          exact isKey (offset + 1) depth construct isTarget found notLoop
      refine ⟨⟨second.labelsFor, second.keys, first.extended.trans second.extended⟩,
        congrArg (· + 1) length, fun offset depth target isDepth isTarget => ?_⟩
      cases offset with
      | zero =>
          cases isDepth
          cases isTarget
          obtain ⟨construct, found, labelFor⟩ := labelsFor.at isLabel
          refine ⟨construct, found, Settles.mono ?_ second.extended⟩
          exact settles_attach found isLabel labelFor rfl
      | succ offset =>
          rw [Nat.add_comm offset 1, ← Nat.add_assoc]
          exact settle offset depth target isDepth isTarget

/-! ## Adding to the code -/

variable {position ahead : Nat} {p : Patching} {op : Operator} {control : Control}

theorem getElem?_emit_of_lt
    {index : Nat} (below : index < p.code.length) :
    (p.emit ahead control)[index]? = p.code[index]? := by
  unfold Patching.emit
  rw [List.getElem?_append_left (by rw [List.length_append]; omega),
    List.getElem?_append_left below]

theorem getElem?_emit_ahead
    {index : Nat} (above : p.code.length ≤ index) (below : index < p.code.length + ahead) :
    (p.emit ahead control)[index]? = some .plain := by
  unfold Patching.emit
  rw [List.getElem?_append_left (by simpa using below), List.getElem?_append_right above,
    List.getElem?_replicate, if_pos (by omega)]

theorem getElem?_emit_own :
    (p.emit ahead control)[p.code.length + ahead]? = some control := by
  unfold Patching.emit
  rw [List.getElem?_append_right (by simp)]
  simp

theorem length_emit : (p.emit ahead control).length = p.code.length + ahead + 1 := by
  simp [Patching.emit, Nat.add_assoc]

/-- Emit an operator's own instruction. -/
theorem PatchInvariant.emitOwn
    (monotone : Monotone starts)
    (invariant : PatchInvariant ops starts nesting position p)
    (found : ops[position]? = some op)
    (next : starts (position + 1) = p.code.length + ahead + 1)
    (labelsFor : LabelsFor ops starts nesting' labels')
    (keys : KeysOf ops starts nesting' labels')
    (extended : Extends (nesting.zip p.labels) (nesting'.zip labels'))
    (steered : op.Steered ops starts (nesting'.zip labels') position
      (p.code.length + ahead) control) :
    PatchInvariant ops starts nesting' (position + 1) ⟨p.emit ahead control, labels'⟩ where
  length := length_emit.trans next.symm
  labels := labelsFor
  keys := keys
  own := by
    intro earlier before other isOther index own
    rcases Nat.lt_succ_iff_lt_or_eq.mp before with before | same
    · obtain ⟨control, isControl, wasSteered⟩ :=
        invariant.own earlier before other isOther index own
      refine ⟨control, ?_, wasSteered.mono extended⟩
      rw [getElem?_emit_of_lt (List.getElem?_eq_some_iff.mp isControl).1]
      exact isControl
    · subst same
      rw [found] at isOther
      cases isOther
      have isIndex : index = p.code.length + ahead := by
        have := own.2
        omega
      rw [isIndex]
      exact ⟨control, getElem?_emit_own, steered⟩
  ahead := by
    intro earlier before index above below
    have length := invariant.length
    rcases Nat.lt_succ_iff_lt_or_eq.mp before with before | same
    · have := monotone (show earlier + 1 ≤ position from before)
      rw [getElem?_emit_of_lt (by omega)]
      exact invariant.ahead earlier before index above below
    · subst same
      exact getElem?_emit_ahead (by omega) (by omega)

/-- Emit nothing that is the operator's own to steer with. -/
theorem PatchInvariant.emitPlain
    (monotone : Monotone starts)
    (invariant : PatchInvariant ops starts nesting position p)
    (found : ops[position]? = some op)
    (count : Nat)
    (next : starts (position + 1) = p.code.length + count)
    (labelsFor : LabelsFor ops starts nesting' labels')
    (keys : KeysOf ops starts nesting' labels')
    (extended : Extends (nesting.zip p.labels) (nesting'.zip labels'))
    (steered : ∀ index, op.Steered ops starts (nesting'.zip labels') position index .plain) :
    PatchInvariant ops starts nesting' (position + 1)
      ⟨p.code ++ List.replicate count .plain, labels'⟩ := by
  cases count with
  | succ count =>
      rw [List.replicate_succ', ← List.append_assoc]
      exact invariant.emitOwn monotone found next labelsFor keys extended (steered _)
  | zero =>
      have same : starts (position + 1) = starts position := next.trans invariant.length
      rw [List.replicate_zero, List.append_nil]
      refine ⟨invariant.length.trans same.symm, labelsFor, keys, ?_, ?_⟩
      · intro earlier before other isOther index own
        rcases Nat.lt_succ_iff_lt_or_eq.mp before with before | isLast
        · obtain ⟨control, isControl, wasSteered⟩ :=
            invariant.own earlier before other isOther index own
          exact ⟨control, isControl, wasSteered.mono extended⟩
        · subst isLast
          obtain ⟨above, below⟩ := own
          omega
      · intro earlier before index above below
        rcases Nat.lt_succ_iff_lt_or_eq.mp before with before | isLast
        · exact invariant.ahead earlier before index above below
        · subst isLast
          omega

/-! ## Closing a label -/

/-- An instruction is the own one of one operator. -/
theorem ownIndex_unique
    {first second index : Nat}
    (monotone : Monotone starts)
    (firstOwn : OwnIndex starts first index) (secondOwn : OwnIndex starts second index) :
    first = second := by
  have := firstOwn.1
  have := firstOwn.2
  have := secondOwn.1
  have := secondOwn.2
  rcases Nat.lt_trichotomy first second with before | same | before
  · have := monotone (show first + 1 ≤ second from before)
    omega
  · exact same
  · have := monotone (show second + 1 ≤ first from before)
    omega

section Close

variable {construct : Construct} {label : Label} {opened : OpenLabels} {last : Nat}

/-- Once its label is closed, a branch to the construct has its target. -/
theorem Settles.closed
    {opener : Option Nat} {isKey : Nat × Nat → Prop} {target : Nat}
    [Decidable (∃ key ∈ label.keys, isKey key)]
    (settles : Settles ops starts ((construct, label) :: opened) opener isKey target)
    (keys : ∀ key ∈ label.keys, KeyOf ops starts key construct.opener)
    (ends : EndsAt ops construct.opener position) (own : OwnIndex starts position last)
    (same : ∀ key ∈ label.keys, isKey key → opener = construct.opener) :
    Settles ops starts opened opener isKey
      (if ∃ key ∈ label.keys, isKey key then last else target) := by
  split
  · rename_i remembered
    obtain ⟨key, isMember, holds⟩ := remembered
    rw [same key isMember holds]
    exact .inl ⟨position, .inr ⟨(keys key isMember).1, ends⟩, own⟩
  · rename_i notRemembered
    rcases settles with resolved | ⟨pair, member, isOpener, key, isMember, holds⟩
    · exact .inl resolved
    · rcases List.mem_cons.mp member with isHead | member
      · subst isHead
        exact (notRemembered ⟨key, isMember, holds⟩).elim
      · exact .inr ⟨pair, member, isOpener, key, isMember, holds⟩

/-- A construct that is open is still open behind an `end`, or it is the one that
ends. -/
theorem IsOpen.closed
    {opener : Option Nat}
    (isOpen : IsOpen ((construct, label) :: opened) opener) :
    construct.opener = opener ∨ IsOpen opened opener := by
  obtain ⟨pair, member, same⟩ := isOpen
  rcases List.mem_cons.mp member with isHead | member
  · subst isHead
    exact .inl same
  · exact .inr ⟨pair, member, same⟩

/-- An `if` that ends knows where its `else` is. -/
theorem LabelFor.ifOp
    {opener : Nat} {kind : BlockKind} {blockty : BlockType}
    (labelFor : LabelFor ops starts construct kind)
    (isOpener : construct.opener = some opener)
    (isIf : ops[opener]? = some (.ifOp blockty)) :
    ∃ index elseIndex, OwnIndex starts opener index ∧
      Option.Rel (OwnIndex starts) construct.elseAt elseIndex ∧
      kind = .ifOp index elseIndex := by
  unfold LabelFor at labelFor
  rw [isOpener] at labelFor
  dsimp only at labelFor
  rw [isIf] at labelFor
  exact labelFor

/-- Only an `if` has an `else`. -/
theorem LabelFor.ifOp_of_else
    {elseAt : Nat} {kind : BlockKind}
    (labelFor : LabelFor ops starts construct kind)
    (hasElse : construct.elseAt = some elseAt) :
    ∃ index elseIndex, OwnIndex starts elseAt elseIndex ∧
      kind = .ifOp index (some elseIndex) := by
  unfold LabelFor at labelFor
  cases isOpener : construct.opener with
  | none =>
      rw [isOpener] at labelFor
      simp [hasElse] at labelFor
  | some opener =>
      rw [isOpener] at labelFor
      dsimp only at labelFor
      split at labelFor
      · simp [hasElse] at labelFor
      · simp [hasElse] at labelFor
      · obtain ⟨index, elseIndex, _, related, same⟩ := labelFor
        rw [hasElse] at related
        cases related with
        | some own => exact ⟨index, _, own, same⟩
      · cases labelFor

/-- What the label of a construct knows of its `else` is right. -/
theorem elseIndex_of_rel
    {opener : Option Nat} {elseIndex : Option Nat}
    (member : construct ∈ openAt ops position)
    (ends : EndsAt ops construct.opener position)
    (isOpener : construct.opener = opener)
    (related : Option.Rel (OwnIndex starts) construct.elseAt elseIndex) :
    ElseIndex ops starts opener elseIndex := by
  subst isOpener
  obtain ⟨without, known⟩ := Nesting.elseAt_of_mem member
  cases isElse : construct.elseAt with
  | some elseAt =>
      rw [isElse] at related
      cases related with
      | some own => exact ⟨elseAt, known elseAt isElse, own⟩
  | none =>
      rw [isElse] at related
      cases related
      intro elseAt isElseAt
      exact without isElse elseAt (isElseAt.lt_end ends) isElseAt

/-- A label with the instruction of an `if` is the one of that `if`, and knows its
`else`. -/
theorem LabelFor.of_ifOp
    {ifIndex : Nat} {elseIndex : Option Nat}
    (labelFor : LabelFor ops starts construct (.ifOp ifIndex elseIndex)) :
    ∃ opener, construct.opener = some opener ∧ OwnIndex starts opener ifIndex ∧
      Option.Rel (OwnIndex starts) construct.elseAt elseIndex := by
  unfold LabelFor at labelFor
  split at labelFor
  · simp at labelFor
  · rename_i opener isOpener
    split at labelFor
    · simp at labelFor
    · simp at labelFor
    · obtain ⟨_, _, own, related, same⟩ := labelFor
      cases same
      exact ⟨opener, isOpener, own, related⟩
    · cases labelFor

/-- What the label remembers about an instruction is an arm of its operator. -/
theorem armTo_of_key
    {earlier index : Nat}
    (monotone : Monotone starts)
    (keys : ∀ key ∈ label.keys, KeyOf ops starts key construct.opener)
    (isOp : ops[earlier]? = some op) (own : OwnIndex starts earlier index) :
    ∀ key ∈ label.keys, key.1 = index → op.ArmTo ops earlier construct.opener key.2 := by
  intro key isKey same
  obtain ⟨_, position', op', isOp', own', armTo⟩ := keys key isKey
  rw [same] at own'
  cases ownIndex_unique monotone own' own
  rw [isOp] at isOp'
  cases isOp'
  exact armTo

namespace Operator.Steered

variable {earlier index : Nat}

/-- Closing a label settles a branch to it. -/
theorem closed_br
    {relativeDepth : Nat}
    (keys : ∀ key ∈ label.keys, KeyOf ops starts key construct.opener)
    (ends : EndsAt ops construct.opener position) (ownLast : OwnIndex starts position last)
    (armTo : ∀ key ∈ label.keys, key.1 = index →
      (Operator.br relativeDepth).ArmTo ops earlier construct.opener key.2)
    (steered : (Operator.br relativeDepth).Steered ops starts ((construct, label) :: opened)
      earlier index control) :
    (Operator.br relativeDepth).Steered ops starts opened earlier index
      (patchKindAt last index (patchAt last index control label.keys) label.kind) := by
  obtain ⟨found, target, isConstruct, settles, rfl⟩ := steered
  rw [patchAt_branch, patchKindAt_of_plain (fun _ => rfl) rfl]
  refine ⟨found, _, isConstruct, settles.closed keys ends ownLast ?_, rfl⟩
  intro key isKey same
  obtain ⟨other, isOther, sameOpener⟩ := armTo key isKey same
  rw [isConstruct] at isOther
  cases isOther
  exact sameOpener

/-- Closing a label settles the arms that go to it. -/
theorem closed_brTable
    {targets : List Nat} {default : Nat}
    (keys : ∀ key ∈ label.keys, KeyOf ops starts key construct.opener)
    (ends : EndsAt ops construct.opener position) (ownLast : OwnIndex starts position last)
    (armTo : ∀ key ∈ label.keys, key.1 = index →
      (Operator.brTable targets default).ArmTo ops earlier construct.opener key.2)
    (steered : (Operator.brTable targets default).Steered ops starts
      ((construct, label) :: opened) earlier index control) :
    (Operator.brTable targets default).Steered ops starts opened earlier index
      (patchKindAt last index (patchAt last index control label.keys) label.kind) := by
  obtain ⟨arms, length, settle, rfl⟩ := steered
  obtain ⟨arms', patched, length', found'⟩ := patchAt_table arms
  rw [patched, patchKindAt_of_plain (fun _ => rfl) rfl]
  refine ⟨arms', length'.trans length, fun arm relativeDepth target isDepth isTarget => ?_,
    rfl⟩
  have below : arm < arms.length := by
    rw [← length']
    exact (List.getElem?_eq_some_iff.mp isTarget).1
  have wasTarget := List.getElem?_eq_getElem below
  obtain ⟨found, isConstruct, settles⟩ := settle arm relativeDepth _ isDepth wasTarget
  refine ⟨found, isConstruct, ?_⟩
  have isNow := found' arm _ wasTarget
  rw [isTarget, Option.some.injEq] at isNow
  have remembered : ((index, arm) ∈ label.keys) ↔
      ∃ key ∈ label.keys, key = (index, arm) := by simp
  rw [isNow, if_congr remembered rfl rfl]
  refine settles.closed keys ends ownLast ?_
  intro key isKey same
  obtain ⟨depth, other, isDepth', isOther, sameOpener⟩ :=
    armTo key isKey (congrArg Prod.fst same)
  rw [same, isDepth] at isDepth'
  cases isDepth'
  rw [isConstruct] at isOther
  cases isOther
  exact sameOpener

/-- Closing the label of an `if` gives the `if` its `else` and its `end`. -/
theorem closed_ifOp
    {blockty : BlockType}
    (monotone : Monotone starts)
    (labelFor : LabelFor ops starts construct label.kind)
    (member : construct ∈ openAt ops position)
    (ends : EndsAt ops construct.opener position) (ownLast : OwnIndex starts position last)
    (isOp : ops[earlier]? = some (.ifOp blockty)) (own : OwnIndex starts earlier index)
    (steered : (Operator.ifOp blockty).Steered ops starts ((construct, label) :: opened)
      earlier index control) :
    (Operator.ifOp blockty).Steered ops starts opened earlier index
      (patchKindAt last index (patchAt last index control label.keys) label.kind) := by
  obtain ⟨elseIndex, endIndex, state, rfl⟩ := steered
  rw [patchAt_of_not_arms fun _ => rfl]
  by_cases isThis : construct.opener = some earlier
  · obtain ⟨ifIndex, elseIndex', ownIf, related, kind⟩ := labelFor.ifOp isThis isOp
    have sameIf : ifIndex = index := by
      have := ownIf.2
      have := own.2
      omega
    refine ⟨elseIndex', last, .inr ⟨elseIndex_of_rel member ends isThis related, ?_⟩, ?_⟩
    · exact ⟨position, isThis ▸ ends, ownLast⟩
    · rw [kind, sameIf, patchKindAt_ifOp_self]
  · refine ⟨elseIndex, endIndex, ?_, patchKindAt_ifOp_of_ne ?_⟩
    · exact state.imp_left fun isOpen => isOpen.closed.resolve_left isThis
    · -- a label with this instruction would be the label of this `if`
      intro elseIndex' kind
      rw [kind] at labelFor
      obtain ⟨opener, isOpener, ownIf, _⟩ := labelFor.of_ifOp
      rw [ownIndex_unique monotone ownIf own] at isOpener
      exact isThis isOpener

/-- Closing the label of an `if` gives its `else` the `end`. -/
theorem closed_elseOp
    (monotone : Monotone starts) (oneElse : OneElse ops)
    (labelFor : LabelFor ops starts construct label.kind)
    (member : construct ∈ openAt ops position)
    (ends : EndsAt ops construct.opener position) (ownLast : OwnIndex starts position last)
    (before : earlier < position) (own : OwnIndex starts earlier index)
    (steered : Operator.elseOp.Steered ops starts ((construct, label) :: opened)
      earlier index control) :
    Operator.elseOp.Steered ops starts opened earlier index
      (patchKindAt last index (patchAt last index control label.keys) label.kind) := by
  obtain ⟨opener, endIndex, isElse, state, rfl⟩ := steered
  rw [patchAt_of_not_arms fun _ => rfl]
  obtain ⟨without, known⟩ := Nesting.elseAt_of_mem member
  by_cases isThis : construct.opener = opener
  · have hasElse : construct.elseAt = some earlier := by
      cases isElseAt : construct.elseAt with
      | none => exact (without isElseAt earlier before (isThis ▸ isElse)).elim
      | some elseAt =>
          exact congrArg some ((known elseAt isElseAt).unique oneElse (isThis ▸ isElse))
    obtain ⟨ifIndex, elseIndex, ownElse, kind⟩ := labelFor.ifOp_of_else hasElse
    have sameElse : elseIndex = index := by
      have := ownElse.2
      have := own.2
      omega
    refine ⟨opener, last, isElse, .inr ⟨position, isThis ▸ ends, ownLast⟩, ?_⟩
    rw [kind, sameElse, patchKindAt_elseOp_self]
  · refine ⟨opener, endIndex, isElse, ?_, patchKindAt_elseOp_of_ne ?_⟩
    · exact state.imp_left fun isOpen => isOpen.closed.resolve_left isThis
    · -- a label with this instruction would be the label of this `else`'s `if`
      intro ifIndex kind
      rw [kind] at labelFor
      obtain ⟨_, _, _, related⟩ := labelFor.of_ifOp
      cases isElseAt : construct.elseAt with
      | none =>
          rw [isElseAt] at related
          cases related
      | some elseAt =>
          rw [isElseAt] at related
          cases related with
          | some ownElse =>
              have innermost := (known elseAt isElseAt).2
              rw [ownIndex_unique monotone ownElse own] at innermost
              exact isThis (Option.some.inj (innermost.symm.trans isElse.2))

/-- Closing a label leaves an earlier instruction as the structure wants it. -/
theorem closed
    (monotone : Monotone starts) (oneElse : OneElse ops)
    (keys : ∀ key ∈ label.keys, KeyOf ops starts key construct.opener)
    (labelFor : LabelFor ops starts construct label.kind)
    (member : construct ∈ openAt ops position)
    (ends : EndsAt ops construct.opener position) (ownLast : OwnIndex starts position last)
    (before : earlier < position) (isOp : ops[earlier]? = some op)
    (own : OwnIndex starts earlier index)
    (steered : op.Steered ops starts ((construct, label) :: opened) earlier index control) :
    op.Steered ops starts opened earlier index
      (patchKindAt last index (patchAt last index control label.keys) label.kind) := by
  have armTo := armTo_of_key monotone keys isOp own
  cases op with
  | br relativeDepth => exact closed_br keys ends ownLast armTo steered
  | brIf relativeDepth => exact closed_br keys ends ownLast armTo steered
  | brTable targets default => exact closed_brTable keys ends ownLast armTo steered
  | returnOp =>
      obtain ⟨target, settles, rfl⟩ := steered
      rw [patchAt_returnOp, patchKindAt_of_plain (fun _ => rfl) rfl]
      refine ⟨_, settles.closed keys ends ownLast ?_, rfl⟩
      intro key isKey same
      exact (armTo key isKey same).symm
  | ifOp blockty => exact closed_ifOp monotone labelFor member ends ownLast isOp own steered
  | elseOp =>
      exact closed_elseOp monotone oneElse labelFor member ends ownLast before own steered
  | _ =>
      have isControl := steered
      simp only [Operator.Steered] at isControl
      rw [isControl, patchAt_of_not_arms fun _ => rfl, patchKindAt_of_plain (fun _ => rfl) rfl]
      exact rfl

end Operator.Steered

end Close

end Steps

end TraceWasm
