import TraceWasm.Instruction.PatchingSteps

/-!
# A run of back-patching

The operators of a body, some of them skipped, take the code from nothing to code
that follows the structure of the body.
-/

namespace TraceWasm

open Nesting (ElseAt EndsAt InnermostAt IsLoop OneElse WellNested openAt openAt_succ)

section Run

variable {ops : List Operator} {starts : Nat → Nat} {position : Nat} {p p' : Patching}
  {op : Operator}

/-- Closing a label keeps the invariant. -/
theorem PatchInvariant.close
    {label : Label} {outer : List Label} {ahead : Nat}
    (monotone : Monotone starts) (oneElse : OneElse ops)
    (invariant : PatchInvariant ops starts (openAt ops position) position p)
    (found : ops[position]? = some .endOp)
    (opened : p.labels = label :: outer)
    (next : starts (position + 1) = p.code.length + ahead + 1) :
    PatchInvariant ops starts (openAt ops (position + 1)) (position + 1)
      ⟨patchKind (p.code.length + ahead)
          (patchKeys (p.code.length + ahead) (p.code ++ List.replicate ahead .plain)
            label.keys) label.kind ++ [.endOp], outer⟩ := by
  have labels := invariant.labels
  have keys := invariant.keys
  have ownBefore := invariant.own
  have length := invariant.length
  have isTail : openAt ops (position + 1) = (openAt ops position).tail :=
    openAt_succ found
  rw [opened] at labels keys ownBefore
  cases nesting : openAt ops position with
  | nil =>
      rw [nesting] at labels
      cases labels
  | cons construct rest =>
  rw [nesting] at labels keys ownBefore isTail
  obtain ⟨labelFor, labelsFor⟩ := List.forall₂_cons.mp labels
  have ends : EndsAt ops construct.opener position := ⟨found, by simp [InnermostAt, nesting]⟩
  have ownLast : OwnIndex starts position (p.code.length + ahead) :=
    ⟨by omega, next.symm⟩
  rw [isTail]
  -- the code that is there is patched, and stays at its place
  have kept : ∀ index < p.code.length + ahead,
      (patchKind (p.code.length + ahead)
          (patchKeys (p.code.length + ahead) (p.code ++ List.replicate ahead .plain)
            label.keys) label.kind ++ [.endOp])[index]? =
        (p.code ++ List.replicate ahead .plain)[index]?.map fun control =>
          patchKindAt (p.code.length + ahead) index
            (patchAt (p.code.length + ahead) index control label.keys) label.kind := by
    intro index below
    rw [List.getElem?_append_left (by simpa using below), getElem?_patchKind,
      getElem?_patchKeys, Option.map_map]
    rfl
  have plainKept : ∀ index, (p.code ++ List.replicate ahead .plain)[index]? = some .plain →
      index < p.code.length + ahead →
      (patchKind (p.code.length + ahead)
          (patchKeys (p.code.length + ahead) (p.code ++ List.replicate ahead .plain)
            label.keys) label.kind ++ [.endOp])[index]? = some .plain := by
    intro index isPlain below
    rw [kept index below, isPlain, Option.map_some, patchAt_of_not_arms fun _ => rfl,
      patchKindAt_of_plain (fun _ => rfl) rfl]
  refine ⟨?_, labelsFor, fun pair member => keys pair (List.mem_cons_of_mem _ member), ?_, ?_⟩
  · rw [next]
    simp
  · intro earlier before other isOther index own
    rcases Nat.lt_succ_iff_lt_or_eq.mp before with before | same
    · obtain ⟨control, isControl, steered⟩ := ownBefore earlier before other isOther index own
      have below := (List.getElem?_eq_some_iff.mp isControl).1
      refine ⟨_, ?_, steered.closed monotone oneElse (keys (construct, label)
        List.mem_cons_self) labelFor (nesting ▸ List.mem_cons_self) ends ownLast before isOther
        own⟩
      rw [kept index (by omega), List.getElem?_append_left below, isControl]
      rfl
    · subst same
      rw [found] at isOther
      cases isOther
      have isIndex : index = p.code.length + ahead := by
        have := own.2
        omega
      refine ⟨.endOp, ?_, rfl⟩
      rw [isIndex, List.getElem?_append_right (by simp)]
      simp
  · intro earlier before index above below
    rcases Nat.lt_succ_iff_lt_or_eq.mp before with before | same
    · have inside := monotone (show earlier + 1 ≤ position from before)
      have isPlain := invariant.ahead earlier before index above below
      have := (List.getElem?_eq_some_iff.mp isPlain).1
      refine plainKept index ?_ (by omega)
      rw [List.getElem?_append_left this]
      exact isPlain
    · subst same
      refine plainKept index ?_ (by omega)
      rw [List.getElem?_append_right (by omega), List.getElem?_replicate, if_pos (by omega)]

/-- Nothing is attached to a construct that has just been opened. -/
theorem keysOf_cons
    {construct : Construct} {kind : BlockKind}
    (keys : KeysOf ops starts nesting labels) :
    KeysOf ops starts (construct :: nesting) (⟨kind, []⟩ :: labels) := by
  intro pair member key isKey
  rcases List.mem_cons.mp member with isNew | member
  · subst isNew
    cases isKey
  · exact keys pair member key isKey

/-- A construct that has just been opened is open. -/
theorem isOpen_cons {opener : Option Nat} {elseAt : Option Nat} {label : Label}
    {opened : OpenLabels} :
    IsOpen ((⟨opener, elseAt⟩, label) :: opened) opener :=
  ⟨_, List.mem_cons_self, rfl⟩

/-- The label of an `if` that has come to its `else`. -/
theorem LabelFor.withElse
    {construct : Construct} {ifIndex index : Nat} {elseIndex : Option Nat}
    (labelFor : LabelFor ops starts construct (.ifOp ifIndex elseIndex))
    (own : OwnIndex starts position index) :
    LabelFor ops starts { construct with elseAt := some position }
      (.ifOp ifIndex (some index)) := by
  unfold LabelFor at labelFor ⊢
  dsimp only
  split at labelFor
  · simp at labelFor
  · split at labelFor
    · simp at labelFor
    · simp at labelFor
    · obtain ⟨_, _, ownIf, _, same⟩ := labelFor
      cases same
      exact ⟨_, _, ownIf, .some own, rfl⟩
    · cases labelFor

/-- Emitting an `else` tells the label of its `if` where the `else` is. -/
theorem PatchInvariant.emitElse
    {ifIndex ahead endIndex : Nat} {elseIndex : Option Nat} {keys : List (Nat × Nat)}
    {outer : List Label}
    (monotone : Monotone starts)
    (invariant : PatchInvariant ops starts (openAt ops position) position p)
    (found : ops[position]? = some .elseOp)
    (opened : p.labels = ⟨.ifOp ifIndex elseIndex, keys⟩ :: outer)
    (next : starts (position + 1) = p.code.length + ahead + 1) :
    PatchInvariant ops starts (openAt ops (position + 1)) (position + 1)
      ⟨p.emit ahead (.elseOp endIndex),
        ⟨.ifOp ifIndex (some (p.code.length + ahead)), keys⟩ :: outer⟩ := by
  have length := invariant.length
  have nextNesting := openAt_succ found
  have labels := invariant.labels
  have isKeys := invariant.keys
  rw [opened] at labels isKeys
  cases nesting : openAt ops position with
  | nil =>
      rw [nesting] at labels
      cases labels
  | cons construct rest =>
      rw [nesting] at labels isKeys nextNesting
      obtain ⟨labelFor, labelsFor⟩ := List.forall₂_cons.mp labels
      rw [nextNesting]
      refine invariant.emitOwn monotone found next (.cons ?_ labelsFor) ?_ ?_ ?_
      · exact labelFor.withElse ⟨by omega, next.symm⟩
      · intro pair member key isKey
        rcases List.mem_cons.mp member with isHead | member
        · subst isHead
          exact isKeys (construct, _) List.mem_cons_self key isKey
        · exact isKeys pair (List.mem_cons_of_mem _ member) key isKey
      · rw [opened, nesting]
        intro pair member
        rcases List.mem_cons.mp member with isHead | member
        · subst isHead
          exact ⟨_, List.mem_cons_self, rfl, List.Subset.refl _⟩
        · exact ⟨pair, List.mem_cons_of_mem _ member, rfl, List.Subset.refl _⟩
      · exact ⟨construct.opener, endIndex, ⟨found, by simp [InnermostAt, nesting]⟩,
          .inl ⟨_, List.mem_cons_self, rfl⟩, rfl⟩

/-- A branch to the function is remembered at the outermost label. -/
theorem PatchInvariant.emitReturn
    {ahead arm target : Nat}
    (monotone : Monotone starts) (wellNested : WellNested ops)
    (invariant : PatchInvariant ops starts (openAt ops position) position p)
    (found : ops[position]? = some .returnOp)
    (next : starts (position + 1) = p.code.length + ahead + 1) :
    PatchInvariant ops starts (openAt ops (position + 1)) (position + 1)
      ⟨p.emit ahead (.returnOp target),
        attachLabel p.labels (p.labels.length - 1) (p.code.length + ahead, arm)⟩ := by
  have length := invariant.length
  rw [openAt_succ found]
  obtain ⟨construct, isLast, isFunction⟩ :=
    wellNested.outermost (List.getElem?_eq_some_iff.mp found).1
  have sameLength := List.Forall₂.length_eq invariant.labels
  rw [List.getLast?_eq_getElem?, sameLength] at isLast
  have isKey : ∀ other, (openAt ops position)[p.labels.length - 1]? = some other →
      KeyOf ops starts (p.code.length + ahead, arm) other.opener := by
    intro other isOther
    rw [isLast] at isOther
    cases isOther
    rw [isFunction]
    exact ⟨by simp [IsLoop], position, _, found, ⟨by omega, next.symm⟩, rfl⟩
  have attached := attached_attachLabel invariant.labels invariant.keys isKey
  refine invariant.emitOwn monotone found next attached.labelsFor attached.keys
    attached.extended ⟨target, .inr ?_, rfl⟩
  have below := (List.getElem?_eq_some_iff.mp isLast).1
  obtain ⟨label, isLabel⟩ : ∃ label, p.labels[p.labels.length - 1]? = some label :=
    ⟨_, List.getElem?_eq_getElem (sameLength ▸ below)⟩
  refine ⟨(construct, { label with keys := label.keys ++ [(p.code.length + ahead, arm)] }),
    mem_zip_iff.mpr ⟨_, isLast, by simp [attachLabel, isLabel]⟩, isFunction,
    (p.code.length + ahead, arm), by simp, rfl⟩

/-- Lowering an operator keeps the invariant. -/
theorem PatchInvariant.step
    (monotone : Monotone starts) (wellNested : WellNested ops)
    (invariant : PatchInvariant ops starts (openAt ops position) position p)
    (found : ops[position]? = some op)
    (step : PatchStep op p p')
    (next : starts (position + 1) = p'.code.length) :
    PatchInvariant ops starts (openAt ops (position + 1)) (position + 1) p' := by
  have length := invariant.length
  have nextNesting := openAt_succ found
  have ownAt : ∀ {ahead}, starts (position + 1) = p.code.length + ahead + 1 →
      OwnIndex starts position (p.code.length + ahead) :=
    fun isNext => ⟨by omega, isNext.symm⟩
  cases step with
  | plain count steers opens =>
      have same : openAt ops (position + 1) = openAt ops position := by
        rw [nextNesting]
        apply Nesting.step_of_plain opens
        · rintro rfl
          cases steers
        · rintro rfl
          cases steers
      rw [same]
      refine invariant.emitPlain monotone found count (by simpa using next)
        invariant.labels invariant.keys (.refl _) fun index => ?_
      cases op <;> first | rfl | cases steers
  | block count blockty =>
      rw [nextNesting]
      refine invariant.emitPlain monotone found count (by simpa using next)
        (.cons ?_ invariant.labels) (keysOf_cons invariant.keys) (.cons _ _) fun _ => rfl
      simp [LabelFor, found]
  | loop ahead blockty =>
      rw [length_emit] at next
      rw [nextNesting]
      refine invariant.emitOwn monotone found next (.cons ?_ invariant.labels)
        (keysOf_cons invariant.keys) (.cons _ _) rfl
      simp [LabelFor, found, ownAt next]
  | ifOp ahead blockty elseIndex endIndex =>
      rw [length_emit] at next
      rw [nextNesting]
      refine invariant.emitOwn monotone found next (.cons ?_ invariant.labels)
        (keysOf_cons invariant.keys) (.cons _ _)
        ⟨elseIndex, endIndex, .inl isOpen_cons, rfl⟩
      simp [LabelFor, found, ownAt next]
  | elseOp ahead endIndex opened =>
      rw [length_emit] at next
      exact invariant.emitElse monotone found opened next
  | endOp ahead opened =>
      refine invariant.close monotone wellNested.oneElse found opened (next.trans ?_)
      simp
  | @br relativeDepth label _ ahead arm target =>
      rw [length_emit] at next
      rw [nextNesting]
      obtain ⟨construct, isConstruct, labelFor⟩ := LabelsFor.at invariant.labels target
      have isKey : ∀ other, (openAt ops position)[relativeDepth]? = some other →
          ¬IsLoop ops other.opener →
            KeyOf ops starts (p.code.length + ahead, arm) other.opener :=
        fun other isOther notLoop =>
          ⟨notLoop, position, _, found, ownAt next, other, isOther, rfl⟩
      have attached := attached_attachUnlessLoop invariant.labels invariant.keys target isKey
      exact invariant.emitOwn monotone found next attached.labelsFor attached.keys
        attached.extended
        ⟨construct, _, isConstruct, settles_attach isConstruct target labelFor rfl, rfl⟩
  | @brIf relativeDepth label _ ahead arm target =>
      rw [length_emit] at next
      rw [nextNesting]
      obtain ⟨construct, isConstruct, labelFor⟩ := LabelsFor.at invariant.labels target
      have isKey : ∀ other, (openAt ops position)[relativeDepth]? = some other →
          ¬IsLoop ops other.opener →
            KeyOf ops starts (p.code.length + ahead, arm) other.opener :=
        fun other isOther notLoop =>
          ⟨notLoop, position, _, found, ownAt next, other, isOther, rfl⟩
      have attached := attached_attachUnlessLoop invariant.labels invariant.keys target isKey
      exact invariant.emitOwn monotone found next attached.labelsFor attached.keys
        attached.extended
        ⟨construct, _, isConstruct, settles_attach isConstruct target labelFor rfl, rfl⟩
  | brTable ahead built =>
      rw [length_emit] at next
      rw [nextNesting]
      obtain ⟨attached, arms, settle⟩ := attached_tableArms built invariant.labels
        invariant.keys fun offset relativeDepth construct isDepth isConstruct notLoop =>
          ⟨notLoop, position, _, found, ownAt next, relativeDepth, construct,
            (Nat.zero_add offset).symm ▸ isDepth, isConstruct, rfl⟩
      refine invariant.emitOwn monotone found next attached.labelsFor attached.keys
        attached.extended ⟨_, arms, fun arm relativeDepth target isDepth isTarget => ?_, rfl⟩
      obtain ⟨construct, isConstruct, settles⟩ := settle arm relativeDepth target isDepth isTarget
      rw [Nat.zero_add] at settles
      exact ⟨construct, isConstruct, settles⟩
  | returnOp ahead arm target =>
      rw [length_emit] at next
      exact invariant.emitReturn monotone wellNested found next

/-! ## Runs -/

/-- An operator takes no instruction away. -/
theorem PatchStep.length_le
    (step : PatchStep op p p') : p.code.length ≤ p'.code.length := by
  cases step <;> simp [Patching.emit, Nat.add_assoc]

/-- An operator that steers adds an instruction. -/
theorem PatchStep.length_lt
    (step : PatchStep op p p') (steers : op.steers = true) :
    p.code.length < p'.code.length := by
  cases step with
  | plain count isPlain opens => simp [isPlain] at steers
  | block count blockty => cases steers
  | _ => simp [Patching.emit, Nat.add_assoc]

theorem length_attachUnlessLoop
    (labels : List Label) (relativeDepth : Nat) (label : Label) (key : Nat × Nat) :
    (attachUnlessLoop labels relativeDepth label key).length = labels.length := by
  unfold attachUnlessLoop attachLabel
  split <;> simp

theorem length_tableArms
    {index arm : Nat} {labels labels' : List Label} {targets arms : List Nat}
    (built : tableArms index labels arm targets = some (arms, labels')) :
    labels'.length = labels.length := by
  induction targets generalizing labels arm arms with
  | nil =>
      cases built
      rfl
  | cons relativeDepth targets inductionHypothesis =>
      obtain ⟨label, _, built⟩ := Option.bind_eq_some_iff.mp built
      obtain ⟨⟨rest, final⟩, builtRest, same⟩ := Option.bind_eq_some_iff.mp built
      cases same
      rw [inductionHypothesis builtRest, length_attachUnlessLoop]

/-- As many labels are open as constructs. -/
theorem PatchStep.length_labels
    {nesting : List Construct}
    (step : PatchStep op p p') (same : nesting.length = p.labels.length) :
    (Nesting.step position nesting op).length = p'.labels.length := by
  cases step with
  | plain count steers opens =>
      rw [Nesting.step_of_plain opens]
      · exact same
      · rintro rfl
        cases steers
      · rintro rfl
        cases steers
  | block count blockty => exact congrArg (· + 1) same
  | loop ahead blockty => exact congrArg (· + 1) same
  | ifOp ahead blockty elseIndex endIndex => exact congrArg (· + 1) same
  | elseOp ahead endIndex opened => simp_all [Nesting.step]
  | endOp ahead opened => simp_all [Nesting.step]
  | br ahead arm target => exact same.trans (length_attachUnlessLoop _ _ _ _).symm
  | brIf ahead arm target => exact same.trans (length_attachUnlessLoop _ _ _ _).symm
  | brTable ahead built => exact same.trans (length_tableArms built).symm
  | returnOp ahead arm target => simpa [Nesting.step, Operator.opens, attachLabel] using same

/-- The states between the operators of a body, of which those that are not lowered
are skipped. -/
structure PatchRun
    (ops : List Operator) (lowered : Nat → Prop) (nesting : Nat → List Construct)
    (state : Nat → Patching) : Prop where
  start : state 0 = ⟨[], [⟨.func, []⟩]⟩
  startNesting : nesting 0 = openAt ops 0
  step : ∀ position op, ops[position]? = some op → lowered position →
    nesting position = openAt ops position ∧
    nesting (position + 1) = openAt ops (position + 1) ∧
    PatchStep op (state position) (state (position + 1))
  skip : ∀ position, ¬(lowered position ∧ position < ops.length) →
    state (position + 1) = state position ∧ nesting (position + 1) = nesting position

variable {lowered : Nat → Prop} {nesting : Nat → List Construct} {state : Nat → Patching}

/-- Later positions of a run have longer code. -/
theorem PatchRun.monotone
    (run : PatchRun ops lowered nesting state) :
    Monotone fun position => (state position).code.length := by
  apply monotone_nat_of_le_succ
  intro position
  by_cases isLowered : lowered position ∧ position < ops.length
  · exact (run.step position _ (List.getElem?_eq_getElem isLowered.2) isLowered.1).2.2.length_le
  · rw [(run.skip position isLowered).1]

/-- The invariant holds between any two operators. -/
theorem PatchRun.invariant
    (run : PatchRun ops lowered nesting state) (wellNested : WellNested ops)
    (position : Nat) :
    PatchInvariant ops (fun position => (state position).code.length) (nesting position)
      position (state position) := by
  induction position with
  | zero =>
      rw [run.start, run.startNesting]
      refine ⟨by rw [run.start], .cons ?_ .nil, ?_, by simp, by simp⟩
      · exact ⟨rfl, rfl⟩
      · intro pair member key isKey
        cases List.mem_singleton.mp member
        cases isKey
  | succ position inductionHypothesis =>
      by_cases isLowered : lowered position ∧ position < ops.length
      · obtain ⟨here, next, step⟩ :=
          run.step position _ (List.getElem?_eq_getElem isLowered.2) isLowered.1
        rw [here] at inductionHypothesis
        rw [next]
        exact inductionHypothesis.step run.monotone wellNested
          (List.getElem?_eq_getElem isLowered.2) step rfl
      · obtain ⟨sameState, sameNesting⟩ := run.skip position isLowered
        rw [sameState, sameNesting]
        refine ⟨by rw [sameState], inductionHypothesis.labels, inductionHypothesis.keys, ?_, ?_⟩
        · intro earlier before op isOp index own
          rcases Nat.lt_succ_iff_lt_or_eq.mp before with before | same
          · exact inductionHypothesis.own earlier before op isOp index own
          · have above := own.1
            have below := own.2
            rw [same] at above below
            dsimp only at above below
            rw [sameState] at below
            omega
        · intro earlier before index above below
          rcases Nat.lt_succ_iff_lt_or_eq.mp before with before | same
          · exact inductionHypothesis.ahead earlier before index above below
          · rw [same] at above below
            rw [sameState] at below
            omega

/-- With no label open every branch has its target. -/
theorem Settles.resolved
    {starts : Nat → Nat} {opener : Option Nat} {isKey : Nat × Nat → Prop} {index : Nat}
    (settles : Settles ops starts [] opener isKey index) :
    ∃ target, Nesting.LeadsTo ops opener target ∧ OwnIndex starts target index := by
  rcases settles with resolved | ⟨pair, member, _⟩
  · exact resolved
  · cases member

/-- Once no label is open, an instruction is as the structure wants it. -/
theorem Operator.Steered.prescribes
    {starts : Nat → Nat} {index : Nat} {control : Control}
    (steered : op.Steered ops starts [] position index control) :
    op.Prescribes ops starts position control := by
  have noneOpen : ∀ opener, ¬IsOpen [] opener := by
    rintro opener ⟨pair, member, _⟩
    cases member
  cases op with
  | br relativeDepth =>
      obtain ⟨construct, index, found, settles, same⟩ := steered
      obtain ⟨target, leads, own⟩ := settles.resolved
      exact ⟨index, ⟨target, ⟨construct, found, leads⟩, own⟩, same⟩
  | brIf relativeDepth =>
      obtain ⟨construct, index, found, settles, same⟩ := steered
      obtain ⟨target, leads, own⟩ := settles.resolved
      exact ⟨index, ⟨target, ⟨construct, found, leads⟩, own⟩, same⟩
  | brTable targets default =>
      obtain ⟨arms, length, settle, same⟩ := steered
      refine ⟨arms, List.forall₂_iff_get.mpr ⟨length.symm, fun arm below below' => ?_⟩, same⟩
      obtain ⟨construct, found, settles⟩ := settle arm _ _ (List.getElem?_eq_getElem below)
        (List.getElem?_eq_getElem below')
      obtain ⟨target, leads, own⟩ := settles.resolved
      exact ⟨target, ⟨construct, found, leads⟩, own⟩
  | returnOp =>
      obtain ⟨index, settles, same⟩ := steered
      obtain ⟨target, ⟨isLoop, isOpener⟩ | ⟨_, ends⟩, own⟩ := settles.resolved
      · cases isOpener
      · exact ⟨index, ⟨target, ends, own⟩, same⟩
  | ifOp blockty =>
      obtain ⟨elseIndex, endIndex, state, same⟩ := steered
      obtain ⟨isElse, ends⟩ := state.resolve_left (noneOpen _)
      exact ⟨elseIndex, endIndex, isElse, ends, same⟩
  | elseOp =>
      obtain ⟨opener, endIndex, isElse, state, same⟩ := steered
      exact ⟨opener, endIndex, isElse, state.resolve_left (noneOpen _), same⟩
  | _ => exact steered

/-- A run that closes all labels leaves structured code. -/
theorem PatchRun.structured
    (run : PatchRun ops lowered nesting state) (wellNested : WellNested ops)
    (closed : (state ops.length).labels = []) :
    Structured ops lowered (fun position => (state position).code.length)
      (state ops.length).code := by
  have final := run.invariant wellNested ops.length
  have noneOpen : (nesting ops.length).zip (state ops.length).labels = [] := by
    rw [closed]
    exact List.zip_nil_right
  constructor
  · rw [run.start]
    rfl
  · rfl
  · exact fun position => run.monotone (Nat.le_succ position)
  · intro position notLowered
    rw [(run.skip position fun both => notLowered both.1).1]
  · intro position op isOp isLowered steers
    exact (run.step position op isOp isLowered).2.2.length_lt steers
  · intro position op index control isOp own isControl
    obtain ⟨control', isControl', steered⟩ :=
      final.own position (List.getElem?_eq_some_iff.mp isOp).1 op isOp index own
    rw [isControl] at isControl'
    cases isControl'
    rw [noneOpen] at steered
    exact steered.prescribes
  · intro position index above below
    by_cases inside : position < ops.length
    · exact final.ahead position inside index above below
    · rw [(run.skip position fun both => inside both.2).1] at below
      omega

end Run

end TraceWasm
