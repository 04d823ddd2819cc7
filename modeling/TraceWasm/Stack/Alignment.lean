import TraceWasm.Stack.Structured
import TraceWasm.Wasm.Heights

/-!
# The lowering's labels are the validator's frames

Between two operators the open labels are the validator's frames, dead ones
included. A label that was opened live has the arities and the height of its
frame, and in live code the lowering counts as many operands as the validator.
-/

namespace TraceWasm
namespace Stack

/-! ## Agreement -/

/-- The frame and the label are of one construct. -/
structure FrameMatches (frame : Frame) (block : Block) : Prop where
  loop : block.kind.isLoop.isSome = true ↔ frame.kind = .loop
  entry : frame.entry = ⟨block.params, block.results, block.recordedHeight⟩

/-- A label that was opened live matches its frame. -/
def LabelMatches (frame : Frame) (block : Block) : Prop :=
  block.hasInherited = false → FrameMatches frame block

namespace FrameMatches

variable {frame : Frame} {block : Block}

theorem height (same : FrameMatches frame block) : block.recordedHeight = frame.height :=
  (congrArg Entry.height same.entry).symm

theorem params (same : FrameMatches frame block) : block.params = frame.params :=
  (congrArg Entry.params same.entry).symm

theorem results (same : FrameMatches frame block) : block.results = frame.results :=
  (congrArg Entry.results same.entry).symm

theorem labelArity (same : FrameMatches frame block) :
    frame.labelArity = block.labelArity := by
  unfold Frame.labelArity Block.labelArity
  by_cases isLoop : frame.kind = .loop
  · rw [if_pos isLoop, if_pos (same.loop.mpr isLoop)]
    exact same.params.symm
  · rw [if_neg isLoop, if_neg (mt same.loop.mp isLoop)]
    exact same.results.symm

end FrameMatches

/-- The validator, the spec of deadness and the lowering agree. -/
structure Agrees (v : Validator) (l : Liveness) (control : ControlStack) : Prop where
  labels : List.Forall₂ LabelMatches v.frames control.inner
  inherited : control.inner.map Block.hasInherited = l.openedDead
  traversing : control.inner.map Block.isUnreachableTraversing =
    (l.dead :: l.openedDead).dropLast
  height : l.dead = false → control.currHeight = v.height

/-! ## Changes that the agreement does not see -/

section Changes

variable {frames : List Frame} {inner : List Block}

theorem forall₂_modify
    {related : Frame → Block → Prop} {change : Block → Block}
    (matching : List.Forall₂ related frames inner)
    (stays : ∀ frame block, related frame block → related frame (change block))
    (index : Nat) :
    List.Forall₂ related frames (inner.modify index change) := by
  induction matching generalizing index with
  | nil =>
      rw [List.modify_nil]
      exact .nil
  | cons first rest inductionHypothesis =>
      cases index with
      | zero => exact .cons (stays _ _ first) rest
      | succ index => exact .cons first (inductionHypothesis index)

theorem map_modify_same
    {α : Type} {field : Block → α} {change : Block → Block}
    (same : ∀ block, field (change block) = field block)
    (index : Nat) :
    (inner.modify index change).map field = inner.map field := by
  have maps : ∀ block, field (change block) = id (field block) := same
  exact (map_modify maps inner index).trans (List.modify_id index _)

/-- What the agreement sees of the labels. -/
structure SameLabels (frames : List Frame) (inner inner' : List Block) : Prop where
  labels : List.Forall₂ LabelMatches frames inner'
  inherited : inner'.map Block.hasInherited = inner.map Block.hasInherited
  traversing : inner'.map Block.isUnreachableTraversing =
    inner.map Block.isUnreachableTraversing

theorem sameLabels_modify
    (matching : List.Forall₂ LabelMatches frames inner)
    (index : Nat) (key : Nat × Nat) :
    SameLabels frames inner (inner.modify index fun block =>
      { block with attachedBreaks := block.attachedBreaks ++ [key] }) where
  labels := by
    apply forall₂_modify matching
    intro frame block same live
    exact ⟨(same live).loop, (same live).entry⟩
  inherited := by
    apply map_modify_same
    intro block
    rfl
  traversing := by
    apply map_modify_same
    intro block
    rfl

theorem sameLabels_attach
    (matching : List.Forall₂ LabelMatches frames inner)
    (relativeDepth : Nat) (block : Block) (key : Nat × Nat) :
    SameLabels frames inner (attach inner relativeDepth block key) := by
  unfold attach
  split
  · exact ⟨matching, rfl, rfl⟩
  · exact sameLabels_modify matching relativeDepth key

theorem sameLabels_brArms
    {index slot : Nat} {targets : List Nat} {arms : List Target} {inner' : List Block}
    (matching : List.Forall₂ LabelMatches frames inner)
    (built : brArms index inner slot targets = some (arms, inner')) :
    SameLabels frames inner inner' := by
  induction targets generalizing inner slot arms with
  | nil =>
      cases built
      exact ⟨matching, rfl, rfl⟩
  | cons relativeDepth targets inductionHypothesis =>
      obtain ⟨block, found, built⟩ := Option.bind_eq_some_iff.mp built
      obtain ⟨⟨rest, final⟩, builtRest, same⟩ := Option.bind_eq_some_iff.mp built
      cases same
      have first := sameLabels_attach matching relativeDepth block (index, slot)
      have others := inductionHypothesis first.labels builtRest
      exact ⟨others.labels, others.inherited.trans first.inherited,
        others.traversing.trans first.traversing⟩

/-- Marking the innermost frame leaves what its label has to match. -/
theorem labels_marked
    {frame : Frame} {outer : List Frame} {v v' : Validator}
    (matching : List.Forall₂ LabelMatches v.frames inner)
    (opened : v.frames = frame :: outer)
    (frames : v'.frames = v.frames ∨ v'.frames = Validator.markedFrames frame outer) :
    List.Forall₂ LabelMatches v'.frames inner := by
  rcases frames with same | marked
  · rw [same]
    exact matching
  · rw [opened] at matching
    rw [marked]
    obtain ⟨block, rest, first, others, isInner⟩ := List.forall₂_cons_left_iff.mp matching
    rw [isInner]
    exact .cons (fun live => ⟨(first live).loop, (first live).entry⟩) others

end Changes

/-! ## Each operator keeps the agreement -/

section Step

open Lowering (simpleInstruction)

variable {mod : ModuleTypes} {localsCount results offset : Nat} {v v' : Validator}
  {l : Liveness} {s s' : Lowering} {op : Operator}

/-- The innermost frame, its label and what is known of them. -/
theorem Agrees.head
    {control : ControlStack} {frame : Frame} {outer : List Frame}
    (agrees : Agrees v l control)
    (opened : v.frames = frame :: outer) :
    ∃ block rest, control.inner = block :: rest ∧ LabelMatches frame block ∧
      List.Forall₂ LabelMatches outer rest ∧
      l.openedDead = block.hasInherited :: rest.map Block.hasInherited ∧
      block.isUnreachableTraversing = l.dead ∧
      rest.map Block.isUnreachableTraversing = l.openedDead.dropLast := by
  have labels := agrees.labels
  have inherited := agrees.inherited
  have traversing := agrees.traversing
  rw [opened] at labels
  obtain ⟨block, rest, first, others, isInner⟩ := List.forall₂_cons_left_iff.mp labels
  rw [isInner, List.map_cons] at inherited traversing
  rw [← inherited, List.dropLast_cons_cons] at traversing
  injection traversing with here above
  exact ⟨block, rest, isInner, first, others, inherited.symm, here, inherited ▸ above⟩

/-- The lowering sees the code as live exactly where it is. -/
theorem Agrees.isDead
    {control : ControlStack}
    (agrees : Agrees v l control)
    (opened : v.frames ≠ []) :
    control.isDead = l.dead := by
  obtain ⟨frame, outer, opened⟩ := List.exists_cons_of_ne_nil opened
  obtain ⟨block, rest, isInner, _, _, _, traversing, _⟩ := agrees.head opened
  unfold ControlStack.isDead
  rw [isInner]
  exact traversing

/-- An operator that leaves the labels alone counts its operands as the validator
does. -/
theorem simpleInstruction_live
    {instr : StackInstruction} {effect : StackEffectResult} {frame : Frame}
    {outer : List Frame}
    (simple : simpleInstruction mod op = some (instr, effect))
    (step : Validator.LiveStep mod localsCount results v frame outer v' op) :
    v'.height = v.height - effect.counts.1 + effect.counts.2 := by
  cases op with
  | localGet index =>
      cases simple
      exact congrArg Validator.height step.2
  | localSet index =>
      cases simple
      exact congrArg Validator.height step.2.2
  | localTee index =>
      cases simple
      have height := congrArg Validator.height step.2.2
      have enough := step.2.1
      change v'.height = v.height - 1 + 1
      dsimp only at height
      omega
  | const value =>
      cases simple
      exact congrArg Validator.height step
  | data op =>
      cases simple
      have height := congrArg Validator.height step.2
      have enough := step.1
      cases op <;> simp only [Lowering.dataEffect, DataOp.dropMemory,
        StackEffectResult.counts, DataOp.inputs, DataOp.outputs] at height enough ⊢ <;> omega
  | dataDrop index =>
      cases simple
      exact congrArg Validator.height step
  | nop =>
      cases simple
      exact congrArg Validator.height step
  | drop =>
      cases simple
      exact congrArg Validator.height step.2
  | call functionIndex =>
      obtain ⟨ty, typed, same⟩ := Option.map_eq_some_iff.mp simple
      cases same
      obtain ⟨other, typedOther, _, height⟩ := step
      rw [typed] at typedOther
      cases typedOther
      exact congrArg Validator.height height
  | callIndirect typeIndex tableIndex =>
      obtain ⟨ty, typed, same⟩ := Option.map_eq_some_iff.mp simple
      cases same
      obtain ⟨other, typedOther, _, height⟩ := step
      rw [typed] at typedOther
      cases typedOther
      change v'.height = v.height - (1 + ty.params.length) + ty.results.length
      rw [height, Nat.sub_sub]
  | _ => cases simple

theorem simpleInstruction_stays
    {lowered : Lowered}
    (simple : simpleInstruction mod op = some lowered) :
    op.opens = false ∧ op.diverges = false ∧ op ≠ .elseOp ∧ op ≠ .endOp := by
  cases op with
  | elseOp => cases simple
  | endOp => cases simple
  | _ => first | exact ⟨rfl, rfl, by simp, by simp⟩ | cases simple

/-- The frames behind an operator that opens and closes nothing. -/
theorem framesStep_plain
    (stepped : Validator.FramesStep v v' op)
    (opens : op.opens = false)
    (notElse : op ≠ .elseOp) (notEnd : op ≠ .endOp) :
    ∃ frame outer, v.frames = frame :: outer ∧
      (v'.frames = v.frames ∨ v'.frames = Validator.markedFrames frame outer) := by
  cases op <;>
    first
    | exact stepped
    | exact absurd rfl notElse
    | exact absurd rfl notEnd
    | simp only [Operator.opens, Bool.true_eq_false] at opens

/-- Code goes on behind an operator that opens and closes nothing. -/
theorem Agrees.continues
    {control : ControlStack} {inner : List Block} {height : Nat}
    (agrees : Agrees v l control)
    (stepped : Validator.FramesStep v v' op)
    (opens : op.opens = false) (goesOn : op.diverges = false)
    (notElse : op ≠ .elseOp) (notEnd : op ≠ .endOp)
    (same : SameLabels v.frames control.inner inner)
    (heights : l.dead = false → height = v'.height) :
    Agrees v' (l.step op) ⟨inner, height⟩ := by
  obtain ⟨frame, outer, opened, frames⟩ := framesStep_plain stepped opens notElse notEnd
  rw [Liveness.step_of_plain l opens notElse notEnd, goesOn, Bool.or_false]
  exact ⟨labels_marked same.labels opened frames, same.inherited.trans agrees.inherited,
    same.traversing.trans agrees.traversing, heights⟩

/-- The rest of the innermost label is dead. -/
theorem Agrees.dies
    {control : ControlStack} {inner : List Block} {height : Nat}
    (agrees : Agrees v l control)
    (stepped : Validator.FramesStep v v' op)
    (opens : op.opens = false) (diverges : op.diverges = true)
    (notElse : op ≠ .elseOp) (notEnd : op ≠ .endOp)
    (same : SameLabels v.frames control.inner inner) :
    Agrees v' (l.step op) ⟨markDead inner, height⟩ := by
  obtain ⟨frame, outer, opened, frames⟩ := framesStep_plain stepped opens notElse notEnd
  obtain ⟨block, rest, isInner, _, _, openedDead, _, above⟩ := agrees.head opened
  rw [Liveness.step_of_plain l opens notElse notEnd, diverges, Bool.or_true]
  have labels := labels_marked same.labels opened frames
  have inherited := same.inherited.trans agrees.inherited
  have traversing := same.traversing
  rw [isInner, List.map_cons] at traversing
  cases inner with
  | nil => cases traversing
  | cons first others =>
      injection traversing with _ traversing
      constructor
      · obtain ⟨head, tail, matching, rests, isFrames⟩ := List.forall₂_cons_right_iff.mp labels
        rw [isFrames]
        exact .cons (fun live => ⟨(matching live).loop, (matching live).entry⟩) rests
      · exact inherited
      · change true :: others.map Block.isUnreachableTraversing = _
        rw [openedDead, List.dropLast_cons_cons, ← openedDead, traversing, above]
      · intro live
        cases live

/-- Opening a construct opens its label. -/
theorem Agrees.opens
    {control : ControlStack} {kind : BlockKind} {frame : Frame}
    {params blockResults own height : Nat}
    (agrees : Agrees v l control)
    (nonempty : v.frames ≠ [])
    (opens : op.opens = true)
    (frames : v'.frames = frame :: v.frames)
    (matching : l.dead = false → FrameMatches frame
      ⟨kind, control.currHeight - params - own, params, blockResults, false, false, []⟩)
    (heights : l.dead = false → height = v'.height) :
    Agrees v' (l.step op)
      ⟨control.openedBlock kind params blockResults own :: control.inner, height⟩ := by
  have isDead := agrees.isDead nonempty
  rw [Liveness.step_of_opens l opens]
  unfold ControlStack.openedBlock
  rw [isDead]
  constructor
  · rw [frames]
    refine .cons ?_ agrees.labels
    intro live
    cases dead : l.dead with
    | true => simp [dead] at live
    | false => exact matching dead
  · rw [List.map_cons, agrees.inherited]
    cases l.dead <;> rfl
  · rw [List.map_cons, agrees.traversing, List.dropLast_cons_cons]
    cases l.dead <;> rfl
  · exact heights

/-- The frame that live code opens is that of the label, and the code inside starts as
high as the frame says. -/
theorem Agrees.entered
    {control : ControlStack} {kind : BlockKind} {blockty : BlockType}
    {params blockResults own : Nat} {instr : StackInstruction} {frames : List Frame}
    (agrees : Agrees v l control)
    (alive : l.dead = false)
    (opening : Lowering.opening len op = some (kind, blockty, own, instr))
    (arities : paramsAndResultsFromBlockty mod.types blockty = some (params, blockResults))
    (opened : v'.frames = frame :: frames)
    (does : Validator.LiveStep mod localsCount results v outermost outer v' op) :
    FrameMatches frame
        ⟨kind, control.currHeight - params - own, params, blockResults, false, false, []⟩ ∧
      v'.height = v.height - own := by
  have height := agrees.height alive
  have entered : ∃ frameKind, (kind.isLoop.isSome = true ↔ frameKind = .loop) ∧
      v' = ⟨⟨frameKind, params, blockResults, v.height - params - own, false⟩ :: v.frames,
        v.height - own⟩ := by
    cases op with
    | block blockty =>
        cases opening
        obtain ⟨_, _, typed, _, rfl⟩ := does
        rw [arities] at typed
        cases typed
        exact ⟨.block, by simp [BlockKind.isLoop], rfl⟩
    | loop blockty =>
        cases opening
        obtain ⟨_, _, typed, _, rfl⟩ := does
        rw [arities] at typed
        cases typed
        exact ⟨.loop, by simp [BlockKind.isLoop], rfl⟩
    | ifOp blockty =>
        cases opening
        obtain ⟨_, _, typed, _, rfl⟩ := does
        rw [arities] at typed
        cases typed
        exact ⟨.ifThen, by simp [BlockKind.isLoop], rfl⟩
    | _ => cases opening
  obtain ⟨frameKind, isLoop, rfl⟩ := entered
  cases opened
  exact ⟨⟨isLoop, by rw [height]; rfl⟩, rfl⟩

/-- An operator that opens a construct opens a frame. -/
theorem framesStep_opening
    {kind : BlockKind} {blockty : BlockType} {own : Nat} {instr : StackInstruction}
    (opening : Lowering.opening len op = some (kind, blockty, own, instr))
    (stepped : Validator.FramesStep v v' op) :
    op.opens = true ∧ ∃ frame, v'.frames = frame :: v.frames := by
  cases op with
  | block blockty =>
      obtain ⟨_, _, _, _, frames⟩ := stepped
      exact ⟨rfl, _, frames⟩
  | loop blockty =>
      obtain ⟨_, _, _, _, frames⟩ := stepped
      exact ⟨rfl, _, frames⟩
  | ifOp blockty =>
      obtain ⟨_, _, _, _, frames⟩ := stepped
      exact ⟨rfl, _, frames⟩
  | _ => cases opening

/-- Behind an `else` the code is as dead as where the construct was opened. -/
theorem Agrees.next_elseOp
    {control : ControlStack} {block : Block} {rest : List Block} {ifIndex len : Nat}
    (agrees : Agrees v l control)
    (onTop : l.DeadOnTop)
    (stepped : Validator.FramesStep v v' .elseOp)
    (isInner : control.inner = block :: rest) :
    Agrees v' (l.step .elseOp)
      ⟨withElse block ifIndex len :: rest,
        if block.hasInherited && block.isUnreachableTraversing then control.currHeight
        else block.recordedHeight + block.params⟩ := by
  obtain ⟨frame, outer, opened, _, rfl⟩ := stepped
  obtain ⟨other, others, isOther, matching, labels, openedDead, traversing, above⟩ :=
    agrees.head opened
  rw [isInner] at isOther
  cases isOther
  -- what was opened dead is dead throughout
  have inherits : block.hasInherited = true → block.isUnreachableTraversing = true := by
    intro inherited
    obtain ⟨count, below, isOpened, dead⟩ := onTop
    rw [traversing]
    apply dead
    intro none
    rw [openedDead, none, inherited] at isOpened
    cases below <;> cases isOpened
  have flag : (block.hasInherited && block.isUnreachableTraversing) =
      block.hasInherited := by
    cases inherited : block.hasInherited with
    | false => rfl
    | true => rw [inherits inherited]; rfl
  have isStep : l.step .elseOp = ⟨block.hasInherited, l.openedDead⟩ := by
    unfold Liveness.step
    rw [openedDead]
    rfl
  rw [isStep, flag]
  constructor
  · refine .cons ?_ labels
    intro notInherited
    obtain ⟨_, entry⟩ := matching notInherited
    exact ⟨by simp [withElse, BlockKind.isLoop], entry⟩
  · rw [openedDead]
    rfl
  · rw [openedDead, List.dropLast_cons_cons, ← openedDead, ← above, List.map_cons]
    exact congrArg (· :: _) flag
  · intro notInherited
    change (if block.hasInherited = true then _ else _) = frame.height + frame.params
    rw [if_neg (Bool.eq_false_iff.mp notInherited), (matching notInherited).height,
      (matching notInherited).params]

/-- Behind an `end` the code is as dead as where the construct was opened. -/
theorem Agrees.next_endOp
    {control : ControlStack} {block : Block} {rest : List Block}
    (agrees : Agrees v l control)
    (stepped : Validator.FramesStep v v' .endOp)
    (isInner : control.inner = block :: rest) :
    Agrees v' (l.step .endOp)
      ⟨rest, ControlStack.heightAfter ⟨rest, control.currHeight⟩
        (block.recordedHeight + block.results)⟩ := by
  obtain ⟨frame, outer, opened, rfl⟩ := stepped
  obtain ⟨other, others, isOther, matching, labels, openedDead, traversing, above⟩ :=
    agrees.head opened
  rw [isInner] at isOther
  cases isOther
  have isStep : l.step .endOp = ⟨block.hasInherited, rest.map Block.hasInherited⟩ := by
    unfold Liveness.step
    rw [openedDead]
    rfl
  rw [isStep]
  rw [openedDead] at above
  constructor
  · exact labels
  · rfl
  · exact above
  · intro notInherited
    have outerLive : ControlStack.isDead ⟨rest, control.currHeight⟩ = false := by
      unfold ControlStack.isDead
      cases rest with
      | nil => rfl
      | cons second rest =>
          dsimp only at notInherited above
          rw [notInherited, List.map_cons, List.map_cons, List.dropLast_cons_cons] at above
          injection above
    unfold ControlStack.heightAfter
    rw [outerLive, if_neg (by simp)]
    change block.recordedHeight + block.results = frame.height + frame.results
    rw [(matching notInherited).height, (matching notInherited).results]

/-- Lowering an accepted operator keeps the agreement. -/
theorem Agrees.step
    (agrees : Agrees v l s.controlStack)
    (onTop : l.DeadOnTop)
    (accepted : v.step mod localsCount results op = some v')
    (live : l.dead = false → ∀ frame outer, v.frames = frame :: outer →
      Validator.LiveStep mod localsCount results v frame outer v' op)
    (lowered : StackStep mod offset s op s') :
    Agrees v' (l.step op) s'.controlStack := by
  have stepped := Validator.framesStep_of_step accepted
  have nonempty := Validator.frames_ne_nil_of_step accepted
  have isDead := agrees.isDead nonempty
  obtain ⟨frame, outer, opened⟩ := List.exists_cons_of_ne_nil nonempty
  cases lowered with
  | simple simple known enough =>
      obtain ⟨opens, goesOn, notElse, notEnd⟩ := simpleInstruction_stays simple
      apply agrees.continues stepped opens goesOn notElse notEnd ⟨agrees.labels, rfl, rfl⟩
      intro alive
      unfold ControlStack.heightAfter
      rw [isDead, alive, if_neg (by simp), agrees.height alive,
        simpleInstruction_live simple (live alive frame outer opened)]
  | opens opening arities enough =>
      obtain ⟨opens, inside, frames⟩ := framesStep_opening opening stepped
      apply agrees.opens nonempty opens frames
      · intro alive
        exact (agrees.entered alive opening arities frames (live alive frame outer opened)).1
      · intro alive
        unfold ControlStack.heightAfter
        rw [isDead, alive, if_neg (by simp), agrees.height alive]
        exact (agrees.entered alive opening arities frames
          (live alive frame outer opened)).2.symm
  | elseOp isInner isKind => exact agrees.next_elseOp onTop stepped isInner
  | endOp isInner patched patchedIf => exact agrees.next_endOp stepped isInner
  | br found =>
      exact agrees.dies stepped rfl rfl (by simp) (by simp)
        (sameLabels_attach agrees.labels _ _ _)
  | brIf found enough =>
      apply agrees.continues stepped rfl rfl (by simp) (by simp)
        (sameLabels_attach agrees.labels _ _ _)
      intro alive
      obtain ⟨_, _, _, rfl⟩ := live alive frame outer opened
      unfold ControlStack.heightAfter
      rw [isDead, alive, if_neg (by simp), agrees.height alive]
  | brTable built =>
      exact agrees.dies stepped rfl rfl (by simp) (by simp)
        (sameLabels_brArms agrees.labels built)
  | returnOp found =>
      exact agrees.dies stepped rfl rfl (by simp) (by simp)
        (sameLabels_modify agrees.labels _ _)
  | unreachable =>
      exact agrees.dies stepped rfl rfl (by simp) (by simp) ⟨agrees.labels, rfl, rfl⟩

end Step

end Stack
end TraceWasm
