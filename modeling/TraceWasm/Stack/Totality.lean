import TraceWasm.Instruction.Rejections
import TraceWasm.Stack.Emission

/-!
# Lowering a validated body succeeds

The lowering never gets stuck on a body that the validator accepts: labels, types and
operands are there, and what an `end` patches is what it is taken for. All that can stop
it is an operator that it does not know, in dead code as well as in live code.
-/

namespace TraceWasm
namespace Stack

open Lowering (simpleInstruction opening Patched)

/-! ## Labels as their frames were opened -/

/-- The label is of the frame's kind. That of an `if` knows where it is, and that of an
open `else` arm where the `else` is. -/
def OpenedAs (shapes : List StackInstruction) : FrameKind → BlockKind → Prop
  | .func, kind => kind = .func
  | .block, kind => kind = .block
  | .loop, kind => ∃ index, kind = .loop index
  | .ifThen, kind => ∃ ifIndex, kind = .ifOp ifIndex none ∧
      shapes[ifIndex]? = some (.ifOp none 0)
  | .ifElse, kind => ∃ ifIndex elseIndex, kind = .ifOp ifIndex (some elseIndex) ∧
      shapes[ifIndex]? = some (.ifOp none 0) ∧ shapes[elseIndex]? = some (.elseOp 0)
  | .tryTable, _ => False

/-- It stays so when code is added. -/
theorem OpenedAs.append
    {shapes : List StackInstruction} {frame : FrameKind} {label : BlockKind}
    (opened : OpenedAs shapes frame label) (added : List StackInstruction) :
    OpenedAs (shapes ++ added) frame label := by
  have kept {index : Nat} {shape : StackInstruction} (found : shapes[index]? = some shape) :
      (shapes ++ added)[index]? = some shape := by
    rw [List.getElem?_append_left (List.getElem?_eq_some_iff.mp found).1]
    exact found
  cases frame with
  | ifThen =>
      obtain ⟨ifIndex, isKind, isIf⟩ := opened
      exact ⟨ifIndex, isKind, kept isIf⟩
  | ifElse =>
      obtain ⟨ifIndex, elseIndex, isKind, isIf, isElse⟩ := opened
      exact ⟨ifIndex, elseIndex, isKind, kept isIf, kept isElse⟩
  | _ => exact opened

/-- The open labels are of the kinds of the frames. -/
def OpenedAlike (v : Validator) (s : Lowering) : Prop :=
  List.Forall₂ (OpenedAs (s.instructions.map StackInstruction.unaimed))
    (v.frames.map Frame.kind) (s.controlStack.inner.map Block.kind)

section Kinds

variable {inner inner' : List Block}

theorem map_kind_attach
    (inner : List Block) (relativeDepth : Nat) (block : Block) (key : Nat × Nat) :
    (attach inner relativeDepth block key).map Block.kind = inner.map Block.kind := by
  unfold attach
  split
  · rfl
  · apply map_modify_same
    intro block
    rfl

theorem map_kind_brArms
    {index slot : Nat} {targets : List Nat} {arms : List Target}
    (built : brArms index inner slot targets = some (arms, inner')) :
    inner'.map Block.kind = inner.map Block.kind := by
  induction targets generalizing inner slot arms with
  | nil =>
      cases built
      rfl
  | cons relativeDepth targets inductionHypothesis =>
      obtain ⟨block, found, built⟩ := Option.bind_eq_some_iff.mp built
      obtain ⟨⟨rest, final⟩, builtRest, same⟩ := Option.bind_eq_some_iff.mp built
      cases same
      exact (inductionHypothesis builtRest).trans (map_kind_attach _ _ _ _)

theorem map_kind_markDead (inner : List Block) :
    (markDead inner).map Block.kind = inner.map Block.kind := by
  cases inner <;> rfl

theorem map_kind_modify (inner : List Block) (index : Nat) (key : Nat × Nat) :
    (inner.modify index fun block =>
      { block with attachedBreaks := block.attachedBreaks ++ [key] }).map Block.kind =
        inner.map Block.kind := by
  apply map_modify_same
  intro block
  rfl

end Kinds

section Step

variable {mod : ModuleTypes} {localsCount results offset : Nat} {v v' : Validator}
  {s s' : Lowering} {op : Operator}

/-- Marking a frame leaves the kinds of the frames. -/
theorem map_kind_marked
    {frame : Frame} {outer : List Frame}
    (opened : v.frames = frame :: outer)
    (frames : v'.frames = v.frames ∨ v'.frames = Validator.markedFrames frame outer) :
    v'.frames.map Frame.kind = v.frames.map Frame.kind := by
  rcases frames with same | marked
  · rw [same]
  · rw [marked, opened]
    rfl

/-- An operator that opens and closes nothing leaves the kinds. -/
theorem OpenedAlike.continues
    (alike : OpenedAlike v s)
    (stepped : Validator.FramesStep v v' op)
    (opens : op.opens = false) (notElse : op ≠ .elseOp) (notEnd : op ≠ .endOp)
    (step : StackStep mod offset s op s')
    (labels : s'.controlStack.inner.map Block.kind = s.controlStack.inner.map Block.kind) :
    OpenedAlike v' s' := by
  obtain ⟨frame, outer, opened, frames⟩ := framesStep_plain stepped opens notElse notEnd
  obtain ⟨instr, added, _, emitted⟩ := step.emission
  have shapes := congrArg Prod.fst emitted
  unfold OpenedAlike
  rw [map_kind_marked opened frames, labels]
  change s'.instructions.map StackInstruction.unaimed = _ at shapes
  rw [shapes]
  exact alike.imp fun _ _ first => first.append _

/-- A frame that opens is that of the label that opens. -/
theorem OpenedAlike.opens
    {kind : BlockKind} {blockty : BlockType} {own params blockResults height : Nat}
    {instr : StackInstruction} {offsets : List Nat} {branches : List Target}
    (alike : OpenedAlike v s)
    (stepped : Validator.FramesStep v v' op)
    (isOpening : opening s.len op = some (kind, blockty, own, instr)) :
    OpenedAlike v' ⟨s.instructions ++ [instr], offsets,
      ⟨s.controlStack.openedBlock kind params blockResults own :: s.controlStack.inner, height⟩,
      branches⟩ := by
  have isKind : (s.controlStack.openedBlock kind params blockResults own).kind = kind := by
    unfold ControlStack.openedBlock
    split <;> rfl
  have here : (s.instructions.map StackInstruction.unaimed ++ [instr.unaimed])[s.len]? =
      some instr.unaimed := by
    have len : (s.instructions.map StackInstruction.unaimed).length = s.len :=
      List.length_map _
    rw [← len, List.getElem?_concat_length]
  have outer : List.Forall₂ (OpenedAs ((s.instructions ++ [instr]).map
      StackInstruction.unaimed)) (v.frames.map Frame.kind)
      (s.controlStack.inner.map Block.kind) := by
    rw [List.map_append]
    exact alike.imp fun _ _ first => first.append _
  unfold OpenedAlike
  rw [List.map_cons, isKind]
  cases op with
  | block blockty =>
      cases isOpening
      obtain ⟨_, _, _, _, frames⟩ := stepped
      rw [frames]
      exact .cons rfl outer
  | loop blockty =>
      cases isOpening
      obtain ⟨_, _, _, _, frames⟩ := stepped
      rw [frames]
      exact .cons ⟨_, rfl⟩ outer
  | ifOp blockty =>
      cases isOpening
      obtain ⟨_, _, _, _, frames⟩ := stepped
      rw [frames]
      refine .cons ⟨_, rfl, ?_⟩ outer
      rw [List.map_append]
      exact here
  | _ => cases isOpening

/-- The kinds stay alike behind an operator. -/
theorem OpenedAlike.step
    (alike : OpenedAlike v s)
    (accepted : v.step mod localsCount results op = some v')
    (step : StackStep mod offset s op s') :
    OpenedAlike v' s' := by
  have stepped := Validator.framesStep_of_step accepted
  have taken := step
  cases step with
  | simple simple known enough =>
      obtain ⟨opens, _, notElse, notEnd⟩ := simpleInstruction_stays simple
      exact alike.continues stepped opens notElse notEnd taken rfl
  | opens isOpening arities enough => exact alike.opens stepped isOpening
  | @elseOp block outer ifIndex elseIndex opened isKind =>
      obtain ⟨frame, others, frames, isThen, rfl⟩ := stepped
      unfold OpenedAlike at alike
      rw [frames, opened, List.map_cons, List.map_cons, isThen, isKind] at alike
      obtain ⟨⟨_, same, isIf⟩, rests⟩ := List.forall₂_cons.mp alike
      cases same
      have here : ((s.instructions ++ [StackInstruction.elseOp u32Max]).map
          StackInstruction.unaimed)[s.len]? = some (.elseOp 0) := by
        rw [List.getElem?_map]
        unfold Lowering.len
        rw [List.getElem?_concat_length]
        rfl
      refine .cons ⟨ifIndex, s.len, rfl, ?_, here⟩ (rests.imp fun _ _ first => ?_)
      · rw [List.map_append, List.getElem?_append_left (List.getElem?_eq_some_iff.mp isIf).1]
        exact isIf
      · rw [List.map_append]
        exact first.append _
  | @endOp block outer instructions branches instructions' opened patched patchedIf =>
      obtain ⟨frame, others, frames, rfl⟩ := stepped
      obtain ⟨instr, added, _, emitted⟩ := taken.emission
      have shapes := congrArg Prod.fst emitted
      unfold OpenedAlike at alike ⊢
      rw [frames, opened, List.map_cons, List.map_cons] at alike
      change (instructions' ++ [StackInstruction.endOp block.results block.recordedHeight]).map
        StackInstruction.unaimed = _ at shapes
      dsimp only
      rw [shapes]
      exact (List.forall₂_cons.mp alike).2.imp fun _ _ first => first.append _
  | br found =>
      apply alike.continues stepped rfl (by simp) (by simp) taken
      rw [map_kind_markDead, map_kind_attach]
  | brIf found enough =>
      apply alike.continues stepped rfl (by simp) (by simp) taken
      exact map_kind_attach _ _ _ _
  | brTable built =>
      apply alike.continues stepped rfl (by simp) (by simp) taken
      rw [map_kind_markDead, map_kind_brArms built]
  | returnOp found =>
      apply alike.continues stepped rfl (by simp) (by simp) taken
      rw [map_kind_markDead, map_kind_modify]
  | unreachable =>
      apply alike.continues stepped rfl (by simp) (by simp) taken
      exact map_kind_markDead _

end Step

/-! ## What an `end` patches is there -/

section Patch

variable {index : Nat}

/-- A branch that waits is patched. -/
theorem patchBreak_of_inside
    {code : Patched} {key : Nat × Nat}
    (tables : TablesApart (code.1.map StackInstruction.branching) code.2.length)
    (inside : KeyInside (code.1.map StackInstruction.branching) key) :
    ∃ code', Lowering.patchBreak index code key = .ok code' := by
  unfold KeyInside at inside
  rw [List.getElem?_map] at inside
  unfold Lowering.patchBreak
  cases found : code.1[key.1]? with
  | none =>
      rw [found] at inside
      exact inside.elim
  | some instr =>
      rw [found] at inside
      rw [Attempt.orPanic_some, Attempt.ok_bind]
      cases instr with
      | br target => exact ⟨_, rfl⟩
      | brIf target => exact ⟨_, rfl⟩
      | returnOp target => exact ⟨_, rfl⟩
      | brTable start len =>
          obtain ⟨above, below⟩ := inside
          have isTable : (code.1.map StackInstruction.branching)[key.1]? =
              some (Branching.table start len) := by
            rw [List.getElem?_map, found]
            rfl
          have fits := tables.inside key.1 start len isTable
          have isTarget := List.getElem?_eq_getElem (show key.2 < code.2.length by omega)
          dsimp only
          rw [isTarget]
          exact ⟨_, rfl⟩
      | _ => exact inside.elim

/-- So are all that a label remembers. -/
theorem patchBreaks_of_inside
    {code : Patched} {keys : List (Nat × Nat)}
    (tables : TablesApart (code.1.map StackInstruction.branching) code.2.length)
    (inside : ∀ key ∈ keys, KeyInside (code.1.map StackInstruction.branching) key) :
    ∃ code', keys.foldlM (Lowering.patchBreak index) code = .ok code' := by
  induction keys generalizing code with
  | nil => exact ⟨code, rfl⟩
  | cons key keys inductionHypothesis =>
      obtain ⟨here, later⟩ := List.forall_mem_cons.mp inside
      obtain ⟨between, patched⟩ := @patchBreak_of_inside index _ _ tables here
      have changes := patchesTo_of_patchBreak tables here patched
      rw [← changes.branchings] at later
      rw [← changes.branchings, ← changes.size] at tables
      obtain ⟨code', finished⟩ := inductionHypothesis tables later
      exact ⟨code', by rw [List.foldlM_cons, patched, Attempt.ok_bind, finished]⟩

/-- What looks like an `if` is one. -/
theorem ifOp_of_unaimed
    {instructions : List StackInstruction} {position : Nat}
    (found : (instructions.map StackInstruction.unaimed)[position]? = some (.ifOp none 0)) :
    ∃ elseIndex endIndex, instructions[position]? = some (.ifOp elseIndex endIndex) := by
  rw [List.getElem?_map] at found
  obtain ⟨instr, isInstr, shape⟩ := Option.map_eq_some_iff.mp found
  cases instr with
  | ifOp elseIndex endIndex => exact ⟨elseIndex, endIndex, isInstr⟩
  | _ => cases shape

/-- What looks like an `else` is one. -/
theorem elseOp_of_unaimed
    {instructions : List StackInstruction} {position : Nat}
    (found : (instructions.map StackInstruction.unaimed)[position]? = some (.elseOp 0)) :
    ∃ endIndex, instructions[position]? = some (.elseOp endIndex) := by
  rw [List.getElem?_map] at found
  obtain ⟨instr, isInstr, shape⟩ := Option.map_eq_some_iff.mp found
  cases instr with
  | elseOp endIndex => exact ⟨endIndex, isInstr⟩
  | _ => cases shape

/-- The `if` and the `else` of a label are patched. -/
theorem patchIf_of_openedAs
    {instructions : List StackInstruction} {frame : FrameKind} {label : BlockKind}
    (opened : OpenedAs (instructions.map StackInstruction.unaimed) frame label) :
    ∃ instructions', Lowering.patchIf index instructions label = .ok instructions' := by
  cases frame with
  | func =>
      cases opened
      exact ⟨_, rfl⟩
  | block =>
      cases opened
      exact ⟨_, rfl⟩
  | loop =>
      obtain ⟨_, rfl⟩ := opened
      exact ⟨_, rfl⟩
  | ifThen =>
      obtain ⟨ifIndex, rfl, isIf⟩ := opened
      obtain ⟨_, _, found⟩ := ifOp_of_unaimed isIf
      unfold Lowering.patchIf
      dsimp only
      rw [found]
      exact ⟨_, rfl⟩
  | ifElse =>
      obtain ⟨ifIndex, elseIndex, rfl, isIf, isElse⟩ := opened
      obtain ⟨before, after, found⟩ := ifOp_of_unaimed isIf
      have same : (instructions.set ifIndex (.ifOp (some elseIndex) index)).map
          StackInstruction.unaimed = instructions.map StackInstruction.unaimed :=
        map_set_same found rfl
      rw [← same] at isElse
      obtain ⟨_, foundElse⟩ := elseOp_of_unaimed isElse
      unfold Lowering.patchIf
      dsimp only
      rw [found, Attempt.orPanic_some, Attempt.ok_bind]
      dsimp only
      rw [foundElse]
      exact ⟨_, rfl⟩
  | tryTable => exact opened.elim

end Patch

/-! ## Every operator is lowered -/

section Progress

variable {mod : ModuleTypes} {localsCount results offset : Nat} {v v' : Validator}
  {l : Liveness} {s : Lowering} {op : Operator}

/-- In live code the operands are there. -/
theorem simpleInstruction_enough
    {instr : StackInstruction} {effect : StackEffectResult} {frame : Frame}
    {outer : List Frame}
    (simple : simpleInstruction mod op = some (instr, effect))
    (step : Validator.LiveStep mod localsCount results v frame outer v' op) :
    effect.counts.1 ≤ v.height := by
  cases op with
  | localSet index =>
      cases simple
      have enough := step.2.1
      change 1 ≤ v.height
      omega
  | localTee index =>
      cases simple
      have enough := step.2.1
      change 1 ≤ v.height
      omega
  | data op =>
      cases simple
      have enough := step.1
      cases op <;> simp only [Lowering.dataEffect, DataOp.dropMemory,
        StackEffectResult.counts, DataOp.inputs] at enough ⊢ <;> omega
  | drop =>
      cases simple
      have enough := step.1
      change 1 ≤ v.height
      omega
  | call functionIndex =>
      obtain ⟨ty, typed, same⟩ := Option.map_eq_some_iff.mp simple
      cases same
      obtain ⟨other, typedOther, enough, _⟩ := step
      rw [typed] at typedOther
      cases typedOther
      change ty.params.length ≤ v.height
      omega
  | callIndirect typeIndex tableIndex =>
      obtain ⟨ty, typed, same⟩ := Option.map_eq_some_iff.mp simple
      cases same
      obtain ⟨other, typedOther, enough, _⟩ := step
      rw [typed] at typedOther
      cases typedOther
      change 1 + ty.params.length ≤ v.height
      omega
  | _ => first | cases simple; exact Nat.zero_le _ | cases simple

/-- A label that is there can be opened in live code. -/
theorem opening_enough
    {kind : BlockKind} {blockty : BlockType} {own params blockResults : Nat}
    {instr : StackInstruction} {frame : Frame} {outer : List Frame} {len : Nat}
    (isOpening : opening len op = some (kind, blockty, own, instr))
    (arities : paramsAndResultsFromBlockty mod.types blockty = some (params, blockResults))
    (step : Validator.LiveStep mod localsCount results v frame outer v' op) :
    params + own ≤ v.height := by
  cases op with
  | block blockty =>
      cases isOpening
      obtain ⟨_, _, typed, enough, _⟩ := step
      rw [arities] at typed
      cases typed
      omega
  | loop blockty =>
      cases isOpening
      obtain ⟨_, _, typed, enough, _⟩ := step
      rw [arities] at typed
      cases typed
      omega
  | ifOp blockty =>
      cases isOpening
      obtain ⟨_, _, typed, enough, _⟩ := step
      rw [arities] at typed
      cases typed
      omega
  | _ => cases isOpening

/-- The type of a label that opens is one of the module's. -/
theorem arities_of_accepted
    {kind : BlockKind} {blockty : BlockType} {own : Nat} {instr : StackInstruction}
    {len : Nat}
    (isOpening : opening len op = some (kind, blockty, own, instr))
    (accepted : v.step mod localsCount results op = some v') :
    ∃ params blockResults,
      paramsAndResultsFromBlockty mod.types blockty = some (params, blockResults) := by
  cases op with
  | block blockty =>
      cases isOpening
      obtain ⟨⟨params, blockResults⟩, arities, _⟩ := Option.bind_eq_some_iff.mp accepted
      exact ⟨params, blockResults, arities⟩
  | loop blockty =>
      cases isOpening
      obtain ⟨⟨params, blockResults⟩, arities, _⟩ := Option.bind_eq_some_iff.mp accepted
      exact ⟨params, blockResults, arities⟩
  | ifOp blockty =>
      cases isOpening
      obtain ⟨⟨params, blockResults⟩, arities, _⟩ := Option.bind_eq_some_iff.mp accepted
      exact ⟨params, blockResults, arities⟩
  | _ => cases isOpening

/-- The arms of a `br_table` are built if the labels are there. -/
theorem brArms_of_inside
    {index slot : Nat} {inner : List Block} {targets : List Nat}
    (inside : ∀ depth ∈ targets, depth < inner.length) :
    ∃ arms inner', brArms index inner slot targets = some (arms, inner') := by
  induction targets generalizing inner slot with
  | nil => exact ⟨[], inner, rfl⟩
  | cons relativeDepth targets inductionHypothesis =>
      obtain ⟨here, later⟩ := List.forall_mem_cons.mp inside
      have found := List.getElem?_eq_getElem here
      have length : (attach inner relativeDepth inner[relativeDepth] (index, slot)).length =
          inner.length := by
        unfold attach
        split
        · rfl
        · exact List.length_modify _ _ _
      rw [← length] at later
      obtain ⟨arms, inner', built⟩ := @inductionHypothesis (slot + 1) _ later
      refine ⟨Lowering.targetOf inner[relativeDepth] :: arms, inner', ?_⟩
      unfold brArms
      rw [found, Option.bind_eq_bind, Option.bind_some, built]
      rfl

/-- What the labels remember is patched when the innermost one closes. -/
theorem endOp_of_openedAlike
    {frame : Frame} {outer : List Frame}
    (tabled : s.Tabled) (alike : OpenedAlike v s) (opened : v.frames = frame :: outer) :
    ∃ s', StackStep mod offset s .endOp s' := by
  unfold OpenedAlike at alike
  rw [opened, List.map_cons] at alike
  obtain ⟨kind, kinds, first, _, labels⟩ := List.forall₂_cons_left_iff.mp alike
  obtain ⟨block, rest, isInner, rfl, _⟩ := List.map_eq_cons_iff.mp labels
  obtain ⟨code', patched⟩ := @patchBreaks_of_inside s.len
    (s.instructions, s.brTableTargetBranches) block.attachedBreaks tabled.tables
    (tabled.keys block (isInner ▸ List.mem_cons_self))
  have shapes : code'.1.map StackInstruction.unaimed =
      s.instructions.map StackInstruction.unaimed :=
    congrArg Prod.fst (unaimed_patchBreaks patched)
  rw [← shapes] at first
  obtain ⟨instructions', patchedIf⟩ := patchIf_of_openedAs first
  exact ⟨_, .endOp isInner patched patchedIf⟩

/-- The labels are as many as the frames. -/
theorem OpenedAlike.length
    (alike : OpenedAlike v s) :
    s.controlStack.inner.length = v.frames.length := by
  have lengths := alike.length_eq
  rw [List.length_map, List.length_map] at lengths
  exact lengths.symm

/-- An operator that is accepted and known can be lowered. -/
theorem stackStep_of_accepted
    (tabled : s.Tabled) (agrees : Agrees v l s.controlStack) (alike : OpenedAlike v s)
    (accepted : v.step mod localsCount results op = some v')
    (live : l.dead = false → ∀ frame outer, v.frames = frame :: outer →
      Validator.LiveStep mod localsCount results v frame outer v' op)
    (known : op.rejection = none) :
    ∃ s', StackStep mod offset s op s' := by
  have nonempty := Validator.frames_ne_nil_of_step accepted
  obtain ⟨frame, outer, opened⟩ := List.exists_cons_of_ne_nil nonempty
  have isDead := agrees.isDead nonempty
  -- what the validator counts in live code is what the lowering counts
  have counted {needed : Nat}
      (enough : Validator.LiveStep mod localsCount results v frame outer v' op →
        needed ≤ v.height) :
      s.controlStack.isDead = false → needed ≤ s.controlStack.currHeight := by
    intro alive
    rw [isDead] at alive
    rw [agrees.height alive]
    exact enough (live alive frame outer opened)
  have label {depth : Nat} {target : Frame} (found : v.frames[depth]? = some target) :
      ∃ block, s.controlStack.inner[depth]? = some block := by
    have inside := (List.getElem?_eq_some_iff.mp found).1
    rw [← alike.length] at inside
    exact ⟨_, List.getElem?_eq_getElem inside⟩
  cases simple : simpleInstruction mod op with
  | some lowered =>
      obtain ⟨instr, effect⟩ := lowered
      exact ⟨_, .simple simple known (counted (simpleInstruction_enough simple))⟩
  | none =>
  cases isOpening : opening s.len op with
  | some label =>
      obtain ⟨kind, blockty, own, instr⟩ := label
      obtain ⟨params, blockResults, arities⟩ := arities_of_accepted isOpening accepted
      exact ⟨_, .opens isOpening arities (counted (opening_enough isOpening arities))⟩
  | none =>
  cases op with
  | elseOp =>
      obtain ⟨_, _, frames, isThen, _⟩ := Validator.framesStep_of_step accepted
      unfold OpenedAlike at alike
      rw [frames, List.map_cons, isThen] at alike
      obtain ⟨kind, kinds, ⟨ifIndex, isKind, _⟩, _, labels⟩ :=
        List.forall₂_cons_left_iff.mp alike
      obtain ⟨block, rest, isInner, same, _⟩ := List.map_eq_cons_iff.mp labels
      exact ⟨_, .elseOp isInner (same.trans isKind)⟩
  | endOp => exact endOp_of_openedAlike tabled alike opened
  | br depth =>
      obtain ⟨target, isTarget, _⟩ := Option.bind_eq_some_iff.mp accepted
      obtain ⟨block, found⟩ := label isTarget
      exact ⟨_, .br found⟩
  | brIf depth =>
      obtain ⟨target, isTarget, _⟩ := Option.bind_eq_some_iff.mp accepted
      obtain ⟨block, found⟩ := label isTarget
      refine ⟨_, .brIf found (counted ?_)⟩
      rintro ⟨_, _, enough, _⟩
      omega
  | brTable targets last =>
      obtain ⟨target, isTarget, rest⟩ := Option.bind_eq_some_iff.mp accepted
      rw [Option.ite_none_right_eq_some] at rest
      have inside : ∀ depth ∈ targets ++ [last], depth < s.controlStack.inner.length := by
        intro depth member
        rw [alike.length]
        rcases List.mem_append.mp member with isOther | isLast
        · obtain ⟨other, found, _⟩ := Option.map_eq_some_iff.mp (rest.1 depth isOther)
          exact (List.getElem?_eq_some_iff.mp found).1
        · rw [List.mem_singleton.mp isLast]
          exact (List.getElem?_eq_some_iff.mp isTarget).1
      obtain ⟨arms, inner, built⟩ := brArms_of_inside inside
      exact ⟨_, .brTable built⟩
  | returnOp =>
      have some : s.controlStack.inner ≠ [] := by
        rw [← List.length_pos_iff, alike.length]
        exact List.length_pos_iff.mpr nonempty
      exact ⟨_, .returnOp (List.getLast?_eq_some_getLast some)⟩
  | unreachable => exact ⟨_, .unreachable⟩
  | call functionIndex =>
      obtain ⟨ty, typed, _⟩ := Option.bind_eq_some_iff.mp accepted
      have untyped : mod.funcType functionIndex = none := Option.map_eq_none_iff.mp simple
      rw [typed] at untyped
      cases untyped
  | callIndirect typeIndex tableIndex =>
      obtain ⟨ty, typed, _⟩ := Option.bind_eq_some_iff.mp accepted
      have untyped : mod.types[typeIndex]? = none := Option.map_eq_none_iff.mp simple
      rw [typed] at untyped
      cases untyped
  | tryTable blockty debug => cases known
  | other op => cases known
  | block blockty => cases isOpening
  | loop blockty => cases isOpening
  | ifOp blockty => cases isOpening
  | _ => cases simple

end Progress

/-! ## Whole bodies -/

section Bodies

variable {mod : ModuleTypes} {func : FuncHeader} {ops : List (Operator × Nat)}

/-- What is known between two operators of a body, all known so far. -/
structure Underway
    (mod : ModuleTypes) (func : FuncHeader) (ops : List (Operator × Nat)) (position : Nat)
    (s : Lowering) (v : Validator) : Prop where
  reached : Reached ops position s
  ran : Validator.before mod func (ops.map Prod.fst) position = some v
  agrees : Agrees v (Liveness.after ((ops.map Prod.fst).take position)) s.controlStack
  alike : OpenedAlike v s

theorem underway_zero :
    Underway mod func ops 0 (.initial func) (.initial func.params func.results) where
  reached := reached_zero
  ran := rfl
  agrees := ⟨.cons (fun _ => ⟨by simp [BlockKind.isLoop], rfl⟩) .nil, rfl, rfl, fun _ => rfl⟩
  alike := .cons rfl .nil

/-- The next operator, if it is known, is lowered. -/
theorem Underway.next
    {position : Nat} {s : Lowering} {v : Validator} {located : Operator × Nat}
    (underway : Underway mod func ops position s v)
    (validates : Validates mod func (ops.map Prod.fst))
    (found : ops[position]? = some located)
    (known : located.1.rejection = none) :
    ∃ s' v', s.lowerOperator mod located = .ok s' ∧
      Underway mod func ops (position + 1) s' v' := by
  obtain ⟨op, offset⟩ := located
  have isOp : (ops.map Prod.fst)[position]? = some op := map_fst_getElem? found
  have inside := (List.getElem?_eq_some_iff.mp isOp).1
  obtain ⟨same, v', ranSame, accepted, ranNext⟩ := validates.step isOp
  obtain rfl : same = v := Option.some.inj (ranSame.symm.trans underway.ran)
  have live : (Liveness.after ((ops.map Prod.fst).take position)).dead = false →
      ∀ frame outer, same.frames = frame :: outer →
        Validator.LiveStep mod func.localsCount func.results same frame outer v' op := by
    intro alive frame outer opened
    have layered := Validator.layered_before underway.ran (Nat.le_of_lt inside)
    unfold Validator.Layered at layered
    rw [opened] at layered
    exact Validator.liveStep_of_step opened
      (live_head underway.ran (Nat.le_of_lt inside) opened alive).1 layered.1 accepted
  obtain ⟨s', step⟩ := @stackStep_of_accepted mod func.localsCount func.results
    (offset % 2 ^ 32) _ _ _ _ _ underway.reached.tabled underway.agrees underway.alike accepted
    live known
  have wellNested := validates.wellNested
  have lowered := Lowering.lowerOperator_of_step (underway.reached.opened wellNested found) step
  refine ⟨s', v', lowered, (underway.reached.step wellNested found lowered).2, ranNext, ?_,
    underway.alike.step accepted step⟩
  rw [Liveness.after_succ isOp]
  exact underway.agrees.step (Liveness.deadOnTop_after _ _) accepted live step

/-- The operators before a position, if they are known, are lowered. -/
theorem underway_of_known
    (validates : Validates mod func (ops.map Prod.fst))
    (position : Nat) (inside : position ≤ ops.length)
    (known : ∀ located ∈ ops.take position, located.1.rejection = none) :
    ∃ s v, (Lowering.initial func).lowerOperators mod (ops.take position) = .ok s ∧
      Underway mod func ops position s v := by
  induction position with
  | zero => exact ⟨_, _, rfl, underway_zero⟩
  | succ position inductionHypothesis =>
      have found := List.getElem?_eq_getElem (show position < ops.length from inside)
      rw [List.take_add_one, found] at known ⊢
      obtain ⟨earlier, here⟩ := List.forall_mem_append.mp known
      obtain ⟨s, v, lowered, underway⟩ := inductionHypothesis (by omega) earlier
      obtain ⟨s', v', isNext, underwayNext⟩ :=
        underway.next validates found (here _ List.mem_cons_self)
      refine ⟨s', v', ?_, underwayNext⟩
      unfold Lowering.lowerOperators at lowered ⊢
      rw [List.foldlM_append, lowered, Attempt.ok_bind]
      change (Lowering.lowerOperator mod s ops[position] >>= pure) = _
      rw [isNext]
      rfl

/-- A validated body is lowered if all its operators are known. -/
theorem exists_emitted
    (validates : Validates mod func (ops.map Prod.fst))
    (known : ∀ located ∈ ops, located.1.rejection = none) :
    ∃ body, emitInstructionsForFunc mod func ops = .ok body := by
  obtain ⟨s, _, lowered, _⟩ := underway_of_known validates ops.length le_rfl
    (fun located member => known located (List.mem_of_mem_take member))
  rw [List.take_length] at lowered
  refine ⟨⟨s.instructions, s.instructionOffsets, ⟨s.brTableTargetBranches⟩⟩, ?_⟩
  unfold emitInstructionsForFunc
  rw [lowered, Attempt.ok_bind]
  rfl

/-- Otherwise the first unknown one is reported, live or dead. -/
theorem emit_eq_fail
    {front rest : List (Operator × Nat)} {located : Operator × Nat}
    {reported : TraceWasmError}
    (validates : Validates mod func (ops.map Prod.fst))
    (isBody : ops = front ++ located :: rest)
    (known : ∀ earlier ∈ front, earlier.1.rejection = none)
    (rejected : located.1.rejection = some reported) :
    emitInstructionsForFunc mod func ops = .fail reported := by
  have isFront : ops.take front.length = front := by rw [isBody, List.take_left]
  have inside : front.length ≤ ops.length := by
    rw [isBody, List.length_append]
    exact Nat.le_add_right _ _
  obtain ⟨s, _, lowered, _⟩ := underway_of_known validates front.length inside
    (isFront.symm ▸ known)
  rw [isFront] at lowered
  have failed : (Lowering.initial func).lowerOperators mod ops = .fail reported := by
    rw [isBody]
    exact Attempt.foldlM_of_error lowered (Lowering.lowerOperator_rejected rejected)
  unfold emitInstructionsForFunc
  rw [failed]
  rfl

/-- The stack lowering reads live and dead code and has no limits. -/
theorem refusesUnknown
    (validates : Validates mod func (ops.map Prod.fst)) :
    RefusesUnknown (ops.map Prod.fst) (fun _ => True) (fun _ => False)
      (emitInstructionsForFunc mod func ops) := by
  apply RefusesUnknown.of_meets
  cases first : ops.find? fun other => other.1.rejection.isSome with
  | none =>
      have known : ∀ other ∈ ops, other.1.rejection = none := by
        intro other member
        simpa using List.find?_eq_none.mp first other member
      obtain ⟨body, emitted⟩ := exists_emitted validates known
      rw [emitted]
      intro position op _ found
      obtain ⟨other, member, rfl⟩ := List.mem_map.mp (List.mem_of_getElem? found)
      exact known other member
  | some other =>
      obtain ⟨isRejected, front, rest, isBody, before⟩ := List.find?_eq_some_iff_append.mp first
      obtain ⟨reported, rejected⟩ := Option.isSome_iff_exists.mp isRejected
      have known : ∀ earlier ∈ front, earlier.1.rejection = none := by
        intro earlier member
        simpa using before earlier member
      rw [emit_eq_fail validates isBody known rejected]
      refine .inr ⟨front.length, other.1, trivial, ?_, rejected, ?_⟩
      · rw [isBody, List.map_append, List.getElem?_append_right (by simp)]
        simp
      · intro position op _ found
        rw [isBody, List.map_append, List.take_left' (List.length_map _)] at found
        obtain ⟨earlier, member, rfl⟩ := List.mem_map.mp (List.mem_of_getElem? found)
        exact known earlier member

end Bodies

end Stack
end TraceWasm
