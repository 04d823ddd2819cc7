import TraceWasm.Stack.Lower

/-!
# What lowering one operator does

A successful iteration of the loop is one of a few steps: the operator leaves the
labels alone, opens one, turns an `if` over to its `else`, closes one, or branches.
-/

namespace TraceWasm
namespace Stack

/-- How many operands an effect pops and pushes. -/
def StackEffectResult.counts : StackEffectResult → Nat × Nat
  | .popPush pops pushes => (pops, pushes)
  | .stores => (2, 0)
  | .binaryOperator => (2, 1)
  | _ => (0, 0)

namespace Lowering

/-- The instruction of an operator that leaves the labels alone, and its effect. -/
def simpleInstruction (mod : ModuleTypes) : Operator → Option Lowered
  | .localGet index => some (.localGet index, .popPush 0 1)
  | .localSet index => some (.localSet index, .popPush 1 0)
  | .localTee index => some (.localTee index, .popPush 1 1)
  | .const value => some (.const value, .popPush 0 1)
  | .data op => some (.data (narrowOffset op.dropMemory), dataEffect op.dropMemory)
  | .dataDrop dataIndex => some (.dataDrop dataIndex, .noEffect)
  | .nop => some (.nop, .noEffect)
  | .drop => some (.drop, .popPush 1 0)
  | .call functionIndex => (mod.funcType functionIndex).map fun ty =>
      (.call functionIndex ty.params.length, .popPush ty.params.length ty.results.length)
  | .callIndirect typeIndex tableIndex => (mod.types[typeIndex]?).map fun ty =>
      (.callIndirect typeIndex tableIndex, .popPush (1 + ty.params.length) ty.results.length)
  | _ => none

/-- The label that an operator opens, with the number of operands it pops itself, and
the instruction it becomes. -/
def opening (len : Nat) : Operator → Option (BlockKind × BlockType × Nat × StackInstruction)
  | .block blockty => some (.block, blockty, 0, .block)
  | .loop blockty => some (.loop len, blockty, 0, .loop)
  | .ifOp blockty => some (.ifOp len none, blockty, 1, .ifOp none u32Max)
  | _ => none

end Lowering

namespace ControlStack

/-- The height, unless the code is dead. -/
def heightAfter (control : ControlStack) (height : Nat) : Nat :=
  if control.isDead then control.currHeight else height

/-- The label that is opened, of which an operator has popped `own` operands. -/
def openedBlock
    (control : ControlStack) (kind : BlockKind) (params results own : Nat) : Block :=
  if control.isDead then ⟨kind, 0, params, results, true, true, []⟩
  else ⟨kind, control.currHeight - params - own, params, results, false, false, []⟩

end ControlStack

/-- The rest of the innermost label is dead. -/
def markDead (inner : List Block) : List Block :=
  inner.modifyHead fun block => { block with isUnreachableTraversing := true }

/-- The label of an `if` whose `else` is at an index. -/
def withElse (block : Block) (ifIndex elseIndex : Nat) : Block :=
  { block with
    kind := .ifOp ifIndex (some elseIndex)
    isUnreachableTraversing := block.hasInherited && block.isUnreachableTraversing }

/-- Attach a branch to its label, unless that is a loop. -/
def attach (inner : List Block) (relativeDepth : Nat) (block : Block) (key : Nat × Nat) :
    List Block :=
  match block.kind.isLoop with
  | some _ => inner
  | none => inner.modify relativeDepth fun block =>
      { block with attachedBreaks := block.attachedBreaks ++ [key] }

/-- The arms of a `br_table` at an index, with the labels they are attached to. -/
def brArms (index : Nat) (inner : List Block) (slot : Nat) :
    List Nat → Option (List Target × List Block)
  | [] => some ([], inner)
  | relativeDepth :: targets => do
      let block ← inner[relativeDepth]?
      let (arms, inner) ←
        brArms index (attach inner relativeDepth block (index, slot)) (slot + 1) targets
      return (Lowering.targetOf block :: arms, inner)

/-- Lowering one operator with an open label. -/
inductive StackStep (mod : ModuleTypes) (offset : Nat) (s : Lowering) :
    Operator → Lowering → Prop
  | simple
      (simple : Lowering.simpleInstruction mod op = some (instr, effect))
      (known : op.rejection = none)
      (enough : s.controlStack.isDead = false →
        effect.counts.1 ≤ s.controlStack.currHeight) :
      StackStep mod offset s op
        ⟨s.instructions ++ [instr], s.instructionOffsets ++ [offset],
          ⟨s.controlStack.inner, s.controlStack.heightAfter
            (s.controlStack.currHeight - effect.counts.1 + effect.counts.2)⟩,
          s.brTableTargetBranches⟩
  | opens
      (opening : Lowering.opening s.len op = some (kind, blockty, own, instr))
      (arities : paramsAndResultsFromBlockty mod.types blockty = some (params, results))
      (enough : s.controlStack.isDead = false → params + own ≤ s.controlStack.currHeight) :
      StackStep mod offset s op
        ⟨s.instructions ++ [instr], s.instructionOffsets ++ [offset],
          ⟨s.controlStack.openedBlock kind params results own :: s.controlStack.inner,
            s.controlStack.heightAfter (s.controlStack.currHeight - own)⟩,
          s.brTableTargetBranches⟩
  | elseOp
      (opened : s.controlStack.inner = block :: outer)
      (kind : block.kind = .ifOp ifIndex elseIndex) :
      StackStep mod offset s .elseOp
        ⟨s.instructions ++ [.elseOp u32Max], s.instructionOffsets ++ [offset],
          ⟨withElse block ifIndex s.len :: outer,
            if block.hasInherited && block.isUnreachableTraversing then
              s.controlStack.currHeight
            else block.recordedHeight + block.params⟩,
          s.brTableTargetBranches⟩
  | endOp
      (opened : s.controlStack.inner = block :: outer)
      (patched : block.attachedBreaks.foldlM (Lowering.patchBreak s.len)
        (s.instructions, s.brTableTargetBranches) = .ok (instructions, branches))
      (patchedIf : Lowering.patchIf s.len instructions block.kind = .ok instructions') :
      StackStep mod offset s .endOp
        ⟨instructions' ++ [.endOp block.results block.recordedHeight],
          s.instructionOffsets ++ [offset],
          ⟨outer, ControlStack.heightAfter ⟨outer, s.controlStack.currHeight⟩
            (block.recordedHeight + block.results)⟩,
          branches⟩
  | br
      (found : s.controlStack.inner[relativeDepth]? = some block) :
      StackStep mod offset s (.br relativeDepth)
        ⟨s.instructions ++ [.br (Lowering.targetOf block)], s.instructionOffsets ++ [offset],
          ⟨markDead (attach s.controlStack.inner relativeDepth block (s.len, u32Max)),
            s.controlStack.currHeight⟩,
          s.brTableTargetBranches⟩
  | brIf
      (found : s.controlStack.inner[relativeDepth]? = some block)
      (enough : s.controlStack.isDead = false → 1 ≤ s.controlStack.currHeight) :
      StackStep mod offset s (.brIf relativeDepth)
        ⟨s.instructions ++ [.brIf (Lowering.targetOf block)], s.instructionOffsets ++ [offset],
          ⟨attach s.controlStack.inner relativeDepth block (s.len, u32Max),
            s.controlStack.heightAfter (s.controlStack.currHeight - 1)⟩,
          s.brTableTargetBranches⟩
  | brTable
      {inner : List Block}
      (built : brArms s.len s.controlStack.inner s.brTableTargetBranches.length
        (targets ++ [last]) = some (arms, inner)) :
      StackStep mod offset s (.brTable targets last)
        ⟨s.instructions ++ [.brTable s.brTableTargetBranches.length (targets.length + 1)],
          s.instructionOffsets ++ [offset],
          ⟨markDead inner, s.controlStack.currHeight⟩,
          s.brTableTargetBranches ++ arms⟩
  | returnOp
      (found : s.controlStack.inner.getLast? = some block) :
      StackStep mod offset s .returnOp
        ⟨s.instructions ++ [.returnOp ⟨u32Max, block.results, block.recordedHeight⟩],
          s.instructionOffsets ++ [offset],
          ⟨markDead (s.controlStack.inner.modify (s.controlStack.inner.length - 1) fun block =>
              { block with attachedBreaks := block.attachedBreaks ++ [(s.len, u32Max)] }),
            s.controlStack.currHeight⟩,
          s.brTableTargetBranches⟩
  | unreachable :
      StackStep mod offset s .unreachable
        ⟨s.instructions ++ [.unreachable], s.instructionOffsets ++ [offset],
          ⟨markDead s.controlStack.inner, s.controlStack.currHeight⟩,
          s.brTableTargetBranches⟩

/-! ## The arms of the operators -/

section Arms

variable {mod : ModuleTypes} {s s' : Lowering}

namespace ControlStack

variable {control after : ControlStack}

theorem applyStackEffectsToHeight_eq_ok
    {pops pushes : Nat}
    (opened : control.inner ≠ []) :
    control.applyStackEffectsToHeight pops pushes = .ok after ↔
      (control.isDead = false → pops ≤ control.currHeight) ∧
      after = ⟨control.inner, control.heightAfter (control.currHeight - pops + pushes)⟩ := by
  unfold applyStackEffectsToHeight heightAfter
  rw [if_neg opened]
  cases control.isDead with
  | true =>
      rw [if_pos rfl, if_pos rfl]
      exact ⟨fun same => ⟨by simp, (Except.ok.inj same).symm⟩,
        fun both => congrArg Except.ok both.2.symm⟩
  | false =>
      simp only [Bool.false_eq_true, if_false, Attempt.bind_eq_ok, Attempt.sub_eq_ok]
      constructor
      · rintro ⟨below, ⟨le, rfl⟩, same⟩
        cases same
        exact ⟨fun _ => le, rfl⟩
      · rintro ⟨le, rfl⟩
        exact ⟨_, ⟨le trivial, rfl⟩, rfl⟩

theorem applyEffect_eq_ok
    {effect : StackEffectResult}
    (opened : control.inner ≠ [])
    (relative : ∀ height, effect ≠ .setHeight height) :
    control.applyEffect effect = .ok after ↔
      (control.isDead = false → effect.counts.1 ≤ control.currHeight) ∧
      after = ⟨control.inner,
        control.heightAfter (control.currHeight - effect.counts.1 + effect.counts.2)⟩ := by
  have stays : (.ok control : Attempt TraceWasmError ControlStack) = .ok after ↔
      (control.isDead = false → 0 ≤ control.currHeight) ∧
      after = ⟨control.inner, control.heightAfter (control.currHeight - 0 + 0)⟩ := by
    have same : control.heightAfter (control.currHeight - 0 + 0) = control.currHeight := by
      unfold heightAfter
      split <;> rfl
    rw [same]
    exact ⟨fun same => ⟨fun _ => Nat.zero_le _, (Except.ok.inj same).symm⟩,
      fun both => congrArg Except.ok both.2.symm⟩
  cases effect with
  | popPush pops pushes => exact applyStackEffectsToHeight_eq_ok opened
  | stores => exact applyStackEffectsToHeight_eq_ok opened
  | binaryOperator => exact applyStackEffectsToHeight_eq_ok opened
  | setHeight height => exact (relative height rfl).elim
  | noEffect => exact stays
  | unreachable => exact stays
  | loads => exact stays
  | unaryOperator => exact stays

end ControlStack

namespace Lowering

/-- An iteration is an arm, whose effect is then applied. -/
theorem lowerOperator_eq_ok
    {op : Operator} {offset : Nat} :
    s.lowerOperator mod (op, offset) = .ok s' ↔
      ∃ instr effect after control, s.lowerArm mod op = .ok ((instr, effect), after) ∧
        after.controlStack.applyEffect effect = .ok control ∧
        s' = ⟨after.instructions ++ [instr], after.instructionOffsets ++ [offset % 2 ^ 32],
          control, after.brTableTargetBranches⟩ := by
  unfold lowerOperator
  rw [Attempt.bind_eq_ok]
  constructor
  · rintro ⟨⟨⟨instr, effect⟩, after⟩, armed, applied⟩
    obtain ⟨control, isControl, same⟩ := Attempt.bind_eq_ok.mp applied
    cases same
    exact ⟨instr, effect, after, control, armed, isControl, rfl⟩
  · rintro ⟨instr, effect, after, control, armed, isControl, rfl⟩
    refine ⟨_, armed, ?_⟩
    dsimp only
    rw [isControl]
    rfl

/-- An operator that leaves the labels alone leaves the whole state alone. -/
theorem lowerArm_simple
    {op : Operator} {lowered : Lowered}
    (simple : simpleInstruction mod op = some lowered)
    (known : op.rejection = none) :
    s.lowerArm mod op = .ok (lowered, s) := by
  cases op with
  | data op =>
      cases simple
      change s.lowerData op = _
      unfold lowerData
      rw [DataOp.checkMemory_eq known]
      rfl
  | call functionIndex =>
      obtain ⟨ty, typed, rfl⟩ := Option.map_eq_some_iff.mp simple
      change lowerCall mod s functionIndex = _
      unfold lowerCall
      rw [typed]
      rfl
  | callIndirect typeIndex tableIndex =>
      obtain ⟨ty, typed, rfl⟩ := Option.map_eq_some_iff.mp simple
      change lowerCallIndirect mod.types s typeIndex tableIndex = _
      unfold lowerCallIndirect
      rw [typed]
      rfl
  | _ => first | cases simple; rfl | cases simple

theorem simpleInstruction_relative
    {op : Operator} {instr : StackInstruction} {effect : StackEffectResult}
    (simple : simpleInstruction mod op = some (instr, effect)) (height : Nat) :
    effect ≠ .setHeight height := by
  cases op with
  | data op =>
      cases simple
      cases op <;> simp [dataEffect, DataOp.dropMemory]
  | call functionIndex =>
      obtain ⟨ty, typed, same⟩ := Option.map_eq_some_iff.mp simple
      cases same
      simp
  | callIndirect typeIndex tableIndex =>
      obtain ⟨ty, typed, same⟩ := Option.map_eq_some_iff.mp simple
      cases same
      simp
  | _ => first | cases simple; simp | cases simple

/-- Opening a label needs the operands it takes, unless the code is dead. -/
theorem addBlock_eq_ok
    {control after : ControlStack} {kind : BlockKind} {blockty : BlockType}
    {types : List FuncType} {own : Nat}
    (isKind : kind = .block ∧ own = 0 ∨ (∃ index, kind = .loop index ∧ own = 0) ∨
      ∃ index, kind = .ifOp index none ∧ own = 1) :
    control.addBlock kind blockty types = .ok after ↔
      ∃ params results, paramsAndResultsFromBlockty types blockty = some (params, results) ∧
        (control.isDead = false → params + own ≤ control.currHeight) ∧
        after = ⟨control.openedBlock kind params results own :: control.inner,
          control.currHeight⟩ := by
  unfold ControlStack.addBlock
  rw [Attempt.bind_eq_ok]
  simp only [Attempt.orPanic_eq_ok, Prod.exists]
  refine exists_congr fun params => exists_congr fun results => and_congr_right fun _ => ?_
  unfold ControlStack.openedBlock
  cases control.isDead with
  | true =>
      simp only [if_true]
      exact ⟨fun same => ⟨by simp, (Except.ok.inj same).symm⟩,
        fun both => congrArg Except.ok both.2.symm⟩
  | false =>
      simp only [Bool.false_eq_true, if_false]
      have sides : ∀ {recordedHeight}, params + own ≤ control.currHeight →
          recordedHeight = control.currHeight - params - own →
          (Except.ok ⟨⟨kind, recordedHeight, params, results, false, false, []⟩ ::
            control.inner, control.currHeight⟩ = (.ok after : Attempt TraceWasmError _) ↔
          (True → params + own ≤ control.currHeight) ∧
            after = ⟨⟨kind, control.currHeight - params - own, params, results, false, false,
              []⟩ :: control.inner, control.currHeight⟩) := by
        rintro recordedHeight enough rfl
        exact ⟨fun same => ⟨fun _ => enough, (Except.ok.inj same).symm⟩,
          fun both => congrArg Except.ok both.2.symm⟩
      rcases isKind with ⟨rfl, rfl⟩ | ⟨index, rfl, rfl⟩ | ⟨index, rfl, rfl⟩
      · simp only [Attempt.bind_eq_ok, Attempt.sub_eq_ok]
        constructor
        · rintro ⟨recordedHeight, ⟨enough, rfl⟩, same⟩
          exact (sides enough rfl).mp same
        · intro both
          exact ⟨_, ⟨both.1 trivial, rfl⟩, (sides (both.1 trivial) rfl).mpr both⟩
      · simp only [Attempt.bind_eq_ok, Attempt.sub_eq_ok]
        constructor
        · rintro ⟨recordedHeight, ⟨enough, rfl⟩, same⟩
          exact (sides enough rfl).mp same
        · intro both
          exact ⟨_, ⟨both.1 trivial, rfl⟩, (sides (both.1 trivial) rfl).mpr both⟩
      · simp only [Attempt.bind_eq_ok, Attempt.sub_eq_ok]
        constructor
        · rintro ⟨above, ⟨enough, rfl⟩, recordedHeight, ⟨one, rfl⟩, same⟩
          exact (sides (by omega) rfl).mp same
        · intro both
          have enough := both.1 trivial
          exact ⟨_, ⟨by omega, rfl⟩, _, ⟨by omega, rfl⟩, (sides enough rfl).mpr both⟩

theorem isDead_openedBlock
    (control : ControlStack) (kind : BlockKind) (params results own height : Nat) :
    ControlStack.isDead
      ⟨control.openedBlock kind params results own :: control.inner, height⟩ =
        control.isDead := by
  unfold ControlStack.openedBlock
  cases dead : control.isDead <;> rfl

/-- The arm of a branch attaches it to its label. -/
theorem resolveBranch_eq_ok
    {relativeDepth : Nat} {key : Nat × Nat} {target : Target} :
    s.resolveBranch relativeDepth key = .ok (target, s') ↔
      ∃ block, s.controlStack.inner[relativeDepth]? = some block ∧ target = targetOf block ∧
        s' = { s with controlStack :=
          ⟨attach s.controlStack.inner relativeDepth block key, s.controlStack.currHeight⟩ } := by
  unfold resolveBranch getBlock
  rw [Attempt.bind_eq_ok]
  simp only [Attempt.orPanic_eq_ok]
  refine exists_congr fun block => and_congr_right fun _ => ?_
  unfold attach
  cases block.kind.isLoop with
  | some index =>
      constructor
      · rintro ⟨⟩
        exact ⟨rfl, rfl⟩
      · rintro ⟨rfl, rfl⟩
        rfl
  | none =>
      constructor
      · rintro ⟨⟩
        exact ⟨rfl, rfl⟩
      · rintro ⟨rfl, rfl⟩
        rfl

/-- The arms of a `br_table` take their slots one after the other. -/
theorem lowerBrTargets_eq_ok
    {start arm : Nat} {targets : List Nat} :
    s.lowerBrTargets start arm targets = .ok s' ↔
      ∃ arms inner, brArms s.len s.controlStack.inner (start + arm) targets =
          some (arms, inner) ∧
        s' = { s with
          controlStack := ⟨inner, s.controlStack.currHeight⟩
          brTableTargetBranches := s.brTableTargetBranches ++ arms } := by
  induction targets generalizing s arm with
  | nil =>
      constructor
      · rintro ⟨⟩
        exact ⟨[], _, rfl, by simp⟩
      · rintro ⟨arms, inner, built, rfl⟩
        cases built
        simp [lowerBrTargets]
  | cons relativeDepth targets inductionHypothesis =>
      unfold lowerBrTargets
      rw [Attempt.bind_eq_ok]
      constructor
      · rintro ⟨⟨target, after⟩, resolved, rest⟩
        obtain ⟨block, found, rfl, rfl⟩ := resolveBranch_eq_ok.mp resolved
        obtain ⟨arms, inner, built, rfl⟩ := inductionHypothesis.mp rest
        refine ⟨targetOf block :: arms, inner, ?_, by simp⟩
        unfold brArms
        rw [found, Option.bind_eq_bind, Option.bind_some]
        change brArms s.len _ (start + arm + 1) targets = _ at built
        rw [built]
        rfl
      · rintro ⟨arms, inner, built, rfl⟩
        obtain ⟨block, found, built⟩ := Option.bind_eq_some_iff.mp built
        obtain ⟨⟨rest, final⟩, builtRest, same⟩ := Option.bind_eq_some_iff.mp built
        cases same
        refine ⟨_, resolveBranch_eq_ok.mpr ⟨block, found, rfl, rfl⟩, ?_⟩
        exact inductionHypothesis.mpr ⟨rest, inner, builtRest, by simp⟩

/-- Behind a diverging operator the rest of the innermost label is dead. -/
theorem leaveBlock_eq_ok :
    s.leaveBlock = .ok s' ↔ s.controlStack.inner ≠ [] ∧
      s' = { s with controlStack :=
        ⟨markDead s.controlStack.inner, s.controlStack.currHeight⟩ } := by
  unfold leaveBlock ControlStack.setUnreachableTraversing ControlStack.modifyCurrBlock
  rw [Attempt.bind_eq_ok]
  cases opened : s.controlStack.inner with
  | nil => simp [Attempt.panicked]
  | cons block outer =>
      constructor
      · rintro ⟨control, same, last⟩
        cases same
        cases last
        exact ⟨List.cons_ne_nil _ _, rfl⟩
      · rintro ⟨_, rfl⟩
        exact ⟨_, rfl, rfl⟩

/-! ## The steps -/

theorem lowerOperator_simple
    {op : Operator} {offset : Nat} {instr : StackInstruction} {effect : StackEffectResult}
    (opened : s.controlStack.inner ≠ [])
    (simple : simpleInstruction mod op = some (instr, effect))
    (known : op.rejection = none) :
    s.lowerOperator mod (op, offset) = .ok s' ↔
      (s.controlStack.isDead = false → effect.counts.1 ≤ s.controlStack.currHeight) ∧
      s' = ⟨s.instructions ++ [instr], s.instructionOffsets ++ [offset % 2 ^ 32],
        ⟨s.controlStack.inner, s.controlStack.heightAfter
          (s.controlStack.currHeight - effect.counts.1 + effect.counts.2)⟩,
        s.brTableTargetBranches⟩ := by
  have relative := simpleInstruction_relative simple
  rw [lowerOperator_eq_ok]
  constructor
  · rintro ⟨_, _, after, control, armed, applied, rfl⟩
    rw [lowerArm_simple simple known] at armed
    cases armed
    obtain ⟨enough, rfl⟩ := (ControlStack.applyEffect_eq_ok opened relative).mp applied
    exact ⟨enough, rfl⟩
  · rintro ⟨enough, rfl⟩
    refine ⟨instr, effect, s, _, lowerArm_simple simple known, ?_, rfl⟩
    exact (ControlStack.applyEffect_eq_ok opened relative).mpr ⟨enough, rfl⟩

/-- The effect of an operator that opens a label. -/
def openingEffect : Operator → StackEffectResult
  | .ifOp _ => .popPush 1 0
  | _ => .noEffect

theorem lowerArm_opening
    {op : Operator} {kind : BlockKind} {blockty : BlockType} {own : Nat}
    {instr : StackInstruction}
    (isOpening : opening s.len op = some (kind, blockty, own, instr)) :
    s.lowerArm mod op = lowerBlock mod.types s kind blockty (instr, openingEffect op) ∧
      (openingEffect op).counts = (own, 0) ∧
      (∀ height, openingEffect op ≠ .setHeight height) ∧
      (kind = .block ∧ own = 0 ∨ (∃ index, kind = .loop index ∧ own = 0) ∨
        ∃ index, kind = .ifOp index none ∧ own = 1) := by
  cases op with
  | block blockty =>
      cases isOpening
      exact ⟨rfl, rfl, by simp [openingEffect], .inl ⟨rfl, rfl⟩⟩
  | loop blockty =>
      cases isOpening
      exact ⟨rfl, rfl, by simp [openingEffect], .inr (.inl ⟨_, rfl, rfl⟩)⟩
  | ifOp blockty =>
      cases isOpening
      exact ⟨rfl, rfl, by simp [openingEffect], .inr (.inr ⟨_, rfl, rfl⟩)⟩
  | _ => cases isOpening

theorem lowerOperator_opening
    {op : Operator} {offset : Nat} {kind : BlockKind} {blockty : BlockType} {own : Nat}
    {instr : StackInstruction}
    (isOpening : opening s.len op = some (kind, blockty, own, instr)) :
    s.lowerOperator mod (op, offset) = .ok s' ↔
      ∃ params results, paramsAndResultsFromBlockty mod.types blockty = some (params, results) ∧
      (s.controlStack.isDead = false → params + own ≤ s.controlStack.currHeight) ∧
      s' = ⟨s.instructions ++ [instr], s.instructionOffsets ++ [offset % 2 ^ 32],
        ⟨s.controlStack.openedBlock kind params results own :: s.controlStack.inner,
          s.controlStack.heightAfter (s.controlStack.currHeight - own)⟩,
        s.brTableTargetBranches⟩ := by
  obtain ⟨arm, counts, relative, isKind⟩ :=
    @lowerArm_opening mod s op kind blockty own instr isOpening
  have applies : ∀ (params results : Nat) (control : ControlStack),
      (s.controlStack.isDead = false → params + own ≤ s.controlStack.currHeight) →
      (ControlStack.applyEffect
        ⟨s.controlStack.openedBlock kind params results own :: s.controlStack.inner,
          s.controlStack.currHeight⟩ (openingEffect op) = .ok control ↔
        control = ⟨s.controlStack.openedBlock kind params results own :: s.controlStack.inner,
          s.controlStack.heightAfter (s.controlStack.currHeight - own)⟩) := by
    intro params results control enough
    rw [ControlStack.applyEffect_eq_ok (List.cons_ne_nil _ _) relative, counts]
    unfold ControlStack.heightAfter
    rw [isDead_openedBlock]
    simp only [Nat.add_zero, and_iff_right_iff_imp]
    intro _ live
    have := enough live
    omega
  rw [lowerOperator_eq_ok, arm]
  unfold lowerBlock
  constructor
  · rintro ⟨_, _, after, control, armed, applied, rfl⟩
    obtain ⟨opened, added, same⟩ := Attempt.bind_eq_ok.mp armed
    obtain ⟨params, results, arities, enough, rfl⟩ := (addBlock_eq_ok isKind).mp added
    cases same
    cases (applies params results control enough).mp applied
    exact ⟨params, results, arities, enough, rfl⟩
  · rintro ⟨params, results, arities, enough, rfl⟩
    refine ⟨instr, openingEffect op, _, _, Attempt.bind_eq_ok.mpr
      ⟨_, (addBlock_eq_ok isKind).mpr ⟨params, results, arities, enough, rfl⟩, rfl⟩,
      (applies params results _ enough).mpr rfl, rfl⟩

theorem lowerOperator_else
    {offset : Nat} {block : Block} {outer : List Block}
    (opened : s.controlStack.inner = block :: outer) :
    s.lowerOperator mod (.elseOp, offset) = .ok s' ↔
      ∃ ifIndex elseIndex, block.kind = .ifOp ifIndex elseIndex ∧
      s' = ⟨s.instructions ++ [.elseOp u32Max], s.instructionOffsets ++ [offset % 2 ^ 32],
        ⟨withElse block ifIndex s.len :: outer,
          if block.hasInherited && block.isUnreachableTraversing then s.controlStack.currHeight
          else block.recordedHeight + block.params⟩,
        s.brTableTargetBranches⟩ := by
  have first : s.getBlock 0 = .ok block := by
    unfold getBlock
    rw [opened]
    rfl
  -- the label's own effect, once it is turned over to its `else`
  have armed : ∀ ifIndex elseIndex, block.kind = .ifOp ifIndex elseIndex →
      s.lowerArm mod .elseOp = .ok ((.elseOp u32Max,
        .setHeight (block.recordedHeight + block.params)),
        { s with controlStack :=
          ⟨withElse block ifIndex s.len :: outer, s.controlStack.currHeight⟩ }) := by
    intro ifIndex elseIndex isIf
    change s.lowerElse = _
    unfold lowerElse
    rw [first, Attempt.ok_bind, isIf]
    dsimp only
    unfold ControlStack.modifyCurrBlock ControlStack.endUnreachableTraversing
      ControlStack.modifyCurrBlock withElse
    rw [opened]
    cases inherited : block.hasInherited <;> simp [inherited]
  have applied : ∀ ifIndex, ControlStack.setHeight
      ⟨withElse block ifIndex s.len :: outer, s.controlStack.currHeight⟩
        (block.recordedHeight + block.params) =
      ⟨withElse block ifIndex s.len :: outer,
        if block.hasInherited && block.isUnreachableTraversing then s.controlStack.currHeight
        else block.recordedHeight + block.params⟩ := by
    intro ifIndex
    unfold ControlStack.setHeight ControlStack.isDead withElse
    cases block.hasInherited && block.isUnreachableTraversing <;> simp
  rw [lowerOperator_eq_ok]
  constructor
  · rintro ⟨instr, effect, after, control, isArm, isControl, rfl⟩
    cases isKind : block.kind with
    | ifOp ifIndex elseIndex =>
        rw [armed ifIndex elseIndex isKind] at isArm
        cases isArm
        cases isControl
        rw [applied]
        exact ⟨ifIndex, elseIndex, rfl, rfl⟩
    | _ =>
        change s.lowerElse = _ at isArm
        unfold lowerElse at isArm
        rw [first, Attempt.ok_bind, isKind] at isArm
        cases isArm
  · rintro ⟨ifIndex, elseIndex, isKind, rfl⟩
    exact ⟨_, _, _, _, armed ifIndex elseIndex isKind, congrArg Except.ok (applied ifIndex), rfl⟩

theorem lowerOperator_end
    {offset : Nat} {block : Block} {outer : List Block}
    (opened : s.controlStack.inner = block :: outer) :
    s.lowerOperator mod (.endOp, offset) = .ok s' ↔
      ∃ instructions branches instructions',
      block.attachedBreaks.foldlM (patchBreak s.len) (s.instructions, s.brTableTargetBranches) =
        .ok (instructions, branches) ∧
      patchIf s.len instructions block.kind = .ok instructions' ∧
      s' = ⟨instructions' ++ [.endOp block.results block.recordedHeight],
        s.instructionOffsets ++ [offset % 2 ^ 32],
        ⟨outer, ControlStack.heightAfter ⟨outer, s.controlStack.currHeight⟩
          (block.recordedHeight + block.results)⟩,
        branches⟩ := by
  have applied : ∀ height, ControlStack.setHeight ⟨outer, s.controlStack.currHeight⟩ height =
      ⟨outer, ControlStack.heightAfter ⟨outer, s.controlStack.currHeight⟩ height⟩ := by
    intro height
    unfold ControlStack.setHeight ControlStack.heightAfter
    cases ControlStack.isDead ⟨outer, s.controlStack.currHeight⟩ <;> rfl
  rw [lowerOperator_eq_ok]
  change (∃ instr effect after control, s.lowerEnd = _ ∧ _) ↔ _
  unfold lowerEnd
  rw [opened]
  constructor
  · rintro ⟨instr, effect, after, control, isArm, isControl, rfl⟩
    obtain ⟨⟨instructions, branches⟩, patched, rest⟩ := Attempt.bind_eq_ok.mp isArm
    obtain ⟨instructions', patchedIf, same⟩ := Attempt.bind_eq_ok.mp rest
    cases same
    cases isControl
    exact ⟨instructions, branches, instructions', patched, patchedIf, by rw [applied]⟩
  · rintro ⟨instructions, branches, instructions', patched, patchedIf, rfl⟩
    exact ⟨_, _, _, _, Attempt.bind_eq_ok.mpr ⟨_, patched, Attempt.bind_eq_ok.mpr
      ⟨_, patchedIf, rfl⟩⟩, congrArg Except.ok (applied _), rfl⟩

theorem attach_ne_nil
    {inner : List Block} {relativeDepth : Nat} {block : Block} {key : Nat × Nat}
    (opened : inner ≠ []) :
    attach inner relativeDepth block key ≠ [] := by
  unfold attach
  split
  · exact opened
  · rw [← List.length_pos_iff, List.length_modify]
    exact List.length_pos_iff.mpr opened

/-- Attaching a branch changes no other field of a label. -/
theorem isDead_attach
    (inner : List Block) (relativeDepth height : Nat) (block : Block) (key : Nat × Nat) :
    ControlStack.isDead ⟨attach inner relativeDepth block key, height⟩ =
      ControlStack.isDead ⟨inner, height⟩ := by
  unfold attach ControlStack.isDead
  split
  · rfl
  · cases inner with
    | nil => cases relativeDepth <;> rfl
    | cons first outer => cases relativeDepth <;> rfl

theorem lowerOperator_br {offset relativeDepth : Nat} :
    s.lowerOperator mod (.br relativeDepth, offset) = .ok s' ↔
      ∃ block, s.controlStack.inner[relativeDepth]? = some block ∧
      s' = ⟨s.instructions ++ [.br (targetOf block)], s.instructionOffsets ++ [offset % 2 ^ 32],
        ⟨markDead (attach s.controlStack.inner relativeDepth block (s.len, u32Max)),
          s.controlStack.currHeight⟩,
        s.brTableTargetBranches⟩ := by
  rw [lowerOperator_eq_ok]
  change (∃ instr effect after control, s.lowerBr relativeDepth = _ ∧ _) ↔ _
  unfold lowerBr
  constructor
  · rintro ⟨instr, effect, after, control, isArm, isControl, rfl⟩
    obtain ⟨⟨target, attached⟩, resolved, rest⟩ := Attempt.bind_eq_ok.mp isArm
    obtain ⟨left, isLeft, same⟩ := Attempt.bind_eq_ok.mp rest
    cases same
    obtain ⟨block, found, rfl, rfl⟩ := resolveBranch_eq_ok.mp resolved
    obtain ⟨-, rfl⟩ := leaveBlock_eq_ok.mp isLeft
    cases isControl
    exact ⟨block, found, rfl⟩
  · rintro ⟨block, found, rfl⟩
    have opened : s.controlStack.inner ≠ [] := by
      intro closed
      rw [closed] at found
      cases found
    exact ⟨_, _, _, _, Attempt.bind_eq_ok.mpr
      ⟨_, resolveBranch_eq_ok.mpr ⟨block, found, rfl, rfl⟩, Attempt.bind_eq_ok.mpr
        ⟨_, leaveBlock_eq_ok.mpr ⟨attach_ne_nil opened, rfl⟩, rfl⟩⟩, rfl, rfl⟩

theorem lowerOperator_brIf {offset relativeDepth : Nat} :
    s.lowerOperator mod (.brIf relativeDepth, offset) = .ok s' ↔
      ∃ block, s.controlStack.inner[relativeDepth]? = some block ∧
      (s.controlStack.isDead = false → 1 ≤ s.controlStack.currHeight) ∧
      s' = ⟨s.instructions ++ [.brIf (targetOf block)], s.instructionOffsets ++ [offset % 2 ^ 32],
        ⟨attach s.controlStack.inner relativeDepth block (s.len, u32Max),
          s.controlStack.heightAfter (s.controlStack.currHeight - 1)⟩,
        s.brTableTargetBranches⟩ := by
  -- the branch is attached first, and the condition popped then
  have applies : ∀ (block : Block) (control : ControlStack),
      s.controlStack.inner[relativeDepth]? = some block →
      (ControlStack.applyEffect
        ⟨attach s.controlStack.inner relativeDepth block (s.len, u32Max),
          s.controlStack.currHeight⟩ (.popPush 1 0) = .ok control ↔
        (s.controlStack.isDead = false → 1 ≤ s.controlStack.currHeight) ∧
        control = ⟨attach s.controlStack.inner relativeDepth block (s.len, u32Max),
          s.controlStack.heightAfter (s.controlStack.currHeight - 1)⟩) := by
    intro block control found
    have opened : s.controlStack.inner ≠ [] := by
      intro closed
      rw [closed] at found
      cases found
    rw [ControlStack.applyEffect_eq_ok (attach_ne_nil opened) (by simp)]
    unfold ControlStack.heightAfter
    rw [isDead_attach]
    rfl
  rw [lowerOperator_eq_ok]
  change (∃ instr effect after control, s.lowerBrIf relativeDepth = _ ∧ _) ↔ _
  unfold lowerBrIf
  constructor
  · rintro ⟨instr, effect, after, control, isArm, isControl, rfl⟩
    obtain ⟨⟨target, attached⟩, resolved, same⟩ := Attempt.bind_eq_ok.mp isArm
    cases same
    obtain ⟨block, found, rfl, rfl⟩ := resolveBranch_eq_ok.mp resolved
    obtain ⟨enough, rfl⟩ := (applies block control found).mp isControl
    exact ⟨block, found, enough, rfl⟩
  · rintro ⟨block, found, enough, rfl⟩
    exact ⟨_, _, _, _, Attempt.bind_eq_ok.mpr
      ⟨_, resolveBranch_eq_ok.mpr ⟨block, found, rfl, rfl⟩, rfl⟩,
      (applies block _ found).mpr ⟨enough, rfl⟩, rfl⟩

/-- The arms of a `br_table` leave as many labels open as there were. -/
theorem length_brArms
    {index slot : Nat} {inner inner' : List Block} {targets : List Nat} {arms : List Target}
    (built : brArms index inner slot targets = some (arms, inner')) :
    inner'.length = inner.length := by
  induction targets generalizing inner slot arms with
  | nil =>
      cases built
      rfl
  | cons relativeDepth targets inductionHypothesis =>
      obtain ⟨block, found, built⟩ := Option.bind_eq_some_iff.mp built
      obtain ⟨⟨rest, final⟩, builtRest, same⟩ := Option.bind_eq_some_iff.mp built
      cases same
      refine (inductionHypothesis builtRest).trans ?_
      unfold attach
      split
      · rfl
      · exact List.length_modify _ _ _

theorem lowerOperator_brTable {offset last : Nat} {targets : List Nat} :
    s.lowerOperator mod (.brTable targets last, offset) = .ok s' ↔
      s.controlStack.inner ≠ [] ∧ ∃ arms inner,
      brArms s.len s.controlStack.inner s.brTableTargetBranches.length (targets ++ [last]) =
        some (arms, inner) ∧
      s' = ⟨s.instructions ++ [.brTable s.brTableTargetBranches.length (targets.length + 1)],
        s.instructionOffsets ++ [offset % 2 ^ 32],
        ⟨markDead inner, s.controlStack.currHeight⟩,
        s.brTableTargetBranches ++ arms⟩ := by
  rw [lowerOperator_eq_ok]
  change (∃ instr effect after control, s.lowerBrTable targets last = _ ∧ _) ↔ _
  unfold lowerBrTable
  constructor
  · rintro ⟨instr, effect, after, control, isArm, isControl, rfl⟩
    obtain ⟨attached, resolved, rest⟩ := Attempt.bind_eq_ok.mp isArm
    obtain ⟨left, isLeft, same⟩ := Attempt.bind_eq_ok.mp rest
    cases same
    obtain ⟨arms, inner, built, rfl⟩ := lowerBrTargets_eq_ok.mp resolved
    obtain ⟨opened, rfl⟩ := leaveBlock_eq_ok.mp isLeft
    cases isControl
    refine ⟨?_, arms, inner, built, rfl⟩
    rw [← List.length_pos_iff, length_brArms built] at opened
    exact List.length_pos_iff.mp opened
  · rintro ⟨opened, arms, inner, built, rfl⟩
    have stillOpened : inner ≠ [] := by
      rw [← List.length_pos_iff, length_brArms built]
      exact List.length_pos_iff.mpr opened
    exact ⟨_, _, _, _, Attempt.bind_eq_ok.mpr
      ⟨_, lowerBrTargets_eq_ok.mpr ⟨arms, inner, built, rfl⟩, Attempt.bind_eq_ok.mpr
        ⟨_, leaveBlock_eq_ok.mpr ⟨stillOpened, rfl⟩, rfl⟩⟩, rfl, rfl⟩

theorem lowerOperator_return {offset : Nat} :
    s.lowerOperator mod (.returnOp, offset) = .ok s' ↔
      ∃ block, s.controlStack.inner.getLast? = some block ∧
      s' = ⟨s.instructions ++ [.returnOp ⟨u32Max, block.results, block.recordedHeight⟩],
        s.instructionOffsets ++ [offset % 2 ^ 32],
        ⟨markDead (s.controlStack.inner.modify (s.controlStack.inner.length - 1) fun block =>
            { block with attachedBreaks := block.attachedBreaks ++ [(s.len, u32Max)] }),
          s.controlStack.currHeight⟩,
        s.brTableTargetBranches⟩ := by
  rw [lowerOperator_eq_ok]
  change (∃ instr effect after control, s.lowerReturn = _ ∧ _) ↔ _
  unfold lowerReturn
  constructor
  · rintro ⟨instr, effect, after, control, isArm, isControl, rfl⟩
    obtain ⟨block, found, rest⟩ := Attempt.bind_eq_ok.mp isArm
    obtain ⟨left, isLeft, same⟩ := Attempt.bind_eq_ok.mp rest
    cases same
    obtain ⟨-, rfl⟩ := leaveBlock_eq_ok.mp isLeft
    cases isControl
    exact ⟨block, Attempt.orPanic_eq_ok.mp found, rfl⟩
  · rintro ⟨block, found, rfl⟩
    refine ⟨_, _, _, _, Attempt.bind_eq_ok.mpr ⟨_, Attempt.orPanic_eq_ok.mpr found,
      Attempt.bind_eq_ok.mpr ⟨_, leaveBlock_eq_ok.mpr ⟨?_, rfl⟩, rfl⟩⟩, rfl, rfl⟩
    unfold ControlStack.attachBreak
    rw [← List.length_pos_iff, List.length_modify, List.length_pos_iff]
    intro closed
    rw [closed] at found
    cases found

theorem lowerOperator_unreachable {offset : Nat} :
    s.lowerOperator mod (.unreachable, offset) = .ok s' ↔
      s.controlStack.inner ≠ [] ∧
      s' = ⟨s.instructions ++ [.unreachable], s.instructionOffsets ++ [offset % 2 ^ 32],
        ⟨markDead s.controlStack.inner, s.controlStack.currHeight⟩,
        s.brTableTargetBranches⟩ := by
  rw [lowerOperator_eq_ok]
  constructor
  · rintro ⟨instr, effect, after, control, isArm, isControl, rfl⟩
    obtain ⟨left, isLeft, same⟩ := Attempt.bind_eq_ok.mp isArm
    cases same
    obtain ⟨opened, rfl⟩ := leaveBlock_eq_ok.mp isLeft
    cases isControl
    exact ⟨opened, rfl⟩
  · rintro ⟨opened, rfl⟩
    exact ⟨_, _, _, _, Attempt.bind_eq_ok.mpr ⟨_, leaveBlock_eq_ok.mpr ⟨opened, rfl⟩, rfl⟩,
      rfl, rfl⟩

/-- The arm of a rejected operator reports it. -/
theorem lowerOperator_rejected
    {op : Operator} {offset : Nat} {reported : TraceWasmError}
    (rejected : op.rejection = some reported) :
    s.lowerOperator mod (op, offset) = .fail reported := by
  cases op with
  | data op =>
      unfold lowerOperator
      change ((s.lowerData op).bind _ : Attempt _ _) = _
      unfold lowerData
      rw [DataOp.checkMemory_eq_fail rejected]
      rfl
  | tryTable blockty debug =>
      cases rejected
      rfl
  | other op =>
      cases rejected
      rfl
  | _ => cases rejected

/-- A step is what an iteration does. -/
theorem lowerOperator_of_step
    {op : Operator} {offset : Nat}
    (opened : s.controlStack.inner ≠ [])
    (step : StackStep mod (offset % 2 ^ 32) s op s') :
    s.lowerOperator mod (op, offset) = .ok s' := by
  cases step with
  | simple simple known enough =>
      exact (lowerOperator_simple opened simple known).mpr ⟨enough, rfl⟩
  | opens isOpening arities enough =>
      exact (lowerOperator_opening isOpening).mpr ⟨_, _, arities, enough, rfl⟩
  | elseOp isOpen isKind =>
      exact (lowerOperator_else isOpen).mpr ⟨_, _, isKind, rfl⟩
  | endOp isOpen patched patchedIf =>
      exact (lowerOperator_end isOpen).mpr ⟨_, _, _, patched, patchedIf, rfl⟩
  | br found => exact lowerOperator_br.mpr ⟨_, found, rfl⟩
  | brIf found enough => exact lowerOperator_brIf.mpr ⟨_, found, enough, rfl⟩
  | brTable built => exact lowerOperator_brTable.mpr ⟨opened, _, _, built, rfl⟩
  | returnOp found => exact lowerOperator_return.mpr ⟨_, found, rfl⟩
  | unreachable => exact lowerOperator_unreachable.mpr ⟨opened, rfl⟩

/-- An iteration with an open label is one of the steps. -/
theorem step_of_lowerOperator
    {op : Operator} {offset : Nat}
    (opened : s.controlStack.inner ≠ [])
    (lowered : s.lowerOperator mod (op, offset) = .ok s') :
    StackStep mod (offset % 2 ^ 32) s op s' := by
  cases known : op.rejection with
  | some reported =>
      rw [lowerOperator_rejected known] at lowered
      cases lowered
  | none =>
  cases simple : simpleInstruction mod op with
  | some instr =>
      obtain ⟨enough, rfl⟩ := (lowerOperator_simple opened simple known).mp lowered
      exact .simple simple known enough
  | none =>
  cases isOpening : opening s.len op with
  | some label =>
      obtain ⟨params, results, arities, enough, rfl⟩ := (lowerOperator_opening isOpening).mp lowered
      exact .opens isOpening arities enough
  | none =>
  obtain ⟨block, outer, isOpen⟩ := List.exists_cons_of_ne_nil opened
  cases op with
  | elseOp =>
      obtain ⟨ifIndex, elseIndex, isKind, rfl⟩ := (lowerOperator_else isOpen).mp lowered
      exact .elseOp isOpen isKind
  | endOp =>
      obtain ⟨instructions, branches, instructions', patched, patchedIf, rfl⟩ :=
        (lowerOperator_end isOpen).mp lowered
      exact .endOp isOpen patched patchedIf
  | br relativeDepth =>
      obtain ⟨target, found, rfl⟩ := lowerOperator_br.mp lowered
      exact .br found
  | brIf relativeDepth =>
      obtain ⟨target, found, enough, rfl⟩ := lowerOperator_brIf.mp lowered
      exact .brIf found enough
  | brTable targets last =>
      obtain ⟨_, arms, inner, built, rfl⟩ := lowerOperator_brTable.mp lowered
      exact .brTable built
  | returnOp =>
      obtain ⟨target, found, rfl⟩ := lowerOperator_return.mp lowered
      exact .returnOp found
  | unreachable =>
      obtain ⟨_, rfl⟩ := lowerOperator_unreachable.mp lowered
      exact .unreachable
  | call functionIndex =>
      -- without a type the arm panics
      have untyped : mod.funcType functionIndex = none := Option.map_eq_none_iff.mp simple
      obtain ⟨_, _, _, _, isArm, _⟩ := lowerOperator_eq_ok.mp lowered
      change lowerCall mod s functionIndex = _ at isArm
      unfold lowerCall at isArm
      rw [untyped] at isArm
      cases isArm
  | callIndirect typeIndex tableIndex =>
      have untyped : mod.types[typeIndex]? = none := Option.map_eq_none_iff.mp simple
      obtain ⟨_, _, _, _, isArm, _⟩ := lowerOperator_eq_ok.mp lowered
      change lowerCallIndirect mod.types s typeIndex tableIndex = _ at isArm
      unfold lowerCallIndirect at isArm
      rw [untyped] at isArm
      cases isArm
  | tryTable blockty debug => cases known
  | other op => cases known
  | block blockty => cases isOpening
  | loop blockty => cases isOpening
  | ifOp blockty => cases isOpening
  | _ => cases simple

end Lowering

end Arms

end Stack
end TraceWasm
