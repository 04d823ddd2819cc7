import TraceWasm.Foundation.Loop
import TraceWasm.Instruction.PatchingRun
import TraceWasm.Stack.Branching
import TraceWasm.Wasm.WellNested

/-!
# The jumps of a lowered stack body

Lowering an operator is a step of back-patching, so the finished code follows the
structure of the body.
-/

namespace TraceWasm
namespace Stack

open Nesting (WellNested)

/-! ## Attaching -/

section Attach

variable {inner inner' : List Block} {block : Block} {branchings : List Branching}
  {key : Nat × Nat}

theorem map_attach (inner : List Block) (relativeDepth : Nat) (block : Block)
    (branchings : List Branching) (key : Nat × Nat) :
    (attach inner relativeDepth block key).map (labelOf branchings) =
      attachUnlessLoop (inner.map (labelOf branchings)) relativeDepth
        (labelOf branchings block) (relativeKey branchings key) := by
  have sameKind : (labelOf branchings block).kind = block.kind := rfl
  unfold attach attachUnlessLoop
  rw [sameKind]
  cases block.kind.isLoop with
  | some index => rfl
  | none =>
      apply map_modify
      intro block
      unfold labelOf
      rw [List.map_append]
      rfl

/-- The labels remember branches of the code only. -/
abbrev KeysInside (branchings : List Branching) (inner : List Block) : Prop :=
  ∀ block ∈ inner, ∀ key ∈ block.attachedBreaks, KeyInside branchings key

theorem KeysInside.append
    (keys : KeysInside branchings inner) (added : List Branching) :
    KeysInside (branchings ++ added) inner :=
  fun block member key isKey => (keys block member key isKey).append added

/-- What labels remember is seen as it was when an instruction is emitted. -/
theorem KeysInside.map_append
    (keys : KeysInside branchings inner) (added : List Branching) :
    inner.map (labelOf (branchings ++ added)) = inner.map (labelOf branchings) :=
  List.map_congr_left fun block member => labelOf_append (keys block member) added

theorem KeysInside.modify
    (keys : KeysInside branchings inner) (inside : KeyInside branchings key)
    (relativeDepth : Nat) :
    KeysInside branchings (inner.modify relativeDepth fun block =>
      { block with attachedBreaks := block.attachedBreaks ++ [key] }) := by
  intro block member other isKey
  obtain ⟨position, isBlock⟩ := List.mem_iff_getElem?.mp member
  rw [List.getElem?_modify] at isBlock
  obtain ⟨before, isBefore, changed⟩ := Option.map_eq_some_iff.mp isBlock
  have isMember := List.mem_of_getElem? isBefore
  by_cases same : relativeDepth = position
  · rw [if_pos same] at changed
    subst changed
    rcases List.mem_append.mp isKey with isOld | isNew
    · exact keys before isMember other isOld
    · exact List.mem_singleton.mp isNew ▸ inside
  · rw [if_neg same] at changed
    subst changed
    exact keys _ isMember other isKey

theorem KeysInside.attach
    (keys : KeysInside branchings inner) (inside : KeyInside branchings key)
    (relativeDepth : Nat) (block : Block) :
    KeysInside branchings (attach inner relativeDepth block key) := by
  unfold Stack.attach
  split
  · exact keys
  · exact keys.modify inside relativeDepth

theorem map_markDead (inner : List Block) (branchings : List Branching) :
    (markDead inner).map (labelOf branchings) = inner.map (labelOf branchings) := by
  cases inner <;> rfl

theorem KeysInside.markDead (keys : KeysInside branchings inner) :
    KeysInside branchings (markDead inner) := by
  cases inner with
  | nil => exact keys
  | cons block outer =>
      obtain ⟨first, rest⟩ := List.forall_mem_cons.mp keys
      exact List.forall_mem_cons.mpr ⟨first, rest⟩

/-- The arms of a `br_table` are built as in back-patching, where they count from the
first one. -/
theorem tableArms_of_brArms
    {index start len arm : Nat} {targets : List Nat} {arms : List Target}
    (found : branchings[index]? = some (Branching.table start len))
    (fits : arm + targets.length ≤ len)
    (keys : KeysInside branchings inner)
    (built : brArms index inner (start + arm) targets = some (arms, inner')) :
    tableArms index (inner.map (labelOf branchings)) arm targets =
        some (arms.map Target.targetIndex, inner'.map (labelOf branchings)) ∧
      KeysInside branchings inner' ∧ arms.length = targets.length := by
  induction targets generalizing inner arm arms with
  | nil =>
      cases built
      exact ⟨rfl, keys, rfl⟩
  | cons relativeDepth targets inductionHypothesis =>
      obtain ⟨block, isBlock, built⟩ := Option.bind_eq_some_iff.mp built
      obtain ⟨⟨rest, final⟩, builtRest, same⟩ := Option.bind_eq_some_iff.mp built
      cases same
      rw [List.length_cons] at fits
      have inside : KeyInside branchings (index, start + arm) := by
        unfold KeyInside
        rw [found]
        exact ⟨by omega, by omega⟩
      have relative : relativeKey branchings (index, start + arm) = (index, arm) := by
        unfold relativeKey
        rw [found]
        exact congrArg (Prod.mk index) (by omega)
      obtain ⟨tail, keysInside, length⟩ :=
        @inductionHypothesis _ (arm + 1) rest (by omega)
          (keys.attach inside relativeDepth block) builtRest
      rw [map_attach, relative] at tail
      refine ⟨?_, keysInside, by simp [length]⟩
      unfold tableArms
      rw [List.getElem?_map, isBlock]
      change (tableArms index _ (arm + 1) targets).bind _ = _
      rw [tail]
      rfl

end Attach

/-! ## A step of lowering -/

section Step

variable {mod : ModuleTypes} {offset : Nat} {s s' : Lowering} {op : Operator}

/-- An instruction that reads no arm is emitted. -/
theorem controls_append
    (tables : TablesApart s.branchings s.brTableTargetBranches.length)
    (instr : StackInstruction) (added : List Target) :
    (s.instructions ++ [instr]).map
        (StackInstruction.control (s.brTableTargetBranches ++ added)) =
      s.patching.code ++ [instr.control (s.brTableTargetBranches ++ added)] := by
  rw [List.map_append]
  refine congrArg₂ _ (List.map_congr_left fun other member => ?_) rfl
  cases other with
  | brTable start len =>
      obtain ⟨index, found⟩ := List.mem_iff_getElem?.mp member
      have isTable : s.branchings[index]? = some (Branching.table start len) := by
        unfold Lowering.branchings
        rw [List.getElem?_map, found]
        rfl
      exact congrArg Control.table (armsOf_append (tables.inside _ _ _ isTable) added)
  | _ => rfl

/-- An operator that leaves the labels alone is not one that steers. -/
theorem simpleInstruction_plain
    {instr : StackInstruction} {effect : StackEffectResult}
    (simple : Lowering.simpleInstruction mod op = some (instr, effect)) :
    op.steers = false ∧ op.opens = false ∧ instr.branching = .never ∧
      ∀ branches, instr.control branches = .plain := by
  cases op with
  | call functionIndex =>
      obtain ⟨ty, typed, same⟩ := Option.map_eq_some_iff.mp simple
      cases same
      exact ⟨rfl, rfl, rfl, fun _ => rfl⟩
  | callIndirect typeIndex tableIndex =>
      obtain ⟨ty, typed, same⟩ := Option.map_eq_some_iff.mp simple
      cases same
      exact ⟨rfl, rfl, rfl, fun _ => rfl⟩
  | _ =>
      first
      | cases simple; exact ⟨rfl, rfl, rfl, fun _ => rfl⟩
      | cases simple

namespace Lowering

/-- The state after an instruction is emitted that is no `br_table`. -/
theorem Tabled.emit
    (tabled : s.Tabled)
    {instr : StackInstruction} {control : ControlStack} {offsets : List Nat}
    (notTable : ∀ start len, instr.branching ≠ .table start len)
    (keys : KeysInside (s.branchings ++ [instr.branching]) control.inner) :
    Tabled ⟨s.instructions ++ [instr], offsets, control, s.brTableTargetBranches⟩ := by
  have branchings : branchings ⟨s.instructions ++ [instr], offsets, control,
      s.brTableTargetBranches⟩ = s.branchings ++ [instr.branching] := List.map_append
  constructor
  · rw [branchings]
    exact tabled.tables.append_never notTable
  · rw [branchings]
    exact keys

/-- The same state as back-patching sees it. -/
theorem Tabled.patching_emit
    (tabled : s.Tabled)
    {instr : StackInstruction} {control : ControlStack} {offsets : List Nat} :
    patching ⟨s.instructions ++ [instr], offsets, control, s.brTableTargetBranches⟩ =
      ⟨s.patching.code ++ [instr.control s.brTableTargetBranches],
        control.inner.map (labelOf (s.branchings ++ [instr.branching]))⟩ := by
  unfold patching
  have code := controls_append tabled.tables instr []
  rw [List.append_nil] at code
  exact congrArg₂ Patching.mk code (by rw [show branchings ⟨s.instructions ++ [instr], offsets,
    control, s.brTableTargetBranches⟩ = s.branchings ++ [instr.branching] from List.map_append])

@[simp] theorem length_patching (s : Lowering) : s.patching.code.length = s.len :=
  List.length_map _

@[simp] theorem length_branchings (s : Lowering) : s.branchings.length = s.len :=
  List.length_map _

end Lowering

/-- The instruction that has just been emitted is one that waits. -/
theorem keyInside_emitted (branchings : List Branching) (arm : Nat) :
    KeyInside (branchings ++ [.single]) (branchings.length, arm) := by
  simp [KeyInside]

theorem relativeKey_emitted (branchings : List Branching) (arm : Nat) :
    relativeKey (branchings ++ [.single]) (branchings.length, arm) =
      (branchings.length, arm) := by
  simp [relativeKey]

/-- The branch that is emitted is attached as in back-patching. -/
theorem map_attach_emitted
    {relativeDepth : Nat} {block : Block}
    (tabled : s.Tabled)
    (found : s.controlStack.inner[relativeDepth]? = some block) :
    (attach s.controlStack.inner relativeDepth block (s.len, u32Max)).map
        (labelOf (s.branchings ++ [.single])) =
      attachUnlessLoop s.patching.labels relativeDepth (labelOf s.branchings block)
        (s.len, u32Max) := by
  have keys : KeysInside s.branchings s.controlStack.inner := tabled.keys
  rw [map_attach, keys.map_append, labelOf_append (keys block (List.mem_of_getElem? found)),
    ← Lowering.length_branchings, relativeKey_emitted]
  rfl

@[simp] theorem emit_zero (p : Patching) (control : Control) :
    p.emit 0 control = p.code ++ [control] := by
  simp [Patching.emit]

/-- Opening a label is a step of back-patching. -/
theorem patches_opening
    {kind : BlockKind} {blockty : BlockType} {own params results : Nat}
    {instr : StackInstruction} {height : Nat} {offsets : List Nat}
    (tabled : s.Tabled)
    (isOpening : Lowering.opening s.len op = some (kind, blockty, own, instr)) :
    let s' : Lowering := ⟨s.instructions ++ [instr], offsets,
      ⟨s.controlStack.openedBlock kind params results own :: s.controlStack.inner, height⟩,
      s.brTableTargetBranches⟩
    PatchStep op s.patching s'.patching ∧ s'.Tabled := by
  intro s'
  have keys : KeysInside s.branchings s.controlStack.inner := tabled.keys
  have opened : ∀ branching,
      (s.controlStack.openedBlock kind params results own ::
        s.controlStack.inner).map (labelOf (s.branchings ++ [branching])) =
        ⟨kind, []⟩ :: s.patching.labels := by
    intro branching
    rw [List.map_cons, keys.map_append]
    unfold ControlStack.openedBlock
    split <;> rfl
  have keysOpened : ∀ branching, KeysInside (s.branchings ++ [branching])
      (s.controlStack.openedBlock kind params results own :: s.controlStack.inner) := by
    intro branching
    refine List.forall_mem_cons.mpr ⟨?_, keys.append _⟩
    unfold ControlStack.openedBlock
    split <;> simp
  have isPatching : s'.patching =
      ⟨s.patching.code ++ [instr.control s.brTableTargetBranches],
        ⟨kind, []⟩ :: s.patching.labels⟩ := by
    rw [tabled.patching_emit, opened]
  rw [isPatching]
  cases op with
  | block blockty =>
      cases isOpening
      exact ⟨.block 1 _, tabled.emit (by simp [StackInstruction.branching]) (keysOpened _)⟩
  | loop blockty =>
      cases isOpening
      refine ⟨?_, tabled.emit (by simp [StackInstruction.branching]) (keysOpened _)⟩
      have step := PatchStep.loop (p := s.patching) 0 blockty
      rw [emit_zero, Nat.add_zero, Lowering.length_patching] at step
      exact step
  | ifOp blockty =>
      cases isOpening
      refine ⟨?_, tabled.emit (by simp [StackInstruction.branching]) (keysOpened _)⟩
      have step := PatchStep.ifOp (p := s.patching) 0 blockty none u32Max
      rw [emit_zero, Nat.add_zero, Lowering.length_patching] at step
      exact step
  | _ => cases isOpening

/-- Turning an `if` over to its `else` is a step of back-patching. -/
theorem patches_else
    {block : Block} {outer : List Block} {ifIndex height : Nat} {elseIndex : Option Nat}
    {offsets : List Nat}
    (tabled : s.Tabled)
    (opened : s.controlStack.inner = block :: outer)
    (isKind : block.kind = .ifOp ifIndex elseIndex) :
    let s' : Lowering := ⟨s.instructions ++ [.elseOp u32Max], offsets,
      ⟨withElse block ifIndex s.len :: outer, height⟩, s.brTableTargetBranches⟩
    PatchStep .elseOp s.patching s'.patching ∧ s'.Tabled := by
  intro s'
  have keys : KeysInside s.branchings s.controlStack.inner := tabled.keys
  rw [opened] at keys
  obtain ⟨first, rest⟩ := List.forall_mem_cons.mp keys
  have keysAfter : KeysInside (s.branchings ++ [.never])
      (withElse block ifIndex s.len :: outer) :=
    List.forall_mem_cons.mpr ⟨fun key isKey => (first key isKey).append _,
      KeysInside.append rest _⟩
  refine ⟨?_, tabled.emit (by simp [StackInstruction.branching]) keysAfter⟩
  have labels : s.patching.labels =
      ⟨.ifOp ifIndex elseIndex, (labelOf s.branchings block).keys⟩ ::
        outer.map (labelOf s.branchings) := by
    unfold Lowering.patching
    rw [opened, List.map_cons, ← isKind]
    rfl
  have labelsAfter : (withElse block ifIndex s.len :: outer).map
      (labelOf (s.branchings ++ [.never])) =
      ⟨.ifOp ifIndex (some s.len), (labelOf s.branchings block).keys⟩ ::
        outer.map (labelOf s.branchings) := by
    have old := labelOf_append first [.never]
    rw [List.map_cons, KeysInside.map_append rest]
    exact congrArg (fun label : Label => Label.mk (.ifOp ifIndex (some s.len)) label.keys :: _) old
  have isPatching : s'.patching = ⟨s.patching.code ++ [.elseOp u32Max],
      (withElse block ifIndex s.len :: outer).map (labelOf (s.branchings ++ [.never]))⟩ :=
    tabled.patching_emit
  have step := PatchStep.elseOp 0 u32Max labels
  rw [emit_zero, Nat.add_zero, Lowering.length_patching] at step
  rw [isPatching, labelsAfter]
  exact step

/-- Closing a label is a step of back-patching. -/
theorem patches_end
    {block : Block} {outer : List Block} {instructions instructions' : List StackInstruction}
    {branches : List Target} {height : Nat} {offsets : List Nat}
    (tabled : s.Tabled)
    (opened : s.controlStack.inner = block :: outer)
    (patched : block.attachedBreaks.foldlM (Lowering.patchBreak s.len)
      (s.instructions, s.brTableTargetBranches) = .ok (instructions, branches))
    (patchedIf : Lowering.patchIf s.len instructions block.kind = .ok instructions') :
    let s' : Lowering := ⟨instructions' ++ [.endOp block.results block.recordedHeight],
      offsets, ⟨outer, height⟩, branches⟩
    PatchStep .endOp s.patching s'.patching ∧ s'.Tabled := by
  intro s'
  have keys : KeysInside s.branchings s.controlStack.inner := tabled.keys
  rw [opened] at keys
  obtain ⟨first, rest⟩ := List.forall_mem_cons.mp keys
  have breaks := @patchesTo_of_patchBreaks (s.instructions, s.brTableTargetBranches) _ _ _
    tabled.tables first patched
  have kinds := @patchesTo_of_patchIf _ _ _ branches _ patchedIf
  have branchings : instructions'.map StackInstruction.branching = s.branchings :=
    kinds.branchings.trans breaks.branchings
  -- the patched code, before the `end` itself is emitted
  let closed : Lowering := ⟨instructions', offsets, ⟨outer, height⟩, branches⟩
  have closedTabled : closed.Tabled := by
    constructor
    · change TablesApart (instructions'.map _) branches.length
      rw [branchings, breaks.size]
      exact tabled.tables
    · change KeysInside (instructions'.map _) outer
      rw [branchings]
      exact rest
  have keysAfter : KeysInside (closed.branchings ++ [.never]) outer :=
    KeysInside.append closedTabled.keys _
  refine ⟨?_, closedTabled.emit (by simp [StackInstruction.branching]) keysAfter⟩
  have labels : s.patching.labels =
      labelOf s.branchings block :: outer.map (labelOf s.branchings) := by
    unfold Lowering.patching
    rw [opened, List.map_cons]
  have labelsAfter : outer.map (labelOf (closed.branchings ++ [.never])) =
      outer.map (labelOf s.branchings) := by
    rw [KeysInside.map_append closedTabled.keys]
    exact congrArg (fun branchings => outer.map (labelOf branchings)) branchings
  have code : closed.patching.code = patchKind s.len (patchKeys s.len s.patching.code
      (labelOf s.branchings block).keys) block.kind := by
    refine Eq.trans kinds.controls ?_
    rw [breaks.controls]
    rfl
  have isPatching : s'.patching = ⟨closed.patching.code ++ [.endOp],
      outer.map (labelOf (closed.branchings ++ [.never]))⟩ :=
    closedTabled.patching_emit
  have step := PatchStep.endOp 0 labels
  rw [List.replicate_zero, List.append_nil, Nat.add_zero, Lowering.length_patching] at step
  rw [isPatching, labelsAfter, code]
  exact step

/-- Emitting a branch is a step of back-patching, whatever else it does to the
labels. -/
theorem patches_branch
    {relativeDepth : Nat} {block : Block} {inner : List Block} {instr : StackInstruction}
    {height : Nat} {offsets : List Nat}
    (tabled : s.Tabled)
    (found : s.controlStack.inner[relativeDepth]? = some block)
    (single : instr.branching = .single)
    (isInner : inner = attach s.controlStack.inner relativeDepth block (s.len, u32Max) ∨
      inner = markDead (attach s.controlStack.inner relativeDepth block (s.len, u32Max))) :
    let s' : Lowering := ⟨s.instructions ++ [instr], offsets, ⟨inner, height⟩,
      s.brTableTargetBranches⟩
    s'.patching = ⟨s.patching.code ++ [instr.control s.brTableTargetBranches],
      attachUnlessLoop s.patching.labels relativeDepth (labelOf s.branchings block)
        (s.len, u32Max)⟩ ∧ s'.Tabled := by
  intro s'
  have keys : KeysInside s.branchings s.controlStack.inner := tabled.keys
  have keysAttached : KeysInside (s.branchings ++ [.single])
      (attach s.controlStack.inner relativeDepth block (s.len, u32Max)) := by
    rw [← Lowering.length_branchings]
    exact (keys.append _).attach (keyInside_emitted _ _) _ _
  have attached := map_attach_emitted tabled found
  have seen : inner.map (labelOf (s.branchings ++ [.single])) =
      attachUnlessLoop s.patching.labels relativeDepth (labelOf s.branchings block)
        (s.len, u32Max) ∧ KeysInside (s.branchings ++ [.single]) inner := by
    rcases isInner with rfl | rfl
    · exact ⟨attached, keysAttached⟩
    · rw [map_markDead]
      exact ⟨attached, keysAttached.markDead⟩
  refine ⟨?_, tabled.emit (by simp [single]) (by rw [single]; exact seen.2)⟩
  rw [tabled.patching_emit, single, seen.1]

/-- Emitting a `br_table` is a step of back-patching. -/
theorem patches_brTable
    {targets : List Nat} {last : Nat} {arms : List Target} {inner : List Block}
    {height : Nat} {offsets : List Nat}
    (tabled : s.Tabled)
    (built : brArms s.len s.controlStack.inner s.brTableTargetBranches.length
      (targets ++ [last]) = some (arms, inner)) :
    let s' : Lowering :=
      ⟨s.instructions ++ [.brTable s.brTableTargetBranches.length (targets.length + 1)],
        offsets, ⟨markDead inner, height⟩, s.brTableTargetBranches ++ arms⟩
    PatchStep (.brTable targets last) s.patching s'.patching ∧ s'.Tabled := by
  intro s'
  have keys : KeysInside s.branchings s.controlStack.inner := tabled.keys
  have branchings : s'.branchings = s.branchings ++
      [.table s.brTableTargetBranches.length (targets.length + 1)] := List.map_append
  have found : s'.branchings[s.len]? =
      some (Branching.table s.brTableTargetBranches.length (targets.length + 1)) := by
    simp [branchings, ← Lowering.length_branchings]
  have keysBefore : KeysInside s'.branchings s.controlStack.inner := by
    rw [branchings]
    exact keys.append _
  obtain ⟨arming, keysInside, length⟩ :=
    tableArms_of_brArms found (show 0 + (targets ++ [last]).length ≤ _ by simp) keysBefore built
  have armCount : arms.length = targets.length + 1 := by simpa using length
  constructor
  · have labels : s'.patching.labels = inner.map (labelOf s'.branchings) := map_markDead _ _
    have code : s'.patching.code =
        s.patching.code ++ [.table (arms.map Target.targetIndex)] := by
      refine (controls_append tabled.tables _ arms).trans ?_
      rw [← armCount]
      exact congrArg (fun arms => s.patching.code ++ [.table arms]) (armsOf_added _ _)
    have step : PatchStep (.brTable targets last) s.patching
        ⟨s.patching.emit 0 (.table (arms.map Target.targetIndex)),
          inner.map (labelOf s'.branchings)⟩ := by
      apply PatchStep.brTable
      rw [Lowering.length_patching, Nat.add_zero, ← arming, branchings, keys.map_append]
      rfl
    rw [emit_zero] at step
    rw [show s'.patching = ⟨s'.patching.code, s'.patching.labels⟩ from rfl, code, labels]
    exact step
  · constructor
    · rw [branchings, List.length_append, armCount]
      exact tabled.tables.append_table _
    · exact keysInside.markDead

/-- Emitting a `return` is a step of back-patching. -/
theorem patches_return
    {target : Target} {height : Nat} {offsets : List Nat}
    (tabled : s.Tabled) :
    let s' : Lowering := ⟨s.instructions ++ [.returnOp target], offsets,
      ⟨markDead (s.controlStack.inner.modify (s.controlStack.inner.length - 1) fun block =>
        { block with attachedBreaks := block.attachedBreaks ++ [(s.len, u32Max)] }), height⟩,
      s.brTableTargetBranches⟩
    PatchStep .returnOp s.patching s'.patching ∧ s'.Tabled := by
  intro s'
  have keys : KeysInside s.branchings s.controlStack.inner := tabled.keys
  have keysAttached : KeysInside (s.branchings ++ [.single])
      (s.controlStack.inner.modify (s.controlStack.inner.length - 1) fun block =>
        { block with attachedBreaks := block.attachedBreaks ++ [(s.len, u32Max)] }) := by
    apply (keys.append _).modify
    rw [← Lowering.length_branchings]
    exact keyInside_emitted _ _
  refine ⟨?_, tabled.emit (by simp [StackInstruction.branching]) keysAttached.markDead⟩
  have labels : (markDead (s.controlStack.inner.modify (s.controlStack.inner.length - 1)
      fun block => { block with attachedBreaks := block.attachedBreaks ++ [(s.len, u32Max)] })).map
        (labelOf (s.branchings ++ [.single])) =
      attachLabel s.patching.labels (s.patching.labels.length - 1) (s.len, u32Max) := by
    rw [map_markDead]
    have length : s.patching.labels.length = s.controlStack.inner.length := List.length_map _
    rw [length]
    unfold attachLabel
    have old : s.patching.labels =
        s.controlStack.inner.map (labelOf (s.branchings ++ [.single])) :=
      (keys.map_append _).symm
    rw [old]
    apply map_modify
    intro block
    unfold labelOf
    rw [List.map_append, List.map_singleton, ← Lowering.length_branchings, relativeKey_emitted]
  have isPatching : s'.patching = ⟨s.patching.code ++ [.returnOp target.targetIndex],
      (markDead (s.controlStack.inner.modify (s.controlStack.inner.length - 1) fun block =>
        { block with attachedBreaks := block.attachedBreaks ++ [(s.len, u32Max)] })).map
          (labelOf (s.branchings ++ [.single]))⟩ :=
    tabled.patching_emit
  have step := PatchStep.returnOp (p := s.patching) 0 u32Max target.targetIndex
  rw [emit_zero, Nat.add_zero, Lowering.length_patching] at step
  rw [isPatching, labels]
  exact step

/-- Lowering an operator is a step of back-patching. -/
theorem StackStep.patches
    (step : StackStep mod offset s op s') (tabled : s.Tabled) :
    PatchStep op s.patching s'.patching ∧ s'.Tabled := by
  have keys : KeysInside s.branchings s.controlStack.inner := tabled.keys
  cases step with
  | simple simple known enough =>
      obtain ⟨steers, opens, never, plain⟩ := simpleInstruction_plain simple
      refine ⟨?_, tabled.emit (by simp [never]) (keys.append _)⟩
      rw [tabled.patching_emit, plain, keys.map_append]
      exact .plain 1 steers opens
  | opens isOpening arities enough => exact patches_opening tabled isOpening
  | elseOp opened isKind => exact patches_else tabled opened isKind
  | endOp opened patched patchedIf => exact patches_end tabled opened patched patchedIf
  | @br relativeDepth block found =>
      have single : (StackInstruction.br (Lowering.targetOf block)).branching = .single := rfl
      obtain ⟨isPatching, tabled⟩ := patches_branch tabled found single (.inr rfl)
      refine ⟨?_, tabled⟩
      have found : s.patching.labels[relativeDepth]? = some (labelOf s.branchings block) := by
        unfold Lowering.patching
        rw [List.getElem?_map, found]
        rfl
      have step := PatchStep.br 0 u32Max found
      rw [emit_zero, Nat.add_zero, Lowering.length_patching] at step
      rw [isPatching]
      exact step
  | @brIf relativeDepth block found enough =>
      have single : (StackInstruction.brIf (Lowering.targetOf block)).branching = .single := rfl
      obtain ⟨isPatching, tabled⟩ := patches_branch tabled found single (.inl rfl)
      refine ⟨?_, tabled⟩
      have found : s.patching.labels[relativeDepth]? = some (labelOf s.branchings block) := by
        unfold Lowering.patching
        rw [List.getElem?_map, found]
        rfl
      have step := PatchStep.brIf 0 u32Max found
      rw [emit_zero, Nat.add_zero, Lowering.length_patching] at step
      rw [isPatching]
      exact step
  | brTable built => exact patches_brTable tabled built
  | returnOp found => exact patches_return tabled
  | unreachable =>
      refine ⟨?_, tabled.emit (by simp [StackInstruction.branching]) (keys.append _).markDead⟩
      rw [tabled.patching_emit, map_markDead, keys.map_append]
      exact .plain 1 rfl rfl

end Step

/-! ## A lowered body -/

section Body

variable {mod : ModuleTypes} {func : FuncHeader} {ops : List (Operator × Nat)}

/-- What the lowered body does to the program counter. -/
def LoweredFuncBody.controls (body : LoweredFuncBody) : List Control :=
  body.instructions.map (StackInstruction.control body.frame.brTargetsArena)

/-- What is known between two operators. -/
structure Reached
    (ops : List (Operator × Nat)) (position : Nat) (s : Lowering) : Prop where
  tabled : s.Tabled
  labels : (Nesting.openAt (ops.map Prod.fst) position).length = s.patching.labels.length
  len : s.len = min position ops.length
  offsets : s.instructionOffsets = (ops.take position).map fun located => located.2 % 2 ^ 32

theorem reached_zero : Reached ops 0 (Lowering.initial func) where
  tabled := ⟨⟨by simp [Lowering.branchings, Lowering.initial],
    by simp [Lowering.branchings, Lowering.initial]⟩, by simp [Lowering.initial]⟩
  labels := rfl
  len := (Nat.zero_min _).symm
  offsets := rfl

/-- Each operator becomes one instruction. -/
theorem StackStep.emits
    {offset : Nat} {s s' : Lowering} {op : Operator}
    (step : StackStep mod offset s op s') (tabled : s.Tabled) :
    s'.len = s.len + 1 ∧ s'.instructionOffsets = s.instructionOffsets ++ [offset] := by
  cases step with
  | @endOp block outer instructions branches instructions' opened patched patchedIf =>
      have keys : ∀ key ∈ block.attachedBreaks, KeyInside s.branchings key :=
        tabled.keys block (opened ▸ List.mem_cons_self)
      have breaks := @patchesTo_of_patchBreaks (s.instructions, s.brTableTargetBranches) _ _ _
        tabled.tables keys patched
      have kinds := @patchesTo_of_patchIf _ _ _ branches _ patchedIf
      have length := congrArg List.length (kinds.branchings.trans breaks.branchings)
      rw [List.length_map, List.length_map] at length
      refine ⟨?_, rfl⟩
      unfold Lowering.len
      rw [List.length_append, length]
      rfl
  | _ => exact ⟨List.length_append, rfl⟩

/-- An operator of the body stands inside a label. -/
theorem Reached.opened
    {position : Nat} {s : Lowering} {located : Operator × Nat}
    (reached : Reached ops position s)
    (wellNested : WellNested (ops.map Prod.fst))
    (found : ops[position]? = some located) :
    s.controlStack.inner ≠ [] := by
  have inside := (List.getElem?_eq_some_iff.mp found).1
  have isOpen := wellNested.enclosed position (by rw [List.length_map]; exact inside)
  have labels := reached.labels
  intro closed
  unfold Lowering.patching at labels
  rw [closed] at labels
  exact isOpen (List.eq_nil_of_length_eq_zero labels)

theorem Reached.step
    {position : Nat} {s s' : Lowering} {located : Operator × Nat}
    (reached : Reached ops position s)
    (wellNested : WellNested (ops.map Prod.fst))
    (found : ops[position]? = some located)
    (lowered : s.lowerOperator mod located = .ok s') :
    PatchStep located.1 s.patching s'.patching ∧ Reached ops (position + 1) s' := by
  obtain ⟨op, offset⟩ := located
  have inside := (List.getElem?_eq_some_iff.mp found).1
  have isOp : (ops.map Prod.fst)[position]? = some op := by
    rw [List.getElem?_map, found]
    rfl
  have step := Lowering.step_of_lowerOperator (reached.opened wellNested found) lowered
  obtain ⟨patches, tabled⟩ := step.patches reached.tabled
  obtain ⟨len, offsets⟩ := step.emits reached.tabled
  refine ⟨patches, tabled, ?_, ?_, ?_⟩
  · rw [Nesting.openAt_succ isOp]
    exact patches.length_labels reached.labels
  · have := reached.len
    omega
  · rw [offsets, reached.offsets, List.take_add_one, found]
    simp

/-- Lowering goes through states of which this is known. -/
theorem reached_of_steps
    {state : Nat → Lowering} {position : Nat}
    (wellNested : WellNested (ops.map Prod.fst))
    (isStart : state 0 = .initial func)
    (steps : ∀ position located, ops[position]? = some located →
      (state position).lowerOperator mod located = .ok (state (position + 1)))
    (inside : position ≤ ops.length) :
    Reached ops position (state position) := by
  induction position with
  | zero => exact isStart ▸ reached_zero
  | succ position inductionHypothesis =>
      have found := List.getElem?_eq_getElem (show position < ops.length from inside)
      exact ((inductionHypothesis (by omega)).step wellNested found (steps _ _ found)).2

/-- The jumps of a lowered body follow the structure of its operators, of which each
has become one instruction. -/
theorem structured_of_emitted
    {body : LoweredFuncBody}
    (validates : Validates mod func (ops.map Prod.fst))
    (emitted : emitInstructionsForFunc mod func ops = .ok body) :
    Structured (ops.map Prod.fst) (fun _ => True) (fun position => min position ops.length)
        body.controls ∧
      OffsetsParallel ops (fun position => min position ops.length) body.controls
        body.instructionOffsets := by
  have wellNested := validates.wellNested
  obtain ⟨s, lowered, same⟩ := Attempt.bind_eq_ok.mp emitted
  cases same
  obtain ⟨state, isStart, rfl, steps, rests⟩ := Attempt.exists_states lowered
  have reached : ∀ position, position ≤ ops.length → Reached ops position (state position) :=
    fun position inside => reached_of_steps wellNested isStart steps inside
  have final := reached ops.length le_rfl
  have length : (ops.map Prod.fst).length = ops.length := List.length_map _
  have run : PatchRun (ops.map Prod.fst) (fun _ => True) (Nesting.openAt (ops.map Prod.fst))
      (fun position => (state position).patching) := by
    refine ⟨?_, rfl, ?_, ?_⟩
    · rw [isStart]
      rfl
    · intro position op isOp _
      rw [List.getElem?_map] at isOp
      obtain ⟨located, found, rfl⟩ := Option.map_eq_some_iff.mp isOp
      have before := reached position (Nat.le_of_lt (List.getElem?_eq_some_iff.mp found).1)
      exact ⟨rfl, rfl, (before.step wellNested found (steps _ _ found)).1⟩
    · intro position behind
      have outside : ops.length ≤ position := by
        by_contra inside
        exact behind ⟨trivial, by omega⟩
      refine ⟨by rw [rests position outside], ?_⟩
      have none : (ops.map Prod.fst)[position]? = none :=
        List.getElem?_eq_none (length ▸ outside)
      simp [Nesting.openAt, none]
  have starts : (fun position => (state position).patching.code.length) =
      fun position => min position ops.length := by
    funext position
    rw [Lowering.length_patching]
    rcases Nat.le_total position ops.length with inside | outside
    · exact (reached position inside).len
    · rw [Nat.min_eq_right outside]
      induction position, outside using Nat.le_induction with
      | base => exact final.len.trans (Nat.min_self _)
      | succ position outside inductionHypothesis =>
          rw [rests position outside]
          exact inductionHypothesis
  have labels : (state ops.length).patching.labels = [] := by
    have closed := final.labels
    rw [← length, wellNested.closed, length] at closed
    exact List.eq_nil_of_length_eq_zero closed.symm
  have structured := run.structured wellNested (by rw [length]; exact labels)
  rw [length, starts] at structured
  have len : (state ops.length).len = ops.length := final.len.trans (Nat.min_self _)
  refine ⟨structured, ?_, ?_⟩
  · rw [final.offsets, List.take_length, List.length_map]
    exact (List.length_map _).symm ▸ len.symm
  · intro position op offset index found above below
    have inside := (List.getElem?_eq_some_iff.mp found).1
    have same : index = position := by omega
    rw [final.offsets, List.take_length, List.getElem?_map, same, found]
    rfl

end Body

end Stack
end TraceWasm
