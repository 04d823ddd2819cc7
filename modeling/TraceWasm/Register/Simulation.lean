import TraceWasm.Register.Coherent
import TraceWasm.Register.Refinement
import TraceWasm.Wasm.Liveness

/-!
# Every arm of the lowering does its symbolic step

An operator that the validator let through finds the operands and labels it
needs. Its arm then reports one of the register machine's limits, or goes over
to a state that models the next symbolic one; it does not panic.
-/

namespace TraceWasm
namespace Register

open OperandStack (Sound)
open Symbolic (baseOf branchMove moveOf relaidView spillCode withElse)

/-- The rest of the innermost block can be left once `popped` operands are
gone. -/
def Symbolic.CanLeave (a : Symbolic) (popped : Nat) : Prop :=
  ∃ block outer, a.control = block :: outer ∧
    block.recordedHeight + popped ≤ a.view.length

/-- The operator finds the operands and labels it needs. -/
def Ready (mod : ModuleTypes) (locals results : Nat) (a : Symbolic) :
    Operator → Prop
  | .localGet localIndex => localIndex < locals
  | .localSet localIndex => localIndex < locals ∧ 1 ≤ a.view.length
  | .localTee localIndex => localIndex < locals ∧ 1 ≤ a.view.length
  | .const _ => True
  | .data op => op.inputs ≤ a.view.length
  | .dataDrop _ => True
  | .nop => True
  | .drop => 1 ≤ a.view.length
  | .block blockty => ∃ params blockResults,
      paramsAndResultsFromBlockty mod.types blockty = some (params, blockResults) ∧
        params ≤ a.view.length
  | .loop blockty => ∃ params blockResults,
      paramsAndResultsFromBlockty mod.types blockty = some (params, blockResults) ∧
        params ≤ a.view.length
  | .ifOp blockty => ∃ params blockResults,
      paramsAndResultsFromBlockty mod.types blockty = some (params, blockResults) ∧
        params + 1 ≤ a.view.length
  | .elseOp => ∃ block outer index elseIndex, a.control = block :: outer ∧
      block.kind = .ifOp index elseIndex ∧
        a.view.length = block.recordedHeight + block.results
  | .endOp => ∃ block outer, a.control = block :: outer ∧
      a.view.length = block.recordedHeight + block.results
  | .br relativeDepth => a.CanLeave 0 ∧
      ∃ block, a.control[relativeDepth]? = some block ∧
        block.recordedHeight + block.labelArity ≤ a.view.length
  | .brIf relativeDepth => ∃ block, a.control[relativeDepth]? = some block ∧
      block.recordedHeight + block.labelArity + 1 ≤ a.view.length
  | .brTable targets last => a.CanLeave 1 ∧
      ∃ block, a.control[last]? = some block ∧
        ∀ relativeDepth ∈ targets ++ [last], ∃ other,
          a.control[relativeDepth]? = some other ∧
            other.labelArity = block.labelArity ∧
              other.recordedHeight + other.labelArity + 1 ≤ a.view.length
  | .returnOp => a.CanLeave 0 ∧ results ≤ a.view.length
  | .call functionIndex => ∃ ty, mod.funcType functionIndex = some ty ∧
      ty.params.length ≤ a.view.length
  | .callIndirect typeIndex _ => ∃ ty, mod.types[typeIndex]? = some ty ∧
      ty.params.length + 1 ≤ a.view.length
  | .unreachable => a.CanLeave 0
  | .tryTable _ _ => True
  | .other _ => True

/-- Lowering the operator led to a state that models the next symbolic one. -/
def Simulates
    (mod : ModuleTypes) (locals results : Nat) (op : Operator)
    (s : Lowering) (a : Symbolic) (after : Lowering) : Prop :=
  ∃ a', SymbolicStep mod locals results op a a' ∧
    Models mod locals [] after a' ∧
    after.unreachableTrackingStack = filterAfter op s.unreachableTrackingStack

section Arms

variable {mod : ModuleTypes} {locals results : Nat} {pending : List Patch}
  {s : Lowering} {a : Symbolic}

/-! ## Operators without control flow -/

/-- Lowering a `local.get` simulates its symbolic step. -/
theorem lowerLocalGet_meets
    (models : Models mod locals [] s a)
    (ready : Ready mod locals results a (.localGet localIndex)) :
    (s.lowerLocalGet localIndex).Meets TraceWasmError.IsLimit
      (Simulates mod locals results (.localGet localIndex) s a) := by
  have fits : localIndex ≤ u16Max := by
    have := models.sound.localsLe
    change localIndex < locals at ready
    unfold u16Max
    omega
  obtain ⟨operands, pushed, becomes⟩ := models.sound.pushLocal_eq ready
  unfold Lowering.lowerLocalGet
  rw [asU16_of_le fits, pushed]
  rw [models.view] at becomes
  exact ⟨_, .localGet ready, models.setOperands becomes (by simp), rfl⟩

theorem lowerLocalSet_meets
    (models : Models mod locals [] s a)
    (ready : Ready mod locals results a (.localSet localIndex)) :
    (s.lowerLocalSet localIndex).Meets TraceWasmError.IsLimit
      (Simulates mod locals results (.localSet localIndex) s a) := by
  obtain ⟨below, nonempty⟩ := ready
  refine (spillLocal_meets models below).bind ?_
  rintro middle ⟨copies, view, redirects, gone, rescued, filter⟩
  rw [← redirects.length_eq] at nonempty
  obtain ⟨operand, rest, rfl⟩ := List.exists_cons_of_length_pos nonempty
  refine (popRegister_meets rescued rfl).bind fun sim popped => ?_
  refine ⟨_, .localSet redirects gone below, ?_, filter⟩
  exact popped.push (.localSet localIndex operand)
    (by simp [RegInstruction.outputRuns])
    (by simpa [RegInstruction.localIndices] using below)
    (by simp [RegInstruction.spillIndices])

theorem lowerLocalTee_meets
    (models : Models mod locals [] s a)
    (ready : Ready mod locals results a (.localTee localIndex)) :
    (s.lowerLocalTee localIndex).Meets TraceWasmError.IsLimit
      (Simulates mod locals results (.localTee localIndex) s a) := by
  obtain ⟨below, nonempty⟩ := ready
  refine (spillLocal_meets models below).bind ?_
  rintro middle ⟨copies, view, redirects, gone, rescued, filter⟩
  rw [← redirects.length_eq] at nonempty
  obtain ⟨operand, rest, rfl⟩ := List.exists_cons_of_length_pos nonempty
  have top : middle.operands.view = operand :: rest := rescued.view
  rw [rescued.sound.tee_eq top, Attempt.ok_bind]
  have recorded := rescued.record .emit [operand] (by
    intro other member
    cases List.mem_singleton.mp member
    exact rescued.viewBelow List.mem_cons_self)
  refine ⟨_, .localTee redirects gone below, ?_, filter⟩
  exact recorded.push (.localTee localIndex operand)
    (by simp [RegInstruction.outputRuns])
    (by simpa [RegInstruction.localIndices] using below)
    (by simp [RegInstruction.spillIndices])

theorem lowerConst_meets
    (models : Models mod locals [] s a) (value : Const) :
    (s.lowerConst value).Meets TraceWasmError.IsLimit
      (Simulates mod locals results (.const value) s a) := by
  have fits : s.simulatedStack.constInterner.values.length ≤ u16Max := by
    rw [models.consts]
    exact models.constsLe
  unfold Lowering.lowerConst SimulatedStack.pushConst
  refine ((Interner.tryIntern_meets fits value).bind ?_).bind fun _ meets => meets
  rintro ⟨constId, after⟩ ⟨grows, interned, fits⟩
  rw [models.consts] at grows
  have pushed := models.sound.pushConstId_becomes constId
  rw [models.view] at pushed
  refine ⟨_, .const grows interned, ?_, rfl⟩
  refine (models.setConsts grows fits).changeOperands pushed fun other member => ?_
  rcases List.mem_cons.mp member with isNew | member
  · cases isNew
    exact (List.getElem?_eq_some_iff.mp interned).1
  · exact lt_of_lt_of_le (models.constIds other member) grows.length_le


theorem internMemoryOffset_meets
    (models : Models mod locals [] s a) (op : DataOp Nat Nat) :
    (s.internMemoryOffset op.dropMemory).Meets TraceWasmError.IsLimit
      fun (lowered, after) => ∃ offsets,
        a.offsets <+: offsets ∧
        lowered.resolveOffset offsets = some op.meaning ∧
        lowered.inputs = op.inputs ∧ lowered.outputs = op.outputs ∧
        Models mod locals [] after { a with offsets := offsets } ∧
        after.unreachableTrackingStack = s.unreachableTrackingStack := by
  have fits : s.simulatedStack.memoryOffsets.values.length ≤ u16Max := by
    rw [models.offsets]
    exact models.offsetsLe
  have interns := fun value => Interner.tryIntern_meets fits value
  cases op with
  | load op memarg =>
      refine (interns (memarg % 2 ^ 32)).bind ?_
      rintro ⟨id, after⟩ ⟨grows, interned, fits⟩
      rw [models.offsets] at grows
      exact ⟨after.values, grows, congrArg (Option.map _) interned, rfl, rfl,
        models.setOffsets fits, rfl⟩
  | store op memarg =>
      refine (interns (memarg % 2 ^ 32)).bind ?_
      rintro ⟨id, after⟩ ⟨grows, interned, fits⟩
      rw [models.offsets] at grows
      exact ⟨after.values, grows, congrArg (Option.map _) interned, rfl, rfl,
        models.setOffsets fits, rfl⟩
  | _ => exact ⟨a.offsets, List.prefix_refl _, rfl, rfl, rfl, models, rfl⟩

/-- So does lowering an operator on data. -/
theorem lowerData_meets
    {op : DataOp Nat Nat}
    (models : Models mod locals [] s a)
    (ready : Ready mod locals results a (.data op))
    (known : (Operator.data op).rejection = none) :
    (s.lowerData op).Meets TraceWasmError.IsLimit
      (Simulates mod locals results (.data op) s a) := by
  unfold Lowering.lowerData
  rw [op.checkMemory_eq known, Attempt.ok_bind]
  refine (internMemoryOffset_meets models op).bind ?_
  rintro ⟨lowered, middle⟩ ⟨offsets, grows, resolved, inputs, outputs, interned, filter⟩
  dsimp only
  rw [inputs, outputs]
  refine (popsAndPushesRegisters_meets interned ready).bind ?_
  rintro ⟨registers, sim⟩ ⟨rfl, covered, popped⟩
  have lengthEq : (a.view.take op.inputs).reverse.length = op.inputs := by
    rw [List.length_reverse, List.length_take]
    exact min_eq_left ready
  have carries := Carries.data lowered (a.view.take op.inputs).reverse
    (baseOf locals (a.view.drop op.inputs))
  rw [lengthEq] at carries
  refine ⟨_, .data ready grows resolved, ?_, filter⟩
  refine popped.push carries ?_ (by simp [RegInstruction.localIndices])
    (by simp [RegInstruction.spillIndices])
  intro run member
  cases List.mem_singleton.mp member
  rw [outputs]
  exact ⟨Nat.le_add_right _ _, covered⟩

theorem lowerDrop_meets
    (models : Models mod locals [] s a)
    (ready : Ready mod locals results a .drop) :
    s.lowerDrop.Meets TraceWasmError.IsLimit
      (Simulates mod locals results .drop s a) := by
  obtain ⟨operand, rest, top⟩ := List.exists_cons_of_length_pos ready
  obtain ⟨operands, popped, becomes⟩ :=
    models.sound.pop_eq (ε := TraceWasmError) (models.view.trans top)
  unfold Lowering.lowerDrop
  rw [popped]
  refine ⟨_, .drop top, models.setOperands becomes fun constId member => ?_, rfl⟩
  rw [top]
  exact List.mem_cons_of_mem _ member

/-! ## Constructs -/

/-- The kind of label that is opened at an instruction index. -/
def kindAt (index : Nat) : BlockVariant → BlockKind
  | .func => .func
  | .block => .block
  | .ifOp => .ifOp index none
  | .loop => .loop index

theorem addBlock_eq
    {sim : SimulatedStack}
    (arities : paramsAndResultsFromBlockty types blockty =
      some (params, blockResults))
    (height : sim.recordedHeight kind params =
      (.ok recordedHeight : Attempt TraceWasmError Nat)) :
    sim.addBlock types kind blockty len = .ok (params,
      { sim with
        controlStack := ⟨kindAt (if params ≠ 0 then len + 1 else len) kind,
          recordedHeight, params, blockResults, false, false, []⟩ ::
            sim.controlStack }) := by
  unfold SimulatedStack.addBlock
  rw [arities, Attempt.orPanic_some, Attempt.ok_bind]
  dsimp only
  rw [height]
  cases kind <;> rfl

/-- Materializing operands does not change how many there are. -/
theorem length_view_materialize
    (a : Symbolic) (locals : Nat)
    (enough : count ≤ a.view.length) :
    (a.materialize locals count).view.length = a.view.length := by
  unfold Symbolic.materialize
  split
  · rfl
  · change (relaidView locals a.view count count).length = _
    rw [relaidView, List.length_append, View.length_registerRun, List.length_drop]
    omega

theorem openBlock_models
    (models : Models mod locals [] s a)
    (kind : BlockKind) (height params blockResults : Nat) :
    Models mod locals []
      { s with
        simulatedStack.controlStack :=
          ⟨kind, height, params, blockResults, false, false, []⟩ ::
            s.simulatedStack.controlStack }
      (a.openBlock kind height params blockResults) := by
  rw [models.control]
  exact models.setControl _

/-- Lowering a `block` simulates its symbolic step. -/
theorem lowerBlock_meets
    (models : Models mod locals [] s a)
    (ready : Ready mod locals results a (.block blockty)) :
    (Lowering.lowerBlock mod.types s blockty).Meets TraceWasmError.IsLimit
      (Simulates mod locals results (.block blockty) s a) := by
  obtain ⟨params, blockResults, arities, enough⟩ := ready
  have height : s.simulatedStack.recordedHeight .block params =
      (.ok (a.view.length - params) : Attempt TraceWasmError Nat) := by
    unfold SimulatedStack.recordedHeight
    rw [models.height]
    exact Attempt.sub_of_le enough
  unfold Lowering.lowerBlock
  rw [addBlock_eq arities height, Attempt.ok_bind]
  have opened := openBlock_models models .block (a.view.length - params) params
    blockResults
  refine (moveUnlessEmpty_meets opened enough).mono ?_
  rintro after ⟨moved, filter⟩
  exact ⟨_, .block arities enough, moved, filter⟩

/-- Lowering a `loop` simulates its symbolic step. -/
theorem lowerLoop_meets
    (models : Models mod locals [] s a)
    (ready : Ready mod locals results a (.loop blockty)) :
    (Lowering.lowerLoop mod.types s blockty).Meets TraceWasmError.IsLimit
      (Simulates mod locals results (.loop blockty) s a) := by
  obtain ⟨params, blockResults, arities, enough⟩ := ready
  unfold Lowering.lowerLoop
  refine (spillLiveLocals_meets models).bind ?_
  rintro middle ⟨copies, view, redirects, gone, rescued, filter⟩
  rw [← redirects.length_eq] at enough
  have height : middle.simulatedStack.recordedHeight .loop params =
      (.ok (view.length - params) : Attempt TraceWasmError Nat) := by
    unfold SimulatedStack.recordedHeight
    rw [rescued.height]
    exact Attempt.sub_of_le enough
  rw [addBlock_eq arities height, Attempt.ok_bind]
  have opened := openBlock_models rescued
    (.loop ((a.rescue copies view).headerIndex params)) (view.length - params) params
    blockResults
  have index : (if params ≠ 0 then middle.len + 1 else middle.len) =
      (a.rescue copies view).headerIndex params := by
    rw [rescued.length_code]
    rfl
  dsimp only
  rw [index]
  refine (moveUnlessEmpty_meets opened enough).bind ?_
  rintro after ⟨moved, filterAfter⟩
  exact ⟨_, .loop redirects gone arities enough,
    moved.pushPlain .loop ⟨rfl, rfl, rfl⟩, filterAfter.trans filter⟩

/-- Lowering an `if` simulates its symbolic step. -/
theorem lowerIf_meets
    (models : Models mod locals [] s a)
    (ready : Ready mod locals results a (.ifOp blockty)) :
    (Lowering.lowerIf mod.types s blockty).Meets TraceWasmError.IsLimit
      (Simulates mod locals results (.ifOp blockty) s a) := by
  obtain ⟨params, blockResults, arities, enough⟩ := ready
  unfold Lowering.lowerIf
  refine (spillLiveLocals_meets models).bind ?_
  rintro middle ⟨copies, view, redirects, gone, rescued, filter⟩
  rw [← redirects.length_eq] at enough
  have height : middle.simulatedStack.recordedHeight .ifOp params =
      (.ok (view.length - params - 1) : Attempt TraceWasmError Nat) := by
    unfold SimulatedStack.recordedHeight
    rw [rescued.height]
    change Attempt.sub view.length params >>= _ = _
    rw [Attempt.sub_of_le (by omega)]
    exact Attempt.sub_of_le (by omega)
  rw [addBlock_eq arities height, Attempt.ok_bind]
  have opened := openBlock_models rescued
    (.ifOp ((a.rescue copies view).headerIndex params) none)
    (view.length - params - 1) params blockResults
  have index : (if params ≠ 0 then middle.len + 1 else middle.len) =
      (a.rescue copies view).headerIndex params := by
    rw [rescued.length_code]
    rfl
  dsimp only
  rw [index]
  have depthLe : (if params ≠ 0 then params + 1 else 0) ≤ view.length := by
    split <;> omega
  refine (moveUnlessEmpty_meets opened depthLe).bind ?_
  rintro after ⟨moved, filterAfter⟩
  obtain ⟨condition, rest, top⟩ : ∃ condition rest, (((a.rescue copies view).openBlock
      (.ifOp ((a.rescue copies view).headerIndex params) none)
      (view.length - params - 1) params blockResults).materialize locals
        (if params ≠ 0 then params + 1 else 0)).view = condition :: rest := by
    refine List.exists_cons_of_length_pos ?_
    rw [length_view_materialize _ locals depthLe]
    change 0 < view.length
    omega
  refine (popRegister_meets moved top).bind fun sim popped => ?_
  refine ⟨_, .ifOp redirects gone arities enough rfl top, ?_, filterAfter.trans filter⟩
  exact popped.push (.ifOp condition none u32Max)
    (by simp [RegInstruction.outputRuns]) (by simp [RegInstruction.localIndices])
    (by simp [RegInstruction.spillIndices])

/-- Lowering an `else` simulates its symbolic step. -/
theorem lowerElse_meets
    (models : Models mod locals [] s a)
    (ready : Ready mod locals results a .elseOp) :
    s.lowerElse.Meets TraceWasmError.IsLimit
      (Simulates mod locals results .elseOp s a) := by
  obtain ⟨block, outer, index, elseIndex, opened, kind, height⟩ := ready
  have length := models.length_code
  unfold Lowering.lowerElse SimulatedStack.getBlock
  rw [models.control, opened, List.getElem?_cons_zero, Attempt.orPanic_some,
    Attempt.ok_bind, kind]
  dsimp only
  have header : (if block.results = 0 then s.len else s.len + 1) =
      a.headerIndex block.results := by
    unfold Symbolic.headerIndex
    rw [length]
    split <;> simp_all
  rw [header]
  have changed := models.setControl
    (withElse block index (a.headerIndex block.results) :: outer)
  refine (moveUnlessEmpty_meets changed (by
    change block.results ≤ a.view.length
    omega)).bind ?_
  rintro middle ⟨moved, filter⟩
  have lengthEq := length_view_materialize
    (a.withControl (withElse block index (a.headerIndex block.results) :: outer))
    locals (show block.results ≤ a.view.length by omega)
  change _ = a.view.length at lengthEq
  rw [moved.height, lengthEq, Attempt.sub_of_le (by omega), Attempt.ok_bind]
  have unwind : a.view.length - block.recordedHeight = block.results := by omega
  rw [unwind]
  refine (relayout_meets moved (by omega)).bind ?_
  rintro sim ⟨_, relaid⟩
  exact ⟨_, .elseOp opened kind height rfl,
    relaid.pushPlain (.elseOp u32Max) ⟨rfl, rfl, rfl⟩, filter⟩

/-- Lowering an `end` simulates its symbolic step. -/
theorem lowerEnd_meets
    (models : Models mod locals [] s a)
    (coherent : Coherent a.code a.control)
    (ready : Ready mod locals results a .endOp) :
    s.lowerEnd.Meets TraceWasmError.IsLimit
      (Simulates mod locals results .endOp s a) := by
  obtain ⟨block, outer, opened, height⟩ := ready
  unfold Lowering.lowerEnd
  rw [models.control, opened]
  dsimp only
  refine (moveUnlessEmpty_meets (models.setControl outer) (by
    change block.results ≤ a.view.length
    omega)).bind ?_
  rintro middle ⟨moved, filter⟩
  have lengthEq := length_view_materialize (a.withControl outer) locals
    (show block.results ≤ a.view.length by omega)
  change _ = a.view.length at lengthEq
  rw [Attempt.assert_of (by rw [moved.height, lengthEq, height]), Attempt.ok_bind]
  have label : LabelCoherent
      ((a.withControl outer).materialize locals block.results).code block := by
    refine (coherent.labels block ?_).mono
      (Symbolic.grows_materialize (a.withControl outer) locals block.results)
    rw [opened]
    exact List.mem_cons_self
  obtain ⟨_, patchedBreaks, _, patchedIf, patched⟩ := moved.patchLabel label
  rw [patchedBreaks, Attempt.ok_bind, patchedIf, Attempt.ok_bind]
  exact ⟨_, .endOp opened height rfl,
    patched.pushPlain .endOp ⟨rfl, rfl, rfl⟩, filter⟩

/-! ## Branches -/

theorem view_pushMove (a : Symbolic) (mov : DynSignature BackPatchableSlot) :
    (a.pushMove mov).view = a.view := by
  unfold Symbolic.pushMove
  split <;> rfl

/-- The branch instruction that follows a move leaves the innermost block. -/
theorem pushBranch_meets
    {carried : DynSignature BackPatchableSlot} {instr : RegInstruction Slot}
    (models : Models mod locals (branchPatches .emit carried.input) s a)
    (covered : locals ≤ carried.outputStart ∧
      carried.outputStart + carried.input.length ≤ s.peaks.registers)
    (carries : Carries [] [] instr sym)
    (plain : sym.outputRuns mod = [] ∧ sym.localIndices = [] ∧
      sym.spillIndices = [])
    (leaves : a.CanLeave 0) :
    ((s.pushMove ⟨placeholders carried.input.length, carried.outputStart⟩).push
      instr).leaveBlock.Meets TraceWasmError.IsLimit fun after =>
        Models mod locals []
            after (((a.pushMove carried).emit sym).leave locals) ∧
          after.unreachableTrackingStack =
            s.unreachableTrackingStack.setUnreachable := by
  obtain ⟨block, outer, opened, enough⟩ := leaves
  have emitted := (pushMove_models models covered).pushPlain carries plain
  have filter : ((s.pushMove ⟨placeholders carried.input.length,
      carried.outputStart⟩).push instr).unreachableTrackingStack =
        s.unreachableTrackingStack := by
    unfold Lowering.pushMove
    split <;> rfl
  have openedAfter : ((a.pushMove carried).emit sym).control = block :: outer :=
    (a.control_pushMove carried).trans opened
  refine (leaveBlock_meets emitted openedAfter ?_).mono ?_
  · change _ ≤ (a.pushMove carried).view.length
    rw [view_pushMove]
    exact enough
  · rintro after ⟨left, setUnreachable⟩
    exact ⟨left, by rw [setUnreachable, filter]⟩

/-- Attaching branches does not stand in the way of leaving. -/
theorem canLeave_of_bare
    {a' : Symbolic}
    (leaves : a.CanLeave popped)
    (same : a'.control.map Block.bare = a.control.map Block.bare)
    (height : a'.view.length + popped = a.view.length + popped') :
    a'.CanLeave popped' := by
  obtain ⟨block, outer, opened, enough⟩ := leaves
  rw [opened, List.map_cons, List.map_eq_cons_iff] at same
  obtain ⟨block', outer', opened', sameBlock, _⟩ := same
  refine ⟨block', outer', opened', ?_⟩
  rw [Block.recordedHeight_of_bare sameBlock]
  omega

theorem isEmpty_placeholders (mov : DynSignature BackPatchableSlot) :
    DynSignature.isEmpty ⟨placeholders mov.input.length, mov.outputStart⟩ =
      mov.isEmpty := by
  unfold DynSignature.isEmpty placeholders
  cases mov.input <;> rfl

/-- Lowering a `br` simulates its symbolic step. -/
theorem lowerBr_meets
    (models : Models mod locals [] s a)
    (ready : Ready mod locals results a (.br relativeDepth)) :
    (s.lowerBr relativeDepth).Meets TraceWasmError.IsLimit
      (Simulates mod locals results (.br relativeDepth) s a) := by
  obtain ⟨leaves, block, target, enough⟩ := ready
  unfold Lowering.lowerBr SimulatedStack.getBlock
  rw [models.control, target, Attempt.orPanic_some, Attempt.ok_bind]
  refine (brTruncation_meets models enough).bind ?_
  rintro ⟨mov, sim⟩ ⟨rfl, lengthEq, covered, _, truncated⟩
  dsimp only
  rw [isEmpty_placeholders]
  have index : (if DynSignature.isEmpty
        (branchMove locals a.view block.recordedHeight block.labelArity)
      then s.len else s.len + 1) =
      a.branchIndex
        (branchMove locals a.view block.recordedHeight block.labelArity) := by
    rw [models.length_code]
    rfl
  change Attempt.Meets (Lowering.leaveBlock (Lowering.push (Lowering.pushMove
    (Lowering.attachUnlessLoop _ relativeDepth block (ite _ s.len (s.len + 1), u32Max))
      _) _)) _ _
  rw [index]
  have attached := attachUnlessLoop_models truncated relativeDepth block
    (a.branchIndex (branchMove locals a.view block.recordedHeight block.labelArity),
      u32Max)
  have peaksEq : ∀ key, (Lowering.attachUnlessLoop
      { s with simulatedStack := sim } relativeDepth block key).peaks =
        { s with simulatedStack := sim : Lowering }.peaks := by
    intro key
    unfold Lowering.attachUnlessLoop
    split <;> rfl
  refine (pushBranch_meets attached ?_ (.br (Lowering.branchTarget block))
    ⟨rfl, rfl, rfl⟩ ?_).mono ?_
  · rw [peaksEq, lengthEq]
    exact ⟨Nat.le_add_right _ _, covered⟩
  · refine canLeave_of_bare leaves
      (a.map_bare_attachUnlessLoop relativeDepth block _) ?_
    rw [Symbolic.view_attachUnlessLoop]
  · rintro after ⟨left, filter⟩
    refine ⟨_, .br target enough rfl, left, ?_⟩
    rw [filter]
    unfold Lowering.attachUnlessLoop
    split <;> rfl

/-- Lowering a `return` simulates its symbolic step. -/
theorem lowerReturn_meets
    (models : Models mod locals [] s a)
    (ready : Ready mod locals results a .returnOp) :
    (Lowering.lowerReturn results s).Meets TraceWasmError.IsLimit
      (Simulates mod locals results .returnOp s a) := by
  obtain ⟨leaves, enough⟩ := ready
  have opened : a.control ≠ [] := by
    obtain ⟨block, outer, opened, _⟩ := leaves
    rw [opened]
    exact List.cons_ne_nil block outer
  unfold Lowering.lowerReturn
  refine (brTruncation_meets models (show 0 + results ≤ _ by omega)).bind ?_
  rintro ⟨mov, sim⟩ ⟨rfl, lengthEq, covered, _, truncated⟩
  have controlEq := truncated.control
  change sim.controlStack = a.control at controlEq
  dsimp only
  rw [Attempt.assert_of (by rw [controlEq]; exact opened), Attempt.ok_bind,
    isEmpty_placeholders]
  have index : (if DynSignature.isEmpty (branchMove locals a.view 0 results)
      then s.len else s.len + 1) =
      a.branchIndex (branchMove locals a.view 0 results) := by
    rw [models.length_code]
    rfl
  change Attempt.Meets (Lowering.leaveBlock (Lowering.push (Lowering.pushMove
    { s with simulatedStack := sim.attachBreak _ (ite _ s.len (s.len + 1), u32Max) }
      _) _)) _ _
  rw [index]
  have attached := truncated.setControl (attachKey sim.controlStack
    (sim.controlStack.length - 1)
    (a.branchIndex (branchMove locals a.view 0 results), u32Max))
  rw [controlEq] at attached
  unfold SimulatedStack.attachBreak
  rw [controlEq]
  refine (pushBranch_meets attached ?_ (.returnOp u32Max) ⟨rfl, rfl, rfl⟩ ?_).mono ?_
  · rw [lengthEq]
    exact ⟨Nat.le_add_right _ _, covered⟩
  · exact canLeave_of_bare leaves (map_bare_attachKey _ _ _) rfl
  · rintro after ⟨left, filter⟩
    exact ⟨_, .returnOp opened enough rfl, left, filter⟩

theorem lowerUnreachable_meets
    (models : Models mod locals [] s a)
    (ready : Ready mod locals results a .unreachable) :
    (s.push .unreachable).leaveBlock.Meets TraceWasmError.IsLimit
      (Simulates mod locals results .unreachable s a) := by
  obtain ⟨block, outer, opened, enough⟩ := ready
  have emitted := models.pushPlain .unreachable ⟨rfl, rfl, rfl⟩
  refine (leaveBlock_meets emitted opened enough).mono ?_
  rintro after ⟨left, filter⟩
  exact ⟨_, .unreachable, left, filter⟩

theorem peaks_attachUnlessLoop
    (s : Lowering) (relativeDepth : Nat) (block : Block) (attached : Nat × Nat) :
    (s.attachUnlessLoop relativeDepth block attached).peaks = s.peaks := by
  unfold Lowering.attachUnlessLoop
  split <;> rfl

theorem filter_attachUnlessLoop
    (s : Lowering) (relativeDepth : Nat) (block : Block) (attached : Nat × Nat) :
    (s.attachUnlessLoop relativeDepth block attached).unreachableTrackingStack =
      s.unreachableTrackingStack := by
  unfold Lowering.attachUnlessLoop
  split <;> rfl

/-- Lowering a `br_if` simulates its symbolic step. -/
theorem lowerBrIf_meets
    (models : Models mod locals [] s a)
    (ready : Ready mod locals results a (.brIf relativeDepth)) :
    (s.lowerBrIf relativeDepth).Meets TraceWasmError.IsLimit
      (Simulates mod locals results (.brIf relativeDepth) s a) := by
  obtain ⟨block, target, enough⟩ := ready
  unfold Lowering.lowerBrIf
  refine (spillLiveLocals_meets models).bind ?_
  rintro spilled ⟨copies, view, redirects, gone, rescued, filter⟩
  rw [← redirects.length_eq] at enough
  obtain ⟨condition, rest, rfl⟩ := List.exists_cons_of_length_pos
    (show 0 < view.length by omega)
  rw [List.length_cons] at enough
  unfold SimulatedStack.getBlock
  rw [rescued.control]
  change Attempt.Meets (Attempt.orPanic a.control[relativeDepth]? >>= _) _ _
  rw [target, Attempt.orPanic_some, Attempt.ok_bind]
  refine (popRegister_meets rescued rfl).bind fun popped pops => ?_
  have enoughRest : block.recordedHeight + block.labelArity ≤ rest.length :=
    Nat.le_of_succ_le_succ enough
  refine (brTruncation_meets pops enoughRest).bind ?_
  rintro ⟨mov, sim⟩ ⟨rfl, lengthEq, covered, _, truncated⟩
  have attached := attachUnlessLoop_models truncated relativeDepth block
    (spilled.len, u32Max)
  have lenEq : spilled.len = (a.rescue copies (condition :: rest)).code.length :=
    rescued.length_code
  refine ⟨_, .brIf redirects gone target enoughRest rfl, ?_, ?_⟩
  · rw [lenEq] at attached
    change Models _ _ _ (Lowering.push (Lowering.attachUnlessLoop _ _ _
      (spilled.len, u32Max)) _) _
    rw [lenEq]
    refine attached.push (.brIf condition _ _) ?_
      (by simp [RegInstruction.localIndices]) (by simp [RegInstruction.spillIndices])
    intro run member
    cases List.mem_singleton.mp member
    rw [peaks_attachUnlessLoop]
    refine ⟨Nat.le_add_right _ _, ?_⟩
    change _ + List.length _ ≤ _
    rw [lengthEq]
    exact covered
  · exact (filter_attachUnlessLoop _ _ _ _).trans filter

/-- The arms of a `br_table`, one after the other. -/
theorem lowerBrTargets_meets
    {arity : Nat} {selector : BackPatchableSlot}
    (done : List (RegBrTableTarget BackPatchableSlot))
    (models : Models mod locals
      ((.brTableIndex, [selector]) :: armPatches done) s a)
    (uniform : ∀ target ∈ done, target.mov.input.length = arity)
    (covered : ∀ target ∈ done, locals ≤ target.mov.outputStart ∧
      target.mov.outputStart + arity ≤ s.peaks.registers)
    (found : ∀ relativeDepth ∈ targets, ∃ other,
      a.control[relativeDepth]? = some other ∧ other.labelArity = arity ∧
        other.recordedHeight + other.labelArity ≤ a.view.length) :
    (s.lowerBrTargets (done.map emittedArm) targets).Meets TraceWasmError.IsLimit
      fun (brTargets, after) =>
        let arms := a.armsOf locals done targets
        brTargets = arms.1.map emittedArm ∧
        Models mod locals ((.brTableIndex, [selector]) :: armPatches arms.1)
          after arms.2 ∧
        (∀ target ∈ arms.1, target.mov.input.length = arity) ∧
        (∀ target ∈ arms.1, locals ≤ target.mov.outputStart ∧
          target.mov.outputStart + arity ≤ after.peaks.registers) ∧
        after.unreachableTrackingStack = s.unreachableTrackingStack := by
  induction targets generalizing s a done with
  | nil => exact ⟨rfl, models, uniform, covered, rfl⟩
  | cons relativeDepth targets inductionHypothesis =>
      obtain ⟨block, target, arityEq, enough⟩ := found _ List.mem_cons_self
      unfold Lowering.lowerBrTargets SimulatedStack.getBlock
      rw [models.control, target, Attempt.orPanic_some, Attempt.ok_bind]
      refine (brTruncation_meets models enough).bind ?_
      rintro ⟨mov, sim⟩ ⟨rfl, lengthEq, fits, grows, truncated⟩
      have attached := attachUnlessLoop_models truncated relativeDepth block
        (s.len, done.length)
      let arm : RegBrTableTarget BackPatchableSlot :=
        ⟨branchMove locals a.view block.recordedHeight block.labelArity,
          Lowering.branchTarget block⟩
      have armsEq : a.armsOf locals done (relativeDepth :: targets) =
          (a.attachUnlessLoop relativeDepth block (s.len, done.length)).armsOf locals
            (done ++ [arm]) targets := by
        rw [Symbolic.armsOf, target, models.length_code]
      have doneEq : done.map emittedArm ++ [emittedArm arm] =
          (done ++ [arm]).map emittedArm := by
        rw [List.map_append]
        rfl
      rw [armsEq]
      change Attempt.Meets (Lowering.lowerBrTargets _
        (done.map emittedArm ++ [emittedArm arm]) targets) _ _
      rw [List.length_map, doneEq]
      rw [arityEq] at lengthEq fits
      have patchesEq : armPatches (done ++ [arm]) =
          armPatches done ++ branchPatches .brTableMov arm.mov.input := by
        unfold armPatches
        rw [List.flatMap_append, List.flatMap_singleton]
      have modelsNext : Models mod locals
          ((.brTableIndex, [selector]) :: armPatches (done ++ [arm]))
          (Lowering.attachUnlessLoop { s with simulatedStack := sim } relativeDepth
            block (s.len, done.length))
          (a.attachUnlessLoop relativeDepth block (s.len, done.length)) := by
        rw [patchesEq]
        exact attached
      refine (inductionHypothesis (done ++ [arm]) modelsNext ?_ ?_ ?_).mono ?_
      · intro other member
        rcases List.mem_append.mp member with member | member
        · exact uniform other member
        · cases List.mem_singleton.mp member
          exact arityEq ▸ lengthEq
      · intro other member
        rw [peaks_attachUnlessLoop]
        rcases List.mem_append.mp member with member | member
        · exact ⟨(covered other member).1, (covered other member).2.trans grows⟩
        · cases List.mem_singleton.mp member
          exact ⟨Nat.le_add_right _ _, arityEq ▸ fits⟩
      · intro other member
        obtain ⟨label, isLabel, sameArity, fitsOther⟩ :=
          found other (List.mem_cons_of_mem _ member)
        obtain ⟨label', isLabel', sameLabel⟩ := getElem?_of_map_bare
          (a.map_bare_attachUnlessLoop relativeDepth block (s.len, done.length)) isLabel
        refine ⟨label', isLabel', ?_, ?_⟩
        · rw [Block.labelArity_of_bare sameLabel, sameArity]
        · rw [Block.labelArity_of_bare sameLabel, Block.recordedHeight_of_bare sameLabel,
            Symbolic.view_attachUnlessLoop]
          exact fitsOther
      · rintro ⟨brTargets, after⟩ ⟨same, models, uniform, covered, filter⟩
        exact ⟨same, models, uniform, covered,
          filter.trans (filter_attachUnlessLoop _ _ _ _)⟩

/-- Lowering a `br_table` simulates its symbolic step. -/
theorem lowerBrTable_meets
    (models : Models mod locals [] s a)
    (ready : Ready mod locals results a (.brTable targets last)) :
    (s.lowerBrTable targets last).Meets TraceWasmError.IsLimit
      (Simulates mod locals results (.brTable targets last) s a) := by
  obtain ⟨leaves, block, target, allTargets⟩ := ready
  unfold Lowering.lowerBrTable
  refine (spillLiveLocals_meets models).bind ?_
  rintro spilled ⟨copies, view, redirects, gone, rescued, filter⟩
  have sameLength := redirects.length_eq
  obtain ⟨selector, rest, rfl⟩ := List.exists_cons_of_length_pos
    (show 0 < view.length by
      obtain ⟨_, _, _, enough⟩ := leaves
      omega)
  rw [List.length_cons] at sameLength
  have found : ∀ relativeDepth ∈ targets ++ [last], ∃ other,
      a.control[relativeDepth]? = some other ∧
        other.labelArity = block.labelArity ∧
          other.recordedHeight + other.labelArity ≤ rest.length := by
    intro relativeDepth member
    obtain ⟨other, isLabel, sameArity, enough⟩ := allTargets relativeDepth member
    exact ⟨other, isLabel, sameArity, by omega⟩
  refine (popRegister_meets rescued rfl).bind fun popped pops => ?_
  refine (lowerBrTargets_meets [] pops (by simp) (by simp) found).bind ?_
  rintro ⟨brTargets, after⟩ ⟨rfl, built, uniform, covered, filterArms⟩
  let middle : Symbolic := { a.rescue copies (selector :: rest) with view := rest }
  let arms := middle.armsOf locals [] (targets ++ [last])
  have emitted : Models mod locals []
      (after.push (.brTable placeholder (arms.1.map emittedArm)))
      (arms.2.emit (.brTable selector arms.1)) := by
    refine built.push (.brTable selector arms.1 block.labelArity uniform) ?_
      (by simp [RegInstruction.localIndices]) (by simp [RegInstruction.spillIndices])
    intro run member
    obtain ⟨target, isTarget, rfl⟩ := List.mem_map.mp member
    refine ⟨(covered target isTarget).1, ?_⟩
    change target.mov.outputStart + target.mov.input.length ≤ _
    rw [uniform target isTarget]
    exact (covered target isTarget).2
  have viewEq : arms.2.view = rest :=
    middle.view_armsOf locals [] (targets ++ [last])
  have height : arms.2.view.length + 1 = a.view.length :=
    (congrArg (fun view => List.length view + 1) viewEq).trans sameLength
  have leavesArms : arms.2.CanLeave 0 := canLeave_of_bare leaves
    (middle.map_bare_armsOf locals [] (targets ++ [last])) height
  obtain ⟨inner, outer, opened, enough⟩ := leavesArms
  refine (leaveBlock_meets emitted opened enough).mono ?_
  rintro final ⟨left, filterFinal⟩
  refine ⟨_, .brTable redirects gone target found rfl rfl, left, ?_⟩
  rw [filterFinal]
  exact congrArg UnreachableTrackingControlStack.setUnreachable
    (filterArms.trans filter)

/-! ## Calls -/

theorem baseOf_add_le
    (models : Models mod locals pending s a)
    (top : a.view = relaidView locals view pops pushes) :
    baseOf locals (view.drop pops) + pushes ≤ s.peaks.registers := by
  have covered := models.base_le
  rwa [top, baseOf_relaidView] at covered

theorem callRuns_below
    (params : baseOf locals view + ty.params.length ≤ peak)
    (blockResults : baseOf locals view + ty.results.length ≤ peak) :
    ∀ run ∈ RegInstruction.callRuns (some ty) (baseOf locals view),
      locals ≤ run.1 ∧ run.1 + run.2 ≤ peak := by
  intro run member
  simp only [RegInstruction.callRuns, List.mem_cons, List.not_mem_nil, or_false]
    at member
  rcases member with rfl | rfl
  · exact ⟨Nat.le_add_right _ _, params⟩
  · exact ⟨Nat.le_add_right _ _, blockResults⟩

theorem drop_relaidView (view : View) (pops pushes : Nat) :
    (relaidView locals view pops pushes).drop pushes = view.drop pops := by
  unfold relaidView
  rw [List.drop_left' (View.length_registerRun _ _)]

theorem relayout_relayout (a : Symbolic) (locals pops pushes pushes' : Nat) :
    (a.relayout locals pops pushes).relayout locals pushes pushes' =
      a.relayout locals pops pushes' := by
  unfold Symbolic.relayout
  dsimp only
  rw [relaidView, drop_relaidView]
  rfl

theorem view_materialize_drop (a : Symbolic) (locals count : Nat) :
    (a.materialize locals count).view.drop count = a.view.drop count := by
  unfold Symbolic.materialize
  split
  · rfl
  · exact drop_relaidView a.view count count

theorem materialize_below
    (models : Models mod locals pending s (a.materialize locals count)) :
    baseOf locals (a.view.drop count) + count ≤ s.peaks.registers := by
  have covered := models.base_le
  unfold Symbolic.materialize at covered
  split at covered
  · rename_i empty
    rw [empty]
    exact covered
  · change baseOf locals (relaidView locals a.view count count) ≤ _ at covered
    rwa [baseOf_relaidView] at covered

/-- Lowering a call simulates its symbolic step. -/
theorem lowerCall_meets
    (models : Models mod locals [] s a)
    (ready : Ready mod locals results a (.call functionIndex)) :
    (Lowering.lowerCall mod s functionIndex).Meets TraceWasmError.IsLimit
      (Simulates mod locals results (.call functionIndex) s a) := by
  obtain ⟨ty, typed, enough⟩ := ready
  have enoughOperands := enough
  rw [← models.view] at enoughOperands
  unfold Lowering.lowerCall
  rw [typed, Attempt.orPanic_some, Attempt.ok_bind]
  dsimp only
  rw [models.height, Attempt.sub_of_le enough, Attempt.ok_bind,
    models.sound.registerIndexAtDepth_eq enoughOperands, Attempt.ok_bind, models.view]
  refine (moveUnlessEmpty_meets models enough).bind ?_
  rintro moved ⟨modelsMoved, filter⟩
  have lengthEq := length_view_materialize a locals enough
  have unwind : moved.simulatedStack.height - (a.view.length - ty.params.length) =
      ty.params.length := by
    rw [modelsMoved.height, lengthEq]
    omega
  change Attempt.Meets (Attempt.sub moved.simulatedStack.height _ >>= _) _ _
  rw [Attempt.sub_of_le (by rw [modelsMoved.height, lengthEq]; omega),
    Attempt.ok_bind, unwind]
  refine (relayout_meets modelsMoved (by rw [lengthEq]; exact enough)).bind ?_
  rintro sim ⟨grows, relaid⟩
  have base : asU16 (baseOf locals (a.view.drop ty.params.length)) =
      baseOf locals (a.view.drop ty.params.length) :=
    asU16_of_le (models.baseOf_drop_le _)
  have paramsBelow := (materialize_below modelsMoved).trans grows
  have resultsBelow := baseOf_add_le relaid rfl
  rw [view_materialize_drop a locals ty.params.length] at resultsBelow
  refine ⟨_, .call typed enough, ?_, filter⟩
  have emitted := relaid.pushCall (.call functionIndex
    (baseOf locals (a.view.drop ty.params.length))) ?_
    (by simp [RegInstruction.localIndices]) (by simp [RegInstruction.spillIndices])
  · change Models _ _ _ (Lowering.push { moved with
      simulatedStack := sim
      callInstrBackpatches := moved.callInstrBackpatches ++
        [(moved.len, asU16 (baseOf locals (a.view.drop ty.params.length)))] } _) _
    rw [base]
    exact emitted
  · change ∀ run ∈ RegInstruction.callRuns (mod.funcType functionIndex) _, _
    rw [typed]
    exact callRuns_below paramsBelow resultsBelow

/-- Lowering a call through a table simulates its symbolic step. -/
theorem lowerCallIndirect_meets
    (models : Models mod locals [] s a)
    (ready : Ready mod locals results a (.callIndirect typeIndex tableIndex)) :
    (Lowering.lowerCallIndirect mod.types s typeIndex tableIndex).Meets
      TraceWasmError.IsLimit
      (Simulates mod locals results (.callIndirect typeIndex tableIndex) s a) := by
  obtain ⟨ty, typed, enough⟩ := ready
  have enoughOperands := enough
  rw [← models.view] at enoughOperands
  obtain ⟨slot, rest, top⟩ := List.exists_cons_of_length_pos
    (show 0 < a.view.length by omega)
  have enoughRest : ty.params.length ≤ rest.length := by
    rw [top, List.length_cons] at enough
    omega
  have lengthEq : a.view.length = rest.length + 1 := by rw [top, List.length_cons]
  unfold Lowering.lowerCallIndirect
  rw [typed, Attempt.orPanic_some, Attempt.ok_bind]
  dsimp only
  rw [models.height, Attempt.sub_of_le (show ty.params.length ≤ a.view.length by omega),
    Attempt.ok_bind, Attempt.sub_of_le (by omega), Attempt.ok_bind,
    models.sound.registerIndexAtDepth_eq enoughOperands, Attempt.ok_bind, models.view,
    top, List.drop_succ_cons]
  refine (popRegister_meets models top).bind fun popped pops => ?_
  refine (popsAndPushesRegisters_meets pops enoughRest).bind ?_
  rintro ⟨operands, sim⟩ ⟨rfl, covered, moved⟩
  have lengthMoved : (relaidView locals rest ty.params.length
      ty.params.length).length = rest.length := by
    rw [relaidView, List.length_append, View.length_registerRun, List.length_drop]
    omega
  have heightEq : sim.height = rest.length := moved.height.trans lengthMoved
  have unwind : sim.height - (rest.length + 1 - ty.params.length - 1) =
      ty.params.length := by
    rw [heightEq]
    omega
  change Attempt.Meets (Attempt.sub sim.height _ >>= _) _ _
  rw [List.length_cons, Attempt.sub_of_le (by rw [heightEq]; omega), Attempt.ok_bind,
    unwind]
  refine (relayout_meets moved (enoughRest.trans_eq lengthMoved.symm)).bind ?_
  rintro final ⟨grows, relaid⟩
  rw [relayout_relayout] at relaid
  have base : asU16 (baseOf locals (rest.drop ty.params.length)) =
      baseOf locals (rest.drop ty.params.length) := by
    have fits := models.baseOf_drop_le (ty.params.length + 1)
    rw [top, List.drop_succ_cons] at fits
    exact asU16_of_le fits
  have takenLength : (rest.take ty.params.length).reverse.length =
      ty.params.length := by
    rw [List.length_reverse, List.length_take]
    exact min_eq_left enoughRest
  have carries := Carries.callIndirect typeIndex tableIndex slot
    (moveOf locals rest ty.params.length) (baseOf locals (rest.drop ty.params.length))
  rw [moveOf, takenLength] at carries
  refine ⟨_, .callIndirect typed top enoughRest, ?_, rfl⟩
  have emitted := relaid.pushCall carries ?_
    (by simp [RegInstruction.localIndices]) (by simp [RegInstruction.spillIndices])
  · change Models _ _ _ (Lowering.push { s with
      simulatedStack := final
      callInstrBackpatches := s.callInstrBackpatches ++
        [(s.len, asU16 (baseOf locals (rest.drop ty.params.length)))] } _) _
    rw [base]
    exact emitted
  · have paramsBelow := covered.trans grows
    have resultsBelow := baseOf_add_le relaid rfl
    change ∀ run ∈ RegInstruction.moveRun _ ::
      RegInstruction.callRuns mod.types[typeIndex]? _, _
    rw [typed]
    intro run member
    rcases List.mem_cons.mp member with rfl | member
    · refine ⟨Nat.le_add_right _ _, ?_⟩
      unfold RegInstruction.moveRun
      rw [takenLength]
      exact paramsBelow
    · exact callRuns_below paramsBelow resultsBelow run member

/-! ## All operators -/

/-- Lowering an operator that finds what it needs and that the lowering knows
does its symbolic step, or reports a limit. -/
theorem lowerReachable_meets
    (models : Models mod locals [] s a)
    (coherent : Coherent a.code a.control)
    (ready : Ready mod locals results a op)
    (known : op.rejection = none) :
    (s.lowerReachable mod results op).Meets TraceWasmError.IsLimit
      (Simulates mod locals results op s a) := by
  cases op with
  | localGet localIndex => exact lowerLocalGet_meets models ready
  | localSet localIndex => exact lowerLocalSet_meets models ready
  | localTee localIndex => exact lowerLocalTee_meets models ready
  | const value => exact lowerConst_meets models value
  | data op => exact lowerData_meets models ready known
  | dataDrop dataIndex =>
      exact ⟨_, .dataDrop dataIndex,
        models.pushPlain (.dataDrop dataIndex) ⟨rfl, rfl, rfl⟩, rfl⟩
  | nop => exact ⟨_, .nop, models, rfl⟩
  | drop => exact lowerDrop_meets models ready
  | block blockty => exact lowerBlock_meets models ready
  | loop blockty => exact lowerLoop_meets models ready
  | ifOp blockty => exact lowerIf_meets models ready
  | elseOp => exact lowerElse_meets models ready
  | endOp => exact lowerEnd_meets models coherent ready
  | br relativeDepth => exact lowerBr_meets models ready
  | brIf relativeDepth => exact lowerBrIf_meets models ready
  | brTable targets last => exact lowerBrTable_meets models ready
  | returnOp => exact lowerReturn_meets models ready
  | call functionIndex => exact lowerCall_meets models ready
  | callIndirect typeIndex tableIndex => exact lowerCallIndirect_meets models ready
  | unreachable => exact lowerUnreachable_meets models ready
  | tryTable blockty debug => cases known
  | other op => cases known

/-- Lowering an operator that it does not know reports that operator. -/
theorem lowerReachable_eq_fail
    (s : Lowering) (mod : ModuleTypes) (results : Nat)
    (rejected : op.rejection = some reported) :
    s.lowerReachable mod results op = .fail reported := by
  cases op with
  | data op =>
      change s.lowerData op = _
      unfold Lowering.lowerData
      rw [op.checkMemory_eq_fail rejected]
      rfl
  | tryTable blockty debug =>
      cases rejected
      rfl
  | other op =>
      cases rejected
      rfl
  | _ => cases rejected

end Arms

end Register
end TraceWasm
