import TraceWasm.Register.Bounds
import TraceWasm.Register.Coherent
import TraceWasm.Register.OperandSteps

/-!
# Lowering refines symbolic lowering

A lowering state models a symbolic one when its operand stack is sound and
resolves to the symbolic view, and its code with what is recorded against it
stands for the symbolic code. Operand runs that are recorded for the next
instruction, which is not emitted yet, are pending.
-/

namespace TraceWasm
namespace Register

open OperandStack (Sound)
open Symbolic (baseOf branchMove moveOf relaidView spillCode)

namespace Lowering

/-- What the body needs so far. -/
def peaks (s : Lowering) : Peaks where
  registers := s.operands.maxRegisters
  spills := s.operands.spills.allocationLen
  consts := s.simulatedStack.constInterner.values.length

end Lowering

/-- The lowering state models the symbolic one. -/
structure Models
    (mod : ModuleTypes) (locals : Nat) (pending : List Patch)
    (s : Lowering) (a : Symbolic) : Prop where
  sound : Sound locals s.operands
  view : s.operands.view = a.view
  control : s.simulatedStack.controlStack = a.control
  consts : s.simulatedStack.constInterner.values = a.consts
  constsLe : a.consts.length ≤ u16Max
  offsets : s.simulatedStack.memoryOffsets.values = a.offsets
  offsetsLe : a.offsets.length ≤ u16Max
  constIds : ∀ constId, .const constId ∈ a.view → constId < a.consts.length
  represents : ∃ recorded,
    s.simulatedStack.backpatchMap =
      recorded ++ pending.map (fun patch => (s.len, patch)) ∧
    Represents recorded s.callInstrBackpatches s.instructions a.code
  pendingBelow : ∀ patch ∈ pending, ∀ operand ∈ patch.2,
    operand.Below locals s.peaks
  codeBelow : ∀ instr ∈ a.code, instr.Below mod locals s.peaks

namespace Models

variable {mod : ModuleTypes} {locals : Nat} {pending : List Patch}
  {s : Lowering} {a : Symbolic}

/-- Both lowerings are at the same instruction. -/
theorem length_code
    (models : Models mod locals pending s a) :
    s.len = a.code.length := by
  obtain ⟨_, _, represents⟩ := models.represents
  exact represents.length

/-- Both count the same operands. -/
theorem height
    (models : Models mod locals pending s a) :
    s.simulatedStack.height = a.view.length := by
  rw [← models.view, OperandStack.length_view]
  rfl

/-- The operands on the stack are counted by the peaks. -/
theorem viewBelow
    (models : Models mod locals pending s a)
    (member : operand ∈ a.view) :
    operand.Below locals s.peaks := by
  have inView := member
  rw [← models.view] at inView
  cases operand with
  | slot index => exact models.sound.slot_lt inView
  | const constId =>
      change constId < s.simulatedStack.constInterner.values.length
      rw [models.consts]
      exact models.constIds constId member
  | spill spillIndex => exact models.sound.spill_lt inView
  | register index =>
      have range := models.sound.consecutive.register_lt inView
      rw [← models.sound.counter] at range
      exact ⟨range.1, lt_of_lt_of_le range.2 models.sound.peak⟩

theorem base_le
    (models : Models mod locals pending s a) :
    baseOf locals a.view ≤ s.peaks.registers := by
  have counter := models.sound.counter
  rw [models.view] at counter
  unfold baseOf
  rw [← counter]
  exact models.sound.peak

theorem baseOf_drop_le
    (models : Models mod locals pending s a) (count : Nat) :
    baseOf locals (a.view.drop count) ≤ u16Max := by
  have := View.registers_take_add_drop count a.view
  have := models.base_le
  have : s.peaks.registers ≤ u16Max := models.sound.peakLe
  unfold baseOf at *
  omega

/-- Let the operand stack go over to another one. -/
theorem changeOperands
    (models : Models mod locals pending s a)
    {view : View} {operands : OperandStack}
    (becomes : Sound.Becomes locals s.operands view operands)
    (constIds : ∀ constId, .const constId ∈ view → constId < a.consts.length) :
    Models mod locals pending { s with simulatedStack.operands := operands }
      { a with view := view } := by
  have grows : Peaks.Le s.peaks
      { s with simulatedStack.operands := operands : Lowering }.peaks :=
    ⟨becomes.max, becomes.spills, le_rfl⟩
  exact {
    sound := becomes.sound
    view := becomes.view
    control := models.control
    consts := models.consts
    constsLe := models.constsLe
    offsets := models.offsets
    offsetsLe := models.offsetsLe
    constIds := constIds
    represents := models.represents
    pendingBelow := fun patch member operand inside =>
      (models.pendingBelow patch member operand inside).mono grows
    codeBelow := fun instr member => (models.codeBelow instr member).mono grows }

/-- Let the operand stack go over to one without new constants. -/
theorem setOperands
    (models : Models mod locals pending s a)
    {view : View} {operands : OperandStack}
    (becomes : Sound.Becomes locals s.operands view operands)
    (constIds : ∀ constId, .const constId ∈ view → .const constId ∈ a.view) :
    Models mod locals pending { s with simulatedStack.operands := operands }
      { a with view := view } :=
  models.changeOperands becomes fun constId member =>
    models.constIds constId (constIds constId member)

/-- Let the constant pool grow. -/
theorem setConsts
    (models : Models mod locals pending s a)
    {interner : Interner Const}
    (grows : a.consts <+: interner.values)
    (fits : interner.values.length ≤ u16Max) :
    Models mod locals pending { s with simulatedStack.constInterner := interner }
      { a with consts := interner.values } := by
  have longer := grows.length_le
  have peaksLe : Peaks.Le s.peaks
      { s with simulatedStack.constInterner := interner : Lowering }.peaks := by
    refine ⟨le_rfl, le_rfl, ?_⟩
    change s.simulatedStack.constInterner.values.length ≤ interner.values.length
    rw [models.consts]
    exact longer
  exact {
    sound := models.sound
    view := models.view
    control := models.control
    consts := rfl
    constsLe := fits
    offsets := models.offsets
    offsetsLe := models.offsetsLe
    constIds := fun constId member =>
      lt_of_lt_of_le (models.constIds constId member) longer
    represents := models.represents
    pendingBelow := fun patch member operand inside =>
      (models.pendingBelow patch member operand inside).mono peaksLe
    codeBelow := fun instr member => (models.codeBelow instr member).mono peaksLe }

/-- Let the offset pool grow. -/
theorem setOffsets
    (models : Models mod locals pending s a)
    {interner : Interner Nat}
    (fits : interner.values.length ≤ u16Max) :
    Models mod locals pending { s with simulatedStack.memoryOffsets := interner }
      { a with offsets := interner.values } where
  sound := models.sound
  view := models.view
  control := models.control
  consts := models.consts
  constsLe := models.constsLe
  offsets := rfl
  offsetsLe := fits
  constIds := models.constIds
  represents := models.represents
  pendingBelow := models.pendingBelow
  codeBelow := models.codeBelow

theorem setControl
    (models : Models mod locals pending s a) (control : List Block) :
    Models mod locals pending
      { s with simulatedStack.controlStack := control }
      (a.withControl control) where
  sound := models.sound
  view := models.view
  control := rfl
  consts := models.consts
  constsLe := models.constsLe
  offsets := models.offsets
  offsetsLe := models.offsetsLe
  constIds := models.constIds
  represents := models.represents
  pendingBelow := models.pendingBelow
  codeBelow := models.codeBelow

theorem setFilter
    (models : Models mod locals pending s a)
    (filter : UnreachableTrackingControlStack) :
    Models mod locals pending { s with unreachableTrackingStack := filter } a where
  sound := models.sound
  view := models.view
  control := models.control
  consts := models.consts
  constsLe := models.constsLe
  offsets := models.offsets
  offsetsLe := models.offsetsLe
  constIds := models.constIds
  represents := models.represents
  pendingBelow := models.pendingBelow
  codeBelow := models.codeBelow

/-- Record one more run for the next instruction. -/
theorem record
    (models : Models mod locals pending s a)
    (source : InstructionSource) (slots : List BackPatchableSlot)
    (below : ∀ operand ∈ slots, operand.Below locals s.peaks) :
    Models mod locals (pending ++ [(source, slots)])
      { s with simulatedStack := s.simulatedStack.record s.len source slots }
      a where
  sound := models.sound
  view := models.view
  control := models.control
  consts := models.consts
  constsLe := models.constsLe
  offsets := models.offsets
  offsetsLe := models.offsetsLe
  constIds := models.constIds
  represents := by
    obtain ⟨recorded, mapEq, represents⟩ := models.represents
    refine ⟨recorded, ?_, represents⟩
    change s.simulatedStack.backpatchMap ++ [(s.len, source, slots)] = _
    rw [mapEq, List.map_append, List.append_assoc]
    rfl
  pendingBelow := by
    intro patch member operand inside
    rcases List.mem_append.mp member with member | member
    · exact models.pendingBelow patch member operand inside
    · rw [List.mem_singleton] at member
      subst member
      exact below operand inside
  codeBelow := models.codeBelow

/-- Emit the instruction that the pending runs are recorded for, a call with
its callee base. -/
theorem pushCall
    (models : Models mod locals pending s a)
    {bases : List Nat}
    (carries : Carries pending bases instr sym)
    (outputRuns : ∀ run ∈ sym.outputRuns mod,
      locals ≤ run.1 ∧ run.1 + run.2 ≤ s.peaks.registers)
    (localIndices : ∀ index ∈ sym.localIndices, index < locals)
    (spillIndices : ∀ index ∈ sym.spillIndices, index < s.peaks.spills) :
    Models mod locals []
      ({ s with callInstrBackpatches := s.callInstrBackpatches ++
          bases.map fun base => (s.len, base) }.push instr)
      (a.emit sym) where
  sound := models.sound
  view := models.view
  control := models.control
  consts := models.consts
  constsLe := models.constsLe
  offsets := models.offsets
  offsetsLe := models.offsetsLe
  constIds := models.constIds
  represents := by
    obtain ⟨recorded, mapEq, represents⟩ := models.represents
    refine ⟨_, ?_, represents.append carries⟩
    rw [List.map_nil, List.append_nil]
    exact mapEq
  pendingBelow := by simp
  codeBelow := by
    intro instr member
    rcases List.mem_append.mp member with member | member
    · exact models.codeBelow instr member
    · rw [List.mem_singleton] at member
      subst member
      refine ⟨fun operand inside => ?_, outputRuns, localIndices, spillIndices⟩
      obtain ⟨patch, recorded, inside⟩ := carries.mem_patches inside
      exact models.pendingBelow patch recorded operand inside

/-- Emitting an instruction that carries its symbolic one keeps the refinement. -/
theorem push
    (models : Models mod locals pending s a)
    (carries : Carries pending [] instr sym)
    (outputRuns : ∀ run ∈ sym.outputRuns mod,
      locals ≤ run.1 ∧ run.1 + run.2 ≤ s.peaks.registers)
    (localIndices : ∀ index ∈ sym.localIndices, index < locals)
    (spillIndices : ∀ index ∈ sym.spillIndices, index < s.peaks.spills) :
    Models mod locals [] (s.push instr) (a.emit sym) := by
  have pushed := models.pushCall carries outputRuns localIndices spillIndices
  rw [List.map_nil, List.append_nil] at pushed
  exact pushed

/-- Emit an instruction without operands, destinations or indices. -/
theorem pushPlain
    (models : Models mod locals [] s a)
    (carries : Carries [] [] instr sym)
    (plain : sym.outputRuns mod = [] ∧ sym.localIndices = [] ∧
      sym.spillIndices = []) :
    Models mod locals [] (s.push instr) (a.emit sym) :=
  models.push carries (by simp [plain.1]) (by simp [plain.2.1]) (by simp [plain.2.2])

end Models

/-! ## The parts of the arms -/

section Parts

open Lowering (peaks)

variable {mod : ModuleTypes} {locals : Nat} {pending : List Patch}
  {s : Lowering} {a : Symbolic}

theorem const_mem_of_relaidView
    (member : BackPatchableSlot.const constId ∈
      relaidView locals view pops pushes) :
    BackPatchableSlot.const constId ∈ view := by
  rcases List.mem_append.mp member with member | member
  · obtain ⟨_, _, impossible⟩ := View.mem_registerRun.mp member
    cases impossible
  · exact List.mem_of_mem_drop member

theorem baseOf_relaidView :
    baseOf locals (relaidView locals view pops pushes) =
      baseOf locals (view.drop pops) + pushes := by
  unfold relaidView
  rw [baseOf, View.registers_append, View.registers_registerRun, baseOf]
  omega

/-- Replacing operands by registers refines relaying them out. -/
theorem relayout_meets
    (models : Models mod locals pending s a)
    (enough : pops ≤ a.view.length) :
    (s.simulatedStack.popsAndPushes pops pushes).Meets TraceWasmError.IsLimit
      fun sim =>
        s.peaks.registers ≤
          { s with simulatedStack := sim : Lowering }.peaks.registers ∧
        Models mod locals pending { s with simulatedStack := sim }
          (a.relayout locals pops pushes) := by
  rw [← models.view] at enough
  refine (models.sound.popsAndPushes_meets enough pushes).bind
    fun operands becomes => ?_
  rw [models.view] at becomes
  exact ⟨becomes.max, models.setOperands becomes fun constId => const_mem_of_relaidView⟩

/-- What an instruction pops is recorded for it, and its destinations lie below
the peak. -/
theorem popsAndPushesRegisters_meets
    (models : Models mod locals pending s a)
    (enough : pops ≤ a.view.length) :
    (s.simulatedStack.popsAndPushesRegisters pops pushes s.len source).Meets
      TraceWasmError.IsLimit
      fun (mov, sim) =>
        mov = ⟨placeholders pops, baseOf locals (a.view.drop pops)⟩ ∧
        baseOf locals (a.view.drop pops) + pushes ≤
          { s with simulatedStack := sim : Lowering }.peaks.registers ∧
        Models mod locals (pending ++ [(source, (a.view.take pops).reverse)])
          { s with simulatedStack := sim } (a.relayout locals pops pushes) := by
  have enoughOperands := enough
  rw [← models.view] at enoughOperands
  obtain ⟨middle, popped, becomes⟩ :=
    models.sound.popMany_eq (ε := TraceWasmError) enoughOperands
  unfold SimulatedStack.popsAndPushesRegisters
  rw [popped, Attempt.ok_bind]
  refine (becomes.sound.pushMany_meets pushes).bind fun operands pushed => ?_
  have counter : middle.currRegisterIndex = baseOf locals (a.view.drop pops) := by
    rw [becomes.sound.counter, becomes.view, models.view]
    rfl
  have outputStart : asU16 middle.currRegisterIndex =
      baseOf locals (a.view.drop pops) := by
    rw [becomes.sound.asU16_counter, counter]
  have changed := becomes.trans pushed
  rw [counter, becomes.view, models.view] at changed
  have moved := models.setOperands changed fun constId member =>
    const_mem_of_relaidView member
  refine ⟨by rw [outputStart]; rfl, ?_, ?_⟩
  · have covered := moved.base_le
    change baseOf locals (relaidView locals a.view pops pushes) ≤ _ at covered
    rw [baseOf_relaidView] at covered
    exact covered
  · have recorded := moved.record source (a.view.take pops).reverse
      fun operand member => (models.viewBelow (List.mem_of_mem_take
        (List.mem_reverse.mp member))).mono ⟨changed.max, changed.spills, le_rfl⟩
    rw [models.view]
    exact recorded

/-- Popping into an instruction's operand refines taking the topmost one. -/
theorem popRegister_meets
    (models : Models mod locals pending s a)
    (top : a.view = operand :: rest) :
    (s.simulatedStack.popRegister s.len source).Meets TraceWasmError.IsLimit
      fun sim =>
        Models mod locals (pending ++ [(source, [operand])])
          { s with simulatedStack := sim } { a with view := rest } := by
  have enough : 1 ≤ a.view.length := by simp [top]
  refine (popsAndPushesRegisters_meets models enough).bind ?_
  rintro ⟨mov, sim⟩ ⟨_, _, popped⟩
  have viewEq : relaidView locals a.view 1 0 = rest := by
    simp [relaidView, top, View.registerRun]
  change Models _ _ _ _ { a with view := relaidView locals a.view 1 0 } at popped
  rw [viewEq, top] at popped
  exact popped

/-- The move of a branch refines the symbolic one. -/
theorem brTruncation_meets
    (models : Models mod locals pending s a)
    (enough : height + arity ≤ a.view.length) :
    (s.simulatedStack.brTruncationRegisters height arity s.len source).Meets
      TraceWasmError.IsLimit
      fun (mov, sim) =>
        let carried := branchMove locals a.view height arity
        mov = ⟨placeholders carried.input.length, carried.outputStart⟩ ∧
        carried.input.length = arity ∧
        carried.outputStart + arity ≤
          { s with simulatedStack := sim : Lowering }.peaks.registers ∧
        s.peaks.registers ≤
          { s with simulatedStack := sim : Lowering }.peaks.registers ∧
        Models mod locals (pending ++ branchPatches source carried.input)
          { s with simulatedStack := sim } a := by
  have enoughOperands := enough
  rw [← models.view] at enoughOperands
  refine (models.sound.brTruncationRegisters_meets enoughOperands).bind ?_
  rintro ⟨slots, mov, operands⟩ ⟨rfl, rfl, fits, rfl⟩
  rw [models.view] at *
  have lengthEq : (branchMove locals a.view height arity).input.length = arity := by
    simp only [branchMove, List.length_reverse, List.length_take]
    omega
  have raised := models.setOperands
    (models.view ▸ models.sound.raiseMax_becomes fits) fun constId => id
  refine ⟨by rw [lengthEq]; rfl, lengthEq, ?_, ?_, ?_⟩
  · split <;> exact le_max_right _ _
  · split <;> exact le_max_left _ _
  unfold branchPatches
  by_cases empty : arity = 0
  · subst empty
    rw [if_pos (by simpa using lengthEq), List.append_nil, if_neg (by simp)]
    exact raised
  · have nonempty : (branchMove locals a.view height arity).input ≠ [] := by
      intro isNil
      rw [isNil] at lengthEq
      exact empty lengthEq.symm
    rw [if_neg nonempty, if_pos (Nat.pos_of_ne_zero empty)]
    refine raised.record source _ fun operand member => ?_
    exact (raised.viewBelow (List.mem_of_mem_take (List.mem_reverse.mp member)))

/-- Moving operands down refines materializing them. -/
theorem moveUnlessEmpty_meets
    (models : Models mod locals [] s a)
    (enough : depth ≤ a.view.length) :
    (s.moveUnlessEmpty depth).Meets TraceWasmError.IsLimit
      fun after => Models mod locals [] after (a.materialize locals depth) ∧
        after.unreachableTrackingStack = s.unreachableTrackingStack := by
  unfold Lowering.moveUnlessEmpty Symbolic.materialize
  by_cases empty : depth = 0
  · rw [if_neg (by simpa using empty), if_pos empty]
    exact ⟨models, rfl⟩
  · rw [if_pos empty, if_neg empty]
    refine (popsAndPushesRegisters_meets models enough).bind ?_
    rintro ⟨mov, sim⟩ ⟨rfl, covered, popped⟩
    have lengthEq : (moveOf locals a.view depth).input.length = depth := by
      simp only [moveOf, List.length_reverse, List.length_take]
      omega
    have carries := Carries.move (moveOf locals a.view depth)
    rw [lengthEq] at carries
    refine ⟨popped.push carries ?_ (by simp [RegInstruction.localIndices])
      (by simp [RegInstruction.spillIndices]), rfl⟩
    intro run member
    simp only [RegInstruction.outputRuns, List.mem_singleton] at member
    subst member
    refine ⟨Nat.le_add_right _ _, ?_⟩
    unfold RegInstruction.moveRun
    rw [lengthEq]
    exact covered

/-- Emit the copies of a rescue. -/
theorem pushSpills_models
    (models : Models mod locals [] s a)
    (copies : List (Nat × Nat))
    (below : ∀ copy ∈ copies, copy.1 < locals ∧ copy.2 < s.peaks.spills) :
    Models mod locals [] (s.pushSpills copies)
      { a with code := a.code ++ spillCode copies } := by
  induction copies generalizing s a with
  | nil =>
      unfold Lowering.pushSpills spillCode
      rw [List.map_nil, List.map_nil, List.append_nil, List.append_nil]
      exact models
  | cons copy copies inductionHypothesis =>
      have head := below copy (by simp)
      have pushed := models.push (.localSpill copy.1 copy.2)
        (by simp [RegInstruction.outputRuns])
        (by simpa [RegInstruction.localIndices] using head.1)
        (by simpa [RegInstruction.spillIndices] using head.2)
      have rest := inductionHypothesis pushed
        fun copy member => below copy (by simp [member])
      unfold Lowering.pushSpills Lowering.push spillCode Symbolic.emit at rest
      unfold Lowering.pushSpills spillCode
      simp only [List.map_cons, List.append_assoc, List.singleton_append] at rest ⊢
      exact rest

/-- Rescuing borrows refines redirecting the view. -/
theorem rescue_models
    (models : Models mod locals [] s a)
    (redirects : View.Redirects copies a.view view)
    (becomes : Sound.Becomes locals s.operands view operands) :
    Models mod locals []
      ({ s with simulatedStack.operands := operands }.pushSpills copies)
      (a.rescue copies view) := by
  have changed := models.setOperands becomes fun constId => redirects.const_mem
  refine pushSpills_models changed copies fun copy member => ?_
  obtain ⟨slotMem, spillMem⟩ := redirects.mem_of_copy member
  exact ⟨models.viewBelow slotMem, changed.viewBelow spillMem⟩

/-- Every borrow is rescued. -/
theorem spillLiveLocals_meets
    (models : Models mod locals [] s a) :
    s.spillLiveLocals.Meets TraceWasmError.IsLimit
      fun after => ∃ copies view,
        View.Redirects copies a.view view ∧
        (∀ localIndex, .slot localIndex ∉ view) ∧
        Models mod locals [] after (a.rescue copies view) ∧
        after.unreachableTrackingStack = s.unreachableTrackingStack := by
  refine models.sound.spillLazy_meets.bind ?_
  rintro ⟨copies, operands⟩ ⟨⟨view, redirects, becomes⟩, gone⟩
  rw [models.view] at redirects
  rw [becomes.view] at gone
  exact ⟨copies, view, redirects, gone, rescue_models models redirects becomes, rfl⟩

/-- The borrows of one local are rescued. -/
theorem spillLocal_meets
    (models : Models mod locals [] s a)
    (below : localIndex < locals) :
    (s.spillLocal localIndex).Meets TraceWasmError.IsLimit
      fun after => ∃ copies view,
        View.Redirects copies a.view view ∧
        .slot localIndex ∉ view ∧
        Models mod locals [] after (a.rescue copies view) ∧
        after.unreachableTrackingStack = s.unreachableTrackingStack := by
  refine (models.sound.setLazy_meets below).bind ?_
  rintro ⟨spillIndex, operands⟩ ⟨⟨view, redirects, becomes⟩, gone⟩
  rw [models.view] at redirects
  rw [becomes.view] at gone
  have rescued := rescue_models models redirects becomes
  cases spillIndex with
  | none =>
      refine ⟨_, view, redirects, gone, ?_, rfl⟩
      unfold Lowering.pushSpills at rescued
      simp only [Option.map_none, Option.toList_none, List.map_nil,
        List.append_nil] at rescued
      exact rescued
  | some spillIndex => exact ⟨_, view, redirects, gone, rescued, rfl⟩

theorem attachUnlessLoop_models
    (models : Models mod locals pending s a)
    (relativeDepth : Nat) (block : Block) (attached : Nat × Nat) :
    Models mod locals pending (s.attachUnlessLoop relativeDepth block attached)
      (a.attachUnlessLoop relativeDepth block attached) := by
  have changed := models.setControl
    (attachKey s.simulatedStack.controlStack relativeDepth attached)
  rw [models.control] at changed
  unfold Lowering.attachUnlessLoop Symbolic.attachUnlessLoop
  cases block.kind.isLoop with
  | some loopIndex => exact models
  | none =>
      unfold SimulatedStack.attachBreak
      dsimp only
      rw [models.control]
      exact changed

/-- Emitting the move of a branch keeps the refinement. -/
theorem pushMove_models
    {carried : DynSignature BackPatchableSlot}
    (models : Models mod locals (branchPatches .emit carried.input) s a)
    (covered : locals ≤ carried.outputStart ∧
      carried.outputStart + carried.input.length ≤ s.peaks.registers) :
    Models mod locals []
      (s.pushMove ⟨placeholders carried.input.length, carried.outputStart⟩)
      (a.pushMove carried) := by
  unfold Lowering.pushMove Symbolic.pushMove DynSignature.isEmpty
  unfold branchPatches at models
  by_cases empty : carried.input = []
  · rw [if_pos (by simp [empty, placeholders]), if_pos (by simp [empty])]
    rw [if_pos empty] at models
    exact models
  · have notNil : carried.input.length ≠ 0 := by simpa using empty
    rw [if_neg (by simp [placeholders, notNil]), if_neg (by simpa using empty)]
    rw [if_neg empty] at models
    refine models.push (.move carried) ?_ (by simp [RegInstruction.localIndices])
      (by simp [RegInstruction.spillIndices])
    intro run member
    cases List.mem_singleton.mp member
    exact covered

/-- Leaving a block gives it its results. -/
theorem leaveBlock_meets
    (models : Models mod locals [] s a)
    (opened : a.control = block :: outer)
    (enough : block.recordedHeight ≤ a.view.length) :
    s.leaveBlock.Meets TraceWasmError.IsLimit fun after =>
      Models mod locals [] after (a.leave locals) ∧
        after.unreachableTrackingStack =
          s.unreachableTrackingStack.setUnreachable := by
  unfold Lowering.leaveBlock SimulatedStack.resetEnclosingBlockLayout Symbolic.leave
  rw [models.control, opened]
  dsimp only [List.head?_cons]
  rw [Attempt.orPanic_some, Attempt.ok_bind, models.height,
    Attempt.sub_of_le enough, Attempt.ok_bind]
  refine (relayout_meets models (Nat.sub_le _ _)).bind ?_
  rintro sim ⟨_, reset⟩
  exact ⟨reset.setFilter _, rfl⟩

end Parts

/-! ## Patching a label -/

theorem Carries.hasArm
    (carries : Carries patches bases instr sym)
    (hasArm : sym.HasArm arm) :
    instr.HasArm arm := by
  cases carries with
  | brTable selector brTargets arity uniform =>
      simpa [RegInstruction.HasArm] using hasArm
  | _ => exact hasArm

theorem Carries.isIf
    (carries : Carries patches bases instr sym) (isIf : sym.IsIf) : instr.IsIf := by
  cases carries <;> exact isIf

theorem Carries.isElse
    (carries : Carries patches bases instr sym) (isElse : sym.IsElse) :
    instr.IsElse := by
  cases carries <;> exact isElse

/-- What is at an index of the symbolic code is at that index of the code. -/
theorem Represents.instructionAt
    {property : SymInstruction → Prop}
    {property' : RegInstruction Slot → Prop}
    (represents : Represents map calls instructions code)
    (present : InstructionAt code index property)
    (carried : ∀ {patches bases instr sym}, Carries patches bases instr sym →
      property sym → property' instr) :
    InstructionAt instructions index property' := by
  obtain ⟨sym, found, holds⟩ := present
  obtain ⟨instr, found', carries⟩ := represents.instr_of_sym found
  exact ⟨instr, found', carried carries holds⟩

theorem set_eq_modify
    {instructions : List (RegInstruction operand)}
    (found : instructions[index]? = some instr)
    (change : RegInstruction operand → RegInstruction operand) :
    instructions.set index (change instr) = instructions.modify index change := by
  rw [List.modify_eq_set_getElem?, found]
  rfl

/-- A branch that awaits its target gets it. -/
theorem patchBreak_eq
    {instructions : List (RegInstruction Slot)}
    (awaits : InstructionAt instructions key.1 (RegInstruction.HasArm key.2)) :
    Lowering.patchBreak index instructions key =
      .ok (instructions.modify key.1 (RegInstruction.setTarget key.2 index)) := by
  obtain ⟨instr, found, hasArm⟩ := awaits
  have modified := set_eq_modify found (RegInstruction.setTarget key.2 index)
  unfold Lowering.patchBreak
  rw [found, Attempt.orPanic_some, Attempt.ok_bind, ← modified]
  cases instr with
  | br targetIndex => rfl
  | brIf condition mov targetIndex => rfl
  | brTable selector brTargets =>
      have below : key.2 < brTargets.length := hasArm
      dsimp only
      rw [Attempt.assert_of below]
      rfl
  | returnOp targetIndex => rfl
  | _ => exact hasArm.elim

/-- So do all of them. -/
theorem patchBreaks_eq
    {instructions : List (RegInstruction Slot)} {attached : List (Nat × Nat)}
    (awaits : ∀ key ∈ attached,
      InstructionAt instructions key.1 (RegInstruction.HasArm key.2)) :
    attached.foldlM (Lowering.patchBreak index) instructions =
      .ok (patchBreaks index instructions attached) := by
  induction attached generalizing instructions with
  | nil => rfl
  | cons key rest inductionHypothesis =>
      rw [List.foldlM_cons, patchBreak_eq (awaits key List.mem_cons_self),
        Attempt.ok_bind]
      refine inductionHypothesis fun other member => ?_
      exact (awaits other (List.mem_cons_of_mem _ member)).of_shape
        (shape_modify (fun instr => instr.untargeted_setTarget key.2 index) _ _)
        fun instr => instr.hasArm_untargeted

/-- So do an `if` and its `else`. -/
theorem patchIf_eq
    {instructions : List (RegInstruction Slot)}
    (ifIndex : ∀ index elseIndex, kind = .ifOp index elseIndex →
      InstructionAt instructions index RegInstruction.IsIf)
    (elseIndex : ∀ index elseIndex, kind = .ifOp index (some elseIndex) →
      InstructionAt instructions elseIndex RegInstruction.IsElse) :
    Lowering.patchIf target instructions kind =
      .ok (patchIfTargets target instructions kind) := by
  cases kind with
  | ifOp index other =>
      obtain ⟨instr, found, isIf⟩ := ifIndex index other rfl
      have modified := set_eq_modify found
        (RegInstruction.setIfTargets other target)
      rw [Lowering.patchIf, found, Attempt.orPanic_some, Attempt.ok_bind]
      cases instr with
      | ifOp condition _ _ =>
          cases other with
          | none => exact congrArg Except.ok modified
          | some other =>
              have sameShape := shape_modify
                (fun instr => instr.untargeted_setIfTargets (some other) target)
                instructions index
              obtain ⟨instr', found', isElse⟩ :=
                (elseIndex index other rfl).of_shape sameShape
                  fun instr => instr.isElse_untargeted
              rw [← modified] at found'
              change (instructions.set index
                (.ifOp condition (some other) target))[other]? = _ at found'
              dsimp only
              rw [found', Attempt.orPanic_some, Attempt.ok_bind]
              cases instr' with
              | elseOp _ =>
                  have modifiedElse := set_eq_modify found'
                    (RegInstruction.setElseTarget target)
                  rw [patchIfTargets, ← modified]
                  exact congrArg Except.ok modifiedElse
              | _ => exact isElse.elim
      | _ => exact isIf.elim
  | func => rfl
  | block => rfl
  | loop index => rfl

/-- Give everything that waits for the end of a label its target. -/
theorem Models.patchLabel
    (models : Models mod locals [] s a)
    (label : LabelCoherent a.code block) :
    ∃ instructions,
      block.attachedBreaks.foldlM (Lowering.patchBreak s.len) s.instructions =
        .ok instructions ∧
      ∃ patched, Lowering.patchIf s.len instructions block.kind = .ok patched ∧
        Models mod locals [] { s with instructions := patched }
          (a.patchLabel block) := by
  obtain ⟨recorded, mapEq, represents⟩ := models.represents
  have patchedBreaks := represents.patchBreaks s.len block.attachedBreaks
  have sameShape := shape_patchBreaks s.len a.code block.attachedBreaks
  have afterBreaks := label.mono ⟨[], by rw [List.append_nil, sameShape]⟩
  refine ⟨_, patchBreaks_eq fun key member =>
    represents.instructionAt (label.awaits key member) Carries.hasArm, _,
    patchIf_eq (fun index elseIndex kind =>
      patchedBreaks.instructionAt (afterBreaks.ifIndex index elseIndex kind)
        Carries.isIf) (fun index elseIndex kind =>
      patchedBreaks.instructionAt (afterBreaks.elseIndex index elseIndex kind)
        Carries.isElse), ?_⟩
  have shapeEq : shape (a.patchLabel block).code = shape a.code := by
    unfold Symbolic.patchLabel
    rw [shape_patchIfTargets, shape_patchBreaks]
  exact {
    sound := models.sound
    view := models.view
    control := models.control
    consts := models.consts
    constsLe := models.constsLe
    offsets := models.offsets
    offsetsLe := models.offsetsLe
    constIds := models.constIds
    represents := by
      refine ⟨recorded, by simpa using mapEq, ?_⟩
      unfold Symbolic.patchLabel
      rw [← models.length_code]
      exact patchedBreaks.patchIfTargets s.len block.kind
    pendingBelow := by simp
    codeBelow := below_shape.mp (shapeEq ▸ below_shape.mpr models.codeBelow) }

end Register
end TraceWasm
