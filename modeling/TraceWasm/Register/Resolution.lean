import TraceWasm.Register.Trace

/-!
# The end of a body resolves every operand

Once the sizes of the frame's regions are known, the recorded operands become
frame indices. The result is the symbolic code with each operand put in its
place; no addition overflows and no recording is left over or missing.
-/

namespace TraceWasm
namespace Register

section Resolve

variable (locals consts spills : Nat)

/-- The frame index of an operand. -/
def BackPatchableSlot.resolve : BackPatchableSlot → Slot
  | .slot index => index
  | .const constId => constId + locals
  | .spill spillIndex => spillIndex + locals + consts
  | .register index => index + consts + spills

/-- Operands and destinations as frame indices. -/
def DynSignature.resolve (mov : DynSignature BackPatchableSlot) :
    DynSignature Slot :=
  ⟨mov.input.map (·.resolve locals consts spills), mov.outputStart + consts + spills⟩

/-- The instruction with its operands, destinations and callee base as frame
indices. -/
def RegInstruction.resolve : SymInstruction → RegInstruction Slot
  | .localSet index input =>
      .localSet index (input.resolve locals consts spills)
  | .localTee index input =>
      .localTee index (input.resolve locals consts spills)
  | .localSpill index spillIndex => .localSpill index spillIndex
  | .data op input outputStart =>
      .data op (input.map (·.resolve locals consts spills))
        (outputStart + consts + spills)
  | .dataDrop dataIndex => .dataDrop dataIndex
  | .loop => .loop
  | .ifOp condition elseIndex endIndex =>
      .ifOp (condition.resolve locals consts spills) elseIndex endIndex
  | .elseOp endIndex => .elseOp endIndex
  | .endOp => .endOp
  | .br targetIndex => .br targetIndex
  | .brIf condition mov targetIndex =>
      .brIf (condition.resolve locals consts spills)
        (mov.resolve locals consts spills) targetIndex
  | .brTable selector brTargets =>
      .brTable (selector.resolve locals consts spills)
        (brTargets.map fun target =>
          ⟨target.mov.resolve locals consts spills, target.targetIndex⟩)
  | .returnOp targetIndex => .returnOp targetIndex
  | .call funcIndex callerBase => .call funcIndex (callerBase + spills + consts)
  | .callIndirect tyIndex tableIndex slot operands callerBase =>
      .callIndirect tyIndex tableIndex (slot.resolve locals consts spills)
        (operands.resolve locals consts spills) (callerBase + spills + consts)
  | .unreachable => .unreachable
  | .move mov => .move (mov.resolve locals consts spills)

end Resolve

/-- The regions that the peaks ask for fit in a frame. -/
structure Peaks.Fit (locals : Nat) (peaks : Peaks) : Prop where
  width : peaks.registers + peaks.spills + peaks.consts ≤ u16Max
  locals : locals ≤ peaks.registers

section Operands

variable {locals : Nat} {peaks : Peaks}

/-- An operand below the peaks has its slot in the frame. -/
theorem BackPatchableSlot.absoluteSlotInFrame_eq
    {operand : BackPatchableSlot}
    (fit : peaks.Fit locals)
    (below : operand.Below locals peaks) :
    (operand.absoluteSlotInFrame locals peaks.consts peaks.spills : Attempt ε Slot) =
      .ok (operand.resolve locals peaks.consts peaks.spills) := by
  obtain ⟨width, localsLe⟩ := fit
  cases operand with
  | slot index => rfl
  | const constId =>
      change constId < peaks.consts at below
      exact addU16_of_le (by omega)
  | spill spillIndex =>
      change spillIndex < peaks.spills at below
      change addU16 spillIndex locals >>= _ = _
      rw [addU16_of_le (by omega), Attempt.ok_bind]
      exact addU16_of_le (by omega)
  | register index =>
      obtain ⟨_, below⟩ := below
      change addU16 index peaks.consts >>= _ = _
      rw [addU16_of_le (by omega), Attempt.ok_bind]
      exact addU16_of_le (by omega)

theorem mapM_absoluteSlotInFrame_eq
    {operands : List BackPatchableSlot}
    (fit : peaks.Fit locals)
    (below : ∀ operand ∈ operands, operand.Below locals peaks) :
    (operands.mapM (·.absoluteSlotInFrame locals peaks.consts peaks.spills) :
        Attempt ε (List Slot)) =
      .ok (operands.map (·.resolve locals peaks.consts peaks.spills)) := by
  induction operands with
  | nil => rfl
  | cons operand operands inductionHypothesis =>
      rw [List.mapM_cons, BackPatchableSlot.absoluteSlotInFrame_eq fit
        (below operand List.mem_cons_self), Attempt.ok_bind,
        inductionHypothesis fun other member =>
          below other (List.mem_cons_of_mem _ member)]
      rfl

namespace BackpatchMap

theorem applyToInputRegisters_eq
    {patch : List BackPatchableSlot}
    (fit : peaks.Fit locals)
    (below : ∀ operand ∈ patch, operand.Below locals peaks)
    (source : InstructionSource) (rest : List Patch) :
    (applyToInputRegisters locals peaks.consts peaks.spills
        ((source, patch) :: rest) (placeholders patch.length) source :
          Attempt ε (List Slot × List Patch)) =
      .ok (patch.map (·.resolve locals peaks.consts peaks.spills), rest) := by
  unfold applyToInputRegisters
  dsimp only
  have sameLength : patch.length = (placeholders patch.length).length :=
    List.length_replicate.symm
  rw [Attempt.assert_of (show source = source from rfl), Attempt.ok_bind,
    Attempt.assert_of sameLength, Attempt.ok_bind,
    mapM_absoluteSlotInFrame_eq fit below]
  rfl

theorem applyToInputRegister_eq
    {operand : BackPatchableSlot}
    (fit : peaks.Fit locals)
    (below : operand.Below locals peaks)
    (source : InstructionSource) (rest : List Patch) :
    (applyToInputRegister locals peaks.consts peaks.spills
        ((source, [operand]) :: rest) placeholder source :
          Attempt ε (Slot × List Patch)) =
      .ok (operand.resolve locals peaks.consts peaks.spills, rest) := by
  have applied := applyToInputRegisters_eq (ε := ε) fit
    (fun other member => List.mem_singleton.mp member ▸ below) source rest
  unfold applyToInputRegister
  change applyToInputRegisters _ _ _ _ (placeholders [operand].length) _ >>= _ = _
  rw [applied]
  rfl

/-- An output register moves up, behind the constants and the spills. -/
theorem applyToOutputRegisters_eq
    (fit : peaks.Fit locals)
    (below : outputStart ≤ peaks.registers) :
    (applyToOutputRegisters peaks.consts peaks.spills outputStart : Attempt ε Nat) =
      .ok (outputStart + peaks.consts + peaks.spills) := by
  obtain ⟨width, _⟩ := fit
  unfold applyToOutputRegisters
  rw [addU16_of_le (by omega), Attempt.ok_bind]
  exact addU16_of_le (by omega)

/-- The run of a move, which is not recorded when a branch carries nothing. -/
theorem applyToDynSignature_eq
    {mov : DynSignature BackPatchableSlot}
    (fit : peaks.Fit locals)
    (below : ∀ operand ∈ mov.input, operand.Below locals peaks)
    (outputBelow : mov.outputStart ≤ peaks.registers)
    (recorded : patches = (source, mov.input) :: rest ∨
      patches = [] ∧ mov.input = [] ∧ rest = []) :
    (applyToDynSignature locals peaks.consts peaks.spills patches
        ⟨placeholders mov.input.length, mov.outputStart⟩ source :
          Attempt ε (DynSignature Slot × List Patch)) =
      .ok (mov.resolve locals peaks.consts peaks.spills, rest) := by
  have inputs : (applyToInputRegisters locals peaks.consts peaks.spills patches
      (placeholders mov.input.length) source : Attempt ε (List Slot × List Patch)) =
        .ok (mov.input.map (·.resolve locals peaks.consts peaks.spills), rest) := by
    rcases recorded with rfl | ⟨rfl, empty, rfl⟩
    · exact applyToInputRegisters_eq fit below source rest
    · rw [empty]
      rfl
  unfold applyToDynSignature
  rw [inputs, Attempt.ok_bind]
  dsimp only
  rw [applyToOutputRegisters_eq fit outputBelow]
  rfl

theorem branchPatches_cases (source : InstructionSource)
    (carried : List BackPatchableSlot) :
    branchPatches source carried = [(source, carried)] ∨
      branchPatches source carried = [] ∧ carried = [] := by
  unfold branchPatches
  by_cases empty : carried = []
  · exact .inr ⟨if_pos empty, empty⟩
  · exact .inl (if_neg empty)

/-- The arms of a `br_table`. Either all of them carry operands or none does. -/
theorem applyToBrTargets_eq
    {brTargets : List (RegBrTableTarget BackPatchableSlot)}
    (fit : peaks.Fit locals)
    (below : ∀ target ∈ brTargets, ∀ operand ∈ target.mov.input,
      operand.Below locals peaks)
    (outputBelow : ∀ target ∈ brTargets, target.mov.outputStart ≤ peaks.registers)
    (uniform : ∀ target ∈ brTargets, target.mov.input.length = arity) :
    (applyToBrTargets locals peaks.consts peaks.spills (armPatches brTargets)
        (brTargets.map emittedArm) : Attempt ε (List (RegBrTableTarget Slot))) =
      .ok (brTargets.map fun target =>
        ⟨target.mov.resolve locals peaks.consts peaks.spills, target.targetIndex⟩) := by
  induction brTargets with
  | nil => rfl
  | cons target brTargets inductionHypothesis =>
      have rest := inductionHypothesis
        (fun other member => below other (List.mem_cons_of_mem _ member))
        (fun other member => outputBelow other (List.mem_cons_of_mem _ member))
        (fun other member => uniform other (List.mem_cons_of_mem _ member))
      have recorded : armPatches (target :: brTargets) =
            (.brTableMov, target.mov.input) :: armPatches brTargets ∨
          armPatches (target :: brTargets) = [] ∧ target.mov.input = [] ∧
            armPatches brTargets = [] := by
        have appended : armPatches (target :: brTargets) =
            branchPatches .brTableMov target.mov.input ++ armPatches brTargets := rfl
        rcases branchPatches_cases .brTableMov target.mov.input with some | ⟨none, empty⟩
        · exact .inl (by rw [appended, some]; rfl)
        · have allEmpty : armPatches brTargets = [] := by
            unfold armPatches
            rw [List.flatMap_eq_nil_iff]
            intro other member
            have sameLength := (uniform other (List.mem_cons_of_mem _ member)).trans
              (uniform target List.mem_cons_self).symm
            rw [empty, List.length_nil, List.length_eq_zero_iff] at sameLength
            exact if_pos sameLength
          exact .inr ⟨by rw [appended, none, allEmpty]; rfl, empty, allEmpty⟩
      have head := applyToDynSignature_eq (ε := ε) fit
        (below target List.mem_cons_self) (outputBelow target List.mem_cons_self) recorded
      change applyToDynSignature locals peaks.consts peaks.spills _
        ⟨placeholders target.mov.input.length, target.mov.outputStart⟩ _ >>= _ = _
      rw [head, Attempt.ok_bind]
      dsimp only
      rw [rest]
      rfl

end BackpatchMap

end Operands

/-! ## One instruction -/

/-- The instruction with its callee base as a frame index. -/
def RegInstruction.rebase (spills consts : Nat) :
    RegInstruction operand → RegInstruction operand' → RegInstruction operand'
  | .call _ callerBase, .call funcIndex _ => .call funcIndex (callerBase + spills + consts)
  | .callIndirect _ _ _ _ callerBase, .callIndirect tyIndex tableIndex slot operands _ =>
      .callIndirect tyIndex tableIndex slot operands (callerBase + spills + consts)
  | _, instr => instr

section Instruction

variable {mod : ModuleTypes} {locals : Nat} {peaks : Peaks}

theorem runs_below
    (below : RegInstruction.Below mod locals peaks instr)
    (member : run ∈ instr.outputRuns mod) :
    run.1 ≤ peaks.registers := by
  have := (below.outputRuns run member).2
  omega

/-- Applying what is recorded for an instruction puts its operands in place. -/
theorem Carries.apply_eq
    (carries : Carries patches bases instr sym)
    (fit : peaks.Fit locals)
    (below : RegInstruction.Below mod locals peaks sym) :
    (BackpatchMap.applyPatches locals peaks.consts peaks.spills patches
        (sym.rebase peaks.spills peaks.consts instr) :
        Attempt ε (RegInstruction Slot)) =
      .ok (sym.resolve locals peaks.consts peaks.spills) := by
  have operands := below.operands
  cases carries with
  | localSet index input =>
      change BackpatchMap.applyToInputRegister _ _ _ _ _ _ >>= _ = _
      rw [BackpatchMap.applyToInputRegister_eq fit (operands input List.mem_cons_self)]
      rfl
  | localTee index input =>
      change Attempt.assert _ >>= _ = _
      rw [Attempt.assert_of (List.length_singleton), Attempt.ok_bind,
        BackpatchMap.applyToInputRegister_eq fit (operands input List.mem_cons_self)]
      rfl
  | localSpill index spillIndex => rfl
  | data op input outputStart =>
      change BackpatchMap.applyToInputRegisters _ _ _ _ _ _ >>= _ = _
      have inputs : ∀ operand ∈ input, operand.Below locals peaks := operands
      rw [BackpatchMap.applyToInputRegisters_eq fit inputs, Attempt.ok_bind]
      dsimp only
      rw [BackpatchMap.applyToOutputRegisters_eq fit
        (runs_below below List.mem_cons_self)]
      rfl
  | dataDrop dataIndex => rfl
  | loop => rfl
  | ifOp condition elseIndex endIndex =>
      change BackpatchMap.applyToInputRegister _ _ _ _ _ _ >>= _ = _
      rw [BackpatchMap.applyToInputRegister_eq fit (operands condition List.mem_cons_self)]
      rfl
  | elseOp endIndex => rfl
  | endOp => rfl
  | br targetIndex => rfl
  | brIf condition mov targetIndex =>
      have recorded : branchPatches .brIfMov mov.input = [(.brIfMov, mov.input)] ∨
          branchPatches .brIfMov mov.input = [] ∧ mov.input = [] ∧
            ([] : List Patch) = [] :=
        (BackpatchMap.branchPatches_cases .brIfMov mov.input).imp_right fun none =>
          ⟨none.1, none.2, rfl⟩
      have moved := BackpatchMap.applyToDynSignature_eq (ε := ε) fit
        (fun operand member => operands operand (List.mem_cons_of_mem _ member))
        (runs_below below List.mem_cons_self) recorded
      change BackpatchMap.applyToInputRegister _ _ _ _ _ _ >>= _ = _
      rw [BackpatchMap.applyToInputRegister_eq fit (operands condition List.mem_cons_self),
        Attempt.ok_bind]
      dsimp only
      rw [moved]
      rfl
  | brTable selector brTargets arity uniform =>
      have armOperands : ∀ target ∈ brTargets, ∀ operand ∈ target.mov.input,
          operand.Below locals peaks := fun target isTarget operand member =>
        operands operand (List.mem_cons_of_mem _
          (List.mem_flatMap.mpr ⟨target, isTarget, member⟩))
      have armOutputs : ∀ target ∈ brTargets,
          target.mov.outputStart ≤ peaks.registers := fun target isTarget =>
        runs_below below (List.mem_map.mpr ⟨target, isTarget, rfl⟩)
      change BackpatchMap.applyToInputRegister _ _ _ _ _ _ >>= _ = _
      rw [BackpatchMap.applyToInputRegister_eq fit (operands selector List.mem_cons_self),
        Attempt.ok_bind]
      dsimp only
      rw [BackpatchMap.applyToBrTargets_eq fit armOperands armOutputs uniform]
      rfl
  | returnOp targetIndex => rfl
  | call funcIndex callerBase => rfl
  | callIndirect tyIndex tableIndex slot arguments callerBase =>
      have recorded : [(.callIndirectMov, arguments.input)] =
            (.callIndirectMov, arguments.input) :: ([] : List Patch) ∨
          [(.callIndirectMov, arguments.input)] = ([] : List Patch) ∧
            arguments.input = [] ∧ ([] : List Patch) = [] := .inl rfl
      have moved := BackpatchMap.applyToDynSignature_eq (ε := ε) fit
        (fun operand member => operands operand (List.mem_cons_of_mem _ member))
        (runs_below below List.mem_cons_self) recorded
      change BackpatchMap.applyToInputRegister _ _ _ _ _ _ >>= _ = _
      rw [BackpatchMap.applyToInputRegister_eq fit (operands slot List.mem_cons_self),
        Attempt.ok_bind]
      dsimp only
      rw [moved]
      rfl
  | unreachable => rfl
  | move mov =>
      have recorded : [(.emit, mov.input)] = (.emit, mov.input) :: ([] : List Patch) ∨
          [(.emit, mov.input)] = ([] : List Patch) ∧ mov.input = [] ∧
            ([] : List Patch) = [] := .inl rfl
      have moved := BackpatchMap.applyToDynSignature_eq (ε := ε) fit operands
        (runs_below below List.mem_cons_self) recorded
      change BackpatchMap.applyToDynSignature _ _ _ _ _ _ >>= _ = _
      rw [moved]
      rfl

end Instruction

/-! ## Callee bases -/

namespace RegInstruction

/-- Set the base of a call's callee. -/
def setCallerBase (callerBase : Nat) :
    RegInstruction operand → RegInstruction operand
  | .call funcIndex _ => .call funcIndex callerBase
  | .callIndirect tyIndex tableIndex slot operands _ =>
      .callIndirect tyIndex tableIndex slot operands callerBase
  | instr => instr

/-- The instruction calls a function. -/
def IsCall : RegInstruction operand → Prop
  | .call _ _ => True
  | .callIndirect _ _ _ _ _ => True
  | _ => False

theorem isCall_setCallerBase
    {instr : RegInstruction operand}
    (isCall : instr.IsCall) :
    (instr.setCallerBase callerBase).IsCall := by
  cases instr with
  | call funcIndex callerBase => trivial
  | callIndirect tyIndex tableIndex slot operands callerBase => trivial
  | _ => cases isCall

end RegInstruction

/-- Write a callee base. -/
def rebaseCall
    (spills consts : Nat) (instructions : List (RegInstruction Slot))
    (call : Nat × Nat) : List (RegInstruction Slot) :=
  instructions.modify call.1
    (RegInstruction.setCallerBase (call.2 + spills + consts))

/-- A call that awaits its base gets it. -/
theorem patchCall_eq
    {instructions : List (RegInstruction Slot)}
    (found : instructions[call.1]? = some instr)
    (isCall : instr.IsCall)
    (fits : call.2 + spills + consts ≤ u16Max) :
    Lowering.patchCall spills consts instructions call =
      .ok (rebaseCall spills consts instructions call) := by
  have first : (addU16 call.2 spills : Attempt TraceWasmError Nat) =
      .ok (call.2 + spills) := addU16_of_le (by omega)
  have second : (addU16 (call.2 + spills) consts : Attempt TraceWasmError Nat) =
      .ok (call.2 + spills + consts) := addU16_of_le fits
  obtain ⟨below, same⟩ := List.getElem?_eq_some_iff.mp found
  unfold Lowering.patchCall rebaseCall
  rw [found, Attempt.orPanic_some, Attempt.ok_bind,
    List.modify_eq_set_getElem?, found]
  cases instr with
  | call funcIndex callerBase =>
      dsimp only
      rw [first, Attempt.ok_bind, second]
      rfl
  | callIndirect tyIndex tableIndex slot operands callerBase =>
      dsimp only
      rw [first, Attempt.ok_bind, second]
      rfl
  | _ => cases isCall

/-- So do all of them. -/
theorem foldlM_patchCall_eq
    {calls : List (Nat × Nat)} {instructions : List (RegInstruction Slot)}
    (areCalls : ∀ call ∈ calls, ∃ instr, instructions[call.1]? = some instr ∧
      instr.IsCall)
    (fit : ∀ call ∈ calls, call.2 + spills + consts ≤ u16Max) :
    calls.foldlM (Lowering.patchCall spills consts) instructions =
      .ok (calls.foldl (rebaseCall spills consts) instructions) := by
  induction calls generalizing instructions with
  | nil => rfl
  | cons call calls inductionHypothesis =>
      obtain ⟨instr, found, isCall⟩ := areCalls call List.mem_cons_self
      rw [List.foldlM_cons, patchCall_eq found isCall (fit call List.mem_cons_self),
        Attempt.ok_bind, List.foldl_cons]
      refine inductionHypothesis ?_ fun other member =>
        fit other (List.mem_cons_of_mem _ member)
      intro other member
      obtain ⟨otherInstr, foundOther, otherIsCall⟩ :=
        areCalls other (List.mem_cons_of_mem _ member)
      unfold rebaseCall
      rw [List.getElem?_modify, foundOther]
      by_cases same : call.1 = other.1
      · exact ⟨otherInstr.setCallerBase (call.2 + spills + consts), by simp [same],
          RegInstruction.isCall_setCallerBase otherIsCall⟩
      · exact ⟨_, by simp [same], otherIsCall⟩

/-- Each instruction is rebased by the bases recorded for it. -/
theorem getElem?_foldl_rebaseCall
    (calls : List (Nat × Nat)) (instructions : List (RegInstruction Slot))
    (index : Nat) :
    (calls.foldl (rebaseCall spills consts) instructions)[index]? =
      instructions[index]?.map fun instr =>
        (callBasesAt calls index).foldl
          (fun instr base => instr.setCallerBase (base + spills + consts)) instr := by
  induction calls generalizing instructions with
  | nil => simp [callBasesAt]
  | cons call calls inductionHypothesis =>
      rw [List.foldl_cons, inductionHypothesis]
      unfold rebaseCall
      rw [List.getElem?_modify]
      have split : callBasesAt (call :: calls) index =
          callBasesAt [call] index ++ callBasesAt calls index :=
        callBasesAt_append [call] calls index
      rw [split]
      by_cases same : call.1 = index
      · cases instructions[index]? <;> simp [callBasesAt, same]
      · cases instructions[index]? <;> simp [callBasesAt, same]

theorem length_foldl_rebaseCall
    (calls : List (Nat × Nat)) (instructions : List (RegInstruction Slot)) :
    (calls.foldl (rebaseCall spills consts) instructions).length =
      instructions.length := by
  induction calls generalizing instructions with
  | nil => rfl
  | cons call calls inductionHypothesis =>
      rw [List.foldl_cons, inductionHypothesis]
      exact List.length_modify _ _ _

theorem Carries.foldl_setCallerBase
    (carries : Carries patches bases instr sym) :
    bases.foldl (fun instr base => instr.setCallerBase (base + spills + consts))
        instr =
      sym.rebase spills consts instr := by
  cases carries <;> rfl

theorem Carries.isCall
    (carries : Carries patches bases instr sym)
    (member : base ∈ bases)
    (below : RegInstruction.Below mod locals peaks sym) :
    instr.IsCall ∧ base ≤ peaks.registers := by
  have ofRuns : ∀ ty, (∀ run ∈ RegInstruction.callRuns ty base,
      run.1 + run.2 ≤ peaks.registers) → base ≤ peaks.registers := by
    intro ty runs
    cases ty with
    | none => exact runs (base, 0) List.mem_cons_self
    | some ty =>
        exact (Nat.le_add_right _ _).trans
          (runs (base, ty.params.length) List.mem_cons_self)
  cases carries with
  | call funcIndex callerBase =>
      cases List.mem_singleton.mp member
      exact ⟨trivial, ofRuns _ fun run inside => (below.outputRuns run inside).2⟩
  | callIndirect tyIndex tableIndex slot operands callerBase =>
      cases List.mem_singleton.mp member
      exact ⟨trivial, ofRuns _ fun run inside =>
        (below.outputRuns run (List.mem_cons_of_mem _ inside)).2⟩
  | _ => cases member

/-! ## The whole body -/

section Body

variable {locals : Nat} {peaks : Peaks} {map : BackpatchMap}

/-- Every instruction is resolved by its own patches. -/
theorem BackpatchMap.applyFrom_eq
    {instructions : List (RegInstruction Slot)} {code : List SymInstruction}
    {index : Nat}
    (length : instructions.length = code.length)
    (applied : ∀ offset instr sym, instructions[offset]? = some instr →
      code[offset]? = some sym →
      (BackpatchMap.applyAt locals peaks.consts peaks.spills map (index + offset)
        instr : Attempt ε _) = .ok (sym.resolve locals peaks.consts peaks.spills)) :
    (BackpatchMap.applyFrom locals peaks.consts peaks.spills map index
      instructions : Attempt ε _) =
        .ok (code.map (·.resolve locals peaks.consts peaks.spills)) := by
  induction instructions generalizing code index with
  | nil =>
      cases List.length_eq_zero_iff.mp length.symm
      rfl
  | cons instr instructions inductionHypothesis =>
      obtain ⟨sym, code, rfl⟩ := List.exists_cons_of_length_eq_add_one length.symm
      have head := applied 0 instr sym rfl rfl
      have tail : (BackpatchMap.applyFrom locals peaks.consts peaks.spills map
          (index + 1) instructions : Attempt ε _) =
            .ok (code.map (·.resolve locals peaks.consts peaks.spills)) :=
        inductionHypothesis (Nat.succ.inj length) fun offset other otherSym found
            foundSym => by
          rw [Nat.add_assoc, Nat.add_comm 1 offset]
          exact applied (offset + 1) other otherSym found foundSym
      unfold BackpatchMap.applyFrom
      rw [show index = index + 0 from rfl, head, Attempt.ok_bind,
        show index + 0 + 1 = index + 1 from rfl, tail]
      rfl

end Body

/-- The regions of a frame that operands refer to. -/
def RegFrameLayout.peaks (layout : RegFrameLayout) : Peaks where
  registers := layout.registers
  spills := layout.spills
  consts := layout.consts.length

/-- The body is the symbolic code with every operand in its place, and runs in a
frame that has room for all of them. -/
structure Resolves
    (mod : ModuleTypes) (locals : Nat) (a : Symbolic) (body : LoweredFuncBody) :
    Prop where
  localsCount : body.frame.localsCount = locals
  consts : body.frame.consts = a.consts
  offsets : body.frame.memoryOffsets = a.offsets
  fit : body.frame.peaks.Fit locals
  below : ∀ sym ∈ a.code, sym.Below mod locals body.frame.peaks
  instructions : body.instructions =
    a.code.map (·.resolve locals body.frame.consts.length body.frame.spills)

/-- Resolving the frame layout reports only that the frame is too large. -/
theorem finish_meets
    (models : Models mod locals [] s a) :
    s.finish.Meets TraceWasmError.IsLimit fun result =>
      Resolves mod locals a ⟨result.1, result.2⟩ := by
  have constsLen : s.simulatedStack.constInterner.values.length ≤ u16Max := by
    rw [models.consts]
    exact models.constsLe
  have localsLen : s.simulatedStack.operands.lazyLocals.origin.length = locals :=
    models.sound.origins
  have localsLe : locals ≤ u16Max := by
    have := models.sound.localsLe
    unfold u16Max
    omega
  have localsCount : s.frameLayout.localsCount = locals := by
    change asU16 s.simulatedStack.operands.lazyLocals.origin.length = locals
    rw [localsLen, asU16_of_le localsLe]
  obtain ⟨recorded, mapEq, represents⟩ := models.represents
  rw [List.map_nil, List.append_nil] at mapEq
  unfold Lowering.finish
  dsimp only
  change (if s.peaks.registers + s.peaks.spills + asU16 s.peaks.consts > u16Max
    then _ else _ : Attempt TraceWasmError _).Meets _ _
  rw [asU16_of_le (show s.frameLayout.consts.length ≤ u16Max from constsLen),
    asU16_of_le (show s.peaks.consts ≤ u16Max from constsLen)]
  split
  · trivial
  rename_i width
  have fit : s.peaks.Fit locals := by
    refine ⟨by omega, ?_⟩
    have := models.sound.peak
    have := models.sound.counter
    change locals ≤ s.operands.maxRegisters
    omega
  -- what is recorded for a call belongs to a call
  have areCalls : ∀ call ∈ s.callInstrBackpatches,
      ∃ instr, s.instructions[call.1]? = some instr ∧ instr.IsCall ∧
        call.2 ≤ s.peaks.registers := by
    intro call member
    obtain ⟨sym, foundSym, carries⟩ := represents.sym_of_instr
      (List.getElem?_eq_getElem (represents.callsBelow call member))
    have isBase : call.2 ∈ callBasesAt s.callInstrBackpatches call.1 :=
      List.mem_map.mpr ⟨call, List.mem_filter.mpr ⟨member, by simp⟩, rfl⟩
    obtain ⟨isCall, baseLe⟩ := carries.isCall isBase
      (models.codeBelow sym (List.mem_of_getElem? foundSym))
    exact ⟨_, List.getElem?_eq_getElem (represents.callsBelow call member), isCall,
      baseLe⟩
  have rebased : s.callInstrBackpatches.foldlM
      (Lowering.patchCall s.frameLayout.spills s.frameLayout.consts.length)
      s.instructions =
        .ok (s.callInstrBackpatches.foldl (rebaseCall s.peaks.spills s.peaks.consts)
          s.instructions) :=
    foldlM_patchCall_eq
      (fun call member => by
        obtain ⟨instr, found, isCall, _⟩ := areCalls call member
        exact ⟨instr, found, isCall⟩)
      (fun call member => by
        obtain ⟨_, _, _, baseLe⟩ := areCalls call member
        have := fit.width
        change call.2 + s.peaks.spills + s.peaks.consts ≤ u16Max
        omega)
  have applied : ∀ offset instr sym,
      (s.callInstrBackpatches.foldl (rebaseCall s.peaks.spills s.peaks.consts)
        s.instructions)[offset]? = some instr →
      a.code[offset]? = some sym →
      (BackpatchMap.applyAt locals s.peaks.consts s.peaks.spills recorded (0 + offset)
        instr : Attempt TraceWasmError _) =
          .ok (sym.resolve locals s.peaks.consts s.peaks.spills) := by
    intro offset instr sym found foundSym
    rw [getElem?_foldl_rebaseCall] at found
    obtain ⟨before, foundBefore, rfl⟩ := Option.map_eq_some_iff.mp found
    have carries := represents.carries offset before sym foundBefore foundSym
    rw [carries.foldl_setCallerBase, Nat.zero_add]
    exact carries.apply_eq fit (models.codeBelow sym (List.mem_of_getElem? foundSym))
  have length : (s.callInstrBackpatches.foldl
      (rebaseCall s.peaks.spills s.peaks.consts) s.instructions).length =
        a.code.length := by
    rw [length_foldl_rebaseCall]
    exact represents.length
  have resolved := BackpatchMap.applyFrom_eq length applied
  rw [rebased, Attempt.ok_bind, mapEq, localsCount]
  unfold BackpatchMap.apply
  have inside : ∀ entry ∈ recorded, entry.1 < (s.callInstrBackpatches.foldl
      (rebaseCall s.peaks.spills s.peaks.consts) s.instructions).length := by
    rw [length, ← represents.length]
    exact represents.mapBelow
  rw [Attempt.assert_of inside, Attempt.ok_bind]
  change (BackpatchMap.applyFrom locals s.peaks.consts s.peaks.spills recorded 0 _ >>=
    _ : Attempt TraceWasmError _).Meets _ _
  rw [resolved, Attempt.ok_bind]
  exact ⟨localsCount, models.consts, models.offsets, fit, models.codeBelow, rfl⟩

/-- What a lowered body is made of. -/
theorem resolves_of_emitted
    (validates : Validates mod func ops)
    (emitted : emitInstructionsForFunc mod func ops = .ok body) :
    ∃ state, Trace mod func ops state ops.length ∧
      Resolves mod func.localsCount (state ops.length) body := by
  unfold emitInstructionsForFunc at emitted
  obtain ⟨s, lowered, emitted⟩ := Attempt.bind_eq_ok.mp emitted
  obtain ⟨⟨instructions, frame⟩, finished, emitted⟩ := Attempt.bind_eq_ok.mp emitted
  cases emitted
  obtain ⟨state, v, reached⟩ := trace_of_lowered validates lowered
  exact ⟨state, reached.trace,
    (finish_meets reached.agreement.models).of_ok finished⟩

end Register
end TraceWasm
