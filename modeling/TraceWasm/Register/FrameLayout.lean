import TraceWasm.Register.Bookkeeping
import TraceWasm.Register.Resolution

/-!
# The resolved frame layout is sound

Locals, constants, spill slots and operand registers lie one after another in
the frame. Resolution is injective on the operands that the peaks count, and
whatever an instruction of the body names is inside the frame.
-/

namespace TraceWasm
namespace Register

/-! ## Regions -/

/-- The regions of a frame, from its base up. -/
inductive FrameRegion where
  | locals
  | consts
  | spills
  | registers
  deriving DecidableEq

/-- The region an operand is read from. -/
def BackPatchableSlot.region : BackPatchableSlot → FrameRegion
  | .slot _ => .locals
  | .const _ => .consts
  | .spill _ => .spills
  | .register _ => .registers

namespace RegFrameLayout

/-- The first index of a region. -/
def start (layout : RegFrameLayout) : FrameRegion → Nat
  | .locals => 0
  | .consts => layout.localsCount
  | .spills => layout.localsCount + layout.consts.length
  | .registers => layout.operandBase

/-- The index past the last of a region. -/
def stop (layout : RegFrameLayout) : FrameRegion → Nat
  | .locals => layout.localsCount
  | .consts => layout.localsCount + layout.consts.length
  | .spills => layout.operandBase
  | .registers => layout.width

/-- An operand as an index of the frame. -/
def slotOf (layout : RegFrameLayout) (operand : BackPatchableSlot) : Nat :=
  operand.resolve layout.localsCount layout.consts.length layout.spills

section

variable {layout : RegFrameLayout}

theorem slotOf_const (constId : Nat) :
    layout.slotOf (.const constId) = layout.constSlot constId :=
  Nat.add_comm _ _

theorem slotOf_spill (spillIndex : Nat) :
    layout.slotOf (.spill spillIndex) = layout.spillSlot spillIndex := rfl

/-- Every operand lies in its region. -/
theorem start_le_slotOf
    (below : operand.Below layout.localsCount layout.peaks) :
    layout.start operand.region ≤ layout.slotOf operand := by
  cases operand with
  | slot index => exact Nat.zero_le _
  | const constId => exact Nat.le_add_left _ _
  | spill spillIndex =>
      change layout.localsCount + layout.consts.length ≤
        spillIndex + layout.localsCount + layout.consts.length
      omega
  | register index =>
      have low : layout.localsCount ≤ index := below.1
      change layout.localsCount + layout.consts.length + layout.spills ≤
        index + layout.consts.length + layout.spills
      omega

/-- An operand below the peaks is in its region. -/
theorem slotOf_lt_stop
    (below : operand.Below layout.localsCount layout.peaks) :
    layout.slotOf operand < layout.stop operand.region := by
  cases operand with
  | slot index => exact below
  | const constId =>
      have bound : constId < layout.consts.length := below
      change constId + layout.localsCount < layout.localsCount + layout.consts.length
      omega
  | spill spillIndex =>
      have bound : spillIndex < layout.spills := below
      change spillIndex + layout.localsCount + layout.consts.length <
        layout.localsCount + layout.consts.length + layout.spills
      omega
  | register index =>
      have high : index < layout.registers := below.2
      change index + layout.consts.length + layout.spills <
        layout.registers + layout.spills + layout.consts.length
      omega

/-- Two regions do not overlap. -/
theorem region_disjoint
    (fit : layout.peaks.Fit layout.localsCount)
    (different : first ≠ second) :
    layout.stop first ≤ layout.start second ∨
      layout.stop second ≤ layout.start first := by
  have localsLe : layout.localsCount ≤ layout.registers := fit.locals
  cases first <;> cases second <;>
    simp only [start, stop, operandBase, width, ne_eq, reduceCtorEq,
      not_true_eq_false] at * <;> omega

/-- Every region is in the frame. -/
theorem stop_le_width
    (fit : layout.peaks.Fit layout.localsCount) (region : FrameRegion) :
    layout.stop region ≤ layout.width := by
  have localsLe : layout.localsCount ≤ layout.registers := fit.locals
  cases region <;> simp only [stop, operandBase, width] <;> omega

/-- Different operands get different indices. -/
theorem slotOf_injective
    {first second : BackPatchableSlot}
    (fit : layout.peaks.Fit layout.localsCount)
    (firstBelow : first.Below layout.localsCount layout.peaks)
    (secondBelow : second.Below layout.localsCount layout.peaks)
    (same : layout.slotOf first = layout.slotOf second) :
    first = second := by
  have firstLow := start_le_slotOf firstBelow
  have firstHigh := slotOf_lt_stop firstBelow
  have secondLow := start_le_slotOf secondBelow
  have secondHigh := slotOf_lt_stop secondBelow
  have sameRegion : first.region = second.region := by
    by_contra different
    have := region_disjoint fit different
    omega
  unfold slotOf at same
  cases first <;> cases second <;> simp_all [BackPatchableSlot.region,
    BackPatchableSlot.resolve]

end

end RegFrameLayout

/-! ## Soundness of a lowered body -/

/-- What an instruction of the body names is inside the frame. -/
structure RegInstruction.Inside
    (mod : ModuleTypes) (frame : RegFrameLayout) (instr : RegInstruction Slot) :
    Prop where
  operands : ∀ slot ∈ instr.operands, slot < frame.width
  /-- No operand is still a placeholder. -/
  resolved : ∀ slot ∈ instr.operands, slot ≠ placeholder
  /-- Destinations and the windows of callees are operand registers. -/
  outputRuns : ∀ run ∈ instr.outputRuns mod,
    frame.operandBase ≤ run.1 ∧ run.1 + run.2 ≤ frame.width
  localIndices : ∀ index ∈ instr.localIndices, index < frame.localsCount
  spillIndices : ∀ spillIndex ∈ instr.spillIndices,
    frame.spillSlot spillIndex < frame.width

/-- The frame layout of a lowered body is sound for the symbolic code. -/
structure FrameLayoutSound
    (mod : ModuleTypes) (localsCount : Nat) (code : List SymInstruction)
    (body : LoweredFuncBody) : Prop where
  width : body.frame.width ≤ u16Max
  /-- The number of locals is the function's own, so its conversion did not
  wrap. -/
  localsCount : body.frame.localsCount = localsCount
  /-- Each index is the sum over the unbounded integers that the regions ask
  for, so no addition wrapped. -/
  instructions : body.instructions = code.map
    (·.resolve body.frame.localsCount body.frame.consts.length body.frame.spills)
  inside : ∀ instr ∈ body.instructions, instr.Inside mod body.frame
  /-- The operands of the code are ones that the regions have room for. -/
  operands : ∀ sym ∈ code, ∀ operand ∈ sym.operands,
    operand.Below body.frame.localsCount body.frame.peaks
  stop : ∀ region, body.frame.stop region ≤ body.frame.width
  disjoint : ∀ first second, first ≠ second →
    body.frame.stop first ≤ body.frame.start second ∨
      body.frame.stop second ≤ body.frame.start first
  injective : ∀ first second : BackPatchableSlot,
    first.Below body.frame.localsCount body.frame.peaks →
    second.Below body.frame.localsCount body.frame.peaks →
    body.frame.slotOf first = body.frame.slotOf second → first = second
  region : ∀ operand : BackPatchableSlot,
    operand.Below body.frame.localsCount body.frame.peaks →
    body.frame.start operand.region ≤ body.frame.slotOf operand ∧
      body.frame.slotOf operand < body.frame.stop operand.region
  /-- A constant is read where frame entry puts it. -/
  const : ∀ constId, body.frame.slotOf (.const constId) = body.frame.constSlot constId
  /-- A spilled operand is read where its `LocalSpill` writes. -/
  spill : ∀ spillIndex,
    body.frame.slotOf (.spill spillIndex) = body.frame.spillSlot spillIndex

namespace RegInstruction

variable {locals consts spills : Nat}

/-- Resolving an instruction resolves its operands. -/
theorem operands_resolve (sym : SymInstruction) :
    (sym.resolve locals consts spills).operands =
      sym.operands.map (·.resolve locals consts spills) := by
  cases sym with
  | brTable selector brTargets =>
      simp only [resolve, operands, List.map_cons, List.flatMap_map,
        List.map_flatMap, DynSignature.resolve]
  | _ => rfl

/-- Its outputs move up, behind the constants and the spills. -/
theorem outputRuns_resolve (mod : ModuleTypes) (sym : SymInstruction) :
    (sym.resolve locals consts spills).outputRuns mod =
      (sym.outputRuns mod).map fun run => (run.1 + consts + spills, run.2) := by
  have ofMove : ∀ mov : DynSignature BackPatchableSlot,
      moveRun (mov.resolve locals consts spills) =
        ((moveRun mov).1 + consts + spills, (moveRun mov).2) := by
    intro mov
    simp [moveRun, DynSignature.resolve]
  have ofCall : ∀ (ty : Option FuncType) (callerBase : Nat),
      callRuns ty (callerBase + spills + consts) =
        (callRuns ty callerBase).map fun run => (run.1 + consts + spills, run.2) := by
    intro ty callerBase
    cases ty <;> simp [callRuns, Nat.add_right_comm]
  cases sym with
  | brIf condition mov targetIndex => simp [resolve, outputRuns, ofMove]
  | brTable selector brTargets => simp [resolve, outputRuns, ofMove, Function.comp_def]
  | call funcIndex callerBase => exact ofCall _ callerBase
  | callIndirect tyIndex tableIndex slot arguments callerBase =>
      simp [resolve, outputRuns, ofMove, ofCall]
  | move mov => simp [resolve, outputRuns, ofMove]
  | _ => rfl

theorem localIndices_resolve (sym : SymInstruction) :
    (sym.resolve locals consts spills).localIndices = sym.localIndices := by
  cases sym <;> rfl

theorem spillIndices_resolve (sym : SymInstruction) :
    (sym.resolve locals consts spills).spillIndices = sym.spillIndices := by
  cases sym <;> rfl

end RegInstruction

/-- What the peaks count resolves to indices inside the frame. -/
theorem RegInstruction.inside_resolve
    {frame : RegFrameLayout}
    (fit : frame.peaks.Fit frame.localsCount)
    (below : RegInstruction.Below mod frame.localsCount frame.peaks sym) :
    (sym.resolve frame.localsCount frame.consts.length frame.spills).Inside mod
      frame := by
  have widthLe : frame.width ≤ u16Max := fit.width
  have operandsBelow : ∀ slot ∈
      (sym.resolve frame.localsCount frame.consts.length frame.spills).operands,
        slot < frame.width := by
    rw [operands_resolve]
    intro slot member
    obtain ⟨operand, isOperand, rfl⟩ := List.mem_map.mp member
    exact (RegFrameLayout.slotOf_lt_stop (below.operands operand isOperand)).trans_le
      (RegFrameLayout.stop_le_width fit _)
  refine ⟨operandsBelow, ?_, ?_, ?_, ?_⟩
  · intro slot member
    exact ne_of_lt ((operandsBelow slot member).trans_le widthLe)
  · rw [outputRuns_resolve]
    intro run member
    obtain ⟨symRun, isRun, rfl⟩ := List.mem_map.mp member
    obtain ⟨low, high⟩ := below.outputRuns symRun isRun
    change symRun.1 + symRun.2 ≤ frame.registers at high
    change frame.localsCount + frame.consts.length + frame.spills ≤
        symRun.1 + frame.consts.length + frame.spills ∧
      symRun.1 + frame.consts.length + frame.spills + symRun.2 ≤
        frame.registers + frame.spills + frame.consts.length
    omega
  · rw [localIndices_resolve]
    exact below.localIndices
  · rw [spillIndices_resolve]
    intro spillIndex member
    have isBelow : (BackPatchableSlot.spill spillIndex).Below frame.localsCount
        frame.peaks := below.spillIndices spillIndex member
    exact (RegFrameLayout.slotOf_lt_stop isBelow).trans_le
      (RegFrameLayout.stop_le_width fit _)

/-- A body that is resolved has a sound frame. -/
theorem Resolves.frameLayoutSound
    (resolves : Resolves mod locals a body) :
    FrameLayoutSound mod locals a.code body := by
  have fit := resolves.fit
  have below := resolves.below
  rw [← resolves.localsCount] at fit below
  have instructions := resolves.instructions
  rw [← resolves.localsCount] at instructions
  exact {
    width := fit.width
    localsCount := resolves.localsCount
    instructions := instructions
    inside := by
      rw [instructions]
      intro instr member
      obtain ⟨sym, inCode, rfl⟩ := List.mem_map.mp member
      exact RegInstruction.inside_resolve fit (below sym inCode)
    operands := fun sym inCode => (below sym inCode).operands
    stop := RegFrameLayout.stop_le_width fit
    disjoint := fun _ _ => RegFrameLayout.region_disjoint fit
    injective := fun _ _ => RegFrameLayout.slotOf_injective fit
    region := fun _ isBelow => ⟨RegFrameLayout.start_le_slotOf isBelow,
      RegFrameLayout.slotOf_lt_stop isBelow⟩
    const := RegFrameLayout.slotOf_const
    spill := RegFrameLayout.slotOf_spill }

/-- The frame layout of every lowered body is sound. -/
theorem frame_layout_sound
    {mod : ModuleTypes} {func : FuncHeader} {ops : List Operator}
    {body : LoweredFuncBody}
    (validates : Validates mod func ops)
    (emitted : emitInstructionsForFunc mod func ops = .ok body) :
    ∃ state, Trace mod func ops state ops.length ∧
      FrameLayoutSound mod func.localsCount (state ops.length).code body := by
  obtain ⟨state, trace, resolves⟩ := resolves_of_emitted validates emitted
  exact ⟨state, trace, resolves.frameLayoutSound⟩

/-- The frame of a body that overwrites a borrowed local. -/
theorem frame_layout_of_overwritingBody :
    ∃ body, emitInstructionsForFunc ⟨[], []⟩ unaryHeader overwritingBody = .ok body ∧
      ∃ state, Trace ⟨[], []⟩ unaryHeader overwritingBody state overwritingBody.length ∧
        FrameLayoutSound ⟨[], []⟩ unaryHeader.localsCount
          (state overwritingBody.length).code body :=
  ⟨_, rfl, frame_layout_sound
    (show Validates ⟨[], []⟩ unaryHeader overwritingBody from ⟨_, rfl, rfl⟩) rfl⟩

end Register
end TraceWasm
