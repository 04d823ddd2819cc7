import TraceWasm.Register.Represents
import TraceWasm.Register.Targets

/-!
# What an instruction reads and writes

The operands of an instruction, the register runs it writes and the locals and
spill slots it names, and the bounds on them that the lowering keeps while it
walks the body.
-/

namespace TraceWasm
namespace Register

namespace RegInstruction

/-- The operands an instruction reads. -/
def operands : RegInstruction operand → List operand
  | .localSet _ input => [input]
  | .localTee _ input => [input]
  | .data _ input _ => input
  | .ifOp condition _ _ => [condition]
  | .brIf condition mov _ => condition :: mov.input
  | .brTable selector brTargets =>
      selector :: brTargets.flatMap fun target => target.mov.input
  | .callIndirect _ _ slot arguments _ => slot :: arguments.input
  | .move mov => mov.input
  | .localSpill _ _ => []
  | .dataDrop _ => []
  | .loop => []
  | .elseOp _ => []
  | .endOp => []
  | .br _ => []
  | .returnOp _ => []
  | .call _ _ => []
  | .unreachable => []

/-- The runs at a callee's base: its parameters and its results. -/
def callRuns (ty : Option FuncType) (callerBase : Nat) : List (Nat × Nat) :=
  match ty with
  | none => [(callerBase, 0)]
  | some ty => [(callerBase, ty.params.length), (callerBase, ty.results.length)]

/-- The registers that a move writes. -/
def moveRun (mov : DynSignature operand) : Nat × Nat :=
  (mov.outputStart, mov.input.length)

/-- The runs of registers an instruction writes, or hands to its callee and gets
back: a first register and a length. -/
def outputRuns (mod : ModuleTypes) : RegInstruction operand → List (Nat × Nat)
  | .data op _ outputStart => [(outputStart, op.outputs)]
  | .brIf _ mov _ => [moveRun mov]
  | .brTable _ brTargets => brTargets.map fun target => moveRun target.mov
  | .call funcIndex callerBase => callRuns (mod.funcType funcIndex) callerBase
  | .callIndirect tyIndex _ _ arguments callerBase =>
      moveRun arguments :: callRuns mod.types[tyIndex]? callerBase
  | .move mov => [moveRun mov]
  | _ => []

/-- The locals an instruction names directly. -/
def localIndices : RegInstruction operand → List Nat
  | .localSet index _ => [index]
  | .localTee index _ => [index]
  | .localSpill index _ => [index]
  | _ => []

/-- The spill slots an instruction writes. -/
def spillIndices : RegInstruction operand → List Nat
  | .localSpill _ spillIndex => [spillIndex]
  | _ => []

end RegInstruction

/-- How many registers, spill slots and constants the body needs so far. -/
structure Peaks where
  registers : Nat
  spills : Nat
  consts : Nat

/-- The peaks do not shrink. -/
structure Peaks.Le (first second : Peaks) : Prop where
  registers : first.registers ≤ second.registers
  spills : first.spills ≤ second.spills
  consts : first.consts ≤ second.consts

/-- The operand is one of those that the peaks count. -/
def BackPatchableSlot.Below (locals : Nat) (peaks : Peaks) :
    BackPatchableSlot → Prop
  | .slot index => index < locals
  | .const constId => constId < peaks.consts
  | .spill spillIndex => spillIndex < peaks.spills
  | .register index => locals ≤ index ∧ index < peaks.registers

/-- An operand stays below peaks that grow. -/
theorem BackPatchableSlot.Below.mono
    {operand : BackPatchableSlot}
    (below : operand.Below locals low)
    (grows : Peaks.Le low high) :
    operand.Below locals high := by
  cases operand with
  | slot index => exact below
  | const constId => exact lt_of_lt_of_le below grows.consts
  | spill spillIndex => exact lt_of_lt_of_le below grows.spills
  | register index => exact ⟨below.1, lt_of_lt_of_le below.2 grows.registers⟩

/-- Everything the instruction names is counted by the peaks. -/
structure RegInstruction.Below
    (mod : ModuleTypes) (locals : Nat) (peaks : Peaks)
    (instr : SymInstruction) : Prop where
  operands : ∀ operand ∈ instr.operands, operand.Below locals peaks
  outputRuns : ∀ run ∈ instr.outputRuns mod,
    locals ≤ run.1 ∧ run.1 + run.2 ≤ peaks.registers
  localIndices : ∀ index ∈ instr.localIndices, index < locals
  spillIndices : ∀ index ∈ instr.spillIndices, index < peaks.spills

/-- So does an instruction. -/
theorem RegInstruction.Below.mono
    (below : RegInstruction.Below mod locals low instr)
    (grows : Peaks.Le low high) :
    RegInstruction.Below mod locals high instr where
  operands := fun operand member => (below.operands operand member).mono grows
  outputRuns := fun run member =>
    ⟨(below.outputRuns run member).1,
      (below.outputRuns run member).2.trans grows.registers⟩
  localIndices := below.localIndices
  spillIndices := fun index member =>
    lt_of_lt_of_le (below.spillIndices index member) grows.spills

/-- The operands of a symbolic instruction are among those recorded for it. -/
theorem Carries.mem_patches
    (carries : Carries patches bases instr sym)
    (member : operand ∈ sym.operands) :
    ∃ patch ∈ patches, operand ∈ patch.2 := by
  have ofBranch : ∀ source carried, operand ∈ carried →
      ∃ patch ∈ branchPatches source carried, operand ∈ patch.2 := by
    intro source carried inside
    refine ⟨(source, carried), ?_, inside⟩
    unfold branchPatches
    rw [if_neg (List.ne_nil_of_mem inside)]
    exact List.mem_singleton_self _
  cases carries with
  | brIf condition mov targetIndex =>
      rcases List.mem_cons.mp member with rfl | member
      · exact ⟨_, List.mem_cons_self, by simp⟩
      · obtain ⟨patch, recorded, inside⟩ := ofBranch .brIfMov mov.input member
        exact ⟨patch, List.mem_cons_of_mem _ recorded, inside⟩
  | brTable selector brTargets arity uniform =>
      rcases List.mem_cons.mp member with rfl | member
      · exact ⟨_, List.mem_cons_self, by simp⟩
      · obtain ⟨target, isTarget, inside⟩ := List.mem_flatMap.mp member
        obtain ⟨patch, recorded, inside⟩ :=
          ofBranch .brTableMov target.mov.input inside
        exact ⟨patch, List.mem_cons_of_mem _
          (List.mem_flatMap.mpr ⟨target, isTarget, recorded⟩), inside⟩
  | callIndirect tyIndex tableIndex slot operands callerBase =>
      rcases List.mem_cons.mp member with rfl | member
      · exact ⟨_, List.mem_cons_self, by simp⟩
      · exact ⟨_, List.mem_cons_of_mem _ List.mem_cons_self, member⟩
  | localSet index input => exact ⟨_, List.mem_cons_self, member⟩
  | localTee index input => exact ⟨_, List.mem_cons_self, member⟩
  | data op input outputStart => exact ⟨_, List.mem_cons_self, member⟩
  | ifOp condition elseIndex endIndex => exact ⟨_, List.mem_cons_self, member⟩
  | move mov => exact ⟨_, List.mem_cons_self, member⟩
  | _ => simp [RegInstruction.operands] at member

/-! ## Targets do not matter -/

namespace RegInstruction

theorem operands_untargeted (instr : RegInstruction operand) :
    instr.untargeted.operands = instr.operands := by
  cases instr with
  | brTable selector brTargets =>
      simp only [untargeted, operands, List.flatMap_map]
      rfl
  | _ => rfl

theorem outputRuns_untargeted
    (mod : ModuleTypes) (instr : RegInstruction operand) :
    instr.untargeted.outputRuns mod = instr.outputRuns mod := by
  cases instr with
  | brTable selector brTargets =>
      simp only [untargeted, outputRuns, List.map_map]
      rfl
  | _ => rfl

theorem localIndices_untargeted (instr : RegInstruction operand) :
    instr.untargeted.localIndices = instr.localIndices := by
  cases instr <;> rfl

theorem spillIndices_untargeted (instr : RegInstruction operand) :
    instr.untargeted.spillIndices = instr.spillIndices := by
  cases instr <;> rfl

/-- Whether an instruction is below the peaks does not depend on its targets. -/
theorem below_untargeted {instr : SymInstruction} :
    instr.untargeted.Below mod locals peaks ↔ instr.Below mod locals peaks := by
  constructor
  · rintro ⟨operands, outputRuns, localIndices, spillIndices⟩
    rw [operands_untargeted] at operands
    rw [outputRuns_untargeted] at outputRuns
    rw [localIndices_untargeted] at localIndices
    rw [spillIndices_untargeted] at spillIndices
    exact ⟨operands, outputRuns, localIndices, spillIndices⟩
  · rintro ⟨operands, outputRuns, localIndices, spillIndices⟩
    rw [← operands_untargeted] at operands
    rw [← outputRuns_untargeted] at outputRuns
    rw [← localIndices_untargeted] at localIndices
    rw [← spillIndices_untargeted] at spillIndices
    exact ⟨operands, outputRuns, localIndices, spillIndices⟩

end RegInstruction

/-- The bounds of the code are bounds of its shape. -/
theorem below_shape {code : List SymInstruction} :
    (∀ instr ∈ shape code, instr.Below mod locals peaks) ↔
      ∀ instr ∈ code, instr.Below mod locals peaks := by
  unfold shape
  rw [List.forall_mem_map]
  exact forall₂_congr fun _ _ => RegInstruction.below_untargeted

end Register
end TraceWasm
