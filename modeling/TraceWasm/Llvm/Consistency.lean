import TraceWasm.Llvm.Definitions

/-!
# What holds of every graph under construction

The invariants are kept by every call, accepted or refused, and so hold of whatever a
run of calls reaches.
-/

namespace TraceWasm
namespace Llvm

/-- The invariants of a graph under construction. -/
structure Context.Invariant (ctx : Context) : Prop where
  linked : ctx.Linked
  ends : ∀ block ∈ ctx.blocks, block.Sealed
  named : ctx.Named
  mapped : ctx.Mapped

/-- An empty context is consistent. -/
theorem Context.invariant_new : Context.new.Invariant where
  linked := Context.linked_new
  ends := fun _ member => (List.not_mem_nil member).elim
  named := named_new
  mapped := by
    intro f name place
    simp [Context.definition, Context.DefinedAt, Context.instructionAt, Context.new]

/-! ## Inference follows the defining instruction -/

section Inference

variable {ctx : Context}

/-- A register's pointee is what its own defining instruction records. -/
theorem Context.inferred_of_definedAt
    {id : BasicBlockId} {header : Header} {place : RegisterDef}
    (invariant : ctx.Invariant)
    (defined : ctx.DefinedAt f name place instr)
    (found : ctx.header id = some header) (owner : header.funcId = f) :
    (Value.fromRegister name .ptr).tryInferringPointeeTy id ctx =
      (.ok instr.pointeeTy : Attempt ε _) := by
  obtain ⟨block, there, rfl⟩ := Option.map_eq_some_iff.mp found
  have owner : block.funcId = f := owner
  have mapped := (invariant.mapped f name place).mpr ⟨instr, defined⟩
  obtain ⟨defs, known, entry⟩ := Option.bind_eq_some_iff.mp mapped
  obtain ⟨defining, home, inside⟩ := Option.bind_eq_some_iff.mp defined.1
  obtain ⟨_, at_, same⟩ := Option.map_eq_some_iff.mp inside
  cases same
  simp [Value.tryInferringPointeeTy, Value.fromRegister, Context.getBlock,
    Context.registerDefs, there, owner, known, entry, home, at_]

/-- A pointee that is inferred for a register was recorded by an instruction of the
function that defines it. -/
theorem Context.definedAt_of_inferred
    {id : BasicBlockId} {header : Header} {pointee : PointeeTy}
    (invariant : ctx.Invariant)
    (found : ctx.header id = some header)
    (inferred : (Value.fromRegister name .ptr).tryInferringPointeeTy id ctx =
      (.ok (some pointee) : Attempt ε _)) :
    ∃ place instr, ctx.DefinedAt header.funcId name place instr ∧
      instr.pointeeTy = some pointee := by
  obtain ⟨block, there, rfl⟩ := Option.map_eq_some_iff.mp found
  unfold Value.tryInferringPointeeTy at inferred
  rw [if_neg (fun unlike => unlike rfl)] at inferred
  obtain ⟨own, looked, inferred⟩ := Attempt.bind_eq_ok.mp inferred
  have same : some own = some block := (Attempt.orPanic_eq_ok.mp looked).symm.trans there
  cases same
  obtain ⟨defs, known, inferred⟩ := Attempt.bind_eq_ok.mp inferred
  have known := Attempt.orPanic_eq_ok.mp known
  cases entry : defs name with
  | none =>
      rw [entry] at inferred
      cases inferred
  | some place =>
      rw [entry] at inferred
      obtain ⟨defining, home, inferred⟩ := Attempt.bind_eq_ok.mp inferred
      obtain ⟨ptrInstr, at_, recorded⟩ := Attempt.bind_eq_ok.mp inferred
      have recorded : ptrInstr.pointeeTy = some pointee := by
        injection recorded
      have mapped : ctx.definition block.funcId name = some place :=
        Option.bind_eq_some_iff.mpr ⟨defs, known, entry⟩
      obtain ⟨instr, defined⟩ := (invariant.mapped _ _ _).mp mapped
      refine ⟨place, instr, defined, ?_⟩
      have there := defined.1
      unfold Context.instructionAt at there
      rw [Attempt.orPanic_eq_ok.mp home, Option.bind_some, Attempt.orPanic_eq_ok.mp at_] at there
      obtain ⟨-, rfl⟩ := Prod.mk.inj (Option.some.inj there)
      exact recorded

end Inference

/-! ## Runs -/

section Runs

variable {ctx after : Context}

/-- What every call keeps is kept by a run. -/
theorem Runs.invariant
    {allowed : Context → Call → Prop} {invariant : Context → Prop}
    (runs : Runs allowed ctx after) (start : invariant ctx)
    (kept : ∀ before call next, invariant before → allowed before call →
      Effect before call next → invariant next) :
    invariant after := by
  induction runs with
  | refl => exact start
  | tail _ step inductionHypothesis =>
      obtain ⟨call, outcome, allowed, performed, _⟩ := step
      exact kept _ call _ inductionHypothesis allowed (effect_of_perform performed)

/-- Whatever a call does keeps the context consistent. -/
theorem Context.Invariant.effect
    {call : Call}
    (invariant : ctx.Invariant) (effect : Effect ctx call after) :
    after.Invariant where
  linked := invariant.linked.reshape effect.reshape
  ends := Context.sealed_of_effect invariant.ends effect
  named := invariant.named.additions (effect.additions invariant.linked)
  mapped := Context.Mapped.definitions invariant.linked invariant.mapped
    (effect.definitions invariant.linked invariant.named invariant.mapped)

/-- Every run of calls keeps the context consistent. -/
theorem Context.invariant_of_runs
    {allowed : Context → Call → Prop}
    (runs : Runs allowed ctx after) (invariant : ctx.Invariant) :
    after.Invariant :=
  runs.invariant invariant fun _ _ _ invariant _ effect => invariant.effect effect

/-- An instruction that is in place stays there. -/
theorem Context.instructionAt_of_runs
    {allowed : Context → Call → Prop}
    {place : RegisterDef}
    (runs : Runs allowed ctx after) (invariant : ctx.Invariant)
    (there : ctx.instructionAt place = some found) :
    after.instructionAt place = some found := by
  have kept : after.Invariant ∧ after.instructionAt place = some found := by
    apply runs.invariant ⟨invariant, there⟩
    rintro before call next ⟨invariant, there⟩ _ effect
    have definitions := effect.definitions invariant.linked invariant.named invariant.mapped
    exact ⟨invariant.effect effect, Context.instructionAt_mono definitions there⟩
  exact kept.2

/-! ## Consistency -/

/-- Blocks end as LLVM wants them to, and the definition map and the inference through
it lead to a register's own instruction, now and after any further calls. -/
structure Context.Consistent (ctx : Context) : Prop where
  /-- So there is at most one terminator. -/
  terminator_last : ∀ (id : BasicBlockId) block, ctx.blocks[id]? = some block →
    ∀ (i : Nat) instr, block.instructions[i]? = some instr →
      instr.kind.isTerminator = true → i + 1 = block.instructions.length
  locked_iff : ∀ block ∈ ctx.blocks,
    (block.isLocked = true ↔ ∃ instr ∈ block.instructions, instr.kind.isTerminator = true)
  entry_phis : ∀ (f : FuncId) func id block, ctx.funcs[f]? = some func →
    func.blocks.head? = some id → ctx.blocks[id]? = some block → block.phis = []
  definition_iff : ∀ f name place,
    ctx.definition f name = some place ↔ ∃ instr, ctx.DefinedAt f name place instr
  /-- No other instruction, no phi and no parameter defines the register. -/
  defined_once : ∀ f, (ctx.registers f).Nodup
  defined_at_once : ∀ f name place instr other otherInstr,
    ctx.DefinedAt f name place instr → ctx.DefinedAt f name other otherInstr →
      place = other ∧ instr = otherInstr
  inferred : ∀ later, Runs (fun _ _ => True) ctx later →
    ∀ f name place instr, ctx.DefinedAt f name place instr →
      ∀ id header, later.header id = some header → header.funcId = f →
        (Value.fromRegister name .ptr).tryInferringPointeeTy id later =
          (.ok instr.pointeeTy : Attempt InstructionError _)
  inferred_only : ∀ id header, ctx.header id = some header → ∀ name pointee,
    (Value.fromRegister name .ptr).tryInferringPointeeTy id ctx =
        (.ok (some pointee) : Attempt InstructionError _) →
      ∃ place instr, ctx.DefinedAt header.funcId name place instr ∧
        instr.pointeeTy = some pointee

/-- Every graph that calls can reach is consistent. -/
theorem consistent_of_reachable
    (reachable : Reachable ctx) :
    ctx.Consistent := by
  have invariant := Context.invariant_of_runs reachable Context.invariant_new
  constructor
  case terminator_last =>
    intro id block found i instr there terminator
    exact (invariant.ends block (List.mem_of_getElem? found)).terminator_last there terminator
  case locked_iff =>
    exact fun block member => (invariant.ends block member).locked
  case entry_phis =>
    intro f func id block found first there
    obtain ⟨header, headed, owner⟩ := invariant.linked.owned found (List.mem_of_mem_head? first)
    obtain ⟨other, otherFound, -, isFirst⟩ := invariant.linked.listed headed
    rw [owner, found] at otherFound
    cases otherFound
    have same : some block.header = some header := by
      rw [← headed]
      unfold Context.header
      rw [there]
      rfl
    cases same
    by_contra some
    have later := (invariant.ends block (List.mem_of_getElem? there)).phis some
    have entry : block.isFirst = true := isFirst.mpr first
    rw [later] at entry
    cases entry
  case definition_iff => exact invariant.mapped
  case defined_once => exact invariant.named.distinct
  case defined_at_once =>
    intro f name place instr other otherInstr defined otherDefined
    have mapped := (invariant.mapped f name place).mpr ⟨instr, defined⟩
    have otherMapped := (invariant.mapped f name other).mpr ⟨otherInstr, otherDefined⟩
    rw [mapped] at otherMapped
    cases otherMapped
    have same := defined.1.symm.trans otherDefined.1
    exact ⟨rfl, (Prod.mk.inj (Option.some.inj same)).2⟩
  case inferred =>
    intro later runs f name place instr defined id header found owner
    have kept := Context.instructionAt_of_runs runs invariant defined.1
    exact Context.inferred_of_definedAt (Context.invariant_of_runs runs invariant)
      ⟨kept, defined.2⟩ found owner
  case inferred_only =>
    exact fun id header found name pointee inferred =>
      Context.definedAt_of_inferred invariant found inferred

end Runs

/-- A function with one variable. -/
theorem consistent_of_reachable_alloca :
    ∃ ctx, performAll
      [.defineFunction "f" [] .void, .addBasicBlock 0 "entry",
        .build 0 (.alloca .i32 none none (.named "x")), .build 0 .unreachable]
      Context.new = some ctx ∧ ctx.Consistent := by
  have returns : (performAll
      [.defineFunction "f" [] .void, .addBasicBlock 0 "entry",
        .build 0 (.alloca .i32 none none (.named "x")), .build 0 .unreachable]
      Context.new).isSome = true := rfl
  obtain ⟨ctx, ran⟩ := Option.isSome_iff_exists.mp returns
  exact ⟨ctx, ran, consistent_of_reachable (runs_of_performAll ran)⟩

end Llvm
end TraceWasm
