import TraceWasm.Llvm.Typing
import TraceWasm.Llvm.WellTyped

/-!
# Well-typedness under extension

A call adds to a context and takes nothing away: symbols keep their kinds, functions
their results, and a register that is there is not defined again. So what is well
typed stays so.
-/

namespace TraceWasm
namespace Llvm

/-- What there was is as it was. -/
structure Context.Extends (ctx after : Context) : Prop where
  globals : ∀ name kind, ctx.globals name = some kind → after.globals name = some kind
  results : ∀ (f : FuncId) (func : Function), ctx.funcs[f]? = some func →
    ∃ later : Function, after.funcs[f]? = some later ∧ later.result = func.result
  registers : ∀ f name, name ∈ ctx.registers f → name ∈ after.registers f
  defined : ∀ f name place instr, name ∈ ctx.registers f →
    after.DefinedAt f name place instr → ctx.DefinedAt f name place instr

/-! ## A call extends -/

section Effects

variable {ctx after : Context} {call : Call} {f : FuncId} {func : Function}

/-- A call keeps the globals that are known. -/
theorem Symbols.globals_kept
    (symbols : Symbols ctx after) (known : ctx.globals name = some kind) :
    after.globals name = some kind := by
  cases symbols with
  | same globals handles => rwa [globals]
  | one new other fresh isOf globals handles =>
      rw [globals, Function.update_of_ne _, known]
      rintro rfl
      rw [fresh] at known
      cases known

/-- A call keeps the result types of the functions. -/
theorem Reshape.results_kept
    (reshape : Reshape ctx call after) (found : ctx.funcs[f]? = some func) :
    ∃ later : Function, after.funcs[f]? = some later ∧ later.result = func.result := by
  cases reshape with
  | same blocks funcs => exact ⟨func, funcs ▸ found, rfl⟩
  | rewritten id alter blocks funcs header => exact ⟨func, funcs ▸ found, rfl⟩
  | opened id name other called there new blocks funcs =>
      by_cases same : id = f
      · subst same
        rw [there] at found
        cases found
        exact ⟨_, Context.funcs_opened_self there funcs, rfl⟩
      · refine ⟨func, ?_, rfl⟩
        rw [funcs, List.getElem?_modify_ne _ _ same, found]
  | function other empty unnamed blocks funcs =>
      refine ⟨func, ?_, rfl⟩
      rw [funcs, List.getElem?_append_left (List.getElem?_eq_some_iff.mp found).1, found]

/-- A call keeps the registers of a function. -/
theorem Additions.registers_kept
    (additions : Additions ctx call after) (member : name ∈ ctx.registers f) :
    name ∈ after.registers f := by
  cases additions with
  | none registers grows => rwa [registers]
  | one id block reg other found defines due funcs last elsewhere registers others grows issued =>
      by_cases same : f = block.funcId
      · subst same
        exact registers.mem_iff.mpr (List.mem_cons_of_mem _ member)
      · rwa [others f same]
  | params g params vals before named new naming defined distinct others grows issued =>
      have old : f ≠ g := by
        rintro rfl
        unfold Context.registers at member
        rw [new] at member
        exact List.not_mem_nil member
      rwa [others f old]

/-- A register that was there was defined where it is defined now. -/
theorem Context.Definitions.definedAt_before
    {place : RegisterDef}
    (definitions : Context.Definitions ctx after) (member : name ∈ ctx.registers f)
    (defined : after.DefinedAt f name place instr) :
    ctx.DefinedAt f name place instr := by
  cases definitions with
  | kept places definitions =>
      unfold Context.DefinedAt at defined
      rwa [places] at defined
  | pushed g pushed last free here elsewhere fresh entered others =>
      obtain ⟨there, named⟩ := defined
      refine ⟨?_, named⟩
      rw [← elsewhere place _, there]
      rintro rfl
      rw [here] at there
      cases there
      exact fresh name named member

/-- Every call extends the context. -/
theorem Effect.extends
    (effect : Effect ctx call after) (invariant : ctx.Invariant)
    (inside : ∀ id ∈ ctx.functions, id < ctx.funcs.length) :
    ctx.Extends after where
  globals := fun _ _ known => (effect.symbols inside).globals_kept known
  results := fun _ _ found => effect.reshape.results_kept found
  registers := fun _ _ member => (effect.additions invariant.linked).registers_kept member
  defined := fun _ _ _ _ member defined =>
    Context.Definitions.definedAt_before
      (effect.definitions invariant.linked invariant.named invariant.mapped) member defined

end Effects

/-! ## What is well typed stays so -/

section Kept

variable {ctx after : Context} {f : FuncId} (extends_ : ctx.Extends after)
include extends_

/-- A value that exists goes on to exist. -/
theorem Value.Exists.mono
    {value : Value}
    (there : value.Exists ctx f) :
    value.Exists after f := by
  obtain ⟨ty, kind⟩ := value
  cases kind with
  | reg name => exact extends_.registers f name there
  | constExpr expr => trivial
  | global global =>
      obtain ⟨kind, known⟩ := there
      exact ⟨kind, extends_.globals _ _ known⟩

/-- Nothing new is known of a pointer that was there. -/
theorem Value.PointsAt.before
    {value : Value} {ty : Ty}
    (there : value.Exists ctx f) (points : value.PointsAt after f ty) :
    value.PointsAt ctx f ty := by
  obtain ⟨own, kind⟩ := value
  cases kind with
  | reg name =>
      obtain ⟨place, instr, pointee, defined, recorded, same⟩ := points
      exact ⟨place, instr, pointee, extends_.defined f name _ _ there defined, recorded, same⟩
  | constExpr expr => cases expr <;> exact points
  | global global =>
      obtain ⟨kind, known, same⟩ := points
      obtain ⟨other, before⟩ := there
      have kept := extends_.globals _ _ before
      rw [known] at kept
      cases kept
      exact ⟨kind, before, same⟩

/-- An instruction that is well typed stays so in a larger context. -/
theorem InstructionKind.WellTyped.mono
    {kind : InstructionKind}
    (wellTyped : kind.WellTyped ctx f) :
    kind.WellTyped after f := by
  cases kind with
  | store operands =>
      obtain ⟨pointer, there, agrees⟩ := wellTyped
      exact ⟨pointer, there.mono extends_,
        fun ty points => agrees ty (points.before extends_ there)⟩
  | ret operands =>
      obtain ⟨func, found, sameTy, value⟩ := wellTyped
      obtain ⟨later, there, result⟩ := extends_.results f func found
      refine ⟨later, there, ?_⟩
      rw [result]
      exact ⟨sameTy, value⟩
  | call operands =>
      obtain ⟨sig, known, params, result⟩ := wellTyped
      exact ⟨sig, fun name called => extends_.globals _ _ (known name called), params, result⟩
  | _ => exact wellTyped

/-- So does an instruction with its register. -/
theorem Instruction.WellTyped.mono
    {instr : Instruction}
    (wellTyped : instr.WellTyped ctx f) :
    instr.WellTyped after f where
  kind := wellTyped.kind.mono extends_
  value := wellTyped.value

omit f in

/-- So does a block. -/
theorem BasicBlock.WellTyped.mono
    {block : BasicBlock}
    (wellTyped : block.WellTyped ctx) :
    block.WellTyped after where
  phis := wellTyped.phis
  instructions := fun instr member => (wellTyped.instructions instr member).mono extends_

end Kept

end Llvm
end TraceWasm
