import TraceWasm.Llvm.Made

/-!
# Graphs of well-formed operands

The instructions in a graph are well formed, and its symbols are told apart by their
names. Both are kept by every call whose operands come from the context.
-/

namespace TraceWasm
namespace Llvm

/-- Everything in the block is well formed. -/
structure BasicBlock.Formed (leaves : Leaves) (block : BasicBlock) : Prop where
  phis : ∀ phi ∈ block.phis, phi.Formed leaves
  instructions : ∀ instr ∈ block.instructions, instr.Formed leaves

/-- The parameter is a register under a name that can be issued. -/
def Value.IsParam (value : Value) : Prop :=
  ∃ name ty, value = Value.fromRegister name ty ∧ Issuable name

/-- An initializer has the type of its variable. -/
def Context.Initialized (leaves : Leaves) (ctx : Context) : Prop :=
  ∀ name ty initializer, ctx.globals name = some (.variable ty (some initializer)) →
    initializer.ty = ty ∧ initializer.Formed leaves

/-- What a symbol of the kind stands for. -/
def Global.IsOf : Global → GlobalKind → Prop
  | .variable _, .variable _ _ => True
  | .definedFunc _ _, .func _ => True
  | .declaredFunc _, .func _ => True
  | _, _ => False

/-- The operands in a context are well formed, and its symbols have distinct names. -/
structure Context.Formed (ctx : Context) : Prop where
  blocks : ∀ block ∈ ctx.blocks, block.Formed ctx.handles
  params : ∀ func ∈ ctx.funcs, ∀ param ∈ func.params, param.IsParam
  initializers : ctx.Initialized ctx.handles
  inside : ∀ id ∈ ctx.functions, id < ctx.funcs.length
  known : ∀ global, ctx.Handle global →
    ∃ kind, ctx.globals global.name = some kind ∧ global.IsOf kind
  distinct : ∀ global other, ctx.Handle global → ctx.Handle other →
    global.name = other.name → global = other

/-- An empty context is well formed. -/
theorem Context.formed_new : Context.new.Formed where
  blocks := nofun
  params := nofun
  initializers := nofun
  inside := nofun
  known := by
    rintro (name | ⟨name, id⟩ | name) there
    · exact (List.not_mem_nil there).elim
    · exact (List.not_mem_nil there.1).elim
    · exact (List.not_mem_nil there).elim
  distinct := by
    rintro (name | ⟨name, id⟩ | name) other there
    · exact (List.not_mem_nil there).elim
    · exact (List.not_mem_nil there.1).elim
    · exact (List.not_mem_nil there).elim

/-! ## More symbols -/

section Mono

variable {leaves result : Leaves}

/-- A value's constants meet what is required of them, whatever else is. -/
theorem Value.Formed.ofConst
    {value : Value}
    (formed : value.Formed leaves) :
    value.Formed (.ofConst leaves.const) := by
  apply formed.joint _ formed
  exact ⟨fun _ _ _ => trivial, fun _ _ _ => trivial, fun _ there _ => there⟩

variable (give : leaves.Give leaves result)
include give

theorem Leaves.Give.ofConst : leaves.Give (.ofConst leaves.const) result :=
  ⟨fun name there _ => give.reg name there there,
    fun global there _ => give.symbol global there there, give.const⟩

/-- An instruction stays well formed when more leaves are good. -/
theorem Instruction.Formed.mono
    {instr : Instruction}
    (formed : instr.Formed leaves) :
    instr.Formed result :=
  formed.joint give.ofConst fun value member => (formed.kind.values value member).ofConst

/-- So does a phi. -/
theorem PhiInstruction.Formed.mono
    {phi : PhiInstruction}
    (formed : phi.Formed leaves) :
    phi.Formed result :=
  formed.joint give.ofConst fun branch member => (formed.values branch member).ofConst

/-- So does a block. -/
theorem BasicBlock.Formed.mono
    {block : BasicBlock}
    (formed : block.Formed leaves) :
    block.Formed result where
  phis := fun phi member => (formed.phis phi member).mono give
  instructions := fun instr member => (formed.instructions instr member).mono give

/-- So do the initializers of the globals. -/
theorem Context.Initialized.mono
    {ctx : Context}
    (initialized : ctx.Initialized leaves) :
    ctx.Initialized result := by
  intro name ty initializer found
  obtain ⟨sameTy, formed⟩ := initialized name ty initializer found
  exact ⟨sameTy, formed.joint give formed⟩

end Mono

/-! ## Symbols -/

/-- What a call may make of the symbols: nothing, or one more under a new name. -/
inductive Symbols (ctx after : Context) : Prop where
  | same
      (globals : after.globals = ctx.globals)
      (handles : ∀ global, after.Handle global ↔ ctx.Handle global)
  | one (new : Global) (kind : GlobalKind)
      (fresh : ctx.globals new.name = none)
      (isOf : new.IsOf kind)
      (globals : after.globals = Function.update ctx.globals new.name (some kind))
      (handles : ∀ global, after.Handle global ↔ global = new ∨ ctx.Handle global)

namespace Context

/-- A defined function is a handle if it is listed under its name. -/
theorem handle_definedFunc
    {ctx : Context} {name : String} {id : FuncId} :
    ctx.Handle (.definedFunc name id) ↔
      id ∈ ctx.functions ∧ (ctx.funcs[id]?).map (·.name) = some name := by
  rw [Option.map_eq_some_iff]
  rfl

/-- Symbols stay as they are when the functions that are listed keep their names. -/
theorem symbols_same
    {ctx after : Context}
    (globals : after.globals = ctx.globals)
    (globalVariables : after.globalVariables = ctx.globalVariables)
    (importedFunctions : after.importedFunctions = ctx.importedFunctions)
    (functions : after.functions = ctx.functions)
    (names : ∀ id ∈ ctx.functions,
      (after.funcs[id]?).map (·.name) = (ctx.funcs[id]?).map (·.name)) :
    Symbols ctx after := by
  apply Symbols.same globals
  intro global
  cases global with
  | «variable» name =>
      change name ∈ after.globalVariables ↔ name ∈ ctx.globalVariables
      rw [globalVariables]
  | declaredFunc name =>
      change name ∈ after.importedFunctions ↔ name ∈ ctx.importedFunctions
      rw [importedFunctions]
  | definedFunc name id =>
      rw [handle_definedFunc, handle_definedFunc, functions]
      exact and_congr_right fun member => by rw [names id member]

end Context

variable {ctx after : Context} {call : Call}

/-- Every call keeps the globals and only adds to them. -/
theorem Effect.symbols
    (effect : Effect ctx call after) (inside : ∀ id ∈ ctx.functions, id < ctx.funcs.length) :
    Symbols ctx after := by
  cases effect with
  | nothing => exact Context.symbols_same rfl rfl rfl rfl fun _ _ => rfl
  | named => exact Context.symbols_same rfl rfl rfl rfl fun _ _ => rfl
  | defined => exact Context.symbols_same rfl rfl rfl rfl fun _ _ => rfl
  | appended => exact Context.symbols_same rfl rfl rfl rfl fun _ _ => rfl
  | terminated => exact Context.symbols_same rfl rfl rfl rfl fun _ _ => rfl
  | placed => exact Context.symbols_same rfl rfl rfl rfl fun _ _ => rfl
  | joined => exact Context.symbols_same rfl rfl rfl rfl fun _ _ => rfl
  | @opened id name func found new =>
      refine @Context.symbols_same ctx _ rfl rfl rfl rfl ?_
      intro other member
      change ((ctx.funcs.modify id _)[other]?).map _ = _
      rw [List.getElem?_modify]
      by_cases same : id = other
      · simp [same, Function.pushBlock, Function.comp_def]
      · simp [same]
  | @declared name ty initializer finalTy new checked =>
      apply Symbols.one (.variable name) (.variable finalTy initializer) new trivial rfl
      rintro (other | ⟨other, id⟩ | other)
      · simp [Context.Handle, or_comm]
      · simp [Context.Handle, Context.insertGlobal]
      · simp [Context.Handle, Context.insertGlobal]
  | @imported name params result new checked =>
      apply Symbols.one (.declaredFunc name) (.func ⟨params, result⟩) new trivial rfl
      rintro (other | ⟨other, id⟩ | other)
      · simp [Context.Handle, Context.insertGlobal]
      · simp [Context.Handle, Context.insertGlobal]
      · simp [Context.Handle, or_comm]
  | allocated stopped =>
      obtain ⟨names, rfl⟩ := nameParams_frame stopped
      refine @Context.symbols_same ctx _ rfl rfl rfl rfl ?_
      intro id member
      change ((ctx.funcs ++ [_])[id]?).map _ = _
      rw [List.getElem?_append_left (inside id member)]
  | @entered name params result vals between new checked named =>
      obtain ⟨names, rfl⟩ := nameParams_frame named
      apply Symbols.one (.definedFunc name ctx.funcs.length)
        (.func ⟨params.map (·.1), result⟩) new trivial rfl
      rintro (other | ⟨other, id⟩ | other)
      · simp only [reduceCtorEq, false_or]
        rfl
      · rw [Context.handle_definedFunc, Context.handle_definedFunc, Context.funcs_entered]
        change id ∈ ctx.functions ++ [ctx.funcs.length] ∧ _ ↔ _
        rw [List.mem_append, List.mem_singleton]
        by_cases last : id = ctx.funcs.length
        · subst last
          have outside : ctx.funcs.length ∉ ctx.functions := fun member =>
            Nat.lt_irrefl _ (inside _ member)
          simp [outside, Function.setSignature, eq_comm]
        · have notNew : ¬(Global.definedFunc other id = .definedFunc name ctx.funcs.length) :=
            fun same => last (Global.definedFunc.inj same).2
          simp only [last, or_false, notNew, false_or]
          refine and_congr_right fun member => ?_
          rw [List.getElem?_append_left (inside id member)]
      · simp only [reduceCtorEq, false_or]
        rfl

/-! ## Names -/

/-- A name that is handed out can be handed out. -/
theorem issuable_of_nameFromHint
    {names next : FuncRegNameIndex}
    (issued : names.nameFromHint reg = .ok (name, next)) :
    Issuable name := by
  have due := (FuncRegNameIndex.nameFromHint_eq_ok issued).1
  cases reg with
  | unnamed => exact .inr ⟨_, due⟩
  | named hint =>
      obtain ⟨legal, index, rfl, -⟩ := due
      exact .inl (Identifier.isIdentifier_spelling legal index)

/-- The parameters of a function are registers. -/
theorem isParam_of_nameParams
    {ctx after : Context}
    (ran : nameParams f params ctx = (.ok vals, after)) :
    ∀ val ∈ vals, val.IsParam := by
  induction params generalizing ctx vals with
  | nil =>
      cases ran
      exact nofun
  | cons param params inductionHypothesis =>
      obtain ⟨ty, reg⟩ := param
      obtain ⟨name, _, named, rest⟩ := Stateful.bind_eq_ok ran
      obtain ⟨names, issued, rfl⟩ := nameForReg_ok named
      obtain ⟨others, _, naming, done⟩ := Stateful.bind_eq_ok rest
      cases done
      rw [List.forall_mem_cons]
      exact ⟨⟨name, ty, rfl, issuable_of_nameFromHint issued⟩, inductionHypothesis naming⟩

/-! ## What a call keeps -/

/-- What a call writes into a block is well formed with the symbols that there were. -/
theorem Effect.formed_blocks
    (effect : Effect ctx call after) (made : call.Made ctx)
    (formed : ∀ block ∈ ctx.blocks, block.Formed ctx.handles) :
    ∀ block ∈ after.blocks, block.Formed ctx.handles := by
  have push {block : BasicBlock} {instr : Instruction} (there : block.Formed ctx.handles)
      (new : instr.Formed ctx.handles) : (block.pushInstruction instr).Formed ctx.handles := by
    refine ⟨there.phis, fun other member => ?_⟩
    rcases List.mem_append.mp member with member | member
    · exact there.instructions other member
    · rwa [List.mem_singleton.mp member]
  have at_ {id : BasicBlockId} {block : BasicBlock} (found : ctx.blocks[id]? = some block) :
      block.Formed ctx.handles := formed block (List.mem_of_getElem? found)
  cases effect with
  | nothing => exact formed
  | named => exact formed
  | defined checked found unlocked issued =>
      obtain ⟨kindFormed, resultTy⟩ := formed_of_write made _ checked
      refine Context.forall_mem_modify formed found (push (at_ found) ⟨kindFormed, ?_⟩)
      rintro value ⟨rfl⟩
      exact ⟨_, _, rfl, issuable_of_nameFromHint issued, resultTy⟩
  | appended checked found unlocked =>
      have kindFormed := formed_of_write made _ checked
      exact Context.forall_mem_modify formed found (push (at_ found) ⟨kindFormed, nofun⟩)
  | terminated checked found unlocked =>
      have kindFormed := formed_of_write made _ checked
      have pushed := @push _ ⟨_, none⟩ (at_ found) ⟨kindFormed, nofun⟩
      exact Context.forall_mem_modify formed found ⟨pushed.phis, pushed.instructions⟩
  | placed given found unlocked later empty issued value sound taken =>
      refine Context.forall_mem_modify formed found ⟨?_, (at_ found).instructions⟩
      intro phi member
      rcases List.mem_append.mp member with member | member
      · exact (at_ found).phis phi member
      · rw [List.mem_singleton.mp member]
        exact ⟨sound.types, fun branch there => made branch (taken branch there),
          _, value, issuable_of_nameFromHint issued⟩
  | joined found there takes =>
      have old := (at_ found).phis _ (List.mem_of_getElem? there)
      refine Context.forall_mem_modify formed found ⟨?_, (at_ found).instructions⟩
      refine Context.forall_mem_modify (at_ found).phis there ⟨?_, ?_, old.value⟩
      · intro other member
        rcases List.mem_append.mp member with member | member
        · exact old.types other member
        · rw [List.mem_singleton.mp member]
          exact takes.1
      · intro other member
        rcases List.mem_append.mp member with member | member
        · exact old.values other member
        · rw [List.mem_singleton.mp member]
          exact made
  | opened found new =>
      intro block member
      rcases List.mem_append.mp member with member | member
      · exact formed block member
      · rw [List.mem_singleton.mp member]
        exact ⟨nofun, nofun⟩
  | declared => exact formed
  | imported => exact formed
  | allocated stopped =>
      obtain ⟨names, rfl⟩ := nameParams_frame stopped
      exact formed
  | entered new checked named =>
      obtain ⟨names, rfl⟩ := nameParams_frame named
      exact formed

/-- Every call keeps the parameters registers. -/
theorem Effect.formed_params
    (effect : Effect ctx call after)
    (formed : ∀ func ∈ ctx.funcs, ∀ param ∈ func.params, param.IsParam) :
    ∀ func ∈ after.funcs, ∀ param ∈ func.params, param.IsParam := by
  cases effect with
  | @opened id name func found new =>
      intro other member
      obtain ⟨i, there⟩ := List.mem_iff_getElem?.mp member
      rcases Context.funcs_opened found rfl there with ⟨-, rfl⟩ | ⟨-, before⟩
      · exact formed func (List.mem_of_getElem? found)
      · exact formed other (List.mem_of_getElem? before)
  | allocated stopped =>
      obtain ⟨names, rfl⟩ := nameParams_frame stopped
      intro func member
      rcases List.mem_append.mp member with member | member
      · exact formed func member
      · rw [List.mem_singleton.mp member]
        exact nofun
  | entered new checked named =>
      have params := isParam_of_nameParams named
      obtain ⟨names, rfl⟩ := nameParams_frame named
      rw [Context.funcs_entered]
      intro func member
      rcases List.mem_append.mp member with member | member
      · exact formed func member
      · rw [List.mem_singleton.mp member]
        exact params
  | _ => exact formed

/-- The initializer of a variable has its type. -/
theorem ty_of_globalVariableTy
    {ty : Option Ty} {initializer : ConstExpr}
    (checked : globalVariableTy ty (some initializer) = .ok finalTy) :
    initializer.ty = finalTy := by
  cases ty with
  | none =>
      cases checked
      rfl
  | some ty =>
      obtain ⟨_, _, rest⟩ := Attempt.bind_eq_ok.mp checked
      obtain ⟨_, same, done⟩ := Attempt.bind_eq_ok.mp rest
      cases done
      exact Attempt.require_eq_ok.mp same

/-- Every call keeps the initializers well formed. -/
theorem Effect.initialized
    (effect : Effect ctx call after) (made : call.Made ctx)
    (initialized : ctx.Initialized ctx.handles) :
    after.Initialized ctx.handles := by
  have one {name : String} {kind : GlobalKind} {after : Context}
      (globals : after.globals = Function.update ctx.globals name (some kind))
      (new : ∀ ty initializer, kind = .variable ty (some initializer) →
        initializer.ty = ty ∧ initializer.Formed ctx.handles) :
      after.Initialized ctx.handles := by
    intro other ty initializer found
    rw [globals, Function.update_apply] at found
    split at found
    · exact new ty initializer (Option.some.inj found)
    · exact initialized other ty initializer found
  cases effect with
  | @declared name ty initializer finalTy new checked =>
      apply one rfl
      rintro ty other ⟨rfl, rfl⟩
      exact ⟨ty_of_globalVariableTy checked, made other rfl⟩
  | imported => exact one rfl nofun
  | allocated stopped =>
      obtain ⟨names, rfl⟩ := nameParams_frame stopped
      exact initialized
  | entered new checked named =>
      obtain ⟨names, rfl⟩ := nameParams_frame named
      exact one rfl nofun
  | _ => exact initialized

/-- Every call keeps the listed functions there. -/
theorem Effect.inside
    (effect : Effect ctx call after) (inside : ∀ id ∈ ctx.functions, id < ctx.funcs.length) :
    ∀ id ∈ after.functions, id < after.funcs.length := by
  cases effect with
  | opened found new =>
      intro id member
      change id < (ctx.funcs.modify _ _).length
      rw [List.length_modify]
      exact inside id member
  | allocated stopped =>
      obtain ⟨names, rfl⟩ := nameParams_frame stopped
      intro id member
      change id < (ctx.funcs ++ [_]).length
      rw [List.length_append]
      exact Nat.lt_add_right _ (inside id member)
  | entered new checked named =>
      obtain ⟨names, rfl⟩ := nameParams_frame named
      intro id member
      rw [Context.funcs_entered, List.length_append]
      rcases List.mem_append.mp member with member | member
      · exact Nat.lt_add_right _ (inside id member)
      · rw [List.mem_singleton.mp member]
        exact Nat.lt_succ_self _
  | _ => exact inside

/-- A call of made operands keeps the graph well formed. -/
theorem Context.Formed.effect
    (formed : ctx.Formed) (made : call.Made ctx) (effect : Effect ctx call after) :
    after.Formed := by
  have symbols := effect.symbols formed.inside
  have stays (global : Global) (there : ctx.Handle global) : after.Handle global := by
    cases symbols with
    | same globals handles => exact (handles global).mpr there
    | one new kind fresh isOf globals handles => exact (handles global).mpr (.inr there)
  have give : ctx.handles.Give ctx.handles after.handles :=
    ⟨fun _ there _ => there, fun global there _ => stays global there, fun _ _ _ => trivial⟩
  constructor
  case blocks =>
    intro block member
    exact (effect.formed_blocks made formed.blocks block member).mono give
  case params => exact effect.formed_params formed.params
  case initializers => exact (effect.initialized made formed.initializers).mono give
  case inside => exact effect.inside formed.inside
  case known =>
    intro global there
    cases symbols with
    | same globals handles =>
        rw [globals]
        exact formed.known global ((handles global).mp there)
    | one new kind fresh isOf globals handles =>
        rw [globals]
        rcases (handles global).mp there with rfl | there
        · exact ⟨kind, Function.update_self .., isOf⟩
        · obtain ⟨other, known, isOf⟩ := formed.known global there
          refine ⟨other, ?_, isOf⟩
          rw [Function.update_of_ne _, known]
          intro same
          rw [same, fresh] at known
          cases known
  case distinct =>
    intro global other there otherThere sameName
    cases symbols with
    | same globals handles =>
        exact formed.distinct global other ((handles global).mp there)
          ((handles other).mp otherThere) sameName
    | one new kind fresh isOf globals handles =>
        have old {global : Global} (there : ctx.Handle global) : global.name ≠ new.name := by
          intro same
          obtain ⟨kind, known, -⟩ := formed.known global there
          rw [same, fresh] at known
          cases known
        rcases (handles global).mp there with rfl | there <;>
          rcases (handles other).mp otherThere with rfl | otherThere
        · rfl
        · exact absurd sameName.symm (old otherThere)
        · exact absurd sameName (old there)
        · exact formed.distinct global other there otherThere sameName

/-- Every run keeps the context well formed. -/
theorem Context.formed_of_runs
    (runs : Runs (fun ctx call => call.Made ctx) ctx after) (formed : ctx.Formed) :
    after.Formed :=
  runs.invariant formed fun _ _ _ formed made effect => formed.effect made effect

end Llvm
end TraceWasm
