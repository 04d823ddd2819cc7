import TraceWasm.Llvm.Clear

/-!
# Emission is unambiguous

Reading a text back with the names of one module gives that module, and gives a second
module with the same text up to the numbering of blocks and functions.
-/

namespace TraceWasm
namespace Llvm

/-- Two lists that are mapped alike, when that is only so for values that correspond. -/
theorem eq_map_of_map_eq
    {α β γ : Type} {values : List α} {others : List β} {first : α → γ} {second : β → γ}
    {partner : α → β}
    (same : values.map first = others.map second)
    (corresponds : ∀ value ∈ values, ∀ other ∈ others,
      first value = second other → other = partner value) :
    others = values.map partner := by
  induction values generalizing others with
  | nil => simpa using same.symm
  | cons value values inductionHypothesis =>
      cases others with
      | nil => cases same
      | cons other others =>
          obtain ⟨head, tail⟩ := List.cons.inj same
          rw [List.map_cons, corresponds value List.mem_cons_self other List.mem_cons_self head,
            inductionHypothesis tail fun value member other otherMember =>
              corresponds value (List.mem_cons_of_mem _ member) other
                (List.mem_cons_of_mem _ otherMember)]

namespace Context

/-- The name of the function that the block belongs to. -/
def funcOf (self : Context) (id : BasicBlockId) : String :=
  (((self.owner id).bind fun f => self.funcs[f]?).map (·.name)).getD ""

/-- The blocks and functions that have the same names in another context. -/
def correspondence (self other : Context) : Renumbering where
  block := fun id => other.naming.block (self.funcOf id) (self.labelOf id)
  func := fun f => (((self.funcs[f]?).map (·.name)).bind other.funcNamed).getD 0

/-- A context of well-formed operands, with blocks that are listed once and clear. -/
structure Tidy (ctx : Context) : Prop where
  formed : ctx.Formed
  linked : ctx.Linked
  clear : ∀ block ∈ ctx.blocks, block.Clear ctx

variable {ctx other : Context} {f : FuncId} {func : Function}
  {id : BasicBlockId} {block : BasicBlock}

/-! ## Owners and labels -/

/-- A block of a function belongs to it. -/
theorem owner_of_mem
    (linked : ctx.Linked) (found : ctx.funcs[f]? = some func) (member : id ∈ func.blocks) :
    ctx.owner id = some f := by
  obtain ⟨header, headed, owner⟩ := linked.owned found member
  rw [owner.symm, Context.owner, headed, Option.map_some, owner]

/-- A block that belongs to a function is one of its blocks. -/
theorem mem_of_owner
    (linked : ctx.Linked) (found : ctx.funcs[f]? = some func) (owned : ctx.owner id = some f) :
    id ∈ func.blocks := by
  obtain ⟨header, headed, owner⟩ := Option.map_eq_some_iff.mp owned
  obtain ⟨listing, listed, member, -⟩ := linked.listed headed
  rw [owner, found] at listed
  cases listed
  exact member

/-- A block of a function is there. -/
theorem exists_block
    (linked : ctx.Linked) (found : ctx.funcs[f]? = some func) (member : id ∈ func.blocks) :
    ∃ block, ctx.blocks[id]? = some block ∧ block.funcId = f := by
  obtain ⟨header, headed, owner⟩ := linked.owned found member
  obtain ⟨block, there, rfl⟩ := Option.map_eq_some_iff.mp headed
  exact ⟨block, there, owner⟩

/-- The label of a block is its name. -/
theorem labelOf_eq
    (there : ctx.blocks[id]? = some block) :
    ctx.labelOf id = block.name := by
  simp [labelOf, there]

/-- A block stands in the function that it belongs to. -/
theorem funcOf_eq
    (linked : ctx.Linked) (found : ctx.funcs[f]? = some func) (member : id ∈ func.blocks) :
    ctx.funcOf id = func.name := by
  simp [funcOf, owner_of_mem linked found member, found]

/-! ## Blocks -/

/-- What is written of a block, when the names stand for what the blocks of the function
and the symbols are renamed to. -/
theorem Tidy.writtenBlock_eq
    {names : ModuleNaming} {ids : Renaming}
    (tidy : ctx.Tidy)
    (symbols : ∀ global, ctx.Handle global → names.symbol global.name = ids.symbol global)
    (found : ctx.funcs[f]? = some func)
    (blocks : ∀ id ∈ func.blocks, names.block func.name (ctx.labelOf id) = ids.block id)
    (member : id ∈ func.blocks) (there : ctx.blocks[id]? = some block) :
    ctx.writtenBlock ((names.inFunc func.name).renaming ctx) id = block.written ids := by
  obtain ⟨same, sameThere, owner⟩ := exists_block tidy.linked found member
  rw [there] at sameThere
  cases sameThere
  have inside := List.mem_of_getElem? there
  have clear := tidy.clear block inside
  rw [writtenBlock, there]
  apply BasicBlock.written_congr (tidy.formed.blocks block inside)
  · exact fun global handle => symbols global handle
  · intro phi phiMember branch branchMember
    have owned := clear.predecessors phi phiMember branch branchMember
    exact blocks _ (mem_of_owner tidy.linked found (owner ▸ owned))
  · intro instr instrMember target targetMember
    have owned := clear.targets instr instrMember target targetMember
    exact blocks _ (mem_of_owner tidy.linked found (owner ▸ owned))

/-- With the names of the context itself, nothing is renamed. -/
theorem Tidy.writtenBlock_self
    (tidy : ctx.Tidy) (listed : f ∈ ctx.functions) (found : ctx.funcs[f]? = some func)
    (member : id ∈ func.blocks) (there : ctx.blocks[id]? = some block) :
    ctx.writtenBlock ((ctx.naming.inFunc func.name).renaming ctx) id =
      block.written .identity := by
  apply tidy.writtenBlock_eq _ found _ member there
  · exact fun global handle => naming_symbol tidy.formed handle
  · intro other otherMember
    obtain ⟨otherBlock, otherThere, -⟩ := exists_block tidy.linked found otherMember
    rw [labelOf_eq otherThere]
    exact naming_block tidy.formed tidy.linked listed found otherMember otherThere

/-! ## Two contexts with the same text -/

section Same

variable (same : ctx.written other.naming = other.written other.naming)
include same

/-- Two modules that say the same have the same global variables. -/
theorem same_globalVariables : other.globalVariables = ctx.globalVariables := by
  have name_eq (ctx : Context) (name : String) :
      (ctx.writtenVariable other.naming name).name = name := by
    unfold writtenVariable
    split <;> rfl
  have listed := congrArg (fun written => written.globalVariables.map (·.name)) same
  simpa [written, Function.comp_def, name_eq] using listed.symm

/-- They have the same declared functions. -/
theorem same_importedFunctions : other.importedFunctions = ctx.importedFunctions := by
  have name_eq (ctx : Context) (name : String) : (ctx.writtenImport name).name = name := by
    unfold writtenImport
    split <;> rfl
  have listed := congrArg (fun written => written.importedFunctions.map (·.name)) same
  simpa [written, Function.comp_def, name_eq] using listed.symm

end Same

section Functions

variable {otherF : FuncId} {otherFunc : Function}

/-- A listed function is there. -/
theorem Formed.exists_func
    (formed : ctx.Formed) (listed : f ∈ ctx.functions) :
    ∃ func, ctx.funcs[f]? = some func :=
  ⟨_, List.getElem?_eq_getElem (formed.inside f listed)⟩

/-- Functions that are written alike correspond. -/
theorem correspondence_func
    (otherFormed : other.Formed) (found : ctx.funcs[f]? = some func)
    (otherListed : otherF ∈ other.functions) (otherFound : other.funcs[otherF]? = some otherFunc)
    (sameName : otherFunc.name = func.name) :
    (ctx.correspondence other).func f = otherF := by
  have named := funcNamed_eq otherFormed otherListed otherFound
  rw [sameName] at named
  simp [correspondence, found, named]

/-- The defined functions of two modules that say the same correspond. -/
theorem written_functions
    (formed : ctx.Formed) (otherFormed : other.Formed)
    (same : ctx.written other.naming = other.written other.naming) :
    other.functions = ctx.functions.map (ctx.correspondence other).func ∧
      ∀ f ∈ ctx.functions, (ctx.correspondence other).func f ∈ other.functions ∧
        ctx.writtenFunction other.naming f =
          other.writtenFunction other.naming ((ctx.correspondence other).func f) := by
  have functions : ctx.functions.map (ctx.writtenFunction other.naming) =
      other.functions.map (other.writtenFunction other.naming) :=
    congrArg (·.functions) same
  have corresponds {f otherF : FuncId} (listed : f ∈ ctx.functions)
      (otherListed : otherF ∈ other.functions)
      (alike : ctx.writtenFunction other.naming f = other.writtenFunction other.naming otherF) :
      (ctx.correspondence other).func f = otherF := by
    obtain ⟨func, found⟩ := formed.exists_func listed
    obtain ⟨otherFunc, otherFound⟩ := otherFormed.exists_func otherListed
    apply correspondence_func otherFormed found otherListed otherFound
    rw [writtenFunction, writtenFunction, found, otherFound] at alike
    exact (congrArg (·.name) alike).symm
  constructor
  · exact eq_map_of_map_eq functions fun f listed otherF otherListed alike =>
      (corresponds listed otherListed alike).symm
  · intro f listed
    obtain ⟨otherF, otherListed, alike⟩ := List.mem_map.mp
      (functions ▸ List.mem_map_of_mem listed)
    rw [corresponds listed otherListed alike.symm]
    exact ⟨otherListed, alike.symm⟩

end Functions

/-- The initializer of a variable, renamed for the other context. -/
theorem initializer_rename
    {names : ModuleNaming} {symbol : Global → Global} {ty : Ty} {initializer : Option ConstExpr}
    (formed : ctx.Formed)
    (symbols : ∀ global, ctx.Handle global → names.symbol global.name = symbol global)
    (found : ctx.globals name = some (.variable ty initializer)) :
    (initializer.map (·.rename fun global => names.symbol global.name)) =
      initializer.map (·.rename symbol) := by
  apply Option.map_congr
  rintro expr rfl
  exact ConstExpr.rename_congr (fun global there => symbols global there)
    (formed.initializers name ty expr found).2

section Correspond

variable (tidy : ctx.Tidy) (otherTidy : other.Tidy)
  (same : ctx.written other.naming = other.written other.naming)
include tidy otherTidy same

/-- The corresponding function, and what is written of both. -/
theorem exists_correspondent
    (listed : f ∈ ctx.functions) (found : ctx.funcs[f]? = some func) :
    (ctx.correspondence other).func f ∈ other.functions ∧
      ∃ otherFunc, other.funcs[(ctx.correspondence other).func f]? = some otherFunc ∧
        otherFunc.name = func.name ∧ otherFunc.params = func.params ∧
        otherFunc.result = func.result ∧
        func.blocks.map (ctx.writtenBlock ((other.naming.inFunc func.name).renaming ctx)) =
          otherFunc.blocks.map
            (other.writtenBlock ((other.naming.inFunc otherFunc.name).renaming other)) := by
  obtain ⟨otherListed, alike⟩ := (written_functions tidy.formed otherTidy.formed same).2 f listed
  obtain ⟨otherFunc, otherFound⟩ := otherTidy.formed.exists_func otherListed
  rw [writtenFunction, writtenFunction, found, otherFound] at alike
  injection alike with names params results blocks
  have fixed {ctx : Context} {f : FuncId} {func : Function} (formed : ctx.Formed)
      (found : ctx.funcs[f]? = some func) :
      func.params.map (·.rename fun global => other.naming.symbol global.name) =
        func.params := by
    have register (param : Value) (member : param ∈ func.params) :
        param.rename (fun global => other.naming.symbol global.name) = id param := by
      obtain ⟨name, ty, rfl, -⟩ := formed.params func (List.mem_of_getElem? found) param member
      rfl
    exact (List.map_congr_left register).trans (List.map_id _)
  rw [fixed tidy.formed found, fixed otherTidy.formed otherFound] at params
  exact ⟨otherListed, otherFunc, otherFound, names.symm, params.symm, results.symm, blocks⟩

/-- A symbol's name stands for the symbol with its function renumbered. -/
theorem naming_symbol_other
    {global : Global}
    (there : ctx.Handle global) :
    other.naming.symbol global.name =
      (ctx.correspondence other).renaming.symbol global := by
  have otherThere : other.Handle (global.renumber (ctx.correspondence other).func) := by
    cases global with
    | «variable» name =>
        change name ∈ other.globalVariables
        rw [same_globalVariables same]
        exact there
    | declaredFunc name =>
        change name ∈ other.importedFunctions
        rw [same_importedFunctions same]
        exact there
    | definedFunc name f =>
        obtain ⟨listed, func, found, rfl⟩ := there
        obtain ⟨otherListed, otherFunc, otherFound, sameName, -⟩ :=
          exists_correspondent tidy otherTidy same listed found
        exact ⟨otherListed, otherFunc, otherFound, sameName⟩
  have sameName : (global.renumber (ctx.correspondence other).func).name = global.name := by
    cases global <;> rfl
  rw [← sameName]
  exact naming_symbol otherTidy.formed otherThere

/-- Blocks of corresponding functions that are written alike correspond. -/
theorem correspondence_block
    {otherFunc : Function} {otherId : BasicBlockId}
    (listed : f ∈ ctx.functions) (found : ctx.funcs[f]? = some func)
    (otherFound : other.funcs[(ctx.correspondence other).func f]? = some otherFunc)
    (member : id ∈ func.blocks) (otherMember : otherId ∈ otherFunc.blocks)
    (alike : ctx.writtenBlock ((other.naming.inFunc func.name).renaming ctx) id =
      other.writtenBlock ((other.naming.inFunc otherFunc.name).renaming other) otherId) :
    otherId = (ctx.correspondence other).block id := by
  obtain ⟨otherListed, _, foundAgain, sameName, -⟩ :=
    exists_correspondent tidy otherTidy same listed found
  rw [otherFound] at foundAgain
  cases foundAgain
  obtain ⟨block, there, -⟩ := exists_block tidy.linked found member
  obtain ⟨otherBlock, otherThere, -⟩ := exists_block otherTidy.linked otherFound otherMember
  rw [writtenBlock, writtenBlock, there, otherThere] at alike
  have sameLabel : block.name = otherBlock.name := congrArg (·.name) alike
  have standsFor := naming_block otherTidy.formed otherTidy.linked otherListed otherFound
    otherMember otherThere
  change otherId = other.naming.block (ctx.funcOf id) (ctx.labelOf id)
  rw [funcOf_eq tidy.linked found member, labelOf_eq there, sameLabel, ← sameName, standsFor]

/-- So do the blocks of corresponding functions. -/
theorem blocks_correspondent
    {otherFunc : Function}
    (listed : f ∈ ctx.functions) (found : ctx.funcs[f]? = some func)
    (otherFound : other.funcs[(ctx.correspondence other).func f]? = some otherFunc) :
    otherFunc.blocks = func.blocks.map (ctx.correspondence other).block := by
  obtain ⟨-, _, foundAgain, -, -, -, alike⟩ :=
    exists_correspondent tidy otherTidy same listed found
  rw [otherFound] at foundAgain
  cases foundAgain
  exact eq_map_of_map_eq alike fun id member otherId otherMember alike =>
    correspondence_block tidy otherTidy same listed found otherFound member otherMember alike

/-- Corresponding blocks have the same label, phis and instructions. -/
theorem renames_correspondent
    (listed : f ∈ ctx.functions) (found : ctx.funcs[f]? = some func) (member : id ∈ func.blocks) :
    ∃ block otherBlock, ctx.blocks[id]? = some block ∧
      other.blocks[(ctx.correspondence other).block id]? = some otherBlock ∧
      block.Renames (ctx.correspondence other).renaming otherBlock := by
  obtain ⟨otherListed, otherFunc, otherFound, sameName, -, -, alike⟩ :=
    exists_correspondent tidy otherTidy same listed found
  obtain ⟨block, there, -⟩ := exists_block tidy.linked found member
  obtain ⟨otherId, otherMember, alike⟩ := List.mem_map.mp (alike ▸ List.mem_map_of_mem member)
  have partner := correspondence_block tidy otherTidy same listed found otherFound member
    otherMember alike.symm
  obtain ⟨otherBlock, otherThere, -⟩ := exists_block otherTidy.linked otherFound otherMember
  have written : ctx.writtenBlock ((other.naming.inFunc func.name).renaming ctx) id =
      block.written (ctx.correspondence other).renaming := by
    apply tidy.writtenBlock_eq _ found _ member there
    · exact fun global handle => naming_symbol_other tidy otherTidy same handle
    · intro id member
      rw [← funcOf_eq tidy.linked found member]
      rfl
  have otherWritten :=
    otherTidy.writtenBlock_self otherListed otherFound otherMember otherThere
  have texts : otherBlock.written .identity =
      block.written (ctx.correspondence other).renaming := by
    rw [← written, ← otherWritten, alike]
  injection texts with names phis instructions
  simp only [PhiInstruction.rename_identity, Instruction.rename_identity,
    List.map_id'] at phis instructions
  exact ⟨block, otherBlock, there, partner ▸ otherThere, names, phis, instructions⟩

/-! ## The same module -/

/-- A global variable of one module is in the other, with the same initializer. -/
theorem data_correspondent
    (listed : name ∈ ctx.globalVariables) :
    ∃ ty initializer, ctx.globals name = some (.variable ty initializer) ∧
      other.globals name = some (.variable ty
        (initializer.map (·.rename (ctx.correspondence other).renaming.symbol))) := by
  have alike : ctx.writtenVariable other.naming name = other.writtenVariable other.naming name := by
    have lists : ctx.globalVariables.map (ctx.writtenVariable other.naming) =
        other.globalVariables.map (other.writtenVariable other.naming) :=
      congrArg (·.globalVariables) same
    rw [same_globalVariables same] at lists
    exact List.map_inj_left.mp lists name listed
  have otherListed : name ∈ other.globalVariables := by
    rw [same_globalVariables same]
    exact listed
  obtain ⟨kind, found, isOf⟩ := tidy.formed.known (.variable name) listed
  obtain ⟨otherKind, otherFound, otherIsOf⟩ := otherTidy.formed.known (.variable name) otherListed
  cases kind with
  | func sig => exact isOf.elim
  | «variable» ty initializer =>
      cases otherKind with
      | func sig => exact otherIsOf.elim
      | «variable» otherTy otherInitializer =>
          change ctx.globals name = _ at found
          change other.globals name = _ at otherFound
          rw [writtenVariable, writtenVariable, found, otherFound] at alike
          injection alike with _ tys initializers
          have fixed : otherInitializer.map
              (·.rename fun global => other.naming.symbol global.name) =
                otherInitializer.map (·.rename id) :=
            initializer_rename otherTidy.formed
              (fun global there => naming_symbol otherTidy.formed there) otherFound
          have renamed := initializer_rename tidy.formed
            (fun global there => naming_symbol_other tidy otherTidy same there) found
          rw [renamed, fixed, funext ConstExpr.rename_id, Option.map_id'] at initializers
          rw [otherFound, ← tys, ← initializers]
          exact ⟨ty, initializer, found, rfl⟩

/-- A declared function of one module is in the other, with the same signature. -/
theorem declarations_correspondent
    (listed : name ∈ ctx.importedFunctions) :
    ∃ sig, ctx.globals name = some (.func sig) ∧ other.globals name = some (.func sig) := by
  have alike : ctx.writtenImport name = other.writtenImport name := by
    have lists : ctx.importedFunctions.map ctx.writtenImport =
        other.importedFunctions.map other.writtenImport :=
      congrArg (·.importedFunctions) same
    rw [same_importedFunctions same] at lists
    exact List.map_inj_left.mp lists name listed
  have otherListed : name ∈ other.importedFunctions := by
    rw [same_importedFunctions same]
    exact listed
  obtain ⟨kind, found, isOf⟩ := tidy.formed.known (.declaredFunc name) listed
  obtain ⟨otherKind, otherFound, otherIsOf⟩ :=
    otherTidy.formed.known (.declaredFunc name) otherListed
  cases kind with
  | «variable» ty initializer => exact isOf.elim
  | func sig =>
      cases otherKind with
      | «variable» ty initializer => exact otherIsOf.elim
      | func otherSig =>
          change ctx.globals name = _ at found
          change other.globals name = _ at otherFound
          rw [writtenImport, writtenImport, found, otherFound] at alike
          injection alike with _ sigs
          rw [otherFound, ← sigs]
          exact ⟨sig, found, rfl⟩

/-- No two functions correspond to one. -/
theorem correspondence_func_injective :
    Set.InjOn (ctx.correspondence other).func {f | f ∈ ctx.functions} := by
  intro f listed g gListed sameFunc
  obtain ⟨func, found⟩ := tidy.formed.exists_func listed
  obtain ⟨gFunc, gFound⟩ := tidy.formed.exists_func gListed
  obtain ⟨-, otherFunc, otherFound, sameName, -⟩ :=
    exists_correspondent tidy otherTidy same listed found
  obtain ⟨-, otherGFunc, otherGFound, sameGName, -⟩ :=
    exists_correspondent tidy otherTidy same gListed gFound
  rw [← sameFunc, otherFound] at otherGFound
  cases otherGFound
  have named := funcNamed_eq tidy.formed listed found
  rw [← sameName, sameGName, funcNamed_eq tidy.formed gListed gFound] at named
  exact (Option.some.inj named).symm

/-- No two blocks correspond to one. -/
theorem correspondence_block_injective :
    Set.InjOn (ctx.correspondence other).block
      {id | ∃ f ∈ ctx.functions, ∃ func, ctx.funcs[f]? = some func ∧ id ∈ func.blocks} := by
  rintro id ⟨f, listed, func, found, member⟩ next ⟨g, gListed, gFunc, gFound, gMember⟩ sameBlock
  -- the function of the common block is that of both blocks
  have owner {f : FuncId} {func : Function} {id : BasicBlockId} (listed : f ∈ ctx.functions)
      (found : ctx.funcs[f]? = some func) (member : id ∈ func.blocks) :
      other.owner ((ctx.correspondence other).block id) =
        some ((ctx.correspondence other).func f) := by
    obtain ⟨-, otherFunc, otherFound, -⟩ := exists_correspondent tidy otherTidy same listed found
    apply owner_of_mem otherTidy.linked otherFound
    rw [blocks_correspondent tidy otherTidy same listed found otherFound]
    exact List.mem_map_of_mem member
  have sameOwner := owner listed found member
  rw [sameBlock, owner gListed gFound gMember] at sameOwner
  have sameFunc := correspondence_func_injective tidy otherTidy same gListed listed
    (Option.some.inj sameOwner)
  subst sameFunc
  rw [found] at gFound
  cases gFound
  obtain ⟨block, otherBlock, there, otherThere, renames⟩ :=
    renames_correspondent tidy otherTidy same listed found member
  obtain ⟨gBlock, otherGBlock, gThere, otherGThere, gRenames⟩ :=
    renames_correspondent tidy otherTidy same gListed found gMember
  rw [← sameBlock, otherThere] at otherGThere
  cases otherGThere
  have labelled := blockLabelled_eq tidy.linked found member there
  rw [← renames.name, gRenames.name, blockLabelled_eq tidy.linked found gMember gThere] at labelled
  exact (Option.some.inj labelled).symm

/-- What is written alike is the same module up to the numbering. -/
theorem renumbers_of_written :
    ctx.Renumbers (ctx.correspondence other) other where
  globalVariables := same_globalVariables same
  importedFunctions := same_importedFunctions same
  functions := (written_functions tidy.formed otherTidy.formed same).1
  data := fun _ listed => data_correspondent tidy otherTidy same listed
  declarations := fun _ listed => declarations_correspondent tidy otherTidy same listed
  definitions := by
    intro f listed
    obtain ⟨func, found⟩ := tidy.formed.exists_func listed
    obtain ⟨-, otherFunc, otherFound, sameName, params, result, -⟩ :=
      exists_correspondent tidy otherTidy same listed found
    have blocks := blocks_correspondent tidy otherTidy same listed found otherFound
    exact ⟨func, otherFunc, found, otherFound, sameName, params, result, blocks⟩
  bodies := fun _ listed _ found _ member =>
    renames_correspondent tidy otherTidy same listed found member
  func_injective := correspondence_func_injective tidy otherTidy same
  block_injective := correspondence_block_injective tidy otherTidy same

end Correspond

end Context

/-! ## Emission -/

/-- What calls with operands of the context make of an empty context. -/
def Built (ctx : Context) : Prop :=
  Runs (fun ctx call => call.Made ctx) Context.new ctx

/-- A module that was built is tidy. -/
theorem Built.tidy
    {cfg : ControlFlowGraph}
    (built : Built cfg.context) (clear : cfg.Clear) :
    cfg.context.Tidy where
  formed := Context.formed_of_runs built Context.formed_new
  linked := (Context.invariant_of_runs built Context.invariant_new).linked
  clear := clear.blocks

/-- Clear modules with the same text are the same up to the numbering, and types with the
same text are the same. -/
theorem emit_unambiguous
    (cfg other : ControlFlowGraph) (text : String) :
    Function.Injective Ty.display ∧
      (Built cfg.context → Built other.context → cfg.Clear → other.Clear →
        IREmitter.emit cfg = .ok text → IREmitter.emit other = .ok text →
          ∃ ids, cfg.context.Renumbers ids other.context) := by
  refine ⟨Ty.display_injective, ?_⟩
  intro built otherBuilt clear otherClear emitted otherEmitted
  have tidy := built.tidy clear
  have otherTidy := otherBuilt.tidy otherClear
  -- both are read back from the one text with the names of the second
  have reads := eventually_reads_module other.context.naming clear.dataLayout clear.triple
    (clear.isLegible tidy.formed) emitted
  have otherReads := eventually_reads_module other.context.naming otherClear.dataLayout
    otherClear.triple (otherClear.isLegible otherTidy.formed) otherEmitted
  obtain ⟨depth, read, otherRead⟩ := (reads.and otherReads).exists
  have same := (Prod.mk.inj (Option.some.inj (read.symm.trans otherRead))).1
  exact ⟨_, Context.renumbers_of_written tidy otherTidy same⟩

/-- Two functions that loop, whose blocks are added in the order that is given. -/
def twoLoops (first second : FuncId) : List Call :=
  [.defineFunction "f" [] .void, .defineFunction "g" [] .void,
    .addBasicBlock first "entry", .addBasicBlock second "entry",
    .build 0 (.unconditionalBr 0), .build 1 (.unconditionalBr 1)]

/-- The two orders give the same module. -/
theorem emit_unambiguous_twoLoops :
    ∃ ctx other ids,
      performAll (twoLoops 0 1) Context.new = some ctx ∧
      performAll (twoLoops 1 0) Context.new = some other ∧
      Context.Renumbers ids ctx other := by
  have built (first second : FuncId) (ctx : Context)
      (ran : performAll (twoLoops first second) Context.new = some ctx) : Built ctx := by
    apply allowedRuns_of_performAll _ ran
    intro call member ctx
    simp only [twoLoops, List.mem_cons, List.not_mem_nil, or_false] at member
    rcases member with rfl | rfl | rfl | rfl | rfl | rfl
    · trivial
    · trivial
    · trivial
    · trivial
    · simp [Call.Made, CursorCall.values, CursorCall.callee]
    · simp [Call.Made, CursorCall.values, CursorCall.callee]
  have clear (ctx : Context) (first second : FuncId)
      (globalVariables : ctx.globalVariables = []) (importedFunctions : ctx.importedFunctions = [])
      (globals : ctx.globals = Function.update (Function.update (fun _ => none) "f"
        (some (.func ⟨[], .void⟩))) "g" (some (.func ⟨[], .void⟩)))
      (names : ∀ func ∈ ctx.funcs, Plain func.name)
      (blocks : ctx.blocks = [⟨"entry", true, first, [], [⟨.unconditionalBr ⟨0⟩, none⟩], true⟩,
        ⟨"entry", true, second, [], [⟨.unconditionalBr ⟨1⟩, none⟩], true⟩]) :
      ControlFlowGraph.Clear ⟨"", "", ctx⟩ := by
    constructor
    case dataLayout => simp
    case triple => simp
    case globalVariables => simp [globalVariables]
    case importedFunctions => simp [importedFunctions]
    case functions => exact fun f _ func found => names func (List.mem_of_getElem? found)
    case initializers =>
      intro name ty initializer found
      rw [globals, Function.update_apply, Function.update_apply] at found
      split_ifs at found <;> cases found
    case blocks =>
      have owners : ctx.owner 0 = some first ∧ ctx.owner 1 = some second := by
        simp [Context.owner, Context.header, blocks, BasicBlock.header]
      have plain : Plain "entry" := by decide
      intro block member
      dsimp only at member
      rw [blocks] at member
      rcases List.mem_pair.mp member with rfl | rfl
      · refine ⟨plain, by simp, ?_, by simp, ?_⟩
        · simpa [InstructionKind.targets] using owners.1
        · simp [InstructionKind.values]
      · refine ⟨plain, by simp, ?_, by simp, ?_⟩
        · simpa [InstructionKind.targets] using owners.2
        · simp [InstructionKind.values]
  obtain ⟨ids, renumbers⟩ := (emit_unambiguous ⟨"", "", _⟩ ⟨"", "", _⟩ _).2
    (built 0 1 _ rfl) (built 1 0 _ rfl)
    (clear _ 0 1 rfl rfl rfl (by decide) rfl) (clear _ 1 0 rfl rfl rfl (by decide) rfl) rfl rfl
  exact ⟨_, _, ids, rfl, rfl, renumbers⟩

/-- One variable whose name holds a line, and two variables. -/
theorem emit_ambiguous :
    ¬∀ cfg other text, Built cfg.context → Built other.context →
      IREmitter.emit cfg = .ok text →
        IREmitter.emit other = .ok text →
          ∃ ids, cfg.context.Renumbers ids other.context := by
  intro unambiguous
  have one : Built (Call.perform (.declareGlobalVariable "a = external global i32\n@b"
      (some .i32) none) Context.new).2 :=
    Runs.perform .refl (fun _ there => nomatch there) nofun
  have two : Built (Call.perform (.declareGlobalVariable "b" (some .i32) none)
      (Call.perform (.declareGlobalVariable "a" (some .i32) none) Context.new).2).2 :=
    Runs.perform (Runs.perform .refl (fun _ there => nomatch there) nofun)
      (fun _ there => nomatch there) nofun
  obtain ⟨ids, renumbers⟩ := unambiguous ⟨"", "", _⟩ ⟨"", "", _⟩
    "@a = external global i32\n@b = external global i32\n" one two rfl rfl
  have listed : ["a", "b"] = ["a = external global i32\n@b"] := renumbers.globalVariables
  exact absurd (congrArg List.length listed) (by decide)

end Llvm
end TraceWasm
