import Mathlib.Data.List.Pairwise
import TraceWasm.Llvm.Renumbering

/-!
# Clear modules

The names of a clear module can be told apart from the text around them, its branches
stay within their function, and none of its `float` constants is a NaN. So its text is
read back, and each name in it stands for one block, function or symbol.
-/

namespace TraceWasm
namespace Llvm

/-! ## Names that are issued are legible -/

/-- A name that can be handed out is plain. -/
theorem plain_of_issuable
    {name : String}
    (issuable : Issuable name) :
    Plain name := by
  rcases issuable with legal | ⟨n, rfl⟩
  · intro c member
    have part : isIdentifierPart c = true := by
      unfold isIdentifier at legal
      split at legal
      case h_1 => cases legal
      case h_2 first rest spelled =>
        rw [Bool.and_eq_true, List.all_eq_true] at legal
        rw [spelled] at member
        rcases List.mem_cons.mp member with rfl | member
        · rw [isIdentifierPart, legal.1]
          rfl
        · exact legal.2 c member
    exact isPlain_of_not_mem (by decide) part
  · exact fun c member => isPlain_of_not_mem (by decide) (isDigit_of_mem_toString member)

/-! ## The condition -/

/-- The constant is no `float` that is a NaN. -/
def ConstValue.NoNan : ConstValue → Prop
  | .float bits => Ieee.isNan (Ieee.widen bits) = false
  | _ => True

/-- The function that the block belongs to. -/
def Context.owner (self : Context) (id : BasicBlockId) : Option FuncId :=
  (self.header id).map (·.funcId)

/-- Everything that the text of the block names belongs to the block's own function. -/
structure BasicBlock.Clear (ctx : Context) (block : BasicBlock) : Prop where
  name : Plain block.name
  predecessors : ∀ phi ∈ block.phis, ∀ branch ∈ phi.branches,
    ctx.owner branch.1 = some block.funcId
  targets : ∀ instr ∈ block.instructions, ∀ target ∈ instr.kind.targets,
    ctx.owner target = some block.funcId
  phis : ∀ phi ∈ block.phis, ∀ branch ∈ phi.branches,
    branch.2.Formed (.ofConst ConstValue.NoNan)
  instructions : ∀ instr ∈ block.instructions, ∀ value ∈ instr.kind.values,
    value.Formed (.ofConst ConstValue.NoNan)

/-- The names and the settings of the module are legible, its blocks branch within their
function, and none of its `float` constants is a NaN. -/
structure ControlFlowGraph.Clear (cfg : ControlFlowGraph) : Prop where
  dataLayout : ∀ c ∈ cfg.dataLayout.toList, c ≠ '\n'
  triple : ∀ c ∈ cfg.triple.toList, c ≠ '\n'
  globalVariables : ∀ name ∈ cfg.context.globalVariables, Plain name
  importedFunctions : ∀ name ∈ cfg.context.importedFunctions, Plain name
  functions : ∀ f ∈ cfg.context.functions, ∀ func,
    cfg.context.funcs[f]? = some func → Plain func.name
  initializers : ∀ name ty initializer,
    cfg.context.globals name = some (.variable ty (some initializer)) →
      initializer.Formed (.ofConst ConstValue.NoNan)
  blocks : ∀ block ∈ cfg.context.blocks, block.Clear cfg.context

/-- A clear module can be read back. -/
theorem ControlFlowGraph.Clear.isLegible
    {cfg : ControlFlowGraph}
    (clear : cfg.Clear) (formed : cfg.context.Formed) :
    cfg.context.Legible := by
  have give : cfg.context.handles.Give (.ofConst ConstValue.NoNan) legible := by
    refine ⟨fun name issuable _ => plain_of_issuable issuable, ?_, ?_⟩
    · rintro (name | ⟨name, id⟩ | name) there -
      · exact clear.globalVariables name there
      · obtain ⟨member, func, found, rfl⟩ := there
        exact clear.functions id member func found
      · exact clear.importedFunctions name there
    · intro value _ noNan
      cases value with
      | float bits => exact Ieee.narrow_widen noNan
      | _ => trivial
  constructor
  case labels => exact fun block member => (clear.blocks block member).name
  case globalVariables => exact clear.globalVariables
  case importedFunctions => exact clear.importedFunctions
  case functions => exact clear.functions
  case initializers =>
    intro name ty initializer found
    obtain ⟨sameTy, isFormed⟩ := formed.initializers name ty initializer found
    exact ⟨sameTy, isFormed.joint give (clear.initializers name ty initializer found)⟩
  case params =>
    intro func member param isParam
    obtain ⟨name, ty, rfl, issuable⟩ := formed.params func member param isParam
    exact plain_of_issuable issuable
  case phis =>
    intro block member phi there
    exact ((formed.blocks block member).phis phi there).joint give
      ((clear.blocks block member).phis phi there)
  case instructions =>
    intro block member instr there
    exact ((formed.blocks block member).instructions instr there).joint give
      ((clear.blocks block member).instructions instr there)

/-! ## What the names of a module stand for -/

/-- A search finds the only element that it can find. -/
theorem find?_of_unique
    {α : Type} {values : List α} {p : α → Bool} {value : α}
    (member : value ∈ values) (holds : p value = true)
    (only : ∀ other ∈ values, p other = true → other = value) :
    values.find? p = some value := by
  cases found : values.find? p with
  | none => exact absurd holds (List.find?_eq_none.mp found value member)
  | some other =>
      rw [only other (List.mem_of_find?_eq_some found) (List.find?_some found)]

namespace Context

variable {ctx : Context} {f : FuncId} {func : Function} {id : BasicBlockId}
  {block : BasicBlock}

/-- The defined function of a name. -/
def funcNamed (self : Context) (name : String) : Option FuncId :=
  self.functions.find? fun f => (self.funcs[f]?).map (·.name) = some name

/-- The block of a function that has a label. -/
def blockLabelled (self : Context) (f : FuncId) (label : String) : Option BasicBlockId :=
  (self.funcs[f]?).bind fun func =>
    func.blocks.find? fun id => (self.header id).map (·.name) = some label

/-- What the names in the text of the module stand for. -/
def naming (self : Context) : ModuleNaming where
  block := fun func label => ((self.funcNamed func).bind (self.blockLabelled · label)).getD 0
  symbol := fun name =>
    if name ∈ self.globalVariables then .variable name
    else if name ∈ self.importedFunctions then .declaredFunc name
    else .definedFunc name ((self.funcNamed name).getD 0)

/-- A defined function is found by its name. -/
theorem funcNamed_eq
    (formed : ctx.Formed) (member : f ∈ ctx.functions) (found : ctx.funcs[f]? = some func) :
    ctx.funcNamed func.name = some f := by
  apply find?_of_unique member
  · simp [found]
  · intro other otherMember named
    have there : ctx.Handle (.definedFunc func.name f) := ⟨member, func, found, rfl⟩
    have otherThere : ctx.Handle (.definedFunc func.name other) :=
      handle_definedFunc.mpr ⟨otherMember, by simpa using named⟩
    have same := formed.distinct _ _ otherThere there rfl
    exact (Global.definedFunc.inj same).2

/-- A label belongs to one block of a function. -/
theorem Linked.unique_label
    {other : BasicBlockId} {header otherHeader : Header}
    (linked : ctx.Linked) (found : ctx.funcs[f]? = some func)
    (member : id ∈ func.blocks) (otherMember : other ∈ func.blocks)
    (headed : ctx.header id = some header) (otherHeaded : ctx.header other = some otherHeader)
    (sameName : header.name = otherHeader.name) :
    id = other := by
  have distinct : (ctx.labels func).Nodup := by
    rw [linked.labels found]
    exact List.nodup_reverse.mpr (linked.distinct found)
  let label (id : BasicBlockId) : Option String := (ctx.header id).map (·.name)
  let Apart (a b : BasicBlockId) : Prop := ∀ name, label a = some name → label b = some name → a = b
  have symmetric : Std.Symm Apart :=
    ⟨fun a b apart name ofB ofA => (apart name ofA ofB).symm⟩
  have apart : func.blocks.Pairwise Apart :=
    (List.pairwise_filterMap.mp distinct).imp fun unlike name ofA ofB =>
      absurd rfl (unlike name ofA name ofB)
  apply apart.forall_of_forall (fun _ _ _ _ _ => rfl) member otherMember header.name
  · simp [label, headed]
  · simp [label, otherHeaded, sameName]

/-- A block is found by its label. -/
theorem blockLabelled_eq
    (linked : ctx.Linked) (found : ctx.funcs[f]? = some func) (member : id ∈ func.blocks)
    (there : ctx.blocks[id]? = some block) :
    ctx.blockLabelled f block.name = some id := by
  have headed : ctx.header id = some block.header := by simp [header, there]
  unfold blockLabelled
  rw [found, Option.bind_some]
  apply find?_of_unique member
  · simp [headed, BasicBlock.header]
  · intro other otherMember labelled
    obtain ⟨otherHeader, otherHeaded, -⟩ := linked.owned found otherMember
    apply linked.unique_label found otherMember member otherHeaded headed
    simpa [otherHeaded, BasicBlock.header] using labelled

/-- What a label in the text stands for is the block. -/
theorem naming_block
    (formed : ctx.Formed) (linked : ctx.Linked) (listed : f ∈ ctx.functions)
    (found : ctx.funcs[f]? = some func) (member : id ∈ func.blocks)
    (there : ctx.blocks[id]? = some block) :
    ctx.naming.block func.name block.name = id := by
  simp only [naming, funcNamed_eq formed listed found, Option.bind_some,
    blockLabelled_eq linked found member there, Option.getD_some]

/-- What a global's name in the text stands for is the global. -/
theorem naming_symbol
    {global : Global}
    (formed : ctx.Formed) (there : ctx.Handle global) :
    ctx.naming.symbol global.name = global := by
  have apart {other : Global} (otherThere : ctx.Handle other)
      (sameName : other.name = global.name) :
      other = global := formed.distinct other global otherThere there sameName
  cases global with
  | «variable» name => exact if_pos there
  | declaredFunc name =>
      have notVariable : name ∉ ctx.globalVariables := fun member =>
        nomatch @apart (.variable name) member rfl
      exact (if_neg notVariable).trans (if_pos there)
  | definedFunc name f =>
      have notVariable : name ∉ ctx.globalVariables := fun member =>
        nomatch @apart (.variable name) member rfl
      have notImported : name ∉ ctx.importedFunctions := fun member =>
        nomatch @apart (.declaredFunc name) member rfl
      obtain ⟨member, func, found, rfl⟩ := there
      refine (if_neg notVariable).trans ((if_neg notImported).trans ?_)
      exact congrArg (fun f => Global.definedFunc func.name (f.getD 0))
        (funcNamed_eq formed member found)

end Context

end Llvm
end TraceWasm
