import TraceWasm.Llvm.BlockText

/-!
# Reading modules

A module is its target settings, its variables, its declarations and its definitions.
What is emitted for a module whose names can be told apart from the text around them is
read back, up to the positions of blocks and functions.
-/

namespace TraceWasm
namespace Llvm

open Reader
open Filter (atTop)

/-! ## What is written of a module -/

/-- What the text of a global variable says. -/
structure WrittenVariable where
  name : String
  ty : Ty
  initializer : Option ConstExpr

/-- What the text of a declared function says. -/
structure WrittenImport where
  name : String
  sig : FuncSignature

/-- What the text of a defined function says. -/
structure WrittenFunction where
  name : String
  params : List Value
  result : Ty
  blocks : List WrittenBlock

/-- What the text of a module says. -/
structure WrittenModule where
  globalVariables : List WrittenVariable
  importedFunctions : List WrittenImport
  functions : List WrittenFunction

/-- What the names in the text of a module stand for. Labels are those of a function. -/
structure ModuleNaming where
  block : (func : String) → String → BasicBlockId
  symbol : String → Global

/-- What the names in the text of a function stand for. -/
def ModuleNaming.inFunc (self : ModuleNaming) (func : String) : Naming where
  block := self.block func
  symbol := self.symbol

namespace Context

variable (names : ModuleNaming) (self : Context)

/-- What the text of a variable of the context says. -/
def writtenVariable (name : String) : WrittenVariable :=
  match self.globals name with
  | some (.variable ty initializer) =>
      ⟨name, ty, initializer.map (·.rename fun global => names.symbol global.name)⟩
  | _ => ⟨name, .void, none⟩

/-- What the text of a declared function of the context says. -/
def writtenImport (name : String) : WrittenImport :=
  match self.globals name with
  | some (.func sig) => ⟨name, sig⟩
  | _ => ⟨name, [], .void⟩

/-- What the text of a block of the context says. -/
def writtenBlock (ids : Renaming) (id : BasicBlockId) : WrittenBlock :=
  match self.blocks[id]? with
  | some block => block.written ids
  | none => ⟨"", [], []⟩

/-- What the text of a function of the context says. -/
def writtenFunction (id : FuncId) : WrittenFunction :=
  match self.funcs[id]? with
  | some func =>
      { name := func.name
        params := func.params.map (·.rename fun global => names.symbol global.name)
        result := func.result
        blocks := func.blocks.map
          (self.writtenBlock ((names.inFunc func.name).renaming self)) }
  | none => ⟨"", [], .void, []⟩

/-- What the text of the context says. -/
def written : WrittenModule where
  globalVariables := self.globalVariables.map (self.writtenVariable names)
  importedFunctions := self.importedFunctions.map self.writtenImport
  functions := self.functions.map (self.writtenFunction names)

end Context

/-! ## The readers -/

section Readers

/-- Skip a target setting, if it is there. -/
def readSetting (key : String) : Reader Char Unit := do
  let isSet ← flag key.toList
  if isSet then
    let _ ← run fun c => c != '\n'
    token "\n"
  else
    return ()

/-- Read the settings of a module. -/
def readHeader : Reader Char Unit := do
  readSetting "target datalayout"
  readSetting "target triple"
  let _ ← flag "\n".toList
  return ()

/-- Read the types of a declaration. -/
def readImport (depth : Nat) : Reader Char WrittenImport := do
  token "declare "
  let result ← readTy depth
  token " @"
  let name ← readName
  token "("
  let params ← joinedBy ", ".toList ")\n".toList (readTy depth)
  token ")\n"
  return ⟨name, params, result⟩

variable (names : ModuleNaming) (depth : Nat)

/-- Read the initializer of a global variable, if it has one. -/
def readInitializer (ty : Ty) : Reader Char (Option ConstExpr) := do
  let initialized ← flag " ".toList
  if initialized then
    match ← readOperand names.symbol depth ty with
    | .constExpr expr => return some expr
    | _ => fail
  else
    return none

/-- Read a global variable. -/
def readVariable : Reader Char WrittenVariable := do
  token "@"
  let name ← readName
  token " = "
  let _ ← flag "external ".toList
  token "global "
  let ty ← readTy depth
  let initializer ← readInitializer names depth ty
  token "\n"
  return ⟨name, ty, initializer⟩

/-- Read a defined function. -/
def readFunction : Reader Char WrittenFunction := do
  token "define "
  let result ← readTy depth
  token " @"
  let name ← readName
  token "("
  let params ← joinedBy ", ".toList ")".toList (readTyped names.symbol depth)
  token ")"
  token " \x7b\n"
  let blocks ← many (readBasicBlock (names.inFunc name) depth)
  token "\x7d\n\n"
  return ⟨name, params, result, blocks⟩

/-- Read a module. -/
def readModule : Reader Char WrittenModule := do
  readHeader
  let globalVariables ← many (readVariable names depth)
  let importedFunctions ← many (readImport depth)
  let functions ← many (readFunction names depth)
  return ⟨globalVariables, importedFunctions, functions⟩

end Readers

/-! ## Pieces of text -/

namespace IREmitter

/-- The emitter after more text. -/
def append (self : IREmitter) (text : List Char) (indentation : Bool) : IREmitter :=
  ⟨self.ir ++ String.ofList text, indentation⟩

/-- Appending text appends its characters. -/
@[simp] theorem toList_append (self : IREmitter) (text : List Char) (indentation : Bool) :
    (self.append text indentation).ir.toList = self.ir.toList ++ text := by
  simp [append]

/-- Appending texts appends their characters in order. -/
theorem toList_foldl_append (self : IREmitter) (texts : List (List Char)) (indentation : Bool) :
    (texts.foldl (fun self text => self.append text indentation) self).ir.toList =
      self.ir.toList ++ texts.flatten := by
  induction texts generalizing self with
  | nil => simp
  | cons text texts inductionHypothesis =>
      rw [List.foldl_cons, inductionHypothesis, toList_append, List.append_assoc,
        List.flatten_cons]

/-- An emitter that only appends is known by what it appends. -/
theorem eq_append
    {self next : IREmitter} {text : List Char}
    (written : next.ir.toList = self.ir.toList ++ text) :
    next = self.append text next.indentation := by
  obtain ⟨ir, indentation⟩ := next
  have same : ir = self.ir ++ String.ofList text := by
    apply String.toList_inj.mp
    rw [written]
    simp
  rw [append, ← same]

end IREmitter

/-- The names in a module end where the reader takes them to end, and its operands are
read back. -/
structure Context.Legible (ctx : Context) : Prop where
  labels : ∀ block ∈ ctx.blocks, Plain block.name
  globalVariables : ∀ name ∈ ctx.globalVariables, Plain name
  importedFunctions : ∀ name ∈ ctx.importedFunctions, Plain name
  functions : ∀ id ∈ ctx.functions, ∀ func, ctx.funcs[id]? = some func → Plain func.name
  initializers : ∀ name ty initializer,
    ctx.globals name = some (.variable ty (some initializer)) →
      initializer.ty = ty ∧ initializer.Formed legible
  params : ∀ func ∈ ctx.funcs, ∀ param ∈ func.params, param.Formed legible
  phis : ∀ block ∈ ctx.blocks, ∀ phi ∈ block.phis, phi.Formed legible
  instructions : ∀ block ∈ ctx.blocks, ∀ instr ∈ block.instructions, instr.Formed legible

/-! ## Reading back -/

section Reads

variable (names : ModuleNaming) {ctx : Context} {emitter next : IREmitter}

theorem afterTy_newline (rest : List Char) : AfterTy ("\n".toList ++ rest) :=
  ⟨by simp, by simp⟩

/-- How the initializer of a variable is written. -/
def SpellsInitializer : Option ConstExpr → String → Prop
  | some expr, text => ∃ exprText, constExpr expr = .ok exprText ∧ text = " " ++ exprText
  | none, text => text = ""

/-- The initializer is read back from behind the type. -/
theorem eventually_reads_initializer
    {ty : Ty} {initializer : Option ConstExpr} {text : String}
    (spelled : SpellsInitializer initializer text)
    (formed : ∀ expr ∈ initializer, expr.ty = ty ∧ expr.Formed legible) :
    ∀ᶠ depth in atTop, ∀ rest, AfterTy (text.toList ++ ("\n".toList ++ rest)) ∧
      readInitializer names depth ty (text.toList ++ ("\n".toList ++ rest)) =
        some (initializer.map (·.rename fun global => names.symbol global.name),
          "\n".toList ++ rest) := by
  cases initializer with
  | none =>
      cases spelled
      refine .of_forall fun depth rest => ⟨afterTy_newline rest, ?_⟩
      have unlike : ¬" ".toList <+: "\n".toList ++ rest := by simp
      simp only [String.toList_empty, List.nil_append, readInitializer, bind_apply,
        flag_of_not unlike, Option.bind_some, Bool.false_eq_true, if_false, pure_apply,
        Option.map_none]
  | some expr =>
      obtain ⟨exprText, exprSpelled, rfl⟩ := spelled
      obtain ⟨sameTy, exprFormed⟩ := formed expr rfl
      have kindSpelled : operandKind (.constExpr expr) = .ok exprText := exprSpelled
      obtain ⟨first, others, head, unlike⟩ := operandKind_head kindSpelled
      filter_upwards [eventually_reads_kind names.symbol (.constExpr expr) kindSpelled
        ⟨sameTy, exprFormed⟩] with depth reads
      intro rest
      have after : AfterName ("\n".toList ++ rest) := by simp [isPlain]
      constructor
      · rw [String.toList_append, List.append_assoc, head]
        exact afterTy_blank unlike
      · simp only [String.toList_append, List.append_assoc, readInitializer, bind_apply,
          flag_append, Option.bind_some, if_true, reads _ after, ValueKind.rename, pure_apply,
          Option.map_some]

/-- What is written for a global variable. -/
theorem visitGlobalVariable_spec
    {name : String} {ty : Ty} {initializer : Option ConstExpr}
    (ran : emitter.visitGlobalVariable name ty initializer .external .default = .ok next) :
    ∃ initText, SpellsInitializer initializer initText ∧
      next = emitter.append ("@".toList ++ (name.toList ++ (" = ".toList ++
        ((if initializer.isSome then "" else "external ").toList ++ ("global ".toList ++
          (ty.display.toList ++ (initText.toList ++ "\n".toList))))))) false := by
  cases initializer with
  | none =>
      cases ran
      refine ⟨"", rfl, IREmitter.eq_append ?_⟩
      simp [IREmitter.pushLine, IREmitter.pushStr, IREmitter.unsetIndentation,
        Linkage.toString]
  | some expr =>
      obtain ⟨exprText, spelled, same⟩ := Attempt.bind_eq_ok.mp ran
      cases same
      refine ⟨" " ++ exprText, ⟨exprText, spelled, rfl⟩, IREmitter.eq_append ?_⟩
      simp [IREmitter.pushLine, IREmitter.pushStr, IREmitter.unsetIndentation]

/-- What the walk over a variable appends is read back. -/
theorem walkGlobalVariable_spec
    {name : String}
    (isLegible : ctx.Legible) (member : name ∈ ctx.globalVariables)
    (ran : emitter.walkGlobalVariable name ctx = .ok next) :
    ∃ text, ((∃ others, text = '@' :: others) ∧
        ∀ᶠ depth in atTop, Reads (readVariable names depth) (fun _ => True) text
          (ctx.writtenVariable names name)) ∧
      next = emitter.append text false := by
  obtain ⟨kind, found, ran⟩ := Attempt.bind_eq_ok.mp ran
  have found := Attempt.orPanic_eq_ok.mp found
  cases kind with
  | func sig => cases ran
  | «variable» ty initializer =>
      obtain ⟨initText, spelled, appended⟩ := visitGlobalVariable_spec ran
      have plain := isLegible.globalVariables name member
      have formed : ∀ expr ∈ initializer, expr.ty = ty ∧ expr.Formed legible := by
        rintro expr ⟨rfl⟩
        exact isLegible.initializers name ty expr found
      refine ⟨_, ⟨?_, ?_⟩, appended⟩
      · exact ⟨_, rfl⟩
      filter_upwards [eventually_reads_ty ty,
        eventually_reads_initializer names spelled formed] with depth readsTy readsInit
      intro rest _
      obtain ⟨next, readInit⟩ := readsInit rest
      have after (rest : List Char) : AfterName (" = ".toList ++ rest) := by simp [isPlain]
      have linkage (rest : List Char) : ∃ external, flag "external ".toList
          ((if initializer.isSome then "" else "external ").toList ++
            ("global ".toList ++ rest)) = some (external, "global ".toList ++ rest) := by
        cases initializer with
        | none => exact ⟨true, flag_append _ _⟩
        | some expr => exact ⟨false, flag_of_not (by simp)⟩
      obtain ⟨external, linked⟩ := linkage (ty.display.toList ++
        (initText.toList ++ ("\n".toList ++ rest)))
      have written : ctx.writtenVariable names name =
          ⟨name, ty, initializer.map (·.rename fun global => names.symbol global.name)⟩ := by
        rw [Context.writtenVariable, found]
      simp only [List.append_assoc, readVariable, bind_apply, token_append, Option.bind_some,
        readName_append plain (after _), linked, readsTy _ next, readInit, pure_apply, written]

/-- What the walk over a declaration appends is read back. -/
theorem walkImportedFunc_spec
    {name : String}
    (isLegible : ctx.Legible) (member : name ∈ ctx.importedFunctions)
    (ran : emitter.walkImportedFunc name ctx = .ok next) :
    ∃ text, ((∃ others, text = 'd' :: 'e' :: 'c' :: others) ∧
        ∀ᶠ depth in atTop, Reads (readImport depth) (fun _ => True) text
          (ctx.writtenImport name)) ∧
      next = emitter.append text false := by
  obtain ⟨kind, found, ran⟩ := Attempt.bind_eq_ok.mp ran
  have found := Attempt.orPanic_eq_ok.mp found
  cases kind with
  | «variable» ty initializer => cases ran
  | func sig =>
      cases ran
      have plain := isLegible.importedFunctions name member
      refine ⟨"declare ".toList ++ (sig.result.display.toList ++ (" @".toList ++
        (name.toList ++ ("(".toList ++ ((joined (sig.params.map Ty.display)).toList ++
          ")\n".toList))))), ⟨?_, ?_⟩, IREmitter.eq_append ?_⟩
      · exact ⟨_, rfl⟩
      · filter_upwards [eventually_reads_ty sig.result, eventually_reads_all sig.params]
          with depth readsTy readsAll
        intro rest _
        have closes : Closes ")\n".toList :=
          ⟨fun rest => ⟨by simp, by simp⟩, by simp, Ty.not_prefix_display (by decide)⟩
        have next (rest : List Char) : AfterTy (" @".toList ++ rest) := ⟨by simp, by simp⟩
        have after (rest : List Char) : AfterName ("(".toList ++ rest) := by simp [isPlain]
        have written : ctx.writtenImport name = ⟨name, sig⟩ := by
          rw [Context.writtenImport, found]
        have params : joinedBy ", ".toList ")\n".toList (readTy depth)
            ((joined (sig.params.map Ty.display)).toList ++ (")\n".toList ++ rest)) =
              some (sig.params, ")\n".toList ++ rest) := by
          rw [← Ty.displayAll_eq]
          exact reads_tys readsAll closes
        simp only [List.append_assoc, readImport, bind_apply, token_append, Option.bind_some,
          readsTy _ (next _), readName_append plain (after _), params, pure_apply, written]
      · simp [IREmitter.visitImportedFunc, IREmitter.pushLine, IREmitter.pushStr,
          IREmitter.unsetIndentation]

/-- The text is that of the block of the function. -/
structure BlockText (ctx : Context) (func : String) (id : BasicBlockId) (text : List Char) :
    Prop where
  nonempty : text ≠ []
  margin : ∀ rest, ¬"    ".toList <+: text ++ rest
  reads : ∀ᶠ depth in atTop,
    Reads (readBasicBlock (names.inFunc func) depth) (fun rest => ¬"    ".toList <+: rest) text
      (ctx.writtenBlock ((names.inFunc func).renaming ctx) id)

/-- A label does not start with a blank. -/
theorem not_prefix_label
    {name : String} (plain : Plain name) (rest : List Char) :
    ¬"    ".toList <+: name.toList ++ (":".toList ++ rest) := by
  have blank : "    ".toList = [' ', ' ', ' ', ' '] := rfl
  cases spelled : name.toList with
  | nil => simp
  | cons first others =>
      rw [blank, List.cons_append, List.cons_prefix_cons]
      rintro ⟨rfl, -⟩
      have isPlain := plain ' ' (by rw [spelled]; exact List.mem_cons_self)
      revert isPlain
      decide

/-- What the walk over a block of a function appends is read back. -/
theorem walkBlock_spec
    {id : BasicBlockId} (func : String)
    (isLegible : ctx.Legible)
    (ran : (do emitter.walkBasicBlock (← ctx.getBlock id) ctx) = .ok next) :
    ∃ text, BlockText names ctx func id text ∧ next = emitter.append text true := by
  obtain ⟨block, looked, ran⟩ := Attempt.bind_eq_ok.mp ran
  have found := Attempt.orPanic_eq_ok.mp looked
  have member := List.mem_of_getElem? found
  obtain ⟨phiTexts, texts, phis, instrs, written, indented⟩ := walkBasicBlock_spec ran
  have plainName := isLegible.labels block member
  have plain (id : BasicBlockId) : Plain (ctx.labelOf id) := by
    unfold Context.labelOf
    cases there : ctx.blocks[id]? with
    | none => simp [Plain]
    | some other => exact isLegible.labels other (List.mem_of_getElem? there)
  have reads := eventually_reads_block (names.inFunc func) plain plainName phis instrs
    (isLegible.phis block member) (isLegible.instructions block member)
  have same := IREmitter.eq_append written
  rw [indented] at same
  refine ⟨_, ⟨by simp, fun rest => ?_, ?_⟩, same⟩
  · rw [List.append_assoc, List.append_assoc]
    exact not_prefix_label plainName _
  · rw [Context.writtenBlock, found]
    exact reads

/-- What the walk over a function appends is read back. -/
theorem walkFunc_spec
    {id : FuncId}
    (isLegible : ctx.Legible) (member : id ∈ ctx.functions)
    (ran : (do emitter.walkFunc (← ctx.getFunc id) ctx) = .ok next) :
    ∃ text, ((∃ others, text = 'd' :: 'e' :: 'f' :: others) ∧
        ∀ᶠ depth in atTop, Reads (readFunction names depth) (fun _ => True) text
          (ctx.writtenFunction names id)) ∧
      next = emitter.append text false := by
  obtain ⟨func, looked, ran⟩ := Attempt.bind_eq_ok.mp ran
  have found := Attempt.orPanic_eq_ok.mp looked
  obtain ⟨opened, visited, ran⟩ := Attempt.bind_eq_ok.mp ran
  obtain ⟨params, spelled, same⟩ := Attempt.bind_eq_ok.mp visited
  cases same
  obtain ⟨closed, walked, same⟩ := Attempt.bind_eq_ok.mp ran
  cases same
  obtain ⟨texts, blocks, rfl⟩ := Attempt.exists_of_foldlM
    (fun _ _ _ _ ran => walkBlock_spec names func.name isLegible ran) walked
  have plain := isLegible.functions id member func found
  have formed := isLegible.params func (List.mem_of_getElem? found)
  refine ⟨"define ".toList ++ (func.result.display.toList ++ (" @".toList ++
    (func.name.toList ++ ("(".toList ++ ((joined params).toList ++ (")".toList ++
      (" \x7b\n".toList ++ (texts.flatten ++ "\x7d\n\n".toList)))))))), ⟨?_, ?_⟩,
    IREmitter.eq_append ?_⟩
  · exact ⟨_, rfl⟩
  · have readsEach := eventually_forall₂ blocks fun _ _ _ blockText => blockText.reads
    filter_upwards [eventually_reads_ty func.result,
      eventually_reads_args (names.inFunc func.name) spelled formed, readsEach]
      with depth readsTy readsParams readsBlocks
    intro rest _
    have next (rest : List Char) : AfterTy (" @".toList ++ rest) := ⟨by simp, by simp⟩
    have after (rest : List Char) : AfterName ("(".toList ++ rest) := by simp [isPlain]
    have written : ctx.writtenFunction names id =
        { name := func.name
          params := func.params.map (·.rename fun global => names.symbol global.name)
          result := func.result
          blocks := func.blocks.map
            (ctx.writtenBlock ((names.inFunc func.name).renaming ctx)) } := by
      rw [Context.writtenFunction, found]
    have spells : Spells (readBasicBlock (names.inFunc func.name) depth)
        (fun rest => ¬"    ".toList <+: rest) texts
        (func.blocks.map (ctx.writtenBlock ((names.inFunc func.name).renaming ctx))) := by
      apply List.forall₂_map_right_iff.mpr
      apply (List.Forall₂.mp (fun _ _ => And.intro) blocks readsBlocks).flip.imp
      exact fun _ _ both => ⟨both.2, both.1.nonempty, both.1.margin⟩
    have brace : "\x7d\n\n".toList = "\x7d\n".toList ++ "\n".toList := rfl
    have margin : ¬"    ".toList <+: "\x7d\n\n".toList ++ rest := by simp
    have ends : readBasicBlock (names.inFunc func.name) depth ("\x7d\n\n".toList ++ rest) =
        none := by
      rw [readBasicBlock, bind_apply, brace, List.append_assoc, readBlockName_of_brace,
        Option.bind_none]
    have symbols : (names.inFunc func.name).symbol = names.symbol := rfl
    rw [symbols] at readsParams
    simp only [List.append_assoc, readFunction, bind_apply, token_append, Option.bind_some,
      readsTy _ (next _), readName_append plain (after _), readsParams,
      many_flatten spells margin ends, pure_apply, written]
  · have blocksWritten := IREmitter.toList_foldl_append
      (emitter.unsetIndentation.pushLine ("define " ++ func.result.display ++ " @" ++
        func.name ++ "(" ++ joined params ++ ") \x7b")) texts true
    simp only [IREmitter.postFuncVisit, IREmitter.pushLine, IREmitter.pushStr,
      IREmitter.unsetIndentation, String.toList_append, Bool.false_eq_true,
      if_false] at blocksWritten ⊢
    rw [blocksWritten]
    simp

/-! ## The header -/

/-- The text of a target setting. -/
def settingText (key value : String) : List Char :=
  if value = "" then [] else
    key.toList ++ (" = \"".toList ++ (value.toList ++ ("\"".toList ++ "\n".toList)))

/-- What the settings are followed by is no setting and no blank line. -/
def AfterHeader (rest : List Char) : Prop :=
  ¬"t".toList <+: rest ∧ ¬"\n".toList <+: rest

/-- A setting is read back. -/
theorem readSetting_append
    {key value : String} {rest : List Char}
    (line : ∀ c ∈ value.toList, c ≠ '\n') (others : ¬key.toList <+: rest) :
    readSetting key (settingText key value ++ rest) = some ((), rest) := by
  unfold settingText
  split
  case isTrue =>
    simp only [List.nil_append, readSetting, bind_apply, flag_of_not others, Option.bind_some,
      Bool.false_eq_true, if_false, pure_apply]
  case isFalse =>
    have all : ∀ c ∈ " = \"".toList ++ (value.toList ++ "\"".toList), (c != '\n') = true := by
      have left : (" = \"".toList.all (· != '\n')) = true := by decide
      have right : ("\"".toList.all (· != '\n')) = true := by decide
      intro c member
      rw [List.mem_append, List.mem_append] at member
      rcases member with opened | inValue | closed
      · exact List.all_eq_true.mp left c opened
      · simpa using line c inValue
      · exact List.all_eq_true.mp right c closed
    have ends : Ends (fun c => c != '\n') ("\n".toList ++ rest) := by simp
    have skipped := run_append all ends
    simp only [List.append_assoc] at skipped
    simp only [List.append_assoc, readSetting, bind_apply, flag_append, Option.bind_some,
      if_true, skipped, token_append]

/-- What precedes the variables. -/
def headerText (cfg : ControlFlowGraph) : List Char :=
  settingText "target datalayout" cfg.dataLayout ++
    (settingText "target triple" cfg.triple ++
      if cfg.dataLayout ≠ "" ∨ cfg.triple ≠ "" then "\n".toList else [])

/-- What is written before the globals. -/
theorem toList_visitCfg (cfg : ControlFlowGraph) :
    (IREmitter.visitCfg cfg ⟨"", false⟩).ir.toList = headerText cfg := by
  unfold IREmitter.visitCfg headerText settingText
  by_cases layout : cfg.dataLayout = "" <;> by_cases triple : cfg.triple = "" <;>
    simp [layout, triple, IREmitter.pushLine, IREmitter.pushStr, IREmitter.unsetIndentation]

/-- The settings of the module are read back. -/
theorem readHeader_append
    {cfg : ControlFlowGraph} {rest : List Char}
    (layout : ∀ c ∈ cfg.dataLayout.toList, c ≠ '\n')
    (triple : ∀ c ∈ cfg.triple.toList, c ≠ '\n') (after : AfterHeader rest) :
    readHeader (headerText cfg ++ rest) = some ((), rest) := by
  let blank := if cfg.dataLayout ≠ "" ∨ cfg.triple ≠ "" then "\n".toList else []
  have noSetting (key : String) (start : "t".toList <+: key.toList) :
      ¬key.toList <+: blank ++ rest := by
    intro isKey
    have isT := start.trans isKey
    unfold blank at isT
    split at isT
    · simp at isT
    · exact after.1 isT
  have noLayout : ¬"target datalayout".toList <+:
      settingText "target triple" cfg.triple ++ (blank ++ rest) := by
    unfold settingText
    split
    · exact noSetting _ ⟨"arget datalayout".toList, rfl⟩
    · simp
  have ended : ∃ any, flag "\n".toList (blank ++ rest) = some (any, rest) := by
    unfold blank
    split
    · exact ⟨true, flag_append _ _⟩
    · exact ⟨false, flag_of_not after.2⟩
  obtain ⟨any, ended⟩ := ended
  have text : headerText cfg ++ rest = settingText "target datalayout" cfg.dataLayout ++
      (settingText "target triple" cfg.triple ++ (blank ++ rest)) := by
    simp only [headerText, List.append_assoc, blank]
  rw [text]
  have noTriple := noSetting "target triple" ⟨"arget triple".toList, rfl⟩
  simp only [readHeader, bind_apply, readSetting_append layout noLayout,
    readSetting_append triple noTriple, Option.bind_some, ended, pure_apply]

/-! ## The module -/

/-- What no piece starts with, the pieces do not start with. -/
theorem not_prefix_flatten
    {α : Type} {piece : α → List Char → Prop} {values : List α} {texts : List (List Char)}
    {first rest : List Char}
    (pieces : List.Forall₂ piece values texts)
    (each : ∀ value text, piece value text → ∀ rest, ¬first <+: text ++ rest)
    (last : ¬first <+: rest) :
    ¬first <+: texts.flatten ++ rest := by
  cases pieces with
  | nil => exact last
  | cons head tail =>
      rw [List.flatten_cons, List.append_assoc]
      exact each _ _ head _

/-- Pieces that are each read back are read back together. -/
theorem spells_of_pieces
    {α β : Type} {read : Reader Char β} {values : List α} {texts : List (List Char)}
    {written : α → β}
    (reads : List.Forall₂ (fun value text => Reads read (fun _ => True) text (written value))
      values texts)
    (nonempty : ∀ text ∈ texts, text ≠ []) :
    Spells read (fun _ => True) texts (values.map written) := by
  apply List.forall₂_map_right_iff.mpr
  apply ((List.forall₂_and_left _ _).mpr ⟨nonempty, reads.flip⟩).imp
  exact fun _ _ both => ⟨both.2, both.1, fun _ => trivial⟩

/-- What holds of every piece holds of every text. -/
theorem forall_mem_of_pieces
    {α : Type} {piece : α → List Char → Prop} {holds : List Char → Prop} {values : List α}
    {texts : List (List Char)}
    (pieces : List.Forall₂ piece values texts)
    (each : ∀ value text, piece value text → holds text) :
    ∀ text ∈ texts, holds text := by
  induction pieces with
  | nil => simp
  | cons head _ inductionHypothesis =>
      exact List.forall_mem_cons.mpr ⟨each _ _ head, inductionHypothesis⟩

/-- A module is read back from its text. -/
theorem eventually_reads_module
    {cfg : ControlFlowGraph} {text : String}
    (layout : ∀ c ∈ cfg.dataLayout.toList, c ≠ '\n')
    (triple : ∀ c ∈ cfg.triple.toList, c ≠ '\n')
    (isLegible : cfg.context.Legible) (emitted : IREmitter.emit cfg = .ok text) :
    ∀ᶠ depth in atTop,
      readModule names depth text.toList = some (cfg.context.written names, []) := by
  obtain ⟨last, walked, same⟩ := Attempt.bind_eq_ok.mp emitted
  cases same
  obtain ⟨afterGlobals, globalsRan, walked⟩ := Attempt.bind_eq_ok.mp walked
  obtain ⟨afterImports, importsRan, funcsRan⟩ := Attempt.bind_eq_ok.mp walked
  obtain ⟨globalTexts, globals, rfl⟩ := Attempt.exists_of_foldlM
    (fun name member _ _ ran => walkGlobalVariable_spec names isLegible member ran) globalsRan
  obtain ⟨importTexts, imports, rfl⟩ := Attempt.exists_of_foldlM
    (fun name member _ _ ran => walkImportedFunc_spec isLegible member ran) importsRan
  obtain ⟨funcTexts, funcs, rfl⟩ := Attempt.exists_of_foldlM
    (fun id member _ _ ran => walkFunc_spec names isLegible member ran) funcsRan
  rw [IREmitter.toList_foldl_append, IREmitter.toList_foldl_append,
    IREmitter.toList_foldl_append, toList_visitCfg]
  filter_upwards [eventually_forall₂ globals fun _ _ _ spec => spec.2,
    eventually_forall₂ imports fun _ _ _ spec => spec.2,
    eventually_forall₂ funcs fun _ _ _ spec => spec.2]
    with depth readsGlobals readsImports readsFuncs
  have spellsGlobals := spells_of_pieces readsGlobals (forall_mem_of_pieces globals
    (by rintro _ _ ⟨⟨_, rfl⟩, -⟩; simp))
  have spellsImports := spells_of_pieces readsImports (forall_mem_of_pieces imports
    (by rintro _ _ ⟨⟨_, rfl⟩, -⟩; simp))
  have spellsFuncs := spells_of_pieces readsFuncs (forall_mem_of_pieces funcs
    (by rintro _ _ ⟨⟨_, rfl⟩, -⟩; simp))
  have after : AfterHeader (globalTexts.flatten ++ (importTexts.flatten ++
      (funcTexts.flatten ++ []))) := by
    constructor <;>
      apply not_prefix_flatten globals (by rintro _ _ ⟨⟨_, rfl⟩, -⟩; simp) <;>
      apply not_prefix_flatten imports (by rintro _ _ ⟨⟨_, rfl⟩, -⟩; simp) <;>
      exact not_prefix_flatten funcs (by rintro _ _ ⟨⟨_, rfl⟩, -⟩; simp) (by simp)
  have noGlobal : ¬"@".toList <+: importTexts.flatten ++ (funcTexts.flatten ++ []) := by
    apply not_prefix_flatten imports (by rintro _ _ ⟨⟨_, rfl⟩, -⟩; simp)
    exact not_prefix_flatten funcs (by rintro _ _ ⟨⟨_, rfl⟩, -⟩; simp) (by simp)
  have endGlobals : readVariable names depth (importTexts.flatten ++ (funcTexts.flatten ++ [])) =
      none := by
    rw [readVariable, bind_apply, token, literal_of_not noGlobal, Option.bind_none]
  have noImport : ¬"declare ".toList <+: funcTexts.flatten ++ [] :=
    not_prefix_flatten funcs (by rintro _ _ ⟨⟨_, rfl⟩, -⟩; simp) (by simp)
  have endImports : readImport depth (funcTexts.flatten ++ []) = none := by
    rw [readImport, bind_apply, token, literal_of_not noImport, Option.bind_none]
  have endFuncs : readFunction names depth [] = none := rfl
  have text : headerText cfg ++ globalTexts.flatten ++ importTexts.flatten ++
      funcTexts.flatten = headerText cfg ++ (globalTexts.flatten ++ (importTexts.flatten ++
        (funcTexts.flatten ++ []))) := by simp
  rw [text]
  simp only [readModule, bind_apply, readHeader_append layout triple after, Option.bind_some,
    many_flatten spellsGlobals trivial endGlobals,
    many_flatten spellsImports trivial endImports,
    many_flatten spellsFuncs trivial endFuncs, pure_apply]
  rfl

end Reads

end Llvm
end TraceWasm
