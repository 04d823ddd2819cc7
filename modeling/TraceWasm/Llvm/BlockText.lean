import TraceWasm.Llvm.EveryInstruction

/-!
# Reading blocks

A block is its label, the lines of its phis and the lines of its instructions. The label
is the one line of a function that ends in a colon.
-/

namespace TraceWasm
namespace Llvm

open Reader
open Filter (atTop)

/-! ## What is written of a block -/

/-- The phi with its blocks in the order of its branches. -/
def PhiInstruction.written (self : PhiInstruction) : PhiInstruction :=
  { self with blocks := self.branches.map (·.1) }

/-- What the text of a basic block says. -/
structure WrittenBlock where
  name : String
  phis : List PhiInstruction
  instructions : List Instruction

/-- What the text of the block says, once its operands are renamed. -/
def BasicBlock.written (ids : Renaming) (self : BasicBlock) : WrittenBlock where
  name := self.name
  phis := self.phis.map fun phi => (phi.rename ids).written
  instructions := self.instructions.map (·.rename ids)

section Reads

variable (names : Naming) {ctx : Context}

/-- Read a label from its line. -/
def readBlockName : Reader Char String := fun text =>
  (run isPlain text).bind fun (word, rest) =>
    if word.getLast? = some ':' then
      (token "\n" rest).map fun (_, rest) => (String.ofList word.dropLast, rest)
    else none

/-- Read a basic block: its label, its phis, and its instructions. -/
def readBasicBlock (depth : Nat) : Reader Char WrittenBlock := do
  let name ← readBlockName
  let phis ← many (readPhi names depth)
  let instructions ← many (readInstruction names depth)
  return ⟨name, phis, instructions⟩

/-! ## Phis -/

/-- The text of a phi's branch is read back. -/
theorem eventually_reads_branch
    {refTy : Ty} {branch : BasicBlockId × Value} {text : String}
    (plain : ∀ id, Plain (ctx.labelOf id))
    (spelled : phiBranch ctx branch = .ok text)
    (sameTy : branch.2.ty = refTy) (formed : branch.2.Formed legible) :
    ∀ᶠ depth in atTop, (∃ others, text.toList = '[' :: others) ∧
      Reads (readPhiBranch names depth refTy) (fun _ => True) text.toList
        ((names.renaming ctx).block branch.1, branch.2.rename (names.renaming ctx).symbol) := by
  obtain ⟨id, value⟩ := branch
  obtain rfl : value.ty = refTy := sameTy
  obtain ⟨valueText, valueSpelled, spelled⟩ := Attempt.bind_eq_ok.mp spelled
  obtain ⟨labelText, labelled, same⟩ := Attempt.bind_eq_ok.mp spelled
  cases same
  filter_upwards [eventually_reads_operand names valueSpelled formed] with depth reads
  refine ⟨⟨_, by simp only [String.toList_append]; rfl⟩, fun rest _ => ?_⟩
  have after : AfterName (" ]".toList ++ rest) := by simp [isPlain]
  simp only [String.toList_append, List.append_assoc, readPhiBranch, bind_apply, token_append,
    Option.bind_some, reads _ (afterName_comma _),
    readLabel_append names plain labelled after, pure_apply]
  cases value
  rfl

/-- A phi is read back from its line. -/
theorem eventually_reads_phi
    {phi : PhiInstruction} {text : String}
    (plain : ∀ id, Plain (ctx.labelOf id))
    (spelled : visitPhi ctx phi = .ok text) (formed : phi.Formed legible) :
    ∀ᶠ depth in atTop, Reads (readPhi names depth) (fun _ => True)
      ("    ".toList ++ (text.toList ++ "\n".toList))
      (phi.rename (names.renaming ctx)).written := by
  obtain ⟨texts, branchesSpelled, spelled⟩ := Attempt.bind_eq_ok.mp spelled
  obtain ⟨name, value, plainName⟩ := formed.value
  obtain ⟨_, assigned, same⟩ := Attempt.bind_eq_ok.mp spelled
  rw [value] at assigned
  cases assigned
  cases same
  have branches := eventually_forall₂ (Attempt.forall₂_of_mapM branchesSpelled)
    fun branch member text spelled => eventually_reads_branch names plain spelled
      (formed.types branch member) (formed.values branch member)
  filter_upwards [eventually_reads_ty phi.refTy, branches] with depth readsTy readsBranches
  intro rest _
  have opened : "    %".toList = "    ".toList ++ "%".toList := rfl
  have token_opened (rest : List Char) :
      token "    %" ("    ".toList ++ ("%".toList ++ rest)) = some ((), rest) := by
    rw [← List.append_assoc, ← opened, token_append]
  have phi_token (rest : List Char) :
      token " = phi " (" = ".toList ++ ("phi ".toList ++ rest)) = some ((), rest) :=
    token_append " = phi " rest
  have afterName (rest : List Char) : AfterName (" = ".toList ++ rest) := by simp [isPlain]
  have afterType : AfterTy (" ".toList ++ ((joined texts).toList ++ ("\n".toList ++ rest))) := by
    cases texts with
    | nil => exact ⟨by simp, by simp [joined]⟩
    | cons text texts =>
        obtain ⟨_, _, ⟨⟨others, head⟩, -⟩, -⟩ := List.forall₂_cons_right_iff.mp readsBranches
        rw [toList_joined, head]
        exact afterTy_blank (by decide)
  have listed : joinedBy ", ".toList "\n".toList (readPhiBranch names depth phi.refTy)
      ((joined texts).toList ++ ("\n".toList ++ rest)) =
        some (phi.branches.map fun branch => ((names.renaming ctx).block branch.1,
          branch.2.rename (names.renaming ctx).symbol), "\n".toList ++ rest) := by
    apply @joinedBy_joined _ _ (fun _ => True) _ _ _ _ _ (fun _ => trivial) trivial (by simp)
    apply List.forall₂_map_right_iff.mpr
    apply readsBranches.flip.imp
    rintro text branch ⟨⟨others, head⟩, reads⟩
    exact ⟨by simp [head], reads⟩
  simp only [String.toList_append, List.append_assoc, readPhi, bind_apply, token_opened,
    Option.bind_some, readName_append plainName (afterName _), phi_token,
    readsTy _ afterType, token_append, listed, pure_apply]
  rw [PhiInstruction.written, PhiInstruction.rename, value]

/-! ## Lines -/

/-- An indented line. -/
def lineOf (text : String) : List Char :=
  "    ".toList ++ (text.toList ++ "\n".toList)

/-- Lines that are pushed one after another stand one after another. -/
theorem foldl_pushLine
    {emitter : IREmitter} (texts : List String)
    (indented : emitter.indentation = true) :
    (texts.foldl (fun emitter text => emitter.pushLine text) emitter).ir.toList =
        emitter.ir.toList ++ (texts.map lineOf).flatten ∧
      (texts.foldl (fun emitter text => emitter.pushLine text) emitter).indentation = true := by
  induction texts generalizing emitter with
  | nil => simp [indented]
  | cons text texts inductionHypothesis =>
      have pushed : (emitter.pushLine text).indentation = true := indented
      have line : (emitter.pushLine text).ir.toList = emitter.ir.toList ++ lineOf text := by
        simp [IREmitter.pushLine, IREmitter.pushStr, indented, lineOf]
      obtain ⟨written, still⟩ := inductionHypothesis pushed
      refine ⟨?_, still⟩
      rw [List.foldl_cons, written, line, List.map_cons, List.flatten_cons, List.append_assoc]

/-- What the walk over a block writes. -/
theorem walkBasicBlock_spec
    {block : BasicBlock} {emitter next : IREmitter}
    (ran : emitter.walkBasicBlock block ctx = .ok next) :
    ∃ phiTexts texts,
      List.Forall₂ (fun phi text => visitPhi ctx phi = .ok text) block.phis phiTexts ∧
      List.Forall₂ (fun instr text => visitInstruction ctx instr = .ok text)
        block.instructions texts ∧
      next.ir.toList = emitter.ir.toList ++ (block.name.toList ++ (":".toList ++ ("\n".toList ++
        ((phiTexts.map lineOf).flatten ++ (texts.map lineOf).flatten)))) ∧
      next.indentation = true := by
  obtain ⟨between, phisRan, instrsRan⟩ := Attempt.bind_eq_ok.mp ran
  have lined {α : Type} {visit : α → Attempt EmitError String} {emitter next : IREmitter}
      {value : α} (ran : (do return emitter.pushLine (← visit value)) = .ok next) :
      ∃ text, visit value = .ok text ∧ next = emitter.pushLine text := by
    obtain ⟨text, spelled, same⟩ := Attempt.bind_eq_ok.mp ran
    cases same
    exact ⟨text, spelled, rfl⟩
  obtain ⟨phiTexts, phis, rfl⟩ := Attempt.exists_of_foldlM (fun _ _ _ _ => lined) phisRan
  obtain ⟨texts, instrs, rfl⟩ := Attempt.exists_of_foldlM (fun _ _ _ _ => lined) instrsRan
  have labelled : (emitter.visitBasicBlock block).indentation = true := rfl
  obtain ⟨phisWritten, indented⟩ := foldl_pushLine phiTexts labelled
  obtain ⟨written, still⟩ := foldl_pushLine texts indented
  refine ⟨phiTexts, texts, phis, instrs, ?_, still⟩
  rw [written, phisWritten]
  simp [IREmitter.visitBasicBlock, IREmitter.setIndentation, IREmitter.unsetIndentation,
    IREmitter.pushLine, IREmitter.pushStr]

/-! ## Blocks -/

/-- A label that is a plain name is read back. -/
theorem readBlockName_append
    {name : String} (rest : List Char)
    (plain : Plain name) :
    readBlockName (name.toList ++ (":".toList ++ ("\n".toList ++ rest))) =
      some (name, rest) := by
  have colon : ":".toList = [':'] := rfl
  have all : ∀ c ∈ name.toList ++ ":".toList, isPlain c = true := by
    intro c member
    rcases List.mem_append.mp member with inName | isColon
    · exact plain c inName
    · rw [List.mem_singleton.mp isColon]
      decide
  have ends : AfterName ("\n".toList ++ rest) := by simp [isPlain]
  have word := run_append all ends
  rw [List.append_assoc] at word
  unfold readBlockName
  rw [word, Option.bind_some]
  dsimp only
  rw [if_pos (by simp [colon]), token_append]
  simp [colon]

/-- A function ends where no label is. -/
theorem readBlockName_of_brace (rest : List Char) :
    readBlockName ("\x7d\n".toList ++ rest) = none := by
  have split : "\x7d\n".toList = ['\x7d'] ++ ['\n'] := rfl
  have word : run isPlain (['\x7d'] ++ ('\n' :: rest)) = some (['\x7d'], '\n' :: rest) :=
    run_append (List.all_eq_true.mp (by decide)) (by simp [isPlain])
  unfold readBlockName
  rw [split, List.append_assoc]
  simp only [List.cons_append, List.nil_append] at word ⊢
  rw [word]
  simp

/-- No phi is read from the line of an instruction. -/
theorem readPhi_of_line
    {instr : Instruction} {text : String} {depth : Nat} {rest : List Char}
    (spelled : visitInstruction ctx instr = .ok text)
    (plain : ∀ id, Plain (ctx.labelOf id)) (formed : instr.Formed legible) :
    readPhi names depth (lineOf text ++ rest) = none := by
  obtain ⟨keyword, tail, line⟩ := exists_line names spelled plain formed
  have split : "    %".toList = "    ".toList ++ "%".toList := rfl
  cases defined : instr.register? with
  | none =>
      have unlike : ¬"    %".toList <+: lineOf text ++ rest := by
        rw [lineOf, line.spelled, defined, definition, split, List.append_assoc,
          List.append_assoc, List.nil_append, List.append_assoc, List.prefix_append_right_inj]
        exact (keyword.not_prefix _).1
      rw [readPhi, bind_apply, token, literal_of_not unlike, Option.bind_none]
  | some name =>
      have after (rest : List Char) : AfterName (" = ".toList ++ rest) := by simp [isPlain]
      have opens (rest : List Char) :
          token "    %" ("    ".toList ++ ("%".toList ++ rest)) = some ((), rest) := by
        rw [← List.append_assoc, ← split, token_append]
      have unlike (rest : List Char) :
          ¬" = phi ".toList <+: " = ".toList ++ (keyword.spelling.toList ++ rest) := by
        have split : " = phi ".toList = " = ".toList ++ "phi ".toList := rfl
        rw [split, List.prefix_append_right_inj]
        exact (keyword.not_prefix rest).2
      have noPhi (rest : List Char) :
          token " = phi " (" = ".toList ++ (keyword.spelling.toList ++ rest)) = none :=
        literal_of_not (unlike rest)
      simp only [lineOf, line.spelled, defined, definition, List.append_assoc, readPhi,
        bind_apply, opens, Option.bind_some,
        readName_append (formed.register name defined) (after _), noPhi, Option.bind_none]

/-- A block is read back. -/
theorem eventually_reads_block
    {block : BasicBlock} {phiTexts texts : List String}
    (plain : ∀ id, Plain (ctx.labelOf id)) (plainName : Plain block.name)
    (phisSpelled : List.Forall₂ (fun phi text => visitPhi ctx phi = .ok text)
      block.phis phiTexts)
    (spelled : List.Forall₂ (fun instr text => visitInstruction ctx instr = .ok text)
      block.instructions texts)
    (phisFormed : ∀ phi ∈ block.phis, phi.Formed legible)
    (formed : ∀ instr ∈ block.instructions, instr.Formed legible) :
    ∀ᶠ depth in atTop,
      Reads (readBasicBlock names depth) (fun rest => ¬"    ".toList <+: rest)
        (block.name.toList ++ (":".toList ++ ("\n".toList ++
          ((phiTexts.map lineOf).flatten ++ (texts.map lineOf).flatten))))
        (block.written (names.renaming ctx)) := by
  have readsPhis := eventually_forall₂ phisSpelled fun phi member text spelled =>
    eventually_reads_phi names plain spelled (phisFormed phi member)
  have readsInstrs := eventually_forall₂ spelled fun instr member text spelled =>
    eventually_reads_instruction names spelled plain (formed instr member)
  filter_upwards [readsPhis, readsInstrs] with depth readsPhis readsInstrs
  intro rest after
  have phis : Spells (readPhi names depth) (fun _ => True) (phiTexts.map lineOf)
      (block.phis.map fun phi => (phi.rename (names.renaming ctx)).written) := by
    apply List.forall₂_map_left_iff.mpr
    apply List.forall₂_map_right_iff.mpr
    exact readsPhis.flip.imp fun _ _ reads => ⟨reads, by simp [lineOf], fun _ => trivial⟩
  have instrs : Spells (readInstruction names depth) (fun _ => True) (texts.map lineOf)
      (block.instructions.map (·.rename (names.renaming ctx))) := by
    apply List.forall₂_map_left_iff.mpr
    apply List.forall₂_map_right_iff.mpr
    exact readsInstrs.flip.imp fun _ _ reads => ⟨reads, by simp [lineOf], fun _ => trivial⟩
  have endPhis : readPhi names depth ((texts.map lineOf).flatten ++ rest) = none := by
    cases texts with
    | nil =>
        have start : "    ".toList <+: "    %".toList := ⟨"%".toList, rfl⟩
        have unlike : ¬"    %".toList <+: rest := fun marked => after (start.trans marked)
        simp only [List.map_nil, List.flatten_nil, List.nil_append, readPhi, bind_apply, token,
          literal_of_not unlike, Option.bind_none]
    | cons text texts =>
        obtain ⟨instr, others, first, -, same⟩ := List.forall₂_cons_right_iff.mp spelled
        have member : instr ∈ block.instructions := same ▸ List.mem_cons_self
        rw [List.map_cons, List.flatten_cons, List.append_assoc]
        exact readPhi_of_line names first plain (formed instr member)
  have endInstrs : readInstruction names depth rest = none := by
    rw [readInstruction, bind_apply, token, literal_of_not after, Option.bind_none]
  simp only [List.append_assoc, readBasicBlock, bind_apply, readBlockName_append _ plainName,
    Option.bind_some, many_flatten phis trivial endPhis, many_flatten instrs trivial endInstrs,
    pure_apply]
  rfl

end Reads

end Llvm
end TraceWasm
