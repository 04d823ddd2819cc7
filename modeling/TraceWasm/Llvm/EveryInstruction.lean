import TraceWasm.Foundation.Returns
import TraceWasm.Llvm.InstructionLines

/-!
# Every instruction is read back

The lines of the terminators, and from all of them that any instruction that is emitted
can be read back.
-/

namespace TraceWasm
namespace Llvm

open Reader
open Filter (atTop)

variable (names : Naming) {ctx : Context} {text name : String} {ty : Ty}

/-! ## Terminators -/

/-- The line of a return is read back. -/
theorem line_ret
    {operands : RetOperands}
    (spelled : visitRet operands = .ok text)
    (sameTy : ∀ value ∈ operands.value, value.ty = operands.ty)
    (formed : ∀ value ∈ operands.value, value.Formed legible) :
    ∃ keyword tail, LineReads names ctx none (.ret operands) text keyword tail := by
  obtain ⟨retTy, value⟩ := operands
  cases value with
  | none =>
      cases spelled
      refine ⟨.ret, " ".toList ++ retTy.display.toList, ?_, by simp, ?_⟩
      · simp [definition, Keyword.spelling]
      · filter_upwards [eventually_reads_ty retTy] with depth readsTy
        rintro _ ⟨rest, rfl⟩
        have after : AfterTy ('\n' :: rest) := ⟨by simp, by simp⟩
        have unlike : ¬" ".toList <+: '\n' :: rest := by simp
        simp only [List.append_assoc, readOperands, readRet, bind_apply, token_append,
          Option.bind_some, readsTy _ after, flag_of_not unlike, Bool.false_eq_true, if_false,
          pure_apply]
        rfl
  | some value =>
      obtain ⟨valTy, kind⟩ := value
      obtain rfl : valTy = retTy := sameTy _ rfl
      have formed := formed _ rfl
      obtain ⟨valueText, valueSpelled, same⟩ := Attempt.bind_eq_ok.mp spelled
      obtain ⟨kindText, kindSpelled, sameText⟩ := Attempt.bind_eq_ok.mp valueSpelled
      cases sameText
      cases same
      obtain ⟨first, others, head, unlike⟩ := operandKind_head kindSpelled
      refine ⟨.ret, " ".toList ++ (valTy.display.toList ++ (" ".toList ++ kindText.toList)),
        ?_, by simp, ?_⟩
      · simp [definition, Keyword.spelling]
      · filter_upwards [eventually_reads_ty valTy,
          eventually_reads_kind names.symbol kind kindSpelled formed] with depth readsTy reads
        intro rest after
        have next : AfterTy (" ".toList ++ (kindText.toList ++ rest)) := by
          rw [head]
          exact afterTy_blank unlike
        simp only [List.append_assoc, readOperands, readRet, bind_apply, token_append,
          Option.bind_some, readsTy _ next, flag_append, if_true, reads _ after.afterName,
          pure_apply]
        rfl

/-- So is that of a branch to a block. -/
theorem line_unconditionalBr
    {operands : UnconditionalBrOperands}
    (spelled : visitUnconditionalBr ctx operands = .ok text)
    (plain : ∀ id, Plain (ctx.labelOf id)) :
    ∃ keyword tail,
      LineReads names ctx none (.unconditionalBr operands) text keyword tail := by
  obtain ⟨labelText, labelled, same⟩ := Attempt.bind_eq_ok.mp spelled
  cases same
  refine ⟨.br, " label ".toList ++ labelText.toList, ?_, by simp, .of_forall ?_⟩
  · simp [definition, Keyword.spelling]
  · intro depth rest after
    simp only [List.append_assoc, readOperands, readBr, bind_apply, flag_append,
      Option.bind_some, if_true, readLabel_append names plain labelled after.afterName,
      pure_apply]
    rfl

/-- So is that of a branch to one of two blocks. -/
theorem line_conditionalBr
    {operands : ConditionalBrOperands}
    (spelled : visitConditionalBr ctx operands = .ok text)
    (plain : ∀ id, Plain (ctx.labelOf id))
    (formed : operands.cond.val.Formed legible) :
    ∃ keyword tail,
      LineReads names ctx none (.conditionalBr operands) text keyword tail := by
  obtain ⟨condText, condSpelled, spelled⟩ := Attempt.bind_eq_ok.mp spelled
  obtain ⟨trueText, trueLabel, spelled⟩ := Attempt.bind_eq_ok.mp spelled
  obtain ⟨falseText, falseLabel, same⟩ := Attempt.bind_eq_ok.mp spelled
  cases same
  refine ⟨.br, " i1 ".toList ++ (condText.toList ++ (", label ".toList ++ (trueText.toList ++
    (", label ".toList ++ falseText.toList)))), ?_, by simp, ?_⟩
  · simp [definition, Keyword.spelling]
  · filter_upwards [eventually_reads_cond names condSpelled formed] with depth reads
    intro rest after
    have unlike (text : List Char) : ¬" label ".toList <+: " i1 ".toList ++ text := by simp
    have next (text : List Char) : AfterName (", label ".toList ++ text) := by simp [isPlain]
    simp only [List.append_assoc, readOperands, readBr, bind_apply, flag_of_not (unlike _),
      Option.bind_some, Bool.false_eq_true, if_false, readConditionalBr, token_append,
      reads _ (next _), readLabel_append names plain trueLabel (next _),
      readLabel_append names plain falseLabel after.afterName, pure_apply, I1Value.rename_eq]
    rfl

/-- An integer constant is written exactly. -/
theorem ConstValue.exact_of_isInteger
    {value : ConstValue}
    (isInteger : value.ty.isInteger = true) :
    value.Exact := by
  cases value with
  | float bits => cases isInteger
  | _ => trivial

/-- A case of a switch is read back from its line. -/
theorem eventually_reads_case
    {condTy : Ty} {case : ConstValue × BasicBlockId} {caseText : String}
    (plain : ∀ id, Plain (ctx.labelOf id))
    (spelled : switchCase ctx condTy case = .ok caseText)
    (sameTy : case.1.ty = condTy) (isInteger : condTy.isInteger = true) :
    ∀ᶠ depth in atTop,
      Reads (readCase names depth condTy) (fun _ => True) caseText.toList
        (case.1, (names.renaming ctx).block case.2) ∧ caseText.toList ≠ [] := by
  obtain ⟨value, id⟩ := case
  obtain rfl : value.ty = condTy := sameTy
  obtain ⟨labelText, labelled, same⟩ := Attempt.bind_eq_ok.mp spelled
  cases same
  have reads := reads_constant (value.exact_of_isInteger isInteger)
  obtain ⟨first, others, head, unlike⟩ := constant_head value
  filter_upwards [eventually_reads_ty value.ty] with depth readsTy
  refine ⟨fun rest _ => ?_, by simp⟩
  have next (rest : List Char) : AfterTy (" ".toList ++ ((constant value).toList ++ rest)) := by
    rw [head]
    exact afterTy_blank fun same => unlike (by simp [same])
  have afterValue (rest : List Char) : AfterName (", label ".toList ++ rest) := by
    simp [isPlain]
  have afterLabel : AfterName ("\n".toList ++ rest) := by simp [isPlain]
  simp only [String.toList_append, List.append_assoc, readCase, bind_apply, token_append,
    Option.bind_some, readsTy _ (next _), reads _ (afterValue _),
    readLabel_append names plain labelled afterLabel, pure_apply]

/-- The line of a switch is read back. -/
theorem line_switch
    {operands : SwitchOperands}
    (spelled : visitSwitch ctx operands = .ok text)
    (plain : ∀ id, Plain (ctx.labelOf id))
    (typed : (InstructionKind.switch operands).Typed)
    (formed : operands.condValue.Formed legible) :
    ∃ keyword tail, LineReads names ctx none (.switch operands) text keyword tail := by
  obtain ⟨isInteger, sameTy, caseTys⟩ := typed
  obtain ⟨condText, condSpelled, spelled⟩ := Attempt.bind_eq_ok.mp spelled
  obtain ⟨labelText, labelled, spelled⟩ := Attempt.bind_eq_ok.mp spelled
  obtain ⟨caseTexts, casesSpelled, same⟩ := Attempt.bind_eq_ok.mp spelled
  cases same
  refine ⟨.switch, " ".toList ++ (operands.condTy.display.toList ++ (" ".toList ++
    (condText.toList ++ (", label ".toList ++ (labelText.toList ++ (" [\n".toList ++
      ((caseTexts.map String.toList).flatten ++ "    ]".toList))))))), ?_, by simp, ?_⟩
  · simp [definition, Keyword.spelling, String.toList_join, List.flatMap_def]
  · have readsEach := eventually_forall₂ (Attempt.forall₂_of_mapM casesSpelled)
      fun case member caseText spelled =>
        eventually_reads_case names plain spelled (caseTys case member) isInteger
    filter_upwards [eventually_reads_behind names condSpelled formed, readsEach]
      with depth readsCond readsCases
    intro rest after
    rw [sameTy] at readsCond
    have next (text : List Char) : AfterName (", label ".toList ++ text) := by simp [isPlain]
    have afterLabel (text : List Char) : AfterName (" [\n".toList ++ text) := by simp [isPlain]
    have spells : Spells (readCase names depth operands.condTy) (fun _ => True)
        (caseTexts.map String.toList)
        (operands.cases.map fun case => (case.1, (names.renaming ctx).block case.2)) := by
      apply List.forall₂_map_left_iff.mpr
      apply List.forall₂_map_right_iff.mpr
      exact readsCases.flip.imp fun _ _ reads => ⟨reads.1, reads.2, fun _ => trivial⟩
    have ends : readCase names depth operands.condTy ("    ]".toList ++ rest) = none := by
      have unlike : ¬"        ".toList <+: "    ]".toList ++ rest := by simp
      rw [readCase, bind_apply, token, literal_of_not unlike, Option.bind_none]
    simp only [List.append_assoc, readOperands, readSwitch, bind_apply, token_append,
      Option.bind_some, readsCond _ (next _),
      readLabel_append names plain labelled (afterLabel _), Value.ty_rename, sameTy,
      many_flatten spells trivial ends, pure_apply]
    rfl

/-- So is that of the end of a block that is never reached. -/
theorem line_unreachable :
    ∃ keyword tail, LineReads names ctx none .unreachable "unreachable" keyword tail := by
  refine ⟨.unreachable, [], by simp [definition, Keyword.spelling], by simp, .of_forall ?_⟩
  intro depth rest _
  rfl

/-! ## Every instruction -/

/-- A value that is narrowed to a condition stays itself. -/
theorem eq_fromRegister_i1
    {value : Value} {narrowed : I1Value}
    (spelled : value.intoI1 = .ok narrowed) :
    narrowed.val = value := by
  unfold Value.intoI1 at spelled
  split at spelled
  · cases spelled
    rfl
  · cases spelled

/-- Two well-formed operands of one type are a pair. -/
theorem pair_of_formed
    {kind : InstructionKind} {a b : Value}
    (formed : kind.Formed legible) (values : kind.values = [a, b])
    (typed : a.ty = ty ∧ b.ty = ty) :
    Pair ty a b where
  aTy := typed.1
  bTy := typed.2
  aFormed := formed.values a (by simp [values])
  bFormed := formed.values b (by simp [values])

/-- The line of an instruction that defines a register. -/
theorem exists_line_of_value
    {kind : InstructionKind}
    (spelled : visitInstruction ctx ⟨kind, some (Value.fromRegister name ty)⟩ = .ok text)
    (formed : kind.Formed legible) (result : kind.resultTy = some ty) :
    ∃ keyword tail, LineReads names ctx (some name) kind text keyword tail := by
  cases kind with
  | load operands =>
      have spelled : visitLoad operands (Value.fromRegister name ty) = .ok text := spelled
      exact line_load names spelled (formed.values _ (List.mem_singleton_self _))
  | alloca operands =>
      exact line_alloca names spelled fun count there =>
        formed.values count (Option.mem_toList.mpr there)
  | getElementPtr operands =>
      obtain ⟨sourceTy, ptr, indices, inbounds⟩ := operands
      obtain ⟨ptrFormed, indicesFormed⟩ := List.forall_mem_cons.mp formed.values
      exact line_getElementPtr names spelled
        ⟨ptrFormed, (Value.allFormed_iff _).mpr indicesFormed⟩
  | call operands =>
      exact line_call names spelled (formed.callee _ rfl) formed.values
  | icmp operands =>
      obtain ⟨value, same, spelled⟩ := Attempt.bind_eq_ok.mp spelled
      cases same
      obtain ⟨narrowed, isI1, spelled⟩ := Attempt.bind_eq_ok.mp spelled
      exact line_icmp names spelled (eq_fromRegister_i1 isI1)
        (pair_of_formed formed rfl formed.typed)
  | fcmp operands =>
      obtain ⟨value, same, spelled⟩ := Attempt.bind_eq_ok.mp spelled
      cases same
      obtain ⟨narrowed, isI1, spelled⟩ := Attempt.bind_eq_ok.mp spelled
      exact line_fcmp names spelled (eq_fromRegister_i1 isI1)
        (pair_of_formed formed rfl formed.typed)
  | ibinop operands =>
      have spelled : visitIbinop operands (Value.fromRegister name ty) = .ok text := spelled
      exact line_ibinop names spelled (pair_of_formed formed rfl formed.typed)
  | fbinop operands =>
      have spelled : visitFbinop operands (Value.fromRegister name ty) = .ok text := spelled
      exact line_fbinop names spelled (pair_of_formed formed rfl formed.typed)
  | fneg operands =>
      have spelled : visitFneg operands (Value.fromRegister name ty) = .ok text := spelled
      exact line_fneg names spelled formed.typed
        (formed.values _ (List.mem_singleton_self _))
  | cast operands =>
      have spelled : visitCast operands (Value.fromRegister name ty) = .ok text := spelled
      exact line_cast names spelled formed.typed
        (formed.values _ (List.mem_singleton_self _))
  | select operands =>
      have spelled : visitSelect operands (Value.fromRegister name ty) = .ok text := spelled
      refine line_select names spelled (formed.values _ List.mem_cons_self)
        ⟨formed.typed.1, formed.typed.2, formed.values _ ?_, formed.values _ ?_⟩ <;>
        simp [InstructionKind.values]
  | _ => cases result

/-- The line of an instruction that defines no register. -/
theorem exists_line_of_none
    {kind : InstructionKind}
    (spelled : visitInstruction ctx ⟨kind, none⟩ = .ok text)
    (plain : ∀ id, Plain (ctx.labelOf id)) (formed : kind.Formed legible) :
    ∃ keyword tail, LineReads names ctx none kind text keyword tail := by
  cases kind with
  | store operands =>
      refine line_store names spelled (formed.values _ ?_) (formed.values _ ?_) <;>
        simp [InstructionKind.values]
  | call operands =>
      exact line_voidCall names spelled (formed.callee _ rfl) formed.values
  | ret operands =>
      exact line_ret names spelled formed.typed fun value there =>
        formed.values value (Option.mem_toList.mpr there)
  | unconditionalBr operands => exact line_unconditionalBr names spelled plain
  | conditionalBr operands =>
      exact line_conditionalBr names spelled plain
        (formed.values _ (List.mem_singleton_self _))
  | «switch» operands =>
      exact line_switch names spelled plain formed.typed
        (formed.values _ (List.mem_singleton_self _))
  | unreachable =>
      cases spelled
      exact line_unreachable names
  | _ => cases spelled

/-- The line of any instruction is read back. -/
theorem exists_line
    {instr : Instruction}
    (spelled : visitInstruction ctx instr = .ok text)
    (plain : ∀ id, Plain (ctx.labelOf id)) (formed : instr.Formed legible) :
    ∃ keyword tail, LineReads names ctx instr.register? instr.kind text keyword tail := by
  obtain ⟨kind, value⟩ := instr
  cases value with
  | none => exact exists_line_of_none names spelled plain formed.kind
  | some value =>
      obtain ⟨name, ty, rfl, -, result⟩ := formed.value value rfl
      exact exists_line_of_value names spelled formed.kind result

/-- Renaming leaves the type of the result. -/
theorem InstructionKind.resultTy_rename (ids : Renaming) (kind : InstructionKind) :
    (kind.rename ids).resultTy = kind.resultTy := by
  cases kind <;> rfl

/-- The register that is defined follows from its name and the instruction. -/
theorem Instruction.Formed.value_eq
    {instr : Instruction} {leaves : Leaves}
    (formed : instr.Formed leaves) :
    (instr.register?.bind fun name => instr.kind.resultTy.map (Value.fromRegister name)) =
      instr.value := by
  obtain ⟨kind, value⟩ := instr
  cases value with
  | none => rfl
  | some value =>
      obtain ⟨name, ty, rfl, -, result⟩ := formed.value value rfl
      have named : (⟨kind, some (Value.fromRegister name ty)⟩ : Instruction).register? =
          some name := rfl
      simp only [named, Option.bind_some, result, Option.map_some]

/-- A keyword is neither a register nor that of a phi. -/
theorem Keyword.not_prefix (keyword : Keyword) (rest : List Char) :
    ¬"%".toList <+: keyword.spelling.toList ++ rest ∧
      ¬"phi ".toList <+: keyword.spelling.toList ++ rest := by
  cases keyword with
  | ibinop op => cases op <;> simp [Keyword.spelling, IBinOp.toString]
  | fbinop op => cases op <;> simp [Keyword.spelling, FBinOp.toString]
  | cast op => cases op <;> simp [Keyword.spelling, CastOp.toString]
  | _ => simp [Keyword.spelling]

/-- The register that an instruction defines is read back. -/
theorem readDefined_append
    {defined : Option String} {keyword : Keyword} {rest : List Char}
    (plain : ∀ name ∈ defined, Plain name) :
    readDefined (definition defined ++ (keyword.spelling.toList ++ rest)) =
      some (defined, keyword.spelling.toList ++ rest) := by
  cases defined with
  | none =>
      have unlike := (keyword.not_prefix rest).1
      simp only [definition, List.nil_append, readDefined, bind_apply, flag_of_not unlike,
        Option.bind_some, Bool.false_eq_true, if_false, pure_apply]
  | some name =>
      have after (rest : List Char) : AfterName (" = ".toList ++ rest) := by simp [isPlain]
      simp only [definition, List.append_assoc, readDefined, bind_apply, flag_append,
        Option.bind_some, if_true, readName_append (plain name rfl) (after _), token_append,
        pure_apply]

/-- The register of a well-formed instruction is a legible one. -/
theorem Instruction.Formed.register
    {instr : Instruction} {leaves : Leaves}
    (formed : instr.Formed leaves) :
    ∀ name ∈ instr.register?, leaves.reg name := by
  intro name defined
  obtain ⟨value, there, named⟩ := Option.bind_eq_some_iff.mp defined
  obtain ⟨other, ty, rfl, holds, -⟩ := formed.value value there
  cases named
  exact holds

/-- An instruction is read back from its line. -/
theorem eventually_reads_instruction
    {instr : Instruction}
    (spelled : visitInstruction ctx instr = .ok text)
    (plain : ∀ id, Plain (ctx.labelOf id)) (formed : instr.Formed legible) :
    ∀ᶠ depth in atTop, Reads (readInstruction names depth) (fun _ => True)
      ("    ".toList ++ (text.toList ++ "\n".toList)) (instr.rename (names.renaming ctx)) := by
  obtain ⟨keyword, tail, line⟩ := exists_line names spelled plain formed
  filter_upwards [line.reads] with depth reads
  intro rest _
  have opened : "\n".toList = ['\n'] := rfl
  have after : AfterLine ("\n".toList ++ rest) := ⟨rest, rfl⟩
  have ends : Ends Char.isAlpha (tail ++ ("\n".toList ++ rest)) := by
    cases tail with
    | nil => simp [opened]
    | cons first others => simpa using line.ends
  have kind := reads _ after
  simp only [List.append_assoc, line.spelled, readInstruction, bind_apply, token_append,
    Option.bind_some, readDefined_append formed.register, readInstructionKind,
    Keyword.read_append keyword ends, kind, pure_apply, InstructionKind.resultTy_rename,
    formed.value_eq]
  rfl

end Llvm
end TraceWasm
