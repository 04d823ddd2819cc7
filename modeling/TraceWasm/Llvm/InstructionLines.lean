import TraceWasm.Llvm.InstructionText

/-!
# The lines of instructions

One lemma for each kind of instruction. The line that the emitter writes is the register
that is defined, the keyword of the kind, and operands that are read back as they are,
up to renaming.
-/

namespace TraceWasm
namespace Llvm

open Reader
open Filter (atTop)

/-- No type is written like the beginning of `inbounds`. -/
theorem Ty.not_prefix_in (ty : Ty) (rest : List Char) :
    ¬"in".toList <+: ty.display.toList ++ rest := by
  induction ty using Ty.core.induct generalizing rest with
  | case1 params result inductionHypothesis =>
      rw [display, String.toList_append, String.toList_append, String.toList_append,
        List.append_assoc, List.append_assoc, List.append_assoc]
      exact inductionHypothesis _
  | case2 ty notFunc =>
      cases ty with
      | func params result => exact (notFunc params result rfl).elim
      | struct fields packed => cases packed <;> simp [display]
      | _ => simp [display]

/-- The operand of a well-formed value is well formed at its type. -/
theorem Value.formed_kind
    {value : Value} {leaves : Leaves}
    (formed : value.Formed leaves) :
    value.kind.Formed leaves value.ty := by
  cases value
  exact formed

variable (names : Naming) {ctx : Context} {text name : String} {ty : Ty}

/-! ## Operands at a type that is known -/

section Operands

variable {a b value : Value} {aText bText valueText : String}

/-- An operand that is written without its type is read at that type. -/
theorem eventually_reads_operand
    (spelled : operand value = .ok valueText) (formed : value.Formed legible) :
    ∀ᶠ depth in atTop,
      KindReads names.symbol depth value.ty valueText value.kind :=
  eventually_reads_kind names.symbol value.kind spelled (value.formed_kind formed)

/-- An operand behind its type is read together with it. -/
theorem eventually_reads_behind
    (spelled : operand value = .ok valueText) (formed : value.Formed legible) :
    ∀ᶠ depth in atTop, ∀ rest, AfterName rest →
      readTyped names.symbol depth
        (value.ty.display.toList ++ (" ".toList ++ (valueText.toList ++ rest))) =
          some (value.rename fun global => names.symbol global.name, rest) := by
  have typed : typedOperand value = .ok (value.ty.display ++ " " ++ valueText) := by
    cases value
    exact Attempt.bind_eq_ok.mpr ⟨valueText, spelled, rfl⟩
  filter_upwards [eventually_reads_typed names.symbol value typed formed] with depth reads
  intro rest after
  have read := reads rest after
  simp only [String.toList_append, List.append_assoc] at read
  exact read

/-- Two operands that share a type, written once, are read back. -/
theorem eventually_reads_pair
    (aSpelled : operand a = .ok aText) (bSpelled : operand b = .ok bText)
    (aTy : a.ty = ty) (bTy : b.ty = ty)
    (aFormed : a.Formed legible) (bFormed : b.Formed legible) :
    ∀ᶠ depth in atTop, ∀ rest, AfterName rest →
      readPair names depth (ty.display.toList ++ (" ".toList ++ (aText.toList ++
        (", ".toList ++ (bText.toList ++ rest))))) =
          some ((a.rename fun global => names.symbol global.name,
            b.rename fun global => names.symbol global.name), rest) := by
  filter_upwards [eventually_reads_behind names aSpelled aFormed,
    eventually_reads_operand names bSpelled bFormed] with depth readsA readsB
  intro rest after
  subst aTy
  rw [bTy] at readsB
  simp only [readPair, bind_apply, readsA _ (afterName_comma _), Option.bind_some,
    token_append, Value.ty_rename, readsB _ after, pure_apply]
  cases b
  cases bTy
  rfl

/-- An `i1` that is written without its type is read as one. -/
theorem eventually_reads_cond
    {cond : I1Value} {condText : String}
    (spelled : operandKind cond.val.kind = .ok condText) (formed : cond.val.Formed legible) :
    ∀ᶠ depth in atTop, KindReads names.symbol depth .i1 condText cond.val.kind := by
  have reads := eventually_reads_operand names spelled formed
  rw [cond.property] at reads
  exact reads

/-- A condition is renamed like its operand. -/
theorem I1Value.rename_eq (symbol : Global → Global) (cond : I1Value) :
    (⟨⟨.i1, cond.val.kind.rename symbol⟩, rfl⟩ : I1Value) = cond.rename symbol := by
  obtain ⟨⟨ty, kind⟩, isI1⟩ := cond
  cases isI1
  rfl

end Operands

/-! ## Memory -/

/-- The line of a load is read back. -/
theorem line_load
    {operands : LoadOperands}
    (spelled : visitLoad operands (Value.fromRegister name ty) = .ok text)
    (formed : operands.ptr.Formed legible) :
    ∃ keyword tail, LineReads names ctx (some name) (.load operands) text keyword tail := by
  obtain ⟨_, assigned, spelled⟩ := Attempt.bind_eq_ok.mp spelled
  cases assigned
  obtain ⟨ptrText, ptrSpelled, same⟩ := Attempt.bind_eq_ok.mp spelled
  cases same
  refine ⟨.load, " ".toList ++ (operands.ty.display.toList ++ (", ".toList ++
    (ptrText.toList ++ (alignment operands.align).toList))), ?_, by simp, ?_⟩
  · simp [definition, Keyword.spelling]
  · filter_upwards [eventually_reads_ty operands.ty,
      eventually_reads_typed names.symbol operands.ptr ptrSpelled formed]
      with depth readsTy readsPtr
    intro rest after
    simp only [List.append_assoc, readOperands, readLoad, bind_apply, token_append,
      Option.bind_some, readsTy _ (afterTy_comma _),
      readsPtr _ (afterName_alignment _ after), readAlignment_append _ after, pure_apply]
    rfl

/-- The line of a store is read back. -/
theorem line_store
    {operands : StoreOperands}
    (spelled : visitStore operands = .ok text)
    (valueFormed : operands.value.Formed legible) (ptrFormed : operands.ptr.Formed legible) :
    ∃ keyword tail, LineReads names ctx none (.store operands) text keyword tail := by
  obtain ⟨valueText, valueSpelled, spelled⟩ := Attempt.bind_eq_ok.mp spelled
  obtain ⟨ptrText, ptrSpelled, same⟩ := Attempt.bind_eq_ok.mp spelled
  cases same
  refine ⟨.store, " ".toList ++ (valueText.toList ++ (", ".toList ++
    (ptrText.toList ++ (alignment operands.align).toList))), ?_, by simp, ?_⟩
  · simp [definition, Keyword.spelling]
  · filter_upwards [eventually_reads_typed names.symbol operands.value valueSpelled valueFormed,
      eventually_reads_typed names.symbol operands.ptr ptrSpelled ptrFormed]
      with depth readsValue readsPtr
    intro rest after
    simp only [List.append_assoc, readOperands, readStore, bind_apply, token_append,
      Option.bind_some, readsValue _ (afterName_comma _),
      readsPtr _ (afterName_alignment _ after), readAlignment_append _ after, pure_apply]
    rfl

/-- No alignment is read where a type starts. -/
theorem readAlignment_of_typed
    {count : Value} {countText : String} {rest : List Char}
    (spelled : typedOperand count = .ok countText) :
    readAlignment (", ".toList ++ (countText.toList ++ rest)) =
      some (none, ", ".toList ++ (countText.toList ++ rest)) := by
  obtain ⟨ty, kind⟩ := count
  obtain ⟨kindText, _, same⟩ := Attempt.bind_eq_ok.mp spelled
  cases same
  have unlike : ¬", align ".toList <+:
      ", ".toList ++ ((ty.display ++ " " ++ kindText).toList ++ rest) := by
    have split : ", align ".toList = ", ".toList ++ ('a' :: "lign ".toList) := rfl
    rw [split, List.prefix_append_right_inj, String.toList_append, String.toList_append,
      List.append_assoc, List.append_assoc]
    exact Ty.not_prefix_display (by decide) ty _
  simp only [readAlignment, bind_apply, flag_of_not unlike, Option.bind_some,
    Bool.false_eq_true, if_false, pure_apply]

/-- The line of an allocation is read back, with or without a count. -/
theorem line_alloca
    {operands : AllocaOperands}
    (spelled : visitAlloca operands (Value.fromRegister name ty) = .ok text)
    (formed : ∀ count ∈ operands.count, count.Formed legible) :
    ∃ keyword tail, LineReads names ctx (some name) (.alloca operands) text keyword tail := by
  obtain ⟨allocated, count, align⟩ := operands
  cases count with
  | none =>
      cases spelled
      refine ⟨.alloca, " ".toList ++ (allocated.display.toList ++ (alignment align).toList),
        ?_, by simp, ?_⟩
      · simp [definition, Keyword.spelling]
      · filter_upwards [eventually_reads_ty allocated] with depth readsTy
        intro rest after
        have next : AfterTy ((alignment align).toList ++ rest) := by
          cases align with
          | none => exact after.afterTy
          | some align => simp [alignment, AfterTy]
        simp only [List.append_assoc, readOperands, readAlloca, bind_apply, token_append,
          Option.bind_some, readsTy _ next, readAlignment_append _ after]
        cases align with
        | some align => rfl
        | none =>
            obtain ⟨later, rfl⟩ := after
            have unlike : ¬", ".toList <+: '\n' :: later := by simp
            simp only [readCount, bind_apply, flag_of_not unlike, Option.bind_some,
              Bool.false_eq_true, if_false, pure_apply]
            rfl
  | some count =>
      obtain ⟨countText, countSpelled, same⟩ := Attempt.bind_eq_ok.mp spelled
      cases same
      refine ⟨.alloca, " ".toList ++ (allocated.display.toList ++ (", ".toList ++
        (countText.toList ++ (alignment align).toList))), ?_, by simp, ?_⟩
      · simp [definition, Keyword.spelling]
      · filter_upwards [eventually_reads_ty allocated,
          eventually_reads_typed names.symbol count countSpelled (formed count rfl)]
          with depth readsTy readsCount
        intro rest after
        simp only [List.append_assoc, readOperands, readAlloca, bind_apply, token_append,
          Option.bind_some, readsTy _ (afterTy_comma _), readAlignment_of_typed countSpelled,
          readCount, flag_append, if_true, readsCount _ (afterName_alignment _ after),
          readAlignment_append _ after, pure_apply]
        rfl

/-- What follows the operands of a `getelementptr` instruction. -/
theorem separatedBy_indices
    {depth : Nat} {texts : List String} {values : List Value} {rest : List Char}
    (reads : List.Forall₂ (Reads (readTyped names.symbol depth) AfterName)
      (texts.map String.toList) values)
    (after : AfterLine rest) :
    separatedBy ", ".toList (readTyped names.symbol depth) ((separated texts).toList ++ rest) =
        some (values, rest) ∧
      AfterName ((separated texts).toList ++ rest) := by
  constructor
  · have unlike : ¬", ".toList <+: rest := by
      obtain ⟨later, rfl⟩ := after
      simp
    rw [toList_separated]
    exact separatedBy_flatten reads afterName_comma (by simp) after.afterName unlike
  · cases texts with
    | nil => exact after.afterName
    | cons first others => simp [separated, isPlain]

/-- Whether an address is in bounds is read back. -/
theorem flag_inbounds (inbounds : Bool) (sourceTy : Ty) (rest : List Char) :
    flag "inbounds ".toList ((if inbounds then "inbounds " else "").toList ++
      (sourceTy.display.toList ++ (", ".toList ++ rest))) =
        some (inbounds, sourceTy.display.toList ++ (", ".toList ++ rest)) := by
  cases inbounds with
  | true => exact flag_append _ _
  | false =>
      apply flag_of_not
      intro marked
      have start : "in".toList <+: "inbounds ".toList := ⟨"bounds ".toList, rfl⟩
      exact sourceTy.not_prefix_in _ (start.trans marked)

/-- The line of the address of an element is read back. -/
theorem line_getElementPtr
    {operands : GetElementPtrOperands}
    (spelled : visitGetElementPtr operands (Value.fromRegister name ty) = .ok text)
    (formed : operands.Formed legible) :
    ∃ keyword tail,
      LineReads names ctx (some name) (.getElementPtr operands) text keyword tail := by
  obtain ⟨sourceTy, ptr, indices, inbounds⟩ := operands
  obtain ⟨texts, indicesSpelled, spelled⟩ := Attempt.bind_eq_ok.mp spelled
  obtain ⟨_, assigned, spelled⟩ := Attempt.bind_eq_ok.mp spelled
  cases assigned
  obtain ⟨ptrText, ptrSpelled, same⟩ := Attempt.bind_eq_ok.mp spelled
  cases same
  refine ⟨.getElementPtr, " ".toList ++ ((if inbounds then "inbounds " else "").toList ++
    (sourceTy.display.toList ++ (", ".toList ++ (ptrText.toList ++
      (separated texts).toList)))), ?_, by simp, ?_⟩
  · simp [definition, Keyword.spelling]
  · filter_upwards [eventually_reads_ty sourceTy,
      eventually_reads_typed names.symbol ptr ptrSpelled formed.1,
      eventually_reads_values names.symbol indices indicesSpelled formed.2]
      with depth readsTy readsPtr readsIndices
    intro rest after
    obtain ⟨later, next⟩ := separatedBy_indices names readsIndices after
    simp only [List.append_assoc, readOperands, readGetElementPtr, bind_apply, token_append,
      Option.bind_some, flag_inbounds, readsTy _ (afterTy_comma _), readsPtr _ next, later,
      pure_apply]
    rfl

/-! ## Calls -/

/-- An operand starts with its type, so it does not close a list. -/
theorem typedOperand_opens
    {value : Value} {valueText : String}
    (spelled : typedOperand value = .ok valueText) (rest : List Char) :
    ¬")".toList <+: valueText.toList ++ rest := by
  obtain ⟨ty, kind⟩ := value
  obtain ⟨kindText, _, same⟩ := Attempt.bind_eq_ok.mp spelled
  cases same
  rw [String.toList_append, String.toList_append, List.append_assoc, List.append_assoc]
  exact Ty.not_prefix_display (by decide) ty _

/-- No argument is written like the end of the arguments. -/
theorem typedOperands_open
    {values : List Value} {texts : List String}
    (spelled : typedOperands values = .ok texts) :
    ∀ text ∈ texts, ∀ rest, ¬")".toList <+: text.toList ++ rest := by
  induction values generalizing texts with
  | nil =>
      cases spelled
      simp
  | cons value values inductionHypothesis =>
      obtain ⟨first, firstSpelled, spelled⟩ := Attempt.bind_eq_ok.mp spelled
      obtain ⟨others, later, same⟩ := Attempt.bind_eq_ok.mp spelled
      cases same
      exact List.forall_mem_cons.mpr
        ⟨typedOperand_opens firstSpelled, inductionHypothesis later⟩

/-- Arguments are read back up to the parenthesis. -/
theorem eventually_reads_args
    {values : List Value} {texts : List String}
    (spelled : typedOperands values = .ok texts)
    (formed : ∀ value ∈ values, value.Formed legible) :
    ∀ᶠ depth in atTop, ∀ rest,
      joinedBy ", ".toList ")".toList (readTyped names.symbol depth)
          ((joined texts).toList ++ (")".toList ++ rest)) =
        some (values.map (Value.rename fun global => names.symbol global.name),
          ")".toList ++ rest) := by
  filter_upwards [eventually_reads_values names.symbol values spelled
    ((Value.allFormed_iff _).mpr formed)] with depth reads
  intro rest
  rw [Value.renameAll_eq] at reads
  apply joinedBy_joined _ afterName_comma (by simp [isPlain]) (by simp)
  apply (List.forall₂_and_left _ _).mpr
  exact ⟨typedOperands_open spelled, List.forall₂_map_left_iff.mp reads⟩

/-- The callee is read back, as a global or as a register. -/
theorem readCallee_append
    {funcName : FuncName} {rest : List Char}
    (plain : Plain funcName.str) :
    readCallee (funcName.sigil.toList ++ (funcName.str.toList ++ ("(".toList ++ rest))) =
      some (funcName, "(".toList ++ rest) := by
  have after : AfterName ("(".toList ++ rest) := by simp [isPlain]
  cases funcName with
  | global name =>
      have sigil : (FuncName.global name).sigil = "@" := rfl
      simp only [sigil, readCallee, bind_apply, flag_append, Option.bind_some, if_true,
        readName_append plain after, pure_apply]
      rfl
  | «local» name =>
      have sigil : (FuncName.local name).sigil = "%" := rfl
      have unlike : ¬"@".toList <+: "%".toList ++
          ((FuncName.local name).str.toList ++ ("(".toList ++ rest)) := by simp
      simp only [sigil, readCallee, bind_apply, flag_of_not unlike, Option.bind_some,
        Bool.false_eq_true, if_false, token_append, readName_append plain after, pure_apply]
      rfl

/-- The name of a well-formed callee is plain. -/
theorem FuncName.Formed.plain
    {funcName : FuncName}
    (formed : funcName.Formed legible) :
    Plain funcName.str := by
  cases funcName with
  | global name =>
      obtain ⟨global, named, plain⟩ := formed
      exact named ▸ plain
  | «local» name => exact formed

/-- The line of a call, once its operands are spelled. -/
theorem reads_call
    {operands : CallOperands} {texts : List String}
    (spelled : typedOperands operands.params = .ok texts)
    (callee : operands.funcName.Formed legible)
    (formed : ∀ param ∈ operands.params, param.Formed legible) :
    ∀ᶠ depth in atTop,
      Reads (readOperands names depth .call) AfterLine
        (" ".toList ++ (operands.returnTy.display.toList ++ (" ".toList ++
          (operands.funcName.sigil.toList ++ (operands.funcName.str.toList ++
            ("(".toList ++ ((joined texts).toList ++ ")".toList)))))))
        ((InstructionKind.call operands).rename (names.renaming ctx)) := by
  obtain ⟨funcName, returnTy, params⟩ := operands
  filter_upwards [eventually_reads_ty returnTy, eventually_reads_args names spelled formed]
    with depth readsTy readsArgs
  intro rest after
  have next (later : List Char) :
      AfterTy (" ".toList ++ (funcName.sigil.toList ++ later)) := by
    cases funcName with
    | global name => exact ⟨by simp, by simp [FuncName.sigil]⟩
    | «local» name => exact ⟨by simp, by simp [FuncName.sigil]⟩
  simp only [List.append_assoc, readOperands, readCall, bind_apply, token_append,
    Option.bind_some, readsTy _ (next _), readCallee_append callee.plain, readsArgs, pure_apply]
  rfl

/-- The line of a call with a result is read back. -/
theorem line_call
    {operands : CallOperands}
    (spelled : visitCall operands (some (Value.fromRegister name ty)) = .ok text)
    (callee : operands.funcName.Formed legible)
    (formed : ∀ param ∈ operands.params, param.Formed legible) :
    ∃ keyword tail, LineReads names ctx (some name) (.call operands) text keyword tail := by
  obtain ⟨texts, paramsSpelled, spelled⟩ := Attempt.bind_eq_ok.mp spelled
  obtain ⟨_, assigned, same⟩ := Attempt.bind_eq_ok.mp spelled
  cases assigned
  cases same
  refine ⟨.call, _, ?_, ?_, reads_call names paramsSpelled callee formed⟩
  · simp [definition, Keyword.spelling]
  · simp

/-- The line of a call without one is read back. -/
theorem line_voidCall
    {operands : CallOperands}
    (spelled : visitCall operands none = .ok text)
    (callee : operands.funcName.Formed legible)
    (formed : ∀ param ∈ operands.params, param.Formed legible) :
    ∃ keyword tail, LineReads names ctx none (.call operands) text keyword tail := by
  obtain ⟨texts, paramsSpelled, same⟩ := Attempt.bind_eq_ok.mp spelled
  cases same
  refine ⟨.call, _, ?_, ?_, reads_call names paramsSpelled callee formed⟩
  · simp [definition, Keyword.spelling]
  · simp

/-! ## Arithmetic, comparisons and conversions -/

/-- The operands of a comparison. -/
structure Pair (ty : Ty) (a b : Value) : Prop where
  aTy : a.ty = ty
  bTy : b.ty = ty
  aFormed : a.Formed legible
  bFormed : b.Formed legible

/-- The line of a comparison is read back. -/
theorem line_icmp
    {operands : ICmpOperands} {value : I1Value}
    (spelled : visitIcmp operands value = .ok text)
    (defines : value.val = Value.fromRegister name ty)
    (pair : Pair operands.ty operands.a operands.b) :
    ∃ keyword tail, LineReads names ctx (some name) (.icmp operands) text keyword tail := by
  obtain ⟨_, assigned, spelled⟩ := Attempt.bind_eq_ok.mp spelled
  rw [defines] at assigned
  cases assigned
  obtain ⟨aText, aSpelled, spelled⟩ := Attempt.bind_eq_ok.mp spelled
  obtain ⟨bText, bSpelled, same⟩ := Attempt.bind_eq_ok.mp spelled
  cases same
  refine ⟨.icmp, " ".toList ++ (operands.cond.toString.toList ++ (" ".toList ++
    (operands.ty.display.toList ++ (" ".toList ++ (aText.toList ++
      (", ".toList ++ bText.toList)))))), ?_, by simp, ?_⟩
  · simp [definition, Keyword.spelling]
  · filter_upwards [eventually_reads_pair names aSpelled bSpelled pair.aTy pair.bTy
      pair.aFormed pair.bFormed] with depth reads
    intro rest after
    have cond (rest : List Char) :
        ICond.read (operands.cond.toString.toList ++ (" ".toList ++ rest)) =
          some (operands.cond, " ".toList ++ rest) :=
      operands.cond.read_append (by simp)
    simp only [List.append_assoc, readOperands, readIcmp, bind_apply, token_append,
      Option.bind_some, cond, reads _ after.afterName, pure_apply, Value.ty_rename, pair.aTy]
    rfl

/-- The line of a comparison of floating-point numbers is read back. -/
theorem line_fcmp
    {operands : FCmpOperands} {value : I1Value}
    (spelled : visitFcmp operands value = .ok text)
    (defines : value.val = Value.fromRegister name ty)
    (pair : Pair operands.ty operands.a operands.b) :
    ∃ keyword tail, LineReads names ctx (some name) (.fcmp operands) text keyword tail := by
  obtain ⟨_, assigned, spelled⟩ := Attempt.bind_eq_ok.mp spelled
  rw [defines] at assigned
  cases assigned
  obtain ⟨aText, aSpelled, spelled⟩ := Attempt.bind_eq_ok.mp spelled
  obtain ⟨bText, bSpelled, same⟩ := Attempt.bind_eq_ok.mp spelled
  cases same
  refine ⟨.fcmp, " ".toList ++ (operands.cond.toString.toList ++ (" ".toList ++
    (operands.ty.display.toList ++ (" ".toList ++ (aText.toList ++
      (", ".toList ++ bText.toList)))))), ?_, by simp, ?_⟩
  · simp [definition, Keyword.spelling]
  · filter_upwards [eventually_reads_pair names aSpelled bSpelled pair.aTy pair.bTy
      pair.aFormed pair.bFormed] with depth reads
    intro rest after
    have cond (rest : List Char) :
        FCond.read (operands.cond.toString.toList ++ (" ".toList ++ rest)) =
          some (operands.cond, " ".toList ++ rest) :=
      operands.cond.read_append (by simp)
    simp only [List.append_assoc, readOperands, readFcmp, bind_apply, token_append,
      Option.bind_some, cond, reads _ after.afterName, pure_apply, Value.ty_rename, pair.aTy]
    rfl

/-- The line of an operation on integers is read back. -/
theorem line_ibinop
    {operands : IBinOpOperands}
    (spelled : visitIbinop operands (Value.fromRegister name ty) = .ok text)
    (pair : Pair operands.ty operands.a operands.b) :
    ∃ keyword tail, LineReads names ctx (some name) (.ibinop operands) text keyword tail := by
  obtain ⟨_, assigned, spelled⟩ := Attempt.bind_eq_ok.mp spelled
  cases assigned
  obtain ⟨aText, aSpelled, spelled⟩ := Attempt.bind_eq_ok.mp spelled
  obtain ⟨bText, bSpelled, same⟩ := Attempt.bind_eq_ok.mp spelled
  cases same
  refine ⟨.ibinop operands.op, " ".toList ++ (operands.ty.display.toList ++ (" ".toList ++
    (aText.toList ++ (", ".toList ++ bText.toList)))), ?_, by simp, ?_⟩
  · simp [definition, Keyword.spelling]
  · filter_upwards [eventually_reads_pair names aSpelled bSpelled pair.aTy pair.bTy
      pair.aFormed pair.bFormed] with depth reads
    intro rest after
    simp only [List.append_assoc, readOperands, readIbinop, bind_apply, token_append,
      Option.bind_some, reads _ after.afterName, pure_apply, Value.ty_rename, pair.aTy]
    rfl

/-- The line of an operation on floating-point numbers is read back. -/
theorem line_fbinop
    {operands : FBinOpOperands}
    (spelled : visitFbinop operands (Value.fromRegister name ty) = .ok text)
    (pair : Pair operands.ty operands.a operands.b) :
    ∃ keyword tail, LineReads names ctx (some name) (.fbinop operands) text keyword tail := by
  obtain ⟨_, assigned, spelled⟩ := Attempt.bind_eq_ok.mp spelled
  cases assigned
  obtain ⟨aText, aSpelled, spelled⟩ := Attempt.bind_eq_ok.mp spelled
  obtain ⟨bText, bSpelled, same⟩ := Attempt.bind_eq_ok.mp spelled
  cases same
  refine ⟨.fbinop operands.op, " ".toList ++ (operands.ty.display.toList ++ (" ".toList ++
    (aText.toList ++ (", ".toList ++ bText.toList)))), ?_, by simp, ?_⟩
  · simp [definition, Keyword.spelling]
  · filter_upwards [eventually_reads_pair names aSpelled bSpelled pair.aTy pair.bTy
      pair.aFormed pair.bFormed] with depth reads
    intro rest after
    simp only [List.append_assoc, readOperands, readFbinop, bind_apply, token_append,
      Option.bind_some, reads _ after.afterName, pure_apply, Value.ty_rename, pair.aTy]
    rfl

/-- The line of a negation is read back. -/
theorem line_fneg
    {operands : FNegOperands}
    (spelled : visitFneg operands (Value.fromRegister name ty) = .ok text)
    (sameTy : operands.value.ty = operands.ty) (formed : operands.value.Formed legible) :
    ∃ keyword tail, LineReads names ctx (some name) (.fneg operands) text keyword tail := by
  obtain ⟨_, assigned, spelled⟩ := Attempt.bind_eq_ok.mp spelled
  cases assigned
  obtain ⟨valueText, valueSpelled, same⟩ := Attempt.bind_eq_ok.mp spelled
  cases same
  refine ⟨.fneg, " ".toList ++ (operands.ty.display.toList ++ (" ".toList ++
    valueText.toList)), ?_, by simp, ?_⟩
  · simp [definition, Keyword.spelling]
  · filter_upwards [eventually_reads_behind names valueSpelled formed] with depth reads
    intro rest after
    rw [sameTy] at reads
    simp only [List.append_assoc, readOperands, readFneg, bind_apply, token_append,
      Option.bind_some, reads _ after.afterName, pure_apply, Value.ty_rename, sameTy]
    rfl

/-- The line of a conversion is read back. -/
theorem line_cast
    {operands : CastOperands}
    (spelled : visitCast operands (Value.fromRegister name ty) = .ok text)
    (sameTy : operands.value.ty = operands.srcTy) (formed : operands.value.Formed legible) :
    ∃ keyword tail, LineReads names ctx (some name) (.cast operands) text keyword tail := by
  obtain ⟨_, assigned, spelled⟩ := Attempt.bind_eq_ok.mp spelled
  cases assigned
  obtain ⟨valueText, valueSpelled, same⟩ := Attempt.bind_eq_ok.mp spelled
  cases same
  refine ⟨.cast operands.op, " ".toList ++ (operands.srcTy.display.toList ++ (" ".toList ++
    (valueText.toList ++ (" to ".toList ++ operands.destTy.display.toList)))), ?_, by simp, ?_⟩
  · simp [definition, Keyword.spelling]
  · filter_upwards [eventually_reads_behind names valueSpelled formed,
      eventually_reads_ty operands.destTy] with depth reads readsTy
    intro rest after
    rw [sameTy] at reads
    have next (rest : List Char) : AfterName (" to ".toList ++ rest) := by simp [isPlain]
    simp only [List.append_assoc, readOperands, readCast, bind_apply, token_append,
      Option.bind_some, reads _ (next _), readsTy _ after.afterTy, pure_apply,
      Value.ty_rename, sameTy]
    rfl

/-- The line of a choice is read back. -/
theorem line_select
    {operands : SelectOperands}
    (spelled : visitSelect operands (Value.fromRegister name ty) = .ok text)
    (condFormed : operands.cond.val.Formed legible)
    (pair : Pair operands.armsTy operands.trueArm operands.falseArm) :
    ∃ keyword tail, LineReads names ctx (some name) (.select operands) text keyword tail := by
  obtain ⟨_, assigned, spelled⟩ := Attempt.bind_eq_ok.mp spelled
  cases assigned
  obtain ⟨condText, condSpelled, spelled⟩ := Attempt.bind_eq_ok.mp spelled
  obtain ⟨trueText, trueSpelled, spelled⟩ := Attempt.bind_eq_ok.mp spelled
  obtain ⟨falseText, falseSpelled, same⟩ := Attempt.bind_eq_ok.mp spelled
  cases same
  refine ⟨.select, " i1 ".toList ++ (condText.toList ++ (", ".toList ++
    (operands.armsTy.display.toList ++ (" ".toList ++ (trueText.toList ++ (", ".toList ++
      (operands.armsTy.display.toList ++ (" ".toList ++ falseText.toList)))))))),
    ?_, by simp, ?_⟩
  · simp [definition, Keyword.spelling]
  · filter_upwards [eventually_reads_cond names condSpelled condFormed,
      eventually_reads_behind names trueSpelled pair.aFormed,
      eventually_reads_behind names falseSpelled pair.bFormed]
      with depth readsCond readsTrue readsFalse
    intro rest after
    rw [pair.aTy] at readsTrue
    rw [pair.bTy] at readsFalse
    simp only [List.append_assoc, readOperands, readSelect, bind_apply, token_append,
      Option.bind_some, readsCond _ (afterName_comma _), readsTrue _ (afterName_comma _),
      readsFalse _ after.afterName, pure_apply, Value.ty_rename, pair.aTy, I1Value.rename_eq]
    rfl

end Llvm
end TraceWasm
