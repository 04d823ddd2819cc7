import TraceWasm.Llvm.Consistency
import TraceWasm.Llvm.WellFormed

/-!
# Operands that are handed out

A caller cannot make up a register or a symbol. It has them from the builders, and a
value that it builds from a constant expression has the type of the expression.
-/

namespace TraceWasm
namespace Llvm

/-- The name is of the form in which registers are named. -/
def Issuable (name : String) : Prop :=
  isIdentifier name = true ∨ ∃ n : Nat, name = toString n

/-- The symbol is one of the context. -/
def Context.Handle (self : Context) : Global → Prop
  | .variable name => name ∈ self.globalVariables
  | .declaredFunc name => name ∈ self.importedFunctions
  | .definedFunc name id =>
      id ∈ self.functions ∧ ∃ func, self.funcs[id]? = some func ∧ func.name = name

/-- What the registers and symbols of an operand can be. -/
def Context.handles (self : Context) : Leaves where
  reg := Issuable
  symbol := self.Handle
  const := fun _ => True

/-! ## The operands of a call -/

/-- The callee was handed out by the context. -/
def FuncRef.Made (ctx : Context) : FuncRef → Prop
  | .defined name id => ctx.Handle (.definedFunc name id)
  | .declared name => ctx.Handle (.declaredFunc name)
  | .pointer ptr _ => ptr.Formed ctx.handles

namespace CursorCall

/-- The values that a call of the cursor is given. -/
def values : CursorCall → List Value
  | .unconditionalBr _ | .unreachable => []
  | .conditionalBr cond _ _ => [cond.val]
  | .ret val _ => val.toList
  | .switch condVal _ _ _ => [condVal]
  | .alloca _ count _ _ => count.toList.map (·.1)
  | .load ptr _ _ _ => [ptr]
  | .store ptr value _ _ => [ptr, value]
  | .getElementPtr ptr _ indices _ _ => ptr :: indices
  | .call _ params _ _ => params.map (·.1)
  | .voidCall _ params => params.map (·.1)
  | .icmp _ _ a b _ => [a, b]
  | .ibinop _ _ a b _ => [a, b]
  | .fcmp _ _ a b _ => [a, b]
  | .fbinop _ _ a b _ => [a, b]
  | .fneg value _ => [value]
  | .cast _ value _ _ _ => [value]
  | .select cond _ trueArm falseArm _ => [cond.val, trueArm, falseArm]

/-- The function that a call of the cursor is given. -/
def callee : CursorCall → Option FuncRef
  | .call func _ _ _ => some func
  | .voidCall func _ => some func
  | _ => none

end CursorCall

/-- The operands of the call come from the context. -/
def Call.Made (ctx : Context) : Call → Prop
  | .addBasicBlock _ _ | .declareFunction _ _ _ | .defineFunction _ _ _ => True
  | .declareGlobalVariable _ _ initializer => ∀ expr ∈ initializer, expr.Formed ctx.handles
  | .buildPhi _ branches _ => ∀ branch ∈ branches, branch.2.Formed ctx.handles
  | .addBranch _ branch => branch.2.Formed ctx.handles
  | .build _ call =>
      (∀ value ∈ call.values, value.Formed ctx.handles) ∧
        ∀ func ∈ call.callee, func.Made ctx

/-! ## Folding keeps operands well formed -/

section Folding

variable {leaves : Leaves} {value casted a b : Value} {ty : Ty}
  {signedness : Signedness}

/-- A constant is folded to the type that is asked for. -/
theorem ConstValue.ty_tryCast
    {value casted : ConstValue} :
    value.tryCast ty signedness = some casted → casted.ty = ty := by
  cases value with
  | i1 val _ =>
      change i8TryCast val ty signedness = some casted → _
      fun_cases i8TryCast val ty signedness <;> rintro ⟨⟩ <;> rfl
  | i8 val =>
      change i8TryCast val ty signedness = some casted → _
      fun_cases i8TryCast val ty signedness <;> rintro ⟨⟩ <;> rfl
  | i16 val =>
      change i16TryCast val ty signedness = some casted → _
      fun_cases i16TryCast val ty signedness <;> rintro ⟨⟩ <;> rfl
  | i32 val =>
      change i32TryCast val ty signedness = some casted → _
      fun_cases i32TryCast val ty signedness <;> rintro ⟨⟩ <;> rfl
  | i64 val =>
      change i64TryCast val ty signedness = some casted → _
      fun_cases i64TryCast val ty signedness <;> rintro ⟨⟩ <;> rfl
  | float bits =>
      change f32TryCast bits ty = some casted → _
      fun_cases f32TryCast bits ty <;> rintro ⟨⟩ <;> rfl
  | double bits =>
      change f64TryCast bits ty = some casted → _
      fun_cases f64TryCast bits ty <;> rintro ⟨⟩ <;> rfl
  | nullPtr =>
      unfold ConstValue.tryCast
      dsimp only
      split <;> rintro ⟨⟩
      exact Eq.symm ‹ty = .ptr›

/-- A cast value is well formed, with the type that it is cast to. -/
theorem Value.tryCast_formed
    (const : ∀ value, leaves.const value) (formed : value.Formed leaves)
    (casts : value.tryCast ty signedness = some casted) :
    casted.Formed leaves ∧ casted.ty = ty := by
  unfold Value.tryCast at casts
  split at casts
  · cases casts
  · split at casts
    case h_1 constValue _ =>
      obtain ⟨folded, folds, same⟩ := Option.bind_eq_some_iff.mp casts
      cases same
      exact ⟨⟨ConstValue.ty_tryCast folds, const _⟩, rfl⟩
    case h_2 =>
      split at casts
      · cases casts
      · cases casts
        exact ⟨formed, not_not.mp ‹_›⟩

/-- So are two values cast to a common type. -/
theorem Value.tryCastTwo_formed
    {operandTy : OperandTy} {first second : Value}
    (const : ∀ value, leaves.const value) (aFormed : a.Formed leaves) (bFormed : b.Formed leaves)
    (casts : Value.tryCastTwo a b operandTy signedness = some (first, second)) :
    first.Formed leaves ∧ second.Formed leaves ∧ second.ty = first.ty := by
  unfold Value.tryCastTwo at casts
  cases operandTy with
  | asserted ty =>
      obtain ⟨firstCasted, firstCasts, casts⟩ := Option.bind_eq_some_iff.mp casts
      obtain ⟨secondCasted, secondCasts, same⟩ := Option.bind_eq_some_iff.mp casts
      cases same
      obtain ⟨firstFormed, firstTy⟩ := Value.tryCast_formed const aFormed firstCasts
      obtain ⟨secondFormed, secondTy⟩ := Value.tryCast_formed const bFormed secondCasts
      exact ⟨firstFormed, secondFormed, secondTy.trans firstTy.symm⟩
  | inferred =>
      dsimp only at casts
      split at casts
      · cases casts
        exact ⟨aFormed, bFormed, Eq.symm ‹_›⟩
      · obtain ⟨aWidth, -, casts⟩ := Option.bind_eq_some_iff.mp casts
        obtain ⟨bWidth, -, casts⟩ := Option.bind_eq_some_iff.mp casts
        split at casts
        · obtain ⟨secondCasted, secondCasts, same⟩ := Option.bind_eq_some_iff.mp casts
          cases same
          exact ⟨aFormed, Value.tryCast_formed const bFormed secondCasts⟩
        · obtain ⟨firstCasted, firstCasts, same⟩ := Option.bind_eq_some_iff.mp casts
          cases same
          obtain ⟨firstFormed, firstTy⟩ := Value.tryCast_formed const aFormed firstCasts
          exact ⟨firstFormed, bFormed, firstTy.symm⟩

/-- So is a value cast to the type that is asserted. -/
theorem Value.castAsserted_formed
    {ε : Type} {operandTy : OperandTy} {refused : Ty → ε}
    (const : ∀ value, leaves.const value) (formed : value.Formed leaves) :
    (value.castAsserted operandTy refused).Returns (Value.Formed leaves) := by
  cases operandTy with
  | asserted ty =>
      simp only [Value.castAsserted, Attempt.returns_orFail]
      exact fun casted casts => (Value.tryCast_formed const formed casts).1
  | inferred =>
      simp only [Value.castAsserted, Attempt.pure_eq, Attempt.returns_ok]
      exact formed

end Folding

/-! ## What the builders write -/

/-- What is written is well formed, and a register has the type of its instruction. -/
def Write.Formed (leaves : Leaves) : Write → Prop
  | .define kind ty _ => kind.Formed leaves ∧ kind.resultTy = some ty
  | .append kind | .terminate kind => kind.Formed leaves

/-- What calls nothing is well formed if its operands are. -/
theorem InstructionKind.Formed.of_noCallee
    {leaves : Leaves} {kind : InstructionKind}
    (noCallee : kind.callee = none) (typed : kind.Typed)
    (values : ∀ value ∈ kind.values, value.Formed leaves) :
    kind.Formed leaves where
  typed := typed
  values := values
  callee := by simp [noCallee]

section Writes

variable {ctx : Context} {id : BasicBlockId}

/-- The cases of a switch have the type of its condition. -/
theorem formed_of_switchCases
    {index : Nat} {caseVals : List ConstValue} {cases : List (ConstValue × BasicBlockId)} :
    (switchCases condTy index caseVals cases).Returns fun finalCases =>
      ∀ case ∈ finalCases, case.1.ty = condTy := by
  induction cases generalizing index caseVals with
  | nil => simp [switchCases]
  | cons case cases inductionHypothesis =>
      simp only [switchCases, Attempt.returns_bind, Attempt.returns_orFail,
        Attempt.returns_require, Attempt.pure_eq, Attempt.returns_ok, List.forall_mem_cons]
      intro casted casts _
      refine inductionHypothesis.mono fun rest typed => ?_
      exact ⟨ConstValue.ty_tryCast casts, typed⟩

/-- Arguments cast to the parameter types are well formed. -/
theorem formed_of_castParams
    {leaves : Leaves} {index : Nat} {params : List (Value × OperandTy)} {expected : List Ty}
    (const : ∀ value, leaves.const value)
    (formed : ∀ param ∈ params, param.1.Formed leaves) :
    (castParams name index params expected).Returns fun finalParams =>
      ∀ param ∈ finalParams, param.Formed leaves := by
  induction params generalizing index expected with
  | nil => simp [castParams]
  | cons param params inductionHypothesis =>
      obtain ⟨here, later⟩ := List.forall_mem_cons.mp formed
      cases expected with
      | nil => simp [castParams]
      | cons expectedTy expected =>
          simp only [castParams, Attempt.returns_bind, Attempt.returns_require, Attempt.pure_eq,
            Attempt.returns_ok, List.forall_mem_cons]
          refine (Value.castAsserted_formed const here).mono fun finalVal casted _ => ?_
          exact (inductionHypothesis later).mono fun rest formed => ⟨casted, formed⟩

/-- So are arguments checked against a signature. -/
theorem formed_of_tryCastParams
    {leaves : Leaves} {params : List (Value × OperandTy)} {expected : List Ty}
    (const : ∀ value, leaves.const value)
    (formed : ∀ param ∈ params, param.1.Formed leaves) :
    (tryCastParamAndCheckWithFuncSignature name params expected).Returns fun finalParams =>
      ∀ param ∈ finalParams, param.Formed leaves := by
  simp only [tryCastParamAndCheckWithFuncSignature, Attempt.returns_bind, Attempt.returns_require]
  exact fun _ => formed_of_castParams const formed

/-- The callee is named as it is in the context, or is held by a register. -/
theorem formed_of_nameAndSig
    {func : FuncRef}
    (made : func.Made ctx) :
    (func.nameAndSig ctx).Returns fun callee => callee.1.Formed ctx.handles := by
  cases func with
  | defined name id =>
      unfold FuncRef.nameAndSig
      dsimp only
      split
      · simp
      · simp only [Attempt.pure_eq, Attempt.returns_ok]
        exact ⟨.definedFunc name id, rfl, made⟩
      · simp
  | declared name =>
      unfold FuncRef.nameAndSig
      dsimp only
      split
      · simp
      · simp only [Attempt.pure_eq, Attempt.returns_ok]
        exact ⟨.declaredFunc name, rfl, made⟩
      · simp
  | pointer ptr sig =>
      obtain ⟨ty, kind⟩ := ptr
      unfold FuncRef.nameAndSig
      dsimp only
      split
      · simp
      · cases kind with
        | reg name =>
            simp only [Attempt.pure_eq, Attempt.returns_ok]
            exact made
        | constExpr expr => simp
        | global global => simp

/-- A call of a well-formed callee with checked arguments is well formed. -/
theorem formed_of_calleeAndParams
    {callee : FuncName} {params : List (Value × OperandTy)} {expected : List Ty}
    (calleeFormed : callee.Formed ctx.handles)
    (formed : ∀ param ∈ params, param.1.Formed ctx.handles) (returnTy : Ty) :
    (tryCastParamAndCheckWithFuncSignature name params expected).Returns fun finalParams =>
      (InstructionKind.call ⟨callee, returnTy, finalParams⟩).Formed ctx.handles := by
  refine (formed_of_tryCastParams (fun _ => trivial) formed).mono fun finalParams formed => ?_
  exact
    { typed := trivial
      values := formed
      callee := fun name called => Option.some.inj called ▸ calleeFormed }

/-- So is a call with a result. -/
theorem formed_of_callOperands
    {func : FuncRef} {params : List (Value × OperandTy)} {returnTy : OperandTy}
    (made : func.Made ctx) (formed : ∀ param ∈ params, param.1.Formed ctx.handles) :
    (callOperands ctx func params returnTy).Returns fun operands =>
      (InstructionKind.call operands).Formed ctx.handles := by
  simp only [callOperands, Attempt.returns_bind]
  refine (formed_of_nameAndSig made).mono fun callee calleeFormed => ?_
  cases returnTy <;>
    simp only [Attempt.returns_bind, Attempt.returns_require, Attempt.pure_eq,
      Attempt.returns_ok]
  case asserted =>
    intro _ _
    exact formed_of_calleeAndParams calleeFormed formed _
  case inferred =>
    intro _
    exact formed_of_calleeAndParams calleeFormed formed _

/-- So is a call without one. -/
theorem formed_of_voidCallOperands
    {func : FuncRef} {params : List (Value × OperandTy)}
    (made : func.Made ctx) (formed : ∀ param ∈ params, param.1.Formed ctx.handles) :
    (voidCallOperands ctx func params).Returns fun operands =>
      (InstructionKind.call operands).Formed ctx.handles := by
  simp only [voidCallOperands, Attempt.returns_bind, Attempt.returns_require, Attempt.pure_eq,
    Attempt.returns_ok]
  refine (formed_of_nameAndSig made).mono fun callee calleeFormed _ => ?_
  exact formed_of_calleeAndParams calleeFormed formed _

/-- The count of an allocation is well formed. -/
theorem formed_of_allocaCount
    {leaves : Leaves} {count : Option (Value × OperandTy)}
    (const : ∀ value, leaves.const value)
    (formed : ∀ given ∈ count, given.1.Formed leaves) :
    (allocaCount count).Returns fun count => ∀ value ∈ count, value.Formed leaves := by
  cases count with
  | none => simp [allocaCount]
  | some given =>
      obtain ⟨countVal, countTy⟩ := given
      have casted := @Value.castAsserted_formed leaves countVal AllocaError countTy
        (fun expected => AllocaError.allocaCountTypeMismatch countVal.ty expected) const
        (formed _ rfl)
      have casted := casted.mono fun value formed =>
        (fun other same => Option.some.inj same ▸ formed :
          ∀ other ∈ some value, other.Formed leaves)
      cases countTy with
      | asserted expected =>
          simp only [allocaCount, Attempt.returns_bind, Attempt.returns_require, Attempt.pure_eq,
            Attempt.returns_ok]
          exact fun _ _ => casted
      | inferred =>
          simp only [allocaCount, Attempt.returns_bind, Attempt.returns_require, Attempt.pure_eq,
            Attempt.returns_ok]
          exact fun _ => casted

/-- The operands of a return are well formed. -/
theorem formed_of_retOperands
    {leaves : Leaves} {val : Option Value} {ty : OperandTy}
    (const : ∀ value, leaves.const value)
    (formed : ∀ value ∈ val, value.Formed leaves) :
    (retOperands val ty).Returns fun operands =>
      (InstructionKind.ret operands).Formed leaves := by
  cases val with
  | none =>
      cases ty with
      | asserted ty =>
          simp only [retOperands, Attempt.returns_bind, Attempt.returns_require, Attempt.pure_eq,
            Attempt.returns_ok]
          intro _
          apply InstructionKind.Formed.of_noCallee rfl
          · simp [InstructionKind.Typed]
          · simp [InstructionKind.values]
      | inferred => simp [retOperands]
  | some val =>
      cases ty with
      | asserted ty =>
          simp only [retOperands, Attempt.returns_bind, Attempt.returns_require, Attempt.pure_eq,
            Attempt.returns_ok, Attempt.returns_orFail]
          intro _ casted casts
          obtain ⟨castedFormed, typed⟩ := Value.tryCast_formed const (formed _ rfl) casts
          apply InstructionKind.Formed.of_noCallee rfl
          · simp [InstructionKind.Typed, typed]
          · simpa [InstructionKind.values] using castedFormed
      | inferred =>
          simp only [retOperands, Attempt.pure_eq, Attempt.returns_ok]
          apply InstructionKind.Formed.of_noCallee rfl
          · simp [InstructionKind.Typed]
          · simpa [InstructionKind.values] using formed _ rfl

/-- A builder writes well-formed instructions of well-formed operands. -/
theorem formed_of_write
    {call : CursorCall}
    (made : (Call.build id call).Made ctx) :
    (call.write ctx id).Returns (Write.Formed ctx.handles) := by
  obtain ⟨values, callees⟩ := made
  have const : ∀ value, ctx.handles.const value := fun _ => trivial
  cases call with
  | unconditionalBr label =>
      simp only [CursorCall.write, buildUnconditionalBr, Attempt.pure_eq, Attempt.returns_ok]
      exact .of_noCallee rfl trivial values
  | conditionalBr cond trueLabel falseLabel =>
      simp only [CursorCall.write, buildConditionalBr, Attempt.pure_eq, Attempt.returns_ok]
      exact .of_noCallee rfl trivial values
  | ret val ty =>
      simp only [CursorCall.write, buildRet, Attempt.returns_bind, Attempt.returns_require,
        Attempt.returns_mapError, Attempt.pure_eq, Attempt.returns_ok]
      have given : ∀ value ∈ val, value.Formed ctx.handles := by
        simpa [CursorCall.values] using values
      refine (formed_of_retOperands const given).mono fun operands formed => ?_
      exact fun _ _ _ _ _ => formed
  | «switch» condVal condTy defaultLabel cases =>
      simp only [CursorCall.write, buildSwitch, Attempt.returns_bind, Attempt.returns_require,
        Attempt.returns_mapError, Attempt.pure_eq, Attempt.returns_ok]
      have given : condVal.Formed ctx.handles := by simpa [CursorCall.values] using values
      refine (Value.castAsserted_formed const given).mono fun casted formed integer => ?_
      refine formed_of_switchCases.mono fun finalCases typed => ?_
      apply InstructionKind.Formed.of_noCallee rfl
      · exact ⟨integer, rfl, typed⟩
      · simpa [InstructionKind.values] using formed
  | unreachable =>
      simp only [CursorCall.write, buildUnreachable, Attempt.pure_eq, Attempt.returns_ok]
      exact .of_noCallee rfl trivial values
  | alloca ty count align reg =>
      simp only [CursorCall.write, buildAlloca, Attempt.returns_bind, Attempt.returns_require,
        Attempt.returns_mapError, Attempt.pure_eq, Attempt.returns_ok]
      have given : ∀ given ∈ count, given.1.Formed ctx.handles := by
        simpa [CursorCall.values] using values
      intro _ _ _
      refine (formed_of_allocaCount const given).mono fun finalCount formed => ?_
      refine ⟨.of_noCallee rfl trivial ?_, rfl⟩
      simpa [InstructionKind.values] using formed
  | load ptr ty align reg =>
      simp only [CursorCall.write, buildLoad, Attempt.returns_bind, Attempt.returns_require,
        Attempt.pure_eq, Attempt.returns_ok]
      intro _ _ _ _ _ _ _
      exact ⟨.of_noCallee rfl trivial values, rfl⟩
  | store ptr value ty align =>
      simp only [CursorCall.write, buildStore, Attempt.returns_bind, Attempt.returns_require]
      have given : ptr.Formed ctx.handles ∧ value.Formed ctx.handles := by
        simpa [CursorCall.values] using values
      intro _ _ _
      refine (Value.castAsserted_formed const given.2).mono fun finalVal formed pointee _ => ?_
      have written : (InstructionKind.store ⟨finalVal, ptr, align⟩).Formed ctx.handles :=
        .of_noCallee rfl trivial (by simpa [InstructionKind.values] using ⟨formed, given.1⟩)
      cases pointee <;> simp [Write.Formed, written]
  | getElementPtr ptr sourceTy indices inbounds reg =>
      simp only [CursorCall.write, buildGetElementPtr, Attempt.returns_bind,
        Attempt.returns_require]
      intro _ _ _ _ _ finalTy _
      have written : (InstructionKind.getElementPtr
          ⟨finalTy, ptr, indices, inbounds.getD false⟩).Formed ctx.handles :=
        .of_noCallee rfl trivial values
      split <;> simp [Write.Formed, InstructionKind.resultTy, written]
  | call func params returnTy reg =>
      simp only [CursorCall.write, buildCall, Attempt.returns_bind, Attempt.returns_mapError,
        Attempt.pure_eq, Attempt.returns_ok]
      have given : ∀ param ∈ params, param.1.Formed ctx.handles := by
        simpa [CursorCall.values] using values
      refine (formed_of_callOperands (callees func rfl) given).mono fun operands formed => ?_
      exact ⟨formed, rfl⟩
  | voidCall func params =>
      simp only [CursorCall.write, buildVoidCall, Attempt.returns_bind, Attempt.returns_mapError,
        Attempt.pure_eq, Attempt.returns_ok]
      have given : ∀ param ∈ params, param.1.Formed ctx.handles := by
        simpa [CursorCall.values] using values
      exact formed_of_voidCallOperands (callees func rfl) given
  | icmp cond ty a b reg =>
      have given : a.Formed ctx.handles ∧ b.Formed ctx.handles := by
        simpa [CursorCall.values] using values
      have operands : (icmpOperands cond ty a b).Returns fun operands =>
          operands.1.Formed ctx.handles ∧ operands.2.Formed ctx.handles ∧
            operands.2.ty = operands.1.ty := by
        unfold icmpOperands
        split
        · simp only [Attempt.returns_orFail]
          rintro ⟨first, second⟩ casts
          exact Value.tryCastTwo_formed const given.1 given.2 casts
        · simp only [Attempt.returns_bind, Attempt.returns_require]
          intro same
          cases ty <;> simp [given, same]
      simp only [CursorCall.write, buildIcmp, Attempt.returns_bind, Attempt.returns_require,
        Attempt.returns_mapError, Attempt.pure_eq, Attempt.returns_ok]
      refine operands.mono fun operands formed _ => ?_
      refine ⟨.of_noCallee rfl ⟨rfl, formed.2.2⟩ ?_, rfl⟩
      simpa [InstructionKind.values] using ⟨formed.1, formed.2.1⟩
  | ibinop op ty a b reg =>
      have given : a.Formed ctx.handles ∧ b.Formed ctx.handles := by
        simpa [CursorCall.values] using values
      simp only [CursorCall.write, buildIbinop, Attempt.returns_bind, Attempt.returns_require,
        Attempt.returns_orFail, Attempt.pure_eq, Attempt.returns_ok]
      rintro ⟨first, second⟩ casts _
      obtain ⟨aFormed, bFormed, typed⟩ :=
        Value.tryCastTwo_formed const given.1 given.2 casts
      refine ⟨.of_noCallee rfl ⟨rfl, typed⟩ ?_, rfl⟩
      simpa [InstructionKind.values] using ⟨aFormed, bFormed⟩
  | fcmp cond ty a b reg =>
      have given : a.Formed ctx.handles ∧ b.Formed ctx.handles := by
        simpa [CursorCall.values] using values
      simp only [CursorCall.write, buildFcmp, Attempt.returns_bind, Attempt.returns_require,
        Attempt.returns_orFail, Attempt.pure_eq, Attempt.returns_ok]
      rintro ⟨first, second⟩ casts _
      obtain ⟨aFormed, bFormed, typed⟩ :=
        Value.tryCastTwo_formed const given.1 given.2 casts
      refine ⟨.of_noCallee rfl ⟨rfl, typed⟩ ?_, rfl⟩
      simpa [InstructionKind.values] using ⟨aFormed, bFormed⟩
  | fbinop op ty a b reg =>
      have given : a.Formed ctx.handles ∧ b.Formed ctx.handles := by
        simpa [CursorCall.values] using values
      simp only [CursorCall.write, buildFbinop, Attempt.returns_bind, Attempt.returns_require,
        Attempt.returns_orFail, Attempt.pure_eq, Attempt.returns_ok]
      rintro ⟨first, second⟩ casts _
      obtain ⟨aFormed, bFormed, typed⟩ :=
        Value.tryCastTwo_formed const given.1 given.2 casts
      refine ⟨.of_noCallee rfl ⟨rfl, typed⟩ ?_, rfl⟩
      simpa [InstructionKind.values] using ⟨aFormed, bFormed⟩
  | fneg value reg =>
      simp only [CursorCall.write, buildFneg, Attempt.returns_bind, Attempt.returns_require,
        Attempt.pure_eq, Attempt.returns_ok]
      exact fun _ => ⟨.of_noCallee rfl rfl values, rfl⟩
  | cast op value src dest reg =>
      have given : value.Formed ctx.handles := by simpa [CursorCall.values] using values
      simp only [CursorCall.write, buildCast, Attempt.returns_bind, Attempt.returns_require,
        Attempt.pure_eq, Attempt.returns_ok]
      refine (Value.castAsserted_formed const given).mono fun casted formed _ => ?_
      refine ⟨.of_noCallee rfl rfl ?_, rfl⟩
      simpa [InstructionKind.values] using formed
  | select cond armsTy trueArm falseArm reg =>
      have given : cond.val.Formed ctx.handles ∧ trueArm.Formed ctx.handles ∧
          falseArm.Formed ctx.handles := by
        simpa [CursorCall.values] using values
      simp only [CursorCall.write, buildSelect, Attempt.returns_bind, Attempt.returns_require,
        Attempt.returns_orFail, Attempt.pure_eq, Attempt.returns_ok]
      rintro ⟨first, second⟩ casts _
      obtain ⟨aFormed, bFormed, typed⟩ :=
        Value.tryCastTwo_formed const given.2.1 given.2.2 casts
      refine ⟨.of_noCallee rfl ⟨rfl, typed⟩ ?_, rfl⟩
      simpa [InstructionKind.values] using ⟨given.1, aFormed, bFormed⟩

end Writes

end Llvm
end TraceWasm
