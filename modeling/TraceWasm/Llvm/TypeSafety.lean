import TraceWasm.Llvm.Checking
import TraceWasm.Llvm.Extension

/-!
# Well-typed graphs

Whatever calls are made, in any order, every instruction in the graph is well typed, as
long as no call has a type without a size read off its operand.
-/

namespace TraceWasm
namespace Llvm

/-- What is written is well typed, and a register has the type of its instruction. -/
def Write.WellTyped (ctx : Context) (f : FuncId) : Write → Prop
  | .define kind ty _ => kind.WellTyped ctx f ∧ kind.resultTy = some ty
  | .append kind | .terminate kind => kind.WellTyped ctx f

section Writes

variable {ctx : Context} {id : BasicBlockId} {block : BasicBlock}

/-! ## Parts of an instruction -/

/-- The cases of a switch are distinct. -/
theorem distinct_of_switchCases
    {index : Nat} {caseVals : List ConstValue} {cases : List (ConstValue × BasicBlockId)} :
    (switchCases condTy index caseVals cases).Returns fun finalCases =>
      (finalCases.map (·.1)).Nodup ∧ ∀ case ∈ finalCases, case.1 ∉ caseVals := by
  induction cases generalizing index caseVals with
  | nil => simp [switchCases]
  | cons case cases inductionHypothesis =>
      simp only [switchCases, Attempt.returns_bind, Attempt.returns_orFail,
        Attempt.returns_require, Attempt.pure_eq, Attempt.returns_ok, List.map_cons,
        List.nodup_cons, List.forall_mem_cons]
      intro casted _ new
      refine inductionHypothesis.mono fun rest distinct => ?_
      refine ⟨⟨?_, distinct.1⟩, new, fun case member seen => ?_⟩
      · intro again
        obtain ⟨case, member, same⟩ := List.mem_map.mp again
        exact distinct.2 case member (same ▸ List.mem_cons_self)
      · exact distinct.2 case member (List.mem_cons_of_mem _ seen)

/-- Arguments are cast to the parameter types. -/
theorem types_of_castParams
    {index : Nat} {params : List (Value × OperandTy)} {expected : List Ty}
    (count : params.length = expected.length) :
    (castParams name index params expected).Returns fun finalParams =>
      finalParams.map (·.ty) = expected := by
  induction params generalizing index expected with
  | nil =>
      cases expected with
      | nil => simp [castParams]
      | cons => cases count
  | cons param params inductionHypothesis =>
      cases expected with
      | nil => cases count
      | cons expectedTy expected =>
          simp only [castParams, Attempt.returns_bind, Attempt.returns_require, Attempt.pure_eq,
            Attempt.returns_ok, List.map_cons]
          intro finalVal _ typed
          refine (inductionHypothesis (Nat.succ.inj count)).mono fun rest types => ?_
          rw [typed, types]

/-- So are arguments checked against a signature. -/
theorem types_of_tryCastParams
    {params : List (Value × OperandTy)} {expected : List Ty} :
    (tryCastParamAndCheckWithFuncSignature name params expected).Returns fun finalParams =>
      finalParams.map (·.ty) = expected := by
  simp only [tryCastParamAndCheckWithFuncSignature, Attempt.returns_bind, Attempt.returns_require]
  exact types_of_castParams

/-- A callee that is called by its name has the signature that is looked up. -/
theorem known_of_nameAndSig
    {func : FuncRef} :
    (func.nameAndSig ctx).Returns fun callee =>
      ∀ name, callee.1 = .global name → ctx.globals name = some (.func callee.2) := by
  cases func with
  | pointer ptr sig =>
      obtain ⟨ty, kind⟩ := ptr
      unfold FuncRef.nameAndSig
      dsimp only
      split
      · simp
      · cases kind <;> simp
  | _ =>
      unfold FuncRef.nameAndSig
      dsimp only
      split
      · simp
      case h_2 sig known =>
        simp only [Attempt.pure_eq, Attempt.returns_ok]
        rintro _ ⟨rfl⟩
        exact known
      · simp

/-- A call with a result is well typed. -/
theorem wellTyped_of_callOperands
    {func : FuncRef} {params : List (Value × OperandTy)} {returnTy : OperandTy} {f : FuncId} :
    (callOperands ctx func params returnTy).Returns fun operands =>
      (InstructionKind.call operands).WellTyped ctx f := by
  simp only [callOperands, Attempt.returns_bind]
  refine known_of_nameAndSig.mono fun callee known => ?_
  have checked : (tryCastParamAndCheckWithFuncSignature callee.1.str params
      callee.2.params).Returns fun finalParams =>
        (InstructionKind.call ⟨callee.1, callee.2.result, finalParams⟩).WellTyped ctx f :=
    types_of_tryCastParams.mono fun finalParams types => ⟨callee.2, known, types, rfl⟩
  cases returnTy <;>
    simp only [Attempt.returns_bind, Attempt.returns_require, Attempt.pure_eq, Attempt.returns_ok]
  · exact fun _ _ => checked
  · exact fun _ => checked

/-- A call without one is well typed. -/
theorem wellTyped_of_voidCallOperands
    {func : FuncRef} {params : List (Value × OperandTy)} {f : FuncId} :
    (voidCallOperands ctx func params).Returns fun operands =>
      (InstructionKind.call operands).WellTyped ctx f := by
  simp only [voidCallOperands, Attempt.returns_bind, Attempt.returns_require, Attempt.pure_eq,
    Attempt.returns_ok]
  refine known_of_nameAndSig.mono fun callee known void => ?_
  exact types_of_tryCastParams.mono fun finalParams types => ⟨callee.2, known, types, void.symm⟩

/-- The count of an allocation is an integer. -/
theorem integer_of_allocaCount
    {count : Option (Value × OperandTy)} :
    (allocaCount count).Returns fun finalCount =>
      ∀ value ∈ finalCount, value.ty.isInteger = true := by
  cases count with
  | none => simp [allocaCount]
  | some given =>
      obtain ⟨countVal, countTy⟩ := given
      cases countTy with
      | asserted expected =>
          simp only [allocaCount, Value.castAsserted, Attempt.returns_bind,
            Attempt.returns_require, Attempt.returns_orFail, Attempt.pure_eq, Attempt.returns_ok]
          rintro _ integer casted casts value ⟨rfl⟩
          rwa [Value.ty_tryCast casts]
      | inferred =>
          simp only [allocaCount, Value.castAsserted, Attempt.returns_bind,
            Attempt.returns_require, Attempt.pure_eq, Attempt.returns_ok]
          rintro integer value ⟨rfl⟩
          exact integer

/-- A value is returned at the recorded type, and none at `void`. -/
theorem value_of_retOperands
    {val : Option Value} {ty : OperandTy}
    (notVoid : ∀ value ∈ val, ty = .inferred → value.ty ≠ .void) :
    (retOperands val ty).Returns fun operands =>
      operands.value.map (·.ty) = if operands.ty = .void then none else some operands.ty := by
  cases val with
  | none =>
      cases ty with
      | asserted ty =>
          simp only [retOperands, Attempt.returns_bind, Attempt.returns_require, Attempt.pure_eq,
            Attempt.returns_ok]
          rintro rfl
          rfl
      | inferred => simp [retOperands]
  | some val =>
      cases ty with
      | asserted ty =>
          simp only [retOperands, Attempt.returns_bind, Attempt.returns_require, Attempt.pure_eq,
            Attempt.returns_ok, Attempt.returns_orFail]
          intro some_ casted casts
          rw [if_neg some_, Option.map_some, Value.ty_tryCast casts]
      | inferred =>
          simp only [retOperands, Attempt.pure_eq, Attempt.returns_ok]
          rw [if_neg (notVoid val rfl rfl), Option.map_some]

/-! ## Whole instructions -/

/-- The checks of a builder are enough. -/
theorem wellTyped_of_write
    {call : CursorCall}
    (invariant : ctx.Invariant) (wellTyped : ctx.WellTyped) (globals : ctx.GlobalsBuilt)
    (found : ctx.blocks[id]? = some block)
    (handed : (Call.build id call).Handed ctx)
    (sized : ¬(Call.build id call).InfersUnsized ctx) :
    (call.write ctx id).Returns (Write.WellTyped ctx block.funcId) := by
  obtain ⟨tys, built, own⟩ := handed
  have own := own block found
  -- The pointee that the inference finds has a size, if no type is asserted.
  have pointee {ptr : Value} (member : ptr ∈ call.values) (pointer : ptr.ty = .ptr)
      (reached : ¬ptr.AddressesUnsized ctx) {known : Option PointeeTy}
      (inferred : ptr.tryInferringPointeeTy id ctx =
        (.ok known : Attempt InstructionError _)) :
      ∀ pointee ∈ known, pointee.ty.Sized := by
    rintro pointee ⟨rfl⟩
    apply ptr.sized_of_pointsAt wellTyped globals (built ptr member) reached
    exact (Value.pointsAt_iff invariant found pointer).mpr ⟨pointee, inferred, rfl⟩
  cases call with
  | unconditionalBr label => simp [CursorCall.write, buildUnconditionalBr, Write.WellTyped,
      InstructionKind.WellTyped]
  | conditionalBr cond trueLabel falseLabel => simp [CursorCall.write, buildConditionalBr,
      Write.WellTyped, InstructionKind.WellTyped]
  | unreachable => simp [CursorCall.write, buildUnreachable, Write.WellTyped,
      InstructionKind.WellTyped]
  | ret val ty =>
      simp only [CursorCall.write, buildRet, Attempt.returns_bind, Attempt.returns_require,
        Attempt.returns_mapError, Attempt.pure_eq, Attempt.returns_ok, Context.getBlock,
        Context.getFunc, Attempt.returns_orPanic]
      have notVoid : ∀ value ∈ val, ty = .inferred → value.ty ≠ .void := by
        rintro value ⟨rfl⟩ rfl
        exact sized
      refine (value_of_retOperands notVoid).mono fun operands value other there func home same => ?_
      cases found.symm.trans there
      exact ⟨func, home, same, same ▸ value⟩
  | «switch» condVal condTy defaultLabel cases =>
      simp only [CursorCall.write, buildSwitch, Attempt.returns_bind, Attempt.returns_require,
        Attempt.returns_mapError, Attempt.pure_eq, Attempt.returns_ok]
      intro casted _ integer finalCases labels
      exact ⟨rfl, integer, formed_of_switchCases finalCases labels,
        (distinct_of_switchCases finalCases labels).1⟩
  | alloca ty count align reg =>
      simp only [CursorCall.write, buildAlloca, Attempt.returns_bind, Attempt.returns_require,
        Attempt.returns_mapError, Attempt.pure_eq, Attempt.returns_ok]
      intro firstClass _ _
      refine integer_of_allocaCount.mono fun finalCount integer => ?_
      exact ⟨⟨(tys ty List.mem_cons_self).sized firstClass, integer⟩, rfl⟩
  | load ptr ty align reg =>
      simp only [CursorCall.write, buildLoad, Attempt.returns_bind, Attempt.returns_require,
        Attempt.pure_eq, Attempt.returns_ok]
      intro pointer _ _ known inferred
      refine (accessedTy_sized tys ?_).mono fun finalTy finalSized => ⟨⟨pointer, finalSized⟩, rfl⟩
      rintro rfl
      exact pointee List.mem_cons_self pointer sized inferred
  | store ptr value ty align =>
      simp only [CursorCall.write, buildStore, Attempt.returns_bind, Attempt.returns_require]
      intro pointer _ _ finalVal _ known inferred
      have there : ptr.Exists ctx block.funcId := own ptr List.mem_cons_self
      have agrees (same : ∀ pointee ∈ known, pointee.ty = finalVal.ty) :
          (InstructionKind.store ⟨finalVal, ptr, align⟩).WellTyped ctx block.funcId := by
        refine ⟨pointer, there, fun ty points => ?_⟩
        obtain ⟨pointee, found, rfl⟩ := (Value.pointsAt_iff invariant found pointer).mp points
        cases inferred.symm.trans found
        exact (same pointee rfl).symm
      cases known with
      | none => simpa [Write.WellTyped] using agrees
      | some pointee => simpa [Write.WellTyped] using agrees
  | getElementPtr ptr sourceTy indices inbounds reg =>
      simp only [CursorCall.write, buildGetElementPtr, Attempt.returns_bind,
        Attempt.returns_require]
      intro pointer _ integers known inferred
      have integer : ∀ index ∈ indices, index.ty.isInteger = true := fun index member =>
        Attempt.require_eq_ok.mp (Attempt.forM_eq_ok.mp integers index member)
      have finalSized : (accessedTy sourceTy known (.gep <| .sourceTypeNotSized ·)
          (.gep <| .sourceTypeDoesNotMatchPointee · ·) (.gep .sourceTypeUnknown)).Returns
            Ty.Sized := by
        apply accessedTy_sized tys
        rintro rfl
        exact pointee List.mem_cons_self pointer sized inferred
      refine finalSized.mono fun finalTy finalSized => ?_
      have written (reached : ∃ ty, GetElementPtrOperands.resultPointeeTy
          ⟨finalTy, ptr, indices, inbounds.getD false⟩ = some ty) :
          (InstructionKind.getElementPtr ⟨finalTy, ptr, indices, inbounds.getD false⟩).WellTyped
            ctx block.funcId := ⟨pointer, finalSized, integer, reached⟩
      split
      case isTrue long =>
        simp only [Attempt.returns_bind, Attempt.returns_mapError, Attempt.pure_eq,
          Attempt.returns_ok]
        intro reached walked
        refine ⟨written ⟨reached, ?_⟩, rfl⟩
        unfold GetElementPtrOperands.resultPointeeTy
        rw [if_neg (Nat.not_le_of_gt long), walked]
        rfl
      case isFalse short =>
        simp only [Attempt.pure_eq, Attempt.returns_ok]
        refine ⟨written ⟨finalTy, ?_⟩, rfl⟩
        exact if_pos (Nat.le_of_not_gt short)
  | call func params returnTy reg =>
      simp only [CursorCall.write, buildCall, Attempt.returns_bind, Attempt.returns_mapError,
        Attempt.pure_eq, Attempt.returns_ok]
      exact wellTyped_of_callOperands.mono fun operands typed => ⟨typed, rfl⟩
  | voidCall func params =>
      simp only [CursorCall.write, buildVoidCall, Attempt.returns_bind, Attempt.returns_mapError,
        Attempt.pure_eq, Attempt.returns_ok]
      exact @wellTyped_of_voidCallOperands _ _ _ block.funcId
  | icmp cond ty a b reg =>
      have operands : (icmpOperands cond ty a b).Returns fun operands =>
          operands.2.ty = operands.1.ty := by
        unfold icmpOperands
        split
        · simp only [Attempt.returns_orFail]
          exact fun _ casts => (Value.ty_tryCastTwo casts).1
        · simp only [Attempt.returns_bind, Attempt.returns_require]
          intro same
          cases ty <;> simp [same]
      simp only [CursorCall.write, buildIcmp, Attempt.returns_bind, Attempt.returns_require,
        Attempt.returns_mapError, Attempt.pure_eq, Attempt.returns_ok]
      exact operands.mono fun operands same family => ⟨⟨rfl, same, family⟩, rfl⟩
  | ibinop op ty a b reg =>
      simp only [CursorCall.write, buildIbinop, Attempt.returns_bind, Attempt.returns_require,
        Attempt.returns_orFail, Attempt.pure_eq, Attempt.returns_ok]
      exact fun operands casts integer => ⟨⟨rfl, (Value.ty_tryCastTwo casts).1, integer⟩, rfl⟩
  | fcmp cond ty a b reg =>
      simp only [CursorCall.write, buildFcmp, Attempt.returns_bind, Attempt.returns_require,
        Attempt.returns_orFail, Attempt.pure_eq, Attempt.returns_ok]
      exact fun operands casts float => ⟨⟨rfl, (Value.ty_tryCastTwo casts).1, float⟩, rfl⟩
  | fbinop op ty a b reg =>
      simp only [CursorCall.write, buildFbinop, Attempt.returns_bind, Attempt.returns_require,
        Attempt.returns_orFail, Attempt.pure_eq, Attempt.returns_ok]
      exact fun operands casts float => ⟨⟨rfl, (Value.ty_tryCastTwo casts).1, float⟩, rfl⟩
  | fneg value reg =>
      simp only [CursorCall.write, buildFneg, Attempt.returns_bind, Attempt.returns_require,
        Attempt.pure_eq, Attempt.returns_ok]
      exact fun float => ⟨⟨rfl, float⟩, rfl⟩
  | cast op value src dest reg =>
      simp only [CursorCall.write, buildCast, Attempt.returns_bind, Attempt.returns_require,
        Attempt.pure_eq, Attempt.returns_ok]
      exact fun casted _ allowed => ⟨⟨rfl, CastOp.connects_of_isCastAllowed allowed⟩, rfl⟩
  | select cond armsTy trueArm falseArm reg =>
      simp only [CursorCall.write, buildSelect, Attempt.returns_bind, Attempt.returns_require,
        Attempt.returns_orFail, Attempt.pure_eq, Attempt.returns_ok]
      intro operands casts firstClass
      obtain ⟨same, origin⟩ := Value.ty_tryCastTwo casts
      have armBuilt : operands.1.ty.Built := by
        rcases origin with named | ofTrue | ofFalse
        · exact tys _ named
        · rw [ofTrue]
          exact (built trueArm (by simp [CursorCall.values])).1
        · rw [ofFalse]
          exact (built falseArm (by simp [CursorCall.values])).1
      exact ⟨⟨rfl, same, armBuilt.sized firstClass⟩, rfl⟩

end Writes

/-! ## Runs -/

section Runs

variable {ctx after : Context} {call : Call}

/-- A block stays well typed with one more well-typed instruction. -/
theorem BasicBlock.WellTyped.pushInstruction
    {block : BasicBlock} {instr : Instruction}
    (wellTyped : block.WellTyped ctx) (new : instr.WellTyped ctx block.funcId) :
    (block.pushInstruction instr).WellTyped ctx where
  phis := wellTyped.phis
  instructions := by
    intro other member
    rcases List.mem_append.mp member with member | member
    · exact wellTyped.instructions other member
    · rwa [List.mem_singleton.mp member]

/-- What a call writes into a block is well typed where the call is made. -/
theorem Effect.wellTyped_blocks
    (effect : Effect ctx call after) (invariant : ctx.Invariant) (wellTyped : ctx.WellTyped)
    (globals : ctx.GlobalsBuilt) (handed : call.Handed ctx) (sized : ¬call.InfersUnsized ctx) :
    ∀ block ∈ after.blocks, block.WellTyped ctx := by
  have at_ {id : BasicBlockId} {block : BasicBlock} (found : ctx.blocks[id]? = some block) :
      block.WellTyped ctx := wellTyped block (List.mem_of_getElem? found)
  cases effect with
  | nothing => exact wellTyped
  | named => exact wellTyped
  | defined checked found unlocked issued =>
      obtain ⟨kind, resultTy⟩ :=
        wellTyped_of_write invariant wellTyped globals found handed sized _ checked
      refine Context.forall_mem_modify wellTyped found ((at_ found).pushInstruction ⟨kind, ?_⟩)
      rintro value ⟨rfl⟩
      exact resultTy
  | appended checked found unlocked =>
      have kind := wellTyped_of_write invariant wellTyped globals found handed sized _ checked
      exact Context.forall_mem_modify wellTyped found
        ((at_ found).pushInstruction ⟨kind, by simp⟩)
  | terminated checked found unlocked =>
      have kind := wellTyped_of_write invariant wellTyped globals found handed sized _ checked
      have pushed := @BasicBlock.WellTyped.pushInstruction ctx _ ⟨_, none⟩ (at_ found)
        ⟨kind, by simp⟩
      exact Context.forall_mem_modify wellTyped found ⟨pushed.phis, pushed.instructions⟩
  | placed given found unlocked later empty issued value sound taken =>
      refine Context.forall_mem_modify wellTyped found ⟨?_, (at_ found).instructions⟩
      intro phi member
      rcases List.mem_append.mp member with member | member
      · exact (at_ found).phis phi member
      · rw [List.mem_singleton.mp member, value]
        exact ⟨sound, rfl⟩
  | joined found there takes =>
      obtain ⟨sound, value⟩ := (at_ found).phis _ (List.mem_of_getElem? there)
      refine Context.forall_mem_modify wellTyped found ⟨?_, (at_ found).instructions⟩
      exact Context.forall_mem_modify (at_ found).phis there ⟨sound.pushBranch takes, value⟩
  | opened found new =>
      intro block member
      rcases List.mem_append.mp member with member | member
      · exact wellTyped block member
      · rw [List.mem_singleton.mp member]
        constructor <;> simp
  | declared => exact wellTyped
  | imported => exact wellTyped
  | allocated stopped =>
      obtain ⟨names, rfl⟩ := nameParams_frame stopped
      exact wellTyped
  | entered new checked named =>
      obtain ⟨names, rfl⟩ := nameParams_frame named
      exact wellTyped

/-- The type of a global variable is one that can be built. -/
theorem built_of_globalVariableTy
    {ty : Option Ty} {initializer : Option ConstExpr}
    (given : ∀ given ∈ ty, given.Built) (initial : ∀ expr ∈ initializer, expr.ty.Built) :
    (globalVariableTy ty initializer).Returns Ty.Built := by
  cases ty with
  | none =>
      cases initializer with
      | none => simp [globalVariableTy]
      | some expr => simpa [globalVariableTy] using initial
  | some ty =>
      cases initializer with
      | none => simpa [globalVariableTy] using fun _ => given ty rfl
      | some expr => simpa [globalVariableTy] using fun _ _ => given ty rfl

/-- Every call keeps the types of the globals such. -/
theorem Effect.globalsBuilt
    (effect : Effect ctx call after) (globals : ctx.GlobalsBuilt) (handed : call.Handed ctx) :
    after.GlobalsBuilt := by
  have one {name : String} {kind : GlobalKind} {after : Context}
      (updated : after.globals = Function.update ctx.globals name (some kind))
      (built : kind.pointeeTy.Built) : after.GlobalsBuilt := by
    intro other known found
    rw [updated, Function.update_apply] at found
    split at found
    · cases found
      exact built
    · exact globals other known found
  cases effect with
  | declared new checked =>
      exact one rfl (built_of_globalVariableTy handed.1 handed.2 _ checked)
  | imported => exact one rfl (.func _ _)
  | allocated stopped =>
      obtain ⟨names, rfl⟩ := nameParams_frame stopped
      exact globals
  | entered new checked named =>
      obtain ⟨names, rfl⟩ := nameParams_frame named
      exact one rfl (.func _ _)
  | _ => exact globals

/-- Every graph that such calls reach is well typed. -/
theorem Context.wellTyped_of_runs
    (runs : Runs (fun ctx call => call.Handed ctx ∧ ¬call.InfersUnsized ctx) Context.new ctx) :
    (ctx.Invariant ∧ ∀ id ∈ ctx.functions, id < ctx.funcs.length) ∧
      ctx.GlobalsBuilt ∧ ctx.WellTyped := by
  apply runs.invariant
  · refine ⟨⟨Context.invariant_new, ?_⟩, ?_, ?_⟩
    · exact fun id member => (List.not_mem_nil member).elim
    · intro name kind known
      cases known
    · exact fun block member => (List.not_mem_nil member).elim
  · rintro before call next ⟨⟨invariant, inside⟩, globals, wellTyped⟩ ⟨handed, sized⟩ effect
    refine ⟨⟨invariant.effect effect, effect.inside inside⟩,
      effect.globalsBuilt globals handed, fun block member => ?_⟩
    have written := effect.wellTyped_blocks invariant wellTyped globals handed sized
    exact (written block member).mono (effect.extends invariant inside)

/-! ## The exception -/

/-- The instruction that is written. -/
def Write.kind : Write → InstructionKind
  | .define kind _ _ | .append kind | .terminate kind => kind

/-- What is inferred of a pointer that addresses a type without a size has none. -/
theorem Value.unsized_of_inferred
    {ε : Type} {value : Value} {id : BasicBlockId} {pointee : PointeeTy}
    (addresses : value.AddressesUnsized ctx)
    (inferred : value.tryInferringPointeeTy id ctx = (.ok (some pointee) : Attempt ε _)) :
    ¬pointee.ty.Sized := by
  have unsized {ty : Ty} (outside : ty.isFirstClass = false) : ¬ty.Sized := by
    intro sized
    rw [sized.isFirstClass] at outside
    cases outside
  obtain ⟨ty, kind⟩ := value
  unfold Value.tryInferringPointeeTy at inferred
  split at inferred
  · cases inferred
  · cases kind with
    | reg name => exact addresses.elim
    | constExpr expr =>
        cases expr with
        | getElementPtr operands =>
            obtain ⟨short, outside⟩ := addresses
            have reached : operands.resultPointeeTy = some operands.sourceTy := if_pos short
            simp only [reached, Attempt.pure_eq, Option.map_some] at inferred
            cases inferred
            exact unsized outside
        | _ => exact addresses.elim
    | global global =>
        obtain ⟨kind, known, outside⟩ := addresses
        simp only [known, Attempt.orPanic_some, Attempt.ok_bind, Attempt.pure_eq] at inferred
        cases inferred
        exact unsized outside

/-- A type without a size that is read off the operand makes the instruction ill typed. -/
theorem illTyped_of_write
    {call : CursorCall} {id : BasicBlockId}
    (infers : (Call.build id call).InfersUnsized ctx) :
    (call.write ctx id).Returns fun write => ∀ after f, ¬write.kind.WellTyped after f := by
  cases call with
  | load ptr ty align reg =>
      cases ty with
      | asserted ty => exact infers.elim
      | inferred =>
          simp only [CursorCall.write, buildLoad, Attempt.returns_bind, Attempt.returns_require,
            Attempt.pure_eq, Attempt.returns_ok]
          intro _ _ _ known inferred
          cases known with
          | none => simp [accessedTy]
          | some pointee =>
              simp only [accessedTy, Attempt.pure_eq, Attempt.returns_ok]
              exact fun after f typed => Value.unsized_of_inferred infers inferred typed.2
  | getElementPtr ptr sourceTy indices inbounds reg =>
      cases sourceTy with
      | asserted ty => exact infers.elim
      | inferred =>
          simp only [CursorCall.write, buildGetElementPtr, Attempt.returns_bind,
            Attempt.returns_require]
          intro _ _ _ known inferred
          cases known with
          | none => simp [accessedTy]
          | some pointee =>
              have unsized := Value.unsized_of_inferred infers inferred
              simp only [accessedTy, Attempt.pure_eq, Attempt.returns_ok]
              split <;>
                simp only [Attempt.returns_bind, Attempt.returns_mapError, Attempt.returns_ok]
              · exact fun _ _ after f typed => unsized typed.2.1
              · exact fun after f typed => unsized typed.2.1
  | ret val ty =>
      cases val with
      | none => exact infers.elim
      | some val =>
          cases ty with
          | asserted ty => exact infers.elim
          | inferred =>
              have void : val.ty = .void := infers
              simp only [CursorCall.write, buildRet, retOperands, Attempt.returns_bind,
                Attempt.returns_require, Attempt.returns_mapError, Attempt.pure_eq,
                Attempt.returns_ok]
              rintro _ _ _ _ _ after f ⟨func, _, same, value⟩
              have result : func.result = .void := same.symm.trans void
              rw [if_pos result] at value
              cases value
  | _ => exact infers.elim

/-- An accepted call of a cursor leaves in the block what its builder wrote. -/
theorem written_of_perform
    {call : CursorCall} {id : BasicBlockId}
    (performed : (Call.build id call).perform ctx = (.ok (), after)) :
    ∃ write instr block, call.write ctx id = .ok write ∧ after.blocks[id]? = some block ∧
      instr ∈ block.instructions ∧ instr.kind = write.kind := by
  have pushed {instr : Instruction} {between added : Context} {index : Nat}
      (ran : BasicBlock.addInstruction id instr between = (.ok index, added)) :
      ∃ block, added.blocks[id]? = some block ∧ instr ∈ block.instructions := by
    obtain ⟨block, found, -, -, rfl⟩ := addInstruction_ok ran
    refine ⟨block.pushInstruction instr, ?_, ?_⟩
    · rw [Context.blocks_modifyBlock, List.getElem?_modify_eq, found]
      rfl
    · exact List.mem_append_right _ (List.mem_singleton_self instr)
  obtain ⟨_, _, ran, done⟩ := Stateful.bind_eq_ok performed
  cases done
  obtain ⟨write, _, reading, carried⟩ := Stateful.bind_eq_ok (Stateful.mapError_ok ran)
  obtain ⟨checked, rfl⟩ := Stateful.read_cases reading
  cases write with
  | define kind ty reg =>
      obtain ⟨_, _, written, done⟩ := Stateful.bind_eq_ok carried
      cases done
      obtain ⟨_, _, _, added⟩ := Stateful.bind_eq_ok written
      obtain ⟨_, _, added, recorded⟩ := Stateful.bind_eq_ok added
      obtain ⟨block, there, member⟩ := pushed added
      cases recorded
      exact ⟨_, _, block, checked, there, member, rfl⟩
  | append kind =>
      obtain ⟨_, _, added, done⟩ := Stateful.bind_eq_ok carried
      obtain ⟨block, there, member⟩ := pushed added
      cases done
      exact ⟨_, _, block, checked, there, member, rfl⟩
  | terminate kind =>
      obtain ⟨_, _, added, done⟩ := Stateful.bind_eq_ok carried
      obtain ⟨block, there, member⟩ := pushed added
      cases done
      refine ⟨_, _, block.lock, checked, ?_, member, rfl⟩
      change (List.modify _ id BasicBlock.lock)[id]? = _
      rw [List.getElem?_modify_eq, there]
      rfl

/-- Graphs stay well typed under every call that reads no type without a size off its
operand, and such a call, if it is accepted, spoils the graph. -/
theorem wellTyped_iff
    {before after : Context} {call : Call}
    (runs : Runs (fun ctx call => call.Handed ctx ∧ ¬call.InfersUnsized ctx)
      Context.new before)
    (handed : call.Handed before) (accepted : call.perform before = (.ok (), after)) :
    before.WellTyped ∧ (after.WellTyped ↔ ¬call.InfersUnsized before) := by
  obtain ⟨_, _, wellTyped⟩ := Context.wellTyped_of_runs runs
  refine ⟨wellTyped, fun later infers => ?_, fun sized => ?_⟩
  · cases call with
    | build id call =>
        obtain ⟨write, instr, block, checked, there, member, kind⟩ := written_of_perform accepted
        have typed := (later block (List.mem_of_getElem? there)).instructions instr member
        exact illTyped_of_write infers write checked after _ (kind ▸ typed.kind)
    | _ => exact infers.elim
  · have fine : (call.perform before).1 ≠ .error .panic := by simp [accepted]
    have next := runs.perform ⟨handed, sized⟩ fine
    rw [accepted] at next
    exact (Context.wellTyped_of_runs next).2.2

/-- A function with a slot on its stack. -/
theorem runs_slot
    (ran : performAll
        [.defineFunction "f" [] .void, .addBasicBlock 0 "entry",
          .build 0 (.alloca .i32 none none (.named "p"))] Context.new = some ctx) :
    Runs (fun ctx call => call.Handed ctx ∧ ¬call.InfersUnsized ctx) Context.new ctx := by
  let allowed : Context → Call → Prop :=
    fun ctx call => call.Handed ctx ∧ ¬call.InfersUnsized ctx
  have defined := @Runs.perform allowed _ _ (.defineFunction "f" [] .void)
    (.refl (a := Context.new)) ⟨trivial, id⟩ nofun
  have opened := @Runs.perform allowed _ _ (.addBasicBlock 0 "entry") defined
    ⟨trivial, id⟩ nofun
  have slotTys : ∀ ty ∈ (CursorCall.alloca .i32 none none (.named "p")).tys, ty.Built := by
    intro ty member
    rw [List.mem_singleton.mp member]
    exact .ofWidth rfl
  have allocated := @Runs.perform allowed _ _
    (.build 0 (.alloca .i32 none none (.named "p"))) opened
    ⟨⟨slotTys, by simp [CursorCall.values], by simp [CursorCall.values]⟩, id⟩ nofun
  rw [← Option.some.inj ran]
  exact allocated

end Runs

/-- A load whose type is read off the `alloca` that its pointer comes from. -/
theorem wellTyped_iff_slot :
    ∃ before after, performAll
        [.defineFunction "f" [] .void, .addBasicBlock 0 "entry",
          .build 0 (.alloca .i32 none none (.named "p"))] Context.new = some before ∧
      (Call.perform
        (.build 0 (.load (.fromRegister "p" .ptr) .inferred none (.named "v"))) before) =
          (.ok (), after) ∧ before.WellTyped ∧ after.WellTyped := by
  refine ⟨_, _, rfl, rfl, ?_⟩
  have typed := @wellTyped_iff _ _
    (.build 0 (.load (.fromRegister "p" .ptr) .inferred none (.named "v"))) (runs_slot rfl) ?_ rfl
  · exact ⟨typed.1, typed.2.mpr id⟩
  · refine ⟨by simp [CursorCall.tys, OperandTy.tys], ?_, ?_⟩
    · simp only [CursorCall.values, List.forall_mem_singleton]
      exact ⟨.ptr, trivial⟩
    · rintro block ⟨rfl⟩ value member
      cases List.mem_singleton.mp member
      exact (by decide : "p" ∈ ["p"])

section Runs

variable {ctx : Context}

end Runs

end Llvm
end TraceWasm
