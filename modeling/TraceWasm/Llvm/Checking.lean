import TraceWasm.Llvm.WellTyped

/-!
# The builders write well-typed instructions

Each builder's checks are enough for what it writes, with one exception: a type that is
read off the operand instead of being asserted is not asked whether it has a size.
-/

namespace TraceWasm
namespace Llvm

/-! ## What a call is handed -/

/-- The type that is given, if one is. -/
def OperandTy.tys : OperandTy → List Ty
  | .asserted ty => [ty]
  | .inferred => []

namespace CursorCall

/-- The types that the caller names. -/
def tys : CursorCall → List Ty
  | .unconditionalBr _ | .conditionalBr _ _ _ | .unreachable | .fneg _ _ => []
  | .ret _ ty => ty.tys
  | .switch _ condTy _ _ => condTy.tys
  | .alloca ty count _ _ => ty :: count.toList.flatMap (·.2.tys)
  | .load _ ty _ _ => ty.tys
  | .store _ _ ty _ => ty.tys
  | .getElementPtr _ sourceTy _ _ _ => sourceTy.tys
  | .call _ params returnTy _ => returnTy.tys ++ params.flatMap (·.2.tys)
  | .voidCall _ params => params.flatMap (·.2.tys)
  | .icmp _ ty _ _ _ | .ibinop _ ty _ _ _ | .fcmp _ ty _ _ _ | .fbinop _ ty _ _ _ => ty.tys
  | .cast _ _ src dest _ => dest :: src.tys
  | .select _ armsTy _ _ _ => armsTy.tys

end CursorCall

/-- The value's types are ones that a context hands out. -/
def Value.Built (self : Value) : Prop :=
  self.ty.Built ∧
    match self.kind with
    | .constExpr (.getElementPtr operands) => operands.sourceTy.Built
    | _ => True

/-- The types of the call were handed out by the context, and its operands are those of
the function that the block belongs to. -/
def Call.Handed (ctx : Context) : Call → Prop
  | .build id call =>
      (∀ ty ∈ call.tys, ty.Built) ∧ (∀ value ∈ call.values, value.Built) ∧
        ∀ block, ctx.blocks[id]? = some block →
          ∀ value ∈ call.values, value.Exists ctx block.funcId
  | .declareGlobalVariable _ ty initializer =>
      (∀ given ∈ ty, given.Built) ∧ ∀ expr ∈ initializer, expr.ty.Built
  | _ => True

/-- The pointer is known to point at something that has no size. -/
def Value.AddressesUnsized (ctx : Context) (self : Value) : Prop :=
  match self.kind with
  | .reg _ => False
  | .constExpr (.getElementPtr operands) =>
      operands.indices.length ≤ 1 ∧ operands.sourceTy.isFirstClass = false
  | .constExpr _ => False
  | .global global =>
      ∃ kind, ctx.globals global.name = some kind ∧ kind.pointeeTy.isFirstClass = false

/-- The call has a type without a size read off its operand. -/
def Call.InfersUnsized (ctx : Context) : Call → Prop
  | .build _ (.load ptr .inferred _ _) => ptr.AddressesUnsized ctx
  | .build _ (.getElementPtr ptr .inferred _ _ _) => ptr.AddressesUnsized ctx
  | .build _ (.ret (some val) .inferred) => val.ty = .void
  | _ => False

/-- The symbols stand for things whose types a context hands out. -/
def Context.GlobalsBuilt (ctx : Context) : Prop :=
  ∀ name kind, ctx.globals name = some kind → kind.pointeeTy.Built

/-! ## Pointees -/

section Pointees

variable {ctx : Context} {id : BasicBlockId} {block : BasicBlock} {value : Value} {ty : Ty}

/-- The inference finds what the pointer is known to point at. -/
theorem Value.pointsAt_iff
    {ε : Type}
    (invariant : ctx.Invariant) (found : ctx.blocks[id]? = some block)
    (pointer : value.ty = .ptr) :
    value.PointsAt ctx block.funcId ty ↔
      ∃ pointee, value.tryInferringPointeeTy id ctx = (.ok (some pointee) : Attempt ε _) ∧
        pointee.ty = ty := by
  obtain ⟨own, kind⟩ := value
  cases pointer
  have headed : ctx.header id = some block.header := by
    unfold Context.header
    rw [found]
    rfl
  cases kind with
  | reg name =>
      constructor
      · rintro ⟨place, instr, pointee, defined, recorded, same⟩
        refine ⟨pointee, ?_, same⟩
        rw [← recorded]
        exact Context.inferred_of_definedAt invariant defined headed rfl
      · rintro ⟨pointee, inferred, same⟩
        obtain ⟨place, instr, defined, recorded⟩ :=
          Context.definedAt_of_inferred invariant headed inferred
        exact ⟨place, instr, pointee, defined, recorded, same⟩
  | constExpr expr =>
      cases expr with
      | getElementPtr operands =>
          simp [Value.PointsAt, Value.tryInferringPointeeTy]
      | _ => simp [Value.PointsAt, Value.tryInferringPointeeTy]
  | global global =>
      cases known : ctx.globals global.name with
      | none =>
          simp only [Value.PointsAt, Value.tryInferringPointeeTy, known, Attempt.orPanic_none,
            Attempt.panicked_bind]
          simp [Attempt.panicked]
      | some kind => simp [Value.PointsAt, Value.tryInferringPointeeTy, known]

/-- A pointee that is inferred has a size, with the exceptions named. -/
theorem Value.sized_of_pointsAt
    {f : FuncId}
    (wellTyped : ctx.WellTyped) (globals : ctx.GlobalsBuilt) (built : value.Built)
    (sized : ¬value.AddressesUnsized ctx) (points : value.PointsAt ctx f ty) :
    ty.Sized := by
  obtain ⟨own, kind⟩ := value
  cases kind with
  | reg name =>
      obtain ⟨place, instr, pointee, defined, recorded, rfl⟩ := points
      obtain ⟨block, found, there⟩ := Option.bind_eq_some_iff.mp defined.1
      obtain ⟨other, inside, same⟩ := Option.map_eq_some_iff.mp there
      cases same
      have typed := (wellTyped block (List.mem_of_getElem? found)).instructions instr
        (List.mem_of_getElem? inside)
      have typed := typed.kind
      obtain ⟨kind, defines⟩ := instr
      cases kind with
      | alloca operands =>
          cases recorded
          exact typed.1
      | getElementPtr operands =>
          obtain ⟨reached, walked, same⟩ := Option.map_eq_some_iff.mp recorded
          rw [← same]
          exact operands.sized_resultPointeeTy typed.2.1 walked
      | _ => cases recorded
  | constExpr expr =>
      cases expr with
      | getElementPtr operands =>
          apply operands.sized_resultPointeeTy_of_built built.2 _ points
          intro short
          by_contra unsized
          exact sized ⟨short, Bool.eq_false_iff.mpr unsized⟩
      | _ => exact points.elim
  | global global =>
      obtain ⟨kind, known, rfl⟩ := points
      apply (globals _ kind known).sized
      by_contra unsized
      exact sized ⟨kind, known, Bool.eq_false_iff.mpr unsized⟩

/-- What a load or a store accesses has a size. -/
theorem accessedTy_sized
    {operandTy : OperandTy} {pointee : Option PointeeTy}
    {notSized : Ty → InstructionError} {mismatch : Ty → Ty → InstructionError}
    {unknown : InstructionError}
    (asserted : ∀ ty ∈ operandTy.tys, ty.Built)
    (inferred : operandTy = .inferred → ∀ known ∈ pointee, known.ty.Sized) :
    (accessedTy operandTy pointee notSized mismatch unknown).Returns Ty.Sized := by
  cases operandTy with
  | asserted ty =>
      have built : ty.Built := asserted ty (List.mem_singleton_self ty)
      cases pointee <;>
        simp only [accessedTy, Attempt.returns_bind, Attempt.returns_require, Attempt.pure_eq,
          Attempt.returns_ok]
      · exact built.sized
      · exact fun firstClass _ => built.sized firstClass
  | inferred =>
      cases pointee with
      | none => simp [accessedTy]
      | some known => simpa [accessedTy] using inferred rfl known rfl

end Pointees

/-! ## Folding -/

section Folding

variable {value casted a b first second : Value} {ty : Ty}
  {signedness : Signedness}

/-- A cast value has the type that it is cast to. -/
theorem Value.ty_tryCast
    (casts : value.tryCast ty signedness = some casted) :
    casted.ty = ty := by
  unfold Value.tryCast at casts
  split at casts
  · cases casts
  · split at casts
    case h_1 =>
      obtain ⟨folded, folds, same⟩ := Option.bind_eq_some_iff.mp casts
      cases same
      rfl
    case h_2 =>
      split at casts
      · cases casts
      · cases casts
        exact not_not.mp ‹_›

/-- Two operands are brought to one type: one that is named, or that one of them has. -/
theorem Value.ty_tryCastTwo
    {operandTy : OperandTy}
    (casts : Value.tryCastTwo a b operandTy signedness = some (first, second)) :
    second.ty = first.ty ∧ (first.ty ∈ operandTy.tys ∨ first.ty = a.ty ∨ first.ty = b.ty) := by
  unfold Value.tryCastTwo at casts
  cases operandTy with
  | asserted ty =>
      obtain ⟨firstCasted, firstCasts, casts⟩ := Option.bind_eq_some_iff.mp casts
      obtain ⟨secondCasted, secondCasts, same⟩ := Option.bind_eq_some_iff.mp casts
      cases same
      rw [Value.ty_tryCast firstCasts, Value.ty_tryCast secondCasts]
      exact ⟨rfl, .inl (List.mem_singleton_self ty)⟩
  | inferred =>
      dsimp only at casts
      split at casts
      case isTrue same =>
        cases casts
        exact ⟨same.symm, .inr (.inl rfl)⟩
      case isFalse =>
        obtain ⟨aWidth, -, casts⟩ := Option.bind_eq_some_iff.mp casts
        obtain ⟨bWidth, -, casts⟩ := Option.bind_eq_some_iff.mp casts
        split at casts
        · obtain ⟨secondCasted, secondCasts, same⟩ := Option.bind_eq_some_iff.mp casts
          cases same
          exact ⟨Value.ty_tryCast secondCasts, .inr (.inl rfl)⟩
        · obtain ⟨firstCasted, firstCasts, same⟩ := Option.bind_eq_some_iff.mp casts
          cases same
          have typed := Value.ty_tryCast firstCasts
          exact ⟨typed.symm, .inr (.inr typed)⟩

end Folding

end Llvm
end TraceWasm
