import TraceWasm.Llvm.Operand

/-!
# The builders of a cursor

A builder checks its operands against the context and settles what is to be written
into the block. Writing it issues the register's name first, if there is one.
-/

namespace TraceWasm
namespace Llvm

/-- What a builder writes once its operands are checked. -/
inductive Write where
  /-- An instruction that defines a register. -/
  | define (kind : InstructionKind) (resultTy : Ty) (reg : RegName)
  | append (kind : InstructionKind)
  /-- An instruction after which the block is locked. -/
  | terminate (kind : InstructionKind)

/-- The number has exactly one bit. -/
def isPowerOfTwo (n : Nat) : Bool :=
  n != 0 && (n &&& (n - 1)) == 0

/-- An alignment has to be a power of two. -/
def requireAlign : Option Nat → Attempt InstructionError Unit
  | some align => Attempt.require (isPowerOfTwo align) (.alignmentNotPowerOfTwo align)
  | none => return ()

/-- The type accessed through a pointer: the asserted one, which has a size and is the
pointee's where that is known, or else the pointee's. -/
def accessedTy
    (ty : OperandTy) (pointeeTy : Option PointeeTy)
    (notSized : Ty → InstructionError) (mismatch : Ty → Ty → InstructionError)
    (unknown : InstructionError) :
    Attempt InstructionError Ty :=
  match ty, pointeeTy with
  | .asserted ty, some pointee => do
      Attempt.require ty.isFirstClass (notSized ty)
      Attempt.require (pointee.ty = ty) (mismatch ty pointee.ty)
      return ty
  | .asserted ty, none => do
      Attempt.require ty.isFirstClass (notSized ty)
      return ty
  | .inferred, some pointee => return pointee.ty
  | .inferred, none => Attempt.fail unknown

section Builders

variable (ctx : Context) (block : BasicBlockId)

/-! ## Terminators -/

/-- Build a branch to a block. -/
def buildUnconditionalBr (label : BasicBlockId) : Attempt InstructionError Write :=
  return .terminate (.unconditionalBr ⟨label⟩)

/-- Build a branch to one of two blocks. -/
def buildConditionalBr (cond : I1Value) (trueLabel falseLabel : BasicBlockId) :
    Attempt InstructionError Write :=
  return .terminate (.conditionalBr ⟨cond, trueLabel, falseLabel⟩)

/-- What is returned, and at which type. -/
def retOperands (val : Option Value) (ty : OperandTy) : Attempt RetError RetOperands :=
  match val, ty with
  | some val, .asserted ty => do
      Attempt.require (ty ≠ .void) (.valueGivenForVoid val.ty)
      let casted ← Attempt.orFail (.returnedValueTypeMismatch val.ty ty)
        (val.tryCast ty .signed)
      return ⟨ty, some casted⟩
  | some val, .inferred => return ⟨val.ty, some val⟩
  | none, .asserted ty => do
      Attempt.require (ty = .void) (.nonVoidTypeWithoutValue ty)
      return ⟨ty, none⟩
  | none, .inferred => Attempt.fail .typeAndValueBothAbsent

/-- Build a return of the function's result type. -/
def buildRet (val : Option Value) (ty : OperandTy) : Attempt InstructionError Write := do
  let operands ← (retOperands val ty).mapError .ret
  let func ← ctx.getFunc (← ctx.getBlock block).funcId
  Attempt.require (operands.ty = func.result)
    (.ret (.doesNotMatchFunctionResult func.name func.result operands.ty))
  return .terminate (.ret operands)

/-- The labels of a switch, folded to the condition's type. -/
def switchCases (condTy : Ty) :
    (index : Nat) → (caseVals : List ConstValue) → List (ConstValue × BasicBlockId) →
      Attempt SwitchError (List (ConstValue × BasicBlockId))
  | _, _, [] => return []
  | index, caseVals, (caseVal, label) :: cases => do
      let casted ← Attempt.orFail (.caseDoesNotFitConditionType index condTy)
        (caseVal.tryCast condTy .signed)
      -- literals of different widths that name one number collide once folded
      Attempt.require (casted ∉ caseVals) (.duplicateCaseValue index casted)
      let rest ← switchCases condTy (index + 1) (casted :: caseVals) cases
      return (casted, label) :: rest

/-- Build a switch over the cases, cast to the type of the condition. -/
def buildSwitch
    (condVal : Value) (condTy : OperandTy) (defaultLabel : BasicBlockId)
    (cases : List (ConstValue × BasicBlockId)) :
    Attempt InstructionError Write := do
  let condVal ← condVal.castAsserted condTy
    fun ty => InstructionError.switch (.conditionNotOfAssertedType condVal.ty ty)
  Attempt.require condVal.ty.isInteger (.switch (.conditionNotAnInteger condVal.ty))
  let finalCases ← (switchCases condVal.ty 0 [] cases).mapError .switch
  return .terminate (.switch ⟨condVal.ty, condVal, defaultLabel, finalCases⟩)

/-- Build the end of a block that is never reached. -/
def buildUnreachable : Attempt InstructionError Write :=
  return .terminate .unreachable

/-! ## Memory -/

/-- The number of elements, cast to the type that is asserted. -/
def allocaCount : Option (Value × OperandTy) → Attempt AllocaError (Option Value)
  | none => return none
  | some (countVal, countTy) => do
      Attempt.require countVal.ty.isInteger (.allocaCountNotAnInteger countVal.ty)
      match countTy with
      | .asserted expected =>
          Attempt.require expected.isInteger (.allocaCountNotAnInteger expected)
      | .inferred => pure ()
      let casted ← countVal.castAsserted countTy
        fun expected => AllocaError.allocaCountTypeMismatch countVal.ty expected
      return some casted

/-- Build an allocation on the stack. -/
def buildAlloca
    (ty : Ty) (count : Option (Value × OperandTy)) (align : Option Nat) (reg : RegName) :
    Attempt InstructionError Write := do
  Attempt.require ty.isFirstClass (.alloca (.typeNotAllocatable ty))
  requireAlign align
  let finalCount ← (allocaCount count).mapError .alloca
  return .define (.alloca ⟨ty, finalCount, align⟩) .ptr reg

/-- Build a load of the given type, or of what the pointer is known to point to. -/
def buildLoad (ptr : Value) (ty : OperandTy) (align : Option Nat) (reg : RegName) :
    Attempt InstructionError Write := do
  Attempt.require (ptr.ty = .ptr) (.pointerOperandExpected ptr.ty)
  requireAlign align
  let pointeeTy ← ptr.tryInferringPointeeTy block ctx
  let finalTy ← accessedTy ty pointeeTy
    .typeNotLoadable .loadedTypeDoesNotMatchPointee .loadedTypeUnknown
  return .define (.load ⟨finalTy, ptr, align⟩) finalTy reg

/-- Build a store, checked against what the pointer is known to point to. -/
def buildStore (ptr value : Value) (ty : OperandTy) (align : Option Nat) :
    Attempt InstructionError Write := do
  Attempt.require (ptr.ty = .ptr) (.pointerOperandExpected ptr.ty)
  requireAlign align
  let finalVal ← value.castAsserted ty
    fun ty => InstructionError.store (.storedValueTypeMismatch value.ty ty)
  match ← ptr.tryInferringPointeeTy block ctx with
  | some pointee =>
      Attempt.require (pointee.ty = finalVal.ty)
        (.store (.storedValueDoesNotMatchPointee finalVal.ty pointee.ty))
  | none => pure ()
  return .append (.store ⟨finalVal, ptr, align⟩)

/-- Build the address of an element, reached from the source type by the indices. -/
def buildGetElementPtr
    (ptr : Value) (sourceTy : OperandTy) (indices : List Value) (inbounds : Option Bool)
    (reg : RegName) :
    Attempt InstructionError Write := do
  Attempt.require (ptr.ty = .ptr) (.pointerOperandExpected ptr.ty)
  indices.forM fun index =>
    Attempt.require index.ty.isInteger (.gep (.indexNotAnInteger index.ty))
  let pointeeTy ← ptr.tryInferringPointeeTy block ctx
  let finalSourceTy ← accessedTy sourceTy pointeeTy
    (.gep <| .sourceTypeNotSized ·) (.gep <| .sourceTypeDoesNotMatchPointee · ·)
    (.gep .sourceTypeUnknown)
  if indices.length > 1 then
    let _ ← (walkPointeeTyInGep indices.tail finalSourceTy).mapError InstructionError.gep
  return .define
    (.getElementPtr ⟨finalSourceTy, ptr, indices, inbounds.getD false⟩) .ptr reg

/-! ## Calls -/

/-- The arguments, each at the callee's type for it. -/
def castParams (name : String) :
    (index : Nat) → List (Value × OperandTy) → (expected : List Ty) →
      Attempt CallError (List Value)
  | index, (paramVal, paramTy) :: params, expectedTy :: expected => do
      let finalVal ← paramVal.castAsserted paramTy
        fun ty => CallError.paramCastFailed name index paramVal.ty ty
      Attempt.require (finalVal.ty = expectedTy)
        (.paramTypeMismatch name index expectedTy finalVal.ty)
      let rest ← castParams name (index + 1) params expected
      return finalVal :: rest
  | _, _, _ => return []

/-- Cast the arguments to the parameter types of the signature. -/
def tryCastParamAndCheckWithFuncSignature
    (name : String) (params : List (Value × OperandTy)) (expected : List Ty) :
    Attempt CallError (List Value) := do
  Attempt.require (params.length = expected.length)
    (.paramCountMismatch name expected.length params.length)
  castParams name 0 params expected

/-- The operands of a call that has a result. -/
def callOperands (func : FuncRef) (params : List (Value × OperandTy)) (returnTy : OperandTy) :
    Attempt CallError CallOperands := do
  let (funcName, sig) ← func.nameAndSig ctx
  match returnTy with
  | .asserted returnTy =>
      Attempt.require (returnTy = sig.result)
        (.returnTypeMismatch funcName.str sig.result returnTy)
  | .inferred => pure ()
  Attempt.require (sig.result ≠ .void) (.voidCalleeNeedsVoidCall funcName.str)
  let finalParams ← tryCastParamAndCheckWithFuncSignature funcName.str params sig.params
  return ⟨funcName, sig.result, finalParams⟩

/-- Build a call that has a result. -/
def buildCall
    (func : FuncRef) (params : List (Value × OperandTy)) (returnTy : OperandTy)
    (reg : RegName) :
    Attempt InstructionError Write := do
  let operands ← (callOperands ctx func params returnTy).mapError .call
  return .define (.call operands) operands.returnTy reg

/-- The operands of a call that has none. -/
def voidCallOperands (func : FuncRef) (params : List (Value × OperandTy)) :
    Attempt CallError CallOperands := do
  let (funcName, sig) ← func.nameAndSig ctx
  Attempt.require (sig.result = .void) (.nonVoidCalleeNeedsValueCall funcName.str sig.result)
  let finalParams ← tryCastParamAndCheckWithFuncSignature funcName.str params sig.params
  return ⟨funcName, .void, finalParams⟩

/-- Build a call that has no result. -/
def buildVoidCall (func : FuncRef) (params : List (Value × OperandTy)) :
    Attempt InstructionError Write := do
  let operands ← (voidCallOperands ctx func params).mapError .call
  return .append (.call operands)

/-! ## Arithmetic, comparisons and conversions -/

/-- The operands of a comparison. Equality wants one type and folds nothing. -/
def icmpOperands (cond : ICond) (ty : OperandTy) (a b : Value) :
    Attempt ICmpError (Value × Value) :=
  match cond.signedness with
  | some signedness =>
      Attempt.orFail (.operandsNotCastable cond a.ty b.ty) (Value.tryCastTwo a b ty signedness)
  | none => do
      Attempt.require (a.ty = b.ty) (.operandTypesDiffer cond a.ty b.ty)
      match ty with
      | .asserted ty =>
          Attempt.require (ty = a.ty) (.providedTypeDoesNotMatchOperands cond ty a.ty)
      | .inferred => pure ()
      return (a, b)

/-- Build a comparison of integers or pointers. -/
def buildIcmp (cond : ICond) (ty : OperandTy) (a b : Value) (reg : RegName) :
    Attempt InstructionError Write := do
  let (a, b) ← (icmpOperands cond ty a b).mapError .icmp
  Attempt.require (a.ty.isInteger ∨ a.ty = .ptr) (.icmp (.operandTypeNotComparable a.ty))
  return .define (.icmp ⟨cond, a.ty, a, b⟩) .i1 reg

/-- Build an operation on two integers. -/
def buildIbinop (op : IBinOp) (ty : OperandTy) (a b : Value) (reg : RegName) :
    Attempt InstructionError Write := do
  let (a, b) ← Attempt.orFail (.ibinop (.operandsNotCastable op a.ty b.ty))
    (Value.tryCastTwo a b ty op.signedness)
  Attempt.require a.ty.isInteger (.ibinop (.operandTypeNotInteger op a.ty))
  return .define (.ibinop ⟨op, a.ty, a, b⟩) a.ty reg

/-- Build a comparison of floating-point numbers. -/
def buildFcmp (cond : FCond) (ty : OperandTy) (a b : Value) (reg : RegName) :
    Attempt InstructionError Write := do
  let (a, b) ← Attempt.orFail (.fcmp (.operandsNotCastable cond a.ty b.ty))
    (Value.tryCastTwo a b ty .notApplicable)
  Attempt.require a.ty.isFloat (.fcmp (.operandTypeNotFloat a.ty))
  return .define (.fcmp ⟨cond, a.ty, a, b⟩) .i1 reg

/-- How the operation is written. -/
def FBinOp.toString : FBinOp → String
  | .fadd => "fadd"
  | .fsub => "fsub"
  | .fmul => "fmul"
  | .fdiv => "fdiv"
  | .frem => "frem"

/-- Build an operation on two floating-point numbers. -/
def buildFbinop (op : FBinOp) (ty : OperandTy) (a b : Value) (reg : RegName) :
    Attempt InstructionError Write := do
  let (a, b) ← Attempt.orFail (.fbinop (.operandsNotCastable op a.ty b.ty))
    (Value.tryCastTwo a b ty .notApplicable)
  Attempt.require a.ty.isFloat (.fbinop (.operandTypeNotFloat op.toString a.ty))
  return .define (.fbinop ⟨op, a.ty, a, b⟩) a.ty reg

/-- Build a negation. -/
def buildFneg (value : Value) (reg : RegName) : Attempt InstructionError Write := do
  Attempt.require value.ty.isFloat (.fbinop (.operandTypeNotFloat "fneg" value.ty))
  return .define (.fneg ⟨value.ty, value⟩) value.ty reg

/-- Build a conversion between types. -/
def buildCast (op : CastOp) (value : Value) (src : OperandTy) (dest : Ty) (reg : RegName) :
    Attempt InstructionError Write := do
  let value ← value.castAsserted src
    fun ty => InstructionError.cast (.operandNotOfSourceType op value.ty ty)
  Attempt.require (op.isCastAllowed value.ty dest)
    (.cast (.conversionNotAllowed op value.ty dest))
  return .define (.cast ⟨op, value.ty, value, dest⟩) dest reg

/-- Build a choice between two values. -/
def buildSelect
    (cond : I1Value) (armsTy : OperandTy) (trueArm falseArm : Value) (reg : RegName) :
    Attempt InstructionError Write := do
  let (trueArm, falseArm) ←
    Attempt.orFail (.select (.armsHaveNoCommonType trueArm.ty falseArm.ty))
      (Value.tryCastTwo trueArm falseArm armsTy .signed)
  Attempt.require trueArm.ty.isFirstClass (.select (.armTypeNotSized trueArm.ty))
  return .define (.select ⟨cond, trueArm.ty, trueArm, falseArm⟩) trueArm.ty reg

end Builders

end Llvm
end TraceWasm
