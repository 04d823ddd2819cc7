import TraceWasm.Llvm.Opcode

/-!
# What the builders report

Each builder reports the narrowest error that describes its failures. A type is
carried as itself where the source renders it.
-/

namespace TraceWasm
namespace Llvm

/-- What can be wrong with a declaration, a block's name or a register's name. -/
inductive ContextError where
  | duplicateGlobalName (name : String)
  | duplicateBasicBlockName (name : String)
  | invalidRegisterName (name : String)
  | functionParamTypeNotSized (ty : Ty)
  | functionResultTypeInvalid (ty : Ty)
  | globalVariableTypeNotSized (ty : Ty)
  | globalInitializerTypeMismatch (ty init : Ty)
  | globalTypeAndInitializerBothAbsent

/-- What can be wrong with an allocation. -/
inductive AllocaError where
  | typeNotAllocatable (ty : Ty)
  | allocaCountNotAnInteger (ty : Ty)
  | allocaCountTypeMismatch (given expected : Ty)

/-- What can be wrong with a return. -/
inductive RetError where
  | valueGivenForVoid (value : Ty)
  | returnedValueTypeMismatch (value ty : Ty)
  | nonVoidTypeWithoutValue (ty : Ty)
  | typeAndValueBothAbsent
  | doesNotMatchFunctionResult (func : String) (result ty : Ty)

/-- What can be wrong with a call. -/
inductive CallError where
  | functionNotFound (name : String)
  | paramCountMismatch (name : String) (expected given : Nat)
  | paramTypeMismatch (name : String) (index : Nat) (expected given : Ty)
  | paramCastFailed (name : String) (index : Nat) (given asserted : Ty)
  | returnTypeMismatch (name : String) (expected given : Ty)
  | voidCalleeNeedsVoidCall (name : String)
  | nonVoidCalleeNeedsValueCall (name : String) (result : Ty)

/-- What can be wrong with the address of an element. -/
inductive GepError where
  | indexNotAnInteger (ty : Ty)
  | sourceTypeNotSized (ty : Ty)
  | sourceTypeDoesNotMatchPointee (source pointee : Ty)
  | sourceTypeUnknown
  | structIndexNotAConstantI32 (ty : Ty)
  | structIndexOutOfRange (index : Int) (fields : Nat)
  | arrayIndexOutOfRange (index size : Nat)
  | typeNotIndexable (ty : Ty)

/-- What can be wrong with a store. -/
inductive StoreError where
  | storedValueTypeMismatch (value ty : Ty)
  | storedValueDoesNotMatchPointee (value pointee : Ty)

/-- What can be wrong with a comparison. -/
inductive ICmpError where
  | operandsNotCastable (cond : ICond) (a b : Ty)
  | operandTypesDiffer (cond : ICond) (a b : Ty)
  | providedTypeDoesNotMatchOperands (cond : ICond) (provided operands : Ty)
  | operandTypeNotComparable (ty : Ty)

/-- What can be wrong with a comparison of floating-point numbers. -/
inductive FCmpError where
  | operandsNotCastable (cond : FCond) (a b : Ty)
  | operandTypeNotFloat (ty : Ty)

/-- What can be wrong with an operation on integers. -/
inductive IBinOpError where
  | operandsNotCastable (op : IBinOp) (a b : Ty)
  | operandTypeNotInteger (op : IBinOp) (ty : Ty)

/-- What can be wrong with an operation on floating-point numbers. -/
inductive FBinOpError where
  | operandsNotCastable (op : FBinOp) (a b : Ty)
  | operandTypeNotFloat (op : String) (ty : Ty)

/-- What can be wrong with a conversion. -/
inductive CastError where
  | operandNotOfSourceType (op : CastOp) (given ty : Ty)
  | conversionNotAllowed (op : CastOp) (src dest : Ty)

/-- What can be wrong with a switch. -/
inductive SwitchError where
  | conditionNotOfAssertedType (given ty : Ty)
  | conditionNotAnInteger (ty : Ty)
  | caseDoesNotFitConditionType (index : Nat) (ty : Ty)
  | duplicateCaseValue (index : Nat) (value : ConstValue)

/-- What can be wrong with a choice. -/
inductive SelectError where
  | armsHaveNoCommonType (trueArm falseArm : Ty)
  | armTypeNotSized (ty : Ty)

/-- What can be wrong with a phi or one of its branches. -/
inductive PhiError where
  | phiInstructionAddError
  | basicBlockAlreadyTerminated (name : String)
  | phiInstructionCannotBeAddedToEntryBasicBlock
  | basicBlockBranchAlreadyInPhiInstruction
  | phiInstructionWithNoBranches
  | phiInstructionBranchTypeMismatch (expected given : Ty)
  | context (reported : ContextError)

/-- Why an instruction is refused. -/
inductive InstructionError where
  | pointerOperandExpected (ty : Ty)
  | typeNotLoadable (ty : Ty)
  | loadedTypeDoesNotMatchPointee (ty pointee : Ty)
  | loadedTypeUnknown
  | alignmentNotPowerOfTwo (align : Nat)
  | basicBlockAlreadyTerminated (name : String)
  | alloca (reported : AllocaError)
  | store (reported : StoreError)
  | ret (reported : RetError)
  | call (reported : CallError)
  | gep (reported : GepError)
  | icmp (reported : ICmpError)
  | fcmp (reported : FCmpError)
  | ibinop (reported : IBinOpError)
  | fbinop (reported : FBinOpError)
  | cast (reported : CastError)
  | switch (reported : SwitchError)
  | select (reported : SelectError)
  | context (reported : ContextError)

end Llvm
end TraceWasm
