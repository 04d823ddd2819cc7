import TraceWasm.Llvm.Value

/-!
# Instructions and their operands
-/

namespace TraceWasm
namespace Llvm

/-- A phi. Its blocks are those of its branches. -/
structure PhiInstruction where
  branches : List (BasicBlockId × Value)
  blocks : List BasicBlockId
  refTy : Ty
  value : Value

/-- Where a branch goes. -/
structure UnconditionalBrOperands where
  label : BasicBlockId

/-- Where a branch goes if its condition holds, and where if not. -/
structure ConditionalBrOperands where
  cond : I1Value
  trueLabel : BasicBlockId
  falseLabel : BasicBlockId

/-- What a return returns. -/
structure RetOperands where
  ty : Ty
  value : Option Value

/-- What a load loads. -/
structure LoadOperands where
  ty : Ty
  ptr : Value
  align : Option Nat

/-- What a store stores, and where. -/
structure StoreOperands where
  value : Value
  ptr : Value
  align : Option Nat

/-- What an allocation makes room for. -/
structure AllocaOperands where
  ty : Ty
  count : Option Value
  align : Option Nat

/-- What a call calls, and with which arguments. -/
structure CallOperands where
  funcName : FuncName
  returnTy : Ty
  params : List Value

/-- What a comparison compares. -/
structure ICmpOperands where
  cond : ICond
  ty : Ty
  a : Value
  b : Value

/-- What an operation on integers operates on. -/
structure IBinOpOperands where
  op : IBinOp
  ty : Ty
  a : Value
  b : Value

/-- What a comparison of floating-point numbers compares. -/
structure FCmpOperands where
  cond : FCond
  ty : Ty
  a : Value
  b : Value

/-- What an operation on floating-point numbers operates on. -/
structure FBinOpOperands where
  op : FBinOp
  ty : Ty
  a : Value
  b : Value

/-- What a negation negates. -/
structure FNegOperands where
  ty : Ty
  value : Value

/-- What a conversion converts. -/
structure CastOperands where
  op : CastOp
  srcTy : Ty
  value : Value
  destTy : Ty

/-- Where a switch goes for each value of its condition. -/
structure SwitchOperands where
  condTy : Ty
  condValue : Value
  defaultLabel : BasicBlockId
  cases : List (ConstValue × BasicBlockId)

/-- What a choice chooses from. -/
structure SelectOperands where
  cond : I1Value
  armsTy : Ty
  trueArm : Value
  falseArm : Value

/-- An instruction without the register that it defines. -/
inductive InstructionKind where
  | unconditionalBr (operands : UnconditionalBrOperands)
  | conditionalBr (operands : ConditionalBrOperands)
  | load (operands : LoadOperands)
  | store (operands : StoreOperands)
  | alloca (operands : AllocaOperands)
  | getElementPtr (operands : GetElementPtrOperands)
  | ret (operands : RetOperands)
  | call (operands : CallOperands)
  | icmp (operands : ICmpOperands)
  | ibinop (operands : IBinOpOperands)
  | fcmp (operands : FCmpOperands)
  | fbinop (operands : FBinOpOperands)
  | fneg (operands : FNegOperands)
  | cast (operands : CastOperands)
  | switch (operands : SwitchOperands)
  | select (operands : SelectOperands)
  | unreachable

namespace InstructionKind

/-- The instructions that end a block. -/
def isTerminator : InstructionKind → Bool
  | .unconditionalBr _ | .conditionalBr _ | .ret _ | .switch _ | .unreachable => true
  | _ => false

end InstructionKind

/-- An instruction, with the register that it defines if it defines one. -/
structure Instruction where
  kind : InstructionKind
  value : Option Value

namespace Instruction

/-- The register that the instruction defines. -/
def register? (self : Instruction) : Option String :=
  self.value.bind (·.register?)

end Instruction

end Llvm
end TraceWasm
