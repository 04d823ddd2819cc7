import TraceWasm.Llvm.Instruction

/-!
# Renaming

Blocks and functions are named by their positions, which differ between two modules
that are otherwise the same. Renaming replaces the positions and keeps everything else.
-/

namespace TraceWasm
namespace Llvm

/-! ## Values -/

section Values

variable (symbol : Global → Global)

mutual

/-- The value with its globals renamed. -/
def Value.rename : Value → Value
  | ⟨ty, kind⟩ => ⟨ty, kind.rename⟩

/-- The operand with its globals renamed. -/
def ValueKind.rename : ValueKind → ValueKind
  | .reg name => .reg name
  | .constExpr expr => .constExpr expr.rename
  | .global global => .global (symbol global)

/-- The constant with its globals renamed. -/
def ConstExpr.rename : ConstExpr → ConstExpr
  | .getElementPtr operands => .getElementPtr operands.rename
  | .ptrToInt => .ptrToInt
  | .intToPtr => .intToPtr
  | .bitCast ty => .bitCast ty
  | .trunc targetTy => .trunc targetTy
  | .const value => .const value

/-- The operands with their globals renamed. -/
def GetElementPtrOperands.rename : GetElementPtrOperands → GetElementPtrOperands
  | ⟨sourceTy, ptr, indices, inbounds⟩ =>
      ⟨sourceTy, ptr.rename, Value.renameAll indices, inbounds⟩

/-- The values with their globals renamed. -/
def Value.renameAll : List Value → List Value
  | [] => []
  | value :: values => value.rename :: Value.renameAll values

end

/-- Values are renamed one by one. -/
theorem Value.renameAll_eq (values : List Value) :
    renameAll symbol values = values.map (rename symbol) := by
  induction values with
  | nil => rfl
  | cons value values inductionHypothesis =>
      rw [renameAll, inductionHypothesis, List.map_cons]

/-- Renaming leaves the type. -/
@[simp] theorem Value.ty_rename (value : Value) : (value.rename symbol).ty = value.ty := by
  cases value
  rw [Value.rename]

end Values

/-! ## Instructions -/

/-- What blocks and symbols are renamed to. -/
structure Renaming where
  block : BasicBlockId → BasicBlockId
  symbol : Global → Global

/-- The condition with its globals renamed, which leaves its type. -/
def I1Value.rename (symbol : Global → Global) (self : I1Value) : I1Value :=
  ⟨self.val.rename symbol, (self.val.ty_rename symbol).trans self.property⟩

section Instructions

variable (ids : Renaming)

/-- The result with its globals renamed. -/
def RetOperands.rename (self : RetOperands) : RetOperands :=
  { self with value := self.value.map (·.rename ids.symbol) }

/-- The branch to the renamed block. -/
def UnconditionalBrOperands.rename (self : UnconditionalBrOperands) :
    UnconditionalBrOperands :=
  ⟨ids.block self.label⟩

/-- The branch to the renamed blocks. -/
def ConditionalBrOperands.rename (self : ConditionalBrOperands) : ConditionalBrOperands where
  cond := self.cond.rename ids.symbol
  trueLabel := ids.block self.trueLabel
  falseLabel := ids.block self.falseLabel

/-- The load with its globals renamed. -/
def LoadOperands.rename (self : LoadOperands) : LoadOperands :=
  { self with ptr := self.ptr.rename ids.symbol }

/-- The store with its globals renamed. -/
def StoreOperands.rename (self : StoreOperands) : StoreOperands :=
  { self with value := self.value.rename ids.symbol, ptr := self.ptr.rename ids.symbol }

/-- The allocation with its globals renamed. -/
def AllocaOperands.rename (self : AllocaOperands) : AllocaOperands :=
  { self with count := self.count.map (·.rename ids.symbol) }

/-- The call with the globals in its arguments renamed. -/
def CallOperands.rename (self : CallOperands) : CallOperands :=
  { self with params := self.params.map (·.rename ids.symbol) }

/-- The comparison with its globals renamed. -/
def ICmpOperands.rename (self : ICmpOperands) : ICmpOperands :=
  { self with a := self.a.rename ids.symbol, b := self.b.rename ids.symbol }

/-- The operation with its globals renamed. -/
def IBinOpOperands.rename (self : IBinOpOperands) : IBinOpOperands :=
  { self with a := self.a.rename ids.symbol, b := self.b.rename ids.symbol }

/-- The comparison with its globals renamed. -/
def FCmpOperands.rename (self : FCmpOperands) : FCmpOperands :=
  { self with a := self.a.rename ids.symbol, b := self.b.rename ids.symbol }

/-- The operation with its globals renamed. -/
def FBinOpOperands.rename (self : FBinOpOperands) : FBinOpOperands :=
  { self with a := self.a.rename ids.symbol, b := self.b.rename ids.symbol }

/-- The negation with its globals renamed. -/
def FNegOperands.rename (self : FNegOperands) : FNegOperands :=
  { self with value := self.value.rename ids.symbol }

/-- The conversion with its globals renamed. -/
def CastOperands.rename (self : CastOperands) : CastOperands :=
  { self with value := self.value.rename ids.symbol }

/-- The switch with its globals and its blocks renamed. -/
def SwitchOperands.rename (self : SwitchOperands) : SwitchOperands where
  condTy := self.condTy
  condValue := self.condValue.rename ids.symbol
  defaultLabel := ids.block self.defaultLabel
  cases := self.cases.map fun case => (case.1, ids.block case.2)

/-- The choice with its globals renamed. -/
def SelectOperands.rename (self : SelectOperands) : SelectOperands where
  cond := self.cond.rename ids.symbol
  armsTy := self.armsTy
  trueArm := self.trueArm.rename ids.symbol
  falseArm := self.falseArm.rename ids.symbol

/-- The instruction with its globals and its blocks renamed. -/
def InstructionKind.rename : InstructionKind → InstructionKind
  | .unconditionalBr operands => .unconditionalBr (operands.rename ids)
  | .conditionalBr operands => .conditionalBr (operands.rename ids)
  | .load operands => .load (operands.rename ids)
  | .store operands => .store (operands.rename ids)
  | .alloca operands => .alloca (operands.rename ids)
  | .getElementPtr operands => .getElementPtr (operands.rename ids.symbol)
  | .ret operands => .ret (operands.rename ids)
  | .call operands => .call (operands.rename ids)
  | .icmp operands => .icmp (operands.rename ids)
  | .ibinop operands => .ibinop (operands.rename ids)
  | .fcmp operands => .fcmp (operands.rename ids)
  | .fbinop operands => .fbinop (operands.rename ids)
  | .fneg operands => .fneg (operands.rename ids)
  | .cast operands => .cast (operands.rename ids)
  | .switch operands => .switch (operands.rename ids)
  | .select operands => .select (operands.rename ids)
  | .unreachable => .unreachable

/-- The register that an instruction defines keeps its name. -/
def Instruction.rename (self : Instruction) : Instruction :=
  { self with kind := self.kind.rename ids }

/-- The phi with its globals and its blocks renamed. -/
def PhiInstruction.rename (self : PhiInstruction) : PhiInstruction where
  branches := self.branches.map fun branch =>
    (ids.block branch.1, branch.2.rename ids.symbol)
  blocks := self.blocks.map ids.block
  refTy := self.refTy
  value := self.value

end Instructions

end Llvm
end TraceWasm
