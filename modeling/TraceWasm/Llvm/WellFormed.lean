import TraceWasm.Llvm.Instruction

/-!
# Well-formed operands and instructions

Every operand has the type that its instruction records for it. What is required of the
registers, symbols and constants in an operand is a parameter.
-/

namespace TraceWasm
namespace Llvm

/-- What is required of the registers, symbols and constants in an operand. -/
structure Leaves where
  reg : String → Prop
  symbol : Global → Prop
  const : ConstValue → Prop

/-- Two requirements together give a third. -/
structure Leaves.Give (leaves others joint : Leaves) : Prop where
  reg : ∀ name, leaves.reg name → others.reg name → joint.reg name
  symbol : ∀ global, leaves.symbol global → others.symbol global → joint.symbol global
  const : ∀ value, leaves.const value → others.const value → joint.const value

/-! ## Values -/

section Values

variable (leaves : Leaves)

mutual

/-- Every part has its own type, and every leaf is as required. -/
def Value.Formed : Value → Prop
  | ⟨ty, kind⟩ => kind.Formed ty

/-- The operand is well formed at a type. -/
def ValueKind.Formed (ty : Ty) : ValueKind → Prop
  | .reg name => leaves.reg name
  | .constExpr expr => expr.ty = ty ∧ expr.Formed
  | .global global => ty = .ptr ∧ leaves.symbol global

/-- Every leaf of the constant expression is well formed. -/
def ConstExpr.Formed : ConstExpr → Prop
  | .getElementPtr operands => operands.Formed
  | .const value => leaves.const value
  | .ptrToInt | .intToPtr | .bitCast _ | .trunc _ => True

/-- The pointer and the indices are well formed. -/
def GetElementPtrOperands.Formed : GetElementPtrOperands → Prop
  | ⟨_, ptr, indices, _⟩ => ptr.Formed ∧ Value.AllFormed indices

/-- All of the values are well formed. -/
def Value.AllFormed : List Value → Prop
  | [] => True
  | value :: values => value.Formed ∧ Value.AllFormed values

end

/-- Values are well formed if each of them is. -/
theorem Value.allFormed_iff {values : List Value} :
    AllFormed leaves values ↔ ∀ value ∈ values, value.Formed leaves := by
  induction values with
  | nil => simp [AllFormed]
  | cons value values inductionHypothesis =>
      rw [AllFormed, inductionHypothesis, List.forall_mem_cons]

end Values

/-! ## Joint requirements -/

section Joint

variable {leaves others joint : Leaves}

mutual

/-- A value that is well formed for two sets of leaves is so for what both give. -/
theorem Value.Formed.joint (give : leaves.Give others joint) :
    {value : Value} → value.Formed leaves → value.Formed others → value.Formed joint
  | ⟨_, _⟩, first, second => ValueKind.Formed.joint give first second

/-- The same of an operand. -/
theorem ValueKind.Formed.joint {ty : Ty} (give : leaves.Give others joint) :
    {kind : ValueKind} → kind.Formed leaves ty → kind.Formed others ty → kind.Formed joint ty
  | .reg _, first, second => give.reg _ first second
  | .constExpr _, first, second => ⟨first.1, ConstExpr.Formed.joint give first.2 second.2⟩
  | .global _, first, second => ⟨first.1, give.symbol _ first.2 second.2⟩

/-- The same of a constant expression. -/
theorem ConstExpr.Formed.joint (give : leaves.Give others joint) :
    {expr : ConstExpr} → expr.Formed leaves → expr.Formed others → expr.Formed joint
  | .getElementPtr _, first, second => GetElementPtrOperands.Formed.joint give first second
  | .const _, first, second => give.const _ first second
  | .ptrToInt, _, _ | .intToPtr, _, _ | .bitCast _, _, _ | .trunc _, _, _ => trivial

theorem GetElementPtrOperands.Formed.joint (give : leaves.Give others joint) :
    {operands : GetElementPtrOperands} → operands.Formed leaves → operands.Formed others →
      operands.Formed joint
  | ⟨_, _, _, _⟩, first, second =>
      ⟨Value.Formed.joint give first.1 second.1, Value.AllFormed.joint give first.2 second.2⟩

theorem Value.AllFormed.joint (give : leaves.Give others joint) :
    {values : List Value} → Value.AllFormed leaves values → Value.AllFormed others values →
      Value.AllFormed joint values
  | [], _, _ => trivial
  | _ :: _, first, second =>
      ⟨Value.Formed.joint give first.1 second.1, Value.AllFormed.joint give first.2 second.2⟩

end

end Joint

/-! ## Instructions -/

namespace InstructionKind

/-- The operands. -/
def values : InstructionKind → List Value
  | .unconditionalBr _ | .unreachable => []
  | .conditionalBr operands => [operands.cond.val]
  | .load operands => [operands.ptr]
  | .store operands => [operands.value, operands.ptr]
  | .alloca operands => operands.count.toList
  | .getElementPtr operands => operands.ptr :: operands.indices
  | .ret operands => operands.value.toList
  | .call operands => operands.params
  | .icmp operands => [operands.a, operands.b]
  | .ibinop operands => [operands.a, operands.b]
  | .fcmp operands => [operands.a, operands.b]
  | .fbinop operands => [operands.a, operands.b]
  | .fneg operands => [operands.value]
  | .cast operands => [operands.value]
  | .switch operands => [operands.condValue]
  | .select operands => [operands.cond.val, operands.trueArm, operands.falseArm]

/-- The blocks that the instruction can go on to. -/
def targets : InstructionKind → List BasicBlockId
  | .unconditionalBr operands => [operands.label]
  | .conditionalBr operands => [operands.trueLabel, operands.falseLabel]
  | .switch operands => operands.defaultLabel :: operands.cases.map (·.2)
  | _ => []

/-- The name that a call is written with. -/
def callee : InstructionKind → Option FuncName
  | .call operands => some operands.funcName
  | _ => none

/-- The type of the register that the instruction can define. -/
def resultTy : InstructionKind → Option Ty
  | .alloca _ | .getElementPtr _ => some .ptr
  | .load operands => some operands.ty
  | .call operands => some operands.returnTy
  | .icmp _ | .fcmp _ => some .i1
  | .ibinop operands => some operands.ty
  | .fbinop operands => some operands.ty
  | .fneg operands => some operands.ty
  | .cast operands => some operands.destTy
  | .select operands => some operands.armsTy
  | _ => none

/-- The operands that are written without a type have the one that is recorded. -/
def Typed : InstructionKind → Prop
  | .ret operands => ∀ value ∈ operands.value, value.ty = operands.ty
  | .icmp operands => operands.a.ty = operands.ty ∧ operands.b.ty = operands.ty
  | .ibinop operands => operands.a.ty = operands.ty ∧ operands.b.ty = operands.ty
  | .fcmp operands => operands.a.ty = operands.ty ∧ operands.b.ty = operands.ty
  | .fbinop operands => operands.a.ty = operands.ty ∧ operands.b.ty = operands.ty
  | .fneg operands => operands.value.ty = operands.ty
  | .cast operands => operands.value.ty = operands.srcTy
  | .switch operands =>
      operands.condTy.isInteger = true ∧ operands.condValue.ty = operands.condTy ∧
        ∀ case ∈ operands.cases, case.1.ty = operands.condTy
  | .select operands =>
      operands.trueArm.ty = operands.armsTy ∧ operands.falseArm.ty = operands.armsTy
  | _ => True

end InstructionKind

/-- A function is called by its name, or through a register. -/
def FuncName.Formed (leaves : Leaves) : FuncName → Prop
  | .global name => ∃ global, global.name = name ∧ leaves.symbol global
  | .local name => leaves.reg name

/-- The instruction is typed and everything it names is well formed. -/
structure InstructionKind.Formed (leaves : Leaves) (kind : InstructionKind) : Prop where
  typed : kind.Typed
  values : ∀ value ∈ kind.values, value.Formed leaves
  callee : ∀ name ∈ kind.callee, name.Formed leaves

/-- The register has the type that the instruction results in. -/
structure Instruction.Formed (leaves : Leaves) (instr : Instruction) : Prop where
  kind : instr.kind.Formed leaves
  value : ∀ value ∈ instr.value, ∃ name ty, value = Value.fromRegister name ty ∧
    leaves.reg name ∧ instr.kind.resultTy = some ty

/-- The branches of the phi have its type, and everything it names is well formed. -/
structure PhiInstruction.Formed (leaves : Leaves) (phi : PhiInstruction) : Prop where
  types : ∀ branch ∈ phi.branches, branch.2.ty = phi.refTy
  values : ∀ branch ∈ phi.branches, branch.2.Formed leaves
  value : ∃ name, phi.value = Value.fromRegister name phi.refTy ∧ leaves.reg name

section Joint

variable {leaves result : Leaves}

/-- A callee stays well formed when more leaves are good. -/
theorem FuncName.Formed.imp
    {name : FuncName}
    (reg : ∀ name, leaves.reg name → result.reg name)
    (symbol : ∀ global, leaves.symbol global → result.symbol global)
    (formed : name.Formed leaves) :
    name.Formed result := by
  cases name with
  | global name =>
      obtain ⟨global, named, there⟩ := formed
      exact ⟨global, named, symbol _ there⟩
  | «local» name => exact reg _ formed

/-- Nothing is required of registers and symbols. -/
def Leaves.ofConst (const : ConstValue → Prop) : Leaves where
  reg := fun _ => True
  symbol := fun _ => True
  const := const

variable {const : ConstValue → Prop} (give : leaves.Give (.ofConst const) result)
include give

/-- An instruction stays well formed when its constants are good. -/
theorem Instruction.Formed.joint
    {instr : Instruction}
    (formed : instr.Formed leaves)
    (values : ∀ value ∈ instr.kind.values, value.Formed (.ofConst const)) :
    instr.Formed result where
  kind :=
    { typed := formed.kind.typed
      values := fun value member =>
        (formed.kind.values value member).joint give (values value member)
      callee := fun name called =>
        (formed.kind.callee name called).imp (fun _ there => give.reg _ there trivial)
          fun _ there => give.symbol _ there trivial }
  value := by
    intro value defined
    obtain ⟨name, ty, same, there, defines⟩ := formed.value value defined
    exact ⟨name, ty, same, give.reg _ there trivial, defines⟩

/-- So does a phi. -/
theorem PhiInstruction.Formed.joint
    {phi : PhiInstruction}
    (formed : phi.Formed leaves)
    (values : ∀ branch ∈ phi.branches, branch.2.Formed (.ofConst const)) :
    phi.Formed result where
  types := formed.types
  values := fun branch member =>
    (formed.values branch member).joint give (values branch member)
  value := by
    obtain ⟨name, same, there⟩ := formed.value
    exact ⟨name, same, give.reg _ there trivial⟩

end Joint

end Llvm
end TraceWasm
