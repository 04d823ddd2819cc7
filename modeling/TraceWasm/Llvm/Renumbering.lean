import TraceWasm.Llvm.ModuleText
import TraceWasm.Llvm.Typing

/-!
# Renumbered modules

Two modules are the same up to the numbering of blocks and functions when renaming the
positions in the first one gives the second one.
-/

namespace TraceWasm
namespace Llvm

/-! ## Renaming what is well formed -/

section Values

variable {leaves : Leaves} {first second : Global → Global}

mutual

/-- Only the symbols of a value matter for its renaming. -/
theorem Value.rename_congr (same : ∀ global, leaves.symbol global → first global = second global) :
    {value : Value} → value.Formed leaves → value.rename first = value.rename second
  | ⟨ty, kind⟩, formed => by
      rw [Value.rename, Value.rename, ValueKind.rename_congr same formed]

/-- Two renamings that agree on the globals of an operand rename it alike. -/
theorem ValueKind.rename_congr {ty : Ty}
    (same : ∀ global, leaves.symbol global → first global = second global) :
    {kind : ValueKind} → kind.Formed leaves ty → kind.rename first = kind.rename second
  | .reg _, _ => rfl
  | .constExpr _, formed => congrArg ValueKind.constExpr (ConstExpr.rename_congr same formed.2)
  | .global _, formed => congrArg ValueKind.global (same _ formed.2)

/-- The same of a constant expression. -/
theorem ConstExpr.rename_congr
    (same : ∀ global, leaves.symbol global → first global = second global) :
    {expr : ConstExpr} → expr.Formed leaves → expr.rename first = expr.rename second
  | .getElementPtr _, formed =>
      congrArg ConstExpr.getElementPtr (GetElementPtrOperands.rename_congr same formed)
  | .const _, _ | .ptrToInt, _ | .intToPtr, _ | .bitCast _, _ | .trunc _, _ => rfl

/-- The same of the operands of an address. -/
theorem GetElementPtrOperands.rename_congr
    (same : ∀ global, leaves.symbol global → first global = second global) :
    {operands : GetElementPtrOperands} → operands.Formed leaves →
      operands.rename first = operands.rename second
  | ⟨_, _, _, _⟩, formed => by
      rw [GetElementPtrOperands.rename, GetElementPtrOperands.rename,
        Value.rename_congr same formed.1, Value.renameAll_congr same formed.2]

/-- The same of several values. -/
theorem Value.renameAll_congr
    (same : ∀ global, leaves.symbol global → first global = second global) :
    {values : List Value} → Value.AllFormed leaves values →
      Value.renameAll first values = Value.renameAll second values
  | [], _ => rfl
  | _ :: _, formed => by
      rw [Value.renameAll, Value.renameAll, Value.rename_congr same formed.1,
        Value.renameAll_congr same formed.2]

end

mutual

/-- Renaming nothing leaves a value. -/
theorem Value.rename_id : (value : Value) → value.rename id = value
  | ⟨ty, kind⟩ => by rw [Value.rename, ValueKind.rename_id]

/-- It leaves an operand. -/
theorem ValueKind.rename_id : (kind : ValueKind) → kind.rename id = kind
  | .reg _ => rfl
  | .constExpr expr => congrArg ValueKind.constExpr (ConstExpr.rename_id expr)
  | .global _ => rfl

/-- It leaves a constant expression. -/
theorem ConstExpr.rename_id : (expr : ConstExpr) → expr.rename id = expr
  | .getElementPtr operands =>
      congrArg ConstExpr.getElementPtr (GetElementPtrOperands.rename_id operands)
  | .const _ | .ptrToInt | .intToPtr | .bitCast _ | .trunc _ => rfl

theorem GetElementPtrOperands.rename_id :
    (operands : GetElementPtrOperands) → operands.rename id = operands
  | ⟨_, ptr, indices, _⟩ => by
      rw [GetElementPtrOperands.rename, Value.rename_id ptr, Value.renameAll_id indices]

theorem Value.renameAll_id : (values : List Value) → Value.renameAll id values = values
  | [] => rfl
  | value :: values => by
      rw [Value.renameAll, Value.rename_id value, Value.renameAll_id values]

end

end Values

section Instructions

variable {leaves : Leaves} {first second : Renaming}

/-- Only the targets and the symbols of an instruction matter for its renaming. -/
theorem Instruction.Formed.rename_congr
    {instr : Instruction}
    (formed : instr.Formed leaves)
    (symbols : ∀ global, leaves.symbol global → first.symbol global = second.symbol global)
    (blocks : ∀ target ∈ instr.kind.targets, first.block target = second.block target) :
    instr.rename first = instr.rename second := by
  have values (value : Value) (member : value ∈ instr.kind.values) :
      value.rename first.symbol = value.rename second.symbol :=
    Value.rename_congr symbols (formed.kind.values value member)
  obtain ⟨kind, defined⟩ := instr
  have kinds : kind.rename first = kind.rename second := by
    cases kind with
    | unconditionalBr operands =>
        simp_all [InstructionKind.rename, UnconditionalBrOperands.rename, InstructionKind.targets]
    | conditionalBr operands =>
        simp_all [InstructionKind.rename, ConditionalBrOperands.rename, I1Value.rename,
          InstructionKind.targets, InstructionKind.values]
    | load operands =>
        simp_all [InstructionKind.rename, LoadOperands.rename, InstructionKind.values]
    | store operands =>
        simp_all [InstructionKind.rename, StoreOperands.rename, InstructionKind.values]
    | alloca operands =>
        have counts : operands.count.map (·.rename first.symbol) =
            operands.count.map (·.rename second.symbol) :=
          Option.map_congr fun count given => values count (Option.mem_toList.mpr given)
        simp only [InstructionKind.rename, AllocaOperands.rename, counts]
    | getElementPtr operands =>
        obtain ⟨sourceTy, ptr, indices, inbounds⟩ := operands
        simp_all [InstructionKind.rename, GetElementPtrOperands.rename, Value.renameAll_eq,
          InstructionKind.values]
    | ret operands =>
        have returned : operands.value.map (·.rename first.symbol) =
            operands.value.map (·.rename second.symbol) :=
          Option.map_congr fun value given => values value (Option.mem_toList.mpr given)
        simp only [InstructionKind.rename, RetOperands.rename, returned]
    | call operands =>
        simp_all [InstructionKind.rename, CallOperands.rename, InstructionKind.values]
    | icmp operands =>
        simp_all [InstructionKind.rename, ICmpOperands.rename, InstructionKind.values]
    | ibinop operands =>
        simp_all [InstructionKind.rename, IBinOpOperands.rename, InstructionKind.values]
    | fcmp operands =>
        simp_all [InstructionKind.rename, FCmpOperands.rename, InstructionKind.values]
    | fbinop operands =>
        simp_all [InstructionKind.rename, FBinOpOperands.rename, InstructionKind.values]
    | fneg operands =>
        simp_all [InstructionKind.rename, FNegOperands.rename, InstructionKind.values]
    | cast operands =>
        simp_all [InstructionKind.rename, CastOperands.rename, InstructionKind.values]
    | «switch» operands =>
        obtain ⟨defaultSame, casesSame⟩ := List.forall_mem_cons.mp blocks
        have condition := values operands.condValue List.mem_cons_self
        have cases : operands.cases.map (fun case => (case.1, first.block case.2)) =
            operands.cases.map fun case => (case.1, second.block case.2) := by
          apply List.map_congr_left
          intro case member
          rw [casesSame case.2 (List.mem_map_of_mem member)]
        simp only [InstructionKind.rename, SwitchOperands.rename, condition, defaultSame, cases]
    | select operands =>
        simp_all [InstructionKind.rename, SelectOperands.rename, I1Value.rename,
          InstructionKind.values]
    | unreachable => rfl
  rw [Instruction.rename, Instruction.rename, kinds]

/-- Two renamings that agree on what a phi names rename it alike. -/
theorem PhiInstruction.Formed.rename_congr
    {phi : PhiInstruction}
    (formed : phi.Formed leaves)
    (symbols : ∀ global, leaves.symbol global → first.symbol global = second.symbol global)
    (blocks : ∀ branch ∈ phi.branches, first.block branch.1 = second.block branch.1) :
    (phi.rename first).written = (phi.rename second).written := by
  have branches : phi.branches.map (fun branch =>
        (first.block branch.1, branch.2.rename first.symbol)) =
      phi.branches.map fun branch =>
        (second.block branch.1, branch.2.rename second.symbol) := by
    apply List.map_congr_left
    intro branch member
    rw [blocks branch member, Value.rename_congr symbols (formed.values branch member)]
  simp only [PhiInstruction.rename, PhiInstruction.written, branches]

/-- Nothing is renamed. -/
def Renaming.identity : Renaming := ⟨id, id⟩

/-- Renaming nothing leaves an instruction. -/
theorem Instruction.rename_identity (instr : Instruction) :
    instr.rename .identity = instr := by
  have all : Value.rename id = id := funext Value.rename_id
  obtain ⟨kind, defined⟩ := instr
  have kinds : kind.rename .identity = kind := by
    cases kind <;>
      simp [InstructionKind.rename, Renaming.identity, UnconditionalBrOperands.rename,
        ConditionalBrOperands.rename, LoadOperands.rename, StoreOperands.rename,
        AllocaOperands.rename, RetOperands.rename, CallOperands.rename, ICmpOperands.rename,
        IBinOpOperands.rename, FCmpOperands.rename, FBinOpOperands.rename, FNegOperands.rename,
        CastOperands.rename, SwitchOperands.rename, SelectOperands.rename, I1Value.rename,
        GetElementPtrOperands.rename_id, all]
  rw [Instruction.rename, kinds]

/-- It leaves a phi. -/
theorem PhiInstruction.rename_identity (phi : PhiInstruction) :
    phi.rename .identity = phi := by
  have all : Value.rename id = id := funext Value.rename_id
  simp [PhiInstruction.rename, Renaming.identity, all]

end Instructions

/-! ## Renumbered contexts -/

/-- Where the blocks and the functions of a context are in another one. -/
structure Renumbering where
  block : BasicBlockId → BasicBlockId
  func : FuncId → FuncId

/-- The symbol with its function renumbered. -/
def Global.renumber (func : FuncId → FuncId) : Global → Global
  | .variable name => .variable name
  | .definedFunc name id => .definedFunc name (func id)
  | .declaredFunc name => .declaredFunc name

/-- What the renumbering does to the blocks and the globals. -/
def Renumbering.renaming (self : Renumbering) : Renaming where
  block := self.block
  symbol := Global.renumber self.func

/-- The other block has the same label, phis and instructions, renamed. -/
structure BasicBlock.Renames (ids : Renaming) (block other : BasicBlock) : Prop where
  name : other.name = block.name
  phis : other.phis.map (·.written) = block.phis.map fun phi => (phi.rename ids).written
  instructions : other.instructions = block.instructions.map (·.rename ids)

/-- The other function has the same signature and the blocks in the same order. -/
structure Function.Renames (ids : Renaming) (func other : Function) : Prop where
  name : other.name = func.name
  params : other.params = func.params
  result : other.result = func.result
  blocks : other.blocks = func.blocks.map ids.block

/-- The other context is the same module up to the numbering. -/
structure Context.Renumbers (ids : Renumbering) (ctx other : Context) : Prop where
  globalVariables : other.globalVariables = ctx.globalVariables
  importedFunctions : other.importedFunctions = ctx.importedFunctions
  functions : other.functions = ctx.functions.map ids.func
  data : ∀ name ∈ ctx.globalVariables, ∃ ty initializer,
    ctx.globals name = some (.variable ty initializer) ∧
      other.globals name =
        some (.variable ty (initializer.map (·.rename ids.renaming.symbol)))
  declarations : ∀ name ∈ ctx.importedFunctions, ∃ sig,
    ctx.globals name = some (.func sig) ∧ other.globals name = some (.func sig)
  definitions : ∀ f ∈ ctx.functions, ∃ func otherFunc, ctx.funcs[f]? = some func ∧
    other.funcs[ids.func f]? = some otherFunc ∧ func.Renames ids.renaming otherFunc
  bodies : ∀ f ∈ ctx.functions, ∀ func, ctx.funcs[f]? = some func → ∀ id ∈ func.blocks,
    ∃ block otherBlock, ctx.blocks[id]? = some block ∧
      other.blocks[ids.block id]? = some otherBlock ∧ block.Renames ids.renaming otherBlock
  /-- Functions stay apart. -/
  func_injective : Set.InjOn ids.func {f | f ∈ ctx.functions}
  /-- Blocks stay apart. -/
  block_injective : Set.InjOn ids.block
    {id | ∃ f ∈ ctx.functions, ∃ func, ctx.funcs[f]? = some func ∧ id ∈ func.blocks}

/-- Only what the names of a block's targets and symbols stand for matters for its text. -/
theorem BasicBlock.written_congr
    {leaves : Leaves} {first second : Renaming} {block : BasicBlock}
    (formed : block.Formed leaves)
    (symbols : ∀ global, leaves.symbol global → first.symbol global = second.symbol global)
    (predecessors : ∀ phi ∈ block.phis, ∀ branch ∈ phi.branches,
      first.block branch.1 = second.block branch.1)
    (targets : ∀ instr ∈ block.instructions, ∀ target ∈ instr.kind.targets,
      first.block target = second.block target) :
    block.written first = block.written second := by
  have phis : block.phis.map (fun phi => (phi.rename first).written) =
      block.phis.map fun phi => (phi.rename second).written :=
    List.map_congr_left fun phi member =>
      (formed.phis phi member).rename_congr symbols (predecessors phi member)
  have instructions : block.instructions.map (·.rename first) =
      block.instructions.map (·.rename second) :=
    List.map_congr_left fun instr member =>
      (formed.instructions instr member).rename_congr symbols (targets instr member)
  rw [BasicBlock.written, BasicBlock.written, phis, instructions]

end Llvm
end TraceWasm
