import TraceWasm.Llvm.Consistency
import TraceWasm.Llvm.Made
import TraceWasm.Llvm.Sizes

/-!
# Well-typed instructions

What LLVM asks of the operands of every instruction. An instruction of a function is
judged against the definitions of its pointers, the symbols and the function's result,
and stays well typed when more is built.
-/

namespace TraceWasm
namespace Llvm

/-! ## Conversions -/

/-- The conversions that LLVM has. -/
inductive CastOp.Connects : CastOp → Ty → Ty → Prop where
  | trunc {src dest : Ty} {from_ into : Nat} (srcInteger : src.isInteger = true)
      (destInteger : dest.isInteger = true) (srcWidth : src.width = some from_)
      (destWidth : dest.width = some into) (narrower : into < from_) : Connects .trunc src dest
  | zext {src dest : Ty} {from_ into : Nat} (srcInteger : src.isInteger = true)
      (destInteger : dest.isInteger = true) (srcWidth : src.width = some from_)
      (destWidth : dest.width = some into) (wider : from_ < into) : Connects .zext src dest
  | sext {src dest : Ty} {from_ into : Nat} (srcInteger : src.isInteger = true)
      (destInteger : dest.isInteger = true) (srcWidth : src.width = some from_)
      (destWidth : dest.width = some into) (wider : from_ < into) : Connects .sext src dest
  | fptrunc {src dest : Ty} {from_ into : Nat} (srcFloat : src.isFloat = true)
      (destFloat : dest.isFloat = true) (srcWidth : src.width = some from_)
      (destWidth : dest.width = some into) (narrower : into < from_) : Connects .fptrunc src dest
  | fpext {src dest : Ty} {from_ into : Nat} (srcFloat : src.isFloat = true)
      (destFloat : dest.isFloat = true) (srcWidth : src.width = some from_)
      (destWidth : dest.width = some into) (wider : from_ < into) : Connects .fpext src dest
  | fptoui {src dest : Ty} (srcFloat : src.isFloat = true) (destInteger : dest.isInteger = true) :
      Connects .fptoui src dest
  | fptosi {src dest : Ty} (srcFloat : src.isFloat = true) (destInteger : dest.isInteger = true) :
      Connects .fptosi src dest
  | uitofp {src dest : Ty} (srcInteger : src.isInteger = true) (destFloat : dest.isFloat = true) :
      Connects .uitofp src dest
  | sitofp {src dest : Ty} (srcInteger : src.isInteger = true) (destFloat : dest.isFloat = true) :
      Connects .sitofp src dest
  | ptrtoint {dest : Ty} (destInteger : dest.isInteger = true) : Connects .ptrtoint .ptr dest
  | inttoptr {src : Ty} (srcInteger : src.isInteger = true) : Connects .inttoptr src .ptr
  /-- Neither a pointer nor an aggregate has a width of its own. -/
  | bitcast {src dest : Ty} {bits : Nat} (srcWidth : src.width = some bits)
      (destWidth : dest.width = some bits) : Connects .bitcast src dest

/-- Two types have widths that are related. -/
theorem CastOp.widths_eq_true
    {related : Nat → Nat → Bool} {src dest : Ty} :
    widths related src dest = true ↔
      ∃ srcWidth destWidth, src.width = some srcWidth ∧ dest.width = some destWidth ∧
        related srcWidth destWidth = true := by
  unfold widths
  cases src.width <;> cases dest.width <;> simp

/-- A conversion that is allowed connects its types as it should. -/
theorem CastOp.connects_of_isCastAllowed
    {op : CastOp} {src dest : Ty}
    (allowed : op.isCastAllowed src dest = true) :
    op.Connects src dest := by
  cases op <;>
    simp only [isCastAllowed, Bool.and_eq_true, decide_eq_true_eq, widths_eq_true,
      beq_iff_eq] at allowed
  case trunc =>
    obtain ⟨⟨srcInteger, destInteger⟩, _, _, srcWidth, destWidth, narrower⟩ := allowed
    exact .trunc srcInteger destInteger srcWidth destWidth narrower
  case zext =>
    obtain ⟨⟨srcInteger, destInteger⟩, _, _, srcWidth, destWidth, wider⟩ := allowed
    exact .zext srcInteger destInteger srcWidth destWidth wider
  case sext =>
    obtain ⟨⟨srcInteger, destInteger⟩, _, _, srcWidth, destWidth, wider⟩ := allowed
    exact .sext srcInteger destInteger srcWidth destWidth wider
  case fptrunc =>
    obtain ⟨⟨srcFloat, destFloat⟩, _, _, srcWidth, destWidth, narrower⟩ := allowed
    exact .fptrunc srcFloat destFloat srcWidth destWidth narrower
  case fpext =>
    obtain ⟨⟨srcFloat, destFloat⟩, _, _, srcWidth, destWidth, wider⟩ := allowed
    exact .fpext srcFloat destFloat srcWidth destWidth wider
  case fptoui => exact .fptoui allowed.1 allowed.2
  case fptosi => exact .fptosi allowed.1 allowed.2
  case uitofp => exact .uitofp allowed.1 allowed.2
  case sitofp => exact .sitofp allowed.1 allowed.2
  case ptrtoint =>
    obtain ⟨rfl, destInteger⟩ := allowed
    exact .ptrtoint destInteger
  case inttoptr =>
    obtain ⟨srcInteger, rfl⟩ := allowed
    exact .inttoptr srcInteger
  case bitcast =>
    obtain ⟨_, _, srcWidth, destWidth, rfl⟩ := allowed
    exact .bitcast srcWidth destWidth

/-! ## Pointers -/

/-- What the pointer, an operand of the function, is known to point at. -/
def Value.PointsAt (ctx : Context) (f : FuncId) (self : Value) (ty : Ty) : Prop :=
  match self.kind with
  | .reg name => ∃ place instr pointee,
      ctx.DefinedAt f name place instr ∧ instr.pointeeTy = some pointee ∧ pointee.ty = ty
  | .constExpr (.getElementPtr operands) => operands.resultPointeeTy = some ty
  | .constExpr _ => False
  | .global global => ∃ kind, ctx.globals global.name = some kind ∧ kind.pointeeTy = ty

/-- The operand is there: a register of the function, a symbol of the module. -/
def Value.Exists (ctx : Context) (f : FuncId) (self : Value) : Prop :=
  match self.kind with
  | .reg name => name ∈ ctx.registers f
  | .constExpr _ => True
  | .global global => ∃ kind, ctx.globals global.name = some kind

/-! ## Instructions -/

namespace InstructionKind

/-- The instruction is well typed in the function. -/
def WellTyped (ctx : Context) (f : FuncId) : InstructionKind → Prop
  | .unconditionalBr _ | .conditionalBr _ | .unreachable => True
  | .load operands => operands.ptr.ty = .ptr ∧ operands.ty.Sized
  | .store operands =>
      operands.ptr.ty = .ptr ∧ operands.ptr.Exists ctx f ∧
        ∀ ty, operands.ptr.PointsAt ctx f ty → operands.value.ty = ty
  | .alloca operands =>
      operands.ty.Sized ∧ ∀ count ∈ operands.count, count.ty.isInteger = true
  | .getElementPtr operands =>
      operands.ptr.ty = .ptr ∧ operands.sourceTy.Sized ∧
        (∀ index ∈ operands.indices, index.ty.isInteger = true) ∧
        ∃ ty, operands.resultPointeeTy = some ty
  | .ret operands => ∃ func, ctx.funcs[f]? = some func ∧ operands.ty = func.result ∧
      operands.value.map (·.ty) = if func.result = .void then none else some func.result
  | .call operands => ∃ sig : FuncSignature,
      (∀ name, operands.funcName = .global name → ctx.globals name = some (.func sig)) ∧
        operands.params.map (·.ty) = sig.params ∧ operands.returnTy = sig.result
  | .icmp operands => operands.a.ty = operands.ty ∧ operands.b.ty = operands.ty ∧
      (operands.ty.isInteger = true ∨ operands.ty = .ptr)
  | .ibinop operands => operands.a.ty = operands.ty ∧ operands.b.ty = operands.ty ∧
      operands.ty.isInteger = true
  | .fcmp operands => operands.a.ty = operands.ty ∧ operands.b.ty = operands.ty ∧
      operands.ty.isFloat = true
  | .fbinop operands => operands.a.ty = operands.ty ∧ operands.b.ty = operands.ty ∧
      operands.ty.isFloat = true
  | .fneg operands => operands.value.ty = operands.ty ∧ operands.ty.isFloat = true
  | .cast operands =>
      operands.value.ty = operands.srcTy ∧ operands.op.Connects operands.srcTy operands.destTy
  | .switch operands =>
      operands.condValue.ty = operands.condTy ∧ operands.condTy.isInteger = true ∧
        (∀ case ∈ operands.cases, case.1.ty = operands.condTy) ∧
        (operands.cases.map (·.1)).Nodup
  | .select operands =>
      operands.trueArm.ty = operands.armsTy ∧ operands.falseArm.ty = operands.armsTy ∧
        operands.armsTy.Sized

end InstructionKind

/-- The instruction is well typed, and its register has the type that it results in. -/
structure Instruction.WellTyped (ctx : Context) (f : FuncId) (instr : Instruction) : Prop where
  kind : instr.kind.WellTyped ctx f
  value : ∀ value ∈ instr.value, instr.kind.resultTy = some value.ty

/-- Every phi and every instruction of the block is well typed. -/
structure BasicBlock.WellTyped (ctx : Context) (block : BasicBlock) : Prop where
  phis : ∀ phi ∈ block.phis, phi.Sound ∧ phi.value.ty = phi.refTy
  instructions : ∀ instr ∈ block.instructions, instr.WellTyped ctx block.funcId

/-- Everything in the graph is well typed. -/
def Context.WellTyped (ctx : Context) : Prop :=
  ∀ block ∈ ctx.blocks, block.WellTyped ctx

end Llvm
end TraceWasm
