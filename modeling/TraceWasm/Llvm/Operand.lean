import TraceWasm.Llvm.Graph

/-!
# Operands read against the graph

What a pointer points at is recorded by the instruction that defines its register, by
a global's declaration, or by a constant expression.
-/

namespace TraceWasm
namespace Llvm

/-- What a pointer is known to point to. -/
structure PointeeTy where
  ty : Ty
  count : Option Value

namespace Instruction

/-- What the instruction records of the pointer that it defines. -/
def pointeeTy (self : Instruction) : Option PointeeTy :=
  match self.kind with
  | .alloca operands => some ⟨operands.ty, operands.count⟩
  | .getElementPtr operands => operands.resultPointeeTy.map (⟨·, none⟩)
  | _ => none

end Instruction

namespace Value

/-- What the value points at, as far as that is recorded. The register is one of the
function that the block belongs to. -/
def tryInferringPointeeTy (self : Value) (block : BasicBlockId) (ctx : Context) :
    Attempt ε (Option PointeeTy) :=
  if self.ty ≠ .ptr then return none
  else
    match self.kind with
    | .reg name => do
        let funcId := (← ctx.getBlock block).funcId
        let defs ← ctx.registerDefs funcId
        match defs name with
        | none => return none
        | some place => do
            let defining ← ctx.getBlock place.block
            let ptrInstr ← Attempt.orPanic defining.instructions[place.instrIndex]?
            return ptrInstr.pointeeTy
    | .constExpr (.getElementPtr operands) =>
        return operands.resultPointeeTy.map (⟨·, none⟩)
    | .constExpr _ => return none
    | .global global => do
        let kind ← Attempt.orPanic (ctx.globals global.name)
        return some ⟨kind.pointeeTy, none⟩

/-- The operand at the type that is asserted of it. -/
def castAsserted (self : Value) (ty : OperandTy) (refused : Ty → ε) :
    Attempt ε Value :=
  match ty with
  | .asserted ty => Attempt.orFail (refused ty) (self.tryCast ty .signed)
  | .inferred => return self

end Value

/-- The callee's name and signature. -/
def FuncRef.nameAndSig (self : FuncRef) (ctx : Context) :
    Attempt CallError (FuncName × FuncSignature) :=
  match self with
  | .declared name | .defined name _ =>
      match ctx.globals name with
      | none => Attempt.fail (.functionNotFound name)
      | some (.func sig) => return (.global name, sig)
      | some (.variable _ _) => Attempt.panicked
  | .pointer ptr sig =>
      if ptr.ty ≠ .ptr then Attempt.panicked
      else
        match ptr.kind with
        | .reg name => return (.local name, sig)
        | _ => Attempt.panicked

end Llvm
end TraceWasm
