import TraceWasm.Llvm.Builder
import TraceWasm.Llvm.Cursor
import Mathlib.Logic.Relation

/-!
# Builder and cursor calls

Everything that a caller can do to a context under construction.
-/

namespace TraceWasm
namespace Llvm

/-! ## Carrying out a write -/

/-- Issue a name in the function that the block belongs to. -/
def nameInBlock (block : BasicBlockId) (reg : RegName) :
    Build ContextError (String × FuncId) := do
  let funcId ← Stateful.read fun ctx => return (← ctx.getBlock block).funcId
  let name ← nameForReg reg funcId
  return (name, funcId)

/-- Issue the register's name, append the instruction, record where it is. -/
def addInstructionToBlockAndGetValue
    (kind : InstructionKind) (resultTy : Ty) (block : BasicBlockId) (reg : RegName) :
    Build InstructionError Value := do
  let (name, funcId) ← (nameInBlock block reg).mapError .context
  let val := Value.fromRegister name resultTy
  let instrIndex ← BasicBlock.addInstruction block ⟨kind, some val⟩
  Stateful.modify fun ctx => ctx.insertRegisterDef funcId name ⟨block, instrIndex⟩
  return val

/-- Put the instruction into the block, as the builder's last step does. -/
def Write.carryOut (block : BasicBlockId) : Write → Build InstructionError (Option Value)
  | .define kind resultTy reg => do
      let val ← addInstructionToBlockAndGetValue kind resultTy block reg
      return some val
  | .append kind => do
      let _ ← BasicBlock.addInstruction block ⟨kind, none⟩
      return none
  | .terminate kind => do
      let _ ← BasicBlock.addInstruction block ⟨kind, none⟩
      BasicBlock.setLocked block
      return none

/-! ## Phis -/

/-- Add branches to a phi one by one, up to the first that is refused. -/
def addBranches (phi : PhiInstrHandler) : List (BasicBlockId × Value) → Build PhiError Unit
  | [] => pure ()
  | branch :: branches => do
      phi.addBranch branch
      addBranches phi branches

/-- Place a phi without branches, then give it its branches one by one. -/
def buildPhi (block : BasicBlockId) (branches : List (BasicBlockId × Value)) (reg : RegName) :
    Build PhiError (PhiInstrHandler × Value) :=
  match branches with
  | [] => Stateful.read fun _ => Attempt.fail .phiInstructionWithNoBranches
  | first :: _ => do
      let refTy := first.2.ty
      let (name, _) ← (nameInBlock block reg).mapError .context
      let val := Value.fromRegister name refTy
      let phi ← BasicBlock.addPhi block ⟨[], [], refTy, val⟩
      addBranches phi branches
      return (phi, val)

/-! ## Calls -/

/-- A call of a cursor's builder, phis apart. -/
inductive CursorCall where
  | unconditionalBr (label : BasicBlockId)
  | conditionalBr (cond : I1Value) (trueLabel falseLabel : BasicBlockId)
  | ret (val : Option Value) (ty : OperandTy)
  | switch (condVal : Value) (condTy : OperandTy) (defaultLabel : BasicBlockId)
      (cases : List (ConstValue × BasicBlockId))
  | unreachable
  | alloca (ty : Ty) (count : Option (Value × OperandTy)) (align : Option Nat)
      (reg : RegName)
  | load (ptr : Value) (ty : OperandTy) (align : Option Nat) (reg : RegName)
  | store (ptr value : Value) (ty : OperandTy) (align : Option Nat)
  | getElementPtr (ptr : Value) (sourceTy : OperandTy) (indices : List Value)
      (inbounds : Option Bool) (reg : RegName)
  | call (func : FuncRef) (params : List (Value × OperandTy)) (returnTy : OperandTy)
      (reg : RegName)
  | voidCall (func : FuncRef) (params : List (Value × OperandTy))
  | icmp (cond : ICond) (ty : OperandTy) (a b : Value) (reg : RegName)
  | ibinop (op : IBinOp) (ty : OperandTy) (a b : Value) (reg : RegName)
  | fcmp (cond : FCond) (ty : OperandTy) (a b : Value) (reg : RegName)
  | fbinop (op : FBinOp) (ty : OperandTy) (a b : Value) (reg : RegName)
  | fneg (value : Value) (reg : RegName)
  | cast (op : CastOp) (value : Value) (src : OperandTy) (dest : Ty) (reg : RegName)
  | select (cond : I1Value) (armsTy : OperandTy) (trueArm falseArm : Value) (reg : RegName)

/-- What the call writes, if its operands pass the checks. -/
def CursorCall.write (ctx : Context) (block : BasicBlockId) :
    CursorCall → Attempt InstructionError Write
  | .unconditionalBr label => buildUnconditionalBr label
  | .conditionalBr cond trueLabel falseLabel => buildConditionalBr cond trueLabel falseLabel
  | .ret val ty => buildRet ctx block val ty
  | .switch condVal condTy defaultLabel cases => buildSwitch condVal condTy defaultLabel cases
  | .unreachable => buildUnreachable
  | .alloca ty count align reg => buildAlloca ty count align reg
  | .load ptr ty align reg => buildLoad ctx block ptr ty align reg
  | .store ptr value ty align => buildStore ctx block ptr value ty align
  | .getElementPtr ptr sourceTy indices inbounds reg =>
      buildGetElementPtr ctx block ptr sourceTy indices inbounds reg
  | .call func params returnTy reg => buildCall ctx func params returnTy reg
  | .voidCall func params => buildVoidCall ctx func params
  | .icmp cond ty a b reg => buildIcmp cond ty a b reg
  | .ibinop op ty a b reg => buildIbinop op ty a b reg
  | .fcmp cond ty a b reg => buildFcmp cond ty a b reg
  | .fbinop op ty a b reg => buildFbinop op ty a b reg
  | .fneg value reg => buildFneg value reg
  | .cast op value src dest reg => buildCast op value src dest reg
  | .select cond armsTy trueArm falseArm reg => buildSelect cond armsTy trueArm falseArm reg

/-- Run a builder of a cursor at a block. -/
def CursorCall.run (self : CursorCall) (block : BasicBlockId) :
    Build InstructionError (Option Value) := do
  let write ← Stateful.read fun ctx => self.write ctx block
  write.carryOut block

/-- A call of a builder, of a cursor at a block or of a phi's handler. -/
inductive Call where
  | addBasicBlock (func : FuncId) (name : String)
  | declareGlobalVariable (name : String) (ty : Option Ty) (initializer : Option ConstExpr)
  | declareFunction (name : String) (params : List Ty) (result : Ty)
  | defineFunction (name : String) (params : List (Ty × RegName)) (result : Ty)
  | buildPhi (block : BasicBlockId) (branches : List (BasicBlockId × Value)) (reg : RegName)
  | addBranch (phi : PhiInstrHandler) (branch : BasicBlockId × Value)
  | build (block : BasicBlockId) (call : CursorCall)

/-- Why a call was refused. -/
inductive Refusal where
  | context (reported : ContextError)
  | phi (reported : PhiError)
  | instruction (reported : InstructionError)

/-- Run a call. What it hands back names what the context holds. -/
def Call.perform : Call → Build Refusal Unit
  | .addBasicBlock func name => do
      let _ ← (Llvm.addBasicBlock func name).mapError .context
  | .declareGlobalVariable name ty initializer =>
      (Llvm.declareGlobalVariable name ty initializer).mapError .context
  | .declareFunction name params result =>
      (Llvm.declareFunction name params result).mapError .context
  | .defineFunction name params result => do
      let _ ← (Llvm.defineFunction name params result).mapError .context
  | .buildPhi block branches reg => do
      let _ ← (Llvm.buildPhi block branches reg).mapError .phi
  | .addBranch phi branch => (phi.addBranch branch).mapError .phi
  | .build block call => do
      let _ ← (call.run block).mapError .instruction

/-! ## Runs -/

/-- A call that is allowed and does not panic. -/
def Step (allowed : Context → Call → Prop) (before after : Context) : Prop :=
  ∃ call outcome, allowed before call ∧ call.perform before = (outcome, after) ∧
    outcome ≠ .error .panic

/-- Calls of any kind, accepted or refused, in any order. -/
def Runs (allowed : Context → Call → Prop) : Context → Context → Prop :=
  Relation.ReflTransGen (Step allowed)

/-- What calls make of an empty context. -/
def Reachable (ctx : Context) : Prop :=
  Runs (fun _ _ => True) Context.new ctx

/-- A run that goes on with an allowed call. -/
theorem Runs.perform
    {allowed : Context → Call → Prop} {ctx before : Context} {call : Call}
    (runs : Runs allowed ctx before) (isAllowed : allowed before call)
    (fine : (call.perform before).1 ≠ .error .panic) :
    Runs allowed ctx (call.perform before).2 :=
  Relation.ReflTransGen.tail runs ⟨call, _, isAllowed, rfl, fine⟩

/-- Run calls one after another. -/
def performAll : List Call → Context → Option Context
  | [], ctx => some ctx
  | call :: calls, ctx =>
      match call.perform ctx with
      | (.error .panic, _) => none
      | (_, after) => performAll calls after

/-- Calls that are all allowed are a run of allowed calls. -/
theorem allowedRuns_of_performAll
    {allowed : Context → Call → Prop} {calls : List Call} {ctx after : Context}
    (isAllowed : ∀ call ∈ calls, ∀ ctx, allowed ctx call)
    (ran : performAll calls ctx = some after) :
    Runs allowed ctx after := by
  induction calls generalizing ctx with
  | nil =>
      cases ran
      exact .refl
  | cons call calls inductionHypothesis =>
      obtain ⟨here, later⟩ := List.forall_mem_cons.mp isAllowed
      rw [performAll] at ran
      split at ran
      case h_1 => cases ran
      case h_2 outcome between fine performed =>
        apply Relation.ReflTransGen.head _ (inductionHypothesis later ran)
        exact ⟨call, outcome, here ctx, performed, fine⟩

/-- Any calls are a run. -/
theorem runs_of_performAll
    {calls : List Call} {ctx after : Context}
    (ran : performAll calls ctx = some after) :
    Runs (fun _ _ => True) ctx after :=
  allowedRuns_of_performAll (fun _ _ _ => trivial) ran

end Llvm
end TraceWasm
