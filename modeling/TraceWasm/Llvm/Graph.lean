import TraceWasm.Foundation.Stateful
import TraceWasm.Llvm.Instruction
import TraceWasm.Llvm.Names

/-!
# The graph under construction

Blocks and functions stand in arenas and are named by their positions. Beside the
graph a context keeps which register names each function has issued.
-/

namespace TraceWasm
namespace Llvm

/-- A label, its phis and a straight run of instructions. -/
structure BasicBlock where
  name : String
  isFirst : Bool
  funcId : FuncId
  phis : List PhiInstruction
  instructions : List Instruction
  isLocked : Bool

/-- A function: its signature, its blocks, and the names they have taken. -/
structure Function where
  name : String
  params : List Value
  result : Ty
  blocks : List BasicBlockId
  blockNames : List String

/-- What a global is. -/
inductive GlobalKind where
  | func (sig : FuncSignature)
  | variable (ty : Ty) (initializer : Option ConstExpr)

/-- What a pointer to the global points to. -/
def GlobalKind.pointeeTy : GlobalKind → Ty
  | .func sig => .func sig.params sig.result
  | .variable ty _ => ty

/-- Where a register was defined. -/
structure RegisterDef where
  block : BasicBlockId
  instrIndex : Nat

/-- The blocks and functions of a module, and what is known of its names. -/
structure Graph where
  blocks : List BasicBlock
  funcs : List Function
  functions : List FuncId
  importedFunctions : List String
  globalVariables : List String
  globals : String → Option GlobalKind
  registerDefInstrIndex : FuncId → Option (String → Option RegisterDef)

/-- A module being built, with the register names of each function. -/
structure Context extends Graph where
  regNameAssigner : FuncId → FuncRegNameIndex

/-- An empty context. -/
def Context.new : Context where
  blocks := []
  funcs := []
  functions := []
  importedFunctions := []
  globalVariables := []
  globals := fun _ => none
  registerDefInstrIndex := fun _ => none
  regNameAssigner := fun _ => FuncRegNameIndex.empty

/-- What is written into a context while a graph is built. -/
abbrev Build (ε α : Type) := Stateful ε Context α

/-! ## Blocks -/

namespace BasicBlock

/-- The block with one more instruction. -/
def pushInstruction (instr : Instruction) (self : BasicBlock) : BasicBlock :=
  { self with instructions := self.instructions ++ [instr] }

/-- The block with one more phi. -/
def pushPhi (instr : PhiInstruction) (self : BasicBlock) : BasicBlock :=
  { self with phis := self.phis ++ [instr] }

/-- The block with one phi altered. -/
def modifyPhi (index : Nat) (alter : PhiInstruction → PhiInstruction)
    (self : BasicBlock) : BasicBlock :=
  { self with phis := self.phis.modify index alter }

/-- The block once its terminator is there. -/
def lock (self : BasicBlock) : BasicBlock :=
  { self with isLocked := true }

end BasicBlock

namespace Context

/-! ## Looking things up -/

/-- The block with the id. -/
def getBlock (self : Context) (id : BasicBlockId) : Attempt ε BasicBlock :=
  Attempt.orPanic self.blocks[id]?

/-- The function with the id. -/
def getFunc (self : Context) (id : FuncId) : Attempt ε Function :=
  Attempt.orPanic self.funcs[id]?

/-- Every register that the function has defined. -/
def registerDefs (self : Context) (func : FuncId) :
    Attempt ε (String → Option RegisterDef) :=
  Attempt.orPanic (self.registerDefInstrIndex func)

/-! ## Writing -/

/-- The context with one block altered. -/
def modifyBlock (id : BasicBlockId) (alter : BasicBlock → BasicBlock)
    (self : Context) : Context :=
  { self with blocks := self.blocks.modify id alter }

/-- The context with one function altered. -/
def modifyFunc (id : FuncId) (alter : Function → Function) (self : Context) : Context :=
  { self with funcs := self.funcs.modify id alter }

/-- Record where a register of the function is defined. -/
def insertRegisterDef (func : FuncId) (name : String) (place : RegisterDef)
    (self : Context) : Context :=
  let entry := (self.registerDefInstrIndex func).getD fun _ => none
  { self with
    registerDefInstrIndex := Function.update self.registerDefInstrIndex func
      (some (Function.update entry name (some place))) }

/-- The context with the register names of one function replaced. -/
def setNames (func : FuncId) (names : FuncRegNameIndex) (self : Context) : Context :=
  { self with regNameAssigner := Function.update self.regNameAssigner func names }

end Context

/-- Issue a unique register name within a function. -/
def nameForReg (name : RegName) (func : FuncId) : Build ContextError String :=
  Stateful.change fun ctx => do
    let (name, names) ← (ctx.regNameAssigner func).nameFromHint name
    return (name, ctx.setNames func names)

/-! ## Writing into a block -/

namespace BasicBlock

/-- Append an instruction to a block that has no terminator yet. -/
def addInstruction (self : BasicBlockId) (instr : Instruction) :
    Build InstructionError Nat :=
  Stateful.change fun ctx => do
    let block ← ctx.getBlock self
    Attempt.require (block.isLocked = false) (.basicBlockAlreadyTerminated block.name)
    return (block.instructions.length, ctx.modifyBlock self (·.pushInstruction instr))

/-- No more instructions go into the block. -/
def setLocked (self : BasicBlockId) : Build InstructionError Unit :=
  Stateful.modify fun ctx => ctx.modifyBlock self lock

end BasicBlock

/-- Names a phi that was placed. -/
structure PhiInstrHandler where
  index : Nat
  block : BasicBlockId

/-- Append a phi to a block that is not the entry and has no terminator yet. -/
def BasicBlock.addPhi (self : BasicBlockId) (instr : PhiInstruction) :
    Build PhiError PhiInstrHandler :=
  Stateful.change fun ctx => do
    let block ← ctx.getBlock self
    Attempt.require (block.isLocked = false) (.basicBlockAlreadyTerminated block.name)
    Attempt.require (block.isFirst = false) .phiInstructionCannotBeAddedToEntryBasicBlock
    Attempt.require (block.instructions = []) .phiInstructionAddError
    return (⟨block.phis.length, self⟩, ctx.modifyBlock self (·.pushPhi instr))

/-- The phi with one more branch. -/
def PhiInstruction.pushBranch (branch : BasicBlockId × Value) (self : PhiInstruction) :
    PhiInstruction :=
  { self with
    blocks := branch.1 :: self.blocks
    branches := self.branches ++ [branch] }

/-- Add a branch of the phi's type from a block that has none yet. -/
def PhiInstrHandler.addBranch (self : PhiInstrHandler) (branch : BasicBlockId × Value) :
    Build PhiError Unit :=
  Stateful.change fun ctx => do
    let block ← ctx.getBlock self.block
    let phi ← Attempt.orPanic block.phis[self.index]?
    Attempt.require (branch.2.ty = phi.refTy)
      (.phiInstructionBranchTypeMismatch phi.refTy branch.2.ty)
    Attempt.require (branch.1 ∉ phi.blocks) .basicBlockBranchAlreadyInPhiInstruction
    return ((), ctx.modifyBlock self.block (·.modifyPhi self.index (·.pushBranch branch)))

end Llvm
end TraceWasm
