import TraceWasm.Llvm.Graph

/-!
# Building a module

Globals share one namespace. A function is allocated first and then has its
parameters named.
-/

namespace TraceWasm
namespace Llvm

/-! ## Blocks -/

/-- The function with one more block, whose name is now taken. -/
def Function.pushBlock (id : BasicBlockId) (name : String) (self : Function) : Function :=
  { self with blocks := self.blocks ++ [id], blockNames := name :: self.blockNames }

/-- Add an empty block. The first one of a function is its entry. -/
def addBasicBlock (self : FuncId) (name : String) : Build ContextError BasicBlockId :=
  Stateful.change fun ctx => do
    let func ← ctx.getFunc self
    Attempt.require (name ∉ func.blockNames) (.duplicateBasicBlockName name)
    let id := ctx.blocks.length
    let block : BasicBlock :=
      { name := name
        isFirst := func.blocks.isEmpty
        funcId := self
        phis := []
        instructions := []
        isLocked := false }
    let extended : Context := { ctx with blocks := ctx.blocks ++ [block] }
    return (id, extended.modifyFunc self (·.pushBlock id name))

/-! ## Globals -/

/-- A global's name has to be new. -/
def requireNewGlobal (ctx : Context) (name : String) : Attempt ContextError Unit :=
  Attempt.require ((ctx.globals name).isNone) (.duplicateGlobalName name)

/-- A parameter has a size, a result has one or is `void`. -/
def requireSignature (params : List Ty) (result : Ty) : Attempt ContextError Unit := do
  params.forM fun ty => Attempt.require ty.isFirstClass (.functionParamTypeNotSized ty)
  Attempt.require (result = .void ∨ result.isFirstClass) (.functionResultTypeInvalid result)

/-- The context with one more global in its table. -/
def Context.insertGlobal (name : String) (kind : GlobalKind) (self : Context) : Context :=
  { self with globals := Function.update self.globals name (some kind) }

/-- The type of a variable, which its initializer has exactly. -/
def globalVariableTy (ty : Option Ty) (initializer : Option ConstExpr) :
    Attempt ContextError Ty := do
  match ty, initializer with
  | some ty, some initializer => do
      Attempt.require ty.isFirstClass (.globalVariableTypeNotSized ty)
      Attempt.require (initializer.ty = ty) (.globalInitializerTypeMismatch ty initializer.ty)
      return ty
  | some ty, none => do
      Attempt.require ty.isFirstClass (.globalVariableTypeNotSized ty)
      return ty
  | none, some initializer => return initializer.ty
  | none, none => Attempt.fail .globalTypeAndInitializerBothAbsent

/-- Declare a global variable, of the given type or its initializer's. -/
def declareGlobalVariable
    (name : String) (ty : Option Ty) (initializer : Option ConstExpr) :
    Build ContextError Unit :=
  Stateful.change fun ctx => do
    requireNewGlobal ctx name
    let finalTy ← globalVariableTy ty initializer
    let extended := ctx.insertGlobal name (.variable finalTy initializer)
    return ((), { extended with globalVariables := extended.globalVariables ++ [name] })

/-- Declare a function that another module defines. -/
def declareFunction (name : String) (params : List Ty) (result : Ty) :
    Build ContextError Unit :=
  Stateful.change fun ctx => do
    requireNewGlobal ctx name
    requireSignature params result
    let extended := ctx.insertGlobal name (.func ⟨params, result⟩)
    return ((), { extended with importedFunctions := extended.importedFunctions ++ [name] })

/-! ## Function definitions -/

/-- Allocate a function that has no parameters yet. -/
def allocFunction (name : String) : Build ContextError FuncId :=
  Stateful.change fun ctx =>
    let func : Function :=
      { name := name
        params := []
        result := .void
        blocks := []
        blockNames := [] }
    return (ctx.funcs.length, { ctx with funcs := ctx.funcs ++ [func] })

/-- Name the parameters, in order. -/
def nameParams (id : FuncId) : List (Ty × RegName) → Build ContextError (List Value)
  | [] => pure []
  | (ty, reg) :: params => do
      let name ← nameForReg reg id
      let rest ← nameParams id params
      return Value.fromRegister name ty :: rest

/-- The function with its parameters and its result. -/
def Function.setSignature (params : List Value) (result : Ty) (self : Function) : Function :=
  { self with params := params, result := result }

/-- The context with the function among the defined ones, and its parameters among the
registers. -/
def Context.enterFunction
    (id : FuncId) (name : String) (params : List Value) (paramTys : List Ty) (result : Ty)
    (self : Context) : Context :=
  let entered :=
    (self.modifyFunc id (·.setSignature params result)).insertGlobal name
      (.func ⟨paramTys, result⟩)
  { entered with
    functions := entered.functions ++ [id]
    registerDefInstrIndex :=
      Function.update entered.registerDefInstrIndex id (some fun _ => none) }

/-- Define a function, and name its parameters. -/
def defineFunction (name : String) (params : List (Ty × RegName)) (result : Ty) :
    Build ContextError FuncId := do
  Stateful.read fun ctx => do
    requireNewGlobal ctx name
    requireSignature (params.map (·.1)) result
  let id ← allocFunction name
  let finalParams ← nameParams id params
  Stateful.modify fun ctx =>
    ctx.enterFunction id name finalParams (params.map (·.1)) result
  return id

end Llvm
end TraceWasm
