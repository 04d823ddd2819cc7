import TraceWasm.Module.ConstExpr
import TraceWasm.Runtime.Driver

/-!
# Instantiation

In the order of the source: the host is checked against the imports, the limits
of the memory are settled and the memory is allocated, the globals are resolved,
the tables are built, the active segments are applied, and the start function
runs.
-/

namespace TraceWasm

/-- The errors of instantiation. -/
inductive InstantiateError where
  | importCountMismatch (declared provided : Nat)
  | importNotFound (moduleName funcName : String)
  | importSignatureMismatch (moduleName funcName side : String)
      (expected provided : List ValType)
  | memoryTooLarge (initial maximum : Nat)
  | importGlobalCountMismatch (declared provided : Nat)
  | importGlobalTypeMismatch (moduleName globalName : String) (expected : ValType)
      (provided : Val)
  | callToImportedItemReturnedError (error : HostError)
  | tableTooLarge (initial maximum : Nat)
  | unsupported (message : String)
  | elementSegmentOutOfBounds (offset len tableLen : Nat)
  | memoryError (error : MemoryError)
  | importedFunctionNotCallable (func : Nat)
  | startFunctionError (error : FuncCallError)
  deriving DecidableEq

namespace Instantiate

variable {memory registry : Type} [Memory memory]
variable {Instr FrameLayout : Type}

/-! ## The host and the imports -/

/-- One imported function against what the host provides under its name. -/
def checkImportedFunc
    (host : ImportRegistry registry) (importRegistry : registry)
    (module : Module Instr FrameLayout) (decl : FuncDeclaration) :
    Attempt InstantiateError Unit :=
  match decl.kind with
  | .«local» => Attempt.panicked
  | .imported moduleName funcName =>
      match host.signature importRegistry moduleName funcName with
      | none => .fail (.importNotFound moduleName funcName)
      | some (params, results) => do
          let ty ← .orPanic module.types[decl.ty]?
          if ty.params ≠ params then
            .fail (.importSignatureMismatch moduleName funcName "params" ty.params params)
          else if ty.results ≠ results then
            .fail (.importSignatureMismatch moduleName funcName "results" ty.results
              results)
          else return ()

/-- The host provides as many functions as are imported, each of the declared type. -/
def checkImports
    (host : ImportRegistry registry) (importRegistry : registry)
    (module : Module Instr FrameLayout) : Attempt InstantiateError Unit := do
  let provided := host.funcCount importRegistry
  if provided ≠ module.importedFuncCount then
    .fail (.importCountMismatch module.importedFuncCount provided)
  else
    (List.range module.importedFuncCount).forM fun index => do
      let decl ← .orPanic module.funcDecls[index]?
      checkImportedFunc host importRegistry module decl

/-! ## The memory -/

/-- The initial size of the memory, in pages. -/
def initialPages (module : Module Instr FrameLayout) : Nat :=
  match module.memories.head? with
  | some memory => memory.initial % 2 ^ 32
  | none => 0

/-- The maximum that the module declares, if it declares one. -/
def declaredMaximum (module : Module Instr FrameLayout) : Option Nat :=
  module.memories.head?.bind fun memory => memory.maximum.map (· % 2 ^ 32)

/-- The ceiling of the memory: the declared maximum, narrowed by the configured
cap. -/
def maxMemoryPages (module : Module Instr FrameLayout) (config : Config) : Nat :=
  min ((declaredMaximum module).getD config.maxMemorySizeInPages)
    config.maxMemorySizeInPages

/-- The ceiling is no higher than the cap. -/
theorem maxMemoryPages_le (module : Module Instr FrameLayout) (config : Config) :
    maxMemoryPages module config ≤ config.maxMemorySizeInPages :=
  Nat.min_le_right _ _

/-- The configuration with the ceiling folded into it. -/
def narrowConfig (module : Module Instr FrameLayout) (config : Config) : Config :=
  config.setMaxMemorySizeInPages (maxMemoryPages module config)
    (Nat.lt_of_le_of_lt (maxMemoryPages_le module config) config.memoryFits)

/-- Allocate the memory of an instance with the narrowed configuration. -/
def initialMemory (module : Module Instr FrameLayout) (config : Config) :
    Attempt InstantiateError memory :=
  if initialPages module > config.maxMemorySizeInPages then
    .fail (.memoryTooLarge (initialPages module) config.maxMemorySizeInPages)
  else
    match (Memory.allocateInitialMemory (initialPages module) :
      Attempt MemoryError memory) with
    | .ok m => .ok m
    | .error _ => Attempt.panicked

/-! ## Globals -/

/-- Take an imported global from the host. -/
def importedGlobal
    (host : ImportRegistry registry) (importRegistry : registry) (global : Global) :
    Attempt InstantiateError Val :=
  match global.kind with
  | .«local» _ => Attempt.panicked
  | .imported moduleName globalName =>
      match host.getGlobal importRegistry moduleName globalName with
      | .error err => .fail (.callToImportedItemReturnedError err)
      | .ok val =>
          let expected := global.ty.contentType
          match val.hasTy expected with
          | none => .fail (.unsupported "v128 type")
          | some true => .ok val
          | some false =>
              .fail (.importGlobalTypeMismatch moduleName globalName expected val)

/-- Evaluate the initializer of a local global over the globals before it. -/
def pushLocalGlobal (globalVals : List Val) (global : Global) :
    Attempt InstantiateError (List Val) :=
  match global.kind with
  | .imported _ _ => Attempt.panicked
  | .«local» init => do
      let val ← init.evaluate globalVals
      return globalVals ++ [val]

/-- The imported globals, followed by those the module initializes. -/
def initGlobals
    (host : ImportRegistry registry) (importRegistry : registry)
    (module : Module Instr FrameLayout) : Attempt InstantiateError (List Val) := do
  let provided := host.globalCount importRegistry
  if provided ≠ module.importedGlobalCount then
    .fail (.importGlobalCountMismatch module.importedGlobalCount provided)
  else
    Attempt.assert (module.importedGlobalCount ≤ module.globals.length)
    let imported ← (module.globals.take module.importedGlobalCount).mapM
      (importedGlobal host importRegistry)
    (module.globals.drop module.importedGlobalCount).foldlM pushLocalGlobal imported

/-! ## Tables -/

/-- A table filled with its initial reference, if it may be that large. -/
def initTable (config : Config) (globalVals : List Val) (table : Table) :
    Attempt InstantiateError TableVal :=
  let maximum := min (table.maximum.getD config.maxTableElements) config.maxTableElements
  if table.initial > maximum then .fail (.tableTooLarge table.initial maximum)
  else
    match table.init with
    | .refNull => return ⟨List.replicate table.initial none, maximum⟩
    | .expr init => do
        let val ← init.evaluate globalVals
        let func ← val.asRef
        return ⟨List.replicate table.initial func, maximum⟩

/-! ## Segments -/

/-- The functions of an element segment. -/
def elementItems (globalVals : List Val) :
    ElementItems → Attempt InstantiateError (List (Option FuncIndex))
  | .functions funcs => return funcs.map some
  | .expressions isFuncRef exprs =>
      if isFuncRef then
        exprs.mapM fun init => do
          let val ← init.evaluate globalVals
          val.asRef
      else .fail (.unsupported "non-funcref table element types")

/-- The offset of a segment: the value of its expression, widened from a signed
word. -/
def segmentOffset (globalVals : List Val) (offsetExpr : ConstExpr) :
    Attempt ε Nat := do
  let val ← offsetExpr.evaluate globalVals
  let offset ← val.asI32
  return (offset.signExtend 64).toNat

/-- Write the items of an active segment into a table. -/
def writeItems (table : TableVal) (offset : Nat) (items : List (Option FuncIndex)) :
    Attempt InstantiateError TableVal :=
  let tableLen := table.table.length
  -- a subtraction, so that the sum of offset and length cannot overflow
  if offset > tableLen ∨ items.length > tableLen - offset then
    .fail (.elementSegmentOutOfBounds offset items.length tableLen)
  else do
    let written ← .orPanic (writeRun table.table offset items)
    return { table with table := written }

/-- Apply one element segment to the tables. -/
def applyElement (globalVals : List Val) (tableVals : List TableVal)
    (element : Element) : Attempt InstantiateError (List TableVal) := do
  let items ← elementItems globalVals element.items
  match element.kind with
  | .active tableIndex offsetExpr =>
      let tableIndex := tableIndex.getD 0
      let offset ← segmentOffset globalVals offsetExpr
      let table ← .orPanic tableVals[tableIndex]?
      let table ← writeItems table offset items
      return tableVals.set tableIndex table
  | .passive => return tableVals
  | .declared => return tableVals

/-- Apply one data segment to the memory. The result also has what is left of the
segment. -/
def applyData (globalVals : List Val) (m : memory) (data : Data) :
    Attempt InstantiateError (DataVal × memory) :=
  match data.kind with
  | .passive => return (.passive data.data, m)
  | .active memoryIndex offsetExpr =>
      if memoryIndex ≠ 0 then .fail (.unsupported "multiple memories")
      else do
        let offset ← segmentOffset globalVals offsetExpr
        match MemoryView.write m offset data.data with
        | (.ok (), m) => return (.dropped, m)
        | (.error (.error error), _) => .fail (.memoryError error)
        | (.error .panic, _) => Attempt.panicked

/-- Apply the data segments in order. -/
def applyDatas (globalVals : List Val) (m : memory) :
    List Data → Attempt InstantiateError (List DataVal × memory)
  | [] => return ([], m)
  | data :: datas => do
      let (dataVal, m) ← applyData globalVals m data
      let (dataVals, m) ← applyDatas globalVals m datas
      return (dataVal :: dataVals, m)

/-! ## The instance -/

variable (machine : Machine memory registry)

/-- Everything but the start function. -/
def build
    (host : ImportRegistry registry) (module : machine.Code)
    (importRegistry : registry) (config : Config) (frame : machine.RuntimeFrame) :
    Attempt InstantiateError machine.State := do
  checkImports host importRegistry module
  let config := narrowConfig module config
  let m ← initialMemory module config
  let globalVals ← initGlobals host importRegistry module
  let tableVals ← module.tables.mapM (initTable config globalVals)
  let tableVals ← module.elements.foldlM (applyElement globalVals) tableVals
  let (dataVals, m) ← applyDatas globalVals m module.datas
  return ⟨m, frame, importRegistry, config, globalVals, tableVals, dataVals⟩

/-- Run the start function, if the module has one. -/
def runStart (fuel : Nat) (module : machine.Code) (inst : machine.State) :
    Option (Attempt InstantiateError machine.State) :=
  match module.startSection with
  | none => some (.ok inst)
  | some func =>
      if func.toNat < module.importedFuncCount then
        some (.fail (.importedFunctionNotCallable func.toNat))
      else
        (machine.run module fuel func [] inst).map fun
          | (.ok _, inst) => .ok inst
          | (.error (.error error), _) => .fail (.startFunctionError error)
          | (.error .panic, _) => Attempt.panicked

/-- `Module::instantiate`, with a budget for the start function. -/
def instantiate
    (host : ImportRegistry registry) (fuel : Nat) (module : machine.Code)
    (importRegistry : registry) (config : Option Config) (frame : machine.RuntimeFrame) :
    Option (Attempt InstantiateError machine.State) :=
  match build machine host module importRegistry (config.getD .default) frame with
  | .ok inst => runStart machine fuel module inst
  | .error fault => some (.error fault)

end Instantiate

end TraceWasm
