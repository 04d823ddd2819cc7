import TraceWasm.Memory.View
import TraceWasm.Module.Sections

/-!
# Instances

What running a module touches: the frame store, the memory, the globals, the
tables, the data segments, and the host behind the imports.
-/

namespace TraceWasm

/-- The limits an instance is created under. -/
structure Config where
  maxMemorySizeInPages : Nat
  maxTableElements : Nat
  maxCallStackDepth : Nat
  memoryFits : maxMemorySizeInPages < 2 ^ 32 := by decide
  tableFits : maxTableElements < 2 ^ 32 := by decide
  depthFits : maxCallStackDepth < 2 ^ 32 := by decide

namespace Config

/-- `Config::default`. -/
def default : Config where
  maxMemorySizeInPages := 1000
  maxTableElements := 10000
  maxCallStackDepth := 2000

/-- The configuration with another cap on the memory. -/
def setMaxMemorySizeInPages
    (config : Config) (val : Nat) (fits : val < 2 ^ 32) : Config :=
  { config with maxMemorySizeInPages := val, memoryFits := fits }

end Config

/-- What a host reports when it fails. -/
abbrev HostError := String

/-- The code of a host function. It is generic in the memory it is handed, so all
it can do with that is to call the operations of a memory view. -/
inductive HostProgram (α : Type) where
  | done (result : α)
  | sizeInBytes (next : Nat → HostProgram α)
  | read (offset len : Nat) (next : Attempt MemoryError (List Byte) → HostProgram α)
  | write (offset : Nat) (data : List Byte)
      (next : Attempt MemoryError Unit → HostProgram α)
  | copyWithin (dest src len : Nat) (next : Attempt MemoryError Unit → HostProgram α)

namespace HostProgram

variable {memory : Type} [MemoryView memory]

/-- Run a host function on a memory. -/
def run : HostProgram α → memory → α × memory
  | done result, m => (result, m)
  | sizeInBytes next, m => (next (MemoryView.sizeInBytes m)).run m
  | read offset len next, m =>
      (next (MemoryView.read m offset (List.replicate len 0))).run m
  | write offset data next, m =>
      let (outcome, m) := MemoryView.write m offset data
      (next outcome).run m
  | copyWithin dest src len next, m =>
      let (outcome, m) := MemoryView.copyWithin m dest src len
      (next outcome).run m

end HostProgram

/-- The host behind a module's imports, with the state it keeps. -/
structure ImportRegistry (registry : Type) where
  execute : registry → (moduleName funcName : String) → List Val →
    HostProgram (Except HostError (List Val) × registry)
  signature : registry → (moduleName funcName : String) →
    Option (List ValType × List ValType)
  funcCount : registry → Nat
  globalCount : registry → Nat
  getGlobal : registry → (moduleName globalName : String) → Except HostError Val

/-- A table's slots and the most it may have. -/
structure TableVal where
  table : List (Option FuncIndex)
  maximum : Nat
  deriving DecidableEq

/-- What is left of a passive data segment. -/
inductive DataVal where
  | dropped
  | passive (data : List Byte)
  deriving DecidableEq

/-- Everything mutable that running a module touches. -/
structure Instance (frame memory registry : Type) where
  memory : memory
  frame : frame
  importRegistry : registry
  config : Config
  globalVals : List Val
  tableVals : List TableVal
  dataVals : List DataVal

end TraceWasm
