import TraceWasm.Runtime.Value
import TraceWasm.Stack.Instruction

/-!
# Compiled modules

The sections of a module that instantiation and execution read. A module
belongs to one machine, whose instructions its bodies are lowered to; constant
expressions are lowered to the stack machine's instructions whatever the
machine is.
-/

namespace TraceWasm

open Stack (StackInstruction)

/-- One lowered constant expression. -/
abbrev ConstExpr := List StackInstruction

/-- Whether a function is defined locally or imported. -/
inductive FuncKind where
  | «local»
  | imported (moduleName importedFuncName : String)

/-- A function's declaration with its origin. -/
structure FuncDeclaration extends FuncDecl where
  kind : FuncKind

/-- The type of a global. -/
structure GlobalType where
  contentType : ValType
  isMutable : Bool

/-- Where the value of a global comes from. -/
inductive GlobalKind where
  | imported (moduleName name : String)
  | «local» (init : ConstExpr)

/-- A global of the module. -/
structure Global where
  ty : GlobalType
  kind : GlobalKind

/-- The limits of a memory, in pages. -/
structure MemoryType where
  initial : Nat
  maximum : Option Nat

/-- What a table is filled with. -/
inductive TableInit where
  | refNull
  | expr (init : ConstExpr)

/-- A table of the module. -/
structure Table where
  init : TableInit
  initial : Nat
  maximum : Option Nat

/-- The references of an element segment. -/
inductive ElementItems where
  | functions (funcs : List FuncIndex)
  /-- `isFuncRef` is what the parser says of the segment's reference type. -/
  | expressions (isFuncRef : Bool) (exprs : List ConstExpr)

/-- Where an element segment goes at instantiation. -/
inductive ElementKind where
  | passive
  /-- Without an index the segment goes to the first table. -/
  | active (tableIndex : Option Nat) (offsetExpr : ConstExpr)
  | declared

/-- An element segment. -/
structure Element where
  kind : ElementKind
  items : ElementItems

/-- Where a data segment goes at instantiation. -/
inductive DataKind where
  | passive
  | active (memoryIndex : Nat) (offsetExpr : ConstExpr)

/-- A data segment. -/
structure Data where
  kind : DataKind
  data : List (BitVec 8)

/-- What a module exports under a name. -/
inductive Export where
  | func (index : FuncIndex)
  /-- A table, a memory, a global, a tag or an exact function. -/
  | other

/-- A lowered body with what is needed to run it. -/
structure FuncBody (Instr FrameLayout : Type) where
  /-- The parameters first, then the declared locals. -/
  locals : List ValType
  instructions : List Instr
  /-- Source positions, parallel to the instructions. -/
  instructionOffsets : List Nat
  frameLayout : FrameLayout

/-- A compiled module. -/
structure Module (Instr FrameLayout : Type) where
  types : List FuncType
  /-- Imported functions first. -/
  funcDecls : List FuncDeclaration
  importedFuncCount : Nat
  funcBodies : List (FuncBody Instr FrameLayout)
  tables : List Table
  memories : List MemoryType
  /-- Imported globals first. -/
  globals : List Global
  importedGlobalCount : Nat
  exports : String → Option Export
  /-- The name a function is exported under. -/
  exportedFuncName : FuncIndex → Option String
  startSection : Option FuncIndex
  elements : List Element
  datas : List Data

namespace Module

variable {Instr FrameLayout : Type}

/-- The type of a function. Both lookups are indexings. -/
def funcType (module : Module Instr FrameLayout) (func : FuncIndex) :
    Attempt ε FuncType := do
  let decl ← .orPanic module.funcDecls[func.toNat]?
  .orPanic module.types[decl.ty]?

end Module

end TraceWasm
