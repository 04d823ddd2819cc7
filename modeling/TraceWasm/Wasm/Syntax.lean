import Mathlib.Data.BitVec
import Mathlib.Data.List.Basic

/-!
# The operators of a function body

The operators are those the validator hands to the two lowerings. Operators
with one treatment are grouped: the numeric operators by arity, the loads, the
stores, and everything whose whole effect is to pop operands, act on the
instance and push results. An operator that neither lowering knows carries
only its printed form and what the validator needs.
-/

namespace TraceWasm

/-- A reference type, by its packed encoding. -/
abbrev RefType := Nat

/-- The types of values. -/
inductive ValType where
  | i32 | i64 | f32 | f64 | v128
  | ref (ty : RefType)
  deriving DecidableEq

/-- The types of a function's parameters and of its results. -/
structure FuncType where
  params : List ValType
  results : List ValType
  deriving DecidableEq

/-- What the lowerings read of a function's declaration. -/
structure FuncDecl where
  /-- Index of the function's type in the module's types. -/
  ty : Nat

/-- The parts of a module that its function bodies refer to. -/
structure ModuleTypes where
  types : List FuncType
  funcDecls : List FuncDecl

/-- How the parameters and results of a block are given. -/
inductive BlockType where
  | empty
  | type (ty : ValType)
  | funcType (index : Nat)

/-- An immediate. A float is its bit pattern, which is what equality of
interned constants compares. -/
inductive Const where
  | i32 (value : BitVec 32)
  | i64 (value : BitVec 64)
  | f32 (bits : BitVec 32)
  | f64 (bits : BitVec 64)
  | ref (func : Option Nat)
  deriving DecidableEq

/-- The operators with one operand and one result. -/
inductive UnaryOp where
  | refIsNull | i32Clz | i32Ctz | i32Eqz | i32Extend16S | i32Extend8S
  | i32Popcnt | i32ReinterpretF32 | i32TruncF32S | i32TruncF32U | i32TruncF64S
  | i32TruncF64U | i32TruncSatF32S | i32TruncSatF32U | i32TruncSatF64S
  | i32TruncSatF64U | i32WrapI64 | i64Clz | i64Ctz | i64Eqz | i64Extend16S
  | i64Extend32S | i64Extend8S | i64ExtendI32S | i64ExtendI32U | i64Popcnt
  | i64ReinterpretF64 | i64TruncF32S | i64TruncF32U | i64TruncF64S
  | i64TruncF64U | i64TruncSatF32S | i64TruncSatF32U | i64TruncSatF64S
  | i64TruncSatF64U | f32Abs | f32Ceil | f32ConvertI32S | f32ConvertI32U
  | f32ConvertI64S | f32ConvertI64U | f32DemoteF64 | f32Floor | f32Nearest
  | f32Neg | f32ReinterpretI32 | f32Sqrt | f32Trunc | f64Abs | f64Ceil
  | f64ConvertI32S | f64ConvertI32U | f64ConvertI64S | f64ConvertI64U
  | f64Floor | f64Nearest | f64Neg | f64PromoteF32 | f64ReinterpretI64
  | f64Sqrt | f64Trunc

/-- The operators with two operands and one result. -/
inductive BinaryOp where
  | i32Add | i32And | i32DivS | i32DivU | i32Eq | i32GeS | i32GeU | i32GtS
  | i32GtU | i32LeS | i32LeU | i32LtS | i32LtU | i32Mul | i32Ne | i32Or
  | i32RemS | i32RemU | i32Rotl | i32Rotr | i32Shl | i32ShrS | i32ShrU | i32Sub
  | i32Xor | i64Add | i64And | i64DivS | i64DivU | i64Eq | i64GeS | i64GeU
  | i64GtS | i64GtU | i64LeS | i64LeU | i64LtS | i64LtU | i64Mul | i64Ne
  | i64Or | i64RemS | i64RemU | i64Rotl | i64Rotr | i64Shl | i64ShrS | i64ShrU
  | i64Sub | i64Xor | f32Add | f32Copysign | f32Div | f32Eq | f32Ge | f32Gt
  | f32Le | f32Lt | f32Max | f32Min | f32Mul | f32Ne | f32Sub | f64Add
  | f64Copysign | f64Div | f64Eq | f64Ge | f64Gt | f64Le | f64Lt | f64Max
  | f64Min | f64Mul | f64Ne | f64Sub

/-- The loads. -/
inductive LoadOp where
  | i32Load | i32Load8S | i32Load8U | i32Load16S | i32Load16U | i64Load
  | i64Load8S | i64Load8U | i64Load16S | i64Load16U | i64Load32S | i64Load32U
  | f32Load | f64Load

/-- The stores. -/
inductive StoreOp where
  | i32Store | i32Store8 | i32Store16 | i64Store | i64Store8 | i64Store16
  | i64Store32 | f32Store | f64Store

/-- Operators that pop operands, act on the instance and push results. The
`offset` of a load or store is a byte offset in an operator and an index into
the offset pool in a register instruction; `memory` is the memory immediate
that the lowerings check and drop. -/
inductive DataOp (offset memory : Type) where
  | globalGet (index : Nat)
  | globalSet (index : Nat)
  | unary (op : UnaryOp)
  | binary (op : BinaryOp)
  | load (op : LoadOp) (memarg : offset)
  | store (op : StoreOp) (memarg : offset)
  | select
  | memorySize (mem : memory)
  | memoryGrow (mem : memory)
  | memoryCopy (dst src : memory)
  | memoryFill (mem : memory)
  | memoryInit (dataIndex : Nat) (mem : memory)

namespace DataOp

variable {offset memory : Type}

/-- How many operands the operator pops. -/
def inputs : DataOp offset memory → Nat
  | .globalGet _ => 0
  | .globalSet _ => 1
  | .unary _ => 1
  | .binary _ => 2
  | .load _ _ => 1
  | .store _ _ => 2
  | .select => 3
  | .memorySize _ => 0
  | .memoryGrow _ => 1
  | .memoryCopy _ _ => 3
  | .memoryFill _ => 3
  | .memoryInit _ _ => 3

/-- How many results the operator pushes. -/
def outputs : DataOp offset memory → Nat
  | .globalGet _ => 1
  | .globalSet _ => 0
  | .unary _ => 1
  | .binary _ => 1
  | .load _ _ => 1
  | .store _ _ => 0
  | .select => 1
  | .memorySize _ => 1
  | .memoryGrow _ => 1
  | .memoryCopy _ _ => 0
  | .memoryFill _ => 0
  | .memoryInit _ _ => 0

end DataOp

/-- An operator that neither lowering knows. -/
structure OtherOperator where
  /-- The operator as an error message prints it. -/
  debug : String
  pops : Nat
  pushes : Nat
  /-- Whether control never reaches the operator after it. -/
  diverges : Bool

/-- The operators of a function body. -/
inductive Operator where
  | localGet (localIndex : Nat)
  | localSet (localIndex : Nat)
  | localTee (localIndex : Nat)
  | const (value : Const)
  | data (op : DataOp Nat Nat)
  | dataDrop (dataIndex : Nat)
  | nop
  | drop
  | block (blockty : BlockType)
  | loop (blockty : BlockType)
  | ifOp (blockty : BlockType)
  | elseOp
  | endOp
  | br (relativeDepth : Nat)
  | brIf (relativeDepth : Nat)
  | brTable (targets : List Nat) (default : Nat)
  | returnOp
  | call (functionIndex : Nat)
  | callIndirect (typeIndex tableIndex : Nat)
  | unreachable
  | tryTable (blockty : BlockType) (debug : String)
  | other (op : OtherOperator)

/-- Parameter and result counts of a block. `none` is an index past the
module's types. -/
def paramsAndResultsFromBlockty (types : List FuncType) :
    BlockType → Option (Nat × Nat)
  | .empty => some (0, 0)
  | .type _ => some (0, 1)
  | .funcType index =>
      types[index]?.map fun ty => (ty.params.length, ty.results.length)

namespace ModuleTypes

/-- The type of a function. -/
def funcType (mod : ModuleTypes) (func : Nat) : Option FuncType := do
  let decl ← mod.funcDecls[func]?
  mod.types[decl.ty]?

end ModuleTypes

end TraceWasm
