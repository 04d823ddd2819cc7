import TraceWasm.Runtime.Error
import TraceWasm.Runtime.Instance

/-!
# Operators without control

The operators that both machines treat alike: operands go in, an effect on the
instance happens, and results come out. The numeric operators are a parameter.
-/

namespace TraceWasm

/-- What the numeric operators compute on words, the left operand first. -/
structure Numerics where
  unary : UnaryOp → Value → Attempt InstructionExecutionError Value
  binary : BinaryOp → Value → Value → Attempt InstructionExecutionError Value

/-- An unsigned 32-bit operand, as an offset or a length. -/
def Value.asOffset (value : Value) : Nat := value.asI32.toNat

/-- A failed memory operation traps. -/
def memoryTrap : Attempt MemoryError α → Attempt InstructionExecutionError α
  | .ok result => .ok result
  | .error .panic => Attempt.panicked
  | .error (.error error) => .fail (.memory error)

/-- The address that a load or store touches: the sum has to stay a word. -/
def effectiveAddress (addr : Value) (memargOffset : Nat) : Attempt MemoryError Nat :=
  if addr.asOffset + memargOffset < 2 ^ 32 then .ok (addr.asOffset + memargOffset)
  else .fail (.effectiveAddressOverflow addr.asOffset memargOffset)

section Access

variable {memory : Type} [MemoryView memory]

open MemoryView

/-- Read at an address, and widen what was read. -/
def LoadOp.read (op : LoadOp) (m : memory) (address : Nat) :
    Attempt MemoryError Value :=
  match op with
  | .i32Load => return .fromI32 (← readSized 4 m address)
  | .i32Load8S => return .fromI32 ((← readSized 1 m address).signExtend 32)
  | .i32Load8U => return .fromI32 ((← readSized 1 m address).setWidth 32)
  | .i32Load16S => return .fromI32 ((← readSized 2 m address).signExtend 32)
  | .i32Load16U => return .fromI32 ((← readSized 2 m address).setWidth 32)
  | .i64Load => return .fromI64 (← readSized 8 m address)
  | .i64Load8S => return .fromI64 ((← readSized 1 m address).signExtend 64)
  | .i64Load8U => return .fromI64 ((← readSized 1 m address).setWidth 64)
  | .i64Load16S => return .fromI64 ((← readSized 2 m address).signExtend 64)
  | .i64Load16U => return .fromI64 ((← readSized 2 m address).setWidth 64)
  | .i64Load32S => return .fromI64 ((← readSized 4 m address).signExtend 64)
  | .i64Load32U => return .fromI64 ((← readSized 4 m address).setWidth 64)
  | .f32Load => return .fromF32 (← readSized 4 m address)
  | .f64Load => return .fromF64 (← readSized 8 m address)

/-- Narrow a value, and write it at an address. -/
def StoreOp.write (op : StoreOp) (m : memory) (address : Nat) (val : Value) :
    Effect memory Unit :=
  match op with
  | .i32Store => writeU32 m address val.asI32
  | .i32Store8 => writeU8 m address (val.asI32.setWidth 8)
  | .i32Store16 => writeU16 m address (val.asI32.setWidth 16)
  | .i64Store => writeU64 m address val.asI64
  | .i64Store8 => writeU8 m address (val.asI64.setWidth 8)
  | .i64Store16 => writeU16 m address (val.asI64.setWidth 16)
  | .i64Store32 => writeU32 m address (val.asI64.setWidth 32)
  | .f32Store => writeF32 m address val.asF32
  | .f64Store => writeF64 m address val.asF64

end Access

/-- The bytes of a segment. A dropped one reads as empty. -/
def DataVal.segment : DataVal → List Byte
  | .dropped => []
  | .passive data => data

/-- The bytes that `memory.init` copies. -/
def initRun (segment : List Byte) (src len : Nat) : Attempt MemoryError (List Byte) :=
  let outOfBounds := MemoryError.outOfBoundsAccess .read src segment.length
  match checkedAdd src len with
  | none => .fail outOfBounds
  | some stop =>
      if stop ≤ segment.length then .ok ((segment.drop src).take len)
      else .fail outOfBounds

namespace Instance

variable {frame memory registry : Type}

/-- Put the outcome of a memory operation into the instance. -/
def withEffect
    (inst : Instance frame memory registry) (effect : Effect memory Unit) :
    Attempt InstructionExecutionError (List Value) × Instance frame memory registry :=
  ((memoryTrap effect.1).map fun _ => [], { inst with memory := effect.2 })

/-- An outcome that leaves the instance as it is. -/
def unchanged
    (inst : Instance frame memory registry) (outcome : Attempt ε α) :
    Attempt ε α × Instance frame memory registry := (outcome, inst)

variable [Memory memory]

/-- The word that `memory.grow` answers a request with. -/
def growAnswer : Attempt MemoryError Nat → Attempt ε (List Value)
  | .ok oldPage => return [.fromI32 (BitVec.ofNat 32 oldPage)]
  | .error (.error _) => return [.fromI32 (-1)]
  | .error .panic => Attempt.panicked

end Instance

namespace DataOp

variable {frame memory registry Instr FrameLayout : Type} [Memory memory]

/-- What the operator does to the instance, given its operands in the order they
were pushed, and the results that it pushes. -/
def effect
    (numerics : Numerics) (module : Module Instr FrameLayout)
    (inst : Instance frame memory registry) :
    DataOp Nat Unit → List Value →
    Attempt InstructionExecutionError (List Value) × Instance frame memory registry
  | .globalGet index, [] => inst.unchanged do
      let val ← .orPanic inst.globalVals[index]?
      return [val.toValue]
  | .globalSet index, [val] =>
      match (do
        let global ← Attempt.orPanic module.globals[index]?
        Attempt.assert (index < inst.globalVals.length)
        val.intoVal global.ty.contentType) with
      | .ok val => (.ok [], { inst with globalVals := inst.globalVals.set index val })
      | .error fault => (.error fault, inst)
  | .unary .refIsNull, [val] => inst.unchanged do
      return [.fromI32 (if val.asRef = none then 1 else 0)]
  | .unary op, [val] => inst.unchanged do
      return [← numerics.unary op val]
  | .binary op, [left, right] => inst.unchanged do
      return [← numerics.binary op left right]
  | .load op memargOffset, [addr] => inst.unchanged do
      let address ← memoryTrap (effectiveAddress addr memargOffset)
      return [← memoryTrap (op.read inst.memory address)]
  | .store op memargOffset, [addr, val] =>
      match effectiveAddress addr memargOffset with
      | .ok address => inst.withEffect (op.write inst.memory address val)
      | .error fault => inst.withEffect (.error fault, inst.memory)
  | .select, [left, right, cond] => inst.unchanged do
      return [if cond.asI32 ≠ 0 then left else right]
  | .memorySize _, [] => inst.unchanged do
      return [.fromI32 (BitVec.ofNat 32 (MemoryView.sizeInPages inst.memory))]
  | .memoryGrow _, [delta] =>
      let (outcome, memory) := Memory.grow inst.memory delta.asOffset
        inst.config.maxMemorySizeInPages
      (Instance.growAnswer outcome, { inst with memory })
  | .memoryCopy _ _, [dest, src, len] =>
      inst.withEffect
        (MemoryView.copyWithin inst.memory dest.asOffset src.asOffset len.asOffset)
  | .memoryFill _, [dest, val, len] =>
      inst.withEffect
        (MemoryView.fill inst.memory dest.asOffset val.asOffset len.asOffset)
  | .memoryInit dataIndex _, [dest, src, len] =>
      match inst.dataVals[dataIndex]? with
      | none => inst.unchanged Attempt.panicked
      | some dataVal =>
          match initRun dataVal.segment src.asOffset len.asOffset with
          | .ok run =>
              inst.withEffect (MemoryView.write inst.memory dest.asOffset run)
          | .error fault => inst.withEffect (.error fault, inst.memory)
  | _, _ => inst.unchanged Attempt.panicked

/-- What is left of the segments once one is dropped. -/
def dropData
    (inst : Instance frame memory registry) (dataIndex : Nat) :
    Option (Instance frame memory registry) := do
  guard (dataIndex < inst.dataVals.length)
  return { inst with dataVals := inst.dataVals.set dataIndex .dropped }

end DataOp

end TraceWasm
