import TraceWasm.Foundation.Fault
import TraceWasm.Foundation.LittleEndian

/-!
# The interface of a linear memory

The operations a backing store supplies, and those that default to them. An
operation that changes the memory returns its outcome along with the memory it
leaves, so that what a failed one leaves can be stated.
-/

namespace TraceWasm

/-- The largest `usize` of a 64-bit machine. -/
def usizeMax : Nat := 2 ^ 64 - 1

/-- Addition that reports overflow of the platform's word. -/
def checkedAdd (left right : Nat) : Option Nat :=
  if left + right ≤ usizeMax then some (left + right) else none

/-- The bounds check of every access: the end is computed with `checkedAdd`, so
that it cannot wrap past the comparison. -/
theorem boundsCheck_eq
    {α : Sort u} {size : Nat} (sizeFits : size ≤ usizeMax) (offset len : Nat)
    (onFail : α) (onOk : Nat → α) :
    (match checkedAdd offset len with
      | none => onFail
      | some stop => if size < stop then onFail else onOk stop) =
      if offset + len ≤ size then onOk (offset + len) else onFail := by
  unfold checkedAdd
  by_cases overflows : offset + len ≤ usizeMax
  · rw [if_pos overflows]
    by_cases inside : offset + len ≤ size
    · rw [if_pos inside]
      exact if_neg (by omega)
    · rw [if_neg inside]
      exact if_pos (by omega)
  · rw [if_neg overflows, if_neg (by omega)]

/-- The bytes of a page. -/
def wasmMemoryPageSize : Nat := 65536

/-- Whether an access reads or writes. -/
inductive MemoryAccessKind where
  | read
  | write
  deriving DecidableEq

/-- Why an operation on a memory fails. -/
inductive MemoryError where
  | outOfBoundsAccess (kind : MemoryAccessKind) (offset memLen : Nat)
  | growFailed (maxSizeInPages deltaInPages oldSize : Nat)
  | effectiveAddressOverflow (addr offset : Nat)
  deriving DecidableEq

/-- The outcome of an operation on a memory, and the memory it leaves. -/
abbrev Effect (memory α : Type) := Attempt MemoryError α × memory

/-- What a backing store supplies. -/
class MemoryView (memory : Type) where
  sizeInBytes : memory → Nat
  copyWithin : memory → (dest src len : Nat) → Effect memory Unit
  /-- Fill a buffer from an offset on. -/
  read : memory → (offset : Nat) → (data : List Byte) →
    Attempt MemoryError (List Byte)
  write : memory → (offset : Nat) → (data : List Byte) → Effect memory Unit

namespace MemoryView

variable {memory : Type} [MemoryView memory]

/-- The size in whole pages, which is narrowed after the division. -/
def sizeInPages (m : memory) : Nat :=
  sizeInBytes m / wasmMemoryPageSize % 2 ^ 32

/-- How many bytes `fill` writes at a time. -/
def chunkLen : Nat := 4096

/-- The loop of `fill`, `written` bytes in. -/
def fillFrom (chunk : List Byte) (dest len written : Nat) (m : memory) :
    Effect memory Unit :=
  if written < len then
    let n := min (len - written) chunkLen
    match write m (dest + written) (chunk.take n) with
    | (.ok (), m) => fillFrom chunk dest len (written + n) m
    | (.error fault, m) => (.error fault, m)
  else (.ok (), m)
termination_by len - written
decreasing_by
  unfold chunkLen at *
  omega

/-- Fill a run with the low byte of a value. -/
def fill (m : memory) (dest value len : Nat) : Effect memory Unit :=
  let outOfBounds := MemoryError.outOfBoundsAccess .write dest (sizeInBytes m)
  match checkedAdd dest len with
  | none => (.fail outOfBounds, m)
  | some stop =>
      if stop > sizeInBytes m then (.fail outOfBounds, m)
      else fillFrom (List.replicate chunkLen (BitVec.ofNat 8 value)) dest len 0 m

/-- The default of the sized reads: `read_u8`, `read_u16`, `read_u32`,
`read_u64` and, on bit patterns, `read_f32` and `read_f64`. The signed reads
reinterpret the same bits. -/
def readSized (count : Nat) (m : memory) (offset : Nat) :
    Attempt MemoryError (BitVec (8 * count)) := do
  let buf ← read m offset (List.replicate count 0)
  return BitVec.ofNat _ (fromLittleEndian buf)

/-- The sized writes. -/
def writeSized (count : Nat) (m : memory) (offset : Nat)
    (data : BitVec (8 * count)) : Effect memory Unit :=
  write m offset (toLittleEndian count data.toNat)

/-- Write a `u8`. -/
def writeU8 (m : memory) := writeSized 1 m

/-- Write a `u16`. -/
def writeU16 (m : memory) := writeSized 2 m

/-- Write a `u32`. -/
def writeU32 (m : memory) := writeSized 4 m

/-- Write a `u64`. -/
def writeU64 (m : memory) := writeSized 8 m

/-- Write the bits of an `f32`. -/
def writeF32 (m : memory) := writeSized 4 m

/-- Write the bits of an `f64`. -/
def writeF64 (m : memory) := writeSized 8 m

end MemoryView

/-- A memory that the interpreter can also create and grow. -/
class Memory (memory : Type) extends MemoryView memory where
  allocateInitialMemory : (sizeInPages : Nat) → Attempt MemoryError memory
  grow : memory → (deltaInPages maxSizeInPages : Nat) → Effect memory Nat

end TraceWasm
