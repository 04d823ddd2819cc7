import TraceWasm.Foundation.Overwrite
import TraceWasm.Memory.View

/-!
# The linear memory of the library

A flat vector of bytes. Its sized reads decode in place instead of going
through `read`, so each makes its own bounds check.
-/

namespace TraceWasm

/-- A vector of bytes. -/
structure LinearMemory where
  inner : List Byte
  /-- A vector's length is a word. -/
  fits : inner.length ≤ usizeMax

namespace LinearMemory

/-- A memory is its bytes. -/
@[ext] theorem ext {first second : LinearMemory}
    (same : first.inner = second.inner) : first = second := by
  cases first
  cases second
  cases same
  rfl

/-- The bytes from `start` up to `stop`; the range has to lie in the list. -/
def slice (bytes : List Byte) (start stop : Nat) : Attempt ε (List Byte) := do
  Attempt.assert (start ≤ stop ∧ stop ≤ bytes.length)
  return (bytes.drop start).take (stop - start)

/-- Write a run into a vector. -/
def set (m : LinearMemory) (offset : Nat) (run : List Byte) : LinearMemory where
  inner := overwrite m.inner offset run
  fits := by
    rw [length_overwrite]
    exact m.fits

/-- Copy a run of the same length over the bytes from `start` up to `stop`. -/
def copyFromSlice (m : LinearMemory) (start stop : Nat) (data : List Byte) :
    Effect LinearMemory Unit :=
  if (start ≤ stop ∧ stop ≤ m.inner.length) ∧ stop - start = data.length then
    (.ok (), m.set start data)
  else (Attempt.panicked, m)

/-- A memory of zeros. -/
def zeros (length : Nat) (fits : length ≤ usizeMax) : LinearMemory where
  inner := List.replicate length 0
  fits := by
    rw [List.length_replicate]
    exact fits

/-- Creating a memory panics when its length is not a word. -/
def new (sizeInPages : Nat) : Attempt ε LinearMemory :=
  if fits : sizeInPages * wasmMemoryPageSize ≤ usizeMax then
    .ok (zeros (sizeInPages * wasmMemoryPageSize) fits)
  else Attempt.panicked

/-- Pages that fit the address space are allocated. -/
theorem new_of_le
    {sizeInPages : Nat}
    (fits : sizeInPages * wasmMemoryPageSize ≤ usizeMax) :
    (new sizeInPages : Attempt ε LinearMemory) =
      .ok (zeros (sizeInPages * wasmMemoryPageSize) fits) :=
  dif_pos fits

/-- Copy bytes within the memory, which may overlap. -/
def copyWithin (m : LinearMemory) (dest src len : Nat) : Effect LinearMemory Unit :=
  let memLen := m.inner.length
  match checkedAdd src len with
  | none => (.fail (.outOfBoundsAccess .read src memLen), m)
  | some srcEnd =>
      if srcEnd > memLen then (.fail (.outOfBoundsAccess .read src memLen), m)
      else match checkedAdd dest len with
        | none => (.fail (.outOfBoundsAccess .write dest memLen), m)
        | some destEnd =>
            if destEnd > memLen then (.fail (.outOfBoundsAccess .write dest memLen), m)
            else match (slice m.inner src srcEnd : Attempt MemoryError _) with
              | .ok run => m.copyFromSlice dest (dest + run.length) run
              | .error fault => (.error fault, m)

/-- Read as many bytes as the buffer has. -/
def read (m : LinearMemory) (offset : Nat) (data : List Byte) :
    Attempt MemoryError (List Byte) :=
  let memLen := m.inner.length
  match checkedAdd offset data.length with
  | none => .fail (.outOfBoundsAccess .read offset memLen)
  | some stop =>
      if memLen < stop then .fail (.outOfBoundsAccess .read offset memLen)
      else do
        let run ← slice m.inner offset stop
        Attempt.assert (run.length = data.length)
        return run

/-- Write bytes. -/
def write (m : LinearMemory) (offset : Nat) (data : List Byte) :
    Effect LinearMemory Unit :=
  let memLen := m.inner.length
  match checkedAdd offset data.length with
  | none => (.fail (.outOfBoundsAccess .write offset memLen), m)
  | some stop =>
      if memLen < stop then (.fail (.outOfBoundsAccess .write offset memLen), m)
      else m.copyFromSlice offset stop data

/-- The sized reads, which decode in place. -/
def readSized (count : Nat) (m : LinearMemory) (offset : Nat) :
    Attempt MemoryError (BitVec (8 * count)) :=
  let memLen := m.inner.length
  match checkedAdd offset count with
  | none => .fail (.outOfBoundsAccess .read offset memLen)
  | some stop =>
      if memLen < stop then .fail (.outOfBoundsAccess .read offset memLen)
      else do
        let bytes ← slice m.inner offset (offset + count)
        Attempt.assert (bytes.length = count)
        return BitVec.ofNat _ (fromLittleEndian bytes)

/-- Read a `u8`. -/
def readU8 (m : LinearMemory) := readSized 1 m

/-- Read a `u16`. -/
def readU16 (m : LinearMemory) := readSized 2 m

/-- Read a `u32`. -/
def readU32 (m : LinearMemory) := readSized 4 m

/-- Read a `u64`. -/
def readU64 (m : LinearMemory) := readSized 8 m

/-- Read the bits of an `f32`. -/
def readF32 (m : LinearMemory) := readSized 4 m

/-- Read the bits of an `f64`. -/
def readF64 (m : LinearMemory) := readSized 8 m

instance : MemoryView LinearMemory where
  sizeInBytes := fun m => m.inner.length
  copyWithin := copyWithin
  read := read
  write := write

/-- Give the memory a new length, with zeros for what is new. -/
def resize (m : LinearMemory) (length : Nat) : Attempt ε LinearMemory :=
  if fits : length ≤ usizeMax then
    .ok ⟨m.inner.take length ++ List.replicate (length - m.inner.length) 0, by
      rw [List.length_append, List.length_take, List.length_replicate]
      omega⟩
  else Attempt.panicked

/-- Grow the memory by whole pages, up to the ceiling. -/
def grow (m : LinearMemory) (deltaInPages maxSizeInPages : Nat) :
    Effect LinearMemory Nat :=
  let oldSize := MemoryView.sizeInPages m
  let failed := MemoryError.growFailed maxSizeInPages deltaInPages oldSize
  if deltaInPages + oldSize > 2 ^ 32 - 1 then (.fail failed, m)
  else
    let newSize := deltaInPages + oldSize
    if newSize > maxSizeInPages then (.fail failed, m)
    else match (m.resize (newSize * wasmMemoryPageSize) : Attempt MemoryError _) with
      | .ok grown => (.ok oldSize, grown)
      | .error fault => (.error fault, m)

instance : Memory LinearMemory where
  allocateInitialMemory := new
  grow := grow

end LinearMemory

end TraceWasm
