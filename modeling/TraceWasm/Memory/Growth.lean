import TraceWasm.Memory.ByteStore

/-!
# The size of a linear memory

Growing is the only operation that changes the size. It is refused, or it keeps
every byte and appends zeros.
-/

namespace TraceWasm
namespace LinearMemory

/-! ## Operations that keep the size -/

@[simp] theorem length_set (m : LinearMemory) (offset : Nat) (run : List Byte) :
    (m.set offset run).inner.length = m.inner.length :=
  length_overwrite _ _ _

@[simp] theorem length_write (m : LinearMemory) (offset : Nat) (data : List Byte) :
    (MemoryView.write m offset data).2.inner.length = m.inner.length := by
  change (m.write offset data).2.inner.length = _
  rw [write_eq]
  split
  · exact length_set _ _ _
  · rfl

@[simp] theorem length_copyWithin (m : LinearMemory) (dest src len : Nat) :
    (MemoryView.copyWithin m dest src len).2.inner.length = m.inner.length := by
  change (m.copyWithin dest src len).2.inner.length = _
  rw [copyWithin_eq]
  split
  · split
    · exact length_set _ _ _
    · rfl
  · rfl

@[simp] theorem length_fill (m : LinearMemory) (dest value len : Nat) :
    (MemoryView.fill m dest value len).2.inner.length = m.inner.length := by
  rw [fill_eq]
  split
  · exact length_set _ _ _
  · rfl

@[simp] theorem length_writeSized
    (m : LinearMemory) (count offset : Nat) (data : BitVec (8 * count)) :
    (MemoryView.writeSized count m offset data).2.inner.length = m.inner.length :=
  length_write _ _ _

/-! ## Growing -/

/-- A whole number of pages that a word can count. -/
def Paged (m : LinearMemory) (pages : Nat) : Prop :=
  m.inner.length = pages * wasmMemoryPageSize ∧ pages < 2 ^ 32

/-- A memory of whole pages has that many. -/
theorem Paged.sizeInPages
    {m : LinearMemory} {pages : Nat}
    (paged : m.Paged pages) :
    MemoryView.sizeInPages m = pages := by
  have length : MemoryView.sizeInBytes m = pages * wasmMemoryPageSize := paged.1
  unfold MemoryView.sizeInPages
  rw [length, Nat.mul_div_cancel _ (by decide), Nat.mod_eq_of_lt paged.2]

/-- The memory with so many more pages of zeros. -/
def extend (m : LinearMemory) (deltaInPages : Nat)
    (fits : m.inner.length + deltaInPages * wasmMemoryPageSize ≤ usizeMax) :
    LinearMemory where
  inner := m.inner ++ List.replicate (deltaInPages * wasmMemoryPageSize) 0
  fits := by
    rw [List.length_append, List.length_replicate]
    exact fits

/-- Fewer than `2 ^ 32` pages fit the address space. -/
theorem Paged.extendFits
    {m : LinearMemory} {pages deltaInPages : Nat}
    (paged : m.Paged pages)
    (counted : pages + deltaInPages < 2 ^ 32) :
    m.inner.length + deltaInPages * wasmMemoryPageSize ≤ usizeMax := by
  rw [paged.1]
  unfold wasmMemoryPageSize usizeMax
  omega

/-- Giving a memory a length that it does not exceed appends zeros. -/
theorem resize_eq
    {m : LinearMemory} {deltaInPages : Nat}
    (fits : m.inner.length + deltaInPages * wasmMemoryPageSize ≤ usizeMax) :
    (m.resize (m.inner.length + deltaInPages * wasmMemoryPageSize) :
      Attempt ε LinearMemory) = .ok (m.extend deltaInPages fits) := by
  unfold resize
  rw [dif_pos fits]
  congr 1
  apply LinearMemory.ext
  unfold LinearMemory.extend
  dsimp only
  rw [List.take_of_length_le (by omega), Nat.add_sub_cancel_left]

/-- A request up to the ceiling is granted, and any other is refused. -/
theorem grow_eq
    {m : LinearMemory} {pages deltaInPages maxSizeInPages : Nat}
    (paged : m.Paged pages)
    (ceiling : maxSizeInPages < 2 ^ 32) :
    Memory.grow m deltaInPages maxSizeInPages =
      if within : pages + deltaInPages ≤ maxSizeInPages then
        (.ok pages, m.extend deltaInPages (paged.extendFits (by omega)))
      else (.fail (.growFailed maxSizeInPages deltaInPages pages), m) := by
  change m.grow deltaInPages maxSizeInPages = _
  unfold grow
  dsimp only
  rw [paged.sizeInPages]
  by_cases within : pages + deltaInPages ≤ maxSizeInPages
  · have length : (deltaInPages + pages) * wasmMemoryPageSize =
        m.inner.length + deltaInPages * wasmMemoryPageSize := by
      rw [paged.1, Nat.add_mul, Nat.add_comm]
    rw [dif_pos within, if_neg (by omega), if_neg (by omega), length,
      resize_eq (paged.extendFits (by omega))]
  · rw [dif_neg within]
    split
    · rfl
    · rw [if_pos (by omega)]

end LinearMemory

end TraceWasm
