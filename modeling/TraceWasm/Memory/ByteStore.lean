import TraceWasm.Memory.Linear
import Mathlib.Algebra.BigOperators.Ring.List

/-!
# The linear memory refines an array of bytes

What a memory is for: a size and a byte at every address below it. Every
operation of the linear memory succeeds exactly when its range lies inside,
does to the bytes what it does to the array, and otherwise changes nothing.
-/

namespace TraceWasm

/-- An array of bytes. -/
structure ByteStore where
  size : Nat
  byte : Nat → Byte

namespace ByteStore

/-- The range lies inside, over the unbounded integers. -/
abbrev InBounds (store : ByteStore) (offset len : Nat) : Prop :=
  offset + len ≤ store.size

/-- The bytes of a range. -/
def run (store : ByteStore) (offset len : Nat) : List Byte :=
  (List.range len).map fun index => store.byte (offset + index)

/-- The number stored in a range, least significant byte first. -/
def word (store : ByteStore) (count offset : Nat) : Nat :=
  ((List.range count).map fun index =>
    256 ^ index * (store.byte (offset + index)).toNat).sum

/-- Change the bytes of a range and no others. -/
def update (store : ByteStore) (offset len : Nat) (byte : Nat → Byte) : ByteStore where
  size := store.size
  byte := fun index =>
    if Covers offset len index then byte (index - offset) else store.byte index

/-- The store with the data in place of what was there. -/
def write (store : ByteStore) (offset : Nat) (data : List Byte) : ByteStore :=
  store.update offset data.length fun index => data.getD index 0

/-- Copy a range as through a temporary. -/
def copyWithin (store : ByteStore) (dest src len : Nat) : ByteStore :=
  store.update dest len fun index => store.byte (src + index)

/-- The store with one value in place of what was there. -/
def fill (store : ByteStore) (dest : Nat) (value : Byte) (len : Nat) : ByteStore :=
  store.update dest len fun _ => value

/-- Writing a run of the array is copying it. -/
theorem write_run (store : ByteStore) (dest src len : Nat) :
    store.write dest (store.run src len) = store.copyWithin dest src len := by
  have lengths : (store.run src len).length = len := by
    rw [run, List.length_map, List.length_range]
  unfold write copyWithin update
  rw [lengths]
  congr 1
  funext index
  by_cases covered : Covers dest len index
  · rw [if_pos covered, if_pos covered]
    change (store.run src len).getD (index - dest) 0 = store.byte (src + (index - dest))
    rw [run, List.getD_eq_getElem?_getD, List.getElem?_map,
      List.getElem?_range (by omega)]
    exact Option.getD_some
  · rw [if_neg covered, if_neg covered]

/-- Filling is writing one value repeatedly. -/
theorem write_replicate (store : ByteStore) (dest len : Nat) (value : Byte) :
    store.write dest (List.replicate len value) = store.fill dest value len := by
  unfold write fill update
  rw [List.length_replicate]
  congr 1
  funext index
  by_cases covered : Covers dest len index
  · rw [if_pos covered, if_pos covered]
    change (List.replicate len value).getD (index - dest) 0 = value
    rw [List.getD_eq_getElem?_getD, List.getElem?_replicate, if_pos (by omega)]
    exact Option.getD_some
  · rw [if_neg covered, if_neg covered]

/-- A word is its first byte and the word behind it. -/
theorem word_succ (store : ByteStore) (count offset : Nat) :
    store.word (count + 1) offset =
      (store.byte offset).toNat + 256 * store.word count (offset + 1) := by
  unfold word
  rw [List.range_succ_eq_map, List.map_cons, List.sum_cons, List.map_map,
    pow_zero, Nat.one_mul, Nat.add_zero, ← List.sum_map_mul_left]
  congr 2
  apply List.map_congr_left
  intro index _
  change 256 ^ (index + 1) * _ = 256 * (256 ^ index * _)
  rw [show offset + index.succ = offset + 1 + index by omega, pow_succ]
  ring

/-- A run is its first byte and the run behind it. -/
theorem run_succ (store : ByteStore) (offset count : Nat) :
    store.run offset (count + 1) = store.byte offset :: store.run (offset + 1) count := by
  unfold run
  rw [List.range_succ_eq_map, List.map_cons, List.map_map, Nat.add_zero]
  congr 1
  apply List.map_congr_left
  intro index _
  change store.byte (offset + (index + 1)) = store.byte (offset + 1 + index)
  congr 1
  omega

/-- A word is read from its bytes. -/
theorem fromLittleEndian_run (store : ByteStore) (offset count : Nat) :
    fromLittleEndian (store.run offset count) = store.word count offset := by
  induction count generalizing offset with
  | zero => rfl
  | succ count inductionHypothesis =>
      rw [run_succ, word_succ, fromLittleEndian, inductionHypothesis]

end ByteStore

namespace LinearMemory

/-- The array that a memory stands for. -/
def store (m : LinearMemory) : ByteStore where
  size := m.inner.length
  byte := fun index => m.inner.getD index 0

/-- The bytes inside the memory are those of its store. -/
theorem run_store
    (m : LinearMemory)
    (inside : m.store.InBounds offset len) :
    (m.inner.drop offset).take len = m.store.run offset len := by
  have bound : offset + len ≤ m.inner.length := inside
  apply List.ext_getElem?
  intro index
  by_cases within : index < len
  · rw [getElem?_take_drop _ _ _ _ within, ByteStore.run, List.getElem?_map,
      List.getElem?_range within, Option.map_some]
    change _ = some (m.inner.getD (offset + index) 0)
    rw [List.getD_eq_getElem?_getD,
      List.getElem?_eq_getElem (show offset + index < m.inner.length by omega)]
    rfl
  · rw [List.getElem?_eq_none (by rw [List.length_take]; omega),
      List.getElem?_eq_none (by simp [ByteStore.run]; omega)]

theorem length_run (store : ByteStore) (offset len : Nat) :
    (store.run offset len).length = len := by
  simp [ByteStore.run]

/-- Writing a run into the vector writes it into the array. -/
theorem store_set
    (m : LinearMemory)
    (inside : m.store.InBounds offset data.length) :
    (m.set offset data).store = m.store.write offset data := by
  have bound : offset + data.length ≤ m.inner.length := inside
  have sameSize : (m.set offset data).store.size = m.store.size :=
    length_overwrite _ _ _
  have sameBytes : (m.set offset data).store.byte = (m.store.write offset data).byte := by
    funext index
    change (overwrite m.inner offset data).getD index 0 =
      if Covers offset data.length index then data.getD (index - offset) 0
      else m.inner.getD index 0
    rw [List.getD_eq_getElem?_getD, getElem?_overwrite _ _ _ bound]
    split
    · rw [List.getD_eq_getElem?_getD]
    · rw [List.getD_eq_getElem?_getD]
  cases stored : (m.set offset data).store with
  | mk size byte =>
      rw [stored] at sameSize sameBytes
      cases sameSize
      cases sameBytes
      rfl

/-- A slice inside the memory is a run of its store. -/
theorem slice_eq
    (m : LinearMemory)
    (inside : m.store.InBounds offset len) :
    (slice m.inner offset (offset + len) : Attempt ε (List Byte)) =
      .ok (m.store.run offset len) := by
  have bound : offset + len ≤ m.inner.length := inside
  unfold slice
  rw [Attempt.assert_of ⟨by omega, bound⟩, Attempt.ok_bind, Nat.add_sub_cancel_left,
    m.run_store inside]
  rfl

/-- Copying into the memory sets the bytes. -/
theorem copyFromSlice_eq
    (m : LinearMemory)
    (inside : m.store.InBounds offset data.length) :
    m.copyFromSlice offset (offset + data.length) data = (.ok (), m.set offset data) :=
  if_pos ⟨⟨by omega, inside⟩, by omega⟩

/-- The check each access makes is that its range lies inside. -/
theorem boundsCheck_store
    {α : Sort u} (m : LinearMemory) (offset len : Nat) (onFail : α) (onOk : Nat → α) :
    (match checkedAdd offset len with
      | none => onFail
      | some stop => if m.inner.length < stop then onFail else onOk stop) =
      if m.store.InBounds offset len then onOk (offset + len) else onFail :=
  boundsCheck_eq m.fits offset len onFail onOk

/-- A read succeeds inside the memory. -/
theorem read_eq (m : LinearMemory) (offset : Nat) (data : List Byte) :
    m.read offset data =
      if m.store.InBounds offset data.length then .ok (m.store.run offset data.length)
      else .fail (.outOfBoundsAccess .read offset m.store.size) := by
  refine (m.boundsCheck_store offset data.length _ _).trans ?_
  by_cases inside : m.store.InBounds offset data.length
  · rw [if_pos inside, if_pos inside, m.slice_eq inside, Attempt.ok_bind,
      Attempt.assert_of (length_run _ _ _), Attempt.ok_bind]
    rfl
  · rw [if_neg inside, if_neg inside]
    rfl

/-- A write succeeds inside the memory. -/
theorem write_eq (m : LinearMemory) (offset : Nat) (data : List Byte) :
    m.write offset data =
      if m.store.InBounds offset data.length then (.ok (), m.set offset data)
      else (.fail (.outOfBoundsAccess .write offset m.store.size), m) := by
  refine (m.boundsCheck_store offset data.length _ _).trans ?_
  by_cases inside : m.store.InBounds offset data.length
  · rw [if_pos inside, if_pos inside, m.copyFromSlice_eq inside]
  · rw [if_neg inside, if_neg inside]
    rfl

/-- A sized read reads a word. -/
theorem readSized_eq (m : LinearMemory) (count offset : Nat) :
    m.readSized count offset =
      if m.store.InBounds offset count then .ok (BitVec.ofNat _ (m.store.word count offset))
      else .fail (.outOfBoundsAccess .read offset m.store.size) := by
  refine (m.boundsCheck_store offset count _ _).trans ?_
  by_cases inside : m.store.InBounds offset count
  · rw [if_pos inside, if_pos inside, m.slice_eq inside, Attempt.ok_bind,
      Attempt.assert_of (length_run _ _ _), Attempt.ok_bind,
      ByteStore.fromLittleEndian_run]
    rfl
  · rw [if_neg inside, if_neg inside]
    rfl

/-- The trait's default decodes a buffer that `read` has filled. -/
theorem readSized_default_eq (m : LinearMemory) (count offset : Nat) :
    MemoryView.readSized count m offset =
      if m.store.InBounds offset count then .ok (BitVec.ofNat _ (m.store.word count offset))
      else .fail (.outOfBoundsAccess .read offset m.store.size) := by
  unfold MemoryView.readSized
  change m.read offset (List.replicate count 0) >>= _ = _
  rw [m.read_eq, List.length_replicate]
  by_cases inside : m.store.InBounds offset count
  · rw [if_pos inside, if_pos inside, Attempt.ok_bind, ByteStore.fromLittleEndian_run]
    rfl
  · rw [if_neg inside, if_neg inside]
    rfl

/-- A copy succeeds if both of its ends are inside the memory. -/
theorem copyWithin_eq (m : LinearMemory) (dest src len : Nat) :
    m.copyWithin dest src len =
      if m.store.InBounds src len then
        if m.store.InBounds dest len then (.ok (), m.set dest (m.store.run src len))
        else (.fail (.outOfBoundsAccess .write dest m.store.size), m)
      else (.fail (.outOfBoundsAccess .read src m.store.size), m) := by
  refine (m.boundsCheck_store src len _ _).trans ?_
  by_cases source : m.store.InBounds src len
  · rw [if_pos source, if_pos source]
    refine (m.boundsCheck_store dest len _ _).trans ?_
    by_cases target : m.store.InBounds dest len
    · have lengths : (m.store.run src len).length = len := length_run _ _ _
      rw [if_pos target, if_pos target, m.slice_eq source]
      exact m.copyFromSlice_eq (by rw [lengths]; exact target)
    · rw [if_neg target, if_neg target]
      rfl
  · rw [if_neg source, if_neg source]
    rfl

theorem set_nil (m : LinearMemory) (offset : Nat) : m.set offset [] = m :=
  LinearMemory.ext (overwrite_nil _ _)

/-- Filling chunk by chunk writes one run. -/
theorem fillFrom_eq
    (m : LinearMemory) (value : Byte)
    (started : written ≤ len)
    (inside : m.store.InBounds dest len) :
    MemoryView.fillFrom (List.replicate MemoryView.chunkLen value) dest len written m =
      (.ok (), m.set (dest + written) (List.replicate (len - written) value)) := by
  have bound : dest + len ≤ m.inner.length := inside
  unfold MemoryView.fillFrom
  by_cases more : written < len
  · rw [if_pos more]
    -- the length of this round's chunk
    obtain ⟨n, isMin, positive, nLe, nLeChunk⟩ :
        ∃ n, min (len - written) MemoryView.chunkLen = n ∧ 0 < n ∧ n ≤ len - written ∧
          n ≤ MemoryView.chunkLen := by
      refine ⟨_, rfl, ?_, by omega, by omega⟩
      unfold MemoryView.chunkLen
      omega
    have lengths : (List.replicate n value).length = n := List.length_replicate
    have chunk : (List.replicate MemoryView.chunkLen value).take n =
        List.replicate n value := by
      rw [List.take_replicate, Nat.min_eq_left nLeChunk]
    have wrote : MemoryView.write m (dest + written) (List.replicate n value) =
        ((.ok (), m.set (dest + written) (List.replicate n value)) :
          Effect LinearMemory Unit) := by
      refine (m.write_eq _ _).trans (if_pos ?_)
      rw [lengths]
      change dest + written + n ≤ m.inner.length
      omega
    have rest := fillFrom_eq (m.set (dest + written) (List.replicate n value)) value
      (show written + n ≤ len by omega)
      (show dest + len ≤ (overwrite m.inner _ _).length by
        rw [length_overwrite]
        exact bound)
    dsimp only
    rw [isMin, chunk, wrote]
    dsimp only
    rw [rest]
    refine Prod.ext rfl (LinearMemory.ext ?_)
    have joined := overwrite_overwrite m.inner (List.replicate n value)
      (List.replicate (len - (written + n)) value) (dest + written)
      (by rw [List.length_replicate, List.length_replicate]; omega)
    rw [lengths, List.replicate_append_replicate,
      show n + (len - (written + n)) = len - written by omega] at joined
    change overwrite (overwrite m.inner _ _) (dest + (written + n)) _ =
      overwrite m.inner _ _
    rw [← joined, Nat.add_assoc]
  · have done : len - written = 0 := by omega
    rw [if_neg more, done, List.replicate_zero, m.set_nil]
termination_by len - written
decreasing_by
  omega

/-- A fill succeeds inside the memory. -/
theorem fill_eq (m : LinearMemory) (dest value len : Nat) :
    MemoryView.fill m dest value len =
      if m.store.InBounds dest len then
        (.ok (), m.set dest (List.replicate len (BitVec.ofNat 8 value)))
      else (.fail (.outOfBoundsAccess .write dest m.store.size), m) := by
  refine (m.boundsCheck_store dest len _ _).trans ?_
  by_cases inside : m.store.InBounds dest len
  · rw [if_pos inside, if_pos inside]
    exact fillFrom_eq m (BitVec.ofNat 8 value) (Nat.zero_le len) inside
  · rw [if_neg inside, if_neg inside]
    rfl

end LinearMemory

/-! ## The refinement -/

/-- An operation with a range to check: if the range lies inside it succeeds and
leaves a memory for the given array, else it reports the access and leaves the
memory alone. -/
def Refines
    (m : LinearMemory) (effect : Effect LinearMemory Unit)
    (inside : Prop) (after : ByteStore) (error : MemoryError) : Prop :=
  (inside → ∃ m', effect = (.ok (), m') ∧ m'.store = after) ∧
    (¬inside → effect = (.fail error, m))

/-- The operations of a linear memory are those of the array it stands for. -/
structure RefinesByteStore (m : LinearMemory) : Prop where
  size : MemoryView.sizeInBytes m = m.store.size
  read : ∀ offset data,
    MemoryView.read m offset data =
      if m.store.InBounds offset data.length then .ok (m.store.run offset data.length)
      else .fail (.outOfBoundsAccess .read offset m.store.size)
  write : ∀ offset data,
    Refines m (MemoryView.write m offset data) (m.store.InBounds offset data.length)
      (m.store.write offset data) (.outOfBoundsAccess .write offset m.store.size)
  copyWithin : ∀ dest src len,
    Refines m (MemoryView.copyWithin m dest src len)
      (m.store.InBounds src len ∧ m.store.InBounds dest len)
      (m.store.copyWithin dest src len)
      (if m.store.InBounds src len then .outOfBoundsAccess .write dest m.store.size
        else .outOfBoundsAccess .read src m.store.size)
  fill : ∀ dest value len,
    Refines m (MemoryView.fill m dest value len) (m.store.InBounds dest len)
      (m.store.fill dest (BitVec.ofNat 8 value) len)
      (.outOfBoundsAccess .write dest m.store.size)
  /-- A sized read that decodes in place returns what the default returns. -/
  override : ∀ count offset,
    LinearMemory.readSized count m offset = MemoryView.readSized count m offset
  readSized : ∀ count offset,
    LinearMemory.readSized count m offset =
      if m.store.InBounds offset count then .ok (BitVec.ofNat _ (m.store.word count offset))
      else .fail (.outOfBoundsAccess .read offset m.store.size)
  writeSized : ∀ count offset data,
    Refines m (MemoryView.writeSized count m offset data) (m.store.InBounds offset count)
      (m.store.write offset (toLittleEndian count data.toNat))
      (.outOfBoundsAccess .write offset m.store.size)
  /-- What a sized write stored is what a sized read returns. -/
  readBack : ∀ count offset data m',
    MemoryView.writeSized count m offset data = (.ok (), m') →
      LinearMemory.readSized count m' offset = .ok data

/-- A write refines that of the store. -/
theorem LinearMemory.refines_write (m : LinearMemory) (offset : Nat) (data : List Byte) :
    Refines m (MemoryView.write m offset data) (m.store.InBounds offset data.length)
      (m.store.write offset data) (.outOfBoundsAccess .write offset m.store.size) := by
  constructor
  · intro inside
    exact ⟨m.set offset data, (m.write_eq offset data).trans (if_pos inside),
      m.store_set inside⟩
  · intro outside
    exact (m.write_eq offset data).trans (if_neg outside)

/-- A copy refines that of the store. -/
theorem LinearMemory.refines_copyWithin (m : LinearMemory) (dest src len : Nat) :
    Refines m (MemoryView.copyWithin m dest src len)
      (m.store.InBounds src len ∧ m.store.InBounds dest len)
      (m.store.copyWithin dest src len)
      (if m.store.InBounds src len then .outOfBoundsAccess .write dest m.store.size
        else .outOfBoundsAccess .read src m.store.size) := by
  constructor
  · intro ⟨source, target⟩
    refine ⟨m.set dest (m.store.run src len), ?_, ?_⟩
    · apply (m.copyWithin_eq dest src len).trans
      rw [if_pos source, if_pos target]
    · rw [m.store_set (by rw [length_run]; exact target), ByteStore.write_run]
  · intro outside
    apply (m.copyWithin_eq dest src len).trans
    by_cases source : m.store.InBounds src len
    · rw [if_pos source, if_pos source, if_neg fun target => outside ⟨source, target⟩]
    · rw [if_neg source, if_neg source]

/-- A fill refines that of the store. -/
theorem LinearMemory.refines_fill (m : LinearMemory) (dest value len : Nat) :
    Refines m (MemoryView.fill m dest value len) (m.store.InBounds dest len)
      (m.store.fill dest (BitVec.ofNat 8 value) len)
      (.outOfBoundsAccess .write dest m.store.size) := by
  constructor
  · intro inside
    refine ⟨m.set dest (List.replicate len (BitVec.ofNat 8 value)), ?_, ?_⟩
    · exact (m.fill_eq dest value len).trans (if_pos inside)
    · rw [m.store_set (by rw [List.length_replicate]; exact inside),
        ByteStore.write_replicate]
  · intro outside
    exact (m.fill_eq dest value len).trans (if_neg outside)

/-- A sized write writes the bytes of its word. -/
theorem LinearMemory.refines_writeSized
    (m : LinearMemory) (count offset : Nat) (data : BitVec (8 * count)) :
    Refines m (MemoryView.writeSized count m offset data) (m.store.InBounds offset count)
      (m.store.write offset (toLittleEndian count data.toNat))
      (.outOfBoundsAccess .write offset m.store.size) := by
  have refines := m.refines_write offset (toLittleEndian count data.toNat)
  rw [length_toLittleEndian] at refines
  exact refines

/-- A word that was written is the word at its address. -/
theorem LinearMemory.readSized_writeSized
    (m : LinearMemory) (count offset : Nat) (data : BitVec (8 * count))
    (wrote : MemoryView.writeSized count m offset data = (.ok (), m')) :
    LinearMemory.readSized count m' offset = .ok data := by
  have fits : data.toNat < 256 ^ count := by
    have bound := data.isLt
    rw [Nat.pow_mul] at bound
    exact bound
  have written := m.write_eq offset (toLittleEndian count data.toNat)
  rw [length_toLittleEndian] at written
  change m.write offset _ = _ at wrote
  rw [wrote] at written
  by_cases inside : m.store.InBounds offset count
  · rw [if_pos inside] at written
    cases written
    have bound : offset + count ≤ m.inner.length := inside
    have kept : (m.set offset (toLittleEndian count data.toNat)).store.InBounds
        offset count := by
      change offset + count ≤ (overwrite m.inner _ _).length
      rw [length_overwrite]
      exact bound
    have run := take_drop_overwrite m.inner (toLittleEndian count data.toNat) offset
      (by rw [length_toLittleEndian]; exact bound)
    rw [length_toLittleEndian] at run
    rw [readSized_eq, if_pos kept, ← ByteStore.fromLittleEndian_run,
      ← run_store _ kept]
    change Except.ok (BitVec.ofNat _ (fromLittleEndian
      (((overwrite m.inner _ _).drop offset).take count))) = _
    rw [run, fromLittleEndian_toLittleEndian fits, BitVec.ofNat_toNat,
      BitVec.setWidth_eq]
  · rw [if_neg inside] at written
    cases written

/-- Through the whole interface the linear memory is an array of bytes. -/
theorem linear_memory_refines (m : LinearMemory) : RefinesByteStore m where
  size := rfl
  read := m.read_eq
  write := m.refines_write
  copyWithin := m.refines_copyWithin
  fill := m.refines_fill
  override := by
    intro count offset
    rw [m.readSized_eq, m.readSized_default_eq]
  readSized := m.readSized_eq
  writeSized := m.refines_writeSized
  readBack := by
    intro count offset data m' wrote
    exact LinearMemory.readSized_writeSized m count offset data wrote

end TraceWasm
