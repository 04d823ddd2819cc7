import TraceWasm.Memory.ByteStore

/-!
# Filling through a backend's own `write`

The default of `fill` knows a backend by its size and its `write` alone. Whatever
the backend, as long as its `write` keeps the contract of the interface, filling is
one write.
-/

namespace TraceWasm

variable {memory : Type} [MemoryView memory]

/-- The contract of `write`: it is bounded by the size, and it writes all of its run or
nothing. The array is what the backend's bytes are taken to be. -/
structure WriteContract (store : memory → ByteStore) : Prop where
  size : ∀ m, MemoryView.sizeInBytes m = (store m).size
  /-- A size is a word. -/
  sizeFits : ∀ m, (store m).size ≤ usizeMax
  inside : ∀ m offset data, (store m).InBounds offset data.length →
    ∃ m', MemoryView.write m offset data = (.ok (), m') ∧
      store m' = (store m).write offset data
  outside : ∀ m offset data, ¬(store m).InBounds offset data.length →
    ∃ at' len m', MemoryView.write m offset data =
        (.fail (.outOfBoundsAccess .write at' len), m') ∧
      store m' = store m

/-- Filling is one write of as many copies of the byte. -/
structure FillsAsOneWrite
    (store : memory → ByteStore) (m : memory) (dest value len : Nat) : Prop where
  inside : (store m).InBounds dest len → ∃ filled written,
    MemoryView.fill m dest value len = (.ok (), filled) ∧
    MemoryView.write m dest (List.replicate len (BitVec.ofNat 8 value)) = (.ok (), written) ∧
    store filled = store written ∧ (store filled).size = (store m).size ∧
    (∀ index, Covers dest len index → (store filled).byte index = BitVec.ofNat 8 value) ∧
    ∀ index, ¬Covers dest len index → (store filled).byte index = (store m).byte index
  outside : ¬(store m).InBounds dest len → ∃ filled written at' memLen at'' memLen',
    MemoryView.fill m dest value len =
      (.fail (.outOfBoundsAccess .write at' memLen), filled) ∧
    MemoryView.write m dest (List.replicate len (BitVec.ofNat 8 value)) =
      (.fail (.outOfBoundsAccess .write at'' memLen'), written) ∧
    store filled = store written ∧ store filled = store m

namespace ByteStore

variable {store : ByteStore} {dest first second : Nat} {value : Byte}

@[simp] theorem fill_zero (store : ByteStore) (dest : Nat) (value : Byte) :
    store.fill dest value 0 = store := by
  unfold fill update
  cases store with
  | mk size byte =>
      refine congrArg (ByteStore.mk size) ?_
      funext index
      exact if_neg (by omega)

/-- Two runs filled one after the other are one run. -/
theorem fill_fill (store : ByteStore) (dest first second : Nat) (value : Byte) :
    (store.fill dest value first).fill (dest + first) value second =
      store.fill dest value (first + second) := by
  unfold fill update
  refine congrArg (ByteStore.mk store.size) ?_
  funext index
  by_cases covered : Covers dest (first + second) index
  · rw [if_pos covered]
    by_cases inSecond : Covers (dest + first) second index
    · rw [if_pos inSecond]
    · rw [if_neg inSecond]
      exact if_pos (by omega)
  · rw [if_neg covered, if_neg (by omega)]
    exact if_neg (by omega)

@[simp] theorem size_fill (store : ByteStore) (dest len : Nat) (value : Byte) :
    (store.fill dest value len).size = store.size := rfl

end ByteStore

namespace WriteContract

variable {store : memory → ByteStore} (contract : WriteContract store)
include contract

/-- The rounds of the loop that are left fill what is left of the run. -/
theorem fillFrom
    {m : memory} {value : Byte} {dest len written : Nat}
    (started : written ≤ len)
    (inside : (store m).InBounds dest len) :
    ∃ m', MemoryView.fillFrom (List.replicate MemoryView.chunkLen value) dest len written m =
        (.ok (), m') ∧
      store m' = (store m).fill (dest + written) value (len - written) := by
  have bound : dest + len ≤ (store m).size := inside
  unfold MemoryView.fillFrom
  by_cases more : written < len
  · rw [if_pos more]
    -- the length of this round's chunk
    obtain ⟨n, isMin, positive, nLe, nLeChunk⟩ :
        ∃ n, min (len - written) MemoryView.chunkLen = n ∧ 0 < n ∧ n ≤ len - written ∧
          n ≤ MemoryView.chunkLen := by
      refine ⟨_, rfl, ?_, by omega, by omega⟩
      unfold MemoryView.chunkLen
      omega
    have chunk : (List.replicate MemoryView.chunkLen value).take n =
        List.replicate n value := by
      rw [List.take_replicate, Nat.min_eq_left nLeChunk]
    have fits : (store m).InBounds (dest + written) (List.replicate n value).length := by
      rw [List.length_replicate]
      change dest + written + n ≤ (store m).size
      omega
    obtain ⟨next, wrote, isNext⟩ := contract.inside m _ _ fits
    rw [ByteStore.write_replicate] at isNext
    have insideNext : (store next).InBounds dest len := by
      change dest + len ≤ (store next).size
      rw [isNext]
      exact bound
    obtain ⟨last, rest, isLast⟩ := fillFrom (show written + n ≤ len by omega) insideNext
    refine ⟨last, ?_, ?_⟩
    · dsimp only
      rw [isMin, chunk, wrote]
      exact rest
    · rw [isLast, isNext, ← Nat.add_assoc, ByteStore.fill_fill]
      congr 1
      omega
  · have done : len - written = 0 := by omega
    rw [if_neg more, done, ByteStore.fill_zero]
    exact ⟨m, rfl, rfl⟩
termination_by len - written
decreasing_by
  omega

/-- The check ahead of the loop is the one of the whole range. -/
theorem fill_eq (m : memory) (dest value len : Nat) :
    MemoryView.fill m dest value len =
      if (store m).InBounds dest len then
        MemoryView.fillFrom (List.replicate MemoryView.chunkLen (BitVec.ofNat 8 value)) dest len
          0 m
      else (.fail (.outOfBoundsAccess .write dest (store m).size), m) := by
  rw [MemoryView.fill, contract.size]
  exact boundsCheck_eq (contract.sizeFits m) dest len _ _

/-- Filling is one write, whatever the backend. -/
theorem fills_as_one_write (m : memory) (dest value len : Nat) :
    FillsAsOneWrite store m dest value len := by
  have sameLength : (List.replicate len (BitVec.ofNat 8 value)).length = len :=
    List.length_replicate
  constructor
  · intro inside
    obtain ⟨filled, ran, isFilled⟩ := contract.fillFrom (Nat.zero_le len) inside
    obtain ⟨written, wrote, isWritten⟩ := contract.inside m dest
      (List.replicate len (BitVec.ofNat 8 value)) (by rw [sameLength]; exact inside)
    rw [ByteStore.write_replicate] at isWritten
    rw [Nat.add_zero, Nat.sub_zero] at isFilled
    refine ⟨filled, written, ?_, wrote, isFilled.trans isWritten.symm, ?_, ?_, ?_⟩
    · rw [contract.fill_eq, if_pos inside]
      exact ran
    · rw [isFilled, ByteStore.size_fill]
    · intro index covered
      rw [isFilled]
      exact if_pos covered
    · intro index notCovered
      rw [isFilled]
      exact if_neg notCovered
  · intro outside
    obtain ⟨at', memLen, written, wrote, isWritten⟩ := contract.outside m dest
      (List.replicate len (BitVec.ofNat 8 value)) (by rw [sameLength]; exact outside)
    refine ⟨m, written, dest, (store m).size, at', memLen, ?_, wrote, isWritten.symm, rfl⟩
    rw [contract.fill_eq, if_neg outside]

end WriteContract

/-- The linear memory keeps the contract. -/
theorem LinearMemory.writeContract : WriteContract LinearMemory.store where
  size := fun _ => rfl
  sizeFits := fun m => m.fits
  inside := fun m offset data inside => (m.refines_write offset data).1 inside
  outside := by
    intro m offset data outside
    exact ⟨offset, m.store.size, m, (m.refines_write offset data).2 outside, rfl⟩

/-- Three bytes of a memory, of which the last two are filled. -/
theorem fills_as_one_write_zeros :
    FillsAsOneWrite LinearMemory.store (LinearMemory.zeros 3 (by decide)) 1 7 2 :=
  LinearMemory.writeContract.fills_as_one_write _ 1 7 2

end TraceWasm
