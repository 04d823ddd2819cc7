import TraceWasm.Memory.Growth
import TraceWasm.Operators.Execution
import TraceWasm.Runtime.Integers
import TraceWasm.Runtime.MemoryLimits

/-!
# Memory operators on both machines

A memory operator is specified by what it reads and writes of an array of bytes, over
the unbounded integers. Whichever machine executes the instruction it is lowered to,
it does that to the memory, or traps and leaves every byte as it is.
-/

namespace TraceWasm

/-! ## Bytes -/

theorem fromLittleEndian_lt (bytes : List Byte) :
    fromLittleEndian bytes < 256 ^ bytes.length := by
  induction bytes with
  | nil => exact Nat.one_pos
  | cons byte bytes inductionHypothesis =>
      have low := byte.isLt
      rw [fromLittleEndian, List.length_cons, Nat.pow_succ]
      omega

theorem getElem?_toLittleEndian
    {count index : Nat} (value : Nat) (inside : index < count) :
    (toLittleEndian count value)[index]? = some (BitVec.ofNat 8 (value / 256 ^ index)) := by
  induction count generalizing value index with
  | zero => cases inside
  | succ count inductionHypothesis =>
      cases index with
      | zero => simp [toLittleEndian]
      | succ index =>
          rw [toLittleEndian, List.getElem?_cons_succ, inductionHypothesis _ (by omega),
            Nat.div_div_eq_div_mul, Nat.pow_succ, Nat.mul_comm]

namespace ByteStore

theorem word_lt (store : ByteStore) (count offset : Nat) :
    store.word count offset < 2 ^ (8 * count) := by
  have bound := fromLittleEndian_lt (store.run offset count)
  rw [fromLittleEndian_run, LinearMemory.length_run] at bound
  rw [Nat.pow_mul]
  exact bound

/-- Write the low bytes of a number, the least significant first. -/
def writeWord (store : ByteStore) (count offset value : Nat) : ByteStore :=
  store.update offset count fun index => BitVec.ofNat 8 (value / 256 ^ index)

/-- Writing the bytes of a number writes the word. -/
theorem write_toLittleEndian (store : ByteStore) (count offset value : Nat) :
    store.write offset (toLittleEndian count value) = store.writeWord count offset value := by
  unfold write writeWord update
  rw [length_toLittleEndian]
  congr 1
  funext index
  by_cases covered : Covers offset count index
  · rw [if_pos covered, if_pos covered]
    dsimp only
    rw [List.getD_eq_getElem?_getD, getElem?_toLittleEndian _ (by omega), Option.getD_some]
  · rw [if_neg covered, if_neg covered]

end ByteStore

/-! ## Loads and stores -/

open Integer

namespace LoadOp

/-- How many bytes are read. -/
def bytes : LoadOp → Nat
  | .i32Load8S | .i32Load8U | .i64Load8S | .i64Load8U => 1
  | .i32Load16S | .i32Load16U | .i64Load16S | .i64Load16U => 2
  | .i32Load | .i64Load32S | .i64Load32U | .f32Load => 4
  | .i64Load | .f64Load => 8

/-- The number that the bytes stand for at the width of the result. -/
def extend : LoadOp → Nat → Nat
  | .i32Load8S => extendS 8 32
  | .i32Load16S => extendS 16 32
  | .i64Load8S => extendS 8 64
  | .i64Load16S => extendS 16 64
  | .i64Load32S => extendS 32 64
  | _ => id

/-- The slot that a word read from memory becomes. -/
def slot : (op : LoadOp) → BitVec (8 * op.bytes) → Value
  | .i32Load, word => .fromI32 word
  | .i32Load8S, word => .fromI32 (BitVec.signExtend 32 word)
  | .i32Load8U, word => .fromI32 (BitVec.setWidth 32 word)
  | .i32Load16S, word => .fromI32 (BitVec.signExtend 32 word)
  | .i32Load16U, word => .fromI32 (BitVec.setWidth 32 word)
  | .i64Load, word => .fromI64 word
  | .i64Load8S, word => .fromI64 (BitVec.signExtend 64 word)
  | .i64Load8U, word => .fromI64 (BitVec.setWidth 64 word)
  | .i64Load16S, word => .fromI64 (BitVec.signExtend 64 word)
  | .i64Load16U, word => .fromI64 (BitVec.setWidth 64 word)
  | .i64Load32S, word => .fromI64 (BitVec.signExtend 64 word)
  | .i64Load32U, word => .fromI64 (BitVec.setWidth 64 word)
  | .f32Load, word => .fromF32 word
  | .f64Load, word => .fromF64 word

theorem bind_return {α β : Type} (x : Attempt ε α) (f : α → β) :
    (x >>= fun a => return f a) = x.map f := by
  cases x <;> rfl

theorem read_eq {memory : Type} [MemoryView memory] (op : LoadOp) (m : memory) (address : Nat) :
    op.read m address = (MemoryView.readSized op.bytes m address).map op.slot := by
  cases op <;> exact bind_return _ _

theorem fromI32_of_toNat {word : BitVec 32} (value : word.toNat = n) :
    Value.fromI32 word = BitVec.ofNat 64 n := by
  rw [fromI32_eq, value]

theorem fromI64_of_toNat {word : BitVec 64} (value : word.toNat = n) :
    Value.fromI64 word = BitVec.ofNat 64 n := by
  rw [fromI64_eq, value]

/-- A slot holds the number of its word. -/
theorem slot_ofNat (op : LoadOp) {word : Nat} (fits : word < 2 ^ (8 * op.bytes)) :
    op.slot (BitVec.ofNat _ word) = BitVec.ofNat 64 (op.extend word) := by
  have same : (BitVec.ofNat (8 * op.bytes) word).toNat = word := by
    rw [BitVec.toNat_ofNat, Nat.mod_eq_of_lt fits]
  have signed : ∀ w, (BitVec.signExtend w (BitVec.ofNat (8 * op.bytes) word)).toNat =
      extendS (8 * op.bytes) w word := by
    intro w
    rw [toNat_signExtend, same]
  have widened : ∀ {w}, 8 * op.bytes ≤ w →
      (BitVec.setWidth w (BitVec.ofNat (8 * op.bytes) word)).toNat = word := by
    intro w wide
    rw [BitVec.toNat_setWidth_of_le wide, same]
  cases op with
  | i32Load => exact fromI32_of_toNat same
  | i32Load8S => exact fromI32_of_toNat (signed 32)
  | i32Load8U => exact fromI32_of_toNat (widened (by decide))
  | i32Load16S => exact fromI32_of_toNat (signed 32)
  | i32Load16U => exact fromI32_of_toNat (widened (by decide))
  | i64Load => exact fromI64_of_toNat same
  | i64Load8S => exact fromI64_of_toNat (signed 64)
  | i64Load8U => exact fromI64_of_toNat (widened (by decide))
  | i64Load16S => exact fromI64_of_toNat (signed 64)
  | i64Load16U => exact fromI64_of_toNat (widened (by decide))
  | i64Load32S => exact fromI64_of_toNat (signed 64)
  | i64Load32U => exact fromI64_of_toNat (widened (by decide))
  | f32Load => exact fromI32_of_toNat same
  | f64Load => exact fromI64_of_toNat same

end LoadOp

namespace StoreOp

/-- How many bytes are written. -/
def bytes : StoreOp → Nat
  | .i32Store8 | .i64Store8 => 1
  | .i32Store16 | .i64Store16 => 2
  | .i32Store | .i64Store32 | .f32Store => 4
  | .i64Store | .f64Store => 8

/-- The word that is written of a slot. -/
theorem write_eq
    {memory : Type} [MemoryView memory]
    (op : StoreOp) (m : memory) (address : Nat) (val : Value) :
    op.write m address val =
      MemoryView.writeSized op.bytes m address (val.setWidth (8 * op.bytes)) := by
  have narrowed : ∀ {w : Nat}, w ≤ 32 → val.asI32.setWidth w = val.setWidth w := by
    intro w narrow
    exact BitVec.setWidth_setWidth_of_le _ narrow
  cases op with
  | i32Store8 => exact congrArg (MemoryView.writeSized 1 m address) (narrowed (by decide))
  | i32Store16 => exact congrArg (MemoryView.writeSized 2 m address) (narrowed (by decide))
  | i64Store =>
      exact congrArg (MemoryView.writeSized 8 m address) (BitVec.setWidth_eq val).symm
  | f64Store =>
      exact congrArg (MemoryView.writeSized 8 m address) (BitVec.setWidth_eq val).symm
  | _ => rfl

end StoreOp

/-! ## Memory operators -/

/-- An operator that reads or writes memory. A static offset is a 32-bit word. -/
inductive MemoryOperator where
  | load (op : LoadOp) (offset : BitVec 32)
  | store (op : StoreOp) (offset : BitVec 32)
  | copy
  | fill
  | init (dataIndex : Nat)

namespace MemoryOperator

/-- The operator on the one memory there is. -/
def toDataOp : MemoryOperator → DataOp Nat Nat
  | .load op offset => .load op offset.toNat
  | .store op offset => .store op offset.toNat
  | .copy => .memoryCopy 0 0
  | .fill => .memoryFill 0
  | .init dataIndex => .memoryInit dataIndex 0

/-- The operator that the machines execute. -/
def toEffect : MemoryOperator → DataOp Nat Unit
  | .load op offset => .load op offset.toNat
  | .store op offset => .store op offset.toNat
  | .copy => .memoryCopy () ()
  | .fill => .memoryFill ()
  | .init dataIndex => .memoryInit dataIndex ()

/-- A segment that the operator names is one of the module's. -/
def SegmentExists (segments : List (List Byte)) : MemoryOperator → Prop
  | .init dataIndex => dataIndex < segments.length
  | _ => True

/-- A load or store fits: its address is one of the address space, and its range lies
inside. -/
abbrev Fits (store : ByteStore) (address count : Nat) : Prop :=
  address < 2 ^ 32 ∧ store.InBounds address count

/-- The results of the operator and the array that it leaves, unless a range does not
fit. -/
def access (segments : List (List Byte)) (store : ByteStore) :
    MemoryOperator → List Value → Option (List Nat × ByteStore)
  | .load op offset, [addr] =>
      let address := addr.asOffset + offset.toNat
      if Fits store address op.bytes then
        some ([op.extend (store.word op.bytes address)], store)
      else none
  | .store op offset, [addr, val] =>
      let address := addr.asOffset + offset.toNat
      if Fits store address op.bytes then
        some ([], store.writeWord op.bytes address (wrap (8 * op.bytes) val.toNat))
      else none
  | .copy, [dest, src, len] =>
      if store.InBounds src.asOffset len.asOffset ∧ store.InBounds dest.asOffset len.asOffset
      then some ([], store.copyWithin dest.asOffset src.asOffset len.asOffset)
      else none
  | .fill, [dest, val, len] =>
      if store.InBounds dest.asOffset len.asOffset then
        some ([], store.fill dest.asOffset (BitVec.ofNat 8 val.toNat) len.asOffset)
      else none
  | .init dataIndex, [dest, src, len] =>
      let segment := segments.getD dataIndex []
      if src.asOffset + len.asOffset ≤ segment.length ∧
          store.InBounds dest.asOffset len.asOffset then
        some ([], store.write dest.asOffset
          ((segment.drop src.asOffset).take len.asOffset))
      else none
  | _, _ => none

/-- The outcome of the operator and the memory it leaves are those of the access. An
access that does not fit traps, and no byte is changed. -/
def Outcome
    (op : MemoryOperator) (segments : List (List Byte)) (m : LinearMemory)
    (operands : List Value) (outcome : Attempt InstructionExecutionError (List Value))
    (m' : LinearMemory) : Prop :=
  match op.access segments m.store operands with
  | some (results, after) =>
      outcome = .ok (results.map (BitVec.ofNat 64)) ∧ m'.store = after
  | none => (∃ error, outcome = .fail (.memory error)) ∧ m' = m

section Effects

variable {frame registry Instr FrameLayout : Type}
variable {numerics : Numerics} {module : Module Instr FrameLayout}
variable {inst : Instance frame LinearMemory registry}

/-- The outcome of an operation on the memory. -/
def answer (effect : Effect LinearMemory Unit) :
    Attempt InstructionExecutionError (List Value) :=
  (memoryTrap effect.1).map fun _ => []

/-- An operation that refines one on the array answers as its range fits. -/
theorem answer_of_refines
    {m : LinearMemory} {effect : Effect LinearMemory Unit} {inside : Prop}
    [Decidable inside] {after : ByteStore} {error : MemoryError}
    (refines : Refines m effect inside after error) :
    match if inside then some (([] : List Nat), after) else none with
    | some (results, after) =>
        answer effect = .ok (results.map (BitVec.ofNat 64)) ∧ effect.2.store = after
    | none => (∃ error, answer effect = .fail (.memory error)) ∧ effect.2 = m := by
  by_cases fits : inside
  · rw [if_pos fits]
    obtain ⟨m', same, stored⟩ := refines.1 fits
    rw [same]
    exact ⟨rfl, stored⟩
  · rw [if_neg fits, refines.2 fits]
    exact ⟨⟨error, rfl⟩, rfl⟩

/-- An address that fits 32 bits. -/
theorem effectiveAddress_of_lt
    {addr : Value} {offset : Nat}
    (addressed : addr.asOffset + offset < 2 ^ 32) :
    effectiveAddress addr offset = .ok (addr.asOffset + offset) := if_pos addressed

/-- An address that does not. -/
theorem effectiveAddress_of_le
    {addr : Value} {offset : Nat}
    (beyond : ¬addr.asOffset + offset < 2 ^ 32) :
    effectiveAddress addr offset =
      .fail (.effectiveAddressOverflow addr.asOffset offset) := if_neg beyond

/-- The outcome that a load comes down to. -/
def loadOutcome (op : LoadOp) (offset : Nat) (addr : Value) (m : LinearMemory) :
    Attempt InstructionExecutionError (List Value) := do
  let address ← memoryTrap (effectiveAddress addr offset)
  return [← memoryTrap (op.read m address)]

theorem loadOutcome_of_lt
    {op : LoadOp} {offset : Nat} {addr : Value} {m : LinearMemory}
    (addressed : addr.asOffset + offset < 2 ^ 32) :
    loadOutcome op offset addr m =
      memoryTrap (op.read m (addr.asOffset + offset)) >>= fun result => return [result] := by
  unfold loadOutcome
  rw [effectiveAddress_of_lt addressed]
  rfl

theorem loadOutcome_of_le
    {op : LoadOp} {offset : Nat} {addr : Value} {m : LinearMemory}
    (beyond : ¬addr.asOffset + offset < 2 ^ 32) :
    loadOutcome op offset addr m =
      .fail (.memory (.effectiveAddressOverflow addr.asOffset offset)) := by
  unfold loadOutcome
  rw [effectiveAddress_of_le beyond]
  rfl

/-- A load does what it means. -/
theorem load_effects (op : LoadOp) (offset : BitVec 32) (addr : Value) :
    ∃ outcome, DataOp.Effects numerics module inst (.load op offset.toNat) [addr] outcome
      inst.memory ∧
      (load op offset).Outcome segments inst.memory [addr] outcome inst.memory := by
  refine ⟨loadOutcome op offset.toNat addr inst.memory, fun _ => rfl, ?_⟩
  unfold Outcome access
  dsimp only
  by_cases addressed : addr.asOffset + offset.toNat < 2 ^ 32
  · rw [loadOutcome_of_lt addressed, op.read_eq, inst.memory.readSized_default_eq]
    by_cases inside : inst.memory.store.InBounds (addr.asOffset + offset.toNat) op.bytes
    · rw [if_pos inside, if_pos ⟨addressed, inside⟩]
      have fits := inst.memory.store.word_lt op.bytes (addr.asOffset + offset.toNat)
      exact ⟨congrArg (fun slot => Except.ok [slot]) (op.slot_ofNat fits), rfl⟩
    · rw [if_neg inside, if_neg fun fits => inside fits.2]
      exact ⟨⟨_, rfl⟩, rfl⟩
  · rw [loadOutcome_of_le addressed, if_neg fun fits => addressed fits.1]
    exact ⟨⟨_, rfl⟩, rfl⟩

/-- The operation that a store comes down to. -/
def storeEffect (op : StoreOp) (offset : Nat) (addr val : Value) (m : LinearMemory) :
    Effect LinearMemory Unit :=
  match effectiveAddress addr offset with
  | .ok address => op.write m address val
  | .error fault => (.error fault, m)

/-- A store refines that of the byte store. -/
theorem refines_storeEffect
    (op : StoreOp) (offset : Nat) (addr val : Value) (m : LinearMemory) :
    ∃ error, Refines m (storeEffect op offset addr val m)
      (Fits m.store (addr.asOffset + offset) op.bytes)
      (m.store.writeWord op.bytes (addr.asOffset + offset) (wrap (8 * op.bytes) val.toNat))
      error := by
  unfold storeEffect
  by_cases addressed : addr.asOffset + offset < 2 ^ 32
  · refine ⟨.outOfBoundsAccess .write (addr.asOffset + offset) m.store.size, ?_⟩
    rw [effectiveAddress_of_lt addressed]
    dsimp only
    have refines := m.refines_writeSized op.bytes (addr.asOffset + offset)
      (val.setWidth (8 * op.bytes))
    rw [← op.write_eq, ByteStore.write_toLittleEndian, Integer.toNat_setWidth] at refines
    exact ⟨fun fits => refines.1 fits.2, fun outside => refines.2 fun inside =>
      outside ⟨addressed, inside⟩⟩
  · refine ⟨.effectiveAddressOverflow addr.asOffset offset, ?_⟩
    rw [effectiveAddress_of_le addressed]
    exact ⟨fun fits => (addressed fits.1).elim, fun _ => rfl⟩

/-- A store does what it means. -/
theorem store_effects (op : StoreOp) (offset : BitVec 32) (addr val : Value) :
    ∃ outcome m', DataOp.Effects numerics module inst (.store op offset.toNat) [addr, val]
      outcome m' ∧
      (store op offset).Outcome segments inst.memory [addr, val] outcome m' := by
  obtain ⟨error, refines⟩ := refines_storeEffect op offset.toNat addr val inst.memory
  refine ⟨answer (storeEffect op offset.toNat addr val inst.memory),
    (storeEffect op offset.toNat addr val inst.memory).2, ?_, answer_of_refines refines⟩
  intro current
  change (match effectiveAddress addr offset.toNat with
    | .ok address => Instance.withEffect _ (op.write inst.memory address val)
    | .error fault => Instance.withEffect _ (.error fault, inst.memory)) = _
  unfold storeEffect
  cases effectiveAddress addr offset.toNat <;> rfl

/-- So does `memory.copy`. -/
theorem copy_effects (dest src len : Value) :
    ∃ outcome m', DataOp.Effects numerics module inst (.memoryCopy () ()) [dest, src, len]
      outcome m' ∧
      copy.Outcome segments inst.memory [dest, src, len] outcome m' :=
  ⟨_, _, fun _ => rfl, answer_of_refines (inst.memory.refines_copyWithin _ _ _)⟩

/-- So does `memory.fill`. -/
theorem fill_effects (dest val len : Value) :
    ∃ outcome m', DataOp.Effects numerics module inst (.memoryFill ()) [dest, val, len]
      outcome m' ∧
      fill.Outcome segments inst.memory [dest, val, len] outcome m' := by
  refine ⟨answer (MemoryView.fill inst.memory dest.asOffset val.asOffset len.asOffset),
    (MemoryView.fill inst.memory dest.asOffset val.asOffset len.asOffset).2, fun _ => rfl, ?_⟩
  have refines := inst.memory.refines_fill dest.asOffset val.asOffset len.asOffset
  have low : BitVec.ofNat 8 val.asOffset = BitVec.ofNat 8 val.toNat := by
    apply BitVec.eq_of_toNat_eq
    have lowWord : val.asOffset = val.toNat % 2 ^ 32 := toNat_asI32 val
    rw [BitVec.toNat_ofNat, BitVec.toNat_ofNat, lowWord]
    omega
  rw [low] at refines
  exact answer_of_refines refines

/-- The bytes that `memory.init` copies are those of the segment. -/
theorem initRun_eq (segment : List Byte) {src len : Nat} (words : src + len ≤ usizeMax) :
    initRun segment src len =
      if src + len ≤ segment.length then .ok ((segment.drop src).take len)
      else .fail (.outOfBoundsAccess .read src segment.length) := by
  unfold initRun checkedAdd
  rw [if_pos words]

theorem asOffset_lt (value : Value) : value.asOffset < 2 ^ 32 := value.asI32.isLt

/-- The operation that copying a segment comes down to. -/
def initEffect (segment : List Byte) (dest src len : Value) (m : LinearMemory) :
    Effect LinearMemory Unit :=
  match initRun segment src.asOffset len.asOffset with
  | .ok run => MemoryView.write m dest.asOffset run
  | .error fault => (.error fault, m)

/-- A `memory.init` refines a write of the byte store. -/
theorem refines_initEffect (segment : List Byte) (dest src len : Value) (m : LinearMemory) :
    ∃ error, Refines m (initEffect segment dest src len m)
      (src.asOffset + len.asOffset ≤ segment.length ∧
        m.store.InBounds dest.asOffset len.asOffset)
      (m.store.write dest.asOffset ((segment.drop src.asOffset).take len.asOffset))
      error := by
  have words : src.asOffset + len.asOffset ≤ usizeMax := by
    have := asOffset_lt src
    have := asOffset_lt len
    unfold usizeMax
    omega
  unfold initEffect
  rw [initRun_eq segment words]
  by_cases source : src.asOffset + len.asOffset ≤ segment.length
  · refine ⟨.outOfBoundsAccess .write dest.asOffset m.store.size, ?_⟩
    rw [if_pos source]
    dsimp only
    have length : ((segment.drop src.asOffset).take len.asOffset).length = len.asOffset := by
      rw [List.length_take, List.length_drop]
      omega
    have refines := m.refines_write dest.asOffset ((segment.drop src.asOffset).take len.asOffset)
    rw [length] at refines
    exact ⟨fun fits => refines.1 fits.2, fun outside => refines.2 fun inside =>
      outside ⟨source, inside⟩⟩
  · refine ⟨.outOfBoundsAccess .read src.asOffset segment.length, ?_⟩
    rw [if_neg source]
    exact ⟨fun fits => (source fits.1).elim, fun _ => rfl⟩

/-- A `memory.init` does what it means. -/
theorem init_effects
    {dataIndex : Nat} (dest src len : Value)
    (inside : dataIndex < inst.dataVals.length) :
    ∃ outcome m', DataOp.Effects numerics module inst (.memoryInit dataIndex ())
      [dest, src, len] outcome m' ∧
      (init dataIndex).Outcome (inst.dataVals.map DataVal.segment) inst.memory
        [dest, src, len] outcome m' := by
  have found := List.getElem?_eq_getElem inside
  have segment : (inst.dataVals.map DataVal.segment).getD dataIndex [] =
      inst.dataVals[dataIndex].segment := by
    rw [List.getD_eq_getElem?_getD, List.getElem?_map, found]
    rfl
  obtain ⟨error, refines⟩ := refines_initEffect inst.dataVals[dataIndex].segment dest src len
    inst.memory
  rw [← segment] at refines
  refine ⟨_, _, ?_, answer_of_refines refines⟩
  intro current
  rw [segment]
  unfold DataOp.effect
  dsimp only
  rw [found]
  dsimp only
  unfold initEffect
  cases initRun inst.dataVals[dataIndex].segment src.asOffset len.asOffset <;> rfl

/-- A memory operator has the outcome of its access. -/
theorem exists_effects
    (op : MemoryOperator) {operands : List Value}
    (count : operands.length = op.toDataOp.inputs)
    (segment : op.SegmentExists (inst.dataVals.map DataVal.segment)) :
    ∃ outcome m', op.toEffect.Effects numerics module inst operands outcome m' ∧
      op.Outcome (inst.dataVals.map DataVal.segment) inst.memory operands outcome m' := by
  cases op with
  | load op offset =>
      obtain ⟨addr, rfl⟩ := List.length_eq_one_iff.mp count
      obtain ⟨outcome, effects, meant⟩ := load_effects op offset addr
      exact ⟨outcome, _, effects, meant⟩
  | store op offset =>
      obtain ⟨addr, val, rfl⟩ := List.length_eq_two.mp count
      exact store_effects op offset addr val
  | copy =>
      obtain ⟨dest, src, len, rfl⟩ := List.length_eq_three.mp count
      exact copy_effects dest src len
  | fill =>
      obtain ⟨dest, val, len, rfl⟩ := List.length_eq_three.mp count
      exact fill_effects dest val len
  | init dataIndex =>
      obtain ⟨dest, src, len, rfl⟩ := List.length_eq_three.mp count
      apply init_effects
      change dataIndex < (inst.dataVals.map DataVal.segment).length at segment
      rwa [List.length_map] at segment

end Effects

/-! ## Both machines -/

theorem length_of_outcome
    {op : MemoryOperator} {m m' : LinearMemory} {operands results : List Value}
    (count : operands.length = op.toDataOp.inputs)
    (outcome : op.Outcome segments m operands (.ok results) m') :
    results.length = op.toDataOp.outputs := by
  unfold Outcome at outcome
  split at outcome
  · next values after accessed =>
      obtain ⟨same, _⟩ := outcome
      cases same
      rw [List.length_map]
      cases op with
      | load op offset =>
          obtain ⟨addr, rfl⟩ := List.length_eq_one_iff.mp count
          obtain ⟨_, same⟩ := Option.ite_none_right_eq_some.mp accessed
          cases same
          rfl
      | store op offset =>
          obtain ⟨addr, val, rfl⟩ := List.length_eq_two.mp count
          obtain ⟨_, same⟩ := Option.ite_none_right_eq_some.mp accessed
          cases same
          rfl
      | _ =>
          obtain ⟨dest, src, len, rfl⟩ := List.length_eq_three.mp count
          obtain ⟨_, same⟩ := Option.ite_none_right_eq_some.mp accessed
          cases same
          rfl
  · obtain ⟨⟨_, same⟩, _⟩ := outcome
    cases same

/-- Executing the operator is its access on both machines. -/
structure ExecutesAsAccess (op : MemoryOperator) : Prop where
  stack : Stack.Lowers op.toDataOp fun instr =>
    ∀ {registry : Type} (host : ImportRegistry registry) (numerics : Numerics)
      (module : Module Stack.StackInstruction Stack.StackFrameLayout)
      (layout : Stack.StackFrameLayout) (base : Stack.StackCallerBaseData)
      (inst : Stack.StackInstance LinearMemory registry) (below operands : List Value),
      inst.frame.Valid → inst.frame.live = below ++ operands →
      operands.length = op.toDataOp.inputs →
      op.SegmentExists (inst.dataVals.map DataVal.segment) →
        ∃ outcome m',
          op.Outcome (inst.dataVals.map DataVal.segment) inst.memory operands outcome m' ∧
          Stack.execute host numerics module instr layout base inst =
            Stack.dataAnswer inst below m' outcome
  register : Register.Lowers op.toDataOp fun layout instr input output =>
    ∀ {registry : Type} (host : ImportRegistry registry) (numerics : Numerics)
      (module : Register.RegModule) (base : Register.RegCallerBaseData)
      (inst : Register.RegInstance LinearMemory registry),
      base.baseRegisterIndex + layout.width ≤ inst.frame.registers.length →
      op.SegmentExists (inst.dataVals.map DataVal.segment) →
        ∃ operands outcome m', inst.frame.slotValues base input = some operands ∧
          operands.length = op.toDataOp.inputs ∧
          op.Outcome (inst.dataVals.map DataVal.segment) inst.memory operands outcome m' ∧
          Register.execute host numerics module instr layout base inst =
            Register.dataAnswer inst (base.baseRegisterIndex + output) m' outcome
  /-- In a memory of at most 65536 pages every address of the address space is one that
  the bounds allow. -/
  addressable : ∀ store address count, store.size ≤ 2 ^ 32 → 0 < count →
    (Fits store address count ↔ store.InBounds address count)
  /-- A dropped segment is empty, and dropping it leaves the memory. -/
  dropped : ∀ {frame registry : Type} (inst inst' : Instance frame LinearMemory registry)
    (dataIndex : Nat), DataOp.dropData inst dataIndex = some inst' →
      (inst'.dataVals.map DataVal.segment)[dataIndex]? = some [] ∧
        inst'.memory = inst.memory

/-- A dropped segment is empty, and the others stay. -/
theorem dropData_eq
    {frame registry : Type} {inst inst' : Instance frame LinearMemory registry}
    {dataIndex : Nat}
    (dropped : DataOp.dropData inst dataIndex = some inst') :
    (inst'.dataVals.map DataVal.segment)[dataIndex]? = some [] ∧
      inst'.memory = inst.memory := by
  unfold DataOp.dropData at dropped
  obtain ⟨_, inside, same⟩ := Option.bind_eq_some_iff.mp dropped
  cases same
  have inside : dataIndex < inst.dataVals.length := by
    by_contra outside
    rw [guard, if_neg outside] at inside
    cases inside
  refine ⟨?_, rfl⟩
  rw [List.getElem?_map, List.getElem?_set_self inside]
  rfl

/-- The memory operators of both machines are accesses to an array of bytes. -/
theorem executes_as_access (op : MemoryOperator) : op.ExecutesAsAccess where
  stack := by
    apply Stack.lowers_of
    intro registry host numerics module layout base inst below operands valid onTop count
      segment
    have same : Stack.Lowering.narrowOffset op.toDataOp.dropMemory = op.toEffect := by
      cases op with
      | load op offset =>
          exact congrArg (DataOp.load op) (Nat.mod_eq_of_lt offset.isLt)
      | store op offset =>
          exact congrArg (DataOp.store op) (Nat.mod_eq_of_lt offset.isLt)
      | _ => rfl
    have inputs : operands.length = op.toEffect.inputs := by
      cases op <;> exact count
    obtain ⟨outcome, m', effects, meant⟩ := exists_effects op count segment
    refine ⟨outcome, m', meant, ?_⟩
    rw [same]
    apply Stack.execute_data valid onTop inputs effects
    rintro results rfl
    rw [length_of_outcome count meant, count]
    cases op <;> exact Nat.le_of_ble_eq_true rfl
  register := by
    apply Register.lowers_of
    intro layout lowered input output resolved count inside outputLe
      registry host numerics module base inst inFile segment
    obtain ⟨operands, read, sameCount⟩ := Register.exists_slotValues inFile inside
    have operandCount := sameCount.trans count
    obtain ⟨outcome, m', effects, meant⟩ := exists_effects op operandCount segment
    refine ⟨operands, outcome, m', read, operandCount, meant, ?_⟩
    have same : op.toDataOp.meaning = op.toEffect := by
      cases op with
      | load op offset =>
          exact congrArg (DataOp.load op) (Nat.mod_eq_of_lt offset.isLt)
      | store op offset =>
          exact congrArg (DataOp.store op) (Nat.mod_eq_of_lt offset.isLt)
      | _ => rfl
    rw [same] at resolved
    apply Register.execute_data resolved read effects
    rintro results rfl
    have length := length_of_outcome operandCount meant
    omega
  addressable := by
    intro store address count small positive
    constructor
    · exact fun fits => fits.2
    · intro inside
      have bound : address + count ≤ store.size := inside
      exact ⟨by omega, inside⟩
  dropped := fun _ _ _ dropped => dropData_eq dropped

open Instantiate in
/-- A memory of more than 65536 pages has bytes that no address reaches: a load of one
that its bounds allow traps. -/
theorem load_within_bounds_traps :
    ∃ c : hostlessMachine.Configuration,
      hostlessMachine.During (growing (growingBody 65537)) (fun _ => True) 0 [] 1
          (growingStart (growingBody 65537) emptyStack) c ∧
        c.inst.memory.store.InBounds ((Value.fromI32 (-1)).asOffset + 1) 1 ∧
        (Stack.execute emptyHost hostlessNumerics (growing (growingBody 65537))
          (.data (.load .i32Load8U 1)) (growingBody 65537).frameLayout ⟨0, 0⟩
          { c.inst with frame := ⟨[.fromI32 (-1)], 1⟩ }).1 =
            .fail (.memory (.effectiveAddressOverflow (2 ^ 32 - 1) 1)) := by
  obtain ⟨after, reached, length⟩ :=
    @growingRequest_granted (fun _ => True) 65537 (by decide) trivial trivial
  refine ⟨after, reached, ?_, ?_⟩
  · change 2 ^ 32 - 1 + 1 + 1 ≤ after.inst.memory.inner.length
    rw [length]
    decide
  · let pushed : Stack Value := ⟨[.fromI32 (-1)], 1⟩
    let inst : Stack.StackInstance LinearMemory Unit := { after.inst with frame := pushed }
    have effects : DataOp.Effects hostlessNumerics (growing (growingBody 65537)) inst
        (.load .i32Load8U 1) [.fromI32 (-1)]
        (loadOutcome .i32Load8U 1 (.fromI32 (-1)) inst.memory) inst.memory := fun _ => rfl
    rw [loadOutcome_of_le (by decide)] at effects
    have valid : inst.frame.Valid := Nat.le_refl _
    have onTop : inst.frame.live = [] ++ [.fromI32 (-1)] := rfl
    have executed := @Stack.execute_data _ _ _ emptyHost _ _
      (growingBody 65537).frameLayout ⟨0, 0⟩ _ _ _ _ _ _ valid onTop rfl effects nofun
    exact congrArg Prod.fst executed

end MemoryOperator

end TraceWasm
