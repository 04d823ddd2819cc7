import TraceWasm.Register.Interner
import TraceWasm.Utils.Interner

/-!
# The constants of a body

The pool of a body's constants compares and hashes them by variant and bits, so that a
float is its pattern. The ids of a pool have sixteen bits.
-/

namespace TraceWasm
namespace Register

open Utils (Capacity InternsInOrder firsts idOf)

/-- A constant as the pool compares it. -/
structure PoolConst where
  inner : Const

namespace PoolConst

/-- `Const::eq`: the variants are the same, and so are the bits. -/
def beq (first second : PoolConst) : Bool :=
  match first.inner with
  | .i32 first =>
      match second.inner with
      | .i32 second => first.toNat == second.toNat
      | _ => false
  | .i64 first =>
      match second.inner with
      | .i64 second => first.toNat == second.toNat
      | _ => false
  | .f32 first =>
      match second.inner with
      | .f32 second => first == second
      | _ => false
  | .f64 first =>
      match second.inner with
      | .f64 second => first == second
      | _ => false
  | .ref first =>
      match second.inner with
      | .ref second => first == second
      | _ => false

/-- What `Const::hash` feeds to the hasher: the variant, then the bits. -/
def hashed (value : PoolConst) : List Nat :=
  match value.inner with
  | .i32 value => [0, value.toNat]
  | .i64 value => [1, value.toNat]
  | .f32 bits => [2, bits.toNat]
  | .f64 bits => [3, bits.toNat]
  | .ref none => [4, 0]
  | .ref (some func) => [4, 1, func]

instance : BEq PoolConst := ⟨beq⟩

instance : Hashable PoolConst := ⟨fun value => hash value.hashed⟩

/-- Two constants are the same exactly if variant and bits are. -/
theorem beq_iff (first second : PoolConst) :
    (first == second) = true ↔ first.inner = second.inner := by
  change beq first second = true ↔ _
  obtain ⟨first⟩ := first
  obtain ⟨second⟩ := second
  cases first <;> cases second <;> simp [beq, BitVec.toNat_inj]

instance : EquivBEq PoolConst where
  rfl := (beq_iff _ _).mpr rfl
  symm same := (beq_iff _ _).mpr ((beq_iff _ _).mp same).symm
  trans first second :=
    (beq_iff _ _).mpr (((beq_iff _ _).mp first).trans ((beq_iff _ _).mp second))

/-- What is equal hashes alike. -/
instance : LawfulHashable PoolConst where
  hash_eq first second same := by
    have inner := (beq_iff first second).mp same
    change hash first.hashed = hash second.hashed
    unfold hashed
    rw [inner]

end PoolConst

/-! ## The pools of a lowering -/

/-- A lowering's pool of values is an interner with sixteen-bit ids, seen as its
vector. -/
theorem Interner.tryIntern_refines
    {α : Type} [DecidableEq α] [Hashable α]
    {interner : Interner α} {pool : Utils.Interner α} {vals : List α}
    (holds : pool.Holds .u16 (firsts vals))
    (same : interner.values = pool.values) (value : α) :
    match interner.tryIntern value with
    | .ok (id, after) =>
        (pool.tryIntern .u16 value).1 = .ok id ∧
          (pool.tryIntern .u16 value).2.values = after.values
    | .error _ =>
        pool.tryIntern .u16 value =
          (.fail (.toManyUniqueValues (u16Max + 1) u16Max), pool) ∧
        interner.tryIntern value = .fail (.tooManyUniqueValues (u16Max + 1) u16Max) := by
  have lookup : interner.values.idxOf? value = pool.reverseMap[value]? := by
    rw [same, holds.map]
    rfl
  have bound : pool.values.length ≤ u16Max := by
    rw [holds.values, List.length_take]
    exact Nat.min_le_left _ _
  unfold tryIntern
  rw [lookup]
  cases found : pool.reverseMap[value]? with
  | some id =>
      rw [Utils.Interner.tryIntern_of_some found]
      exact ⟨rfl, same.symm⟩
  | none =>
      dsimp only
      by_cases full : interner.values.length ≥ u16Max
      · have len : pool.values.length = u16Max := by
          rw [same] at full
          omega
        have isFull : Capacity.u16.val ≤ pool.values.length := le_of_eq len.symm
        rw [if_pos full, Utils.Interner.tryIntern_of_full found isFull]
        unfold Utils.Interner.needed
        rw [same, len]
        exact ⟨rfl, rfl⟩
      · have room : pool.values.length < Capacity.u16.val := by
          rw [same] at full
          exact Nat.not_le.mp full
        rw [if_neg full, Utils.Interner.tryIntern_of_room found room,
          asU16_of_le (by rw [same]; exact bound), same]
        exact ⟨rfl, rfl⟩

/-! ## Interning in order -/

/-- Interning is in order, but for the report of a full 32-bit or 64-bit pool; of the
sixteen-bit pool of constants, which are equal if variant and bits are, always. -/
theorem interns_in_order_iff
    {α : Type} [BEq α] [Hashable α] [EquivBEq α] [LawfulHashable α]
    (capacity : Capacity) (vals : List α) (consts : List PoolConst) :
    (InternsInOrder capacity vals ↔
      capacity = .u16 ∨ (firsts vals).length ≤ capacity.val) ∧
    InternsInOrder .u16 consts ∧
    ∀ first second : PoolConst, (first == second) = true ↔ first.inner = second.inner :=
  ⟨Utils.internsInOrder_iff capacity vals, (Utils.internsInOrder_iff .u16 consts).mpr (.inl rfl),
    PoolConst.beq_iff⟩

/-- Two zeros of different sign, the first one twice. -/
theorem interns_in_order_zeros :
    (InternsInOrder .u32 [PoolConst.mk (.f32 0), ⟨.f32 0x80000000⟩, ⟨.f32 0⟩] ↔
      Capacity.u32 = .u16 ∨
        (firsts [PoolConst.mk (.f32 0), ⟨.f32 0x80000000⟩, ⟨.f32 0⟩]).length ≤
          Capacity.u32.val) ∧
    InternsInOrder .u16 [PoolConst.mk (.f64 0)] ∧
    ∀ first second : PoolConst, (first == second) = true ↔ first.inner = second.inner :=
  interns_in_order_iff .u32 _ _

theorem firsts_of_nodup
    {α : Type} [BEq α] [LawfulBEq α]
    {vals : List α}
    (distinct : vals.Nodup) :
    firsts vals = vals := by
  induction vals using List.reverseRecOn with
  | nil => rfl
  | append_singleton vals val inductionHypothesis =>
      obtain ⟨front, _, apart⟩ := List.nodup_append.mp distinct
      have fresh : vals.any (· == val) = false := by
        rw [List.any_eq_false]
        intro other member same
        exact apart other member val List.mem_cons_self (beq_iff_eq.mp same)
      rw [Utils.firsts_concat, inductionHypothesis front, fresh]
      rfl

/-- The pool has handed out all of the 32-bit ids. The next new value is not refused with
an error: the call panics. -/
theorem interns_out_of_order :
    ((Utils.Interner.new : Utils.Interner Nat).tryInternAll .u32
        (List.range (2 ^ 32 - 1))).tryIntern .u32 (2 ^ 32 - 1) =
      (Attempt.panicked,
        (Utils.Interner.new : Utils.Interner Nat).tryInternAll .u32
          (List.range (2 ^ 32 - 1))) ∧
    ¬InternsInOrder .u32 (List.range (2 ^ 32)) := by
  constructor
  · apply Utils.tryIntern_panics_of_full
    · decide
    · rw [firsts_of_nodup List.nodup_range, List.length_range]
      rfl
    · rw [firsts_of_nodup List.nodup_range, Utils.idOf_eq_none, List.any_eq_false]
      intro value member same
      exact (List.mem_range.mp member).ne (beq_iff_eq.mp same)
  · rw [Utils.internsInOrder_iff, firsts_of_nodup List.nodup_range, List.length_range]
    simp [Capacity.val]

end Register
end TraceWasm
