import Mathlib.Data.List.Induction
import Mathlib.Tactic.Linarith
import TraceWasm.Foundation.Fault

/-!
# Interning

A value is interned under an id, which is its position in a vector of the distinct
values; a map leads back from the value to the id. The values come with their own
equality and hash, which have to agree.
-/

namespace TraceWasm
namespace Utils

/-- The width of an id. -/
inductive Capacity where
  | u16
  | u32
  | u64
  deriving DecidableEq

namespace Capacity

/-- How many ids are handed out. -/
def val : Capacity → Nat
  | .u16 => 2 ^ 16 - 1
  | .u32 => 2 ^ 32 - 1
  | .u64 => 2 ^ 64 - 1

/-- The number as the capacity's integer type holds it. -/
def fromUsize (capacity : Capacity) (val : Nat) : Nat := val % (capacity.val + 1)

end Capacity

/-- The pool is full. -/
inductive TracewasmUtilsError where
  | toManyUniqueValues (needed limit : Nat)
  deriving DecidableEq

variable {α : Type} [BEq α] [Hashable α]

/-- The interned values, and the id of each. -/
structure Interner (α : Type) [BEq α] [Hashable α] where
  values : List α
  reverseMap : Std.HashMap α Nat

namespace Interner

/-- Nothing has been interned. -/
def new : Interner α where
  values := []
  reverseMap := ∅

/-- The number of values that the pool would have to hold, as a 32-bit word. -/
def needed (interner : Interner α) : Attempt TracewasmUtilsError Nat :=
  let len := interner.values.length % 2 ^ 32
  if len + 1 < 2 ^ 32 then .ok (len + 1) else Attempt.panicked

/-- Intern a value, which leaves the interner changed or not. -/
def tryIntern (capacity : Capacity) (interner : Interner α) (val : α) :
    Attempt TracewasmUtilsError Nat × Interner α :=
  -- the lookup comes first, so that a repeat still succeeds once the pool is full
  match interner.reverseMap[val]? with
  | some id => (.ok id, interner)
  | none =>
      if interner.values.length ≥ capacity.val then
        (do .fail (.toManyUniqueValues (← interner.needed) capacity.val), interner)
      else
        let id := capacity.fromUsize interner.values.length
        (.ok id, ⟨interner.values ++ [val], interner.reverseMap.insert val id⟩)

/-- The value that an id names. -/
def value (interner : Interner α) (id : Nat) : Option α := interner.values[id]?

/-- Intern one value after the other. -/
def tryInternAll (capacity : Capacity) (interner : Interner α) (vals : List α) : Interner α :=
  vals.foldl (fun interner val => (interner.tryIntern capacity val).2) interner

end Interner

/-- The distinct values, in the order in which each of them comes first. -/
def firsts (vals : List α) : List α :=
  vals.foldl (fun seen val => if seen.any (· == val) then seen else seen ++ [val]) []

/-- The id of a value among distinct ones, if it is one of them. -/
def idOf (distinct : List α) (val : α) : Option Nat := distinct.findIdx? (· == val)

/-- What interning a sequence of values comes to: each of the first so many distinct
ones has its place among them for an id, whenever it is asked for, and a value past
them is refused with an error that is reported, and changes nothing. -/
structure InternsInOrder (capacity : Capacity) (vals : List α) : Prop where
  table : ((Interner.new : Interner α).tryInternAll capacity vals).values =
    (firsts vals).take capacity.val
  map : ∀ val, ((Interner.new : Interner α).tryInternAll capacity vals).reverseMap[val]? =
    idOf ((firsts vals).take capacity.val) val
  outcome : ∀ front val back, vals = front ++ val :: back →
    match idOf ((firsts vals).take capacity.val) val with
    | some id =>
        ((Interner.new : Interner α).tryInternAll capacity front).tryIntern capacity val =
          (.ok id, (Interner.new : Interner α).tryInternAll capacity (front ++ [val]))
    | none => ∃ reported,
        ((Interner.new : Interner α).tryInternAll capacity front).tryIntern capacity val =
          (.fail reported, (Interner.new : Interner α).tryInternAll capacity front)

/-! ## Distinct values -/

section Firsts

omit [Hashable α] in

/-- One more value is appended to the distinct ones unless it is among them. -/
theorem firsts_concat (vals : List α) (val : α) :
    firsts (vals ++ [val]) =
      if (firsts vals).any (· == val) then firsts vals else firsts vals ++ [val] := by
  unfold firsts
  rw [List.foldl_append]
  rfl

omit [Hashable α] in

/-- The distinct values of a longer list extend those of the shorter. -/
theorem firsts_prefix_concat (vals : List α) (val : α) :
    firsts vals <+: firsts (vals ++ [val]) := by
  rw [firsts_concat]
  split
  · exact List.prefix_refl _
  · exact List.prefix_append _ _

omit [Hashable α] in
theorem firsts_prefix (front back : List α) : firsts front <+: firsts (front ++ back) := by
  induction back using List.reverseRecOn with
  | nil => simp
  | append_singleton back val inductionHypothesis =>
      rw [← List.append_assoc]
      exact inductionHypothesis.trans (firsts_prefix_concat _ _)

omit [Hashable α] in

/-- A value without an id is not among the values. -/
theorem idOf_eq_none {distinct : List α} {val : α} :
    idOf distinct val = none ↔ distinct.any (· == val) = false := by
  simp [idOf]

omit [Hashable α] in
/-- A value that has an id keeps it. -/
theorem idOf_of_prefix
    {distinct longer : List α} {val : α} {id : Nat}
    (isPrefix : distinct <+: longer)
    (found : idOf distinct val = some id) :
    idOf longer val = some id := by
  obtain ⟨rest, rfl⟩ := isPrefix
  unfold idOf at found ⊢
  rw [List.findIdx?_append, found]
  rfl

end Firsts

/-! ## The two tables -/

section Tables

variable [EquivBEq α] [LawfulHashable α]

/-- The vector holds the first so many of the distinct values, and the map inverts
it. -/
structure Interner.Holds (capacity : Capacity) (interner : Interner α) (distinct : List α) :
    Prop where
  values : interner.values = distinct.take capacity.val
  map : ∀ val, interner.reverseMap[val]? = idOf interner.values val

omit [EquivBEq α] [LawfulHashable α] in
theorem Interner.holds_new (capacity : Capacity) :
    (Interner.new : Interner α).Holds capacity [] where
  values := List.take_nil.symm
  map := fun _ => Std.HashMap.getElem?_empty

omit [EquivBEq α] [LawfulHashable α] in
/-- A value that is there keeps its id, and nothing changes. -/
theorem Interner.tryIntern_of_some
    {capacity : Capacity} {interner : Interner α} {val : α} {id : Nat}
    (found : interner.reverseMap[val]? = some id) :
    interner.tryIntern capacity val = (.ok id, interner) := by
  unfold tryIntern
  rw [found]

omit [EquivBEq α] [LawfulHashable α] in
/-- A value that is not there is refused when the pool is full. -/
theorem Interner.tryIntern_of_full
    {capacity : Capacity} {interner : Interner α} {val : α}
    (notFound : interner.reverseMap[val]? = none)
    (full : capacity.val ≤ interner.values.length) :
    interner.tryIntern capacity val =
      (do .fail (.toManyUniqueValues (← interner.needed) capacity.val), interner) := by
  unfold tryIntern
  rw [notFound]
  exact if_pos full

omit [EquivBEq α] [LawfulHashable α] in
/-- A value that is not there takes the next id. -/
theorem Interner.tryIntern_of_room
    {capacity : Capacity} {interner : Interner α} {val : α}
    (notFound : interner.reverseMap[val]? = none)
    (room : interner.values.length < capacity.val) :
    interner.tryIntern capacity val = (.ok interner.values.length,
      ⟨interner.values ++ [val],
        interner.reverseMap.insert val interner.values.length⟩) := by
  have id : capacity.fromUsize interner.values.length = interner.values.length :=
    Nat.mod_eq_of_lt (by omega)
  unfold tryIntern
  rw [notFound]
  dsimp only
  rw [if_neg (by omega), id]

/-- Interning one more value. -/
theorem Interner.Holds.tryIntern
    {capacity : Capacity} {interner : Interner α} {vals : List α}
    (holds : interner.Holds capacity (firsts vals)) (val : α) :
    (interner.tryIntern capacity val).2.Holds capacity (firsts (vals ++ [val])) := by
  cases found : interner.reverseMap[val]? with
  | some id =>
      -- equal to a value that is held, and hence to one of the distinct values
      rw [tryIntern_of_some found]
      rw [holds.map, holds.values] at found
      have known : idOf (firsts vals) val = some id :=
        idOf_of_prefix (List.take_prefix _ _) found
      have any : (firsts vals).any (· == val) = true := by
        rw [← Bool.not_eq_false, ← idOf_eq_none, known]
        simp
      rw [firsts_concat, if_pos any]
      exact holds
  | none =>
      by_cases full : capacity.val ≤ interner.values.length
      · rw [tryIntern_of_full found full]
        have length := holds.values ▸ full
        rw [List.length_take] at length
        -- what comes behind the capacity is dropped either way
        have same : (firsts (vals ++ [val])).take capacity.val =
            (firsts vals).take capacity.val := by
          obtain ⟨rest, isFirsts⟩ := firsts_prefix_concat vals val
          rw [← isFirsts, List.take_append_of_le_length (by omega)]
        exact ⟨holds.values.trans same.symm, holds.map⟩
      · have room : interner.values.length < capacity.val := by omega
        rw [tryIntern_of_room found room]
        have short : (firsts vals).length < capacity.val := by
          have length := congrArg List.length holds.values
          rw [List.length_take] at length
          omega
        have whole : interner.values = firsts vals := by
          rw [holds.values, List.take_of_length_le (by omega)]
        have fresh : (firsts vals).any (· == val) = false := by
          rw [← idOf_eq_none, ← whole, ← holds.map]
          exact found
        constructor
        · rw [firsts_concat, fresh, if_neg Bool.false_ne_true, whole, List.take_of_length_le]
          rw [List.length_append, List.length_singleton]
          omega
        · intro other
          change (interner.reverseMap.insert val interner.values.length)[other]? =
            idOf (interner.values ++ [val]) other
          rw [Std.HashMap.getElem?_insert, holds.map]
          unfold idOf
          rw [List.findIdx?_append]
          by_cases same : (val == other) = true
          · have notThere : interner.values.findIdx? (· == other) = none := by
              rw [List.findIdx?_eq_none_iff]
              intro held member
              by_contra isOther
              have isVal : (held == val) = true :=
                BEq.trans (by simpa using isOther) (BEq.symm same)
              have all := List.any_eq_false.mp fresh held (whole ▸ member)
              exact all isVal
            simp [same, notThere]
          · simp [same]

/-- The tables after a whole sequence. -/
theorem Interner.holds_tryInternAll (capacity : Capacity) (vals : List α) :
    ((Interner.new : Interner α).tryInternAll capacity vals).Holds capacity (firsts vals) := by
  induction vals using List.reverseRecOn with
  | nil => exact holds_new capacity
  | append_singleton vals val inductionHypothesis =>
      have step := inductionHypothesis.tryIntern val
      unfold tryInternAll
      rw [List.foldl_append]
      exact step

/-! ## What each request comes to -/

omit [EquivBEq α] [LawfulHashable α] in

/-- Interning one more value interns it behind the others. -/
theorem Interner.tryInternAll_concat
    (capacity : Capacity) (interner : Interner α) (vals : List α) (val : α) :
    interner.tryInternAll capacity (vals ++ [val]) =
      ((interner.tryInternAll capacity vals).tryIntern capacity val).2 := by
  unfold tryInternAll
  rw [List.foldl_append]
  rfl

omit [BEq α] [Hashable α] [EquivBEq α] [LawfulHashable α] in
theorem take_prefix_take
    {list longer : List α} (isPrefix : list <+: longer) (count : Nat) :
    list.take count <+: longer.take count := by
  obtain ⟨rest, rfl⟩ := isPrefix
  rw [List.take_append]
  exact List.prefix_append _ _

/-- A request either has its id among the distinct values of the whole sequence, or it
finds the pool full. -/
theorem outcome_cases (capacity : Capacity) (front : List α) (val : α) (back : List α) :
    (∃ id, idOf ((firsts (front ++ val :: back)).take capacity.val) val = some id ∧
      ((Interner.new : Interner α).tryInternAll capacity front).tryIntern capacity val =
        (.ok id, (Interner.new : Interner α).tryInternAll capacity (front ++ [val]))) ∨
    (idOf ((firsts (front ++ val :: back)).take capacity.val) val = none ∧
      capacity.val ≤ (firsts front).length ∧
      ((Interner.new : Interner α).tryInternAll capacity front).tryIntern capacity val =
        (do .fail (.toManyUniqueValues
            (← ((Interner.new : Interner α).tryInternAll capacity front).needed) capacity.val),
          (Interner.new : Interner α).tryInternAll capacity front)) := by
  have holds := Interner.holds_tryInternAll (α := α) capacity front
  have after := Interner.tryInternAll_concat capacity (Interner.new : Interner α) front val
  have longer : firsts (front ++ [val]) <+: firsts (front ++ val :: back) := by
    have isPrefix := firsts_prefix (front ++ [val]) back
    rwa [List.append_assoc] at isPrefix
  cases found : ((Interner.new : Interner α).tryInternAll capacity front).reverseMap[val]? with
  | some id =>
      have isOutcome := @Interner.tryIntern_of_some _ _ _ capacity _ _ _ found
      rw [holds.map, holds.values] at found
      have known := idOf_of_prefix
        (take_prefix_take ((firsts_prefix_concat front val).trans longer) capacity.val) found
      refine .inl ⟨id, known, ?_⟩
      rw [after, isOutcome]
  | none =>
      by_cases full : capacity.val ≤
          ((Interner.new : Interner α).tryInternAll capacity front).values.length
      · have isOutcome := Interner.tryIntern_of_full found full
        rw [holds.map, holds.values] at found
        rw [holds.values, List.length_take] at full
        obtain ⟨rest, isFirsts⟩ := (firsts_prefix_concat front val).trans longer
        refine .inr ⟨?_, by omega, isOutcome⟩
        rw [← isFirsts, List.take_append_of_le_length (by omega)]
        exact found
      · have room : ((Interner.new : Interner α).tryInternAll capacity front).values.length <
            capacity.val := by omega
        have isOutcome := Interner.tryIntern_of_room found room
        have next := holds.tryIntern val
        rw [isOutcome] at next
        -- the new value is found at the end of the vector
        have known : idOf ((firsts (front ++ [val])).take capacity.val) val =
            some ((Interner.new : Interner α).tryInternAll capacity front).values.length := by
          rw [← next.values, ← next.map]
          exact Std.HashMap.getElem?_insert_self
        refine .inl ⟨_, idOf_of_prefix (take_prefix_take longer capacity.val) known, ?_⟩
        rw [after, isOutcome]

omit [Hashable α] [LawfulHashable α] in
/-- A value that is asked for is one of the distinct ones. -/
theorem idOf_firsts_ne_none (front : List α) (val : α) (back : List α) :
    idOf (firsts (front ++ val :: back)) val ≠ none := by
  have isPrefix := firsts_prefix (front ++ [val]) back
  rw [List.append_assoc] at isPrefix
  have known : idOf (firsts (front ++ [val])) val ≠ none := by
    rw [ne_eq, idOf_eq_none, Bool.not_eq_false, firsts_concat]
    split
    · assumption
    · simp
  obtain ⟨id, found⟩ := Option.ne_none_iff_exists'.mp known
  have kept : idOf (firsts (front ++ val :: back)) val = some id :=
    idOf_of_prefix isPrefix found
  rw [kept]
  exact Option.some_ne_none id

omit [Hashable α] [EquivBEq α] [LawfulHashable α] in
/-- Where there are more distinct values than ids, a request brings the first one too
many. -/
theorem exists_of_overfull
    {count : Nat} {vals : List α}
    (overfull : count < (firsts vals).length) :
    ∃ front val back, vals = front ++ val :: back ∧ (firsts front).length = count ∧
      idOf (firsts front) val = none := by
  induction vals using List.reverseRecOn with
  | nil => cases overfull
  | append_singleton vals val inductionHypothesis =>
      by_cases already : count < (firsts vals).length
      · obtain ⟨front, other, back, rfl, length, fresh⟩ := inductionHypothesis already
        exact ⟨front, other, back ++ [val], by simp, length, fresh⟩
      · rw [firsts_concat] at overfull
        cases any : (firsts vals).any (· == val) with
        | true =>
            rw [any, if_pos rfl] at overfull
            exact (already overfull).elim
        | false =>
            rw [any, if_neg Bool.false_ne_true, List.length_append, List.length_singleton]
              at overfull
            exact ⟨vals, val, [], rfl, by omega, idOf_eq_none.mpr any⟩

/-- A new value at a full 32-bit or 64-bit pool is not reported: the count overflows. -/
theorem tryIntern_panics_of_full
    {capacity : Capacity} {front : List α} {val : α}
    (wide : capacity ≠ .u16)
    (length : (firsts front).length = capacity.val)
    (fresh : idOf (firsts front) val = none) :
    ((Interner.new : Interner α).tryInternAll capacity front).tryIntern capacity val =
      (Attempt.panicked, (Interner.new : Interner α).tryInternAll capacity front) := by
  have holds := Interner.holds_tryInternAll (α := α) capacity front
  have values : ((Interner.new : Interner α).tryInternAll capacity front).values =
      firsts front := by
    rw [holds.values, List.take_of_length_le length.le]
  have notFound : ((Interner.new : Interner α).tryInternAll capacity front).reverseMap[val]? =
      none := by
    rw [holds.map, values]
    exact fresh
  have len := congrArg List.length values
  rw [length] at len
  have panics : ((Interner.new : Interner α).tryInternAll capacity front).needed =
      Attempt.panicked := by
    unfold Interner.needed
    rw [len]
    cases capacity with
    | u16 => exact (wide rfl).elim
    | u32 => rfl
    | u64 => rfl
  rw [Interner.tryIntern_of_full notFound len.ge, panics]
  rfl

/-- Everything goes as it should but for a new value at a 32-bit or 64-bit pool that is
full: the count in the report is one more than a 32-bit word. -/
theorem internsInOrder_iff (capacity : Capacity) (vals : List α) :
    InternsInOrder capacity vals ↔
      capacity = .u16 ∨ (firsts vals).length ≤ capacity.val := by
  have holds := Interner.holds_tryInternAll (α := α) capacity vals
  constructor
  · intro inOrder
    by_contra neither
    obtain ⟨wide, overfull⟩ := not_or.mp neither
    obtain ⟨front, val, back, rfl, length, fresh⟩ := exists_of_overfull (not_le.mp overfull)
    have outcome := inOrder.outcome front val back rfl
    -- the pool holds what came before, of which the value is none
    obtain ⟨rest, isFirsts⟩ := firsts_prefix front (val :: back)
    have unknown : idOf ((firsts (front ++ val :: back)).take capacity.val) val = none := by
      rw [← isFirsts, List.take_append_of_le_length (by omega),
        List.take_of_length_le (by omega), fresh]
    rw [unknown] at outcome
    obtain ⟨reported, refused⟩ := outcome
    rw [tryIntern_panics_of_full wide length fresh] at refused
    have different := congrArg Prod.fst refused
    cases different
  · intro condition
    refine ⟨holds.values, fun val => ?_, ?_⟩
    · rw [holds.map, holds.values]
    · rintro front val back rfl
      rcases outcome_cases capacity front val back with ⟨id, known, taken⟩ | ⟨none, full, refused⟩
      · rw [known]
        exact taken
      · rw [none, refused]
        rcases condition with rfl | fits
        · have len : ((Interner.new : Interner α).tryInternAll .u16 front).values.length =
              Capacity.u16.val := by
            rw [(Interner.holds_tryInternAll .u16 front).values, List.length_take]
            omega
          unfold Interner.needed
          rw [len]
          exact ⟨_, rfl⟩
        · rw [List.take_of_length_le fits] at none
          exact (idOf_firsts_ne_none front val back none).elim

end Tables

end Utils
end TraceWasm
