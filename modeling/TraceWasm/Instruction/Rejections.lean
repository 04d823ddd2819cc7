import TraceWasm.Instruction.Block

/-!
# What a lowering rejects

A lowering reports the first operator that it does not know, among those that it reads.
-/

namespace TraceWasm

/-- A rejected operator is reported as not supported. -/
theorem Operator.unsupported_of_rejection
    {op : Operator} {reported : TraceWasmError}
    (rejected : op.rejection = some reported) :
    ∃ message, reported = .unsupported message := by
  cases op with
  | data op =>
      have meets := op.checkMemory_meets
      rw [DataOp.checkMemory_eq_fail rejected] at meets
      exact ⟨_, meets⟩
  | tryTable blockty debug =>
      cases rejected
      exact ⟨_, rfl⟩
  | other op =>
      cases rejected
      exact ⟨_, rfl⟩
  | _ => cases rejected

/-- The operators that a lowering reads are all known. -/
def AllKnown (ops : List Operator) (reads : Nat → Prop) : Prop :=
  ∀ position op, reads position → ops[position]? = some op → op.rejection = none

/-- The error is that of the first operator, among those that a lowering reads, that it
does not know. -/
def FirstRejected
    (ops : List Operator) (reads : Nat → Prop) (reported : TraceWasmError) : Prop :=
  ∃ position op, reads position ∧ ops[position]? = some op ∧
    op.rejection = some reported ∧ AllKnown (ops.take position) reads

/-- The body is rejected as one with an operator that is not supported. -/
def RejectsUnsupported {Body : Type} (outcome : Attempt TraceWasmError Body) : Prop :=
  ∃ message, outcome = .fail (.unsupported message)

/-- A lowering that does not panic, compiles a body only if it knows what it reads, and
otherwise reports the first operator that it does not know, or a limit. -/
structure RefusesUnknown {Body : Type}
    (ops : List Operator) (reads : Nat → Prop) (limit : TraceWasmError → Prop)
    (outcome : Attempt TraceWasmError Body) : Prop where
  noPanic : outcome ≠ .error .panic
  compiles : ∀ body, outcome = .ok body → AllKnown ops reads
  refuses : ∀ reported, outcome = .fail reported →
    limit reported ∨ FirstRejected ops reads reported

section Rejections

variable {ops : List Operator} {reads : Nat → Prop} {reported : TraceWasmError}

/-- What is known of a body is known of its beginning. -/
theorem AllKnown.take
    (known : AllKnown ops reads) (count : Nat) :
    AllKnown (ops.take count) reads := by
  intro position op isRead found
  rw [List.getElem?_take] at found
  split at found
  · exact known position op isRead found
  · cases found

/-- The operators known so far and the next one are known. -/
theorem AllKnown.succ
    {position : Nat} {op : Operator}
    (known : AllKnown (ops.take position) reads)
    (found : ops[position]? = some op)
    (here : reads position → op.rejection = none) :
    AllKnown (ops.take (position + 1)) reads := by
  intro earlier other isRead isOther
  rw [List.getElem?_take] at isOther
  split at isOther
  · rename_i before
    rcases Nat.lt_succ_iff_lt_or_eq.mp before with before | rfl
    · apply known earlier other isRead
      rw [List.getElem?_take, if_pos before]
      exact isOther
    · rw [found] at isOther
      cases isOther
      exact here isRead
  · cases isOther

/-- A body with a rejected operator is not known throughout. -/
theorem FirstRejected.not_allKnown
    (rejected : FirstRejected ops reads reported) :
    ¬AllKnown ops reads := by
  intro known
  obtain ⟨position, op, isRead, found, isRejected, _⟩ := rejected
  rw [known position op isRead found] at isRejected
  cases isRejected

/-- There is one first operator that is not known. -/
theorem FirstRejected.unique
    {other : TraceWasmError}
    (first : FirstRejected ops reads reported)
    (second : FirstRejected ops reads other) :
    reported = other := by
  obtain ⟨position, op, isRead, found, rejected, known⟩ := first
  obtain ⟨position', op', isRead', found', rejected', known'⟩ := second
  have notBefore {early late : Nat} {before : Operator} {error : TraceWasmError}
      (known : AllKnown (ops.take late) reads) (isRead : reads early)
      (found : ops[early]? = some before) (rejected : before.rejection = some error) :
      late ≤ early := by
    by_contra inside
    have isBefore : (ops.take late)[early]? = some before := by
      rw [List.getElem?_take, if_pos (by omega)]
      exact found
    rw [known early before isRead isBefore] at rejected
    cases rejected
  have same : position = position' :=
    Nat.le_antisymm (notBefore known isRead' found' rejected')
      (notBefore known' isRead found rejected)
  subst same
  rw [found] at found'
  cases found'
  rw [rejected] at rejected'
  cases rejected'
  rfl

/-- Reading more, a lowering knows less. -/
theorem AllKnown.mono
    {more : Nat → Prop}
    (known : AllKnown ops more)
    (implies : ∀ position, reads position → more position) :
    AllKnown ops reads :=
  fun position op isRead => known position op (implies position isRead)

/-- What is read in addition does not matter if it is known. -/
theorem firstRejected_congr
    {other more : Nat → Prop}
    (known : AllKnown ops other)
    (split : ∀ position, more position ↔ reads position ∨ other position) :
    FirstRejected ops more reported ↔ FirstRejected ops reads reported := by
  constructor
  · rintro ⟨position, op, isRead, found, rejected, before⟩
    rcases (split position).mp isRead with isRead | isOther
    · refine ⟨position, op, isRead, found, rejected, before.mono ?_⟩
      exact fun earlier isRead => (split earlier).mpr (.inl isRead)
    · rw [known position op isOther found] at rejected
      cases rejected
  · rintro ⟨position, op, isRead, found, rejected, before⟩
    refine ⟨position, op, (split position).mpr (.inl isRead), found, rejected, ?_⟩
    intro earlier between isRead isBetween
    rcases (split earlier).mp isRead with isRead | isOther
    · exact before earlier between isRead isBetween
    · exact known.take position earlier between isOther isBetween

namespace RefusesUnknown

variable {Body : Type} {limit : TraceWasmError → Prop} {outcome : Attempt TraceWasmError Body}

/-- A lowering that meets its rejections. -/
theorem of_meets
    (meets : outcome.Meets (fun reported => limit reported ∨ FirstRejected ops reads reported)
      fun _ => AllKnown ops reads) :
    RefusesUnknown ops reads limit outcome where
  noPanic := meets.ne_panic
  compiles body compiled := meets.of_ok compiled
  refuses reported failed := by
    rw [failed] at meets
    exact meets

/-- Unless it stops at a limit, a lowering reports what it does not know first. -/
theorem fail_iff
    (refuses : RefusesUnknown ops reads limit outcome)
    (unlimited : ∀ reported, limit reported → outcome ≠ .fail reported) :
    outcome = .fail reported ↔ FirstRejected ops reads reported := by
  constructor
  · intro failed
    exact (refuses.refuses reported failed).resolve_left
      fun limited => unlimited reported limited failed
  · intro rejected
    cases outcome with
    | ok body => exact (rejected.not_allKnown (refuses.compiles body rfl)).elim
    | error fault =>
        cases fault with
        | panic => exact (refuses.noPanic rfl).elim
        | error other =>
            have first := (refuses.refuses other rfl).resolve_left
              fun limited => unlimited other limited rfl
            rw [rejected.unique first]
            rfl

/-- Unless it stops at a limit, a lowering rejects exactly what it does not know. -/
theorem rejectsUnsupported_iff
    (refuses : RefusesUnknown ops reads limit outcome)
    (unlimited : ∀ reported, limit reported → outcome ≠ .fail reported) :
    RejectsUnsupported outcome ↔ ¬AllKnown ops reads := by
  constructor
  · rintro ⟨message, failed⟩
    exact ((refuses.fail_iff unlimited).mp failed).not_allKnown
  · intro unknown
    cases outcome with
    | ok body => exact (unknown (refuses.compiles body rfl)).elim
    | error fault =>
        cases fault with
        | panic => exact (refuses.noPanic rfl).elim
        | error other =>
            have first : FirstRejected ops reads other := (refuses.fail_iff unlimited).mp rfl
            obtain ⟨_, _, _, _, rejected, _⟩ := first
            obtain ⟨message, rfl⟩ := Operator.unsupported_of_rejection rejected
            exact ⟨message, rfl⟩

/-- Unless it stops at a limit, a lowering compiles exactly what it knows. -/
theorem compiles_iff
    (refuses : RefusesUnknown ops reads limit outcome)
    (unlimited : ∀ reported, limit reported → outcome ≠ .fail reported) :
    (∃ body, outcome = .ok body) ↔ AllKnown ops reads := by
  constructor
  · rintro ⟨body, compiled⟩
    exact refuses.compiles body compiled
  · intro known
    cases outcome with
    | ok body => exact ⟨body, rfl⟩
    | error fault =>
        cases fault with
        | panic => exact (refuses.noPanic rfl).elim
        | error other =>
            have first : FirstRejected ops reads other := (refuses.fail_iff unlimited).mp rfl
            exact (first.not_allKnown known).elim

end RefusesUnknown

end Rejections

end TraceWasm
