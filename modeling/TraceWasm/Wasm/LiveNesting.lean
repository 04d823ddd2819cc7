import TraceWasm.Wasm.Nesting

/-!
# The constructs that were opened live

Dead code opens constructs and closes them again, on top of those that were opened
live. A pass that skips dead code only ever sees the latter.
-/

namespace TraceWasm

open Nesting (openAt openAt_succ)

/-- The open constructs that were opened live. -/
def liveNesting (ops : List Operator) (position : Nat) : List Construct :=
  (openAt ops position).drop ((Liveness.after (ops.take position)).openedDead.count true)

namespace Liveness

/-- Constructs that were opened dead lie above those that were opened live. -/
def DeadOnTop (l : Liveness) : Prop :=
  ∃ above below, l.openedDead = List.replicate above true ++ List.replicate below false ∧
    (above ≠ 0 → l.dead = true)

theorem step_of_opens
    (l : Liveness)
    (opens : op.opens = true) :
    l.step op = { l with openedDead := l.dead :: l.openedDead } := by
  cases op <;> simp_all [step, Operator.opens]

theorem step_of_plain
    (l : Liveness)
    (opens : op.opens = false)
    (notElse : op ≠ .elseOp) (notEnd : op ≠ .endOp) :
    l.step op = { l with dead := l.dead || op.diverges } := by
  cases op <;> simp_all [step, Operator.opens]

theorem deadAt_of_plain
    (l : Liveness)
    (notElse : op ≠ .elseOp) (notEnd : op ≠ .endOp) :
    l.deadAt op = l.dead := by
  cases op <;> simp_all [deadAt]

/-- Each operator keeps the order. -/
theorem DeadOnTop.step
    {l : Liveness}
    (onTop : l.DeadOnTop) (op : Operator) :
    (l.step op).DeadOnTop := by
  obtain ⟨above, below, opened, dead⟩ := onTop
  by_cases isElse : op = .elseOp
  · subst isElse
    refine ⟨above, below, opened, fun some => ?_⟩
    change l.openedDead.headD true = true
    obtain ⟨above, rfl⟩ := Nat.exists_eq_succ_of_ne_zero some
    rw [opened]
    rfl
  by_cases isEnd : op = .endOp
  · subst isEnd
    change DeadOnTop ⟨l.openedDead.headD true, l.openedDead.tail⟩
    rw [opened]
    cases above with
    | zero => exact ⟨0, below - 1, by simp, fun some => (some rfl).elim⟩
    | succ above => exact ⟨above, below, rfl, fun _ => rfl⟩
  cases opens : op.opens with
  | true =>
      rw [step_of_opens l opens]
      cases isDead : l.dead with
      | true => exact ⟨above + 1, below, by simp [opened, List.replicate_succ], fun _ => rfl⟩
      | false =>
          have none : above = 0 := by
            by_contra some
            simp [dead some] at isDead
          exact ⟨0, below + 1, by simp [opened, none, List.replicate_succ],
            fun some => (some rfl).elim⟩
  | false =>
      rw [step_of_plain l opens isElse isEnd]
      exact ⟨above, below, opened, fun some => by simp [dead some]⟩

/-- Dead code opens its constructs on top. -/
theorem deadOnTop_after (ops : List Operator) (position : Nat) :
    (after (ops.take position)).DeadOnTop := by
  induction position with
  | zero => exact ⟨0, 1, rfl, fun some => (some rfl).elim⟩
  | succ position inductionHypothesis =>
      cases found : ops[position]? with
      | none =>
          rw [List.take_add_one, found, Option.toList_none, List.append_nil]
          exact inductionHypothesis
      | some op =>
          rw [after_succ found]
          exact inductionHypothesis.step op

/-- As many constructs are open as are counted. -/
theorem length_openedDead (ops : List Operator) (position : Nat) :
    (after (ops.take position)).openedDead.length = (openAt ops position).length := by
  induction position with
  | zero => rfl
  | succ position inductionHypothesis =>
      cases found : ops[position]? with
      | none =>
          rw [List.take_add_one, found, Option.toList_none, List.append_nil]
          simpa [openAt, found] using inductionHypothesis
      | some op =>
          rw [after_succ found, openAt_succ found]
          by_cases isElse : op = .elseOp
          · subst isElse
            exact inductionHypothesis.trans List.length_modifyHead.symm
          by_cases isEnd : op = .endOp
          · subst isEnd
            change (List.tail _).length = (List.tail _).length
            rw [List.length_tail, List.length_tail, inductionHypothesis]
          cases opens : op.opens with
          | true =>
              rw [step_of_opens _ opens, Nesting.step_of_opens opens]
              exact congrArg (· + 1) inductionHypothesis
          | false =>
              rw [step_of_plain _ opens isElse isEnd, Nesting.step_of_plain opens isElse isEnd]
              exact inductionHypothesis

/-- The function itself is opened live. -/
theorem function_opened_live
    {ops : List Operator} (wellNested : Nesting.WellNested ops)
    (position : Nat) (inside : position ≤ ops.length)
    (isOpen : (after (ops.take position)).openedDead ≠ []) :
    (after (ops.take position)).openedDead.getLast? = some false := by
  induction position with
  | zero => rfl
  | succ position inductionHypothesis =>
      have found := List.getElem?_eq_getElem (show position < ops.length from inside)
      have wasOpen : (after (ops.take position)).openedDead ≠ [] := by
        have enclosed := wellNested.enclosed position inside
        rw [← List.length_pos_iff, length_openedDead]
        exact List.length_pos_iff.mpr enclosed
      have wasLive := inductionHypothesis (by omega) wasOpen
      rw [after_succ found] at isOpen ⊢
      by_cases isElse : ops[position] = .elseOp
      · rw [isElse]
        exact wasLive
      by_cases isEnd : ops[position] = .endOp
      · rw [isEnd] at isOpen ⊢
        change (after (ops.take position)).openedDead.tail ≠ [] at isOpen
        change (after (ops.take position)).openedDead.tail.getLast? = some false
        rw [List.getLast?_tail, if_neg]
        · exact wasLive
        · intro single
          apply isOpen
          rw [← List.length_eq_zero_iff, List.length_tail]
          omega
      cases opens : ops[position].opens with
      | true =>
          rw [step_of_opens _ opens, List.getLast?_cons, wasLive]
          rfl
      | false =>
          rw [step_of_plain _ opens isElse isEnd]
          exact wasLive

end Liveness

/-! ## What a pass over the live code sees -/

section LiveNesting

variable {ops : List Operator} {position : Nat} {op : Operator}

/-- At a live operator every open construct was opened live. -/
theorem liveNesting_of_live
    (found : ops[position]? = some op) (live : ¬DeadAt ops position) :
    liveNesting ops position = openAt ops position ∧
      liveNesting ops (position + 1) = openAt ops (position + 1) := by
  have isLive : (Liveness.after (ops.take position)).deadAt op = false := by
    rw [← Bool.not_eq_true]
    exact fun dead => live ⟨op, found, dead⟩
  obtain ⟨above, below, opened, dead⟩ := Liveness.deadOnTop_after ops position
  have none : above = 0 := by
    by_contra some
    obtain ⟨above, rfl⟩ := Nat.exists_eq_succ_of_ne_zero some
    have head : (Liveness.after (ops.take position)).openedDead.headD true = true := by
      rw [opened]
      rfl
    cases op <;> simp_all [Liveness.deadAt]
  subst none
  unfold liveNesting
  rw [Liveness.after_succ found]
  have noneDead : (Liveness.after (ops.take position)).openedDead.count true = 0 := by
    simp [opened, List.count_replicate]
  have noneDeadNext :
      ((Liveness.after (ops.take position)).step op).openedDead.count true = 0 := by
    by_cases isEnd : op = .endOp
    · subst isEnd
      change (Liveness.after (ops.take position)).openedDead.tail.count true = 0
      simp [opened, List.count_replicate]
    by_cases isElse : op = .elseOp
    · subst isElse
      exact noneDead
    cases opens : op.opens with
    | true =>
        rw [Liveness.deadAt_of_plain _ isElse isEnd] at isLive
        rw [Liveness.step_of_opens _ opens, isLive]
        simpa using noneDead
    | false =>
        rw [Liveness.step_of_plain _ opens isElse isEnd]
        exact noneDead
  rw [noneDead, noneDeadNext, List.drop_zero, List.drop_zero]
  exact ⟨rfl, rfl⟩

/-- A dead operator changes nothing below what dead code has opened. -/
theorem liveNesting_of_dead (dead : DeadAt ops position) :
    liveNesting ops (position + 1) = liveNesting ops position := by
  obtain ⟨op, found, isDead⟩ := dead
  have length := Liveness.length_openedDead ops position
  -- the `else` or `end` of a construct that was opened dead
  have onTop : (Liveness.after (ops.take position)).openedDead.headD true = true →
      openAt ops position = [] ∨ ∃ rest,
        (Liveness.after (ops.take position)).openedDead = true :: rest := by
    intro head
    cases isOpened : (Liveness.after (ops.take position)).openedDead with
    | nil =>
        rw [isOpened] at length
        exact .inl (List.eq_nil_of_length_eq_zero length.symm)
    | cons first rest =>
        rw [isOpened] at head
        exact .inr ⟨rest, congrArg (· :: rest) head⟩
  unfold liveNesting
  rw [Liveness.after_succ found, openAt_succ found]
  by_cases isElse : op = .elseOp
  · subst isElse
    change List.drop ((Liveness.after (ops.take position)).openedDead.count true)
      (List.modifyHead _ _) = _
    rcases onTop isDead with closed | ⟨rest, opened⟩
    · rw [closed]
      rfl
    · rw [opened]
      exact List.drop_modifyHead_of_pos (by simp)
  by_cases isEnd : op = .endOp
  · subst isEnd
    change List.drop ((Liveness.after (ops.take position)).openedDead.tail.count true)
      (List.tail _) = _
    rcases onTop isDead with closed | ⟨rest, opened⟩
    · simp [closed]
    · rw [opened]
      simp
  rw [Liveness.deadAt_of_plain _ isElse isEnd] at isDead
  cases opens : op.opens with
  | true =>
      rw [Liveness.step_of_opens _ opens, Nesting.step_of_opens opens, isDead]
      simp
  | false => rw [Liveness.step_of_plain _ opens isElse isEnd, Nesting.step_of_plain opens isElse isEnd]

/-- The `end` of the function is live. -/
theorem live_of_last
    (wellNested : Nesting.WellNested ops)
    (isLast : ops[ops.length - 1]? = some .endOp) :
    ¬DeadAt ops (ops.length - 1) := by
  rintro ⟨op, found, isDead⟩
  obtain rfl : .endOp = op := Option.some.inj (isLast.symm.trans found)
  have below := (List.getElem?_eq_some_iff.mp found).1
  have single : (openAt ops (ops.length - 1)).tail = [] := by
    have closed := wellNested.closed
    rw [← Nat.sub_add_cancel (show 1 ≤ ops.length by omega), openAt_succ found] at closed
    exact closed
  have length := Liveness.length_openedDead ops (ops.length - 1)
  have one : (openAt ops (ops.length - 1)).length = 1 := by
    have some := List.length_pos_iff.mpr (wellNested.enclosed _ below)
    have tail := congrArg List.length single
    rw [List.length_tail, List.length_nil] at tail
    omega
  obtain ⟨opened, isOpened⟩ := List.length_eq_one_iff.mp (length.trans one)
  have function := Liveness.function_opened_live wellNested (ops.length - 1) below.le
    (by simp [isOpened])
  change (Liveness.after (ops.take (ops.length - 1))).openedDead.headD true = true at isDead
  rw [isOpened] at function isDead
  cases function
  cases isDead

end LiveNesting

end TraceWasm
