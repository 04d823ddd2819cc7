import Mathlib.Data.List.Basic
import TraceWasm.Wasm.Liveness

/-!
# Constructs and where branches go

The operators of a body alone fix which constructs are open at a position,
where each of them ends, and where a branch goes. A construct is named by the
position of the operator that opens it; the function is the one that no
operator opens.
-/

namespace TraceWasm

/-- A construct that is open. -/
structure Construct where
  /-- The position of the operator that opens it, if it is not the function. -/
  opener : Option Nat
  /-- The position of its `else`, once that is passed. -/
  elseAt : Option Nat
  deriving DecidableEq

namespace Nesting

/-- The open constructs after the operator at a position, innermost first. -/
def step (position : Nat) (nesting : List Construct) (op : Operator) : List Construct :=
  match op with
  | .elseOp => nesting.modifyHead fun construct =>
      { construct with elseAt := some position }
  | .endOp => nesting.tail
  | op => if op.opens then ⟨some position, none⟩ :: nesting else nesting

/-- The constructs that are open before a position, innermost first. -/
def openAt (ops : List Operator) : Nat → List Construct
  | 0 => [⟨none, none⟩]
  | position + 1 =>
      match ops[position]? with
      | some op => step position (openAt ops position) op
      | none => openAt ops position

/-- The innermost construct at a position is the one of the opener. -/
def InnermostAt (ops : List Operator) (opener : Option Nat) (position : Nat) : Prop :=
  (openAt ops position).head?.map Construct.opener = some opener

instance (ops : List Operator) (opener : Option Nat) (position : Nat) :
    Decidable (InnermostAt ops opener position) :=
  inferInstanceAs (Decidable (_ = _))

/-- The construct's `end` is at the position. -/
def EndsAt (ops : List Operator) (opener : Option Nat) (position : Nat) : Prop :=
  ops[position]? = some .endOp ∧ InnermostAt ops opener position

/-- The construct's `else` is at the position. -/
def ElseAt (ops : List Operator) (opener : Option Nat) (position : Nat) : Prop :=
  ops[position]? = some .elseOp ∧ InnermostAt ops opener position

/-- The construct is a loop. -/
def IsLoop (ops : List Operator) (opener : Option Nat) : Prop :=
  ∃ position blockty, opener = some position ∧ ops[position]? = some (.loop blockty)

/-- A branch to a construct goes to the operator at the position: a loop's own
one, or the `end` of anything else. -/
def LeadsTo (ops : List Operator) (opener : Option Nat) (position : Nat) : Prop :=
  (IsLoop ops opener ∧ opener = some position) ∨
    (¬IsLoop ops opener ∧ EndsAt ops opener position)

/-- A branch at a position to a relative depth goes to the operator at the
target. -/
def BranchesTo (ops : List Operator) (position relativeDepth target : Nat) : Prop :=
  ∃ construct, (openAt ops position)[relativeDepth]? = some construct ∧
    LeadsTo ops construct.opener target

variable {ops : List Operator} {position : Nat}

theorem openAt_succ
    (found : ops[position]? = some op) :
    openAt ops (position + 1) = step position (openAt ops position) op := by
  simp [openAt, found]

@[simp] theorem step_of_opens
    {nesting : List Construct}
    (opens : op.opens = true) :
    step position nesting op = ⟨some position, none⟩ :: nesting := by
  cases op <;> simp_all [step, Operator.opens]

theorem step_of_plain
    {nesting : List Construct}
    (opens : op.opens = false)
    (notElse : op ≠ .elseOp) (notEnd : op ≠ .endOp) :
    step position nesting op = nesting := by
  cases op <;> simp_all [step, Operator.opens]

/-! ## A construct ends once -/

/-- The openers of the open constructs. -/
def openers (ops : List Operator) (position : Nat) : List (Option Nat) :=
  (openAt ops position).map Construct.opener

/-- The openers change at most by the operator's own position coming on top or by
the innermost one going. -/
theorem openers_succ (ops : List Operator) (position : Nat) :
    openers ops (position + 1) = openers ops position ∨
      openers ops (position + 1) = some position :: openers ops position ∨
      openers ops (position + 1) = (openers ops position).tail ∧
        ops[position]? = some .endOp := by
  unfold openers
  cases found : ops[position]? with
  | none =>
      left
      simp [openAt, found]
  | some op =>
      rw [openAt_succ found]
      by_cases isElse : op = .elseOp
      · left
        subst isElse
        cases openAt ops position <;> rfl
      by_cases isEnd : op = .endOp
      · right
        right
        subst isEnd
        exact ⟨List.map_tail, rfl⟩
      cases opens : op.opens with
      | true =>
          right
          left
          rw [step_of_opens opens]
          rfl
      | false =>
          left
          rw [step_of_plain opens isElse isEnd]

/-- Openers are earlier positions, and no construct is open twice. -/
theorem openers_nodup (ops : List Operator) (position : Nat) :
    (openers ops position).Nodup ∧
      ∀ earlier, some earlier ∈ openers ops position → earlier < position := by
  induction position with
  | zero => simp [openers, openAt]
  | succ position inductionHypothesis =>
      obtain ⟨distinct, below⟩ := inductionHypothesis
      rcases openers_succ ops position with same | same | ⟨same, _⟩
      · rw [same]
        exact ⟨distinct, fun earlier member => (below earlier member).trans (by omega)⟩
      · rw [same, List.nodup_cons]
        refine ⟨⟨fun member => (Nat.lt_irrefl _ (below position member)).elim, distinct⟩, ?_⟩
        intro earlier member
        rcases List.mem_cons.mp member with isNew | member
        · cases isNew
          omega
        · exact (below earlier member).trans (by omega)
      · rw [same]
        refine ⟨distinct.sublist (List.tail_sublist _), fun earlier member => ?_⟩
        exact (below earlier (List.mem_of_mem_tail member)).trans (by omega)

/-- What is open later was open before or has been opened since. -/
theorem mem_openers_of_le
    {opener : Option Nat} {later : Nat}
    (le : position ≤ later)
    (member : opener ∈ openers ops later) :
    opener ∈ openers ops position ∨ ∃ since, position ≤ since ∧ opener = some since := by
  induction later, le using Nat.le_induction with
  | base => exact .inl member
  | succ later le inductionHypothesis =>
      rcases openers_succ ops later with same | same | ⟨same, _⟩
      · exact inductionHypothesis (same ▸ member)
      · rw [same] at member
        rcases List.mem_cons.mp member with isNew | member
        · exact .inr ⟨later, le, isNew⟩
        · exact inductionHypothesis member
      · rw [same] at member
        exact inductionHypothesis (List.mem_of_mem_tail member)

theorem InnermostAt.mem_openers
    {opener : Option Nat}
    (innermost : InnermostAt ops opener position) :
    opener ∈ openers ops position := by
  unfold InnermostAt at innermost
  unfold openers
  rw [← List.head?_map] at innermost
  exact List.mem_of_mem_head? innermost

/-- Once a construct has ended it is never open again. -/
theorem EndsAt.closed
    {opener : Option Nat} {later : Nat}
    (ends : EndsAt ops opener position)
    (after : position < later) :
    opener ∉ openers ops later := by
  intro member
  obtain ⟨isEnd, innermost⟩ := ends
  have opened := innermost.mem_openers
  obtain ⟨distinct, below⟩ := openers_nodup ops position
  rcases mem_openers_of_le after member with stillOpen | ⟨since, le, isNew⟩
  · have gone : openers ops (position + 1) = (openers ops position).tail := by
      unfold openers
      rw [openAt_succ isEnd]
      exact List.map_tail
    rw [gone] at stillOpen
    unfold InnermostAt at innermost
    rw [← List.head?_map] at innermost
    change (openers ops position).head? = some opener at innermost
    cases isCons : openers ops position with
    | nil => simp [isCons] at innermost
    | cons head rest =>
        rw [isCons] at innermost stillOpen distinct
        cases innermost
        exact (List.nodup_cons.mp distinct).1 stillOpen
  · subst isNew
    have := below since opened
    omega

/-- A construct has one `end`. -/
theorem EndsAt.unique
    {opener : Option Nat} {first second : Nat}
    (firstEnd : EndsAt ops opener first)
    (secondEnd : EndsAt ops opener second) :
    first = second := by
  rcases Nat.lt_trichotomy first second with before | same | before
  · exact (firstEnd.closed before secondEnd.2.mem_openers).elim
  · exact same
  · exact (secondEnd.closed before firstEnd.2.mem_openers).elim

/-- A construct's `else` comes before its `end`. -/
theorem ElseAt.lt_end
    {opener : Option Nat} {last : Nat}
    (isElse : ElseAt ops opener position)
    (ends : EndsAt ops opener last) :
    position < last := by
  rcases Nat.lt_trichotomy position last with before | same | after
  · exact before
  · have isEnd := ends.1
    rw [← same, isElse.1] at isEnd
    cases isEnd
  · exact (ends.closed after isElse.2.mem_openers).elim

/-- A branch goes to one place. -/
theorem BranchesTo.unique
    {relativeDepth first second : Nat}
    (firstTarget : BranchesTo ops position relativeDepth first)
    (secondTarget : BranchesTo ops position relativeDepth second) :
    first = second := by
  obtain ⟨construct, found, firstLeads⟩ := firstTarget
  obtain ⟨other, foundOther, secondLeads⟩ := secondTarget
  rw [found] at foundOther
  cases foundOther
  rcases firstLeads with ⟨isLoop, isFirst⟩ | ⟨notLoop, firstEnd⟩ <;>
    rcases secondLeads with ⟨isLoop', isSecond⟩ | ⟨notLoop', secondEnd⟩
  · rw [isFirst] at isSecond
    exact Option.some.inj isSecond
  · exact (notLoop' isLoop).elim
  · exact (notLoop isLoop').elim
  · exact firstEnd.unique secondEnd

/-! ## A construct has one `else` -/

/-- No construct is open twice, so the innermost one is not further out. -/
theorem InnermostAt.opener_ne
    {opener : Option Nat} {head construct : Construct} {outer : List Construct}
    (opened : openAt ops position = head :: outer)
    (innermost : InnermostAt ops opener position)
    (member : construct ∈ outer) :
    construct.opener ≠ opener := by
  intro same
  have distinct := (openers_nodup ops position).1
  unfold InnermostAt at innermost
  unfold openers at distinct
  rw [opened] at distinct innermost
  cases innermost
  rw [List.map_cons, List.nodup_cons] at distinct
  exact distinct.1 (List.mem_map.mpr ⟨construct, member, same⟩)

/-- A construct that is open knows its `else`. -/
theorem elseAt_of_mem
    {construct : Construct}
    (member : construct ∈ openAt ops position) :
    (construct.elseAt = none → ∀ earlier < position,
      ¬ElseAt ops construct.opener earlier) ∧
    ∀ elseAt, construct.elseAt = some elseAt →
      ElseAt ops construct.opener elseAt := by
  induction position generalizing construct with
  | zero =>
      cases List.mem_singleton.mp member
      exact ⟨fun _ earlier before => (Nat.not_lt_zero _ before).elim, by simp⟩
  | succ position inductionHypothesis =>
      -- a construct that the operator leaves alone
      have kept : construct ∈ openAt ops position →
          ¬ElseAt ops construct.opener position →
          (construct.elseAt = none → ∀ earlier < position + 1,
            ¬ElseAt ops construct.opener earlier) ∧
          ∀ elseAt, construct.elseAt = some elseAt →
            ElseAt ops construct.opener elseAt := by
        intro stays notHere
        obtain ⟨without, with_⟩ := inductionHypothesis stays
        refine ⟨fun isNone earlier before => ?_, with_⟩
        rcases Nat.lt_succ_iff_lt_or_eq.mp before with before | rfl
        · exact without isNone earlier before
        · exact notHere
      cases found : ops[position]? with
      | none =>
          have same : openAt ops (position + 1) = openAt ops position := by
            simp [openAt, found]
          rw [same] at member
          exact kept member fun isElse => by simp [isElse.1] at found
      | some op =>
          rw [openAt_succ found] at member
          have notElse : op ≠ .elseOp → ¬ElseAt ops construct.opener position := by
            intro differs isElse
            rw [isElse.1] at found
            exact differs (Option.some.inj found).symm
          by_cases isElse : op = .elseOp
          · subst isElse
            cases opened : openAt ops position with
            | nil => simp [step, opened] at member
            | cons head outer =>
                have innermost : InnermostAt ops head.opener position := by
                  simp [InnermostAt, opened]
                rw [opened] at member
                rcases List.mem_cons.mp member with isHead | inOuter
                · subst isHead
                  refine ⟨by simp, fun elseAt isHere => ?_⟩
                  cases isHere
                  exact ⟨found, innermost⟩
                · refine kept (opened ▸ List.mem_cons_of_mem _ inOuter) fun isElse => ?_
                  exact isElse.2.opener_ne opened inOuter rfl
          by_cases isEnd : op = .endOp
          · subst isEnd
            exact kept (List.mem_of_mem_tail member) (notElse (by simp))
          cases opens : op.opens with
          | true =>
              rw [step_of_opens opens] at member
              rcases List.mem_cons.mp member with isNew | stays
              · subst isNew
                refine ⟨fun _ earlier before isElse => ?_, by simp⟩
                have := (openers_nodup ops earlier).2 position isElse.2.mem_openers
                omega
              · exact kept stays (notElse isElse)
          | false =>
              rw [step_of_plain opens isElse isEnd] at member
              exact kept member (notElse isElse)

/-- An `else` only stands in a construct that has none yet. -/
def OneElse (ops : List Operator) : Prop :=
  ∀ position construct, ops[position]? = some .elseOp →
    (openAt ops position).head? = some construct → construct.elseAt = none

/-- A construct has one `else`. -/
theorem ElseAt.unique
    {opener : Option Nat} {first second : Nat}
    (oneElse : OneElse ops)
    (firstElse : ElseAt ops opener first)
    (secondElse : ElseAt ops opener second) :
    first = second := by
  have notBefore : ∀ {earlier later : Nat}, ElseAt ops opener earlier →
      ElseAt ops opener later → ¬earlier < later := by
    intro earlier later earlierElse laterElse before
    have innermost := laterElse.2
    unfold InnermostAt at innermost
    obtain ⟨construct, isHead, same⟩ := Option.map_eq_some_iff.mp innermost
    have isNone := oneElse later construct laterElse.1 isHead
    have absent := (elseAt_of_mem (List.mem_of_mem_head? isHead)).1 isNone earlier before
    exact absent (same ▸ earlierElse)
  rcases Nat.lt_trichotomy first second with before | same | before
  · exact (notBefore firstElse secondElse before).elim
  · exact same
  · exact (notBefore secondElse firstElse before).elim

/-! ## Well-nested bodies -/

/-- Every operator stands in the function's construct, which the last one ends. -/
structure WellNested (ops : List Operator) : Prop where
  oneElse : OneElse ops
  enclosed : ∀ position < ops.length, openAt ops position ≠ []
  closed : openAt ops ops.length = []

/-- The outermost construct is the function. -/
theorem WellNested.outermost
    (wellNested : WellNested ops)
    (inside : position < ops.length) :
    ∃ construct, (openAt ops position).getLast? = some construct ∧
      construct.opener = none := by
  induction position with
  | zero => exact ⟨⟨none, none⟩, rfl, rfl⟩
  | succ position inductionHypothesis =>
      obtain ⟨construct, isLast, isFunction⟩ := inductionHypothesis (by omega)
      have nonempty := wellNested.enclosed (position + 1) inside
      have found := List.getElem?_eq_getElem (show position < ops.length by omega)
      rw [openAt_succ found] at nonempty ⊢
      cases opened : openAt ops position with
      | nil => simp [opened] at isLast
      | cons head outer =>
          rw [opened] at isLast nonempty
          by_cases isElse : ops[position] = .elseOp
          · rw [isElse]
            change ∃ construct, List.getLast? ({ head with elseAt := some position } :: outer) =
              some construct ∧ construct.opener = none
            cases outer with
            | nil =>
                cases isLast
                exact ⟨_, rfl, isFunction⟩
            | cons second rest =>
                rw [List.getLast?_cons_cons] at isLast ⊢
                exact ⟨construct, isLast, isFunction⟩
          by_cases isEnd : ops[position] = .endOp
          · rw [isEnd] at nonempty ⊢
            change outer ≠ [] at nonempty
            obtain ⟨second, rest, isOuter⟩ := List.exists_cons_of_ne_nil nonempty
            change ∃ construct, outer.getLast? = some construct ∧ construct.opener = none
            rw [isOuter, List.getLast?_cons_cons] at isLast
            rw [isOuter]
            exact ⟨construct, isLast, isFunction⟩
          cases opens : ops[position].opens with
          | true =>
              rw [step_of_opens opens, List.getLast?_cons_cons]
              exact ⟨construct, isLast, isFunction⟩
          | false =>
              rw [step_of_plain opens isElse isEnd]
              exact ⟨construct, isLast, isFunction⟩

end Nesting

end TraceWasm
