import TraceWasm.Register.Bookkeeping
import TraceWasm.Register.Resolution

/-!
# The reachability filter is exact without dead `try_table`s

The filter counts the constructs that are opened in dead code. It knows all of
them but `try_table`, so after a dead one it is short of a construct, and takes
the `end` of that construct, or of one around it, for the place where liveness
resumes.
-/

namespace TraceWasm

namespace Register

/-! ## The filter against the spec of deadness -/

/-- The filter counts all constructs that were opened dead but `short` of
them. -/
structure Tracks
    (l : Liveness) (filter : UnreachableTrackingControlStack) (short : Nat) :
    Prop where
  dead : filter.unreachable = l.dead
  opened : ∃ live, l.openedDead =
    List.replicate (filter.blocks.length + short) true ++ List.replicate live false
  live : l.dead = false → filter.blocks = [] ∧ short = 0

/-- How many constructs the filter misses at the operator. -/
def missed (l : Liveness) : Operator → Nat
  | .tryTable _ _ => if l.dead then 1 else 0
  | _ => 0

/-- Nothing has been missed at the beginning. -/
theorem tracks_initial : Tracks .initial .new 0 where
  dead := rfl
  opened := ⟨1, rfl⟩
  live := fun _ => ⟨rfl, rfl⟩

namespace Tracks

variable {l : Liveness} {filter filter' : UnreachableTrackingControlStack}
  {short : Nat} {op : Operator} {result : UnreachableCheckResult}

/-- While the filter is short of a construct, every operator is dead. -/
theorem deadAt_of_short
    (tracks : Tracks l filter short)
    (positive : 0 < short) :
    l.deadAt op = true := by
  have dead : l.dead = true := by
    by_contra notDead
    have none := (tracks.live (by simpa using notDead)).2
    omega
  obtain ⟨live, opened⟩ := tracks.opened
  have head : l.openedDead.headD true = true := by
    rw [opened]
    obtain ⟨count, isSucc⟩ : ∃ count, filter.blocks.length + short = count + 1 :=
      ⟨filter.blocks.length + short - 1, by omega⟩
    rw [isSucc]
    rfl
  cases op <;> first | exact dead | exact head

/-- Where an operator is live nothing is missed. -/
theorem short_eq_zero
    (tracks : Tracks l filter short)
    (alive : l.deadAt op = false) :
    short = 0 := by
  by_contra positive
  have dead : l.deadAt op = true :=
    tracks.deadAt_of_short (Nat.pos_of_ne_zero positive)
  rw [alive] at dead
  cases dead

/-- In live code the filter lets everything through. -/
theorem step_live
    (tracks : Tracks l filter short)
    (live : l.dead = false) :
    (filter.step op : Attempt ε _) = .ok (.reachable, filterAfter op filter) := by
  unfold UnreachableTrackingControlStack.step
    UnreachableTrackingControlStack.checkUnreachability
  rw [tracks.dead, live]
  rfl

theorem filterAfter_live
    (tracks : Tracks l filter short)
    (live : l.dead = false) :
    filterAfter op filter = ⟨[], op.diverges⟩ := by
  obtain ⟨empty, _⟩ := tracks.live live
  have flag := tracks.dead
  rw [live] at flag
  unfold filterAfter UnreachableTrackingControlStack.setUnreachable
  cases filter with
  | mk blocks unreachable =>
      cases empty
      cases flag
      cases op.diverges <;> rfl

/-- In live code the filter follows. -/
theorem next_live
    (tracks : Tracks l filter short)
    (live : l.dead = false)
    (alive : l.deadAt op = false) :
    Tracks (l.step op) (filterAfter op filter) (short + missed l op) := by
  obtain ⟨empty, rfl⟩ := tracks.live live
  have none : missed l op = 0 := by
    cases op <;> simp [missed, live]
  rw [tracks.filterAfter_live live, none]
  obtain ⟨count, opened⟩ := tracks.opened
  rw [empty] at opened
  change l.openedDead = List.replicate count false at opened
  cases op with
  | elseOp => exact ⟨alive.symm, ⟨count, opened⟩, fun _ => ⟨rfl, rfl⟩⟩
  | endOp =>
      refine ⟨alive.symm, ⟨count - 1, ?_⟩, fun _ => ⟨rfl, rfl⟩⟩
      change l.openedDead.tail = List.replicate (count - 1) false
      rw [opened, List.tail_replicate]
  | block _ | loop _ | ifOp _ | tryTable _ _ =>
      refine ⟨live.symm, ⟨count + 1, ?_⟩, fun _ => ⟨rfl, rfl⟩⟩
      change l.dead :: l.openedDead = List.replicate (count + 1) false
      rw [live, opened]
      rfl
  | _ =>
      refine ⟨?_, ⟨count, opened⟩, fun _ => ⟨rfl, rfl⟩⟩
      change _ = (l.dead || _)
      rw [live]
      rfl

/-- In dead code the filter follows as long as it decides rightly. -/
theorem next_dead
    (tracks : Tracks l filter short)
    (dead : l.dead = true)
    (stepped : (filter.step op : Attempt ε _) = .ok (result, filter'))
    (exact : result = .continue ↔ l.deadAt op = true) :
    Tracks (l.step op) filter' (short + missed l op) := by
  obtain ⟨blocks, unreachable⟩ := filter
  have flag : unreachable = l.dead := tracks.dead
  rw [dead] at flag
  subst flag
  obtain ⟨count, opened⟩ := tracks.opened
  change l.openedDead =
    List.replicate (blocks.length + short) true ++ List.replicate count false at opened
  -- the filter stays in dead code, with what it now counts
  have staysDead : ∀ (l' : Liveness) (blocks' : List BlockVariant) (short' : Nat),
      l'.dead = true →
      l'.openedDead = List.replicate (blocks'.length + short') true ++
        List.replicate count false →
      Tracks l' ⟨blocks', true⟩ short' := fun l' blocks' short' stillDead same =>
    ⟨stillDead.symm, ⟨count, same⟩, fun live => by rw [stillDead] at live; cases live⟩
  cases op with
  | elseOp =>
      cases blocks with
      | nil =>
          cases stepped
          have alive : l.deadAt .elseOp = false := by simpa using exact
          obtain rfl := tracks.short_eq_zero alive
          exact ⟨alive.symm, ⟨count, opened⟩, fun _ => ⟨rfl, rfl⟩⟩
      | cons variant variants =>
          obtain ⟨checked, check, stepped⟩ := Attempt.bind_eq_ok.mp stepped
          obtain ⟨_, _, check⟩ := Attempt.bind_eq_ok.mp check
          cases check
          cases stepped
          exact staysDead _ _ _ (exact.mp rfl) opened
  | endOp =>
      cases blocks with
      | nil =>
          cases stepped
          have alive : l.deadAt .endOp = false := by simpa using exact
          obtain rfl := tracks.short_eq_zero alive
          refine ⟨alive.symm, ⟨count - 1, ?_⟩, fun _ => ⟨rfl, rfl⟩⟩
          change l.openedDead.tail = List.replicate (count - 1) false
          rw [opened]
          exact List.tail_replicate
      | cons variant variants =>
          cases stepped
          refine staysDead _ _ _ (exact.mp rfl) ?_
          change l.openedDead.tail = _
          rw [opened, List.length_cons, Nat.add_right_comm]
          rfl
  | block _ | loop _ | ifOp _ =>
      cases stepped
      refine staysDead _ _ _ dead ?_
      change l.dead :: l.openedDead = _
      rw [dead, opened, List.length_cons, Nat.add_right_comm _ 1]
      rfl
  | tryTable blockty debug =>
      cases stepped
      have isMissed : missed l (.tryTable blockty debug) = 1 := if_pos dead
      rw [isMissed]
      refine staysDead _ _ _ dead ?_
      change l.dead :: l.openedDead = _
      rw [dead, opened]
      rfl
  | _ =>
      cases stepped
      refine staysDead _ _ _ ?_ opened
      change (l.dead || _) = true
      rw [dead]
      rfl

/-- After an operator on which it was exact, the filter is short of what it was
short of before and what it missed. -/
theorem next
    (tracks : Tracks l filter short)
    (stepped : (filter.step op : Attempt ε _) = .ok (result, filter'))
    (exact : result = .continue ↔ l.deadAt op = true) :
    Tracks (l.step op) filter' (short + missed l op) := by
  cases dead : l.dead with
  | false =>
      rw [tracks.step_live dead] at stepped
      cases stepped
      exact tracks.next_live dead (by simpa using exact)
  | true => exact tracks.next_dead dead stepped exact

end Tracks

/-- The filter remembers what opened the innermost frames. -/
def KindsMatch (v : Validator) (filter : UnreachableTrackingControlStack) : Prop :=
  List.Forall₂ DeadMatches (v.frames.take filter.blocks.length) filter.blocks

/-- The mark of an unreachable frame does not matter to its kind. -/
theorem KindsMatch.marked
    (kinds : KindsMatch v filter)
    (isHead : v.frames = frame :: outer)
    (marked : v'.frames = Validator.markedFrames frame outer) :
    KindsMatch v' filter := by
  unfold KindsMatch at *
  rw [isHead] at kinds
  rw [marked]
  cases blocks : filter.blocks with
  | nil => exact .nil
  | cons variant variants =>
      rw [blocks] at kinds
      obtain ⟨matching, others⟩ := List.forall₂_cons.mp kinds
      refine List.forall₂_cons.mpr ⟨?_, others⟩
      cases variant <;> exact matching

/-- A filter that is short of nothing decides exactly. -/
theorem Tracks.decides
    (tracks : Tracks l filter 0)
    (kinds : KindsMatch v filter)
    (frames : v.frames.length = l.openedDead.length)
    (accepted : v.step mod localsCount results op = some v')
    (noneMissed : missed l op = 0) :
    ∃ result filter',
      (filter.step op : Attempt TraceWasmError _) = .ok (result, filter') ∧
      (result = .continue ↔ l.deadAt op = true) ∧ KindsMatch v' filter' := by
  have framesStep := Validator.framesStep_of_step accepted
  have inside : 0 < l.openedDead.length := by
    rw [← frames]
    exact List.length_pos_iff.mpr (Validator.frames_ne_nil_of_step accepted)
  obtain ⟨count, opened⟩ := tracks.opened
  -- where the filter has nothing left to close, a construct opened live closes
  have alive : filter.blocks = [] → l.openedDead.headD true = false := by
    intro empty
    rw [empty] at opened
    change l.openedDead = List.replicate count false at opened
    rw [opened, List.length_replicate] at inside
    rw [opened, List.headD_eq_head?_getD, List.head?_replicate, if_neg (by omega)]
    rfl
  cases dead : l.dead with
  | false =>
      refine ⟨.reachable, _, tracks.step_live dead, ?_, ?_⟩
      · have notDead : l.deadAt op = false := by
          have empty := (tracks.live dead).1
          cases op <;> first | exact dead | exact alive empty
        rw [notDead]
        decide
      · unfold KindsMatch
        rw [tracks.filterAfter_live dead]
        exact .nil
  | true =>
      obtain ⟨blocks, unreachable⟩ := filter
      have flag : unreachable = l.dead := tracks.dead
      rw [dead] at flag
      subst flag
      have skipped : ∀ {filter' : UnreachableTrackingControlStack}, KindsMatch v' filter' →
          l.deadAt op = true →
          (UnreachableTrackingControlStack.step ⟨blocks, true⟩ op :
            Attempt TraceWasmError _) = .ok (.continue, filter') →
          ∃ result filter',
            (UnreachableTrackingControlStack.step ⟨blocks, true⟩ op :
              Attempt TraceWasmError _) = .ok (result, filter') ∧
            (result = .continue ↔ l.deadAt op = true) ∧ KindsMatch v' filter' :=
        fun kinds' isDead stepped => ⟨_, _, stepped, by rw [isDead]; decide, kinds'⟩
      cases op with
      | elseOp =>
          obtain ⟨frame, outer, isHead, isThen, rfl⟩ := framesStep
          cases blocks with
          | nil =>
              refine ⟨.reachable, _, rfl, ?_, .nil⟩
              rw [show l.deadAt .elseOp = false from alive rfl]
              decide
          | cons variant variants =>
              unfold KindsMatch at kinds
              rw [isHead] at kinds
              obtain ⟨matching, others⟩ := List.forall₂_cons.mp kinds
              have isIf : variant = .ifOp := by
                cases variant <;> simp_all [DeadMatches]
              subst isIf
              have kinds' : KindsMatch ⟨⟨.ifElse, frame.params, frame.results,
                  frame.height, false⟩ :: outer, frame.height + frame.params⟩
                  ⟨.ifOp :: variants, true⟩ :=
                .cons (.inr rfl) others
              refine skipped kinds' ?_ rfl
              change l.openedDead.headD true = true
              rw [opened, List.length_cons, Nat.add_right_comm]
              rfl
      | endOp =>
          obtain ⟨frame, outer, isHead, rfl⟩ := framesStep
          cases blocks with
          | nil =>
              refine ⟨.reachable, _, rfl, ?_, .nil⟩
              rw [show l.deadAt .endOp = false from alive rfl]
              decide
          | cons variant variants =>
              unfold KindsMatch at kinds
              rw [isHead] at kinds
              have kinds' : KindsMatch ⟨outer, frame.height + frame.results⟩
                  ⟨variants, true⟩ := (List.forall₂_cons.mp kinds).2
              refine skipped kinds' ?_ rfl
              change l.openedDead.headD true = true
              rw [opened, List.length_cons, Nat.add_right_comm]
              rfl
      | tryTable blockty debug =>
          rw [show missed l (.tryTable blockty debug) = 1 from if_pos dead] at noneMissed
          cases noneMissed
      | block blockty =>
          obtain ⟨_, _, _, _, opens⟩ := framesStep
          refine skipped ?_ dead rfl
          unfold KindsMatch
          rw [opens]
          exact .cons rfl kinds
      | loop blockty =>
          obtain ⟨_, _, _, _, opens⟩ := framesStep
          refine skipped ?_ dead rfl
          unfold KindsMatch
          rw [opens]
          exact .cons rfl kinds
      | ifOp blockty =>
          obtain ⟨_, _, _, _, opens⟩ := framesStep
          refine skipped ?_ dead rfl
          unfold KindsMatch
          rw [opens]
          exact .cons (.inl rfl) kinds
      | _ =>
          obtain ⟨frame, outer, isHead, kept | marked⟩ := framesStep
          · refine skipped ?_ dead rfl
            unfold KindsMatch
            rw [kept]
            exact kinds
          · exact skipped (kinds.marked isHead marked) dead rfl

/-- The spec of deadness counts the constructs that the validator counts. -/
theorem length_openedDead_step
    {v v' : Validator} {l : Liveness}
    (frames : v.frames.length = l.openedDead.length)
    (accepted : v.step mod localsCount results op = some v') :
    v'.frames.length = (l.step op).openedDead.length := by
  have framesStep := Validator.framesStep_of_step accepted
  cases op with
  | elseOp =>
      obtain ⟨frame, outer, isHead, _, rfl⟩ := framesStep
      rw [isHead] at frames
      exact frames
  | endOp =>
      obtain ⟨frame, outer, isHead, rfl⟩ := framesStep
      rw [isHead] at frames
      change outer.length = l.openedDead.tail.length
      rw [List.length_tail, ← frames]
      rfl
  | block _ | loop _ | ifOp _ | tryTable _ _ =>
      obtain ⟨_, _, _, _, opens⟩ := framesStep
      rw [opens]
      exact congrArg (· + 1) frames
  | _ =>
      obtain ⟨frame, outer, isHead, kept | marked⟩ := framesStep
      · rw [kept]
        exact frames
      · rw [marked]
        rw [isHead] at frames
        exact frames

/-! ## Whole bodies -/

/-- At every operator that the lowering reads, the filter skips it exactly when it
is dead. -/
def FilterExact
    (mod : ModuleTypes) (func : FuncHeader) (ops : List Operator) : Prop :=
  ∀ position op, ops[position]? = some op → ReadsUpTo mod func ops position →
    ∃ filter result filter',
      (UnreachableTrackingControlStack.after (ops.take position) :
        Attempt TraceWasmError _) = .ok filter ∧
      (filter.step op : Attempt TraceWasmError _) = .ok (result, filter') ∧
      (result = .continue ↔ DeadAt ops position)

/-- The lowering of a body does not panic, its filter is exact, and that is the
filter it runs. -/
structure LowersReliably
    (mod : ModuleTypes) (func : FuncHeader) (ops : List Operator) : Prop where
  noPanic : emitInstructionsForFunc mod func ops ≠ .error .panic
  exact : FilterExact mod func ops
  runsFilter : ∀ position ≤ ops.length, ∀ s,
    (Lowering.initial func).lowerOperators mod func.results (ops.take position) =
      .ok s →
    (UnreachableTrackingControlStack.after (ops.take position) :
      Attempt TraceWasmError _) = .ok s.unreachableTrackingStack

section Bodies

variable {mod : ModuleTypes} {func : FuncHeader} {ops : List Operator}

/-- The lowering reads what stands before an operator that it reads. -/
theorem ReadsUpTo.mono
    (reads : ReadsUpTo mod func ops position)
    (le : earlier ≤ position) :
    ReadsUpTo mod func ops earlier := by
  obtain ⟨last, lowered⟩ := reads
  have split : ops.take earlier ++ (ops.take position).drop earlier =
      ops.take position := by
    have whole := List.take_append_drop earlier (ops.take position)
    rwa [List.take_take, Nat.min_eq_left le] at whole
  unfold Lowering.lowerOperators at lowered
  rw [← split, List.foldlM_append] at lowered
  obtain ⟨s, lowered, _⟩ := Attempt.bind_eq_ok.mp lowered
  exact ⟨s, lowered⟩

/-- The validator has an open frame up to the end of the body. -/
theorem frames_run
    (validates : Validates mod func ops) (position : Nat)
    (inside : position ≤ ops.length) :
    ∃ v, Validator.run mod func.localsCount func.results
        (.initial func.params func.results) (ops.take position) = some v ∧
      v.frames.length = (Liveness.after (ops.take position)).openedDead.length := by
  induction position with
  | zero => exact ⟨_, rfl, rfl⟩
  | succ position inductionHypothesis =>
      obtain ⟨v, ran, frames⟩ := inductionHypothesis (by omega)
      have found := List.getElem?_eq_getElem (l := ops) (i := position) (by omega)
      obtain ⟨last, ranAll, _⟩ := validates
      obtain ⟨v', ranNext⟩ := Validator.run_take ranAll (position + 1)
      have accepted := ranNext
      rw [Validator.run_succ found, ran, Option.bind_some] at accepted
      refine ⟨v', ranNext, ?_⟩
      rw [Liveness.after_succ found]
      exact length_openedDead_step frames accepted

/-- A validated body closes every construct. -/
theorem openedDead_eq_nil
    (validates : Validates mod func ops) :
    (Liveness.after ops).openedDead = [] := by
  obtain ⟨v, ran, frames⟩ := frames_run validates ops.length le_rfl
  obtain ⟨last, ranAll, closed⟩ := validates
  rw [List.take_length] at ran frames
  rw [ran] at ranAll
  cases ranAll
  rw [closed] at frames
  exact List.length_eq_zero_iff.mp frames.symm

/-- An exact filter goes on to be short of what it misses. -/
theorem FilterExact.next
    (exact : FilterExact mod func ops)
    (reads : ReadsUpTo mod func ops position)
    (found : ops[position]? = some op)
    (filtered : (UnreachableTrackingControlStack.after (ops.take position) :
      Attempt TraceWasmError _) = .ok filter)
    (tracks : Tracks (Liveness.after (ops.take position)) filter short) :
    ∃ filter', (UnreachableTrackingControlStack.after (ops.take (position + 1)) :
        Attempt TraceWasmError _) = .ok filter' ∧
      Tracks (Liveness.after (ops.take (position + 1))) filter'
        (short + missed (Liveness.after (ops.take position)) op) := by
  obtain ⟨same, result, filter', filteredSame, stepped, decides⟩ :=
    exact position op found reads
  rw [filtered] at filteredSame
  cases filteredSame
  rw [deadAt_iff found] at decides
  refine ⟨filter', ?_, ?_⟩
  · rw [UnreachableTrackingControlStack.after_succ found, filtered, Attempt.ok_bind,
      stepped]
    rfl
  · rw [Liveness.after_succ found]
    exact tracks.next stepped decides

/-- An exact filter follows the body as far as it is read. -/
theorem FilterExact.tracks
    (exact : FilterExact mod func ops)
    (reads : ReadsUpTo mod func ops position)
    (inside : position ≤ ops.length) :
    ∃ filter short, (UnreachableTrackingControlStack.after (ops.take position) :
        Attempt TraceWasmError _) = .ok filter ∧
      Tracks (Liveness.after (ops.take position)) filter short := by
  induction position with
  | zero => exact ⟨_, _, rfl, tracks_initial⟩
  | succ position inductionHypothesis =>
      obtain ⟨filter, short, filtered, tracks⟩ :=
        inductionHypothesis (reads.mono (Nat.le_succ _)) (by omega)
      have found := List.getElem?_eq_getElem (l := ops) (i := position) (by omega)
      obtain ⟨filter', filtered', tracks'⟩ :=
        exact.next (reads.mono (Nat.le_succ _)) found filtered tracks
      exact ⟨filter', _, filtered', tracks'⟩

/-- The lowering reads on past an operator that it skips. -/
theorem LowersReliably.readsOn
    (reliable : LowersReliably mod func ops)
    (reads : ReadsUpTo mod func ops position)
    (dead : DeadAt ops position) :
    ReadsUpTo mod func ops (position + 1) := by
  obtain ⟨op, found, isDead⟩ := dead
  obtain ⟨s, lowered⟩ := reads
  obtain ⟨filter, result, filter', filtered, stepped, decides⟩ :=
    reliable.exact position op found ⟨s, lowered⟩
  have inside := (List.getElem?_eq_some_iff.mp found).1
  have same := reliable.runsFilter position inside.le s lowered
  rw [filtered] at same
  cases same
  obtain rfl := decides.mpr ⟨op, found, isDead⟩
  obtain ⟨⟨checked, after⟩, check, isStep⟩ := Attempt.bind_eq_ok.mp stepped
  refine ⟨{ s with unreachableTrackingStack := after }, ?_⟩
  rw [lowerOperators_succ _ found, lowered, Attempt.ok_bind]
  unfold Lowering.lowerOperator
  rw [check, Attempt.ok_bind]
  cases checked with
  | «continue» => rfl
  | reachable => cases isStep

/-- A filter that is short of a construct stays short of it, and everything
stays dead. -/
theorem LowersReliably.staysShort
    (reliable : LowersReliably mod func ops)
    (reads : ReadsUpTo mod func ops start)
    (filtered : (UnreachableTrackingControlStack.after (ops.take start) :
      Attempt TraceWasmError _) = .ok filter)
    (tracks : Tracks (Liveness.after (ops.take start)) filter short)
    (positive : 0 < short)
    (count : Nat) (inside : start + count ≤ ops.length) :
    ReadsUpTo mod func ops (start + count) ∧
      ∃ filter short', (UnreachableTrackingControlStack.after
          (ops.take (start + count)) : Attempt TraceWasmError _) = .ok filter ∧
        Tracks (Liveness.after (ops.take (start + count))) filter short' ∧
        0 < short' := by
  induction count with
  | zero => exact ⟨reads, filter, short, filtered, tracks, positive⟩
  | succ count inductionHypothesis =>
      obtain ⟨readsNow, filterNow, shortNow, filteredNow, tracksNow, positiveNow⟩ :=
        inductionHypothesis (by omega)
      have found := List.getElem?_eq_getElem (l := ops) (i := start + count) (by omega)
      obtain ⟨filter', filtered', tracks'⟩ :=
        reliable.exact.next readsNow found filteredNow tracksNow
      have dead := (deadAt_iff found).mpr (tracksNow.deadAt_of_short positiveNow)
      exact ⟨reliable.readsOn readsNow dead, filter', _, filtered', tracks', by omega⟩

/-- A dead `try_table` leaves the filter short of a construct to the end of the
body, where nothing is open. -/
theorem LowersReliably.noDeadTryTable
    (reliable : LowersReliably mod func ops)
    (validates : Validates mod func ops) :
    NoDeadTryTable mod func ops := by
  intro position blockty debug reads found dead
  have inside := (List.getElem?_eq_some_iff.mp found).1
  obtain ⟨filter, short, filtered, tracks⟩ := reliable.exact.tracks reads inside.le
  obtain ⟨filter', filtered', tracks'⟩ := reliable.exact.next reads found filtered tracks
  have readsNext := reliable.readsOn reads dead
  rw [deadAt_iff found] at dead
  have isMissed : missed (Liveness.after (ops.take position))
      (.tryTable blockty debug) = 1 := if_pos dead
  rw [isMissed] at tracks'
  obtain ⟨_, last, shortLast, _, tracksLast, positive⟩ := reliable.staysShort readsNext
    filtered' tracks' (Nat.succ_pos _) (ops.length - (position + 1)) (by omega)
  rw [Nat.add_sub_cancel' (Nat.succ_le_of_lt inside), List.take_length] at tracksLast
  obtain ⟨live, opened⟩ := tracksLast.opened
  rw [openedDead_eq_nil validates] at opened
  have lengths := congrArg List.length opened
  rw [List.length_append, List.length_replicate, List.length_nil] at lengths
  omega

/-- Without dead `try_table`s nothing is missed. -/
theorem missed_eq_zero
    (noDead : NoDeadTryTable mod func ops)
    (reads : ReadsUpTo mod func ops position)
    (found : ops[position]? = some op) :
    missed (Liveness.after (ops.take position)) op = 0 := by
  cases op with
  | tryTable blockty debug =>
      have alive := noDead position blockty debug reads found
      rw [deadAt_iff found] at alive
      exact if_neg alive
  | _ => rfl

/-- Without dead `try_table`s the filter is short of nothing. -/
theorem tracks_of_noDeadTryTable
    (validates : Validates mod func ops)
    (noDead : NoDeadTryTable mod func ops)
    (reads : ReadsUpTo mod func ops position)
    (inside : position ≤ ops.length) :
    ∃ v filter, Validator.run mod func.localsCount func.results
        (.initial func.params func.results) (ops.take position) = some v ∧
      (UnreachableTrackingControlStack.after (ops.take position) :
        Attempt TraceWasmError _) = .ok filter ∧
      Tracks (Liveness.after (ops.take position)) filter 0 ∧ KindsMatch v filter := by
  induction position with
  | zero => exact ⟨_, _, rfl, rfl, tracks_initial, .nil⟩
  | succ position inductionHypothesis =>
      obtain ⟨v', ranNext, _⟩ := frames_run validates (position + 1) inside
      have readsNow := reads.mono (Nat.le_succ _)
      obtain ⟨v, filter, ran, filtered, tracks, kinds⟩ :=
        inductionHypothesis readsNow (by omega)
      have found := List.getElem?_eq_getElem (l := ops) (i := position) (by omega)
      have none := missed_eq_zero noDead readsNow found
      obtain ⟨same, ranSame, frames⟩ := frames_run validates position (by omega)
      rw [ran] at ranSame
      cases ranSame
      have accepted := ranNext
      rw [Validator.run_succ found, ran, Option.bind_some] at accepted
      obtain ⟨result, filter', stepped, decides, kinds'⟩ :=
        tracks.decides kinds frames accepted none
      refine ⟨v', filter', ranNext, ?_, ?_, kinds'⟩
      · rw [UnreachableTrackingControlStack.after_succ found, filtered, Attempt.ok_bind,
          stepped]
        rfl
      · have tracks' := tracks.next stepped decides
        rw [none] at tracks'
        rw [Liveness.after_succ found]
        exact tracks'

/-- Without dead `try_table`s the filter is exact. -/
theorem filterExact_of_noDeadTryTable
    (validates : Validates mod func ops)
    (noDead : NoDeadTryTable mod func ops) :
    FilterExact mod func ops := by
  intro position op found reads
  have inside := (List.getElem?_eq_some_iff.mp found).1
  obtain ⟨v, filter, ran, filtered, tracks, kinds⟩ :=
    tracks_of_noDeadTryTable validates noDead reads inside.le
  obtain ⟨same, ranSame, frames⟩ := frames_run validates position inside.le
  rw [ran] at ranSame
  cases ranSame
  obtain ⟨v', ranNext, _⟩ := frames_run validates (position + 1) inside
  rw [Validator.run_succ found, ran, Option.bind_some] at ranNext
  obtain ⟨result, filter', stepped, decides, _⟩ :=
    tracks.decides kinds frames ranNext (missed_eq_zero noDead reads found)
  rw [← deadAt_iff found] at decides
  exact ⟨filter, result, filter', filtered, stepped, decides⟩

/-- The register lowering reads the live operators, and it has limits. -/
theorem refusesUnknown
    (validates : Validates mod func ops)
    (noDead : NoDeadTryTable mod func ops) :
    RefusesUnknown ops (fun position => ¬DeadAt ops position) TraceWasmError.IsLimit
      (emitInstructionsForFunc mod func ops) := by
  apply RefusesUnknown.of_meets
  have meets := lowerOperators_take_meets validates noDead ops.length le_rfl
  rw [List.take_length] at meets
  refine meets.bind ?_
  rintro s ⟨known, state, v, reached⟩
  apply ((finish_meets reached.agreement.models).monoError fun _ => .inl).bind
  intro _ _
  exact known

/-- Lowering a validated body does not panic and its filter is exact if and only
if no `try_table` that it reads is dead. -/
theorem lowersReliably_iff
    (validates : Validates mod func ops) :
    LowersReliably mod func ops ↔ NoDeadTryTable mod func ops := by
  constructor
  · intro reliable
    exact reliable.noDeadTryTable validates
  · intro noDead
    refine ⟨(refusesUnknown validates noDead).noPanic,
      filterExact_of_noDeadTryTable validates noDead, ?_⟩
    intro position inside s lowered
    obtain ⟨_, state, v, reached⟩ :=
      (lowerOperators_take_meets validates noDead position inside).of_ok lowered
    exact reached.filter

/-- A body with a `try_table` in dead code. -/
def deadTryTableBody : List Operator :=
  [.block .empty, .unreachable, .tryTable .empty "try_table", .endOp, .endOp, .endOp]

/-- A function without parameters, results and locals. -/
def emptyHeader : FuncHeader := { constantHeader with results := 0 }

/-- The validator accepts the body, the lowering panics on it, and the filter
has taken the `end` of the `try_table` for that of the block. -/
theorem lowering_panics_on_deadTryTableBody :
    Validates ⟨[], []⟩ emptyHeader deadTryTableBody ∧
      emitInstructionsForFunc ⟨[], []⟩ emptyHeader deadTryTableBody = .error .panic ∧
      ¬LowersReliably ⟨[], []⟩ emptyHeader deadTryTableBody :=
  ⟨⟨_, rfl, rfl⟩, rfl, fun reliable => reliable.noPanic rfl⟩

/-- A body that is lowered reliably. -/
theorem lowersReliably_overwritingBody :
    LowersReliably ⟨[], []⟩ unaryHeader overwritingBody := by
  apply (lowersReliably_iff
    (show Validates ⟨[], []⟩ unaryHeader overwritingBody from ⟨_, rfl, rfl⟩)).mpr
  intro position blockty debug _ found
  have member := List.mem_of_getElem? found
  simp [overwritingBody] at member

end Bodies

end Register
end TraceWasm
