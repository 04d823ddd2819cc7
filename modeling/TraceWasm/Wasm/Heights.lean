import TraceWasm.Wasm.Entries

/-!
# The operand heights of a validated body

The validator knows with how many operands control arrives at every position
that it can arrive at. What a construct was opened with tells what a branch to it
has to leave.
-/

namespace TraceWasm

open Nesting (EndsAt InnermostAt openAt)

/-- With how many operands control arrives at an operator, if it does. What comes
before an `else` or `end` leaves the results of the construct, whether it falls
through or branches. -/
def Validator.arrival (v : Validator) : Operator → Nat
  | .elseOp => v.frames.head?.elim 0 fun frame => frame.height + frame.results
  | .endOp => v.frames.head?.elim 0 fun frame => frame.height + frame.results
  | _ => v.height

/-- With how many operands control arrives at a position, the one behind the body
included. `none` is a position that is dead. -/
def heights
    (mod : ModuleTypes) (func : FuncHeader) (ops : List Operator) (position : Nat) :
    Option Nat :=
  match ops[position]? with
  | some op =>
      if (Liveness.after (ops.take position)).deadAt op then none
      else (Validator.before mod func ops position).map (·.arrival op)
  | none => if position = ops.length then some func.results else none

section Live

variable {mod : ModuleTypes} {func : FuncHeader} {ops : List Operator} {position : Nat}
  {v v' : Validator} {op : Operator}

/-- Control arrives in live code with the operands that the validator has. -/
theorem heights_of_live
    (validates : Validates mod func ops)
    (inside : position < ops.length)
    (ran : Validator.before mod func ops position = some v)
    (live : (Liveness.after (ops.take position)).dead = false) :
    heights mod func ops position = some v.height := by
  have found := List.getElem?_eq_getElem inside
  obtain ⟨same, v', ranSame, accepted, _⟩ := validates.step found
  obtain rfl : same = v := Option.some.inj (ranSame.symm.trans ran)
  obtain ⟨frame, outer, opened⟩ :=
    List.exists_cons_of_ne_nil (Validator.frames_ne_nil_of_step accepted)
  obtain ⟨reachable, openedLive⟩ := live_head ran (Nat.le_of_lt inside) opened live
  have layered := Validator.layered_before ran (Nat.le_of_lt inside)
  unfold Validator.Layered at layered
  rw [opened] at layered
  have step := Validator.liveStep_of_step opened reachable layered.1 accepted
  have arrives : same.arrival ops[position] = same.height := by
    cases isOp : ops[position] <;> rw [isOp] at step <;>
      first
      | rfl
      | (unfold Validator.arrival
         rw [opened]
         exact step.symm)
  have notDead : (Liveness.after (ops.take position)).deadAt ops[position] = false := by
    cases isOp : ops[position] <;> first | exact live | exact openedLive
  unfold heights
  rw [found]
  dsimp only
  rw [if_neg (by simp [notDead]), ran, Option.map_some, arrives]

/-- What the validator has at the `end` of a construct that was opened live. -/
theorem heights_of_end
    {opener : Option Nat} {entry : Entry}
    (validates : Validates mod func ops)
    (ends : EndsAt ops opener position)
    (isEntry : entryOf mod func ops opener = some entry)
    (openedLive : openedDeadOf ops opener = false) :
    heights mod func ops position = some (entry.height + entry.results) := by
  obtain ⟨found, innermost⟩ := ends
  have inside := (List.getElem?_eq_some_iff.mp found).1
  obtain ⟨v, _, ran, _, _⟩ := validates.step found
  have entries := entries_before ran (Nat.le_of_lt inside)
  have deads := openedDead_before ops position
  unfold InnermostAt at innermost
  cases nesting : openAt ops position with
  | nil => simp [nesting] at innermost
  | cons construct rest =>
      rw [nesting] at entries deads innermost
      cases innermost
      obtain ⟨frame, outer, same, _, opened⟩ := List.forall₂_cons_left_iff.mp entries
      rw [isEntry, Option.some.injEq] at same
      subst same
      have notDead : (Liveness.after (ops.take position)).deadAt .endOp = false := by
        unfold Liveness.deadAt
        dsimp only
        rw [← deads]
        exact openedLive
      unfold heights
      rw [found]
      dsimp only
      change (Validator.before mod func ops position) = some v at ran
      rw [if_neg (by simp [notDead]), ran]
      unfold Validator.arrival
      rw [Option.map_some, opened]
      rfl

/-- A body that has ended leaves the function's results. -/
theorem heights_length : heights mod func ops ops.length = some func.results := by
  unfold heights
  rw [List.getElem?_eq_none le_rfl]
  exact if_pos rfl

theorem le_of_heights
    {height : Nat}
    (arrives : heights mod func ops position = some height) :
    position ≤ ops.length := by
  by_contra outside
  unfold heights at arrives
  rw [List.getElem?_eq_none (by omega)] at arrives
  dsimp only at arrives
  rw [if_neg (by omega)] at arrives
  cases arrives

end Live

/-! ## Where control goes on -/

section Onward

open Nesting (BranchesTo ElseAt IsLoop)

variable {mod : ModuleTypes} {func : FuncHeader} {ops : List Operator} {position : Nat}
  {v v' : Validator} {op : Operator}

/-- A body goes on as long as a frame is open. -/
theorem Validates.inside_of_frames
    (validates : Validates mod func ops)
    (ran : Validator.before mod func ops position = some v)
    (inside : position ≤ ops.length)
    (opened : v.frames ≠ []) :
    position < ops.length := by
  obtain ⟨last, ranAll, closed⟩ := validates
  by_contra outside
  obtain rfl : position = ops.length := by omega
  unfold Validator.before at ran
  rw [List.take_length, ranAll] at ran
  cases ran
  exact opened closed

/-- Once the function's frame is closed the body ends. -/
theorem Validates.length_of_closed
    (validates : Validates mod func ops)
    (ran : Validator.before mod func ops position = some v)
    (inside : position ≤ ops.length)
    (closed : v.frames = []) :
    position = ops.length := by
  by_contra notLast
  obtain ⟨same, v', ranSame, accepted, _⟩ :=
    validates.step (List.getElem?_eq_getElem (show position < ops.length by omega))
  obtain rfl : same = v := Option.some.inj (ranSame.symm.trans ran)
  exact Validator.frames_ne_nil_of_step accepted closed

/-- Code is live behind a live operator that control goes on from. -/
theorem heights_succ
    (validates : Validates mod func ops)
    (found : ops[position]? = some op)
    (ranNext : Validator.before mod func ops (position + 1) = some v')
    (live : (Liveness.after (ops.take position)).dead = false)
    (goesOn : op.diverges = false)
    (notElse : op ≠ .elseOp) (notEnd : op ≠ .endOp) :
    heights mod func ops (position + 1) = some v'.height := by
  obtain ⟨v, ran, accepted⟩ := Validator.before_of_succ found ranNext
  have inside := (List.getElem?_eq_some_iff.mp found).1
  have stepped := Validator.framesStep_of_step accepted
  have opened : v'.frames ≠ [] := by
    cases opens : op.opens with
    | true =>
        cases op <;> simp only [Operator.opens, Bool.false_eq_true] at opens
        all_goals
          obtain ⟨_, _, _, _, isNew⟩ := stepped
          rw [isNew]
          exact List.cons_ne_nil _ _
    | false =>
        obtain ⟨frame, outer, opened⟩ :=
          List.exists_cons_of_ne_nil (Validator.frames_ne_nil_of_step accepted)
        rw [Validator.frames_of_plain opened (live_head ran (Nat.le_of_lt inside) opened live).1
          (Validator.layered_before ran (Nat.le_of_lt inside)) accepted opens notElse notEnd,
          goesOn, if_neg (by simp), opened]
        exact List.cons_ne_nil _ _
  apply heights_of_live validates (validates.inside_of_frames ranNext inside opened) ranNext
  rw [Liveness.after_succ found]
  cases opens : op.opens with
  | true =>
      rw [Liveness.step_of_opens _ opens]
      exact live
  | false =>
      rw [Liveness.step_of_plain _ opens notElse notEnd, live, goesOn]
      rfl

/-- Every construct around live code was opened live. -/
theorem openedLive_of_mem
    {construct : Construct}
    (live : (Liveness.after (ops.take position)).dead = false)
    (member : construct ∈ openAt ops position) :
    openedDeadOf ops construct.opener = false := by
  have inList : openedDeadOf ops construct.opener ∈
      (Liveness.after (ops.take position)).openedDead := by
    rw [← openedDead_before]
    exact List.mem_map_of_mem member
  obtain ⟨above, below, isOpened, dead⟩ := Liveness.deadOnTop_after ops position
  have none : above = 0 := by
    by_contra some
    rw [dead some] at live
    cases live
  rw [isOpened, none, List.replicate_zero, List.nil_append] at inList
  exact List.eq_of_mem_replicate inList

/-- The frame of a construct is a loop's exactly if the construct is a loop. -/
theorem FrameOf.isLoop_iff
    {construct : Construct} {frame : Frame}
    (isFrame : FrameOf ops construct frame) :
    IsLoop ops construct.opener ↔ frame.kind = .loop := by
  unfold FrameOf at isFrame
  have other : ∀ {opener : Nat} {op : Operator}, ops[opener]? = some op →
      (∀ blockty, op ≠ .loop blockty) → ¬IsLoop ops (some opener) := by
    rintro opener op isOp notLoop ⟨position, blockty, same, isLoop⟩
    cases same
    rw [isOp] at isLoop
    exact notLoop blockty (Option.some.inj isLoop)
  cases kind : frame.kind <;> rw [kind] at isFrame <;> dsimp only at isFrame
  case func =>
    subst isFrame
    simp [IsLoop]
  case loop =>
    obtain ⟨opener, blockty, rfl, isLoop⟩ := isFrame
    exact ⟨fun _ => rfl, fun _ => ⟨opener, blockty, rfl, isLoop⟩⟩
  case block =>
    obtain ⟨opener, blockty, rfl, isOp⟩ := isFrame
    exact ⟨fun isLoop => (other isOp (by simp) isLoop).elim, by simp⟩
  case ifThen =>
    obtain ⟨opener, blockty, rfl, isOp⟩ := isFrame
    exact ⟨fun isLoop => (other isOp (by simp) isLoop).elim, by simp⟩
  case ifElse =>
    obtain ⟨opener, blockty, _, rfl, isOp⟩ := isFrame
    exact ⟨fun isLoop => (other isOp (by simp) isLoop).elim, by simp⟩
  case tryTable =>
    obtain ⟨opener, blockty, _, rfl, isOp⟩ := isFrame
    exact ⟨fun isLoop => (other isOp (by simp) isLoop).elim, by simp⟩

/-- A loop starts with its parameters on top of what its frame is opened above. -/
theorem heights_of_loop
    {opener : Nat} {blockty : BlockType} {entry : Entry}
    (validates : Validates mod func ops)
    (isLoop : ops[opener]? = some (.loop blockty))
    (isEntry : entryOf mod func ops (some opener) = some entry)
    (live : (Liveness.after (ops.take opener)).dead = false) :
    heights mod func ops opener = some (entry.height + entry.params) := by
  have inside := (List.getElem?_eq_some_iff.mp isLoop).1
  obtain ⟨v, v', ran, accepted, ranNext⟩ := validates.step isLoop
  obtain ⟨frame, outer, opened⟩ :=
    List.exists_cons_of_ne_nil (Validator.frames_ne_nil_of_step accepted)
  have layered := Validator.layered_before ran (Nat.le_of_lt inside)
  unfold Validator.Layered at layered
  rw [opened] at layered
  obtain ⟨params, results, _, enough, rfl⟩ := Validator.liveStep_of_step opened
    (live_head ran (Nat.le_of_lt inside) opened live).1 layered.1 accepted
  change Validator.before mod func ops (opener + 1) = _ at ranNext
  unfold entryOf at isEntry
  dsimp only at isEntry
  rw [ranNext] at isEntry
  cases isEntry
  rw [heights_of_live validates inside ran live]
  change some v.height = some (v.height - params + params)
  rw [Nat.sub_add_cancel (by omega)]

/-- A branch arrives with what its label carries, on top of what the label's frame
is opened above. -/
theorem heights_of_branch
    {relativeDepth target : Nat} {frame : Frame}
    (validates : Validates mod func ops)
    (inside : position < ops.length)
    (ran : Validator.before mod func ops position = some v)
    (live : (Liveness.after (ops.take position)).dead = false)
    (isFrame : v.frames[relativeDepth]? = some frame)
    (branches : BranchesTo ops position relativeDepth target) :
    heights mod func ops target = some (frame.height + frame.labelArity) := by
  obtain ⟨construct, isOpen, leads⟩ := branches
  have entries := entries_before ran (Nat.le_of_lt inside)
  have frames : FramesAt ops position v := framesAt_of_run ran (Nat.le_of_lt inside)
  obtain ⟨isInside, isConstruct⟩ := List.getElem?_eq_some_iff.mp isOpen
  obtain ⟨isBelow, same⟩ := List.getElem?_eq_some_iff.mp isFrame
  have isEntry := (List.forall₂_iff_get.mp entries).2 relativeDepth isInside isBelow
  have isOf := (List.forall₂_iff_get.mp frames).2 relativeDepth isInside isBelow
  simp only [List.get_eq_getElem, isConstruct, same] at isEntry isOf
  have openedLive := openedLive_of_mem live (List.mem_of_getElem? isOpen)
  have loops := isOf.isLoop_iff
  unfold Frame.labelArity
  rcases leads with ⟨isLoop, isOpener⟩ | ⟨notLoop, ends⟩
  · rw [if_pos (loops.mp isLoop)]
    obtain ⟨opener, blockty, isHere, isOp⟩ := isLoop
    rw [isHere] at isOpener isEntry openedLive
    cases isOpener
    exact heights_of_loop validates isOp isEntry openedLive
  · rw [if_neg (mt loops.mpr notLoop)]
    exact heights_of_end validates ends isEntry openedLive

/-- What an `if` is opened with. -/
theorem entryOf_if
    {blockty : BlockType}
    (validates : Validates mod func ops)
    (isIf : ops[position]? = some (.ifOp blockty))
    (ran : Validator.before mod func ops position = some v)
    (live : (Liveness.after (ops.take position)).dead = false) :
    ∃ entry, entryOf mod func ops (some position) = some entry ∧
      entry.height + entry.params + 1 = v.height := by
  have inside := (List.getElem?_eq_some_iff.mp isIf).1
  obtain ⟨same, v', ranSame, accepted, ranNext⟩ := validates.step isIf
  obtain rfl : same = v := Option.some.inj (ranSame.symm.trans ran)
  obtain ⟨frame, outer, opened⟩ :=
    List.exists_cons_of_ne_nil (Validator.frames_ne_nil_of_step accepted)
  have layered := Validator.layered_before ran (Nat.le_of_lt inside)
  unfold Validator.Layered at layered
  rw [opened] at layered
  obtain ⟨params, results, _, enough, rfl⟩ := Validator.liveStep_of_step opened
    (live_head ran (Nat.le_of_lt inside) opened live).1 layered.1 accepted
  change Validator.before mod func ops (position + 1) = _ at ranNext
  refine ⟨⟨params, results, same.height - params - 1⟩, ?_, ?_⟩
  · unfold entryOf
    dsimp only
    rw [ranNext]
    rfl
  · dsimp only
    omega

/-- A false `if` enters its `else` arm without the condition. -/
theorem heights_of_elseArm
    {opener elseAt : Nat} {entry : Entry}
    (validates : Validates mod func ops)
    (isElse : ElseAt ops (some opener) elseAt)
    (isEntry : entryOf mod func ops (some opener) = some entry)
    (live : (Liveness.after (ops.take opener)).dead = false) :
    heights mod func ops (elseAt + 1) = some (entry.height + entry.params) := by
  obtain ⟨found, innermost⟩ := isElse
  have inside := (List.getElem?_eq_some_iff.mp found).1
  obtain ⟨v, v', ran, accepted, ranNext⟩ := validates.step found
  obtain ⟨frame, outer, opened, _, rfl⟩ := Validator.framesStep_of_step accepted
  have entries := entries_before ran (Nat.le_of_lt inside)
  have deads := openedDead_before ops elseAt
  unfold InnermostAt at innermost
  rw [opened] at entries
  obtain ⟨construct, rest, same, _, nesting⟩ := List.forall₂_cons_right_iff.mp entries
  rw [nesting] at innermost deads
  rw [List.head?_cons, Option.map_some, Option.some.injEq] at innermost
  rw [innermost, isEntry, Option.some.injEq] at same
  subst same
  apply heights_of_live validates
    (validates.inside_of_frames ranNext inside (List.cons_ne_nil _ _)) ranNext
  rw [Liveness.after_succ found]
  unfold Liveness.step
  dsimp only
  rw [← deads, List.map_cons, innermost]
  exact live

/-- An `if` without an `else` passes its parameters on. -/
theorem heights_of_noElse
    {opener last : Nat} {blockty : BlockType} {entry : Entry}
    (validates : Validates mod func ops)
    (isIf : ops[opener]? = some (.ifOp blockty))
    (noElse : ∀ elseAt, ¬ElseAt ops (some opener) elseAt)
    (ends : EndsAt ops (some opener) last)
    (isEntry : entryOf mod func ops (some opener) = some entry)
    (live : (Liveness.after (ops.take opener)).dead = false) :
    heights mod func ops last = some (entry.height + entry.params) := by
  rw [heights_of_end validates ends isEntry live]
  obtain ⟨found, innermost⟩ := ends
  have inside := (List.getElem?_eq_some_iff.mp found).1
  obtain ⟨v, v', ran, accepted, _⟩ := validates.step found
  have frames : FramesAt ops last v := framesAt_of_run ran (Nat.le_of_lt inside)
  have entries := entries_before ran (Nat.le_of_lt inside)
  obtain ⟨⟨frame, middle⟩, popped, closes⟩ := Option.bind_eq_some_iff.mp accepted
  obtain ⟨outer, opened, _⟩ := Validator.popFrame_eq popped
  unfold FramesAt at frames
  rw [opened] at frames entries
  obtain ⟨construct, rest, isOf, _, nesting⟩ := List.forall₂_cons_right_iff.mp frames
  rw [nesting] at entries
  have same := (List.forall₂_cons.mp entries).1
  have isHead := innermost
  unfold InnermostAt at isHead
  rw [nesting, List.head?_cons, Option.map_some, Option.some.injEq] at isHead
  rw [isHead, isEntry, Option.some.injEq] at same
  subst same
  -- what no `else` has turned over is still the `if`'s first arm
  have isThen : frame.kind = .ifThen := by
    have member : construct ∈ openAt ops last := nesting ▸ List.mem_cons_self
    unfold FrameOf at isOf
    cases kind : frame.kind <;> rw [kind] at isOf <;> dsimp only at isOf
    case func =>
      subst isOf
      cases isHead
    case ifElse =>
      obtain ⟨_, _, elseAt, rfl, _⟩ := isOf
      have isElse := (Nesting.elseAt_of_mem member).2 elseAt rfl
      exact (noElse elseAt (isHead ▸ isElse)).elim
    case block =>
      obtain ⟨_, _, rfl, isOp⟩ := isOf
      cases isHead
      simp [isIf] at isOp
    case loop =>
      obtain ⟨_, _, rfl, isOp⟩ := isOf
      cases isHead
      simp [isIf] at isOp
    case tryTable =>
      obtain ⟨_, _, _, rfl, isOp⟩ := isOf
      cases isHead
      simp [isIf] at isOp
  simp only [Option.ite_none_left_eq_some, not_and, not_not] at closes
  exact congrArg (fun count => some (frame.height + count)) (closes.1 isThen).symm

end Onward

end TraceWasm
