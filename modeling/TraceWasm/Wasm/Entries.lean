import TraceWasm.Wasm.Layers
import TraceWasm.Wasm.LiveNesting
import TraceWasm.Wasm.WellNested

/-!
# What the frames of a body keep

A construct's frame keeps its arities and its height from the operator that opens
it to its `end`. In live code no frame is marked, and every construct was opened
live.
-/

namespace TraceWasm

open Nesting (openAt openAt_succ)

/-! ## What is known before a position -/

/-- What of a frame stays as it is up to the construct's `end`. -/
structure Entry where
  params : Nat
  results : Nat
  height : Nat
  deriving DecidableEq

/-- What a frame is opened with. -/
def Frame.entry (frame : Frame) : Entry := ⟨frame.params, frame.results, frame.height⟩

/-- The validator before a position of a body. -/
def Validator.before
    (mod : ModuleTypes) (func : FuncHeader) (ops : List Operator) (position : Nat) :
    Option Validator :=
  Validator.run mod func.localsCount func.results (.initial func.params func.results)
    (ops.take position)

/-- What the frame of a construct is opened with. -/
def entryOf
    (mod : ModuleTypes) (func : FuncHeader) (ops : List Operator) :
    Option Nat → Option Entry
  | none => some ⟨func.params, func.results, 0⟩
  | some opener =>
      ((Validator.before mod func ops (opener + 1)).bind (·.frames.head?)).map Frame.entry

/-- Whether a construct is opened in dead code. -/
def openedDeadOf (ops : List Operator) : Option Nat → Bool
  | none => false
  | some opener => (Liveness.after (ops.take opener)).dead

section Before

variable {mod : ModuleTypes} {func : FuncHeader} {ops : List Operator} {position : Nat}
  {v v' : Validator}

theorem Validator.before_of_succ
    (found : ops[position]? = some op)
    (ranNext : Validator.before mod func ops (position + 1) = some v') :
    ∃ v, Validator.before mod func ops position = some v ∧
      v.step mod func.localsCount func.results op = some v' := by
  unfold Validator.before Validator.run at ranNext
  rw [List.take_add_one, found, List.foldlM_append] at ranNext
  obtain ⟨v, ran, stepped⟩ := Option.bind_eq_some_iff.mp ranNext
  obtain ⟨last, accepted, same⟩ := Option.bind_eq_some_iff.mp stepped
  cases same
  exact ⟨v, ran, accepted⟩

/-- The validator is layered before every position. -/
theorem Validator.layered_before
    (ran : Validator.before mod func ops position = some v)
    (inside : position ≤ ops.length) :
    v.Layered := by
  induction position generalizing v with
  | zero =>
      cases ran
      exact ⟨le_rfl, trivial⟩
  | succ position inductionHypothesis =>
      have found := List.getElem?_eq_getElem (show position < ops.length from inside)
      obtain ⟨earlier, ranBefore, accepted⟩ := Validator.before_of_succ found ran
      exact (inductionHypothesis ranBefore (by omega)).step accepted

/-- The frames keep what they were opened with. -/
theorem entries_before
    (ran : Validator.before mod func ops position = some v)
    (inside : position ≤ ops.length) :
    List.Forall₂ (fun (construct : Construct) (frame : Frame) =>
        entryOf mod func ops construct.opener = some frame.entry)
      (openAt ops position) v.frames := by
  induction position generalizing v with
  | zero =>
      cases ran
      exact .cons rfl .nil
  | succ position inductionHypothesis =>
      have found := List.getElem?_eq_getElem (show position < ops.length from inside)
      obtain ⟨earlier, ranBefore, accepted⟩ := Validator.before_of_succ found ran
      have entries := inductionHypothesis ranBefore (by omega)
      have stepped := Validator.framesStep_of_step accepted
      rw [openAt_succ found]
      by_cases isElse : ops[position] = .elseOp
      · rw [isElse] at stepped ⊢
        obtain ⟨frame, outer, opened, _, rfl⟩ := stepped
        rw [opened] at entries
        obtain ⟨construct, rest, same, others, nesting⟩ :=
          List.forall₂_cons_right_iff.mp entries
        rw [nesting]
        exact .cons same others
      by_cases isEnd : ops[position] = .endOp
      · rw [isEnd] at stepped ⊢
        obtain ⟨frame, outer, opened, rfl⟩ := stepped
        rw [opened] at entries
        obtain ⟨construct, rest, _, others, nesting⟩ :=
          List.forall₂_cons_right_iff.mp entries
        rw [nesting]
        exact others
      cases opens : ops[position].opens with
      | true =>
          rw [Nesting.step_of_opens opens]
          obtain ⟨frame, opened⟩ : ∃ frame, v.frames = frame :: earlier.frames := by
            cases isOp : ops[position] <;> rw [isOp] at stepped opens <;>
              simp only [Operator.opens, Bool.false_eq_true] at opens
            all_goals
              obtain ⟨_, params, results, height, opened⟩ := stepped
              exact ⟨_, opened⟩
          rw [opened]
          refine .cons ?_ entries
          unfold entryOf
          dsimp only
          rw [ran, Option.bind_some, opened]
          rfl
      | false =>
          rw [Nesting.step_of_plain opens isElse isEnd]
          obtain ⟨frame, outer, opened, same | marked⟩ :
              ∃ frame outer, earlier.frames = frame :: outer ∧
                (v.frames = earlier.frames ∨
                  v.frames = Validator.markedFrames frame outer) := by
            cases isOp : ops[position] <;> rw [isOp] at stepped opens isElse isEnd <;>
              first
              | exact stepped
              | exact absurd rfl isElse
              | exact absurd rfl isEnd
              | simp only [Operator.opens, Bool.true_eq_false] at opens
          · rw [same]
            exact entries
          · rw [opened] at entries
            rw [marked]
            obtain ⟨construct, rest, first, others, nesting⟩ :=
              List.forall₂_cons_right_iff.mp entries
            rw [nesting]
            exact .cons first others

/-- A construct is open dead exactly if it was opened dead. -/
theorem openedDead_before (ops : List Operator) (position : Nat) :
    (openAt ops position).map (fun construct => openedDeadOf ops construct.opener) =
      (Liveness.after (ops.take position)).openedDead := by
  induction position with
  | zero => rfl
  | succ position inductionHypothesis =>
      cases found : ops[position]? with
      | none =>
          rw [List.take_add_one, found, Option.toList_none, List.append_nil]
          simpa [openAt, found] using inductionHypothesis
      | some op =>
          rw [Liveness.after_succ found, openAt_succ found]
          by_cases isElse : op = .elseOp
          · subst isElse
            refine Eq.trans ?_ inductionHypothesis
            change List.map _ (List.modifyHead _ (openAt ops position)) = _
            cases openAt ops position <;> rfl
          by_cases isEnd : op = .endOp
          · subst isEnd
            change List.map _ (List.tail _) = List.tail _
            rw [List.map_tail, inductionHypothesis]
          cases opens : op.opens with
          | true =>
              rw [Liveness.step_of_opens _ opens, Nesting.step_of_opens opens, List.map_cons,
                inductionHypothesis]
              rfl
          | false =>
              rw [Liveness.step_of_plain _ opens isElse isEnd,
                Nesting.step_of_plain opens isElse isEnd]
              exact inductionHypothesis

end Before

/-! ## Reachable frames -/

/-- A frame whose rest is live is not marked. The deadness between two operators is
that of the innermost frame, and how a construct was opened that of the one around
it. -/
def Unmarked (frames : List Frame) (l : Liveness) : Prop :=
  List.Forall₂ (fun (frame : Frame) (dead : Bool) => dead = false → frame.unreachable = false)
    frames (l.dead :: l.openedDead).dropLast

section Live

variable {mod : ModuleTypes} {func : FuncHeader} {ops : List Operator} {position : Nat}
  {v v' : Validator} {op : Operator}

/-- An operator that opens and closes nothing marks the innermost frame exactly if
control does not go on behind it. -/
theorem Validator.frames_of_plain
    {frame : Frame} {outer : List Frame} {localsCount results : Nat}
    (opened : v.frames = frame :: outer)
    (reachable : frame.unreachable = false)
    (layered : v.Layered)
    (accepted : v.step mod localsCount results op = some v')
    (opens : op.opens = false)
    (notElse : op ≠ .elseOp) (notEnd : op ≠ .endOp) :
    v'.frames = if op.diverges then Validator.markedFrames frame outer else v.frames := by
  have above : frame.height ≤ v.height := by
    unfold Validator.Layered at layered
    rw [opened] at layered
    exact layered.1
  have step := Validator.liveStep_of_step opened reachable above accepted
  have kept : ∀ {height : Nat}, v' = ⟨v.frames, height⟩ → v'.frames = v.frames :=
    fun {_} same => same ▸ rfl
  cases op with
  | localGet index => exact kept step.2
  | localSet index => exact kept step.2.2
  | localTee index => exact kept step.2.2
  | const value => exact kept step
  | data op => exact kept step.2
  | dataDrop index => exact kept step
  | nop => exact kept step
  | drop => exact kept step.2
  | br depth =>
      obtain ⟨_, _, _, same⟩ := step
      exact congrArg Validator.frames same
  | brIf depth =>
      obtain ⟨_, _, _, same⟩ := step
      exact kept same
  | brTable targets last =>
      obtain ⟨_, _, _, _, same⟩ := step
      exact congrArg Validator.frames same
  | returnOp => exact congrArg Validator.frames step.2
  | call func =>
      obtain ⟨_, _, _, same⟩ := step
      exact kept same
  | callIndirect type table =>
      obtain ⟨_, _, _, same⟩ := step
      exact kept same
  | unreachable => exact congrArg Validator.frames step
  | elseOp => exact absurd rfl notElse
  | endOp => exact absurd rfl notEnd
  | other op =>
      simp only [Validator.step, Option.ite_none_right_eq_some] at accepted
      obtain ⟨middle, popped, rest⟩ := Option.bind_eq_some_iff.mp accepted.2
      have frames := Validator.frames_popOperands popped
      change _ = if op.diverges then _ else _
      split at rest
      · rename_i diverges
        rw [if_pos diverges]
        exact congrArg Validator.frames
          (Validator.setUnreachable_live (frames.trans opened) rest)
      · rename_i continues
        rw [if_neg continues]
        cases rest
        exact frames
  | block blockty => cases opens
  | loop blockty => cases opens
  | ifOp blockty => cases opens
  | tryTable blockty debug => cases opens

theorem Unmarked.step
    {l : Liveness} {localsCount results : Nat}
    (unmarked : Unmarked v.frames l)
    (lengths : l.openedDead.length = v.frames.length)
    (layered : v.Layered)
    (accepted : v.step mod localsCount results op = some v') :
    Unmarked v'.frames (l.step op) := by
  have stepped := Validator.framesStep_of_step accepted
  obtain ⟨frame, outer, opened⟩ :=
    List.exists_cons_of_ne_nil (Validator.frames_ne_nil_of_step accepted)
  rw [opened, List.length_cons] at lengths
  obtain ⟨first, rest, isOpened⟩ := List.exists_cons_of_length_eq_add_one lengths
  unfold Unmarked at unmarked ⊢
  rw [opened, isOpened, List.dropLast_cons_cons] at unmarked
  cases unmarked with
  | cons head others =>
      by_cases isElse : op = .elseOp
      · subst isElse
        obtain ⟨_, _, isFrames, _, rfl⟩ := stepped
        rw [opened] at isFrames
        cases isFrames
        change List.Forall₂ _ _ (l.openedDead.headD true :: l.openedDead).dropLast
        rw [isOpened, List.dropLast_cons_cons]
        exact .cons (fun _ => rfl) others
      by_cases isEnd : op = .endOp
      · subst isEnd
        obtain ⟨_, _, isFrames, rfl⟩ := stepped
        rw [opened] at isFrames
        cases isFrames
        change List.Forall₂ _ _ (l.openedDead.headD true :: l.openedDead.tail).dropLast
        rw [isOpened]
        exact others
      cases opens : op.opens with
      | true =>
          rw [Liveness.step_of_opens l opens, isOpened, List.dropLast_cons_cons,
            List.dropLast_cons_cons]
          obtain ⟨new, isNew, fresh⟩ :
              ∃ new : Frame, v'.frames = new :: v.frames ∧ new.unreachable = false := by
            cases op <;> simp only [Operator.opens, Bool.false_eq_true] at opens
            all_goals
              obtain ⟨_, params, results, height, isNew⟩ := stepped
              exact ⟨_, isNew, rfl⟩
          rw [isNew, opened]
          exact .cons (fun _ => fresh) (.cons head others)
      | false =>
          rw [Liveness.step_of_plain l opens isElse isEnd, isOpened, List.dropLast_cons_cons]
          cases isDead : l.dead with
          | true =>
              -- marking the innermost frame says nothing new in dead code
              obtain ⟨_, _, isFrames, same | marked⟩ :
                  ∃ frame outer, v.frames = frame :: outer ∧
                    (v'.frames = v.frames ∨
                      v'.frames = Validator.markedFrames frame outer) := by
                cases op <;>
                  first
                  | exact stepped
                  | exact absurd rfl isElse
                  | exact absurd rfl isEnd
                  | simp only [Operator.opens, Bool.true_eq_false] at opens
              · rw [same, opened]
                exact .cons (fun live => by simp at live) others
              · rw [opened] at isFrames
                cases isFrames
                rw [marked]
                exact .cons (fun live => by simp at live) others
          | false =>
              rw [Validator.frames_of_plain opened (head isDead) layered accepted opens isElse
                isEnd]
              cases op.diverges with
              | true => exact .cons (fun live => by simp at live) others
              | false =>
                  rw [if_neg (by simp), opened]
                  exact .cons (fun _ => head isDead) others

/-- Frames are unmarked before every position. -/
theorem unmarked_before
    (ran : Validator.before mod func ops position = some v)
    (inside : position ≤ ops.length) :
    Unmarked v.frames (Liveness.after (ops.take position)) := by
  induction position generalizing v with
  | zero =>
      cases ran
      exact .cons (fun _ => rfl) .nil
  | succ position inductionHypothesis =>
      have found := List.getElem?_eq_getElem (show position < ops.length from inside)
      obtain ⟨earlier, ranBefore, accepted⟩ := Validator.before_of_succ found ran
      have frames := entries_before ranBefore (by omega)
      rw [Liveness.after_succ found]
      apply (inductionHypothesis ranBefore (by omega)).step _
        (Validator.layered_before ranBefore (by omega)) accepted
      rw [Liveness.length_openedDead]
      exact frames.length_eq

/-- In live code the innermost frame is reachable, and it was opened live. -/
theorem live_head
    (ran : Validator.before mod func ops position = some v)
    (inside : position ≤ ops.length)
    (opened : v.frames = frame :: outer)
    (live : (Liveness.after (ops.take position)).dead = false) :
    frame.unreachable = false ∧
      (Liveness.after (ops.take position)).openedDead.headD true = false := by
  have unmarked := unmarked_before ran inside
  have entries := entries_before ran inside
  have lengths := Liveness.length_openedDead ops position
  obtain ⟨above, below, isOpened, dead⟩ := Liveness.deadOnTop_after ops position
  have none : above = 0 := by
    by_contra some
    rw [dead some] at live
    cases live
  rw [entries.length_eq, opened, isOpened, none] at lengths
  unfold Unmarked at unmarked
  rw [opened, isOpened, none] at unmarked
  rw [isOpened, none]
  cases below with
  | zero => simp at lengths
  | succ below =>
      rw [List.replicate_zero, List.nil_append, List.replicate_succ, List.dropLast_cons_cons,
        List.forall₂_cons] at unmarked
      exact ⟨unmarked.1 live, rfl⟩

end Live

end TraceWasm
