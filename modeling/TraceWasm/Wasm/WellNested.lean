import Mathlib.Data.List.Forall2
import TraceWasm.Wasm.Nesting
import TraceWasm.Wasm.ValidatorSteps

/-!
# Validated bodies are well nested

The validator's frames are those of the open constructs.
-/

namespace TraceWasm

open Nesting (OneElse WellNested openAt openAt_succ)

/-- The frame is one that the construct's operators have made. -/
def FrameOf (ops : List Operator) (construct : Construct) (frame : Frame) : Prop :=
  match frame.kind with
  | .func => construct = ⟨none, none⟩
  | .block => ∃ opener blockty, construct = ⟨some opener, none⟩ ∧
      ops[opener]? = some (.block blockty)
  | .loop => ∃ opener blockty, construct = ⟨some opener, none⟩ ∧
      ops[opener]? = some (.loop blockty)
  | .ifThen => ∃ opener blockty, construct = ⟨some opener, none⟩ ∧
      ops[opener]? = some (.ifOp blockty)
  | .ifElse => ∃ opener blockty elseAt, construct = ⟨some opener, some elseAt⟩ ∧
      ops[opener]? = some (.ifOp blockty)
  | .tryTable => ∃ opener blockty debug, construct = ⟨some opener, none⟩ ∧
      ops[opener]? = some (.tryTable blockty debug)

/-- The validator's frames before a position are those of the open constructs. -/
abbrev FramesAt (ops : List Operator) (position : Nat) (v : Validator) : Prop :=
  List.Forall₂ (FrameOf ops) (openAt ops position) v.frames

section Frames

variable {mod : ModuleTypes} {localsCount results : Nat} {ops : List Operator}
  {position : Nat} {v v' : Validator}

/-- An accepted operator changes the frames as it changes the nesting. -/
theorem framesAt_succ
    (frames : FramesAt ops position v)
    (found : ops[position]? = some op)
    (accepted : v.step mod localsCount results op = some v') :
    FramesAt ops (position + 1) v' := by
  have stepped := Validator.framesStep_of_step accepted
  unfold FramesAt at frames ⊢
  rw [openAt_succ found]
  -- an operator that neither opens nor closes marks at most the innermost frame
  have plain : (∃ frame outer, v.frames = frame :: outer ∧
      (v'.frames = v.frames ∨ v'.frames = Validator.markedFrames frame outer)) →
      List.Forall₂ (FrameOf ops) (openAt ops position) v'.frames := by
    rintro ⟨frame, outer, isFrames, same | marked⟩
    · rw [same]
      exact frames
    · rw [isFrames] at frames
      rw [marked]
      obtain ⟨construct, rest, isFrame, areFrames, nesting⟩ :=
        List.forall₂_cons_right_iff.mp frames
      rw [nesting]
      exact .cons isFrame areFrames
  cases op with
  | block blockty =>
      obtain ⟨_, params, blockResults, height, isFrames⟩ := stepped
      rw [isFrames]
      exact .cons ⟨position, blockty, rfl, found⟩ frames
  | loop blockty =>
      obtain ⟨_, params, blockResults, height, isFrames⟩ := stepped
      rw [isFrames]
      exact .cons ⟨position, blockty, rfl, found⟩ frames
  | ifOp blockty =>
      obtain ⟨_, params, blockResults, height, isFrames⟩ := stepped
      rw [isFrames]
      exact .cons ⟨position, blockty, rfl, found⟩ frames
  | tryTable blockty debug =>
      obtain ⟨_, params, blockResults, height, isFrames⟩ := stepped
      rw [isFrames]
      exact .cons ⟨position, blockty, debug, rfl, found⟩ frames
  | elseOp =>
      obtain ⟨frame, outer, isFrames, kind, rfl⟩ := stepped
      rw [isFrames] at frames
      obtain ⟨construct, rest, isFrame, areFrames, nesting⟩ :=
        List.forall₂_cons_right_iff.mp frames
      unfold FrameOf at isFrame
      rw [kind] at isFrame
      obtain ⟨opener, blockty, rfl, isIf⟩ := isFrame
      rw [nesting]
      exact .cons ⟨opener, blockty, position, rfl, isIf⟩ areFrames
  | endOp =>
      obtain ⟨frame, outer, isFrames, rfl⟩ := stepped
      rw [isFrames] at frames
      obtain ⟨construct, rest, isFrame, areFrames, nesting⟩ :=
        List.forall₂_cons_right_iff.mp frames
      rw [nesting]
      exact areFrames
  | _ => exact plain stepped

/-- The frames of every state the validator passes through. -/
theorem framesAt_of_run
    (ran : Validator.run mod localsCount results (.initial params results)
      (ops.take position) = some v)
    (inside : position ≤ ops.length) :
    FramesAt ops position v := by
  induction position generalizing v with
  | zero =>
      cases ran
      exact .cons rfl .nil
  | succ position inductionHypothesis =>
      have found := List.getElem?_eq_getElem (show position < ops.length from inside)
      unfold Validator.run at ran
      rw [List.take_add_one, found, List.foldlM_append] at ran
      obtain ⟨middle, ranBefore, stepped⟩ := Option.bind_eq_some_iff.mp ran
      obtain ⟨last, accepted, same⟩ := Option.bind_eq_some_iff.mp stepped
      cases same
      exact framesAt_succ (inductionHypothesis ranBefore (by omega)) found accepted

end Frames

/-- The validator accepts every prefix of a body, and what comes next. -/
theorem Validates.step
    {mod : ModuleTypes} {func : FuncHeader} {ops : List Operator} {position : Nat}
    (validates : Validates mod func ops)
    (found : ops[position]? = some op) :
    ∃ v v', Validator.run mod func.localsCount func.results
        (.initial func.params func.results) (ops.take position) = some v ∧
      v.step mod func.localsCount func.results op = some v' ∧
      Validator.run mod func.localsCount func.results
        (.initial func.params func.results) (ops.take (position + 1)) = some v' := by
  obtain ⟨last, ran, _⟩ := validates
  have split : ops = ops.take (position + 1) ++ ops.drop (position + 1) :=
    (List.take_append_drop _ _).symm
  rw [split] at ran
  unfold Validator.run at ran ⊢
  rw [List.foldlM_append] at ran
  obtain ⟨v', ranNext, _⟩ := Option.bind_eq_some_iff.mp ran
  have ranTake := ranNext
  rw [List.take_add_one, found, List.foldlM_append] at ranTake
  obtain ⟨v, ranBefore, stepped⟩ := Option.bind_eq_some_iff.mp ranTake
  obtain ⟨middle, accepted, same⟩ := Option.bind_eq_some_iff.mp stepped
  cases same
  exact ⟨v, _, ranBefore, accepted, ranNext⟩

/-- A validated body is well nested. -/
theorem Validates.wellNested
    {mod : ModuleTypes} {func : FuncHeader} {ops : List Operator}
    (validates : Validates mod func ops) :
    WellNested ops where
  oneElse := by
    intro position construct isElse isHead
    obtain ⟨v, v', ran, accepted, _⟩ := validates.step isElse
    have below := (List.getElem?_eq_some_iff.mp isElse).1
    have frames := framesAt_of_run ran (Nat.le_of_lt below)
    obtain ⟨frame, outer, isFrames, kind, _⟩ := Validator.framesStep_of_step accepted
    unfold FramesAt at frames
    rw [isFrames] at frames
    obtain ⟨other, rest, isFrame, _, nesting⟩ := List.forall₂_cons_right_iff.mp frames
    rw [nesting] at isHead
    cases isHead
    unfold FrameOf at isFrame
    rw [kind] at isFrame
    obtain ⟨opener, blockty, rfl, _⟩ := isFrame
    rfl
  enclosed := by
    intro position below isNil
    obtain ⟨v, v', ran, accepted, _⟩ := validates.step (List.getElem?_eq_getElem below)
    have frames := framesAt_of_run ran (Nat.le_of_lt below)
    unfold FramesAt at frames
    rw [isNil] at frames
    exact Validator.frames_ne_nil_of_step accepted (List.forall₂_nil_left_iff.mp frames)
  closed := by
    obtain ⟨last, ran, isNil⟩ := validates
    have frames := @framesAt_of_run mod func.localsCount func.results ops ops.length last
      func.params (by rw [List.take_length]; exact ran) le_rfl
    unfold FramesAt at frames
    rw [isNil] at frames
    exact List.forall₂_nil_right_iff.mp frames

/-- The last operator of a body is its `end`. -/
theorem last_of_wellNested
    {ops : List Operator} (wellNested : WellNested ops) :
    ops[ops.length - 1]? = some .endOp := by
  have nonempty : 0 < ops.length := by
    rw [Nat.pos_iff_ne_zero]
    intro isEmpty
    have closed := wellNested.closed
    rw [isEmpty] at closed
    cases closed
  have inside : ops.length - 1 < ops.length := by omega
  have found := List.getElem?_eq_getElem inside
  have isOpen := wellNested.enclosed _ inside
  have closed := wellNested.closed
  rw [← Nat.sub_add_cancel (show 1 ≤ ops.length from nonempty), openAt_succ found] at closed
  by_contra notEnd
  rw [found, Option.some.injEq] at notEnd
  by_cases isElse : ops[ops.length - 1] = .elseOp
  · rw [isElse] at closed
    exact isOpen (List.modifyHead_eq_nil_iff.mp closed)
  cases opens : ops[ops.length - 1].opens with
  | true =>
      rw [Nesting.step_of_opens opens] at closed
      cases closed
  | false =>
      rw [Nesting.step_of_plain opens isElse notEnd] at closed
      exact isOpen closed

end TraceWasm
