import TraceWasm.Wasm.Validation

/-!
# What a step of the validator does

In a reachable frame the operands an operator pops are there. In any frame an
operator opens a frame, closes one, turns an `if` over to its `else`, or leaves
all frames but at most the reachability of the innermost one.
-/

namespace TraceWasm

namespace Validator

variable {v v' : Validator}

theorem frames_popOperand
    (popped : v.popOperand = some v') : v'.frames = v.frames := by
  unfold popOperand at popped
  cases frames : v.frames with
  | nil => simp [frames] at popped
  | cons frame rest =>
      rw [frames] at popped
      dsimp only at popped
      split at popped
      · cases popped
        rfl
      · split at popped
        · cases popped
          exact frames
        · cases popped

theorem frames_popOperands
    (popped : v.popOperands count = some v') : v'.frames = v.frames := by
  induction count generalizing v with
  | zero =>
      cases popped
      rfl
  | succ count inductionHypothesis =>
      obtain ⟨middle, first, rest⟩ := Option.bind_eq_some_iff.mp popped
      rw [inductionHypothesis rest, frames_popOperand first]

/-- In a reachable frame an operand has to be there. -/
theorem popOperand_eq
    (opened : v.frames = frame :: outer)
    (reachable : frame.unreachable = false)
    (popped : v.popOperand = some v') :
    frame.height < v.height ∧ v'.height = v.height - 1 := by
  unfold popOperand at popped
  rw [opened] at popped
  dsimp only at popped
  split at popped
  · rename_i above
    cases popped
    exact ⟨above, rfl⟩
  · rw [reachable] at popped
    cases popped

theorem popOperands_eq
    (opened : v.frames = frame :: outer)
    (reachable : frame.unreachable = false)
    (above : frame.height ≤ v.height)
    (popped : v.popOperands count = some v') :
    frame.height + count ≤ v.height ∧ v'.height = v.height - count := by
  induction count generalizing v with
  | zero =>
      cases popped
      exact ⟨above, rfl⟩
  | succ count inductionHypothesis =>
      obtain ⟨middle, first, rest⟩ := Option.bind_eq_some_iff.mp popped
      obtain ⟨enough, height⟩ := popOperand_eq opened reachable first
      obtain ⟨enoughRest, heightRest⟩ := inductionHypothesis
        ((frames_popOperand first).trans opened) (by omega) rest
      exact ⟨by omega, by omega⟩

/-- Marking the innermost frame unreachable changes no other. -/
theorem setUnreachable_eq
    (marked : v.setUnreachable = some v') :
    ∃ frame outer, v.frames = frame :: outer ∧
      v'.frames = { frame with unreachable := true } :: outer := by
  unfold setUnreachable at marked
  cases frames : v.frames with
  | nil => simp [frames] at marked
  | cons frame outer =>
      rw [frames] at marked
      cases marked
      exact ⟨frame, outer, rfl, rfl⟩

/-- Closing the innermost frame leaves the operands below it. -/
theorem popFrame_eq
    (popped : v.popFrame = some (frame, v')) :
    ∃ outer, v.frames = frame :: outer ∧ v'.frames = outer ∧
      v'.height = frame.height ∧
      ∃ middle, v.popOperands frame.results = some middle ∧
        middle.height = frame.height := by
  unfold popFrame at popped
  cases frames : v.frames with
  | nil => simp [frames] at popped
  | cons head rest =>
      rw [frames] at popped
      obtain ⟨middle, results, checked⟩ := Option.bind_eq_some_iff.mp popped
      split at checked
      · rename_i height
        cases checked
        exact ⟨rest, rfl, rfl, height, middle, results, height⟩
      · cases checked

theorem pushFrame_eq
    (pushed : v.pushFrame kind params results = some v') :
    ∃ middle, v.popOperands params = some middle ∧
      v' = ⟨⟨kind, params, results, middle.height, false⟩ :: middle.frames,
        middle.height + params⟩ := by
  obtain ⟨middle, popped, rest⟩ := Option.bind_eq_some_iff.mp pushed
  cases rest
  exact ⟨middle, popped, rfl⟩

/-! ## Live steps -/

/-- The frames once the rest of the innermost one is unreachable. -/
def markedFrames (frame : Frame) (outer : List Frame) : List Frame :=
  { frame with unreachable := true } :: outer

/-- What a step does in a reachable frame. -/
def LiveStep
    (mod : ModuleTypes) (localsCount results : Nat)
    (v : Validator) (frame : Frame) (outer : List Frame) (v' : Validator) :
    Operator → Prop
  | .localGet index => index < localsCount ∧ v' = ⟨v.frames, v.height + 1⟩
  | .localSet index => index < localsCount ∧ frame.height + 1 ≤ v.height ∧
      v' = ⟨v.frames, v.height - 1⟩
  | .localTee index => index < localsCount ∧ frame.height + 1 ≤ v.height ∧
      v' = ⟨v.frames, v.height⟩
  | .const _ => v' = ⟨v.frames, v.height + 1⟩
  | .data op => frame.height + op.inputs ≤ v.height ∧
      v' = ⟨v.frames, v.height - op.inputs + op.outputs⟩
  | .dataDrop _ => v' = v
  | .nop => v' = v
  | .drop => frame.height + 1 ≤ v.height ∧ v' = ⟨v.frames, v.height - 1⟩
  | .block blockty => ∃ params blockResults,
      paramsAndResultsFromBlockty mod.types blockty = some (params, blockResults) ∧
      frame.height + params ≤ v.height ∧
      v' = ⟨⟨.block, params, blockResults, v.height - params, false⟩ :: v.frames,
        v.height⟩
  | .loop blockty => ∃ params blockResults,
      paramsAndResultsFromBlockty mod.types blockty = some (params, blockResults) ∧
      frame.height + params ≤ v.height ∧
      v' = ⟨⟨.loop, params, blockResults, v.height - params, false⟩ :: v.frames,
        v.height⟩
  | .ifOp blockty => ∃ params blockResults,
      paramsAndResultsFromBlockty mod.types blockty = some (params, blockResults) ∧
      frame.height + params + 1 ≤ v.height ∧
      v' = ⟨⟨.ifThen, params, blockResults, v.height - params - 1, false⟩ ::
        v.frames, v.height - 1⟩
  | .elseOp => v.height = frame.height + frame.results
  | .endOp => v.height = frame.height + frame.results
  | .br depth => ∃ target, v.frames[depth]? = some target ∧
      frame.height + target.labelArity ≤ v.height ∧
      v' = ⟨markedFrames frame outer, frame.height⟩
  | .brIf depth => ∃ target, v.frames[depth]? = some target ∧
      frame.height + target.labelArity + 1 ≤ v.height ∧
      v' = ⟨v.frames, v.height - 1⟩
  | .brTable targets default => ∃ target, v.frames[default]? = some target ∧
      (∀ depth ∈ targets, ∃ other, v.frames[depth]? = some other ∧
        other.labelArity = target.labelArity) ∧
      frame.height + target.labelArity + 1 ≤ v.height ∧
      v' = ⟨markedFrames frame outer, frame.height⟩
  | .returnOp => frame.height + results ≤ v.height ∧
      v' = ⟨markedFrames frame outer, frame.height⟩
  | .call func => ∃ ty, mod.funcType func = some ty ∧
      frame.height + ty.params.length ≤ v.height ∧
      v' = ⟨v.frames, v.height - ty.params.length + ty.results.length⟩
  | .callIndirect type _ => ∃ ty, mod.types[type]? = some ty ∧
      frame.height + ty.params.length + 1 ≤ v.height ∧
      v' = ⟨v.frames, v.height - 1 - ty.params.length + ty.results.length⟩
  | .unreachable => v' = ⟨markedFrames frame outer, frame.height⟩
  | .tryTable _ _ => True
  | .other _ => True

section Live

variable {frame : Frame} {outer : List Frame}

theorem popOperand_live
    (opened : v.frames = frame :: outer)
    (reachable : frame.unreachable = false)
    (popped : v.popOperand = some v') :
    frame.height + 1 ≤ v.height ∧ v' = ⟨v.frames, v.height - 1⟩ := by
  obtain ⟨enough, height⟩ := popOperand_eq opened reachable popped
  refine ⟨enough, ?_⟩
  rw [← height, ← frames_popOperand popped]

theorem popOperands_live
    (opened : v.frames = frame :: outer)
    (reachable : frame.unreachable = false)
    (above : frame.height ≤ v.height)
    (popped : v.popOperands count = some v') :
    frame.height + count ≤ v.height ∧ v' = ⟨v.frames, v.height - count⟩ := by
  obtain ⟨enough, height⟩ := popOperands_eq opened reachable above popped
  refine ⟨enough, ?_⟩
  rw [← height, ← frames_popOperands popped]

theorem setUnreachable_live
    (opened : v.frames = frame :: outer)
    (marked : v.setUnreachable = some v') :
    v' = ⟨markedFrames frame outer, frame.height⟩ := by
  unfold setUnreachable at marked
  rw [opened] at marked
  cases marked
  rfl

theorem pushFrame_live
    (opened : v.frames = frame :: outer)
    (reachable : frame.unreachable = false)
    (above : frame.height ≤ v.height)
    (pushed : v.pushFrame kind params results = some v') :
    frame.height + params ≤ v.height ∧
      v' = ⟨⟨kind, params, results, v.height - params, false⟩ :: v.frames,
        v.height⟩ := by
  obtain ⟨middle, popped, rfl⟩ := pushFrame_eq pushed
  obtain ⟨enough, rfl⟩ := popOperands_live opened reachable above popped
  refine ⟨enough, ?_⟩
  dsimp only
  rw [Nat.sub_add_cancel (by omega)]

theorem popFrame_live
    (opened : v.frames = frame :: outer)
    (reachable : frame.unreachable = false)
    (above : frame.height ≤ v.height)
    (popped : v.popFrame = some result) :
    v.height = frame.height + frame.results := by
  obtain ⟨other, v'⟩ := result
  obtain ⟨outerFrames, isHead, _, _, middle, results, height⟩ := popFrame_eq popped
  rw [opened] at isHead
  cases isHead
  obtain ⟨enough, heightMiddle⟩ := popOperands_eq opened reachable above results
  omega

/-- Every accepted operator does in a reachable frame what `LiveStep` says. -/
theorem liveStep_of_step
    {mod : ModuleTypes} {localsCount results : Nat}
    (opened : v.frames = frame :: outer)
    (reachable : frame.unreachable = false)
    (above : frame.height ≤ v.height)
    (accepted : v.step mod localsCount results op = some v') :
    LiveStep mod localsCount results v frame outer v' op := by
  cases op with
  | localGet index =>
      simp only [step, Option.ite_none_right_eq_some, Option.some.injEq] at accepted
      obtain ⟨⟨below, _⟩, rfl⟩ := accepted
      exact ⟨below, rfl⟩
  | localSet index =>
      simp only [step, Option.ite_none_right_eq_some] at accepted
      obtain ⟨below, popped⟩ := accepted
      exact ⟨below, popOperand_live opened reachable popped⟩
  | localTee index =>
      simp only [step, Option.ite_none_right_eq_some] at accepted
      obtain ⟨below, rest⟩ := accepted
      obtain ⟨middle, popped, pushed⟩ := Option.bind_eq_some_iff.mp rest
      obtain ⟨enough, rfl⟩ := popOperand_live opened reachable popped
      cases pushed
      refine ⟨below, enough, ?_⟩
      unfold pushOperands
      dsimp only
      rw [Nat.sub_add_cancel (by omega)]
  | const value =>
      simp only [step, Option.ite_none_right_eq_some, Option.some.injEq] at accepted
      exact accepted.2.symm
  | data op =>
      simp only [step, Option.ite_none_right_eq_some] at accepted
      obtain ⟨_, rest⟩ := accepted
      obtain ⟨middle, popped, pushed⟩ := Option.bind_eq_some_iff.mp rest
      obtain ⟨enough, rfl⟩ := popOperands_live opened reachable above popped
      cases pushed
      exact ⟨enough, rfl⟩
  | dataDrop index =>
      simp only [step, Option.ite_none_right_eq_some, Option.some.injEq] at accepted
      exact accepted.2.symm
  | nop =>
      simp only [step, Option.ite_none_right_eq_some, Option.some.injEq] at accepted
      exact accepted.2.symm
  | drop => exact popOperand_live opened reachable accepted
  | block blockty =>
      obtain ⟨⟨params, blockResults⟩, arities, rest⟩ :=
        Option.bind_eq_some_iff.mp accepted
      simp only [Option.ite_none_right_eq_some] at rest
      exact ⟨params, blockResults, arities,
        pushFrame_live opened reachable above rest.2⟩
  | loop blockty =>
      obtain ⟨⟨params, blockResults⟩, arities, rest⟩ :=
        Option.bind_eq_some_iff.mp accepted
      simp only [Option.ite_none_right_eq_some] at rest
      exact ⟨params, blockResults, arities,
        pushFrame_live opened reachable above rest.2⟩
  | ifOp blockty =>
      obtain ⟨⟨params, blockResults⟩, arities, rest⟩ :=
        Option.bind_eq_some_iff.mp accepted
      obtain ⟨middle, popped, pushed⟩ := Option.bind_eq_some_iff.mp rest
      obtain ⟨enough, rfl⟩ := popOperand_live opened reachable popped
      obtain ⟨enoughRest, rfl⟩ := pushFrame_live (v := ⟨v.frames, v.height - 1⟩) opened
        reachable (Nat.le_sub_of_add_le enough) pushed
      refine ⟨params, blockResults, arities, ?_, ?_⟩
      · dsimp only at enoughRest
        omega
      · dsimp only
        rw [Nat.sub_right_comm]
  | elseOp =>
      obtain ⟨result, popped, _⟩ := Option.bind_eq_some_iff.mp accepted
      exact popFrame_live opened reachable above popped
  | endOp =>
      obtain ⟨result, popped, _⟩ := Option.bind_eq_some_iff.mp accepted
      exact popFrame_live opened reachable above popped
  | br depth =>
      obtain ⟨target, found, rest⟩ := Option.bind_eq_some_iff.mp accepted
      obtain ⟨middle, popped, marked⟩ := Option.bind_eq_some_iff.mp rest
      obtain ⟨enough, rfl⟩ := popOperands_live opened reachable above popped
      exact ⟨target, found, enough,
        setUnreachable_live (v := ⟨v.frames, _⟩) opened marked⟩
  | brIf depth =>
      obtain ⟨target, found, rest⟩ := Option.bind_eq_some_iff.mp accepted
      obtain ⟨middle, popped, rest⟩ := Option.bind_eq_some_iff.mp rest
      obtain ⟨enough, rfl⟩ := popOperand_live opened reachable popped
      obtain ⟨last, poppedRest, pushed⟩ := Option.bind_eq_some_iff.mp rest
      obtain ⟨enoughRest, rfl⟩ := popOperands_live (v := ⟨v.frames, v.height - 1⟩)
        opened reachable (Nat.le_sub_of_add_le enough) poppedRest
      cases pushed
      dsimp only at enoughRest
      refine ⟨target, found, by omega, ?_⟩
      unfold pushOperands
      dsimp only
      rw [Nat.sub_add_cancel (by omega)]
  | brTable targets last =>
      obtain ⟨target, found, rest⟩ := Option.bind_eq_some_iff.mp accepted
      simp only [Option.ite_none_right_eq_some] at rest
      obtain ⟨uniform, rest⟩ := rest
      obtain ⟨middle, popped, rest⟩ := Option.bind_eq_some_iff.mp rest
      obtain ⟨enough, rfl⟩ := popOperand_live opened reachable popped
      obtain ⟨last, poppedRest, marked⟩ := Option.bind_eq_some_iff.mp rest
      obtain ⟨enoughRest, rfl⟩ := popOperands_live (v := ⟨v.frames, v.height - 1⟩)
        opened reachable (Nat.le_sub_of_add_le enough) poppedRest
      dsimp only at enoughRest
      refine ⟨target, found, fun depth member => ?_, by omega,
        setUnreachable_live (v := ⟨v.frames, _⟩) opened marked⟩
      exact Option.map_eq_some_iff.mp (uniform depth member)
  | returnOp =>
      obtain ⟨middle, popped, marked⟩ := Option.bind_eq_some_iff.mp accepted
      obtain ⟨enough, rfl⟩ := popOperands_live opened reachable above popped
      exact ⟨enough, setUnreachable_live (v := ⟨v.frames, _⟩) opened marked⟩
  | call func =>
      obtain ⟨ty, typed, rest⟩ := Option.bind_eq_some_iff.mp accepted
      simp only [Option.ite_none_right_eq_some] at rest
      obtain ⟨middle, popped, pushed⟩ := Option.bind_eq_some_iff.mp rest.2
      obtain ⟨enough, rfl⟩ := popOperands_live opened reachable above popped
      cases pushed
      exact ⟨ty, typed, enough, rfl⟩
  | callIndirect type table =>
      obtain ⟨ty, typed, rest⟩ := Option.bind_eq_some_iff.mp accepted
      obtain ⟨middle, popped, rest⟩ := Option.bind_eq_some_iff.mp rest
      obtain ⟨enough, rfl⟩ := popOperand_live opened reachable popped
      obtain ⟨last, poppedRest, pushed⟩ := Option.bind_eq_some_iff.mp rest
      obtain ⟨enoughRest, rfl⟩ := popOperands_live (v := ⟨v.frames, v.height - 1⟩)
        opened reachable (Nat.le_sub_of_add_le enough) poppedRest
      cases pushed
      dsimp only at enoughRest
      exact ⟨ty, typed, by omega, rfl⟩
  | unreachable => exact setUnreachable_live opened accepted
  | tryTable blockty debug => trivial
  | other op => trivial

end Live

/-! ## Frames -/

/-- The kind of frame that an operator opens. -/
def openedKind : Operator → Option FrameKind
  | .block _ => some .block
  | .loop _ => some .loop
  | .ifOp _ => some .ifThen
  | .tryTable _ _ => some .tryTable
  | _ => none

/-- What a step does to the frames. -/
def FramesStep (v v' : Validator) : Operator → Prop
  | .elseOp => ∃ frame outer, v.frames = frame :: outer ∧ frame.kind = .ifThen ∧
      v' = ⟨⟨.ifElse, frame.params, frame.results, frame.height, false⟩ :: outer,
        frame.height + frame.params⟩
  | .endOp => ∃ frame outer, v.frames = frame :: outer ∧
      v' = ⟨outer, frame.height + frame.results⟩
  | op =>
      match openedKind op with
      | some kind => v.frames ≠ [] ∧ ∃ params results height,
          v'.frames = ⟨kind, params, results, height, false⟩ :: v.frames
      | none => ∃ frame outer, v.frames = frame :: outer ∧
          (v'.frames = v.frames ∨ v'.frames = markedFrames frame outer)

theorem opened_of_popOperand
    (popped : v.popOperand = some v') :
    ∃ frame outer, v.frames = frame :: outer := by
  unfold popOperand at popped
  cases frames : v.frames with
  | nil => simp [frames] at popped
  | cons frame outer => exact ⟨frame, outer, rfl⟩

section Frames

variable {middle : Validator}

/-- The frames stay when the operands below them change. -/
theorem frames_kept
    (opened : v.frames ≠ [])
    (kept : v'.frames = v.frames) :
    ∃ frame outer, v.frames = frame :: outer ∧
      (v'.frames = v.frames ∨ v'.frames = markedFrames frame outer) := by
  obtain ⟨frame, outer, frames⟩ := List.exists_cons_of_ne_nil opened
  exact ⟨frame, outer, frames, .inl kept⟩

/-- The frames once the rest of the innermost one is marked. -/
theorem frames_marked
    (kept : middle.frames = v.frames)
    (marked : middle.setUnreachable = some v') :
    ∃ frame outer, v.frames = frame :: outer ∧
      (v'.frames = v.frames ∨ v'.frames = markedFrames frame outer) := by
  obtain ⟨frame, outer, frames, after⟩ := setUnreachable_eq marked
  exact ⟨frame, outer, kept.symm.trans frames, .inr after⟩

theorem frames_pushFrame
    (pushed : v.pushFrame kind params results = some v') :
    ∃ params results height,
      v'.frames = ⟨kind, params, results, height, false⟩ :: v.frames := by
  obtain ⟨middle, popped, rfl⟩ := pushFrame_eq pushed
  refine ⟨params, results, middle.height, ?_⟩
  rw [frames_popOperands popped]

end Frames

/-- Every accepted operator does to the frames what `FramesStep` says. -/
theorem framesStep_of_step
    {mod : ModuleTypes} {localsCount results : Nat}
    (accepted : v.step mod localsCount results op = some v') :
    FramesStep v v' op := by
  cases op with
  | localGet index =>
      simp only [step, Option.ite_none_right_eq_some, Option.some.injEq] at accepted
      obtain ⟨⟨_, opened⟩, rfl⟩ := accepted
      exact frames_kept opened rfl
  | localSet index =>
      simp only [step, Option.ite_none_right_eq_some] at accepted
      obtain ⟨frame, outer, frames⟩ := opened_of_popOperand accepted.2
      exact ⟨frame, outer, frames, .inl (frames_popOperand accepted.2)⟩
  | localTee index =>
      simp only [step, Option.ite_none_right_eq_some] at accepted
      obtain ⟨middle, popped, pushed⟩ := Option.bind_eq_some_iff.mp accepted.2
      obtain ⟨frame, outer, frames⟩ := opened_of_popOperand popped
      have kept := frames_popOperand popped
      cases pushed
      exact ⟨frame, outer, frames, .inl kept⟩
  | const value =>
      simp only [step, Option.ite_none_right_eq_some, Option.some.injEq] at accepted
      obtain ⟨opened, rfl⟩ := accepted
      exact frames_kept opened rfl
  | data op =>
      simp only [step, Option.ite_none_right_eq_some] at accepted
      obtain ⟨middle, popped, pushed⟩ := Option.bind_eq_some_iff.mp accepted.2
      have kept := frames_popOperands popped
      cases pushed
      exact frames_kept accepted.1 kept
  | dataDrop index =>
      simp only [step, Option.ite_none_right_eq_some, Option.some.injEq] at accepted
      obtain ⟨opened, rfl⟩ := accepted
      exact frames_kept opened rfl
  | nop =>
      simp only [step, Option.ite_none_right_eq_some, Option.some.injEq] at accepted
      obtain ⟨opened, rfl⟩ := accepted
      exact frames_kept opened rfl
  | drop =>
      obtain ⟨frame, outer, frames⟩ := opened_of_popOperand accepted
      exact ⟨frame, outer, frames, .inl (frames_popOperand accepted)⟩
  | block blockty =>
      obtain ⟨⟨params, blockResults⟩, _, rest⟩ := Option.bind_eq_some_iff.mp accepted
      simp only [Option.ite_none_right_eq_some] at rest
      exact ⟨rest.1, frames_pushFrame rest.2⟩
  | loop blockty =>
      obtain ⟨⟨params, blockResults⟩, _, rest⟩ := Option.bind_eq_some_iff.mp accepted
      simp only [Option.ite_none_right_eq_some] at rest
      exact ⟨rest.1, frames_pushFrame rest.2⟩
  | ifOp blockty =>
      obtain ⟨⟨params, blockResults⟩, _, rest⟩ := Option.bind_eq_some_iff.mp accepted
      obtain ⟨middle, popped, pushed⟩ := Option.bind_eq_some_iff.mp rest
      obtain ⟨frame, outer, frames⟩ := opened_of_popOperand popped
      obtain ⟨params', results', height, opened⟩ := frames_pushFrame pushed
      rw [frames_popOperand popped] at opened
      exact ⟨frames ▸ List.cons_ne_nil frame outer, params', results', height, opened⟩
  | elseOp =>
      obtain ⟨⟨frame, middle⟩, popped, rest⟩ := Option.bind_eq_some_iff.mp accepted
      obtain ⟨outer, frames, framesAfter, height, _⟩ := popFrame_eq popped
      simp only [Option.ite_none_right_eq_some, Option.some.injEq] at rest
      obtain ⟨kind, rfl⟩ := rest
      exact ⟨frame, outer, frames, kind, by rw [framesAfter, height]⟩
  | endOp =>
      obtain ⟨⟨frame, middle⟩, popped, rest⟩ := Option.bind_eq_some_iff.mp accepted
      obtain ⟨outer, frames, framesAfter, height, _⟩ := popFrame_eq popped
      simp only [Option.ite_none_left_eq_some, Option.some.injEq] at rest
      obtain ⟨_, rfl⟩ := rest
      refine ⟨frame, outer, frames, ?_⟩
      unfold pushOperands
      rw [framesAfter, height]
  | br depth =>
      obtain ⟨target, _, rest⟩ := Option.bind_eq_some_iff.mp accepted
      obtain ⟨middle, popped, marked⟩ := Option.bind_eq_some_iff.mp rest
      exact frames_marked (frames_popOperands popped) marked
  | brIf depth =>
      obtain ⟨target, _, rest⟩ := Option.bind_eq_some_iff.mp accepted
      obtain ⟨middle, popped, rest⟩ := Option.bind_eq_some_iff.mp rest
      obtain ⟨last, poppedRest, pushed⟩ := Option.bind_eq_some_iff.mp rest
      obtain ⟨frame, outer, frames⟩ := opened_of_popOperand popped
      cases pushed
      exact ⟨frame, outer, frames, .inl
        ((frames_popOperands poppedRest).trans (frames_popOperand popped))⟩
  | brTable targets last =>
      obtain ⟨target, _, rest⟩ := Option.bind_eq_some_iff.mp accepted
      simp only [Option.ite_none_right_eq_some] at rest
      obtain ⟨middle, popped, rest⟩ := Option.bind_eq_some_iff.mp rest.2
      obtain ⟨last, poppedRest, marked⟩ := Option.bind_eq_some_iff.mp rest
      exact frames_marked
        ((frames_popOperands poppedRest).trans (frames_popOperand popped)) marked
  | returnOp =>
      obtain ⟨middle, popped, marked⟩ := Option.bind_eq_some_iff.mp accepted
      exact frames_marked (frames_popOperands popped) marked
  | call func =>
      obtain ⟨ty, _, rest⟩ := Option.bind_eq_some_iff.mp accepted
      simp only [Option.ite_none_right_eq_some] at rest
      obtain ⟨middle, popped, pushed⟩ := Option.bind_eq_some_iff.mp rest.2
      have kept := frames_popOperands popped
      cases pushed
      exact frames_kept rest.1 kept
  | callIndirect type table =>
      obtain ⟨ty, _, rest⟩ := Option.bind_eq_some_iff.mp accepted
      obtain ⟨middle, popped, rest⟩ := Option.bind_eq_some_iff.mp rest
      obtain ⟨last, poppedRest, pushed⟩ := Option.bind_eq_some_iff.mp rest
      obtain ⟨frame, outer, frames⟩ := opened_of_popOperand popped
      cases pushed
      exact ⟨frame, outer, frames, .inl
        ((frames_popOperands poppedRest).trans (frames_popOperand popped))⟩
  | unreachable => exact frames_marked rfl accepted
  | tryTable blockty debug =>
      obtain ⟨⟨params, blockResults⟩, _, rest⟩ := Option.bind_eq_some_iff.mp accepted
      simp only [Option.ite_none_right_eq_some] at rest
      exact ⟨rest.1, frames_pushFrame rest.2⟩
  | other op =>
      simp only [step, Option.ite_none_right_eq_some] at accepted
      obtain ⟨opened, rest⟩ := accepted
      obtain ⟨middle, popped, rest⟩ := Option.bind_eq_some_iff.mp rest
      split at rest
      · exact frames_marked (frames_popOperands popped) rest
      · have kept := frames_popOperands popped
        cases rest
        exact frames_kept opened kept

/-- An operator is accepted inside the function's frame only. -/
theorem frames_ne_nil_of_step
    {mod : ModuleTypes} {localsCount results : Nat}
    (accepted : v.step mod localsCount results op = some v') :
    v.frames ≠ [] := by
  have frames := framesStep_of_step accepted
  cases op with
  | elseOp =>
      obtain ⟨frame, outer, opened, _⟩ := frames
      simp [opened]
  | endOp =>
      obtain ⟨frame, outer, opened, _⟩ := frames
      simp [opened]
  | block blockty => exact frames.1
  | loop blockty => exact frames.1
  | ifOp blockty => exact frames.1
  | tryTable blockty debug => exact frames.1
  | _ =>
      obtain ⟨frame, outer, opened, _⟩ := frames
      simp [opened]

end Validator

end TraceWasm
