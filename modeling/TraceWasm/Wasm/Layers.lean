import TraceWasm.Wasm.ValidatorSteps

/-!
# Frames lie above each other

No accepted operator, live or dead, lets the operands sink below a frame that is
open.
-/

namespace TraceWasm

/-- A frame starts no lower than the one around it. -/
def Layers : Nat → List Frame → Prop
  | _, [] => True
  | height, frame :: outer => frame.height ≤ height ∧ Layers frame.height outer

theorem Layers.mono
    {frames : List Frame} {height height' : Nat}
    (layers : Layers height frames)
    (le : height ≤ height') :
    Layers height' frames := by
  cases frames with
  | nil => trivial
  | cons frame outer => exact ⟨layers.1.trans le, layers.2⟩

theorem Layers.getElem?_le
    {frames : List Frame} {height depth : Nat} {frame : Frame}
    (layers : Layers height frames)
    (found : frames[depth]? = some frame) :
    frame.height ≤ height := by
  induction frames generalizing height depth with
  | nil => cases found
  | cons head outer inductionHypothesis =>
      cases depth with
      | zero =>
          cases found
          exact layers.1
      | succ depth => exact (inductionHypothesis layers.2 found).trans layers.1

namespace Validator

variable {v v' : Validator}

/-- The operands reach every frame that is open. -/
def Layered (v : Validator) : Prop := Layers v.height v.frames

theorem Layered.popOperand
    (layered : v.Layered)
    (popped : v.popOperand = some v') :
    v'.Layered := by
  unfold Validator.popOperand at popped
  unfold Layered at layered ⊢
  cases opened : v.frames with
  | nil => simp [opened] at popped
  | cons frame outer =>
      rw [opened] at popped layered
      dsimp only at popped
      split at popped
      · rename_i above
        cases popped
        exact ⟨Nat.le_sub_one_of_lt above, layered.2⟩
      · split at popped
        · cases popped
          rw [opened]
          exact layered
        · cases popped

theorem Layered.popOperands
    {count : Nat}
    (layered : v.Layered)
    (popped : v.popOperands count = some v') :
    v'.Layered := by
  induction count generalizing v with
  | zero =>
      cases popped
      exact layered
  | succ count inductionHypothesis =>
      obtain ⟨middle, first, rest⟩ := Option.bind_eq_some_iff.mp popped
      exact inductionHypothesis (layered.popOperand first) rest

theorem Layered.pushOperands (layered : v.Layered) (count : Nat) :
    (v.pushOperands count).Layered :=
  Layers.mono layered (Nat.le_add_right _ _)

theorem Layered.setUnreachable
    (layered : v.Layered)
    (marked : v.setUnreachable = some v') :
    v'.Layered := by
  unfold Validator.setUnreachable at marked
  unfold Layered at layered ⊢
  cases opened : v.frames with
  | nil => simp [opened] at marked
  | cons frame outer =>
      rw [opened] at marked layered
      cases marked
      exact ⟨le_rfl, layered.2⟩

theorem Layered.pushFrame
    {kind : FrameKind} {params results : Nat}
    (layered : v.Layered)
    (pushed : v.pushFrame kind params results = some v') :
    v'.Layered := by
  obtain ⟨middle, popped, rfl⟩ := pushFrame_eq pushed
  exact ⟨Nat.le_add_right _ _, layered.popOperands popped⟩

theorem Layered.popFrame
    {frame : Frame}
    (layered : v.Layered)
    (popped : v.popFrame = some (frame, v')) :
    v'.Layered := by
  obtain ⟨outer, opened, closed, height, _⟩ := popFrame_eq popped
  unfold Layered at layered ⊢
  rw [opened] at layered
  rw [closed, height]
  exact layered.2

/-- Pop operands, then push results. -/
theorem Layered.replace
    {pops pushes : Nat}
    (layered : v.Layered)
    (replaced : ((v.popOperands pops).bind fun middle =>
      some (middle.pushOperands pushes)) = some v') :
    v'.Layered := by
  obtain ⟨middle, popped, pushed⟩ := Option.bind_eq_some_iff.mp replaced
  cases pushed
  exact (layered.popOperands popped).pushOperands pushes

/-- Pop operands, then mark the rest of the innermost frame unreachable. -/
theorem Layered.leave
    {pops : Nat}
    (layered : v.Layered)
    (left : ((v.popOperands pops).bind Validator.setUnreachable) = some v') :
    v'.Layered := by
  obtain ⟨middle, popped, marked⟩ := Option.bind_eq_some_iff.mp left
  exact (layered.popOperands popped).setUnreachable marked

/-- No accepted operator lets the operands sink below a frame. -/
theorem Layered.step
    {mod : ModuleTypes} {localsCount results : Nat} {op : Operator}
    (layered : v.Layered)
    (accepted : v.step mod localsCount results op = some v') :
    v'.Layered := by
  cases op with
  | localGet index =>
      simp only [Validator.step, Option.ite_none_right_eq_some, Option.some.injEq] at accepted
      exact accepted.2 ▸ layered.pushOperands 1
  | localSet index =>
      simp only [Validator.step, Option.ite_none_right_eq_some] at accepted
      exact layered.popOperand accepted.2
  | localTee index =>
      simp only [Validator.step, Option.ite_none_right_eq_some] at accepted
      obtain ⟨middle, popped, pushed⟩ := Option.bind_eq_some_iff.mp accepted.2
      cases pushed
      exact (layered.popOperand popped).pushOperands 1
  | const value =>
      simp only [Validator.step, Option.ite_none_right_eq_some, Option.some.injEq] at accepted
      exact accepted.2 ▸ layered.pushOperands 1
  | data op =>
      simp only [Validator.step, Option.ite_none_right_eq_some] at accepted
      exact layered.replace accepted.2
  | dataDrop index =>
      simp only [Validator.step, Option.ite_none_right_eq_some, Option.some.injEq] at accepted
      exact accepted.2 ▸ layered
  | nop =>
      simp only [Validator.step, Option.ite_none_right_eq_some, Option.some.injEq] at accepted
      exact accepted.2 ▸ layered
  | drop => exact layered.popOperand accepted
  | block blockty =>
      obtain ⟨_, _, opened⟩ := Option.bind_eq_some_iff.mp accepted
      simp only [Option.ite_none_right_eq_some] at opened
      exact layered.pushFrame opened.2
  | loop blockty =>
      obtain ⟨_, _, opened⟩ := Option.bind_eq_some_iff.mp accepted
      simp only [Option.ite_none_right_eq_some] at opened
      exact layered.pushFrame opened.2
  | ifOp blockty =>
      obtain ⟨_, _, opened⟩ := Option.bind_eq_some_iff.mp accepted
      obtain ⟨middle, popped, pushed⟩ := Option.bind_eq_some_iff.mp opened
      exact (layered.popOperand popped).pushFrame pushed
  | elseOp =>
      obtain ⟨⟨frame, middle⟩, popped, rest⟩ := Option.bind_eq_some_iff.mp accepted
      obtain ⟨_, _, _, height, _⟩ := popFrame_eq popped
      have outer : Layers middle.height middle.frames := layered.popFrame popped
      rw [height] at outer
      simp only [Option.ite_none_right_eq_some, Option.some.injEq] at rest
      rw [← rest.2, height]
      exact ⟨Nat.le_add_right _ _, outer⟩
  | endOp =>
      obtain ⟨⟨frame, middle⟩, popped, rest⟩ := Option.bind_eq_some_iff.mp accepted
      simp only [Option.ite_none_left_eq_some, Option.some.injEq] at rest
      exact rest.2 ▸ (layered.popFrame popped).pushOperands frame.results
  | br depth =>
      obtain ⟨target, _, left⟩ := Option.bind_eq_some_iff.mp accepted
      exact layered.leave left
  | brIf depth =>
      obtain ⟨target, _, rest⟩ := Option.bind_eq_some_iff.mp accepted
      obtain ⟨middle, popped, replaced⟩ := Option.bind_eq_some_iff.mp rest
      exact (layered.popOperand popped).replace replaced
  | brTable targets last =>
      obtain ⟨target, _, rest⟩ := Option.bind_eq_some_iff.mp accepted
      simp only [Option.ite_none_right_eq_some] at rest
      obtain ⟨middle, popped, left⟩ := Option.bind_eq_some_iff.mp rest.2
      exact (layered.popOperand popped).leave left
  | returnOp => exact layered.leave accepted
  | call func =>
      obtain ⟨ty, _, rest⟩ := Option.bind_eq_some_iff.mp accepted
      simp only [Option.ite_none_right_eq_some] at rest
      exact layered.replace rest.2
  | callIndirect type table =>
      obtain ⟨ty, _, rest⟩ := Option.bind_eq_some_iff.mp accepted
      obtain ⟨middle, popped, replaced⟩ := Option.bind_eq_some_iff.mp rest
      exact (layered.popOperand popped).replace replaced
  | unreachable => exact layered.setUnreachable accepted
  | tryTable blockty debug =>
      obtain ⟨_, _, opened⟩ := Option.bind_eq_some_iff.mp accepted
      simp only [Option.ite_none_right_eq_some] at opened
      exact layered.pushFrame opened.2
  | other op =>
      simp only [Validator.step, Option.ite_none_right_eq_some] at accepted
      obtain ⟨middle, popped, rest⟩ := Option.bind_eq_some_iff.mp accepted.2
      have after := layered.popOperands popped
      split at rest
      · exact after.setUnreachable rest
      · cases rest
        exact after.pushOperands op.pushes

end Validator

end TraceWasm
