import TraceWasm.Register.Simulation
import TraceWasm.Wasm.ValidatorSteps

/-!
# The validator, the filter and the symbolic state agree

Between two operators the validator's control frames are the open labels, with
the constructs opened in dead code on top of them, which only the filter knows.
In live code the validator and the lowering also agree on the operands. This is
what makes every operator that is lowered find what it needs, and what makes
the filter exact.
-/

namespace TraceWasm

namespace Register

open Symbolic (baseOf branchMove moveOf relaidView withElse)

/-! ## Agreement -/

/-- What opened the frame is what opened the label. -/
def KindMatches : FrameKind → BlockKind → Prop
  | .func, .func => True
  | .block, .block => True
  | .loop, .loop _ => True
  | .ifThen, .ifOp _ none => True
  | .ifElse, .ifOp _ (some _) => True
  | _, _ => False

/-- The frame and the label are of one construct. -/
structure FrameMatches (frame : Frame) (block : Block) : Prop where
  kind : KindMatches frame.kind block.kind
  params : frame.params = block.params
  results : frame.results = block.results
  height : frame.height = block.recordedHeight

/-- A branch carries as many operands for the validator as for the lowering. -/
theorem FrameMatches.labelArity
    (same : FrameMatches frame block) :
    frame.labelArity = block.labelArity := by
  have kind := same.kind
  unfold Frame.labelArity Block.labelArity
  rw [same.params, same.results]
  cases isKind : frame.kind <;> cases isBlock : block.kind <;>
    rw [isKind, isBlock] at kind <;> simp_all [KindMatches, BlockKind.isLoop]

/-- A frame of live code. -/
def LiveMatches (frame : Frame) (block : Block) : Prop :=
  FrameMatches frame block ∧ frame.unreachable = false

/-- What opened the frame is what the filter remembers. -/
def DeadMatches (frame : Frame) : BlockVariant → Prop
  | .func => False
  | .block => frame.kind = .block
  | .loop => frame.kind = .loop
  | .ifOp => frame.kind = .ifThen ∨ frame.kind = .ifElse

/-- The frames are those of the labels. -/
def LabelsMatch (frames : List Frame) (control : List Block) : Prop :=
  List.Forall₂ LiveMatches frames (control.map Block.bare)

/-- A label starts no lower than the one around it. -/
def Nested (height : Nat) : List Block → Prop
  | [] => True
  | block :: outer =>
      block.recordedHeight ≤ height ∧ Nested block.recordedHeight outer

theorem nested_map_bare {control : List Block} :
    Nested height (control.map Block.bare) ↔ Nested height control := by
  induction control generalizing height with
  | nil => exact Iff.rfl
  | cons block outer inductionHypothesis =>
      exact and_congr_right fun _ => inductionHypothesis

/-- Whether labels are nested does not depend on the branches they remember. -/
theorem Nested.of_bare
    {control control' : List Block}
    (nested : Nested height control)
    (same : control'.map Block.bare = control.map Block.bare) :
    Nested height control' := by
  rw [← nested_map_bare, same, nested_map_bare]
  exact nested

theorem Nested.mono
    {control : List Block}
    (nested : Nested height control)
    (le : height ≤ height') :
    Nested height' control := by
  cases control with
  | nil => trivial
  | cons block outer => exact ⟨nested.1.trans le, nested.2⟩

/-- Every label starts below the operands. -/
theorem Nested.getElem?_le
    {control : List Block} {depth : Nat}
    (nested : Nested height control)
    (found : control[depth]? = some block) :
    block.recordedHeight ≤ height := by
  induction control generalizing height depth with
  | nil => simp at found
  | cons head outer inductionHypothesis =>
      cases depth with
      | zero =>
          cases found
          exact nested.1
      | succ depth => exact (inductionHypothesis nested.2 found).trans nested.1

/-- The validator and the symbolic state agree in live code. -/
structure Live (v : Validator) (a : Symbolic) : Prop where
  labels : LabelsMatch v.frames a.control
  height : a.view.length = v.height
  nested : Nested a.view.length a.control

/-- The validator, the filter and the symbolic state agree in dead code, where
`deadFrames` were opened. -/
structure Dead
    (v : Validator) (deadFrames : List Frame) (blocks : List BlockVariant)
    (a : Symbolic) : Prop where
  frames : ∃ frame outerFrames block outer,
    v.frames = deadFrames ++ frame :: outerFrames ∧
    a.control = block :: outer ∧
    FrameMatches frame block ∧
    LabelsMatch outerFrames outer ∧
    a.view.length = block.recordedHeight + block.results
  deadLabels : List.Forall₂ DeadMatches deadFrames blocks
  nested : Nested a.view.length a.control

/-- The validator, the spec of deadness, the filter and the symbolic state
agree. -/
inductive Aligned :
    Validator → Liveness → UnreachableTrackingControlStack → Symbolic → Prop
  | live
      (agree : Live v a) :
      Aligned v ⟨false, List.replicate a.control.length false⟩ ⟨[], false⟩ a
  | dead
      (deadFrames : List Frame)
      (agree : Dead v deadFrames blocks a) :
      Aligned v
        ⟨true, List.replicate deadFrames.length true ++
          List.replicate a.control.length false⟩
        ⟨blocks, true⟩ a

/-! ## Live operators find what they need -/

theorem FrameMatches.of_bare
    {frame : Frame} {block block' : Block}
    (same : FrameMatches frame block)
    (bare : block'.bare = block.bare) :
    FrameMatches frame block' := by
  have kind : block'.kind = block.kind := by
    have kinds := congrArg Block.kind bare
    exact kinds
  have params : block'.params = block.params := by
    have all := congrArg Block.params bare
    exact all
  have results : block'.results = block.results := by
    have all := congrArg Block.results bare
    exact all
  refine ⟨kind ▸ same.kind, same.params.trans params.symm,
    same.results.trans results.symm, ?_⟩
  rw [Block.recordedHeight_of_bare bare]
  exact same.height

namespace Live

variable {v v' : Validator} {a a' : Symbolic}

/-- The label that a frame belongs to. -/
theorem label
    (live : Live v a)
    {depth : Nat}
    (found : v.frames[depth]? = some frame) :
    ∃ block, a.control[depth]? = some block ∧ FrameMatches frame block := by
  obtain ⟨below, same⟩ := List.getElem?_eq_some_iff.mp found
  have lengths := live.labels.length_eq
  have matching := List.forall₂_iff_get.mp live.labels
  have belowControl : depth < a.control.length := by
    rw [List.length_map] at lengths
    omega
  refine ⟨a.control[depth], List.getElem?_eq_getElem belowControl, ?_⟩
  have matched := (matching.2 depth below (by simpa using belowControl)).1
  simp only [List.get_eq_getElem, List.getElem_map, same] at matched
  exact matched.of_bare rfl

/-- The innermost frame and label. -/
theorem head
    (live : Live v a)
    (opened : v.frames = frame :: outerFrames) :
    ∃ block outer, a.control = block :: outer ∧ FrameMatches frame block ∧
      frame.unreachable = false ∧ LabelsMatch outerFrames outer ∧
      frame.height ≤ v.height := by
  have labels := live.labels
  unfold LabelsMatch at labels
  rw [opened] at labels
  cases control : a.control with
  | nil =>
      rw [control] at labels
      cases labels
  | cons block outer =>
      rw [control] at labels
      cases labels with
      | cons first rest =>
          have nested := live.nested
          rw [control] at nested
          refine ⟨block, outer, rfl, first.1.of_bare rfl, first.2, rest, ?_⟩
          rw [first.1.height, ← live.height]
          exact nested.1

/-- A label that a branch goes to, and what the branch finds below its operands. -/
theorem target
    (live : Live v a)
    {depth : Nat}
    (opened : v.frames = frame :: outerFrames)
    (found : v.frames[depth]? = some targetFrame) :
    ∃ block, a.control[depth]? = some block ∧ FrameMatches targetFrame block ∧
      block.recordedHeight ≤ frame.height := by
  obtain ⟨block, isLabel, same⟩ := live.label found
  obtain ⟨inner, outer, control, sameInner, _⟩ := live.head opened
  refine ⟨block, isLabel, same, ?_⟩
  have nested := live.nested
  rw [control] at nested isLabel
  rw [sameInner.height]
  cases depth with
  | zero =>
      cases isLabel
      exact le_rfl
  | succ depth => exact nested.2.getElem?_le isLabel

/-- What the innermost label needs is there when a branch leaves it. -/
theorem canLeave
    (live : Live v a)
    (opened : v.frames = frame :: outerFrames)
    (enough : frame.height + popped ≤ v.height) :
    a.CanLeave popped := by
  obtain ⟨block, outer, control, same, _⟩ := live.head opened
  refine ⟨block, outer, control, ?_⟩
  rw [live.height, ← same.height]
  exact enough

/-- In live code the validator accepts only operators that find what they
need. -/
theorem ready
    {mod : ModuleTypes} {locals results : Nat}
    (live : Live v a)
    (accepted : Validator.step mod locals results v op = some v') :
    Ready mod locals results a op := by
  obtain ⟨frame, outerFrames, opened⟩ :=
    List.exists_cons_of_ne_nil (Validator.frames_ne_nil_of_step accepted)
  obtain ⟨block, outer, control, same, reachable, _, above⟩ := live.head opened
  have step := Validator.liveStep_of_step opened reachable above accepted
  have height := live.height
  have sameHeight := same.height
  cases op with
  | localGet localIndex => exact step.1
  | localSet localIndex =>
      obtain ⟨below, enough, _⟩ := step
      exact ⟨below, by omega⟩
  | localTee localIndex =>
      obtain ⟨below, enough, _⟩ := step
      exact ⟨below, by omega⟩
  | const value => trivial
  | data op =>
      obtain ⟨enough, _⟩ := step
      change op.inputs ≤ a.view.length
      omega
  | dataDrop dataIndex => trivial
  | nop => trivial
  | drop =>
      obtain ⟨enough, _⟩ := step
      change 1 ≤ a.view.length
      omega
  | block blockty =>
      obtain ⟨params, blockResults, arities, enough, _⟩ := step
      exact ⟨params, blockResults, arities, by omega⟩
  | loop blockty =>
      obtain ⟨params, blockResults, arities, enough, _⟩ := step
      exact ⟨params, blockResults, arities, by omega⟩
  | ifOp blockty =>
      obtain ⟨params, blockResults, arities, enough, _⟩ := step
      exact ⟨params, blockResults, arities, by omega⟩
  | elseOp =>
      obtain ⟨head, _, isHead, kind, _⟩ := Validator.framesStep_of_step accepted
      rw [opened] at isHead
      cases isHead
      have kindMatches := same.kind
      rw [kind] at kindMatches
      change v.height = frame.height + frame.results at step
      have sameResults := same.results
      cases isIf : block.kind with
      | ifOp index elseIndex =>
          exact ⟨block, outer, index, elseIndex, control, isIf, by omega⟩
      | func => simp [isIf, KindMatches] at kindMatches
      | block => simp [isIf, KindMatches] at kindMatches
      | loop index => simp [isIf, KindMatches] at kindMatches
  | endOp =>
      change v.height = frame.height + frame.results at step
      have sameResults := same.results
      exact ⟨block, outer, control, by omega⟩
  | br relativeDepth =>
      obtain ⟨targetFrame, found, enough, _⟩ := step
      obtain ⟨target, isTarget, sameTarget, below⟩ := live.target opened found
      have arity := sameTarget.labelArity
      exact ⟨live.canLeave opened (by omega), target, isTarget, by omega⟩
  | brIf relativeDepth =>
      obtain ⟨targetFrame, found, enough, _⟩ := step
      obtain ⟨target, isTarget, sameTarget, below⟩ := live.target opened found
      have arity := sameTarget.labelArity
      exact ⟨target, isTarget, by omega⟩
  | brTable targets last =>
      obtain ⟨targetFrame, found, uniform, enough, _⟩ := step
      obtain ⟨target, isTarget, sameTarget, below⟩ := live.target opened found
      have arity := sameTarget.labelArity
      refine ⟨live.canLeave opened (by omega), target, isTarget, ?_⟩
      intro relativeDepth member
      rcases List.mem_append.mp member with member | member
      · obtain ⟨otherFrame, foundOther, sameArity⟩ := uniform relativeDepth member
        obtain ⟨other, isOther, sameOther, belowOther⟩ :=
          live.target opened foundOther
        have arityOther := sameOther.labelArity
        exact ⟨other, isOther, by omega, by omega⟩
      · cases List.mem_singleton.mp member
        exact ⟨target, isTarget, rfl, by omega⟩
  | returnOp =>
      obtain ⟨enough, _⟩ := step
      exact ⟨live.canLeave opened (by omega), by omega⟩
  | call functionIndex =>
      obtain ⟨ty, typed, enough, _⟩ := step
      exact ⟨ty, typed, by omega⟩
  | callIndirect typeIndex tableIndex =>
      obtain ⟨ty, typed, enough, _⟩ := step
      exact ⟨ty, typed, by omega⟩
  | unreachable => exact live.canLeave opened (by omega)
  | tryTable blockty debug => trivial
  | other op => trivial

/-- The labels stay nested under operands that the innermost frame allows. -/
theorem nested_of_le
    (live : Live v a)
    {least : Nat}
    (opened : v.frames = frame :: outerFrames)
    (above : frame.height ≤ least) :
    Nested least a.control := by
  obtain ⟨block, outer, control, same, _⟩ := live.head opened
  have nested := live.nested
  rw [control] at nested ⊢
  exact ⟨same.height.symm.le.trans above, nested.2⟩

/-- Live code goes on with other operands under the same labels. -/
theorem continues
    (live : Live v a)
    (opened : v.frames = frame :: outerFrames)
    (labels : a'.control.map Block.bare = a.control.map Block.bare)
    (frames : v'.frames = v.frames)
    (height : a'.view.length = v'.height)
    (above : frame.height ≤ v'.height) :
    Aligned v' ⟨false, List.replicate a.control.length false⟩ ⟨[], false⟩ a' := by
  have lengthEq : a'.control.length = a.control.length := by
    have lengths := congrArg List.length labels
    rwa [List.length_map, List.length_map] at lengths
  have nested : Nested a'.view.length a.control := live.nested_of_le opened (height ▸ above)
  rw [← lengthEq]
  refine .live ⟨?_, height, nested.of_bare labels⟩
  unfold LabelsMatch
  rw [labels, frames]
  exact live.labels

/-- Live code goes on inside a new label. -/
theorem opens
    (live : Live v a)
    (opened : v.frames = frame :: outerFrames)
    (control : a'.control = block :: a.control)
    (frames : v'.frames = inside :: v.frames)
    (same : FrameMatches inside block)
    (reachable : inside.unreachable = false)
    (height : a'.view.length = v'.height)
    (above : inside.height ≤ v'.height)
    (nested : frame.height ≤ inside.height) :
    Aligned v' ⟨false, false :: List.replicate a.control.length false⟩
      ⟨[], false⟩ a' := by
  have lengthEq : false :: List.replicate a.control.length false =
      List.replicate a'.control.length false := by
    rw [control, List.length_cons, List.replicate_succ]
  rw [lengthEq]
  refine .live ⟨?_, height, ?_⟩
  · unfold LabelsMatch
    rw [control, frames]
    exact .cons ⟨same.of_bare rfl, reachable⟩ live.labels
  · rw [control, height]
    exact ⟨same.height.symm.le.trans above,
      live.nested_of_le opened (nested.trans same.height.le)⟩

/-- The rest of the innermost label is dead. -/
theorem dies
    (live : Live v a)
    (opened : v.frames = frame :: outerFrames)
    (labels : a'.control.map Block.bare = a.control.map Block.bare)
    (frames : v'.frames = Validator.markedFrames frame outerFrames)
    (height : ∀ block outer, a.control = block :: outer →
      a'.view.length = block.recordedHeight + block.results) :
    Aligned v' ⟨true, List.replicate a.control.length false⟩ ⟨[], true⟩ a' := by
  obtain ⟨block, outer, control, same, _, labelsOuter, _⟩ := live.head opened
  have lengthEq : a'.control.length = a.control.length := by
    have lengths := congrArg List.length labels
    rwa [List.length_map, List.length_map] at lengths
  have heightEq := height block outer control
  have nested : Nested a'.view.length a.control := by
    have nested := live.nested
    rw [control] at nested ⊢
    exact ⟨by omega, nested.2⟩
  rw [← lengthEq]
  refine .dead [] ⟨?_, .nil, nested.of_bare labels⟩
  rw [control, List.map_cons, List.map_eq_cons_iff] at labels
  obtain ⟨block', outer', control', sameBlock, sameOuter⟩ := labels
  have bareResults : block'.results = block.results := by
    have results := congrArg Block.results sameBlock
    exact results
  refine ⟨{ frame with unreachable := true }, outerFrames, block', outer', frames,
    control', ?_, ?_, ?_⟩
  · have moved := same.of_bare sameBlock
    exact ⟨moved.kind, moved.params, moved.results, moved.height⟩
  · unfold LabelsMatch
    rw [sameOuter]
    exact labelsOuter
  · rw [Block.recordedHeight_of_bare sameBlock, bareResults]
    exact heightEq

end Live

/-! ## The next operator -/

theorem length_relaidView (locals : Nat) (view : View) (pops pushes : Nat) :
    (relaidView locals view pops pushes).length = view.length - pops + pushes := by
  unfold relaidView
  rw [List.length_append, View.length_registerRun, List.length_drop]
  omega

/-- Leaving a block gives it as many operands as it has results. -/
theorem length_view_leave
    {a : Symbolic}
    (opened : a.control = block :: outer)
    (enough : block.recordedHeight ≤ a.view.length) :
    (a.leave locals).view.length = block.recordedHeight + block.results := by
  unfold Symbolic.leave
  rw [opened]
  change (relaidView locals a.view _ _).length = _
  rw [length_relaidView]
  omega

/-- After an `else` the code is live. -/
theorem live_of_elseOp
    (frames : Validator.FramesStep v v' .elseOp)
    (opened : v.frames = frame :: outerFrames)
    (control : a.control = block :: outer)
    (same : FrameMatches frame block)
    (labels : LabelsMatch outerFrames outer)
    (nested : Nested a.view.length a.control)
    (step : SymbolicStep mod locals results .elseOp a a') :
    Live v' a' ∧ a'.control.length = a.control.length := by
  obtain ⟨head, rest, isHead, _, rfl⟩ := frames
  rw [opened] at isHead
  cases isHead
  cases step with
  | elseOp opens kind height moved =>
      rename_i label others middle index elseIndex
      rw [control] at opens
      cases opens
      have lengths := length_view_materialize (a.withControl
        (withElse block index (a.headerIndex block.results) :: outer)) locals
        (show block.results ≤ a.view.length by omega)
      rw [← moved] at lengths
      change _ = a.view.length at lengths
      have controlAfter : middle.control =
          withElse block index (a.headerIndex block.results) :: outer := by
        rw [moved, Symbolic.control_materialize]
        rfl
      have viewLength : (relaidView locals middle.view block.results
          block.params).length = block.recordedHeight + block.params := by
        rw [length_relaidView, lengths, height]
        omega
      have sameParams := same.params
      have sameHeight := same.height
      rw [control] at nested ⊢
      refine ⟨⟨?_, viewLength.trans ?_, ?_⟩, ?_⟩
      · unfold LabelsMatch
        change List.Forall₂ _ _ (middle.control.map _)
        rw [controlAfter]
        exact .cons ⟨⟨trivial, same.params, same.results, same.height⟩, rfl⟩ labels
      · dsimp only
        omega
      · change Nested (relaidView locals middle.view _ _).length middle.control
        rw [viewLength, controlAfter]
        exact ⟨Nat.le_add_right _ _, nested.2⟩
      · change middle.control.length = _
        rw [controlAfter]
        rfl

/-- After the `end` of a label that was opened live the code is live. -/
theorem live_of_endOp
    (frames : Validator.FramesStep v v' .endOp)
    (opened : v.frames = frame :: outerFrames)
    (control : a.control = block :: outer)
    (same : FrameMatches frame block)
    (labels : LabelsMatch outerFrames outer)
    (nested : Nested a.view.length a.control)
    (step : SymbolicStep mod locals results .endOp a a') :
    Live v' a' ∧ a'.control = outer := by
  obtain ⟨head, rest, isHead, rfl⟩ := frames
  rw [opened] at isHead
  cases isHead
  cases step with
  | endOp opens height moved =>
      rename_i label others middle
      rw [control] at opens
      cases opens
      have lengths := length_view_materialize (a.withControl outer) locals
        (show block.results ≤ a.view.length by omega)
      rw [← moved] at lengths
      change _ = a.view.length at lengths
      have controlAfter : middle.control = outer := by
        rw [moved, Symbolic.control_materialize]
        rfl
      have sameResults := same.results
      have sameHeight := same.height
      rw [control] at nested
      refine ⟨⟨?_, ?_, ?_⟩, controlAfter⟩
      · unfold LabelsMatch
        change List.Forall₂ _ _ (middle.control.map _)
        rw [controlAfter]
        exact labels
      · change middle.view.length = _
        dsimp only
        omega
      · change Nested middle.view.length middle.control
        rw [lengths, controlAfter]
        exact nested.2.mono (by omega)

namespace Live

variable {v v' : Validator} {a a' : Symbolic}

/-- The state after a branch that always leaves. -/
theorem diesLeaving
    {left : Symbolic}
    (live : Live v a)
    (opened : v.frames = frame :: outerFrames)
    (labels : left.control.map Block.bare = a.control.map Block.bare)
    (frames : v'.frames = Validator.markedFrames frame outerFrames)
    (above : frame.height ≤ left.view.length) :
    Aligned v' ⟨true, List.replicate a.control.length false⟩ ⟨[], true⟩
      (left.leave locals) := by
  refine live.dies opened ?_ frames fun block outer control => ?_
  · rw [Symbolic.control_leave]
    exact labels
  · obtain ⟨_, _, isHead, same, _⟩ := live.head opened
    rw [control] at isHead
    cases isHead
    have bare := labels
    rw [control, List.map_cons, List.map_eq_cons_iff] at bare
    obtain ⟨block', outer', control', sameBlock, _⟩ := bare
    have heights := Block.recordedHeight_of_bare sameBlock
    have bareResults : block'.results = block.results := by
      have results := congrArg Block.results sameBlock
      exact results
    rw [length_view_leave control' (by rw [heights, ← same.height]; exact above), heights,
      bareResults]

section Next

variable {mod : ModuleTypes} {locals results : Nat} {frame : Frame} {outerFrames : List Frame}

/-- A `block` opens a label on top of its parameters. -/
theorem next_block
    (live : Live v a)
    (opened : v.frames = frame :: outerFrames)
    (does : Validator.LiveStep mod locals results v frame outerFrames v' (.block blockty))
    (step : SymbolicStep mod locals results (.block blockty) a a') :
    Aligned v' ⟨false, false :: List.replicate a.control.length false⟩ ⟨[], false⟩ a' := by
  have height := live.height
  cases step with
  | block arities enough =>
      rename_i params blockResults
      obtain ⟨_, _, sameArities, enoughParams, rfl⟩ := does
      rw [arities] at sameArities
      cases sameArities
      have lengths := length_view_materialize
        (a.openBlock .block (a.view.length - params) params blockResults) locals enough
      change _ = a.view.length at lengths
      exact live.opens opened (Symbolic.control_materialize _ _ _) rfl
        ⟨trivial, rfl, rfl, by rw [height]⟩ rfl (lengths.trans height) (Nat.sub_le _ _)
        (Nat.le_sub_of_add_le enoughParams)

/-- A `loop` first moves its operands out of the locals, and the label is opened on top
of its parameters. -/
theorem next_loop
    (live : Live v a)
    (opened : v.frames = frame :: outerFrames)
    (does : Validator.LiveStep mod locals results v frame outerFrames v' (.loop blockty))
    (step : SymbolicStep mod locals results (.loop blockty) a a') :
    Aligned v' ⟨false, false :: List.replicate a.control.length false⟩ ⟨[], false⟩ a' := by
  cases step with
  | loop redirects gone arities enough =>
      rename_i copies params blockResults view
      obtain ⟨_, _, sameArities, enoughParams, rfl⟩ := does
      rw [arities] at sameArities
      cases sameArities
      have height : view.length = v.height := redirects.length_eq.trans live.height
      have lengths := length_view_materialize ((a.rescue copies view).openBlock
        (.loop ((a.rescue copies view).headerIndex params)) (view.length - params)
        params blockResults) locals enough
      change _ = view.length at lengths
      exact live.opens opened (Symbolic.control_materialize _ _ _) rfl
        ⟨trivial, rfl, rfl, by rw [height]⟩ rfl (lengths.trans height) (Nat.sub_le _ _)
        (Nat.le_sub_of_add_le enoughParams)

/-- An `if` also takes its condition, from above its parameters. -/
theorem next_ifOp
    (live : Live v a)
    (opened : v.frames = frame :: outerFrames)
    (does : Validator.LiveStep mod locals results v frame outerFrames v' (.ifOp blockty))
    (step : SymbolicStep mod locals results (.ifOp blockty) a a') :
    Aligned v' ⟨false, false :: List.replicate a.control.length false⟩ ⟨[], false⟩ a' := by
  cases step with
  | ifOp redirects gone arities enough moved top =>
      rename_i copies params blockResults condition rest view middle
      obtain ⟨_, _, sameArities, enoughParams, rfl⟩ := does
      rw [arities] at sameArities
      cases sameArities
      have height : view.length = v.height := redirects.length_eq.trans live.height
      have depthLe : (if params ≠ 0 then params + 1 else 0) ≤ view.length := by
        split <;> omega
      have lengths := length_view_materialize ((a.rescue copies view).openBlock
        (.ifOp ((a.rescue copies view).headerIndex params) none)
        (view.length - params - 1) params blockResults) locals depthLe
      rw [← moved, top, List.length_cons] at lengths
      change _ = view.length at lengths
      have opens : middle.control = ⟨.ifOp ((a.rescue copies view).headerIndex params)
          none, view.length - params - 1, params, blockResults, false, false, []⟩ ::
            a.control := by
        rw [moved, Symbolic.control_materialize]
        rfl
      refine live.opens opened opens rfl ⟨trivial, rfl, rfl, by rw [height]⟩ rfl ?_ ?_ ?_
      · change rest.length = v.height - 1
        omega
      · change v.height - params - 1 ≤ v.height - 1
        omega
      · change frame.height ≤ v.height - params - 1
        omega

/-- A `br_if` takes its condition and may remember itself at its label. -/
theorem next_brIf
    (live : Live v a)
    (opened : v.frames = frame :: outerFrames)
    (does : Validator.LiveStep mod locals results v frame outerFrames v' (.brIf depth))
    (step : SymbolicStep mod locals results (.brIf depth) a a') :
    Aligned v' ⟨false, List.replicate a.control.length false⟩ ⟨[], false⟩ a' := by
  cases step with
  | brIf redirects gone target enough popped =>
      rename_i copies condition rest block middle
      obtain ⟨_, _, enoughOperands, rfl⟩ := does
      have lengths := redirects.length_eq.trans live.height
      rw [List.length_cons] at lengths
      have viewEq := middle.view_attachUnlessLoop depth block (middle.code.length, u32Max)
      rw [popped] at viewEq
      have labels := middle.map_bare_attachUnlessLoop depth block
        (middle.code.length, u32Max)
      rw [show middle.control = a.control by rw [popped]; rfl] at labels
      have height : (middle.attachUnlessLoop depth block
          (middle.code.length, u32Max)).view.length = v.height - 1 := by
        rw [popped, viewEq]
        change rest.length = v.height - 1
        omega
      exact live.continues opened labels rfl height (by dsimp only; omega)

/-- A `br_table` takes its selector, remembers its arms at their labels, and leaves. -/
theorem next_brTable
    (live : Live v a)
    (opened : v.frames = frame :: outerFrames)
    (does : Validator.LiveStep mod locals results v frame outerFrames v'
      (.brTable targets last))
    (step : SymbolicStep mod locals results (.brTable targets last) a a') :
    Aligned v' ⟨true, List.replicate a.control.length false⟩ ⟨[], true⟩ a' := by
  cases step with
  | brTable redirects gone target allTargets popped arms =>
      rename_i copies selector rest block middle brTargets attached
      obtain ⟨_, _, _, enoughOperands, rfl⟩ := does
      have lengths := redirects.length_eq.trans live.height
      rw [List.length_cons] at lengths
      have labels := middle.map_bare_armsOf locals [] (targets ++ [last])
      have viewEq := middle.view_armsOf locals [] (targets ++ [last])
      rw [arms, popped] at labels viewEq
      refine live.diesLeaving opened labels rfl ?_
      change frame.height ≤ attached.view.length
      rw [viewEq]
      change frame.height ≤ rest.length
      omega

/-- A call replaces the parameters by the results. -/
theorem next_call
    (live : Live v a)
    (opened : v.frames = frame :: outerFrames)
    (does : Validator.LiveStep mod locals results v frame outerFrames v' (.call func))
    (step : SymbolicStep mod locals results (.call func) a a') :
    Aligned v' ⟨false, List.replicate a.control.length false⟩ ⟨[], false⟩ a' := by
  cases step with
  | call typed enough =>
      rename_i ty
      obtain ⟨_, sameType, enoughParams, rfl⟩ := does
      rw [typed] at sameType
      cases sameType
      have height : (relaidView locals (a.materialize locals ty.params.length).view
          ty.params.length ty.results.length).length =
            v.height - ty.params.length + ty.results.length := by
        rw [length_relaidView, length_view_materialize a locals enough, live.height]
      refine live.continues opened ?_ rfl height (by dsimp only; omega)
      change (Symbolic.materialize _ _ _).control.map _ = _
      rw [Symbolic.control_materialize]

/-- A `call_indirect` also takes the index into the table. -/
theorem next_callIndirect
    (live : Live v a)
    (opened : v.frames = frame :: outerFrames)
    (does : Validator.LiveStep mod locals results v frame outerFrames v'
      (.callIndirect typeIndex tableIndex))
    (step : SymbolicStep mod locals results (.callIndirect typeIndex tableIndex) a a') :
    Aligned v' ⟨false, List.replicate a.control.length false⟩ ⟨[], false⟩ a' := by
  have lengths := live.height
  cases step with
  | callIndirect typed top enough =>
      rename_i ty operand rest
      obtain ⟨_, sameType, enoughParams, rfl⟩ := does
      rw [typed] at sameType
      cases sameType
      rw [top, List.length_cons] at lengths
      have height : (relaidView locals rest ty.params.length ty.results.length).length =
          v.height - 1 - ty.params.length + ty.results.length := by
        rw [length_relaidView]
        omega
      exact live.continues opened rfl rfl height (by dsimp only; omega)

/-- A live operator that is lowered keeps the agreement. -/
theorem next
    (live : Live v a)
    (accepted : Validator.step mod locals results v op = some v')
    (step : SymbolicStep mod locals results op a a') :
    Aligned v'
      (Liveness.step ⟨false, List.replicate a.control.length false⟩ op)
      (filterAfter op ⟨[], false⟩) a' := by
  obtain ⟨frame, outerFrames, opened⟩ :=
    List.exists_cons_of_ne_nil (Validator.frames_ne_nil_of_step accepted)
  obtain ⟨inner, outer, control, same, reachable, labelsOuter, above⟩ :=
    live.head opened
  have does := Validator.liveStep_of_step opened reachable above accepted
  have height := live.height
  have frames := Validator.framesStep_of_step accepted
  have taken := step
  cases step with
  | localGet below =>
      obtain ⟨_, rfl⟩ := does
      exact live.continues opened rfl rfl (congrArg (· + 1) height) (Nat.le_succ_of_le above)
  | localSet redirects gone below =>
      obtain ⟨_, enough, rfl⟩ := does
      have lengths := redirects.length_eq
      rw [List.length_cons] at lengths
      exact live.continues opened rfl rfl (by dsimp only [Symbolic.emit]; omega)
        (Nat.le_sub_of_add_le enough)
  | localTee redirects gone below =>
      obtain ⟨_, enough, rfl⟩ := does
      exact live.continues opened rfl rfl (redirects.length_eq.trans height) above
  | const grows interned =>
      cases does
      exact live.continues opened rfl rfl (congrArg (· + 1) height) (Nat.le_succ_of_le above)
  | data enough grows interned =>
      obtain ⟨enoughInputs, rfl⟩ := does
      refine live.continues opened rfl rfl ?_ (by dsimp only; omega)
      exact (length_relaidView locals a.view _ _).trans (by rw [height])
  | dataDrop dataIndex =>
      cases does
      exact live.continues opened rfl rfl height above
  | nop =>
      cases does
      exact live.continues opened rfl rfl height above
  | drop top =>
      obtain ⟨enough, rfl⟩ := does
      rw [top, List.length_cons] at height
      exact live.continues opened rfl rfl (by dsimp only; omega)
        (Nat.le_sub_of_add_le enough)
  | block => exact live.next_block opened does taken
  | loop => exact live.next_loop opened does taken
  | ifOp => exact live.next_ifOp opened does taken
  | brIf => exact live.next_brIf opened does taken
  | call => exact live.next_call opened does taken
  | callIndirect => exact live.next_callIndirect opened does taken
  | br target enough carries =>
      obtain ⟨_, _, _, rfl⟩ := does
      refine live.diesLeaving opened ?_ rfl ?_
      · change (Symbolic.pushMove _ _).control.map _ = _
        rw [Symbolic.control_pushMove, a.map_bare_attachUnlessLoop]
      · change _ ≤ (Symbolic.pushMove _ _).view.length
        rw [view_pushMove, Symbolic.view_attachUnlessLoop, height]
        exact above
  | brTable => exact live.next_brTable opened does taken
  | returnOp opens enough carries =>
      obtain ⟨_, rfl⟩ := does
      refine live.diesLeaving opened ?_ rfl ?_
      · change (Symbolic.pushMove _ _).control.map _ = _
        rw [Symbolic.control_pushMove]
        exact map_bare_attachKey _ _ _
      · change _ ≤ (Symbolic.pushMove _ _).view.length
        rw [view_pushMove]
        exact above.trans height.symm.le
  | unreachable =>
      cases does
      exact live.diesLeaving opened rfl rfl (above.trans height.symm.le)
  | elseOp opens kind heightEq moved =>
      obtain ⟨live', lengthEq⟩ := live_of_elseOp frames opened control same
        labelsOuter live.nested taken
      have agreed := Aligned.live live'
      rw [lengthEq, control] at agreed
      rw [control]
      exact agreed
  | endOp opens heightEq moved =>
      obtain ⟨live', controlEq⟩ := live_of_endOp frames opened control same
        labelsOuter live.nested taken
      have agreed := Aligned.live live'
      rw [controlEq] at agreed
      rw [control]
      exact agreed

end Next

end Live

/-! ## Dead code -/

open UnreachableTrackingControlStack (isBlock)

namespace Dead

variable {v v' : Validator} {a : Symbolic} {deadFrames : List Frame}
  {blocks : List BlockVariant}

/-- An operator that opens or closes nothing leaves the agreement. -/
theorem stays
    (agree : Dead v deadFrames blocks a)
    (frames : ∃ frame outer, v.frames = frame :: outer ∧
      (v'.frames = v.frames ∨ v'.frames = Validator.markedFrames frame outer)) :
    ∃ deadFrames', deadFrames'.length = deadFrames.length ∧
      Dead v' deadFrames' blocks a := by
  obtain ⟨head, rest, isHead, kept | marked⟩ := frames
  · refine ⟨deadFrames, rfl, ?_, agree.deadLabels, agree.nested⟩
    rw [kept]
    exact agree.frames
  · obtain ⟨frame, outerFrames, block, outer, opened, control, same, labels, height⟩ :=
      agree.frames
    have deadLabels := agree.deadLabels
    rw [isHead] at opened
    cases deadFrames with
    | nil =>
        cases opened
        refine ⟨[], rfl, ⟨{ head with unreachable := true }, rest, block, outer,
          marked, control, ⟨same.kind, same.params, same.results, same.height⟩, labels,
          height⟩, deadLabels, agree.nested⟩
    | cons first others =>
        cases opened
        refine ⟨{ head with unreachable := true } :: others, rfl, ⟨frame, outerFrames,
          block, outer, marked, control, same, labels, height⟩, ?_, agree.nested⟩
        cases deadLabels with
        | cons matching rest =>
            rename_i variant variants
            exact .cons (by cases variant <;> exact matching) rest

/-- A construct that the filter knows is opened. -/
theorem opens
    (agree : Dead v deadFrames blocks a)
    (opened : v'.frames = frame :: v.frames)
    (matching : DeadMatches frame variant) :
    Dead v' (frame :: deadFrames) (variant :: blocks) a := by
  obtain ⟨top, outerFrames, block, outer, frames, control, same, labels, height⟩ :=
    agree.frames
  refine ⟨⟨top, outerFrames, block, outer, ?_, control, same, labels, height⟩,
    .cons matching agree.deadLabels, agree.nested⟩
  rw [opened, frames]
  rfl

end Dead

/-- What the filter decides about an operator, and what then stays in
agreement. -/
def Decided
    (mod : ModuleTypes) (locals results : Nat) (v' : Validator) (l : Liveness)
    (a : Symbolic) (op : Operator) (f' : UnreachableTrackingControlStack) :
    UnreachableCheckResult → Prop
  | .continue => l.deadAt op = true ∧ Aligned v' (l.step op) f' a
  | .reachable => l.deadAt op = false ∧ Ready mod locals results a op ∧
      ∀ a', SymbolicStep mod locals results op a a' →
        Aligned v' (l.step op) (filterAfter op f') a'

section Decided

variable {mod : ModuleTypes} {locals results : Nat} {v v' : Validator}
  {l : Liveness} {f : UnreachableTrackingControlStack} {a : Symbolic}
  {op : Operator}

/-- In live code the filter lets every operator through, and the agreement goes on. -/
theorem Live.decided
    (live : Live v a)
    (accepted : v.step mod locals results op = some v') :
    Decided mod locals results v'
      ⟨false, List.replicate a.control.length false⟩ a op ⟨[], false⟩ .reachable := by
  refine ⟨?_, live.ready accepted, fun a' step => live.next accepted step⟩
  obtain ⟨frame, outerFrames, opened⟩ :=
    List.exists_cons_of_ne_nil (Validator.frames_ne_nil_of_step accepted)
  obtain ⟨block, outer, control, _⟩ := live.head opened
  rw [control]
  cases op <;> rfl

theorem Dead.aligned
    {deadFrames : List Frame} {blocks : List BlockVariant}
    (agree : Dead v deadFrames blocks a)
    (same : deadFrames.length = count) :
    Aligned v ⟨true, List.replicate count true ++
      List.replicate a.control.length false⟩ ⟨blocks, true⟩ a := by
  subst same
  exact .dead deadFrames agree

/-- An operator that opens and closes nothing is skipped in dead code. -/
theorem Dead.skips
    {deadFrames : List Frame} {blocks : List BlockVariant}
    (agree : Dead v deadFrames blocks a)
    (frames : ∃ frame outer, v.frames = frame :: outer ∧
      (v'.frames = v.frames ∨ v'.frames = Validator.markedFrames frame outer)) :
    Aligned v' ⟨true, List.replicate deadFrames.length true ++
      List.replicate a.control.length false⟩ ⟨blocks, true⟩ a := by
  obtain ⟨deadFrames', same, agree'⟩ := agree.stays frames
  exact agree'.aligned same

/-- A construct that is opened in dead code is remembered. -/
theorem Dead.skipsOpening
    {deadFrames : List Frame} {blocks : List BlockVariant}
    (agree : Dead v deadFrames blocks a)
    (opened : ∃ params results height,
      v'.frames = ⟨kind, params, results, height, false⟩ :: v.frames)
    (matching : ∀ frame : Frame, frame.kind = kind → DeadMatches frame variant) :
    Aligned v' ⟨true, true :: (List.replicate deadFrames.length true ++
      List.replicate a.control.length false)⟩ ⟨variant :: blocks, true⟩ a := by
  obtain ⟨params, blockResults, height, opened⟩ := opened
  have agreed : Aligned v' ⟨true, List.replicate (deadFrames.length + 1) true ++
      List.replicate a.control.length false⟩ ⟨variant :: blocks, true⟩ a :=
    (agree.opens opened (matching _ rfl)).aligned rfl
  exact agreed

/-- In dead code the filter lets the `else` of a live `if` through. -/
theorem Dead.decides_elseOp
    {deadFrames : List Frame} {blocks : List BlockVariant}
    (agree : Dead v deadFrames blocks a)
    (accepted : v.step mod locals results .elseOp = some v') :
    ∃ result f',
      UnreachableTrackingControlStack.checkUnreachability ⟨blocks, true⟩ .elseOp =
        (.ok (result, f') : Attempt TraceWasmError _) ∧
      Decided mod locals results v' ⟨true, List.replicate deadFrames.length true ++
        List.replicate a.control.length false⟩ a .elseOp f' result := by
  have frames := Validator.framesStep_of_step accepted
  obtain ⟨head, rest, isHead, isThen, rfl⟩ := id frames
  obtain ⟨frame, outerFrames, block, outer, opened, control, same, labels, height⟩ :=
    agree.frames
  rw [isHead] at opened
  cases agree.deadLabels with
  | nil =>
      cases opened
      refine ⟨.reachable, ⟨[], false⟩, rfl, ?_, ?_, fun a' step => ?_⟩
      · rw [control]
        rfl
      · have kind := same.kind
        rw [isThen] at kind
        cases isIf : block.kind with
        | ifOp index elseIndex => exact ⟨block, outer, index, elseIndex, control, isIf, height⟩
        | func => simp [isIf, KindMatches] at kind
        | block => simp [isIf, KindMatches] at kind
        | loop index => simp [isIf, KindMatches] at kind
      · obtain ⟨live, lengthEq⟩ := live_of_elseOp frames isHead control same labels
          agree.nested step
        have agreed := Aligned.live live
        rw [lengthEq, control] at agreed
        rw [control]
        exact agreed
  | @cons first variant others variants matching restMatching =>
      cases opened
      have isIf : variant = .ifOp := by
        cases variant <;> simp_all [DeadMatches]
      subst isIf
      refine ⟨.continue, ⟨.ifOp :: variants, true⟩, rfl, rfl, ?_⟩
      have agreeElse : Dead ⟨⟨.ifElse, head.params, head.results, head.height, false⟩ ::
          (others ++ frame :: outerFrames), head.height + head.params⟩
          (⟨.ifElse, head.params, head.results, head.height, false⟩ :: others)
          (.ifOp :: variants) a :=
        ⟨⟨frame, outerFrames, block, outer, rfl, control, same, labels, height⟩,
          .cons (.inr rfl) restMatching, agree.nested⟩
      exact agreeElse.aligned rfl

/-- In dead code the filter lets the `end` of a live construct through. -/
theorem Dead.decides_endOp
    {deadFrames : List Frame} {blocks : List BlockVariant}
    (agree : Dead v deadFrames blocks a)
    (accepted : v.step mod locals results .endOp = some v') :
    ∃ result f',
      UnreachableTrackingControlStack.checkUnreachability ⟨blocks, true⟩ .endOp =
        (.ok (result, f') : Attempt TraceWasmError _) ∧
      Decided mod locals results v' ⟨true, List.replicate deadFrames.length true ++
        List.replicate a.control.length false⟩ a .endOp f' result := by
  have frames := Validator.framesStep_of_step accepted
  obtain ⟨head, rest, isHead, rfl⟩ := id frames
  obtain ⟨frame, outerFrames, block, outer, opened, control, same, labels, height⟩ :=
    agree.frames
  rw [isHead] at opened
  cases agree.deadLabels with
  | nil =>
      cases opened
      refine ⟨.reachable, ⟨[], false⟩, rfl, ?_, ⟨block, outer, control, height⟩,
        fun a' step => ?_⟩
      · rw [control]
        rfl
      · obtain ⟨live, controlEq⟩ := live_of_endOp frames isHead control same labels
          agree.nested step
        have agreed := Aligned.live live
        rw [controlEq] at agreed
        rw [control]
        exact agreed
  | @cons first variant others variants matching restMatching =>
      cases opened
      refine ⟨.continue, ⟨variants, true⟩, rfl, rfl, ?_⟩
      exact Dead.aligned ⟨⟨frame, outerFrames, block, outer, rfl, control, same, labels,
        height⟩, restMatching, agree.nested⟩ rfl

/-- The filter decides as the spec of deadness does, and the agreement goes on,
as long as no `try_table` is dead. -/
theorem Aligned.decides
    (aligned : Aligned v l f a)
    (accepted : v.step mod locals results op = some v')
    (known : l.dead = true → ∀ blockty debug, op ≠ .tryTable blockty debug) :
    ∃ result f', f.checkUnreachability op =
        (.ok (result, f') : Attempt TraceWasmError _) ∧
      Decided mod locals results v' l a op f' result := by
  cases aligned with
  | live live => exact ⟨.reachable, ⟨[], false⟩, rfl, live.decided accepted⟩
  | dead deadFrames agree =>
      have frames := Validator.framesStep_of_step accepted
      cases op with
      | tryTable blockty debug => exact absurd rfl (known rfl blockty debug)
      | elseOp => exact agree.decides_elseOp accepted
      | endOp => exact agree.decides_endOp accepted
      | block blockty =>
          exact ⟨.continue, _, rfl, rfl, agree.skipsOpening frames.2 fun _ kind => kind⟩
      | loop blockty =>
          exact ⟨.continue, _, rfl, rfl, agree.skipsOpening frames.2 fun _ kind => kind⟩
      | ifOp blockty =>
          exact ⟨.continue, _, rfl, rfl, agree.skipsOpening frames.2 fun _ kind => .inl kind⟩
      | _ => exact ⟨.continue, _, rfl, rfl, agree.skips frames⟩

end Decided

end Register
end TraceWasm
