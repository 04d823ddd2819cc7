import TraceWasm.Stack.Emission

/-!
# What an operator becomes

Each operator of a validated body owns the instruction of its position. Up to the
indices that closing labels filled in, that is the one the lowering emitted; the
indices are those that the structure of the body prescribes, and the heights and
arities those that the validator knows.
-/

namespace TraceWasm
namespace Stack

open Nesting (BranchesTo ElseAt EndsAt)

section Lowered

variable {mod : ModuleTypes} {func : FuncHeader} {ops : List Operator}
  {body : LoweredFuncBody} {position : Nat}

/-- Each operator owns the instruction of its position. -/
abbrev ownStarts (ops : List Operator) (position : Nat) : Nat :=
  min position ops.length

theorem eq_of_ownIndex
    {index : Nat}
    (inside : position < ops.length)
    (own : OwnIndex (ownStarts ops) position index) :
    index = position := by
  have above := own.1
  have below := own.2
  unfold ownStarts at above below
  omega

theorem endsAt_of_endIndex
    {opener : Option Nat} {index : Nat}
    (ends : EndIndex ops (ownStarts ops) opener index) :
    EndsAt ops opener index := by
  obtain ⟨last, endsAt, own⟩ := ends
  rwa [eq_of_ownIndex (List.getElem?_eq_some_iff.mp endsAt.1).1 own]

theorem branchesTo_of_branchIndex
    {relativeDepth index : Nat}
    (branch : BranchIndex ops (ownStarts ops) position relativeDepth index) :
    BranchesTo ops position relativeDepth index := by
  obtain ⟨target, branches, own⟩ := branch
  have inside : target < ops.length := by
    obtain ⟨construct, _, leads⟩ := branches
    rcases leads with ⟨⟨opener, blockty, isOpener, isLoop⟩, same⟩ | ⟨_, isEnd, _⟩
    · rw [isOpener] at same
      cases same
      exact (List.getElem?_eq_some_iff.mp isLoop).1
    · exact (List.getElem?_eq_some_iff.mp isEnd).1
  rwa [eq_of_ownIndex inside own]

/-- Each image of a finished map is the image of its item. -/
theorem forall₂_of_mapM
    {α β : Type} {image : α → Option β} {list : List α} {images : List β}
    (finished : list.mapM image = some images) :
    List.Forall₂ (fun item value => image item = some value) list images := by
  induction list generalizing images with
  | nil =>
      cases finished
      exact .nil
  | cons item rest inductionHypothesis =>
      rw [List.mapM_cons] at finished
      obtain ⟨first, isFirst, finished⟩ := Option.bind_eq_some_iff.mp finished
      obtain ⟨others, areOthers, same⟩ := Option.bind_eq_some_iff.mp finished
      cases same
      exact .cons isFirst (inductionHypothesis areOthers)

/-! ## An instruction up to its indices -/

/-- The instruction goes to an index that is patched. -/
def StackInstruction.aims : StackInstruction → Bool
  | .ifOp _ _ => true
  | .elseOp _ => true
  | .br _ => true
  | .brIf _ => true
  | .returnOp _ => true
  | _ => false

theorem eq_of_unaimed
    {instr emitted : StackInstruction}
    (same : instr.unaimed = emitted.unaimed)
    (fixed : emitted.aims = false) :
    instr = emitted := by
  cases emitted <;> first | (cases instr <;> cases same <;> rfl) | cases fixed

theorem unaimed_eq_br
    {instr : StackInstruction} {target : Target}
    (same : instr.unaimed = (StackInstruction.br target).unaimed) :
    ∃ index, instr = .br { target with targetIndex := index } := by
  cases instr <;> simp only [StackInstruction.unaimed, reduceCtorEq,
    StackInstruction.br.injEq, Target.unaimed, Target.mk.injEq, true_and] at same
  rename_i other
  refine ⟨other.targetIndex, ?_⟩
  rw [← same.1, ← same.2]

theorem unaimed_eq_brIf
    {instr : StackInstruction} {target : Target}
    (same : instr.unaimed = (StackInstruction.brIf target).unaimed) :
    ∃ index, instr = .brIf { target with targetIndex := index } := by
  cases instr <;> simp only [StackInstruction.unaimed, reduceCtorEq,
    StackInstruction.brIf.injEq, Target.unaimed, Target.mk.injEq, true_and] at same
  rename_i other
  refine ⟨other.targetIndex, ?_⟩
  rw [← same.1, ← same.2]

theorem unaimed_eq_returnOp
    {instr : StackInstruction} {target : Target}
    (same : instr.unaimed = (StackInstruction.returnOp target).unaimed) :
    ∃ index, instr = .returnOp { target with targetIndex := index } := by
  cases instr <;> simp only [StackInstruction.unaimed, reduceCtorEq,
    StackInstruction.returnOp.injEq, Target.unaimed, Target.mk.injEq, true_and] at same
  rename_i other
  refine ⟨other.targetIndex, ?_⟩
  rw [← same.1, ← same.2]

/-! ## The instruction of an operator -/

/-- A branch carries what the label of a frame takes, unwinds to where the frame
starts, and goes where a branch to the label leads. -/
structure Aims
    (ops : List Operator) (position : Nat) (v : Validator) (depth : Nat) (target : Target) :
    Prop where
  frame : ∃ frame, v.frames[depth]? = some frame ∧ target.arity = frame.labelArity ∧
    target.recordedHeight = frame.height
  goes : BranchesTo ops position depth target.targetIndex

/-- The instruction of a reachable operator, the validator before it given. -/
def Becomes
    (mod : ModuleTypes) (ops : List Operator) (arena : List Target) (position : Nat)
    (v : Validator) (instr : StackInstruction) : Operator → Prop
  | .localGet index => instr = .localGet index
  | .localSet index => instr = .localSet index
  | .localTee index => instr = .localTee index
  | .const value => instr = .const value
  | .data op => instr = .data (Lowering.narrowOffset op.dropMemory)
  | .dataDrop dataIndex => instr = .dataDrop dataIndex
  | .nop => instr = .nop
  | .drop => instr = .drop
  | .block _ => instr = .block
  | .loop _ => instr = .loop
  | .ifOp _ => ∃ elseIndex endIndex, instr = .ifOp elseIndex endIndex ∧
      (∀ elseAt, elseIndex = some elseAt → ElseAt ops (some position) elseAt) ∧
      (elseIndex = none → ∀ elseAt, ¬ElseAt ops (some position) elseAt) ∧
      EndsAt ops (some position) endIndex
  | .elseOp => ∃ opener endIndex, instr = .elseOp endIndex ∧ ElseAt ops opener position ∧
      EndsAt ops opener endIndex
  | .endOp => ∃ frame outer, v.frames = frame :: outer ∧
      instr = .endOp frame.results frame.height
  | .br depth => ∃ target, instr = .br target ∧ Aims ops position v depth target
  | .brIf depth => ∃ target, instr = .brIf target ∧ Aims ops position v depth target
  | .brTable targets last => ∃ start, instr = .brTable start (targets.length + 1) ∧
      start + (targets.length + 1) ≤ arena.length ∧
      List.Forall₂ (Aims ops position v) (targets ++ [last])
        ((arena.drop start).take (targets.length + 1))
  | .returnOp => ∃ target, instr = .returnOp target ∧
      Aims ops position v (v.frames.length - 1) target
  | .call functionIndex => ∃ ty, mod.funcType functionIndex = some ty ∧
      instr = .call functionIndex ty.params.length
  | .callIndirect typeIndex tableIndex => (∃ ty, mod.types[typeIndex]? = some ty) ∧
      instr = .callIndirect typeIndex tableIndex
  | .unreachable => instr = .unreachable
  | .tryTable _ _ => False
  | .other _ => False

/-- A branch to a frame's label aims at the frame. -/
theorem aims_of_same
    {v : Validator} {depth : Nat} {frame : Frame} {block : Block} {target : Target}
    (isFrame : v.frames[depth]? = some frame)
    (same : FrameMatches frame block)
    (isTarget : target.unaimed = (Lowering.targetOf block).unaimed)
    (aimed : BranchIndex ops (ownStarts ops) position depth target.targetIndex) :
    Aims ops position v depth target := by
  refine ⟨⟨frame, isFrame, ?_, ?_⟩, branchesTo_of_branchIndex aimed⟩
  · rw [same.labelArity]
    exact congrArg Target.arity isTarget
  · rw [← same.height]
    exact congrArg Target.recordedHeight isTarget

/-- What is known of an operator and its instruction. -/
structure Site
    (mod : ModuleTypes) (func : FuncHeader) (ops : List Operator)
    (body : LoweredFuncBody) (position : Nat) (op : Operator) (instr : StackInstruction)
    (s : Lowering) (v v' : Validator) : Prop where
  validates : Validates mod func ops
  found : ops[position]? = some op
  ran : Validator.before mod func ops position = some v
  accepted : v.step mod func.localsCount func.results op = some v'
  ranNext : Validator.before mod func ops (position + 1) = some v'
  agrees : Agrees v (Liveness.after (ops.take position)) s.controlStack
  emitted : ∃ emitted added, s.emission mod op = some (emitted, added) ∧
    instr.unaimed = emitted.unaimed ∧
    ((body.frame.brTargetsArena.drop s.brTableTargetBranches.length).take
      added.length).map Target.unaimed = added.map Target.unaimed
  prescribed : op.Prescribes ops (ownStarts ops) position
    (instr.control body.frame.brTargetsArena)

namespace Site

variable {op : Operator} {instr : StackInstruction} {s : Lowering} {v v' : Validator}
  {height : Nat}

theorem opened (site : Site mod func ops body position op instr s v v') :
    ∃ frame outer, v.frames = frame :: outer :=
  List.exists_cons_of_ne_nil (Validator.frames_ne_nil_of_step site.accepted)

theorem inside (site : Site mod func ops body position op instr s v v') :
    position < ops.length :=
  (List.getElem?_eq_some_iff.mp site.found).1

/-- Control arrives at the operator with what the validator says. -/
theorem arrival
    (site : Site mod func ops body position op instr s v v')
    (arrives : heights mod func ops position = some height) :
    (Liveness.after (ops.take position)).deadAt op = false ∧ height = v.arrival op := by
  unfold heights at arrives
  rw [site.found, site.ran] at arrives
  dsimp only at arrives
  split at arrives
  · cases arrives
  · rename_i notDead
    exact ⟨Bool.eq_false_iff.mpr notDead, (Option.some.inj arrives).symm⟩

/-- What the validator does at a live operator. -/
theorem step
    {frame : Frame} {outer : List Frame}
    (site : Site mod func ops body position op instr s v v')
    (live : (Liveness.after (ops.take position)).dead = false)
    (opened : v.frames = frame :: outer) :
    frame.height ≤ v.height ∧
      Validator.LiveStep mod func.localsCount func.results v frame outer v' op := by
  have inside := Nat.le_of_lt site.inside
  have layered := Validator.layered_before site.ran inside
  unfold Validator.Layered at layered
  rw [opened] at layered
  exact ⟨layered.1, Validator.liveStep_of_step opened
    (live_head site.ran inside opened live).1 layered.1 site.accepted⟩

/-- Control goes on behind a live operator. -/
theorem next
    (site : Site mod func ops body position op instr s v v')
    (live : (Liveness.after (ops.take position)).dead = false)
    (goesOn : op.diverges = false)
    (notElse : op ≠ .elseOp) (notEnd : op ≠ .endOp) :
    heights mod func ops (position + 1) = some v'.height :=
  heights_succ site.validates site.found site.ranNext live goesOn notElse notEnd

/-- The label of a frame around live code. -/
theorem label
    {depth : Nat} {frame : Frame}
    (site : Site mod func ops body position op instr s v v')
    (live : (Liveness.after (ops.take position)).dead = false)
    (isFrame : v.frames[depth]? = some frame) :
    ∃ block, s.controlStack.inner[depth]? = some block ∧ FrameMatches frame block := by
  obtain ⟨below, isHere⟩ := List.getElem?_eq_some_iff.mp isFrame
  obtain ⟨lengths, matching⟩ := List.forall₂_iff_get.mp site.agrees.labels
  have isBlock := List.getElem?_eq_getElem (show depth < s.controlStack.inner.length by omega)
  refine ⟨_, isBlock, ?_⟩
  have matched := matching depth below (by omega)
  simp only [List.get_eq_getElem, isHere] at matched
  apply matched
  -- live code stands in constructs that were opened live
  have entries := entries_before site.ran (Nat.le_of_lt site.inside)
  have isConstruct := List.getElem?_eq_getElem
    (show depth < (Nesting.openAt ops position).length by rw [entries.length_eq]; exact below)
  have openedLive := openedLive_of_mem live (List.mem_of_getElem? isConstruct)
  have flags := site.agrees.inherited.trans (openedDead_before ops position).symm
  have flag := congrArg (fun list => list[depth]?) flags
  simp only [List.getElem?_map, isBlock, isConstruct, Option.map_some, Option.some.injEq] at flag
  exact flag.trans openedLive

theorem becomes_br
    {depth : Nat}
    (site : Site mod func ops body position (.br depth) instr s v v')
    (live : (Liveness.after (ops.take position)).dead = false) :
    ∃ target, instr = .br target ∧ Aims ops position v depth target := by
  obtain ⟨emitted, added, emission, same, _⟩ := site.emitted
  obtain ⟨frame, outer, opened⟩ := site.opened
  obtain ⟨_, target, isFrame, _, _⟩ := site.step live opened
  obtain ⟨block, isBlock, matching⟩ := site.label live isFrame
  dsimp only [Lowering.emission, Lowering.simpleInstruction, Lowering.opening] at emission
  rw [isBlock] at emission
  cases emission
  obtain ⟨index, rfl⟩ := unaimed_eq_br same
  obtain ⟨_, aimed, control⟩ := site.prescribed
  cases control
  exact ⟨_, rfl, aims_of_same isFrame matching rfl aimed⟩

theorem becomes_brIf
    {depth : Nat}
    (site : Site mod func ops body position (.brIf depth) instr s v v')
    (live : (Liveness.after (ops.take position)).dead = false) :
    ∃ target, instr = .brIf target ∧ Aims ops position v depth target := by
  obtain ⟨emitted, added, emission, same, _⟩ := site.emitted
  obtain ⟨frame, outer, opened⟩ := site.opened
  obtain ⟨_, target, isFrame, _, _⟩ := site.step live opened
  obtain ⟨block, isBlock, matching⟩ := site.label live isFrame
  dsimp only [Lowering.emission, Lowering.simpleInstruction, Lowering.opening] at emission
  rw [isBlock] at emission
  cases emission
  obtain ⟨index, rfl⟩ := unaimed_eq_brIf same
  obtain ⟨_, aimed, control⟩ := site.prescribed
  cases control
  exact ⟨_, rfl, aims_of_same isFrame matching rfl aimed⟩

/-- The arms of a `br_table` lie in the body's array. -/
theorem becomes_brTable
    {targets : List Nat} {last : Nat}
    (site : Site mod func ops body position (.brTable targets last) instr s v v')
    (live : (Liveness.after (ops.take position)).dead = false) :
    ∃ start, instr = .brTable start (targets.length + 1) ∧
      start + (targets.length + 1) ≤ body.frame.brTargetsArena.length ∧
      List.Forall₂ (Aims ops position v) (targets ++ [last])
        ((body.frame.brTargetsArena.drop start).take (targets.length + 1)) := by
  obtain ⟨emitted, added, emission, same, areArms⟩ := site.emitted
  obtain ⟨frame, outer, opened⟩ := site.opened
  obtain ⟨_, target, isFrame, uniform, _, _⟩ := site.step live opened
  dsimp only [Lowering.emission, Lowering.simpleInstruction, Lowering.opening] at emission
  obtain ⟨arms, areTargets, isEmitted⟩ := Option.map_eq_some_iff.mp emission
  cases isEmitted
  have isTable := eq_of_unaimed same rfl
  subst isTable
  obtain ⟨indices, branches, control⟩ := site.prescribed
  have related := forall₂_of_mapM areTargets
  have armCount : added.length = targets.length + 1 := by
    simpa using related.length_eq.symm
  rw [armCount] at areArms
  have taken := congrArg List.length areArms
  rw [List.length_map, List.length_map, armCount] at taken
  refine ⟨_, rfl, ?_, List.forall₂_iff_get.mpr ⟨?_, ?_⟩⟩
  · rw [List.length_take, List.length_drop] at taken
    omega
  · rw [taken, List.length_append, List.length_singleton]
  intro slot depthBelow below
  have slotBelow : slot < targets.length + 1 := taken ▸ below
  simp only [List.get_eq_getElem]
  -- what the arm is lowered from
  obtain ⟨other, isOther⟩ : ∃ other, v.frames[(targets ++ [last])[slot]]? = some other := by
    rcases List.mem_append.mp (List.getElem_mem depthBelow) with isTarget | isLast
    · obtain ⟨other, isOther, _⟩ := uniform _ isTarget
      exact ⟨other, isOther⟩
    · rw [List.mem_singleton.mp isLast]
      exact ⟨target, isFrame⟩
  obtain ⟨block, isBlock, matching⟩ := site.label live isOther
  have lowered := (List.forall₂_iff_get.mp related).2 slot depthBelow (by omega)
  simp only [List.get_eq_getElem, isBlock, Option.map_some, Option.some.injEq] at lowered
  have shaped := congrArg (fun list => list[slot]?) areArms
  simp only [List.getElem?_map, List.getElem?_eq_getElem below,
    List.getElem?_eq_getElem (show slot < added.length by omega), Option.map_some,
    Option.some.injEq, ← lowered] at shaped
  -- where it goes
  injection control with areIndices
  have aimed := (List.forall₂_iff_get.mp branches).2 slot depthBelow
    (by rw [← branches.length_eq]; exact depthBelow)
  simp only [List.get_eq_getElem, ← areIndices, armsOf, List.getElem_map] at aimed
  exact aims_of_same isOther matching shaped aimed

/-- A `return` is a branch to the function's label, which is the last one. -/
theorem becomes_return
    (site : Site mod func ops body position .returnOp instr s v v')
    (live : (Liveness.after (ops.take position)).dead = false) :
    ∃ target, instr = .returnOp target ∧ target.arity = func.results ∧
      Aims ops position v (v.frames.length - 1) target := by
  obtain ⟨emitted, added, emission, same, _⟩ := site.emitted
  obtain ⟨frame, outer, opened⟩ := site.opened
  have inside := Nat.le_of_lt site.inside
  have entries := entries_before site.ran inside
  have lengths := entries.length_eq
  -- the function is the construct that is not a loop
  obtain ⟨construct, isOutermost, isFunction⟩ :=
    site.validates.wellNested.outermost site.inside
  rw [List.getLast?_eq_getElem?, lengths] at isOutermost
  obtain ⟨isInside, isConstruct⟩ := List.getElem?_eq_some_iff.mp isOutermost
  have isFrame := List.getElem?_eq_getElem (show v.frames.length - 1 < v.frames.length by
    omega)
  have isEntry := (List.forall₂_iff_get.mp entries).2 _ isInside (by omega)
  have frames : FramesAt ops position v := framesAt_of_run site.ran inside
  have isOf := (List.forall₂_iff_get.mp frames).2 _ isInside (by omega)
  simp only [List.get_eq_getElem, isConstruct, isFunction] at isEntry isOf
  have notLoop : ¬Nesting.IsLoop ops construct.opener := by
    rw [isFunction]
    rintro ⟨opener, _, impossible, _⟩
    cases impossible
  have kind := mt isOf.isLoop_iff.mpr notLoop
  obtain ⟨block, isBlock, matching⟩ := site.label live isFrame
  have isLast : s.controlStack.inner.getLast? = some block := by
    rw [List.getLast?_eq_getElem?, ← site.agrees.labels.length_eq]
    exact isBlock
  dsimp only [Lowering.emission, Lowering.simpleInstruction, Lowering.opening] at emission
  rw [isLast] at emission
  cases emission
  obtain ⟨index, rfl⟩ := unaimed_eq_returnOp same
  obtain ⟨_, ends, control⟩ := site.prescribed
  cases control
  have results : v.frames[v.frames.length - 1].results = func.results :=
    (congrArg Entry.results (Option.some.inj isEntry)).symm
  refine ⟨_, rfl, matching.results.trans results, ⟨_, isFrame, ?_, matching.height⟩,
    construct, isOutermost, .inr ⟨notLoop, ?_⟩⟩
  · unfold Frame.labelArity
    rw [if_neg kind]
    exact matching.results
  · rw [isFunction]
    exact endsAt_of_endIndex ends

theorem becomes_if
    {blockty : BlockType}
    (site : Site mod func ops body position (.ifOp blockty) instr s v v') :
    ∃ elseIndex endIndex, instr = .ifOp elseIndex endIndex ∧
      (∀ elseAt, elseIndex = some elseAt → ElseAt ops (some position) elseAt) ∧
      (elseIndex = none → ∀ elseAt, ¬ElseAt ops (some position) elseAt) ∧
      EndsAt ops (some position) endIndex := by
  obtain ⟨emitted, added, emission, same, _⟩ := site.emitted
  obtain ⟨elseIndex, endIndex, isElse, ends, control⟩ := site.prescribed
  cases emission
  cases instr <;> simp only [StackInstruction.unaimed, reduceCtorEq] at same
  cases control
  refine ⟨elseIndex, endIndex, rfl, ?_, ?_, endsAt_of_endIndex ends⟩
  · rintro elseAt rfl
    obtain ⟨here, isElseAt, own⟩ := isElse
    rwa [eq_of_ownIndex (List.getElem?_eq_some_iff.mp isElseAt.1).1 own]
  · rintro rfl
    exact isElse

theorem becomes_else
    (site : Site mod func ops body position .elseOp instr s v v') :
    ∃ opener endIndex, instr = .elseOp endIndex ∧ ElseAt ops opener position ∧
      EndsAt ops opener endIndex := by
  obtain ⟨emitted, added, emission, same, _⟩ := site.emitted
  obtain ⟨opener, endIndex, isElse, ends, control⟩ := site.prescribed
  cases emission
  cases instr <;> simp only [StackInstruction.unaimed, reduceCtorEq] at same
  cases control
  exact ⟨opener, endIndex, rfl, isElse, endsAt_of_endIndex ends⟩

theorem becomes_end
    (site : Site mod func ops body position .endOp instr s v v')
    (notDead : (Liveness.after (ops.take position)).deadAt .endOp = false) :
    ∃ frame outer, v.frames = frame :: outer ∧
      instr = .endOp frame.results frame.height := by
  obtain ⟨emitted, added, emission, same, _⟩ := site.emitted
  obtain ⟨frame, outer, opened⟩ := site.opened
  obtain ⟨block, rest, isInner, matching, _, openedDead, _, _⟩ := site.agrees.head opened
  unfold Liveness.deadAt at notDead
  dsimp only at notDead
  rw [openedDead] at notDead
  have matched := matching notDead
  dsimp only [Lowering.emission, Lowering.simpleInstruction, Lowering.opening] at emission
  rw [isInner] at emission
  cases emission
  refine ⟨frame, outer, opened, ?_⟩
  rw [eq_of_unaimed same rfl, matched.results, matched.height]

/-- What a reachable operator becomes. -/
theorem becomes
    (site : Site mod func ops body position op instr s v v')
    (notDead : (Liveness.after (ops.take position)).deadAt op = false) :
    Becomes mod ops body.frame.brTargetsArena position v instr op := by
  obtain ⟨emitted, added, emission, same, _⟩ := site.emitted
  -- an operator whose instruction goes nowhere
  have plain : ∀ {other : StackInstruction},
      Lowering.emission mod s op = some (other, []) → other.aims = false → instr = other := by
    intro other isEmission fixed
    rw [isEmission] at emission
    cases emission
    exact eq_of_unaimed same fixed
  cases op with
  | ifOp blockty => exact site.becomes_if
  | elseOp => exact site.becomes_else
  | endOp => exact site.becomes_end notDead
  | br depth => exact site.becomes_br notDead
  | brIf depth => exact site.becomes_brIf notDead
  | brTable targets last => exact site.becomes_brTable notDead
  | returnOp =>
      obtain ⟨target, isReturn, _, aims⟩ := site.becomes_return notDead
      exact ⟨target, isReturn, aims⟩
  | call functionIndex =>
      cases typed : mod.funcType functionIndex with
      | none =>
          dsimp only [Lowering.emission, Lowering.simpleInstruction] at emission
          rw [typed] at emission
          cases emission
      | some ty =>
          refine ⟨ty, typed, plain ?_ rfl⟩
          dsimp only [Lowering.emission, Lowering.simpleInstruction]
          rw [typed]
          rfl
  | callIndirect typeIndex tableIndex =>
      cases typed : mod.types[typeIndex]? with
      | none =>
          dsimp only [Lowering.emission, Lowering.simpleInstruction] at emission
          rw [typed] at emission
          cases emission
      | some ty =>
          refine ⟨⟨ty, typed⟩, plain ?_ rfl⟩
          dsimp only [Lowering.emission, Lowering.simpleInstruction]
          rw [typed]
          rfl
  | tryTable blockty debug => cases emission
  | other op => cases emission
  | _ => exact plain rfl rfl

end Site

end Lowered

end Stack
end TraceWasm
