import TraceWasm.Stack.Sites

/-!
# Lowered bodies are balanced

Each position of a body is reached at one operand height. An instruction finds its
operands above the frame's first operand, and leaves the height at which the
instructions it goes on to are reached.
-/

namespace TraceWasm
namespace Stack

open Nesting (ElseAt EndsAt)

/-! ## Balanced code -/

/-- A branch finds what it carries above the height of its label, and leaves that at
the height at which the code behind the label is reached. -/
structure Target.Lands (heights : Nat → Option Nat) (height : Nat) (target : Target) :
    Prop where
  enough : target.recordedHeight + target.arity ≤ height
  arrives : heights target.targetIndex = some (target.recordedHeight + target.arity)

/-- An instruction that is reached at a height finds its operands and its local, and
goes on at the right height. -/
def StackInstruction.Fits
    (mod : ModuleTypes) (localsCount : Nat) (arena : List Target)
    (heights : Nat → Option Nat) (index height : Nat) : StackInstruction → Prop
  | .const _ => heights (index + 1) = some (height + 1)
  | .localGet localIndex => localIndex < localsCount ∧
      heights (index + 1) = some (height + 1)
  | .localSet localIndex => localIndex < localsCount ∧ 1 ≤ height ∧
      heights (index + 1) = some (height - 1)
  | .localTee localIndex => localIndex < localsCount ∧ 1 ≤ height ∧
      heights (index + 1) = some height
  | .data op => op.inputs ≤ height ∧
      heights (index + 1) = some (height - op.inputs + op.outputs)
  | .dataDrop _ => heights (index + 1) = some height
  | .nop => heights (index + 1) = some height
  | .drop => 1 ≤ height ∧ heights (index + 1) = some (height - 1)
  | .block => heights (index + 1) = some height
  | .loop => heights (index + 1) = some height
  | .ifOp elseIndex endIndex => 1 ≤ height ∧ heights (index + 1) = some (height - 1) ∧
      heights (elseIndex.elim endIndex (· + 1)) = some (height - 1)
  | .elseOp ifEndIndex => heights ifEndIndex = some height
  | .endOp arity recordedHeight => height = recordedHeight + arity ∧
      heights (index + 1) = some height
  | .br target => target.Lands heights height
  | .brIf target => 1 ≤ height ∧ target.Lands heights (height - 1) ∧
      heights (index + 1) = some (height - 1)
  | .brTable startIndex len => 1 ≤ height ∧ 0 < len ∧ startIndex + len ≤ arena.length ∧
      ∀ target ∈ (arena.drop startIndex).take len, target.Lands heights (height - 1)
  | .returnOp target => target.Lands heights height
  | .call funcIndex paramsCount => ∃ ty, mod.funcType funcIndex = some ty ∧
      paramsCount = ty.params.length ∧ paramsCount ≤ height ∧
      heights (index + 1) = some (height - paramsCount + ty.results.length)
  | .callIndirect tyIndex _ => ∃ ty, mod.types[tyIndex]? = some ty ∧
      ty.params.length + 1 ≤ height ∧
      heights (index + 1) = some (height - 1 - ty.params.length + ty.results.length)
  | .unreachable => True

/-- The heights are those of the code. -/
structure Balanced
    (mod : ModuleTypes) (localsCount results : Nat) (code : List StackInstruction)
    (arena : List Target) (heights : Nat → Option Nat) : Prop where
  first : heights 0 = some 0
  last : heights code.length = some results
  inside : ∀ index height, heights index = some height → index ≤ code.length
  fits : ∀ index instr height, code[index]? = some instr → heights index = some height →
    instr.Fits mod localsCount arena heights index height

/-! ## Lowering balances -/

section Lowered

variable {mod : ModuleTypes} {func : FuncHeader} {ops : List Operator}
  {body : LoweredFuncBody} {position : Nat}

namespace Site

variable {op : Operator} {instr : StackInstruction} {s : Lowering} {v v' : Validator}
  {height : Nat}

/-- A branch to a frame around live code lands. -/
theorem lands
    {depth : Nat} {target : Target} {head : Frame} {outer : List Frame}
    (site : Site mod func ops body position op instr s v v')
    (live : (Liveness.after (ops.take position)).dead = false)
    (aims : Aims ops position v depth target)
    (opened : v.frames = head :: outer)
    (enough : head.height + target.arity ≤ height) :
    target.Lands (heights mod func ops) height := by
  obtain ⟨frame, isFrame, arity, recorded⟩ := aims.frame
  have below : frame.height ≤ head.height := by
    have layered := Validator.layered_before site.ran (Nat.le_of_lt site.inside)
    unfold Validator.Layered at layered
    rw [opened] at layered isFrame
    exact Layers.getElem?_le (show Layers head.height (head :: outer) from
      ⟨le_rfl, layered.2⟩) isFrame
  constructor
  · rw [recorded]
    omega
  · rw [arity, recorded]
    exact heights_of_branch site.validates site.inside site.ran live isFrame aims.goes

/-- A branch carries what the validator found on top. -/
theorem arity_of_aims
    {depth : Nat} {target : Target} {frame : Frame}
    (aims : Aims ops position v depth target)
    (isFrame : v.frames[depth]? = some frame) :
    target.arity = frame.labelArity := by
  obtain ⟨other, isOther, arity, _⟩ := aims.frame
  rw [isFrame] at isOther
  cases isOther
  exact arity

/-- The `else` and the `end` of an `if` are where its false edge goes. -/
theorem fits_if
    {blockty : BlockType}
    (site : Site mod func ops body position (.ifOp blockty) instr s v v')
    (live : (Liveness.after (ops.take position)).dead = false) :
    instr.Fits mod func.localsCount body.frame.brTargetsArena (heights mod func ops)
      position v.height := by
  obtain ⟨elseIndex, endIndex, rfl, isElse, noElse, ends⟩ := site.becomes_if
  have next := site.next live rfl (by simp) (by simp)
  obtain ⟨entry, isEntry, height⟩ := entryOf_if site.validates site.found site.ran live
  obtain ⟨frame, outer, opened⟩ := site.opened
  obtain ⟨_, step⟩ := site.step live opened
  obtain ⟨params, results, _, enough, rfl⟩ := step
  have below : v.height - 1 = entry.height + entry.params := by omega
  refine ⟨by omega, next, ?_⟩
  rw [below]
  cases elseIndex with
  | none => exact heights_of_noElse site.validates site.found (noElse rfl) ends isEntry live
  | some elseIndex => exact heights_of_elseArm site.validates (isElse _ rfl) isEntry live

/-- The `then` arm goes on behind the `else` arm. -/
theorem fits_else
    (site : Site mod func ops body position .elseOp instr s v v')
    (notDead : (Liveness.after (ops.take position)).deadAt .elseOp = false) :
    instr.Fits mod func.localsCount body.frame.brTargetsArena (heights mod func ops)
      position (v.arrival .elseOp) := by
  obtain ⟨opener, endIndex, rfl, isElse, ends⟩ := site.becomes_else
  obtain ⟨frame, outer, opened⟩ := site.opened
  have entries := entries_before site.ran (Nat.le_of_lt site.inside)
  have deads := openedDead_before ops position
  have innermost := isElse.2
  unfold Nesting.InnermostAt at innermost
  rw [opened] at entries
  obtain ⟨construct, rest, isEntry, _, nesting⟩ := List.forall₂_cons_right_iff.mp entries
  rw [nesting] at innermost deads
  rw [List.head?_cons, Option.map_some, Option.some.injEq] at innermost
  rw [innermost] at isEntry
  unfold Liveness.deadAt at notDead
  dsimp only at notDead
  rw [← deads, List.map_cons, List.headD_cons, innermost] at notDead
  have arrives := heights_of_end site.validates ends isEntry notDead
  unfold Validator.arrival
  rw [opened]
  exact arrives

/-- An `end` checks the height that the validator knows. -/
theorem fits_end
    (site : Site mod func ops body position .endOp instr s v v')
    (notDead : (Liveness.after (ops.take position)).deadAt .endOp = false) :
    instr.Fits mod func.localsCount body.frame.brTargetsArena (heights mod func ops)
      position (v.arrival .endOp) := by
  obtain ⟨frame, outer, opened, rfl⟩ := site.becomes_end notDead
  obtain ⟨_, _, _, _, _, openedDead, _, _⟩ := site.agrees.head opened
  unfold Liveness.deadAt at notDead
  dsimp only at notDead
  rw [openedDead] at notDead
  obtain ⟨_, _, isFrames, rfl⟩ := Validator.framesStep_of_step site.accepted
  rw [opened] at isFrames
  cases isFrames
  unfold Validator.arrival
  rw [opened]
  refine ⟨rfl, ?_⟩
  change heights mod func ops (position + 1) = some (frame.height + frame.results)
  cases isOuter : outer with
  | nil =>
      -- the function's own `end` comes last
      have isLast := site.validates.length_of_closed site.ranNext site.inside isOuter
      rw [isLast, heights_length]
      have entries := entries_before site.ran (Nat.le_of_lt site.inside)
      obtain ⟨construct, isOutermost, isFunction⟩ :=
        site.validates.wellNested.outermost site.inside
      rw [opened, isOuter] at entries
      obtain ⟨first, others, isEntry, rests, nesting⟩ := List.forall₂_cons_right_iff.mp entries
      rw [List.forall₂_nil_right_iff] at rests
      rw [nesting, rests, List.getLast?_singleton, Option.some.injEq] at isOutermost
      rw [isOutermost, isFunction] at isEntry
      have entry := (Option.some.inj isEntry).symm
      have height := congrArg Entry.height entry
      have results := congrArg Entry.results entry
      change frame.height = 0 at height
      change frame.results = func.results at results
      rw [height, results, Nat.zero_add]
  | cons second others =>
      have more : outer ≠ [] := by simp [isOuter]
      apply heights_of_live site.validates
        (site.validates.inside_of_frames site.ranNext site.inside more) site.ranNext
      rw [Liveness.after_succ site.found]
      unfold Liveness.step
      dsimp only
      rw [openedDead]
      exact notDead

/-- Every arm of a `br_table` lands. -/
theorem fits_brTable
    {targets : List Nat} {last : Nat}
    (site : Site mod func ops body position (.brTable targets last) instr s v v')
    (live : (Liveness.after (ops.take position)).dead = false) :
    instr.Fits mod func.localsCount body.frame.brTargetsArena (heights mod func ops)
      position v.height := by
  obtain ⟨start, rfl, inside, arms⟩ := site.becomes_brTable live
  obtain ⟨frame, outer, opened⟩ := site.opened
  obtain ⟨_, target, isFrame, uniform, enough, _⟩ := site.step live opened
  refine ⟨by omega, Nat.succ_pos _, inside, ?_⟩
  intro arm isArm
  obtain ⟨slot, below, rfl⟩ := List.getElem_of_mem isArm
  have depthBelow : slot < (targets ++ [last]).length := arms.length_eq ▸ below
  have aims := (List.forall₂_iff_get.mp arms).2 slot depthBelow below
  simp only [List.get_eq_getElem] at aims
  have arity : (body.frame.brTargetsArena.drop start |>.take (targets.length + 1))[slot].arity =
      target.labelArity := by
    rcases List.mem_append.mp (List.getElem_mem depthBelow) with isTarget | isLast
    · obtain ⟨other, isOther, same⟩ := uniform _ isTarget
      rw [arity_of_aims aims isOther, same]
    · rw [List.mem_singleton.mp isLast] at aims
      exact arity_of_aims aims isFrame
  exact site.lands live aims opened (by omega)

/-- Every instruction that control arrives at fits. -/
theorem fits
    (site : Site mod func ops body position op instr s v v')
    (arrives : heights mod func ops position = some height) :
    instr.Fits mod func.localsCount body.frame.brTargetsArena (heights mod func ops)
      position height := by
  obtain ⟨notDead, rfl⟩ := site.arrival arrives
  have becomes := site.becomes notDead
  obtain ⟨frame, outer, opened⟩ := site.opened
  cases op with
  | ifOp blockty => exact site.fits_if notDead
  | elseOp => exact site.fits_else notDead
  | endOp => exact site.fits_end notDead
  | br depth =>
      obtain ⟨target, rfl, aims⟩ := becomes
      obtain ⟨_, other, isFrame, enough, _⟩ := site.step notDead opened
      have arity := arity_of_aims aims isFrame
      exact site.lands notDead aims opened (by rw [arity]; exact enough)
  | brIf depth =>
      obtain ⟨target, rfl, aims⟩ := becomes
      have next := site.next notDead rfl (by simp) (by simp)
      obtain ⟨_, other, isFrame, enough, rfl⟩ := site.step notDead opened
      have arity := arity_of_aims aims isFrame
      have carried : frame.height + target.arity ≤ v.height - 1 := by omega
      exact ⟨show 1 ≤ v.height by omega, site.lands notDead aims opened carried, next⟩
  | brTable targets last => exact site.fits_brTable notDead
  | returnOp =>
      obtain ⟨target, rfl, arity, aims⟩ := site.becomes_return notDead
      obtain ⟨_, enough, _⟩ := site.step notDead opened
      exact site.lands notDead aims opened (by rw [arity]; exact enough)
  | unreachable =>
      cases becomes
      trivial
  | localGet index =>
      cases becomes
      have next := site.next notDead rfl (by simp) (by simp)
      obtain ⟨_, below, rfl⟩ := site.step notDead opened
      exact ⟨below, next⟩
  | localSet index =>
      cases becomes
      have next := site.next notDead rfl (by simp) (by simp)
      obtain ⟨_, below, enough, rfl⟩ := site.step notDead opened
      exact ⟨below, show 1 ≤ v.height by omega, next⟩
  | localTee index =>
      cases becomes
      have next := site.next notDead rfl (by simp) (by simp)
      obtain ⟨_, below, enough, rfl⟩ := site.step notDead opened
      exact ⟨below, show 1 ≤ v.height by omega, next⟩
  | const value =>
      cases becomes
      have next := site.next notDead rfl (by simp) (by simp)
      obtain ⟨_, rfl⟩ := site.step notDead opened
      exact next
  | data op =>
      cases becomes
      have next := site.next notDead (show (Operator.data op).diverges = false from rfl)
        (by simp) (by simp)
      obtain ⟨_, enough, rfl⟩ := site.step notDead opened
      have inputs : (Lowering.narrowOffset op.dropMemory).inputs = op.inputs := by
        cases op <;> rfl
      have outputs : (Lowering.narrowOffset op.dropMemory).outputs = op.outputs := by
        cases op <;> rfl
      refine ⟨show _ ≤ v.height by omega, ?_⟩
      rw [inputs, outputs]
      exact next
  | drop =>
      cases becomes
      have next := site.next notDead rfl (by simp) (by simp)
      obtain ⟨_, enough, rfl⟩ := site.step notDead opened
      exact ⟨show 1 ≤ v.height by omega, next⟩
  | call functionIndex =>
      obtain ⟨ty, typed, rfl⟩ := becomes
      have next := site.next notDead rfl (by simp) (by simp)
      obtain ⟨_, other, typedOther, enough, rfl⟩ := site.step notDead opened
      rw [typed] at typedOther
      cases typedOther
      exact ⟨ty, typed, rfl, show _ ≤ v.height by omega, next⟩
  | callIndirect typeIndex tableIndex =>
      obtain ⟨⟨ty, typed⟩, rfl⟩ := becomes
      have next := site.next notDead rfl (by simp) (by simp)
      obtain ⟨_, other, typedOther, enough, rfl⟩ := site.step notDead opened
      rw [typed] at typedOther
      cases typedOther
      exact ⟨ty, typed, show _ ≤ v.height by omega, next⟩
  | block blockty =>
      cases becomes
      have next := site.next notDead rfl (by simp) (by simp)
      obtain ⟨_, _, _, _, _, rfl⟩ := site.step notDead opened
      exact next
  | loop blockty =>
      cases becomes
      have next := site.next notDead rfl (by simp) (by simp)
      obtain ⟨_, _, _, _, _, rfl⟩ := site.step notDead opened
      exact next
  | dataDrop dataIndex =>
      cases becomes
      have next := site.next notDead rfl (by simp) (by simp)
      obtain ⟨_, rfl⟩ := site.step notDead opened
      exact next
  | nop =>
      cases becomes
      have next := site.next notDead rfl (by simp) (by simp)
      obtain ⟨_, rfl⟩ := site.step notDead opened
      exact next
  | tryTable blockty debug => exact becomes.elim
  | other op => exact becomes.elim

end Site

/-! ## Lowered bodies -/

section Emitted

variable {located : List (Operator × Nat)}

/-- Each operator becomes one instruction. -/
theorem length_of_emitted
    (validates : Validates mod func (located.map Prod.fst))
    (emitted : emitInstructionsForFunc mod func located = .ok body) :
    body.instructions.length = located.length := by
  obtain ⟨state, stages⟩ := stages_of_emitted validates emitted
  rw [← stages.last.1]
  exact stages.len located.length le_rfl

/-- The operator of a position, its instruction, and what is known of them. -/
theorem site_of_emitted
    {op : Operator}
    (validates : Validates mod func (located.map Prod.fst))
    (emitted : emitInstructionsForFunc mod func located = .ok body)
    (found : (located.map Prod.fst)[position]? = some op) :
    ∃ instr s v v', body.instructions[position]? = some instr ∧
      Site mod func (located.map Prod.fst) body position op instr s v v' := by
  have length : (located.map Prod.fst).length = located.length := List.length_map _
  obtain ⟨structured, _⟩ := structured_of_emitted validates emitted
  obtain ⟨state, stages⟩ := stages_of_emitted validates emitted
  rw [List.getElem?_map] at found
  obtain ⟨⟨_, offset⟩, isLocated, same⟩ := Option.map_eq_some_iff.mp found
  cases same
  have found := map_fst_getElem? isLocated
  have inside := (List.getElem?_eq_some_iff.mp isLocated).1
  have below : position < body.instructions.length := by
    rwa [length_of_emitted validates emitted]
  have isInstr := List.getElem?_eq_getElem below
  obtain ⟨v, v', ran, accepted, ranNext⟩ := validates.step found
  obtain ⟨shape, added, emission, isShape, areArms⟩ := stages.emitted isLocated
  rw [isInstr, Option.map_some, Option.some.injEq] at isShape
  have own : OwnIndex (ownStarts (located.map Prod.fst)) position position := by
    unfold OwnIndex ownStarts
    omega
  have isControl : body.controls[position]? =
      some (body.instructions[position].control body.frame.brTargetsArena) := by
    unfold LoweredFuncBody.controls
    rw [List.getElem?_map, isInstr]
    rfl
  have starts : (fun position => min position located.length) =
      ownStarts (located.map Prod.fst) := by
    funext position
    unfold ownStarts
    rw [length]
  rw [starts] at structured
  exact ⟨_, state position, v, v', isInstr, validates, found, ran, accepted, ranNext,
    stages.agrees (Nat.le_of_lt inside) ran, ⟨shape, added, emission, isShape, areArms⟩,
    structured.own _ _ _ _ found own isControl⟩

/-- The offsets of the operators. -/
theorem offsets_of_emitted
    (validates : Validates mod func (located.map Prod.fst))
    (emitted : emitInstructionsForFunc mod func located = .ok body) :
    body.instructionOffsets = located.map fun operator => operator.2 % 2 ^ 32 := by
  obtain ⟨_, parallel⟩ := structured_of_emitted validates emitted
  have length : body.instructionOffsets.length = located.length := by
    rw [parallel.length, ← length_of_emitted validates emitted]
    exact List.length_map _
  apply List.ext_getElem?
  intro index
  rw [List.getElem?_map]
  cases isLocated : located[index]? with
  | none =>
      rw [List.getElem?_eq_none_iff] at isLocated
      rw [List.getElem?_eq_none (by omega)]
      rfl
  | some operator =>
      obtain ⟨op, offset⟩ := operator
      have inside := (List.getElem?_eq_some_iff.mp isLocated).1
      exact parallel.offset index op offset index isLocated (Nat.min_le_left _ _)
        (show index < min (index + 1) located.length by omega)

/-- A lowered body of a validated one is balanced. -/
theorem balanced_of_emitted
    (validates : Validates mod func (located.map Prod.fst))
    (emitted : emitInstructionsForFunc mod func located = .ok body) :
    Balanced mod func.localsCount func.results body.instructions body.frame.brTargetsArena
      (heights mod func (located.map Prod.fst)) := by
  have length : (located.map Prod.fst).length = body.instructions.length := by
    rw [length_of_emitted validates emitted, List.length_map]
  have ran : Validator.before mod func (located.map Prod.fst) 0 =
      some (.initial func.params func.results) := rfl
  constructor
  · exact heights_of_live validates
      (validates.inside_of_frames ran (Nat.zero_le _) (List.cons_ne_nil _ _)) ran rfl
  · rw [← length]
    exact heights_length
  · intro index height arrives
    rw [← length]
    exact le_of_heights arrives
  · intro index instr height isInstr arrives
    have inside := (List.getElem?_eq_some_iff.mp isInstr).1
    rw [← length] at inside
    obtain ⟨other, _, _, _, isOther, site⟩ :=
      site_of_emitted validates emitted (List.getElem?_eq_getElem inside)
    rw [isInstr] at isOther
    cases isOther
    exact site.fits arrives

end Emitted

end Lowered

end Stack
end TraceWasm
