import TraceWasm.Stack.Acts
import TraceWasm.Stack.Balance
import TraceWasm.Wasm.Standing

/-!
# Instructions act as their operators

In a frame at a position of a validated body, the instruction of the position does to
the locals and to all operands what the operator does to the call's own locals and
labels, and both go on at the same place.
-/

namespace TraceWasm

/-- The operator has no effect beyond its call. -/
def Operator.staysInCall : Operator → Bool
  | .data _ => false
  | .dataDrop _ => false
  | .call _ => false
  | .callIndirect _ _ => false
  | .unreachable => false
  | .tryTable _ _ => false
  | .other _ => false
  | _ => true

namespace Stack

open Nesting (LeadsTo openAt)
open Wasm (CallFrame Label LabelFits Stands Shaped exists_last exists_top flat_concat opensLoop
  opensLoop_iff splitTop_append under under_drop)

/-- Both machines go on at an index. -/
inductive Onward (position : Nat) : Step Unit → Step StackCallerBaseData → Nat → Prop where
  | next : Onward position .next .next (position + 1)
  | jumpTo (target : Nat) : Onward position (.jumpTo target) (.jumpTo target) target

/-- The instruction acts on the frame as the operator does. -/
def ActsAlike
    (mod : ModuleTypes) (func : FuncHeader) (ops : List Operator) (arena : List Target)
    (position : Nat) (op : Operator) (instr : StackInstruction) (frame : CallFrame) : Prop :=
  ∃ step after step' index,
    frame.act mod.types ops position op = some (step, after) ∧
    instr.act arena frame.locals frame.flat = some (step', after.locals, after.flat) ∧
    Onward position step step' index ∧ Stands mod func ops index after

/-- Unwinding leaves what lies below the label and what the branch carries. -/
theorem Target.unwind_append
    {target : Target} {base between carried : List Value}
    (height : base.length = target.recordedHeight)
    (arity : carried.length = target.arity) :
    target.unwind (base ++ (between ++ carried)) = base ++ carried := by
  unfold Target.unwind
  rw [← height, ← arity, List.take_left, List.length_append, List.length_append,
    ← Nat.add_assoc, Nat.add_sub_cancel, ← List.append_assoc,
    List.drop_left' (by rw [List.length_append])]

section Sites

variable {mod : ModuleTypes} {func : FuncHeader} {ops : List Operator}
  {body : LoweredFuncBody} {position : Nat} {op : Operator} {instr : StackInstruction}
  {s : Lowering} {v v' : Validator} {frame : CallFrame}

namespace Site

/-- The innermost label starts where the validator's innermost frame does. -/
theorem length_under
    {head : Frame} {outer : List Frame}
    (site : Site mod func ops body position op instr s v v')
    (shaped : Shaped mod func ops position frame)
    (opened : v.frames = head :: outer) :
    (under frame.labels).length = head.height := by
  have entries := entries_before site.ran (Nat.le_of_lt site.inside)
  rw [opened] at entries
  obtain ⟨construct, rest, isEntry, _, nesting⟩ := List.forall₂_cons_right_iff.mp entries
  have found : (Nesting.openers ops position)[0]? = some construct.opener := by
    unfold Nesting.openers
    rw [nesting]
    rfl
  obtain ⟨label, _, isOpener, dropped, entry, isLabelEntry, _, height⟩ := shaped.label found
  rw [List.drop_zero] at dropped
  rw [isOpener, isEntry] at isLabelEntry
  cases isLabelEntry
  rw [dropped]
  exact height

/-- A branch aims at the label of its depth. -/
theorem label_of_aims
    {depth : Nat} {target : Target}
    (site : Site mod func ops body position op instr s v v')
    (shaped : Shaped mod func ops position frame)
    (aims : Aims ops position v depth target) :
    ∃ construct label, (openAt ops position)[depth]? = some construct ∧
      LeadsTo ops construct.opener target.targetIndex ∧
      frame.labels[depth]? = some label ∧ label.arity = target.arity ∧
      (under (frame.labels.drop depth)).length = target.recordedHeight := by
  have inside := Nat.le_of_lt site.inside
  obtain ⟨frameOf, isFrame, arity, recorded⟩ := aims.frame
  obtain ⟨construct, isOpen, leads⟩ := aims.goes
  obtain ⟨isInside, isConstruct⟩ := List.getElem?_eq_some_iff.mp isOpen
  obtain ⟨isBelow, same⟩ := List.getElem?_eq_some_iff.mp isFrame
  have isEntry := (List.forall₂_iff_get.mp (entries_before site.ran inside)).2 depth isInside
    isBelow
  have frames : FramesAt ops position v := framesAt_of_run site.ran inside
  have isOf := (List.forall₂_iff_get.mp frames).2 depth isInside isBelow
  simp only [List.get_eq_getElem, isConstruct, same] at isEntry isOf
  have found : (Nesting.openers ops position)[depth]? = some construct.opener := by
    unfold Nesting.openers
    rw [List.getElem?_map, isOpen]
    rfl
  obtain ⟨label, isLabel, isOpener, dropped, entry, isLabelEntry, labelArity, height⟩ :=
    shaped.label found
  rw [isOpener, isEntry] at isLabelEntry
  cases isLabelEntry
  refine ⟨construct, label, isOpen, leads, isLabel, ?_, ?_⟩
  · rw [labelArity, arity, isOpener]
    unfold Frame.labelArity
    by_cases isLoop : frameOf.kind = .loop
    · rw [if_pos isLoop, if_pos (opensLoop_iff.mpr (isOf.isLoop_iff.mpr isLoop))]
      rfl
    · rw [if_neg isLoop, if_neg (mt opensLoop_iff.mp (mt isOf.isLoop_iff.mp isLoop))]
      rfl
  · rw [dropped, recorded]
    exact height

/-- A branch is taken alike. -/
theorem branches
    {depth : Nat} {target : Target} {rest carried : List Value}
    (site : Site mod func ops body position op instr s v v')
    (live : (Liveness.after (ops.take position)).dead = false)
    (shaped : Shaped mod func ops position frame)
    (aims : Aims ops position v depth target)
    (operands : frame.operands = rest ++ carried)
    (arity : carried.length = target.arity) :
    ∃ after, frame.branch ops depth = some (.jumpTo target.targetIndex, after) ∧
      after.locals = frame.locals ∧ after.flat = target.unwind frame.flat ∧
      target.recordedHeight + target.arity ≤ frame.flat.length ∧
      Stands mod func ops target.targetIndex after := by
  obtain ⟨construct, label, isOpen, leads, isLabel, labelArity, height⟩ :=
    site.label_of_aims shaped aims
  obtain ⟨after, branched, shapedAfter, locals, flat⟩ :=
    shaped.branch isOpen leads isLabel operands (labelArity.trans arity.symm)
  obtain ⟨between, isUnder⟩ := under_drop frame.labels depth
  have isFlat : frame.flat =
      under (frame.labels.drop depth) ++ (between ++ rest ++ carried) := by
    unfold CallFrame.flat
    rw [operands, isUnder]
    simp only [List.append_assoc]
  have unwound : after.flat = target.unwind frame.flat := by
    rw [flat, isFlat, Target.unwind_append height arity]
  have enough : target.recordedHeight + target.arity ≤ frame.flat.length := by
    rw [isFlat]
    simp only [List.length_append]
    omega
  refine ⟨after, branched, locals, unwound, enough, shapedAfter, ?_⟩
  obtain ⟨head, outer, opened⟩ := site.opened
  have lands := site.lands live aims opened (le_refl (head.height + target.arity))
  rw [lands.arrives, unwound, length_unwind enough]

/-- An operator that opens and closes nothing goes on with other operands. -/
theorem goesOn
    {after : CallFrame}
    (site : Site mod func ops body position op instr s v v')
    (shaped : Shaped mod func ops position after)
    (opens : op.opens = false) (notEnd : op ≠ .endOp)
    (height : heights mod func ops (position + 1) = some after.flat.length) :
    Stands mod func ops (position + 1) after :=
  ⟨shaped.move (Nesting.openers_of_plain site.found opens notEnd), height⟩

/-- At a live operator all operands are those that the validator counts, and those of
the innermost label lie above its innermost frame. -/
theorem counts
    {head : Frame} {outer : List Frame}
    (site : Site mod func ops body position op instr s v v')
    (stands : Stands mod func ops position frame)
    (notElse : op ≠ .elseOp) (notEnd : op ≠ .endOp)
    (opened : v.frames = head :: outer) :
    frame.flat.length = v.height ∧ head.height + frame.operands.length = v.height := by
  obtain ⟨_, arrival⟩ := site.arrival stands.height
  have same : v.arrival op = v.height := by
    cases op <;> first | rfl | contradiction
  have below := site.length_under stands.toShaped opened
  rw [same] at arrival
  refine ⟨arrival, ?_⟩
  unfold CallFrame.flat at arrival
  rw [List.length_append, below] at arrival
  exact arrival

/-- A branch without a condition. -/
theorem acts_br
    {depth : Nat}
    (site : Site mod func ops body position (.br depth) instr s v v')
    (stands : Stands mod func ops position frame) :
    ActsAlike mod func ops body.frame.brTargetsArena position (.br depth) instr frame := by
  obtain ⟨live, _⟩ := site.arrival stands.height
  obtain ⟨head, outer, opened⟩ := site.opened
  obtain ⟨target, rfl, aims⟩ := site.becomes_br live
  obtain ⟨_, other, isFrame, enough, _⟩ := site.step live opened
  obtain ⟨_, count⟩ := site.counts stands (by simp) (by simp) opened
  obtain ⟨rest, carried, operands, arity⟩ := exists_top (show target.arity ≤
    frame.operands.length by rw [arity_of_aims aims isFrame]; omega)
  obtain ⟨after, branched, locals, flat, unwinds, left⟩ :=
    site.branches live stands.toShaped aims operands arity
  refine ⟨_, after, _, _, branched, ?_, .jumpTo _, left⟩
  simp only [StackInstruction.act, guard, if_pos unwinds, locals, flat]
  rfl

/-- A branch under a condition. -/
theorem acts_brIf
    {depth : Nat}
    (site : Site mod func ops body position (.brIf depth) instr s v v')
    (stands : Stands mod func ops position frame) :
    ActsAlike mod func ops body.frame.brTargetsArena position (.brIf depth) instr frame := by
  obtain ⟨live, _⟩ := site.arrival stands.height
  obtain ⟨head, outer, opened⟩ := site.opened
  have fits := site.fits stands.height
  obtain ⟨target, rfl, aims⟩ := site.becomes_brIf live
  obtain ⟨_, other, isFrame, enough, _⟩ := site.step live opened
  obtain ⟨_, count⟩ := site.counts stands (by simp) (by simp) opened
  have carries := arity_of_aims aims isFrame
  obtain ⟨below, cond, operands⟩ := exists_last (show 1 ≤ frame.operands.length by omega)
  have flat := flat_concat operands
  have popped : Shaped mod func ops position { frame with operands := below } :=
    stands.toShaped.operate
  unfold ActsAlike
  simp only [CallFrame.act, StackInstruction.act, operands, flat, List.getLast?_concat,
    List.dropLast_concat, Option.bind_eq_bind, Option.bind_some]
  by_cases holds : cond.asI32 ≠ 0
  · rw [operands, List.length_append, List.length_singleton] at count
    obtain ⟨rest, carried, isBelow, arity⟩ := exists_top (show target.arity ≤
      below.length by omega)
    obtain ⟨after, branched, locals, flatAfter, unwinds, left⟩ :=
      site.branches live popped aims isBelow arity
    refine ⟨_, after, _, _, ?_, ?_, .jumpTo _, left⟩
    · rw [if_pos holds]
      exact branched
    · simp only [if_pos holds, guard, if_pos unwinds, locals, flatAfter]
      rfl
  · refine ⟨_, { frame with operands := below }, _, _, ?_, ?_, .next, ?_⟩
    · rw [if_neg holds]
      rfl
    · rw [if_neg holds]
      rfl
    · apply site.goesOn popped rfl (by simp)
      obtain ⟨_, _, next⟩ := fits
      rw [next, flat, List.length_append, List.length_singleton, Nat.add_sub_cancel]

/-- A table picks one of its arms. -/
theorem acts_brTable
    {targets : List Nat} {last : Nat}
    (site : Site mod func ops body position (.brTable targets last) instr s v v')
    (stands : Stands mod func ops position frame) :
    ActsAlike mod func ops body.frame.brTargetsArena position (.brTable targets last) instr
      frame := by
  obtain ⟨live, _⟩ := site.arrival stands.height
  obtain ⟨head, outer, opened⟩ := site.opened
  obtain ⟨start, rfl, inside, arms⟩ := site.becomes_brTable live
  obtain ⟨_, other, isFrame, uniform, enough, _⟩ := site.step live opened
  obtain ⟨_, count⟩ := site.counts stands (by simp) (by simp) opened
  obtain ⟨below, index, operands⟩ := exists_last (show 1 ≤ frame.operands.length by omega)
  have flat := flat_concat operands
  have popped : Shaped mod func ops position { frame with operands := below } :=
    stands.toShaped.operate
  rw [operands, List.length_append, List.length_singleton] at count
  -- both look the depth up and take the default past the last one
  have lengths := arms.length_eq
  rw [List.length_append, List.length_singleton] at lengths
  have slotBelow : min index.asOffset targets.length < (targets ++ [last]).length := by
    rw [List.length_append, List.length_singleton]
    omega
  have depth : (targets ++ [last])[min index.asOffset targets.length] =
      targets[index.asOffset]?.getD last := by
    rcases Nat.lt_or_ge index.asOffset targets.length with isTarget | isLast
    · rw [List.getElem?_eq_getElem isTarget, Option.getD_some]
      simp only [Nat.min_eq_left (Nat.le_of_lt isTarget)]
      exact List.getElem_append_left isTarget
    · rw [List.getElem?_eq_none isLast, Option.getD_none]
      simp only [Nat.min_eq_right isLast]
      exact List.getElem_concat_length rfl _
  have armBelow : min index.asOffset targets.length <
      ((body.frame.brTargetsArena.drop start).take (targets.length + 1)).length := by
    omega
  have aims := (List.forall₂_iff_get.mp arms).2 _ slotBelow armBelow
  simp only [List.get_eq_getElem, depth] at aims
  generalize isArm : ((body.frame.brTargetsArena.drop start).take (targets.length + 1))[min
    index.asOffset targets.length] = target at aims
  have selected : selectArm ((body.frame.brTargetsArena.drop start).take (targets.length + 1))
      index.asOffset = some target := by
    unfold selectArm
    rw [← lengths, guard, if_pos (by omega), Nat.add_sub_cancel, ← isArm]
    exact List.getElem?_eq_getElem armBelow
  have carries : target.arity = other.labelArity := by
    have member : (targets ++ [last])[min index.asOffset targets.length] ∈
        targets ++ [last] := List.getElem_mem _
    rw [depth] at member
    rcases List.mem_append.mp member with isTarget | isLast
    · obtain ⟨another, isAnother, same⟩ := uniform _ isTarget
      rw [arity_of_aims aims isAnother, same]
    · rw [List.mem_singleton.mp isLast] at aims
      exact arity_of_aims aims isFrame
  obtain ⟨rest, carried, isBelow, arity⟩ := exists_top (show target.arity ≤
    below.length by omega)
  obtain ⟨after, branched, locals, flatAfter, unwinds, left⟩ :=
    site.branches live popped aims isBelow arity
  refine ⟨_, after, _, _, ?_, ?_, .jumpTo _, left⟩
  · simp only [CallFrame.act, operands, List.getLast?_concat, List.dropLast_concat,
      Option.bind_eq_bind, Option.bind_some]
    exact branched
  · simp only [StackInstruction.act, flat, List.getLast?_concat, List.dropLast_concat,
      Option.bind_eq_bind, Option.bind_some, readRun_of_le inside, selected, guard,
      if_pos unwinds, locals, flatAfter]
    rfl

/-- A `return` is a branch to the function's label. -/
theorem acts_return
    (site : Site mod func ops body position .returnOp instr s v v')
    (stands : Stands mod func ops position frame) :
    ActsAlike mod func ops body.frame.brTargetsArena position .returnOp instr frame := by
  obtain ⟨live, _⟩ := site.arrival stands.height
  obtain ⟨head, outer, opened⟩ := site.opened
  obtain ⟨target, rfl, results, aims⟩ := site.becomes_return live
  obtain ⟨_, enough, _⟩ := site.step live opened
  obtain ⟨_, count⟩ := site.counts stands (by simp) (by simp) opened
  obtain ⟨rest, carried, operands, arity⟩ := exists_top (show target.arity ≤
    frame.operands.length by omega)
  obtain ⟨after, branched, locals, flat, unwinds, left⟩ :=
    site.branches live stands.toShaped aims operands arity
  -- there are as many labels as frames
  have lengths : frame.labels.length = v.frames.length := by
    have openers := congrArg List.length stands.openers
    unfold Nesting.openers at openers
    rw [List.length_map, List.length_map] at openers
    exact openers.trans (entries_before site.ran (Nat.le_of_lt site.inside)).length_eq
  refine ⟨_, after, _, _, ?_, ?_, .jumpTo _, left⟩
  · unfold CallFrame.act
    rw [lengths]
    exact branched
  · simp only [StackInstruction.act, guard, if_pos unwinds, locals, flat]
    rfl

/-! ### Labels that open and close -/

/-- Entering a construct sets aside what lies below its parameters, and no operand
moves. -/
theorem enters
    {params results : Nat} {kind : FrameKind} {unreachable : Bool} {rest : List Value}
    (site : Site mod func ops body position op instr s v v')
    (shaped : Shaped mod func ops position frame)
    (opens : op.opens = true)
    (isNew : v'.frames =
      ⟨kind, params, results, (under frame.labels).length + rest.length, unreachable⟩ ::
        v.frames)
    {arity : Nat}
    (isArity : arity = if opensLoop ops (some position) then params else results)
    {top : List Value}
    (operands : frame.operands = rest ++ top)
    (enough : top.length = params) :
    ∃ after, frame.enterLabel (some position) params arity = some after ∧
      after.locals = frame.locals ∧ after.flat = frame.flat ∧
      Nesting.openers ops (position + 1) = some position :: Nesting.openers ops position ∧
      Shaped mod func ops (position + 1) after := by
  have openers := Nesting.openers_of_opens site.found opens
  refine ⟨{ frame with labels := ⟨some position, arity, rest⟩ :: frame.labels, operands := top },
    ?_, rfl, ?_, openers, shaped.enter openers ?_⟩
  · unfold CallFrame.enterLabel
    rw [operands, ← enough, splitTop_append]
    rfl
  · unfold CallFrame.flat
    rw [operands, under, List.append_assoc]
  · refine ⟨⟨params, results, (under frame.labels).length + rest.length⟩, ?_, isArity, ?_⟩
    · unfold entryOf
      dsimp only
      rw [site.ranNext, Option.bind_some, isNew]
      rfl
    · rw [under, List.length_append]

theorem acts_block
    {blockty : BlockType}
    (site : Site mod func ops body position (.block blockty) instr s v v')
    (stands : Stands mod func ops position frame) :
    ActsAlike mod func ops body.frame.brTargetsArena position (.block blockty) instr frame := by
  obtain ⟨live, _⟩ := site.arrival stands.height
  obtain ⟨head, outer, opened⟩ := site.opened
  have fits := site.fits stands.height
  cases site.becomes live
  have below := site.length_under stands.toShaped opened
  obtain ⟨_, params, results, arities, enough, isNext⟩ := site.step live opened
  obtain ⟨_, count⟩ := site.counts stands (by simp) (by simp) opened
  obtain ⟨rest, top, operands, length⟩ := exists_top (show params ≤
    frame.operands.length by omega)
  rw [operands, List.length_append] at count
  have isNew := congrArg Validator.frames isNext
  rw [show v.height - params = (under frame.labels).length + rest.length by omega] at isNew
  have notLoop : ¬opensLoop ops (some position) = true := by
    unfold opensLoop
    rw [Option.bind_some, site.found]
    simp [Operator.isLoop]
  obtain ⟨after, entered, locals, flat, _, shaped⟩ := site.enters stands.toShaped rfl isNew
    (if_neg notLoop).symm operands length
  refine ⟨.next, after, .next, _, ?_, ?_, .next, shaped, ?_⟩
  · simp only [CallFrame.act, arities, Option.bind_eq_bind, Option.bind_some, entered]
    rfl
  · rw [locals, flat]
    rfl
  · rw [flat]
    exact fits

theorem acts_loop
    {blockty : BlockType}
    (site : Site mod func ops body position (.loop blockty) instr s v v')
    (stands : Stands mod func ops position frame) :
    ActsAlike mod func ops body.frame.brTargetsArena position (.loop blockty) instr frame := by
  obtain ⟨live, _⟩ := site.arrival stands.height
  obtain ⟨head, outer, opened⟩ := site.opened
  have fits := site.fits stands.height
  cases site.becomes live
  have below := site.length_under stands.toShaped opened
  obtain ⟨_, params, results, arities, enough, isNext⟩ := site.step live opened
  obtain ⟨_, count⟩ := site.counts stands (by simp) (by simp) opened
  obtain ⟨rest, top, operands, length⟩ := exists_top (show params ≤
    frame.operands.length by omega)
  rw [operands, List.length_append] at count
  have isNew := congrArg Validator.frames isNext
  rw [show v.height - params = (under frame.labels).length + rest.length by omega] at isNew
  have isLoop : opensLoop ops (some position) = true := by
    unfold opensLoop
    rw [Option.bind_some, site.found]
    rfl
  obtain ⟨after, entered, locals, flat, _, shaped⟩ := site.enters stands.toShaped rfl isNew
    (if_pos isLoop).symm operands length
  refine ⟨.next, after, .next, _, ?_, ?_, .next, shaped, ?_⟩
  · simp only [CallFrame.act, arities, Option.bind_eq_bind, Option.bind_some, entered]
    rfl
  · rw [locals, flat]
    rfl
  · rw [flat]
    exact fits

/-- A false `if` enters its construct and goes to the `else` arm, or to the `end`. -/
theorem acts_if
    {blockty : BlockType}
    (site : Site mod func ops body position (.ifOp blockty) instr s v v')
    (stands : Stands mod func ops position frame) :
    ActsAlike mod func ops body.frame.brTargetsArena position (.ifOp blockty) instr frame := by
  obtain ⟨live, _⟩ := site.arrival stands.height
  obtain ⟨head, outer, opened⟩ := site.opened
  have fits := site.fits stands.height
  obtain ⟨elseIndex, endIndex, rfl, isElse, noElse, ends⟩ := site.becomes_if
  obtain ⟨_, next, onFalse⟩ := fits
  have below := site.length_under stands.toShaped opened
  obtain ⟨_, params, results, arities, enough, isNext⟩ := site.step live opened
  obtain ⟨_, count⟩ := site.counts stands (by simp) (by simp) opened
  obtain ⟨operands, cond, isLast⟩ := exists_last (show 1 ≤ frame.operands.length by omega)
  rw [isLast, List.length_append, List.length_singleton] at count
  obtain ⟨rest, top, isTop, length⟩ := exists_top (show params ≤ operands.length by omega)
  have flat := flat_concat isLast
  have popped : Shaped mod func ops position { frame with operands } :=
    stands.toShaped.operate
  have isNew := congrArg Validator.frames isNext
  rw [show v.height - params - 1 = (under frame.labels).length + rest.length by
    rw [isTop, List.length_append] at count; omega] at isNew
  have notLoop : ¬opensLoop ops (some position) = true := by
    unfold opensLoop
    rw [Option.bind_some, site.found]
    simp [Operator.isLoop]
  obtain ⟨after, entered, locals, flatAfter, openers, shaped⟩ := site.enters popped rfl isNew
    (if_neg notLoop).symm isTop length
  have height : frame.flat.length - 1 = after.flat.length := by
    rw [flat, flatAfter, List.length_append, List.length_singleton, Nat.add_sub_cancel]
  rw [height] at next onFalse
  unfold ActsAlike
  simp only [CallFrame.act, StackInstruction.act, arities, isLast, flat, entered,
    List.getLast?_concat, List.dropLast_concat, Option.bind_eq_bind, Option.bind_some]
  by_cases holds : cond.asI32 ≠ 0
  · refine ⟨.next, after, .next, _, ?_, ?_, .next, shaped, next⟩
    · rw [if_pos holds]
      rfl
    · rw [if_pos holds, locals, flatAfter]
      rfl
  · simp only [if_neg holds]
    cases elseIndex with
    | none =>
        rw [Wasm.elseOf_of_noElse (noElse rfl), Wasm.endOf_of_endsAt ends]
        refine ⟨_, after, _, _, rfl, ?_, .jumpTo endIndex, shaped.move ?_, onFalse⟩
        · rw [locals, flatAfter]
          rfl
        · rw [openers]
          exact ends.2.openers_eq
    | some elseIndex =>
        have isElse := isElse _ rfl
        rw [Wasm.elseOf_of_elseAt site.validates.wellNested.oneElse isElse]
        refine ⟨_, after, _, _, rfl, ?_, .jumpTo (elseIndex + 1), shaped.move ?_, onFalse⟩
        · rw [locals, flatAfter]
          rfl
        · rw [openers, Nesting.openers_of_plain isElse.1 rfl (by simp)]
          exact isElse.2.openers_eq

/-- The first arm is over at its `else`. -/
theorem acts_else
    (site : Site mod func ops body position .elseOp instr s v v')
    (stands : Stands mod func ops position frame) :
    ActsAlike mod func ops body.frame.brTargetsArena position .elseOp instr frame := by
  have fits := site.fits stands.height
  obtain ⟨opener, endIndex, rfl, isElse, ends⟩ := site.becomes_else
  have openers := isElse.2.openers_eq
  obtain ⟨label, isLabel, isOpener, _⟩ := stands.toShaped.label
    (show (Nesting.openers ops position)[0]? = some opener by rw [openers]; rfl)
  refine ⟨_, frame, _, _, ?_, rfl, .jumpTo endIndex, stands.toShaped.move ?_, fits⟩
  · rw [← List.head?_eq_getElem?] at isLabel
    simp only [CallFrame.act, isLabel, isOpener, Wasm.endOf_of_endsAt ends,
      Option.bind_eq_bind, Option.bind_some]
    rfl
  · rw [openers]
    exact ends.2.openers_eq

/-- An `end` closes its label, and no operand moves. -/
theorem acts_end
    (site : Site mod func ops body position .endOp instr s v v')
    (stands : Stands mod func ops position frame) :
    ActsAlike mod func ops body.frame.brTargetsArena position .endOp instr frame := by
  obtain ⟨notDead, _⟩ := site.arrival stands.height
  have fits := site.fits stands.height
  obtain ⟨head, outer, opened, rfl⟩ := site.becomes_end notDead
  obtain ⟨balanced, next⟩ := fits
  have nonempty := entries_before site.ran (Nat.le_of_lt site.inside)
  rw [opened] at nonempty
  obtain ⟨construct, rest, _, _, nesting⟩ := List.forall₂_cons_right_iff.mp nonempty
  obtain ⟨label, isLabel, isOpener, dropped, _⟩ := stands.toShaped.label
    (show (Nesting.openers ops position)[0]? = some construct.opener by
      unfold Nesting.openers; rw [nesting]; rfl)
  rw [List.drop_zero] at dropped
  have openers : Nesting.openers ops (position + 1) = (Nesting.openers ops position).drop 1 := by
    rw [Nesting.openers_of_end site.found, List.drop_one]
  have shaped : Shaped mod func ops (position + 1)
      { frame with
        labels := frame.labels.drop 1
        operands := label.below ++ frame.operands } := stands.toShaped.drop 1 openers
  generalize frame.labels.drop 1 = outerLabels at dropped shaped
  have flat : frame.flat = under outerLabels ++ (label.below ++ frame.operands) := by
    unfold CallFrame.flat
    rw [dropped, under, List.append_assoc]
  rw [flat] at balanced
  refine ⟨.next, _, .next, _, ?_, ?_, .next, shaped, ?_⟩
  · simp only [CallFrame.act, CallFrame.leaveLabel, dropped]
    rfl
  · simp only [StackInstruction.act, guard, if_pos balanced, flat]
    rfl
  · rw [next, flat]
    rfl

/-! ### Every operator of a call -/

/-- A frame whose locals keep their number. -/
theorem setLocal
    {locals operands : List Value}
    (shaped : Shaped mod func ops position frame)
    (length : locals.length = frame.locals.length) :
    Shaped mod func ops position { frame with locals, operands } :=
  ⟨length.trans shaped.locals, shaped.openers, shaped.fits⟩

/-- An operator without effects beyond its call acts as its instruction does. -/
theorem acts
    (site : Site mod func ops body position op instr s v v')
    (stands : Stands mod func ops position frame)
    (stays : op.staysInCall = true) :
    ActsAlike mod func ops body.frame.brTargetsArena position op instr frame := by
  obtain ⟨notDead, _⟩ := site.arrival stands.height
  obtain ⟨head, outer, opened⟩ := site.opened
  have fits := site.fits stands.height
  have becomes := site.becomes notDead
  have shaped := stands.toShaped
  cases op with
  | block blockty => exact site.acts_block stands
  | loop blockty => exact site.acts_loop stands
  | ifOp blockty => exact site.acts_if stands
  | elseOp => exact site.acts_else stands
  | endOp => exact site.acts_end stands
  | br depth => exact site.acts_br stands
  | brIf depth => exact site.acts_brIf stands
  | brTable targets last => exact site.acts_brTable stands
  | returnOp => exact site.acts_return stands
  | const value =>
      cases becomes
      refine ⟨.next, frame.push value.toValue, .next, _, rfl, ?_, .next,
        site.goesOn shaped.operate rfl (by simp) ?_⟩
      · rw [Wasm.flat_push]
        rfl
      · rw [Wasm.flat_push, List.length_append]
        exact fits
  | localGet index =>
      cases becomes
      obtain ⟨below, next⟩ := fits
      rw [← shaped.locals] at below
      have found := List.getElem?_eq_getElem below
      refine ⟨.next, frame.push frame.locals[index], .next, _, ?_, ?_, .next,
        site.goesOn shaped.operate rfl (by simp) ?_⟩
      · simp only [CallFrame.act, found, Option.bind_eq_bind, Option.bind_some]
        rfl
      · simp only [StackInstruction.act, found, Option.bind_eq_bind, Option.bind_some,
          Wasm.flat_push]
        rfl
      · rw [Wasm.flat_push, List.length_append]
        exact next
  | localSet index =>
      cases becomes
      obtain ⟨below, _, next⟩ := fits
      rw [← shaped.locals] at below
      obtain ⟨_, _, enough, _⟩ := site.step notDead opened
      obtain ⟨_, count⟩ := site.counts stands (by simp) (by simp) opened
      obtain ⟨rest, val, operands⟩ := exists_last (show 1 ≤ frame.operands.length by omega)
      have flat := flat_concat operands
      refine ⟨.next, { frame with locals := frame.locals.set index val, operands := rest },
        .next, _, ?_, ?_, .next,
        site.goesOn (setLocal shaped (List.length_set ..)) rfl (by simp) ?_⟩
      · simp only [CallFrame.act, guard, if_pos below, operands, List.getLast?_concat,
          List.dropLast_concat]
        rfl
      · simp only [StackInstruction.act, guard, if_pos below, flat, List.getLast?_concat,
          List.dropLast_concat]
        rfl
      · rw [next, flat, List.length_append, List.length_singleton, Nat.add_sub_cancel]
        rfl
  | localTee index =>
      cases becomes
      obtain ⟨below, _, next⟩ := fits
      rw [← shaped.locals] at below
      obtain ⟨_, _, enough, _⟩ := site.step notDead opened
      obtain ⟨_, count⟩ := site.counts stands (by simp) (by simp) opened
      obtain ⟨rest, val, operands⟩ := exists_last (show 1 ≤ frame.operands.length by omega)
      have flat := flat_concat operands
      refine ⟨.next, { frame with locals := frame.locals.set index val },
        .next, _, ?_, ?_, .next,
        site.goesOn (setLocal shaped (List.length_set ..)) rfl (by simp) ?_⟩
      · simp only [CallFrame.act, guard, if_pos below, operands, List.getLast?_concat]
        rfl
      · simp only [StackInstruction.act, guard, if_pos below, flat, List.getLast?_concat]
        rw [← flat]
        rfl
      · exact next
  | nop =>
      cases becomes
      exact ⟨.next, frame, .next, _, CallFrame.act_nop .., StackInstruction.act_nop .., .next,
        site.goesOn shaped rfl (by simp) fits⟩
  | drop =>
      cases becomes
      obtain ⟨_, next⟩ := fits
      obtain ⟨_, enough, _⟩ := site.step notDead opened
      obtain ⟨_, count⟩ := site.counts stands (by simp) (by simp) opened
      obtain ⟨rest, val, operands⟩ := exists_last (show 1 ≤ frame.operands.length by omega)
      have flat := flat_concat operands
      refine ⟨.next, { frame with operands := rest }, .next, _, ?_, ?_, .next,
        site.goesOn shaped.operate rfl (by simp) ?_⟩
      · simp only [CallFrame.act, operands, List.getLast?_concat, List.dropLast_concat]
        rfl
      · simp only [StackInstruction.act, flat, List.getLast?_concat, List.dropLast_concat]
        rfl
      · rw [next, flat, List.length_append, List.length_singleton, Nat.add_sub_cancel]
  | _ => cases stays

end Site

end Sites

end Stack
end TraceWasm
