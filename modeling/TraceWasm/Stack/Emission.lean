import TraceWasm.Stack.Alignment

/-!
# What lowering emits

Closing a label gives earlier instructions the indices they go to and changes
nothing else of them. So an instruction of a finished body is, up to these, the
one that was emitted for its operator.
-/

namespace TraceWasm
namespace Stack

/-- A target without the index. -/
def Target.unaimed (target : Target) : Target := { target with targetIndex := 0 }

/-- An instruction without the indices it goes to. -/
def StackInstruction.unaimed : StackInstruction → StackInstruction
  | .ifOp _ _ => .ifOp none 0
  | .elseOp _ => .elseOp 0
  | .br target => .br target.unaimed
  | .brIf target => .brIf target.unaimed
  | .returnOp target => .returnOp target.unaimed
  | instr => instr

/-- The instruction that an operator becomes, and the arms that it adds. -/
def Lowering.emission (mod : ModuleTypes) (s : Lowering) (op : Operator) :
    Option (StackInstruction × List Target) :=
  match simpleInstruction mod op, opening s.len op, op with
  | some (instr, _), _, _ => some (instr, [])
  | none, some (_, _, _, instr), _ => some (instr, [])
  | none, none, .elseOp => some (.elseOp u32Max, [])
  | none, none, .endOp => s.controlStack.inner.head?.map fun block =>
      (.endOp block.results block.recordedHeight, [])
  | none, none, .br depth => s.controlStack.inner[depth]?.map fun block =>
      (.br (targetOf block), [])
  | none, none, .brIf depth => s.controlStack.inner[depth]?.map fun block =>
      (.brIf (targetOf block), [])
  | none, none, .brTable targets last =>
      ((targets ++ [last]).mapM fun (depth : Nat) =>
        s.controlStack.inner[depth]?.map targetOf).map fun arms =>
          (.brTable s.brTableTargetBranches.length (targets.length + 1), arms)
  | none, none, .returnOp => s.controlStack.inner.getLast?.map fun block =>
      (.returnOp ⟨u32Max, block.results, block.recordedHeight⟩, [])
  | none, none, .unreachable => some (.unreachable, [])
  | none, none, _ => none

/-! ## Patching -/

section Patch

variable {code code' : Lowering.Patched} {index : Nat}

/-- The code without the indices. -/
def unaimed (code : Lowering.Patched) : List StackInstruction × List Target :=
  (code.1.map StackInstruction.unaimed, code.2.map Target.unaimed)

/-- Replacing an item by one that looks the same. -/
theorem map_set_same
    {α β : Type} {view : α → β} {list : List α} {position : Nat} {old new : α}
    (found : list[position]? = some old)
    (same : view new = view old) :
    (list.set position new).map view = list.map view := by
  rw [List.map_set, same]
  apply List.ext_getElem?
  intro other
  rw [List.getElem?_set]
  split
  · rename_i here
    subst here
    have inside := (List.getElem?_eq_some_iff.mp found).1
    rw [if_pos (by rwa [List.length_map]), List.getElem?_map, found]
    rfl
  · rfl

/-- Patching a branch changes targets only. -/
theorem unaimed_patchBreak
    {key : Nat × Nat}
    (patched : Lowering.patchBreak index code key = .ok code') :
    unaimed code' = unaimed code := by
  unfold Lowering.patchBreak at patched
  obtain ⟨instr, found, patched⟩ := Attempt.bind_eq_ok.mp patched
  replace found := Attempt.orPanic_eq_ok.mp found
  cases instr with
  | br target =>
      cases patched
      exact congrArg (·, _) (map_set_same found rfl)
  | brIf target =>
      cases patched
      exact congrArg (·, _) (map_set_same found rfl)
  | returnOp target =>
      cases patched
      exact congrArg (·, _) (map_set_same found rfl)
  | brTable start len =>
      obtain ⟨target, isTarget, same⟩ := Attempt.bind_eq_ok.mp patched
      cases same
      exact congrArg (_, ·) (map_set_same (Attempt.orPanic_eq_ok.mp isTarget) rfl)
  | _ => cases patched

/-- So does patching several. -/
theorem unaimed_patchBreaks
    {keys : List (Nat × Nat)}
    (patched : keys.foldlM (Lowering.patchBreak index) code = .ok code') :
    unaimed code' = unaimed code := by
  apply Attempt.foldlM_keeps (fun before key after step (kept : unaimed before = unaimed code) =>
    (unaimed_patchBreak step).trans kept) patched rfl

/-- So does patching an `if`. -/
theorem unaimed_patchIf
    {instructions instructions' : List StackInstruction} {kind : BlockKind}
    (patched : Lowering.patchIf index instructions kind = .ok instructions') :
    instructions'.map StackInstruction.unaimed =
      instructions.map StackInstruction.unaimed := by
  cases kind with
  | ifOp ifIndex elseIndex =>
      unfold Lowering.patchIf at patched
      obtain ⟨instr, found, patched⟩ := Attempt.bind_eq_ok.mp patched
      replace found := Attempt.orPanic_eq_ok.mp found
      cases instr with
      | ifOp before after =>
          have first : (instructions.set ifIndex (.ifOp elseIndex index)).map
              StackInstruction.unaimed = instructions.map StackInstruction.unaimed :=
            map_set_same found rfl
          cases elseIndex with
          | none =>
              cases patched
              exact first
          | some elseIndex =>
              obtain ⟨instr, foundElse, patched⟩ := Attempt.bind_eq_ok.mp patched
              replace foundElse := Attempt.orPanic_eq_ok.mp foundElse
              cases instr with
              | elseOp before =>
                  cases patched
                  have second : ((instructions.set ifIndex
                      (.ifOp (some elseIndex) index)).set elseIndex (.elseOp index)).map
                        StackInstruction.unaimed =
                      (instructions.set ifIndex (.ifOp (some elseIndex) index)).map
                        StackInstruction.unaimed :=
                    map_set_same foundElse rfl
                  exact second.trans first
              | _ => cases patched
      | _ => cases patched
  | _ =>
      cases patched
      rfl

end Patch

/-! ## Emitting -/

section Emit

variable {mod : ModuleTypes} {offset : Nat} {s s' : Lowering} {op : Operator}

/-- Attaching a branch leaves where branches go. -/
theorem targetOf_attach
    (inner : List Block) (relativeDepth depth : Nat) (block : Block) (key : Nat × Nat) :
    (attach inner relativeDepth block key)[depth]?.map Lowering.targetOf =
      inner[depth]?.map Lowering.targetOf := by
  unfold attach
  split
  · rfl
  · rw [List.getElem?_modify]
    cases inner[depth]? with
    | none => rfl
    | some found =>
        by_cases here : relativeDepth = depth <;>
          simp [here, Lowering.targetOf, Block.labelArity]

theorem mapM_of_brArms
    {index slot : Nat} {inner inner' : List Block} {targets : List Nat} {arms : List Target}
    (built : brArms index inner slot targets = some (arms, inner')) :
    (targets.mapM fun (depth : Nat) => inner[depth]?.map Lowering.targetOf) = some arms := by
  induction targets generalizing inner slot arms with
  | nil =>
      cases built
      rfl
  | cons relativeDepth targets inductionHypothesis =>
      obtain ⟨block, found, built⟩ := Option.bind_eq_some_iff.mp built
      obtain ⟨⟨rest, final⟩, builtRest, same⟩ := Option.bind_eq_some_iff.mp built
      cases same
      have others := inductionHypothesis builtRest
      simp only [targetOf_attach] at others
      rw [List.mapM_cons, found, others]
      rfl

/-- Each operator emits its instruction behind the ones that are there. -/
theorem StackStep.emission
    (step : StackStep mod offset s op s') :
    ∃ instr added, s.emission mod op = some (instr, added) ∧
      unaimed (s'.instructions, s'.brTableTargetBranches) =
        ((unaimed (s.instructions, s.brTableTargetBranches)).1 ++ [instr.unaimed],
          (unaimed (s.instructions, s.brTableTargetBranches)).2 ++
            added.map Target.unaimed) := by
  have emitted : ∀ instr,
      unaimed (s.instructions ++ [instr], s.brTableTargetBranches) =
        ((unaimed (s.instructions, s.brTableTargetBranches)).1 ++ [instr.unaimed],
          (unaimed (s.instructions, s.brTableTargetBranches)).2 ++ [].map Target.unaimed) := by
    intro instr
    simp [unaimed]
  cases step with
  | @simple op instr effect simple known enough =>
      refine ⟨instr, [], ?_, emitted _⟩
      unfold Lowering.emission
      rw [simple]
  | @opens op kind blockty own instr params results isOpening arities enough =>
      refine ⟨instr, [], ?_, emitted _⟩
      cases op <;> cases isOpening <;> rfl
  | elseOp opened isKind => exact ⟨_, [], rfl, emitted _⟩
  | @endOp block outer instructions branches instructions' opened patched patchedIf =>
      refine ⟨.endOp block.results block.recordedHeight, [], ?_, ?_⟩
      · dsimp only [Lowering.emission, Lowering.simpleInstruction, Lowering.opening]
        rw [opened]
        rfl
      · have breaks := unaimed_patchBreaks patched
        have ifs := unaimed_patchIf patchedIf
        rw [← breaks]
        unfold unaimed
        simp [ifs]
  | @br relativeDepth block found =>
      refine ⟨_, [], ?_, emitted _⟩
      dsimp only [Lowering.emission, Lowering.simpleInstruction, Lowering.opening]
      rw [found]
      rfl
  | @brIf relativeDepth block found enough =>
      refine ⟨_, [], ?_, emitted _⟩
      dsimp only [Lowering.emission, Lowering.simpleInstruction, Lowering.opening]
      rw [found]
      rfl
  | @brTable targets last arms inner built =>
      refine ⟨.brTable s.brTableTargetBranches.length (targets.length + 1), arms, ?_, ?_⟩
      · dsimp only [Lowering.emission, Lowering.simpleInstruction, Lowering.opening]
        rw [mapM_of_brArms built]
        rfl
      · simp [unaimed]
  | @returnOp block found =>
      refine ⟨_, [], ?_, emitted _⟩
      dsimp only [Lowering.emission, Lowering.simpleInstruction, Lowering.opening]
      rw [found]
      rfl
  | unreachable => exact ⟨_, [], rfl, emitted _⟩

end Emit

/-! ## The stages of a body -/

section Stages

variable {mod : ModuleTypes} {func : FuncHeader} {ops : List (Operator × Nat)}
  {body : LoweredFuncBody} {state : Nat → Lowering} {position : Nat}

/-- The states between the operators of a body that is lowered. -/
structure Stages
    (mod : ModuleTypes) (func : FuncHeader) (ops : List (Operator × Nat))
    (body : LoweredFuncBody) (state : Nat → Lowering) : Prop where
  first : state 0 = .initial func
  last : (state ops.length).instructions = body.instructions ∧
    (state ops.length).brTableTargetBranches = body.frame.brTargetsArena
  step : ∀ position located, ops[position]? = some located →
    StackStep mod (located.2 % 2 ^ 32) (state position) located.1 (state (position + 1))
  len : ∀ position ≤ ops.length, (state position).len = position

theorem stages_of_emitted
    (validates : Validates mod func (ops.map Prod.fst))
    (emitted : emitInstructionsForFunc mod func ops = .ok body) :
    ∃ state, Stages mod func ops body state := by
  have wellNested := validates.wellNested
  obtain ⟨s, lowered, same⟩ := Attempt.bind_eq_ok.mp emitted
  cases same
  obtain ⟨state, isStart, rfl, steps, _⟩ := Attempt.exists_states lowered
  have reached : ∀ position, position ≤ ops.length → Reached ops position (state position) :=
    fun position inside => reached_of_steps wellNested isStart steps inside
  refine ⟨state, isStart, ⟨rfl, rfl⟩, ?_, ?_⟩
  · rintro position ⟨op, offset⟩ found
    have before := reached position (Nat.le_of_lt (List.getElem?_eq_some_iff.mp found).1)
    exact Lowering.step_of_lowerOperator (before.opened wellNested found) (steps _ _ found)
  · intro position inside
    have len := (reached position inside).len
    rw [Nat.min_eq_left inside] at len
    exact len

theorem map_fst_getElem?
    {located : Operator × Nat}
    (found : ops[position]? = some located) :
    (ops.map Prod.fst)[position]? = some located.1 := by
  rw [List.getElem?_map, found]
  rfl

/-- Lowering agrees with the validator at every stage. -/
theorem Stages.agrees
    {v : Validator}
    (stages : Stages mod func ops body state)
    (inside : position ≤ ops.length)
    (ran : Validator.before mod func (ops.map Prod.fst) position = some v) :
    Agrees v (Liveness.after ((ops.map Prod.fst).take position))
      (state position).controlStack := by
  have length : (ops.map Prod.fst).length = ops.length := List.length_map _
  induction position generalizing v with
  | zero =>
      cases ran
      rw [stages.first]
      refine ⟨.cons (fun _ => ⟨?_, rfl⟩) .nil, rfl, rfl, fun _ => rfl⟩
      simp [BlockKind.isLoop]
  | succ position inductionHypothesis =>
      have located := List.getElem?_eq_getElem (show position < ops.length from inside)
      have found := map_fst_getElem? located
      obtain ⟨earlier, ranBefore, accepted⟩ := Validator.before_of_succ found ran
      rw [Liveness.after_succ found]
      apply (inductionHypothesis (by omega) ranBefore).step (Liveness.deadOnTop_after _ _)
        accepted _ (stages.step position _ located)
      intro live frame outer opened
      have layered := Validator.layered_before ranBefore (by omega)
      unfold Validator.Layered at layered
      rw [opened] at layered
      exact Validator.liveStep_of_step opened
        (live_head ranBefore (by omega) opened live).1 layered.1 accepted

/-- Later stages keep what was emitted. -/
theorem Stages.keeps
    {later : Nat}
    (stages : Stages mod func ops body state)
    (before : position ≤ later) (inside : later ≤ ops.length) :
    (state position).instructions.map StackInstruction.unaimed <+:
        (state later).instructions.map StackInstruction.unaimed ∧
      (state position).brTableTargetBranches.map Target.unaimed <+:
        (state later).brTableTargetBranches.map Target.unaimed := by
  induction later, before using Nat.le_induction with
  | base => exact ⟨List.prefix_rfl, List.prefix_rfl⟩
  | succ later before inductionHypothesis =>
      have located := List.getElem?_eq_getElem (show later < ops.length from inside)
      obtain ⟨instr, added, _, emitted⟩ := (stages.step later _ located).emission
      obtain ⟨code, arms⟩ := inductionHypothesis (by omega)
      have isCode := congrArg Prod.fst emitted
      have areArms := congrArg Prod.snd emitted
      unfold unaimed at isCode areArms
      dsimp only at isCode areArms
      rw [isCode, areArms]
      exact ⟨code.trans (List.prefix_append _ _), arms.trans (List.prefix_append _ _)⟩

/-- The instruction of an operator in the finished body. -/
theorem Stages.emitted
    {located : Operator × Nat}
    (stages : Stages mod func ops body state)
    (found : ops[position]? = some located) :
    ∃ instr added, (state position).emission mod located.1 = some (instr, added) ∧
      (body.instructions[position]?).map StackInstruction.unaimed = some instr.unaimed ∧
      ((body.frame.brTargetsArena.drop (state position).brTableTargetBranches.length).take
        added.length).map Target.unaimed = added.map Target.unaimed := by
  have inside := (List.getElem?_eq_some_iff.mp found).1
  obtain ⟨instr, added, emitted, after⟩ := (stages.step position _ found).emission
  obtain ⟨code, arms⟩ := stages.keeps (show position + 1 ≤ ops.length from inside) le_rfl
  have isCode := congrArg Prod.fst after
  have areArms := congrArg Prod.snd after
  unfold unaimed at isCode areArms
  dsimp only at isCode areArms
  rw [isCode, stages.last.1] at code
  rw [areArms, stages.last.2] at arms
  have len := stages.len position (Nat.le_of_lt inside)
  refine ⟨instr, added, emitted, ?_, ?_⟩
  · obtain ⟨rest, whole⟩ := code
    rw [← List.getElem?_map, ← whole, List.append_assoc, List.getElem?_append_right,
      List.length_map]
    · unfold Lowering.len at len
      simp [len]
    · rw [List.length_map]
      exact Nat.le_of_eq len
  · obtain ⟨rest, whole⟩ := arms
    rw [List.map_take, List.map_drop, ← whole, List.append_assoc, List.drop_append_of_le_length,
      List.drop_of_length_le, List.nil_append, List.take_append_of_le_length,
      List.take_of_length_le]
    all_goals simp

end Stages

end Stack
end TraceWasm
