import TraceWasm.Register.Lower
import TraceWasm.Wasm.ValidatorSteps

/-!
# Counting the open constructs

The lowering and its filter together know every open construct but those a
`try_table` opened in dead code. A body that is lowered to its end has closed
all constructs, so it has no such `try_table`.
-/

namespace TraceWasm
namespace Register
namespace Lowering

/-- How many open constructs the lowering and its filter know. -/
def depth (s : Lowering) : Nat :=
  s.simulatedStack.controlStack.length + s.unreachableTrackingStack.blocks.length

section Arms

variable {s after : Lowering} {sim result : SimulatedStack}

/-! ## Parts that open and close nothing -/

theorem control_popsAndPushesRegisters
    (returned : sim.popsAndPushesRegisters pops pushes instrIndex source =
      .ok (mov, result)) :
    result.controlStack = sim.controlStack := by
  obtain ⟨⟨slots, middle⟩, _, returned⟩ := Attempt.bind_eq_ok.mp returned
  obtain ⟨last, _, returned⟩ := Attempt.bind_eq_ok.mp returned
  cases returned
  rfl

theorem control_popRegister
    (returned : sim.popRegister instrIndex source = .ok result) :
    result.controlStack = sim.controlStack := by
  obtain ⟨⟨mov, last⟩, popped, returned⟩ := Attempt.bind_eq_ok.mp returned
  cases returned
  exact control_popsAndPushesRegisters popped

theorem control_popsAndPushes
    (returned : sim.popsAndPushes pops pushes = .ok result) :
    result.controlStack = sim.controlStack := by
  obtain ⟨last, _, returned⟩ := Attempt.bind_eq_ok.mp returned
  cases returned
  rfl

theorem control_brTruncationRegisters
    (returned : sim.brTruncationRegisters height arity instrIndex source =
      .ok (mov, result)) :
    result.controlStack = sim.controlStack := by
  obtain ⟨⟨slots, carried, middle⟩, _, returned⟩ := Attempt.bind_eq_ok.mp returned
  cases returned
  split <;> rfl

/-- Rescuing the borrows opens and closes nothing. -/
theorem depth_spillLiveLocals
    (returned : s.spillLiveLocals = .ok after) :
    after.depth = s.depth := by
  obtain ⟨⟨copies, middle⟩, _, returned⟩ := Attempt.bind_eq_ok.mp returned
  cases returned
  rfl

theorem depth_spillLocal
    (returned : s.spillLocal index = .ok after) :
    after.depth = s.depth := by
  obtain ⟨⟨spillIndex, middle⟩, _, returned⟩ := Attempt.bind_eq_ok.mp returned
  cases spillIndex with
  | none =>
      cases returned
      rfl
  | some spillIndex =>
      cases returned
      rfl

/-- Neither does moving operands. -/
theorem depth_moveUnlessEmpty
    (returned : s.moveUnlessEmpty count = .ok after) :
    after.depth = s.depth := by
  unfold moveUnlessEmpty at returned
  split at returned
  · obtain ⟨⟨mov, sim⟩, moved, returned⟩ := Attempt.bind_eq_ok.mp returned
    cases returned
    exact congrArg (·.length + _) (control_popsAndPushesRegisters moved)
  · cases returned
    rfl

theorem depth_leaveBlock
    (returned : s.leaveBlock = .ok after) :
    after.depth = s.depth := by
  obtain ⟨sim, reset, returned⟩ := Attempt.bind_eq_ok.mp returned
  cases returned
  obtain ⟨block, _, reset⟩ := Attempt.bind_eq_ok.mp reset
  obtain ⟨unwind, _, reset⟩ := Attempt.bind_eq_ok.mp reset
  exact congrArg (·.length + _) (control_popsAndPushes reset)

theorem depth_internMemoryOffset
    (returned : s.internMemoryOffset op = .ok (interned, after)) :
    after.depth = s.depth := by
  unfold internMemoryOffset at returned
  split at returned
  · obtain ⟨⟨id, pool⟩, _, returned⟩ := Attempt.bind_eq_ok.mp returned
    cases returned
    rfl
  · obtain ⟨⟨id, pool⟩, _, returned⟩ := Attempt.bind_eq_ok.mp returned
    cases returned
    rfl
  · cases returned
    rfl

theorem depth_attachUnlessLoop
    (s : Lowering) (relativeDepth : Nat) (block : Block) (attached : Nat × Nat) :
    (s.attachUnlessLoop relativeDepth block attached).depth = s.depth := by
  unfold attachUnlessLoop
  split
  · rfl
  · exact congrArg (· + _) (List.length_modify _ _ _)

theorem depth_pushMove (s : Lowering) (mov : DynSignature Slot) :
    (s.pushMove mov).depth = s.depth := by
  unfold pushMove
  split <;> rfl

/-- Neither do the arms of a `br_table`. -/
theorem depth_lowerBrTargets
    (returned : s.lowerBrTargets done targets = .ok (brTargets, after)) :
    after.depth = s.depth := by
  induction targets generalizing s done with
  | nil =>
      cases returned
      rfl
  | cons relativeDepth targets inductionHypothesis =>
      obtain ⟨block, _, returned⟩ := Attempt.bind_eq_ok.mp returned
      obtain ⟨⟨mov, sim⟩, truncated, returned⟩ := Attempt.bind_eq_ok.mp returned
      rw [inductionHypothesis returned, depth_attachUnlessLoop]
      exact congrArg (·.length + _) (control_brTruncationRegisters truncated)

/-- A block that is added is open. -/
theorem length_control_addBlock
    (returned : sim.addBlock types kind blockty instrLen = .ok (params, result)) :
    result.controlStack.length = sim.controlStack.length + 1 := by
  obtain ⟨⟨_, _⟩, _, returned⟩ := Attempt.bind_eq_ok.mp returned
  obtain ⟨_, _, returned⟩ := Attempt.bind_eq_ok.mp returned
  cases returned
  rfl

/-! ## The arms -/

theorem depth_lowerBr
    (returned : s.lowerBr relativeDepth = .ok after) :
    after.depth = s.depth := by
  obtain ⟨block, _, returned⟩ := Attempt.bind_eq_ok.mp returned
  obtain ⟨⟨mov, sim⟩, truncated, returned⟩ := Attempt.bind_eq_ok.mp returned
  rw [depth_leaveBlock returned]
  change (pushMove _ mov).depth = _
  rw [depth_pushMove, depth_attachUnlessLoop]
  exact congrArg (·.length + _) (control_brTruncationRegisters truncated)

theorem depth_lowerBrIf
    (returned : s.lowerBrIf relativeDepth = .ok after) :
    after.depth = s.depth := by
  obtain ⟨spilled, spill, returned⟩ := Attempt.bind_eq_ok.mp returned
  obtain ⟨block, _, returned⟩ := Attempt.bind_eq_ok.mp returned
  obtain ⟨popped, pop, returned⟩ := Attempt.bind_eq_ok.mp returned
  obtain ⟨⟨mov, sim⟩, truncated, returned⟩ := Attempt.bind_eq_ok.mp returned
  cases returned
  change (attachUnlessLoop _ _ _ _).depth = _
  rw [depth_attachUnlessLoop, ← depth_spillLiveLocals spill]
  exact congrArg (·.length + _)
    ((control_brTruncationRegisters truncated).trans (control_popRegister pop))

theorem depth_lowerBrTable
    (returned : s.lowerBrTable targets last = .ok after) :
    after.depth = s.depth := by
  obtain ⟨spilled, spill, returned⟩ := Attempt.bind_eq_ok.mp returned
  obtain ⟨popped, pop, returned⟩ := Attempt.bind_eq_ok.mp returned
  obtain ⟨⟨brTargets, arms⟩, lowered, returned⟩ := Attempt.bind_eq_ok.mp returned
  rw [depth_leaveBlock returned]
  change arms.depth = _
  rw [depth_lowerBrTargets lowered, ← depth_spillLiveLocals spill]
  exact congrArg (·.length + _) (control_popRegister pop)

theorem depth_lowerReturn
    (returned : lowerReturn results s = .ok after) :
    after.depth = s.depth := by
  obtain ⟨⟨mov, sim⟩, truncated, returned⟩ := Attempt.bind_eq_ok.mp returned
  obtain ⟨_, _, returned⟩ := Attempt.bind_eq_ok.mp returned
  rw [depth_leaveBlock returned]
  change (pushMove _ mov).depth = _
  rw [depth_pushMove]
  change List.length (sim.controlStack.modify _ _) + _ = _
  rw [List.length_modify, control_brTruncationRegisters truncated]
  rfl

theorem depth_lowerCall
    (returned : lowerCall mod s functionIndex = .ok after) :
    after.depth = s.depth := by
  obtain ⟨ty, _, returned⟩ := Attempt.bind_eq_ok.mp returned
  obtain ⟨_, _, returned⟩ := Attempt.bind_eq_ok.mp returned
  obtain ⟨_, _, returned⟩ := Attempt.bind_eq_ok.mp returned
  obtain ⟨moved, move, returned⟩ := Attempt.bind_eq_ok.mp returned
  obtain ⟨_, _, returned⟩ := Attempt.bind_eq_ok.mp returned
  obtain ⟨sim, popped, returned⟩ := Attempt.bind_eq_ok.mp returned
  cases returned
  rw [← depth_moveUnlessEmpty move]
  exact congrArg (·.length + _) (control_popsAndPushes popped)

theorem depth_lowerCallIndirect
    (returned : lowerCallIndirect types s typeIndex tableIndex = .ok after) :
    after.depth = s.depth := by
  obtain ⟨ty, _, returned⟩ := Attempt.bind_eq_ok.mp returned
  obtain ⟨_, _, returned⟩ := Attempt.bind_eq_ok.mp returned
  obtain ⟨_, _, returned⟩ := Attempt.bind_eq_ok.mp returned
  obtain ⟨_, _, returned⟩ := Attempt.bind_eq_ok.mp returned
  obtain ⟨sim, pop, returned⟩ := Attempt.bind_eq_ok.mp returned
  obtain ⟨⟨operands, moved⟩, move, returned⟩ := Attempt.bind_eq_ok.mp returned
  obtain ⟨_, _, returned⟩ := Attempt.bind_eq_ok.mp returned
  obtain ⟨last, popped, returned⟩ := Attempt.bind_eq_ok.mp returned
  cases returned
  have kept := (control_popsAndPushes popped).trans
    ((control_popsAndPushesRegisters move).trans (control_popRegister pop))
  exact congrArg (·.length + _) kept

theorem depth_lowerElse
    (returned : s.lowerElse = .ok after) :
    after.depth = s.depth := by
  obtain ⟨block, _, returned⟩ := Attempt.bind_eq_ok.mp returned
  split at returned
  · obtain ⟨moved, move, returned⟩ := Attempt.bind_eq_ok.mp returned
    obtain ⟨_, _, returned⟩ := Attempt.bind_eq_ok.mp returned
    obtain ⟨last, popped, returned⟩ := Attempt.bind_eq_ok.mp returned
    cases returned
    have kept : moved.depth = s.depth := by
      rw [depth_moveUnlessEmpty move]
      exact congrArg (· + _) (List.length_modify _ _ _)
    rw [← kept]
    exact congrArg (·.length + _) (control_popsAndPushes popped)
  · cases returned

/-- An `end` closes one label. -/
theorem depth_lowerEnd
    (returned : s.lowerEnd = .ok after) :
    after.depth + 1 = s.depth := by
  unfold lowerEnd at returned
  split at returned
  · cases returned
  · rename_i block controlStack opened
    obtain ⟨moved, move, returned⟩ := Attempt.bind_eq_ok.mp returned
    obtain ⟨_, _, returned⟩ := Attempt.bind_eq_ok.mp returned
    obtain ⟨_, _, returned⟩ := Attempt.bind_eq_ok.mp returned
    obtain ⟨_, _, returned⟩ := Attempt.bind_eq_ok.mp returned
    cases returned
    have kept := depth_moveUnlessEmpty move
    change moved.depth + 1 = _
    rw [kept]
    change controlStack.length + s.unreachableTrackingStack.blocks.length + 1 = _
    unfold depth
    rw [opened, List.length_cons]
    omega

/-- How many constructs that the lowering knows an operator opens. -/
def opensKnown (op : Operator) : Nat :=
  (UnreachableTrackingControlStack.isBlock op).toList.length

/-- How many constructs an operator closes. -/
def closes : Operator → Nat
  | .endOp => 1
  | _ => 0

/-- Lowering an operator opens and closes what the operator does. -/
theorem depth_lowerReachable
    (returned : s.lowerReachable mod results op = .ok after) :
    after.depth + closes op = s.depth + opensKnown op := by
  cases op with
  | localGet index =>
      obtain ⟨operands, _, returned⟩ := Attempt.bind_eq_ok.mp returned
      cases returned
      rfl
  | localSet index =>
      obtain ⟨spilled, spill, returned⟩ := Attempt.bind_eq_ok.mp returned
      obtain ⟨popped, pop, returned⟩ := Attempt.bind_eq_ok.mp returned
      cases returned
      rw [← depth_spillLocal spill]
      exact congrArg (·.length + _) (control_popRegister pop)
  | localTee index =>
      obtain ⟨spilled, spill, returned⟩ := Attempt.bind_eq_ok.mp returned
      obtain ⟨slot, _, returned⟩ := Attempt.bind_eq_ok.mp returned
      cases returned
      have kept := depth_spillLocal spill
      exact kept
  | const value =>
      obtain ⟨sim, pushed, returned⟩ := Attempt.bind_eq_ok.mp returned
      obtain ⟨⟨id, pool⟩, _, pushed⟩ := Attempt.bind_eq_ok.mp pushed
      cases pushed
      cases returned
      rfl
  | data op =>
      obtain ⟨lowered, _, returned⟩ := Attempt.bind_eq_ok.mp returned
      obtain ⟨⟨interned, middle⟩, intern, returned⟩ := Attempt.bind_eq_ok.mp returned
      obtain ⟨⟨registers, sim⟩, popped, returned⟩ := Attempt.bind_eq_ok.mp returned
      cases returned
      rw [← depth_internMemoryOffset intern]
      exact congrArg (·.length + _) (control_popsAndPushesRegisters popped)
  | dataDrop dataIndex =>
      cases returned
      rfl
  | nop =>
      cases returned
      rfl
  | drop =>
      obtain ⟨⟨_, operands⟩, _, returned⟩ := Attempt.bind_eq_ok.mp returned
      cases returned
      rfl
  | block blockty =>
      obtain ⟨⟨params, sim⟩, added, returned⟩ := Attempt.bind_eq_ok.mp returned
      have moved := depth_moveUnlessEmpty returned
      have opened := length_control_addBlock added
      unfold depth at moved ⊢
      dsimp only at moved
      change _ = _ + 1
      dsimp only [closes]
      omega
  | loop blockty =>
      obtain ⟨spilled, spill, returned⟩ := Attempt.bind_eq_ok.mp returned
      obtain ⟨⟨params, sim⟩, added, returned⟩ := Attempt.bind_eq_ok.mp returned
      obtain ⟨middle, move, returned⟩ := Attempt.bind_eq_ok.mp returned
      cases returned
      have moved := depth_moveUnlessEmpty move
      have opened := length_control_addBlock added
      have kept := depth_spillLiveLocals spill
      change middle.depth = s.depth + 1
      unfold depth at moved kept ⊢
      dsimp only at moved
      omega
  | ifOp blockty =>
      obtain ⟨spilled, spill, returned⟩ := Attempt.bind_eq_ok.mp returned
      obtain ⟨⟨params, sim⟩, added, returned⟩ := Attempt.bind_eq_ok.mp returned
      obtain ⟨middle, move, returned⟩ := Attempt.bind_eq_ok.mp returned
      obtain ⟨last, pop, returned⟩ := Attempt.bind_eq_ok.mp returned
      cases returned
      have moved := depth_moveUnlessEmpty move
      have opened := length_control_addBlock added
      have kept := depth_spillLiveLocals spill
      have popped := congrArg List.length (control_popRegister pop)
      change last.controlStack.length +
        middle.unreachableTrackingStack.blocks.length = s.depth + 1
      unfold depth at moved kept ⊢
      dsimp only at moved
      omega
  | elseOp => exact depth_lowerElse returned
  | endOp => exact depth_lowerEnd returned
  | br relativeDepth => exact depth_lowerBr returned
  | brIf relativeDepth => exact depth_lowerBrIf returned
  | brTable targets last => exact depth_lowerBrTable returned
  | returnOp => exact depth_lowerReturn returned
  | call functionIndex => exact depth_lowerCall returned
  | callIndirect typeIndex tableIndex => exact depth_lowerCallIndirect returned
  | unreachable =>
      have kept : after.depth = (s.push .unreachable).depth := depth_leaveBlock returned
      exact kept
  | tryTable blockty debug => cases returned
  | other op => cases returned

end Arms

/-! ## The loop -/

/-- The filter remembers the constructs it knows that are opened in dead code. -/
theorem depth_checkUnreachability
    {filter after : UnreachableTrackingControlStack}
    (returned : filter.checkUnreachability op =
      (.ok (result, after) : Attempt TraceWasmError _)) :
    match result with
    | .continue =>
        after.blocks.length + closes op = filter.blocks.length + opensKnown op
    | .reachable => after.blocks = filter.blocks := by
  unfold UnreachableTrackingControlStack.checkUnreachability at returned
  split at returned
  · cases returned
    rfl
  · split at returned
    · rename_i variant opens
      cases returned
      have closesNone : closes op = 0 := by
        cases op <;> first | rfl | cases opens
      unfold opensKnown
      rw [opens, closesNone]
      rfl
    · rename_i opens
      have opensNone : opensKnown op = 0 := by
        unfold opensKnown
        rw [opens]
        rfl
      split at returned
      · split at returned
        · cases returned
          rfl
        · obtain ⟨_, _, returned⟩ := Attempt.bind_eq_ok.mp returned
          cases returned
          rfl
      · split at returned
        · cases returned
          rfl
        · rename_i others opened
          cases returned
          dsimp only
          rw [opened, opensNone]
          rfl
      · rename_i notElse notEnd
        cases returned
        have closesNone : closes op = 0 := by
          cases op <;> first | rfl | exact absurd rfl notEnd
        dsimp only
        rw [opensNone, closesNone]

/-- An operator changes the depth by what it opens and closes. -/
theorem depth_lowerOperator
    {s after : Lowering}
    (returned : s.lowerOperator mod results op = .ok after) :
    after.depth + closes op = s.depth + opensKnown op := by
  obtain ⟨⟨result, filter⟩, checked, returned⟩ := Attempt.bind_eq_ok.mp returned
  have counted := depth_checkUnreachability checked
  cases result with
  | «continue» =>
      cases returned
      unfold depth
      dsimp only at counted ⊢
      omega
  | reachable =>
      have lowered := depth_lowerReachable returned
      dsimp only at counted
      unfold depth at lowered ⊢
      dsimp only at lowered
      rw [counted] at lowered
      exact lowered

/-- Whether the operator opens a `try_table`. -/
def isTryTable : Operator → Bool
  | .tryTable _ _ => true
  | _ => false

/-- The validator counts every construct. -/
theorem length_frames_step
    {v v' : Validator}
    (accepted : v.step mod localsCount results op = some v') :
    v'.frames.length + closes op =
      v.frames.length + opensKnown op + (isTryTable op).toNat := by
  have frames := Validator.framesStep_of_step accepted
  cases op with
  | elseOp =>
      obtain ⟨frame, outer, opened, _, rfl⟩ := frames
      rw [opened]
      rfl
  | endOp =>
      obtain ⟨frame, outer, opened, rfl⟩ := frames
      rw [opened]
      rfl
  | block blockty =>
      obtain ⟨_, _, _, _, opened⟩ := frames
      rw [opened]
      rfl
  | loop blockty =>
      obtain ⟨_, _, _, _, opened⟩ := frames
      rw [opened]
      rfl
  | ifOp blockty =>
      obtain ⟨_, _, _, _, opened⟩ := frames
      rw [opened]
      rfl
  | tryTable blockty debug =>
      obtain ⟨_, _, _, _, opened⟩ := frames
      rw [opened]
      rfl
  | _ =>
      obtain ⟨frame, outer, opened, kept | marked⟩ := frames
      · rw [kept]
        rfl
      · rw [marked, opened]
        rfl

/-- What the lowering and its filter know of the open constructs is all but the
`try_table`s. -/
theorem depth_lowerOperators
    {s after : Lowering} {v v' : Validator}
    (ran : v.run mod localsCount results ops = some v')
    (lowered : s.lowerOperators mod results ops = .ok after)
    (counted : s.depth + extra = v.frames.length) :
    after.depth + (extra + ops.countP isTryTable) = v'.frames.length := by
  induction ops generalizing s v extra with
  | nil =>
      cases ran
      cases lowered
      exact counted
  | cons op ops inductionHypothesis =>
      obtain ⟨middle, accepted, ran⟩ := Option.bind_eq_some_iff.mp ran
      obtain ⟨next, lowerOp, lowered⟩ := Attempt.bind_eq_ok.mp lowered
      have opened := depth_lowerOperator lowerOp
      have frames := length_frames_step accepted
      rw [List.countP_cons]
      have rest := inductionHypothesis ran lowered
        (show next.depth + (extra + (isTryTable op).toNat) = middle.frames.length by omega)
      have same : (isTryTable op).toNat = if isTryTable op = true then 1 else 0 := by
        cases isTryTable op <;> rfl
      omega

/-- A body that is lowered to its end has no `try_table`. -/
theorem noTryTable_of_lowered
    {after : Lowering}
    (validates : Validates mod func ops)
    (lowered : (Lowering.initial func).lowerOperators mod func.results ops =
      .ok after) :
    ∀ op ∈ ops, isTryTable op = false := by
  obtain ⟨last, ran, closed⟩ := validates
  have counted := depth_lowerOperators ran lowered (show _ + 0 = _ from rfl)
  rw [closed, List.length_nil] at counted
  have noneOf : ops.countP isTryTable = 0 := by omega
  intro op member
  have absent := List.countP_eq_zero.mp noneOf op member
  simpa using absent

end Lowering

end Register
end TraceWasm
