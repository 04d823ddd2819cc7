import Mathlib.Logic.Relation
import TraceWasm.Register.Lower
import TraceWasm.Register.OperandSpec

/-!
# The steps a lowering takes on its operand stack

Everything the pass does to its operand stack is a sequence of a few operations
on it: pushes, pops, rescues of borrows and raises of the peak. Each of them
keeps the operand stack sound, so every operand stack of every lowering run is.
-/

namespace TraceWasm
namespace Register

namespace OperandStack

/-- One operation that returned. -/
inductive Step (locals : Nat) : OperandStack → OperandStack → Prop
  | pushLocal
      (below : localIndex < locals)
      (returned : operands.pushLocal localIndex = .ok after) :
      Step locals operands after
  | pushRegister
      (returned : operands.push (asU16 operands.currRegisterIndex) = .ok after) :
      Step locals operands after
  | pushConst (id : Nat) : Step locals operands (operands.pushConstId id)
  | pop
      (returned : (operands.pop : Attempt TraceWasmError _) =
        .ok (operand, after)) :
      Step locals operands after
  | setLazy
      (returned : operands.setLazy localIndex = .ok (spillIndex, after)) :
      Step locals operands after
  | brTruncation
      (returned : operands.brTruncationRegisters baseHeight arity =
        .ok (carried, mov, after)) :
      Step locals operands after

/-- A sequence of operations. -/
abbrev Steps (locals : Nat) : OperandStack → OperandStack → Prop :=
  Relation.ReflTransGen (Step locals)

/-- A branch changes nothing but the peak. -/
theorem brTruncationRegisters_eq_ok
    {operands : OperandStack}
    (returned : operands.brTruncationRegisters baseHeight arity =
      .ok (carried, mov, after)) :
    ∃ peak, peak ≤ u16Max ∧ after = raiseMax operands peak ∨
      after = operands := by
  unfold brTruncationRegisters at returned
  obtain ⟨popped, _, returned⟩ := Attempt.bind_eq_ok.mp returned
  obtain ⟨⟨slots, registerIndex⟩, _, returned⟩ := Attempt.bind_eq_ok.mp returned
  dsimp only at returned
  split at returned
  · split at returned
    · cases returned
    · rename_i above fits
      unfold maxRegisterSlots at fits
      cases returned
      refine ⟨registerIndex + arity, .inl ⟨by omega, ?_⟩⟩
      rw [raiseMax, max_eq_right (by omega), asU16_of_le (by omega)]
  · cases returned
    exact ⟨0, .inr rfl⟩

/-- A step goes over to a sound operand stack with peaks at least as high. -/
theorem Step.becomes
    (step : Step locals operands after)
    (sound : Sound locals operands) :
    ∃ view, Sound.Becomes locals operands view after := by
  cases step with
  | pushLocal below returned =>
      obtain ⟨_, pushed, becomes⟩ := sound.pushLocal_eq below
      rw [returned] at pushed
      cases pushed
      exact ⟨_, becomes⟩
  | pushRegister returned => exact ⟨_, sound.pushRegister_meets.of_ok returned⟩
  | pushConst id => exact ⟨_, sound.pushConstId_becomes id⟩
  | pop returned =>
      cases top : operands.view with
      | nil =>
          unfold OperandStack.pop at returned
          rw [List.map_eq_nil_iff.mp top] at returned
          cases returned
      | cons operand rest =>
          obtain ⟨_, popped, becomes⟩ := sound.pop_eq (ε := TraceWasmError) top
          rw [returned] at popped
          cases popped
          exact ⟨_, becomes⟩
  | setLazy returned =>
      rename_i localIndex spillIndex
      have inRange : localIndex < locals := by
        obtain ⟨origin, held, _⟩ := Attempt.bind_eq_ok.mp returned
        rw [← sound.origins]
        exact (List.getElem?_eq_some_iff.mp (Attempt.orPanic_eq_ok.mp held)).1
      obtain ⟨⟨view, _, becomes⟩, _⟩ := (sound.setLazy_meets inRange).of_ok returned
      exact ⟨view, becomes⟩
  | brTruncation returned =>
      obtain ⟨peak, ⟨fits, rfl⟩ | rfl⟩ := brTruncationRegisters_eq_ok returned
      · exact ⟨_, sound.raiseMax_becomes fits⟩
      · exact ⟨_, .refl sound⟩

/-- Steps of the operand stack change its view. -/
theorem Steps.becomes
    (steps : Steps locals operands after)
    (sound : Sound locals operands) :
    ∃ view, Sound.Becomes locals operands view after := by
  induction steps with
  | refl => exact ⟨_, .refl sound⟩
  | tail prior step inductionHypothesis =>
      obtain ⟨between, becomes⟩ := inductionHypothesis
      obtain ⟨view, becomesLast⟩ := step.becomes becomes.sound
      exact ⟨view, becomes.trans becomesLast⟩

/-- They keep it sound. -/
theorem Steps.sound
    (steps : Steps locals operands after)
    (sound : Sound locals operands) :
    Sound locals after := by
  obtain ⟨view, becomes⟩ := steps.becomes sound
  exact becomes.sound

/-- They never lower the peak. -/
theorem Steps.max_le
    (steps : Steps locals operands after)
    (sound : Sound locals operands) :
    operands.maxRegisters ≤ after.maxRegisters := by
  obtain ⟨view, becomes⟩ := steps.becomes sound
  exact becomes.max

/-! ## Composite operations -/

section Composite

variable {locals : Nat} {operands after : OperandStack}

theorem steps_popMany
    (returned : (operands.popMany count : Attempt TraceWasmError _) =
      .ok (slots, after)) :
    Steps locals operands after := by
  induction count generalizing operands slots with
  | zero =>
      cases returned
      exact .refl
  | succ count inductionHypothesis =>
      obtain ⟨⟨slot, middle⟩, popped, returned⟩ := Attempt.bind_eq_ok.mp returned
      obtain ⟨⟨rest, last⟩, poppedRest, returned⟩ := Attempt.bind_eq_ok.mp returned
      cases returned
      exact .head (.pop popped) (inductionHypothesis poppedRest)

theorem steps_pushMany
    (returned : operands.pushMany count = .ok after) :
    Steps locals operands after := by
  induction count generalizing operands with
  | zero =>
      cases returned
      exact .refl
  | succ count inductionHypothesis =>
      obtain ⟨middle, pushed, returned⟩ := Attempt.bind_eq_ok.mp returned
      exact .head (.pushRegister pushed) (inductionHypothesis returned)

theorem steps_popsAndPushes
    (returned : operands.popsAndPushes pops pushes = .ok after) :
    Steps locals operands after := by
  obtain ⟨⟨_, middle⟩, popped, returned⟩ := Attempt.bind_eq_ok.mp returned
  exact (steps_popMany popped).trans (steps_pushMany returned)

theorem steps_spillLazyOf
    (returned : operands.spillLazyOf indices = .ok (copies, after)) :
    Steps locals operands after := by
  induction indices generalizing operands copies with
  | nil =>
      cases returned
      exact .refl
  | cons index indices inductionHypothesis =>
      obtain ⟨⟨spillIndex, middle⟩, set, returned⟩ := Attempt.bind_eq_ok.mp returned
      obtain ⟨⟨rest, last⟩, spilled, returned⟩ := Attempt.bind_eq_ok.mp returned
      cases spillIndex with
      | none =>
          cases returned
          exact .head (.setLazy set) (inductionHypothesis spilled)
      | some spillIndex =>
          cases returned
          exact .head (.setLazy set) (inductionHypothesis spilled)

end Composite

end OperandStack

/-! ## The lowering's own steps -/

open OperandStack (Steps)

namespace Lowering

/-- The operand stack of the lowering state. -/
abbrev operands (s : Lowering) : OperandStack := s.simulatedStack.operands

/-- The local index an operator names, if any, is one of the body's locals. -/
def LocalsBelow (locals : Nat) : Operator → Prop
  | .localGet index => index < locals
  | _ => True

section Arms

variable {locals : Nat} {s after : Lowering}

theorem steps_popsAndPushesRegisters
    {sim result : SimulatedStack}
    (returned : sim.popsAndPushesRegisters pops pushes instrIndex source =
      .ok (mov, result)) :
    Steps locals sim.operands result.operands := by
  obtain ⟨⟨slots, middle⟩, popped, returned⟩ := Attempt.bind_eq_ok.mp returned
  obtain ⟨last, pushed, returned⟩ := Attempt.bind_eq_ok.mp returned
  cases returned
  exact (OperandStack.steps_popMany popped).trans (OperandStack.steps_pushMany pushed)

theorem steps_popRegister
    {sim result : SimulatedStack}
    (returned : sim.popRegister instrIndex source = .ok result) :
    Steps locals sim.operands result.operands := by
  obtain ⟨⟨mov, last⟩, popped, returned⟩ := Attempt.bind_eq_ok.mp returned
  cases returned
  exact steps_popsAndPushesRegisters popped

theorem steps_simPopsAndPushes
    {sim result : SimulatedStack}
    (returned : sim.popsAndPushes pops pushes = .ok result) :
    Steps locals sim.operands result.operands := by
  obtain ⟨last, popped, returned⟩ := Attempt.bind_eq_ok.mp returned
  cases returned
  exact OperandStack.steps_popsAndPushes popped

theorem steps_brTruncationRegisters
    {sim result : SimulatedStack}
    (returned : sim.brTruncationRegisters height arity instrIndex source =
      .ok (mov, result)) :
    Steps locals sim.operands result.operands := by
  obtain ⟨⟨slots, carried, middle⟩, truncated, returned⟩ :=
    Attempt.bind_eq_ok.mp returned
  cases returned
  split <;> exact .single (.brTruncation truncated)

theorem operands_addBlock
    {sim result : SimulatedStack}
    (returned : sim.addBlock types kind blockty instrLen = .ok (params, result)) :
    result.operands = sim.operands := by
  obtain ⟨⟨_, _⟩, _, returned⟩ := Attempt.bind_eq_ok.mp returned
  obtain ⟨_, _, returned⟩ := Attempt.bind_eq_ok.mp returned
  cases returned
  rfl

theorem steps_spillLiveLocals
    (returned : s.spillLiveLocals = .ok after) :
    Steps locals s.operands after.operands := by
  obtain ⟨⟨copies, middle⟩, spilled, returned⟩ := Attempt.bind_eq_ok.mp returned
  cases returned
  exact OperandStack.steps_spillLazyOf spilled

theorem steps_spillLocal
    (returned : s.spillLocal index = .ok after) :
    Steps locals s.operands after.operands := by
  obtain ⟨⟨spillIndex, middle⟩, set, returned⟩ := Attempt.bind_eq_ok.mp returned
  cases spillIndex with
  | none =>
      cases returned
      exact .single (.setLazy set)
  | some spillIndex =>
      cases returned
      exact .single (.setLazy set)

theorem steps_moveUnlessEmpty
    (returned : s.moveUnlessEmpty depth = .ok after) :
    Steps locals s.operands after.operands := by
  unfold moveUnlessEmpty at returned
  split at returned
  · obtain ⟨⟨mov, sim⟩, moved, returned⟩ := Attempt.bind_eq_ok.mp returned
    cases returned
    exact steps_popsAndPushesRegisters moved
  · cases returned
    exact .refl

theorem steps_leaveBlock
    (returned : s.leaveBlock = .ok after) :
    Steps locals s.operands after.operands := by
  obtain ⟨sim, reset, returned⟩ := Attempt.bind_eq_ok.mp returned
  cases returned
  obtain ⟨block, _, reset⟩ := Attempt.bind_eq_ok.mp reset
  obtain ⟨unwind, _, reset⟩ := Attempt.bind_eq_ok.mp reset
  exact steps_simPopsAndPushes reset

theorem operands_internMemoryOffset
    (returned : s.internMemoryOffset op = .ok (interned, after)) :
    after.operands = s.operands := by
  unfold internMemoryOffset at returned
  split at returned
  · obtain ⟨⟨id, pool⟩, _, returned⟩ := Attempt.bind_eq_ok.mp returned
    cases returned
    rfl
  · obtain ⟨⟨id, pool⟩, _, returned⟩ := Attempt.bind_eq_ok.mp returned
    cases returned
    rfl
  · cases returned
    rfl

theorem operands_attachUnlessLoop
    (relativeDepth : Nat) (block : Block) (attached : Nat × Nat) :
    (s.attachUnlessLoop relativeDepth block attached).operands = s.operands := by
  unfold attachUnlessLoop
  split <;> rfl

theorem steps_lowerBrTargets
    (returned : s.lowerBrTargets done targets = .ok (brTargets, after)) :
    Steps locals s.operands after.operands := by
  induction targets generalizing s done with
  | nil =>
      cases returned
      exact .refl
  | cons relativeDepth targets inductionHypothesis =>
      obtain ⟨block, _, returned⟩ := Attempt.bind_eq_ok.mp returned
      obtain ⟨⟨mov, sim⟩, truncated, returned⟩ := Attempt.bind_eq_ok.mp returned
      have rest := inductionHypothesis returned
      rw [operands_attachUnlessLoop] at rest
      exact (steps_brTruncationRegisters truncated).trans rest

@[simp] theorem operands_pushMove (mov : DynSignature Slot) :
    (s.pushMove mov).operands = s.operands := by
  unfold pushMove
  split <;> rfl

theorem steps_lowerBr
    (returned : s.lowerBr relativeDepth = .ok after) :
    Steps locals s.operands after.operands := by
  obtain ⟨block, _, returned⟩ := Attempt.bind_eq_ok.mp returned
  obtain ⟨⟨mov, sim⟩, truncated, returned⟩ := Attempt.bind_eq_ok.mp returned
  refine (steps_brTruncationRegisters truncated).trans ?_
  have left : Steps locals _ _ := steps_leaveBlock returned
  change Steps locals (pushMove _ mov).operands _ at left
  rwa [operands_pushMove, operands_attachUnlessLoop] at left

theorem steps_lowerBrIf
    (returned : s.lowerBrIf relativeDepth = .ok after) :
    Steps locals s.operands after.operands := by
  obtain ⟨spilled, spill, returned⟩ := Attempt.bind_eq_ok.mp returned
  obtain ⟨block, _, returned⟩ := Attempt.bind_eq_ok.mp returned
  obtain ⟨popped, pop, returned⟩ := Attempt.bind_eq_ok.mp returned
  obtain ⟨⟨mov, sim⟩, truncated, returned⟩ := Attempt.bind_eq_ok.mp returned
  cases returned
  refine ((steps_spillLiveLocals spill).trans (steps_popRegister pop)).trans ?_
  change Steps locals _ (attachUnlessLoop _ _ _ _).operands
  rw [operands_attachUnlessLoop]
  exact steps_brTruncationRegisters truncated

theorem steps_lowerBrTable
    (returned : s.lowerBrTable targets last = .ok after) :
    Steps locals s.operands after.operands := by
  obtain ⟨spilled, spill, returned⟩ := Attempt.bind_eq_ok.mp returned
  obtain ⟨popped, pop, returned⟩ := Attempt.bind_eq_ok.mp returned
  obtain ⟨⟨brTargets, arms⟩, lowered, returned⟩ := Attempt.bind_eq_ok.mp returned
  have left : Steps locals _ _ := steps_leaveBlock returned
  exact ((steps_spillLiveLocals spill).trans (steps_popRegister pop)).trans
    ((steps_lowerBrTargets lowered).trans left)

theorem steps_lowerReturn
    (returned : lowerReturn results s = .ok after) :
    Steps locals s.operands after.operands := by
  obtain ⟨⟨mov, sim⟩, truncated, returned⟩ := Attempt.bind_eq_ok.mp returned
  obtain ⟨_, _, returned⟩ := Attempt.bind_eq_ok.mp returned
  refine (steps_brTruncationRegisters truncated).trans ?_
  have left : Steps locals _ _ := steps_leaveBlock returned
  change Steps locals (pushMove _ mov).operands _ at left
  rwa [operands_pushMove] at left

theorem steps_lowerCall
    (returned : lowerCall mod s functionIndex = .ok after) :
    Steps locals s.operands after.operands := by
  obtain ⟨ty, _, returned⟩ := Attempt.bind_eq_ok.mp returned
  obtain ⟨_, _, returned⟩ := Attempt.bind_eq_ok.mp returned
  obtain ⟨_, _, returned⟩ := Attempt.bind_eq_ok.mp returned
  obtain ⟨moved, move, returned⟩ := Attempt.bind_eq_ok.mp returned
  obtain ⟨_, _, returned⟩ := Attempt.bind_eq_ok.mp returned
  obtain ⟨sim, popped, returned⟩ := Attempt.bind_eq_ok.mp returned
  cases returned
  exact (steps_moveUnlessEmpty move).trans (steps_simPopsAndPushes popped)

theorem steps_lowerCallIndirect
    (returned : lowerCallIndirect types s typeIndex tableIndex = .ok after) :
    Steps locals s.operands after.operands := by
  obtain ⟨ty, _, returned⟩ := Attempt.bind_eq_ok.mp returned
  obtain ⟨_, _, returned⟩ := Attempt.bind_eq_ok.mp returned
  obtain ⟨_, _, returned⟩ := Attempt.bind_eq_ok.mp returned
  obtain ⟨_, _, returned⟩ := Attempt.bind_eq_ok.mp returned
  obtain ⟨sim, pop, returned⟩ := Attempt.bind_eq_ok.mp returned
  obtain ⟨⟨mov, moved⟩, move, returned⟩ := Attempt.bind_eq_ok.mp returned
  obtain ⟨_, _, returned⟩ := Attempt.bind_eq_ok.mp returned
  obtain ⟨last, popped, returned⟩ := Attempt.bind_eq_ok.mp returned
  cases returned
  exact ((steps_popRegister pop).trans (steps_popsAndPushesRegisters move)).trans
    (steps_simPopsAndPushes popped)

theorem steps_lowerLocalSet
    (returned : s.lowerLocalSet index = .ok after) :
    Steps locals s.operands after.operands := by
  obtain ⟨spilled, spill, returned⟩ := Attempt.bind_eq_ok.mp returned
  obtain ⟨popped, pop, returned⟩ := Attempt.bind_eq_ok.mp returned
  cases returned
  exact (steps_spillLocal spill).trans (steps_popRegister pop)

theorem steps_lowerLocalTee
    (returned : s.lowerLocalTee index = .ok after) :
    Steps locals s.operands after.operands := by
  obtain ⟨spilled, spill, returned⟩ := Attempt.bind_eq_ok.mp returned
  obtain ⟨slot, _, returned⟩ := Attempt.bind_eq_ok.mp returned
  cases returned
  have steps : Steps locals _ _ := steps_spillLocal spill
  exact steps

theorem steps_lowerConst
    (returned : s.lowerConst value = .ok after) :
    Steps locals s.operands after.operands := by
  obtain ⟨sim, pushed, returned⟩ := Attempt.bind_eq_ok.mp returned
  obtain ⟨⟨id, pool⟩, _, pushed⟩ := Attempt.bind_eq_ok.mp pushed
  cases returned
  cases pushed
  exact .single (.pushConst id)

theorem steps_lowerData
    (returned : s.lowerData op = .ok after) :
    Steps locals s.operands after.operands := by
  obtain ⟨checked, _, returned⟩ := Attempt.bind_eq_ok.mp returned
  obtain ⟨⟨interned, middle⟩, intern, returned⟩ := Attempt.bind_eq_ok.mp returned
  obtain ⟨⟨registers, sim⟩, popped, returned⟩ := Attempt.bind_eq_ok.mp returned
  cases returned
  have steps : Steps locals _ _ := steps_popsAndPushesRegisters popped
  rwa [show middle.simulatedStack.operands = s.operands from
    operands_internMemoryOffset intern] at steps

theorem steps_lowerDrop
    (returned : s.lowerDrop = .ok after) :
    Steps locals s.operands after.operands := by
  obtain ⟨⟨operand, operands⟩, popped, returned⟩ := Attempt.bind_eq_ok.mp returned
  cases returned
  exact .single (.pop popped)

theorem steps_lowerBlock
    (returned : lowerBlock types s blockty = .ok after) :
    Steps locals s.operands after.operands := by
  obtain ⟨⟨params, sim⟩, added, returned⟩ := Attempt.bind_eq_ok.mp returned
  have steps : Steps locals _ _ := steps_moveUnlessEmpty returned
  rwa [show Lowering.operands _ = _ from operands_addBlock added] at steps

theorem steps_lowerLoop
    (returned : lowerLoop types s blockty = .ok after) :
    Steps locals s.operands after.operands := by
  obtain ⟨spilled, spill, returned⟩ := Attempt.bind_eq_ok.mp returned
  obtain ⟨⟨params, sim⟩, added, returned⟩ := Attempt.bind_eq_ok.mp returned
  obtain ⟨moved, move, returned⟩ := Attempt.bind_eq_ok.mp returned
  cases returned
  have steps : Steps locals _ _ := steps_moveUnlessEmpty move
  rw [show Lowering.operands _ = _ from operands_addBlock added] at steps
  exact (steps_spillLiveLocals spill).trans steps

theorem steps_lowerIf
    (returned : lowerIf types s blockty = .ok after) :
    Steps locals s.operands after.operands := by
  obtain ⟨spilled, spill, returned⟩ := Attempt.bind_eq_ok.mp returned
  obtain ⟨⟨params, sim⟩, added, returned⟩ := Attempt.bind_eq_ok.mp returned
  obtain ⟨moved, move, returned⟩ := Attempt.bind_eq_ok.mp returned
  obtain ⟨popped, pop, returned⟩ := Attempt.bind_eq_ok.mp returned
  cases returned
  have steps : Steps locals _ _ := steps_moveUnlessEmpty move
  rw [show Lowering.operands _ = _ from operands_addBlock added] at steps
  exact ((steps_spillLiveLocals spill).trans steps).trans (steps_popRegister pop)

theorem steps_lowerElse
    (returned : s.lowerElse = .ok after) :
    Steps locals s.operands after.operands := by
  obtain ⟨block, _, returned⟩ := Attempt.bind_eq_ok.mp returned
  cases kind : block.kind with
  | ifOp index elseIndex =>
      simp only [kind] at returned
      obtain ⟨moved, move, returned⟩ := Attempt.bind_eq_ok.mp returned
      obtain ⟨_, _, returned⟩ := Attempt.bind_eq_ok.mp returned
      obtain ⟨sim, popped, returned⟩ := Attempt.bind_eq_ok.mp returned
      cases returned
      exact (steps_moveUnlessEmpty move).trans (steps_simPopsAndPushes popped)
  | func => simp [kind, Attempt.panicked] at returned
  | block => simp [kind, Attempt.panicked] at returned
  | loop index => simp [kind, Attempt.panicked] at returned

theorem steps_lowerEnd
    (returned : s.lowerEnd = .ok after) :
    Steps locals s.operands after.operands := by
  unfold lowerEnd at returned
  split at returned
  · cases returned
  · obtain ⟨moved, move, returned⟩ := Attempt.bind_eq_ok.mp returned
    obtain ⟨_, _, returned⟩ := Attempt.bind_eq_ok.mp returned
    obtain ⟨_, _, returned⟩ := Attempt.bind_eq_ok.mp returned
    obtain ⟨_, _, returned⟩ := Attempt.bind_eq_ok.mp returned
    cases returned
    have steps : Steps locals _ _ := steps_moveUnlessEmpty move
    exact steps

/-- Lowering a live operator takes steps of the operand stack only. -/
theorem steps_lowerReachable
    (below : LocalsBelow locals op)
    (localsLe : locals ≤ 50000)
    (returned : s.lowerReachable mod results op = .ok after) :
    Steps locals s.operands after.operands := by
  cases op with
  | localGet index =>
      obtain ⟨operands, pushed, returned⟩ := Attempt.bind_eq_ok.mp returned
      cases returned
      have : index < locals := below
      rw [asU16_of_le (by unfold u16Max; omega)] at pushed
      exact .single (.pushLocal below pushed)
  | localSet index => exact steps_lowerLocalSet returned
  | localTee index => exact steps_lowerLocalTee returned
  | const value => exact steps_lowerConst returned
  | data op => exact steps_lowerData returned
  | dataDrop dataIndex =>
      cases returned
      exact .refl
  | nop =>
      cases returned
      exact .refl
  | drop => exact steps_lowerDrop returned
  | block blockty => exact steps_lowerBlock returned
  | loop blockty => exact steps_lowerLoop returned
  | ifOp blockty => exact steps_lowerIf returned
  | elseOp => exact steps_lowerElse returned
  | endOp => exact steps_lowerEnd returned
  | br relativeDepth => exact steps_lowerBr returned
  | brIf relativeDepth => exact steps_lowerBrIf returned
  | brTable targets last => exact steps_lowerBrTable returned
  | returnOp => exact steps_lowerReturn returned
  | call functionIndex => exact steps_lowerCall returned
  | callIndirect typeIndex tableIndex => exact steps_lowerCallIndirect returned
  | unreachable =>
      have steps : Steps locals (s.push .unreachable).operands _ :=
        steps_leaveBlock returned
      exact steps
  | tryTable blockty debug => cases returned
  | other op => cases returned

/-- So does lowering any operator. -/
theorem steps_lowerOperator
    (below : LocalsBelow locals op)
    (localsLe : locals ≤ 50000)
    (returned : s.lowerOperator mod results op = .ok after) :
    Steps locals s.operands after.operands := by
  obtain ⟨⟨result, filter⟩, _, returned⟩ := Attempt.bind_eq_ok.mp returned
  cases result with
  | «continue» =>
      cases returned
      exact .refl
  | reachable =>
      have steps := steps_lowerReachable
        (s := { s with unreachableTrackingStack := filter }) below localsLe returned
      exact steps

/-- So does lowering several. -/
theorem steps_lowerOperators
    (below : ∀ op ∈ ops, LocalsBelow locals op)
    (localsLe : locals ≤ 50000)
    (returned : s.lowerOperators mod results ops = .ok after) :
    Steps locals s.operands after.operands := by
  induction ops generalizing s with
  | nil =>
      cases returned
      exact .refl
  | cons op ops inductionHypothesis =>
      obtain ⟨middle, lowered, returned⟩ := Attempt.bind_eq_ok.mp returned
      exact (steps_lowerOperator (below op (by simp)) localsLe lowered).trans
        (inductionHypothesis (fun op member => below op (by simp [member])) returned)

end Arms

end Lowering

end Register
end TraceWasm
