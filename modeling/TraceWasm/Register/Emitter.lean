import TraceWasm.Module.Code
import TraceWasm.Register.Lower

/-!
# The code section of the register machine

Whatever an operator adds to the code carries the operator's byte offset.
-/

namespace TraceWasm
namespace Register

/-- Lower one operator. Whatever it adds carries its byte offset. -/
def Lowering.lowerLocated
    (mod : ModuleTypes) (results : Nat) (state : Lowering × List Nat)
    (located : Operator × Nat) :
    Attempt TraceWasmError (Lowering × List Nat) := do
  let s ← state.1.lowerOperator mod results located.1
  return (s, state.2 ++
    List.replicate (s.instructions.length - state.1.instructions.length)
      (located.2 % 2 ^ 32))

/-- `emit_instructions_for_func` of the register machine. -/
def emitter : Emitter (RegInstruction Slot) RegFrameLayout := fun mod func ops => do
  let (s, offsets) ← ops.foldlM (Lowering.lowerLocated mod func.results)
    (Lowering.initial func, [])
  let (instructions, frame) ← s.finish
  return (instructions, offsets, frame)

/-- The offsets do not matter to the lowering. -/
theorem lowerLocated_eq
    (mod : ModuleTypes) (results : Nat) (located : List (Operator × Nat))
    (s : Lowering) (offsets : List Nat) :
    Except.map Prod.fst
        (located.foldlM (Lowering.lowerLocated mod results) (s, offsets)) =
      s.lowerOperators mod results (located.map Prod.fst) := by
  induction located generalizing s offsets with
  | nil => rfl
  | cons first located inductionHypothesis =>
      unfold Lowering.lowerOperators at inductionHypothesis ⊢
      rw [List.foldlM_cons, List.map_cons, List.foldlM_cons]
      unfold Lowering.lowerLocated
      cases lowered : s.lowerOperator mod results first.1 with
      | error fault => rfl
      | ok s' => exact inductionHypothesis s' _

/-- The emitter returns what the lowering makes of the body. -/
theorem emitter_ok_iff
    {mod : ModuleTypes} {func : FuncHeader} {located : List (Operator × Nat)} :
    (∃ emitted, emitter mod func located = .ok emitted) ↔
      ∃ body, emitInstructionsForFunc mod func (located.map Prod.fst) = .ok body := by
  unfold emitter emitInstructionsForFunc
  rw [← lowerLocated_eq mod func.results located _ []]
  cases located.foldlM (Lowering.lowerLocated mod func.results)
      (Lowering.initial func, []) with
  | error fault =>
      constructor
      · rintro ⟨_, impossible⟩
        cases impossible
      · rintro ⟨_, impossible⟩
        cases impossible
  | ok state =>
      obtain ⟨s, offsets⟩ := state
      change (∃ emitted, (s.finish >>= fun result =>
        pure (result.1, offsets, result.2) : Attempt TraceWasmError _) = .ok emitted) ↔
          ∃ body, (s.finish >>= fun result =>
            pure ⟨result.1, result.2⟩ : Attempt TraceWasmError LoweredFuncBody) = .ok body
      constructor
      · rintro ⟨_, emitted⟩
        obtain ⟨result, finished, _⟩ := Attempt.bind_eq_ok.mp emitted
        exact ⟨_, Attempt.bind_eq_ok.mpr ⟨result, finished, rfl⟩⟩
      · rintro ⟨_, emitted⟩
        obtain ⟨result, finished, _⟩ := Attempt.bind_eq_ok.mp emitted
        exact ⟨_, Attempt.bind_eq_ok.mpr ⟨result, finished, rfl⟩⟩

end Register
end TraceWasm
