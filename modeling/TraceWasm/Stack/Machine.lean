import TraceWasm.Stack.Execute

/-!
# The stack machine
-/

namespace TraceWasm
namespace Stack

variable {memory registry : Type} [Memory memory]

/-- The instruction is an `End`. -/
def IsEnd (instr : StackInstruction) : Prop :=
  ∃ arity recordedHeight, instr = .endOp arity recordedHeight

/-- An `End` only checks the height. -/
theorem execute_endOp
    {host : ImportRegistry registry} {numerics : Numerics}
    {module : Module StackInstruction StackFrameLayout} {instr : StackInstruction}
    {layout : StackFrameLayout} {base : StackCallerBaseData}
    {inst : StackInstance memory registry} {step : Step StackCallerBaseData}
    (isEnd : IsEnd instr)
    (executed : (execute host numerics module instr layout base inst).1 = .ok step) :
    step = .next := by
  obtain ⟨arity, recordedHeight, same⟩ := isEnd
  rw [same, execute] at executed
  split at executed
  · exact (Except.ok.inj executed).symm
  · cases executed

/-- The stack machine, over a host and the numeric operators. -/
def machine (host : ImportRegistry registry) (numerics : Numerics) :
    Machine memory registry where
  Instr := StackInstruction
  FrameLayout := StackFrameLayout
  CallerBaseData := StackCallerBaseData
  RuntimeFrame := Stack Value
  initialData := .initialData
  reset := reset
  setInitialParams := setInitialParams
  getFinalResults := getFinalResults
  enterFrame := fun s paramsCount localsTy base _ => s.enterFrame paramsCount localsTy base
  exitFrame := fun s resultsCount base _ => s.exitFrame resultsCount base
  execute := execute host numerics
  IsEnd := IsEnd
  executeEnd := fun _ _ _ _ _ _ isEnd executed => execute_endOp isEnd executed

end Stack
end TraceWasm
