import TraceWasm.Register.Execute

/-!
# The register machine
-/

namespace TraceWasm
namespace Register

variable {memory registry : Type} [Memory memory]

/-- The instruction is an `End`. -/
def IsEnd (instr : RegInstruction Slot) : Prop := instr = .endOp

theorem execute_endOp
    {host : ImportRegistry registry} {numerics : Numerics} {module : RegModule}
    {instr : RegInstruction Slot} {layout : RegFrameLayout} {base : RegCallerBaseData}
    {inst : RegInstance memory registry} {step : Step RegCallerBaseData}
    (isEnd : IsEnd instr)
    (executed : (execute host numerics module instr layout base inst).1 = .ok step) :
    step = .next := by
  unfold IsEnd at isEnd
  rw [isEnd, execute] at executed
  exact (Except.ok.inj executed).symm

/-- The register machine, over a host and the numeric operators. -/
def machine (host : ImportRegistry registry) (numerics : Numerics) :
    Machine memory registry where
  Instr := RegInstruction Slot
  FrameLayout := RegFrameLayout
  CallerBaseData := RegCallerBaseData
  RuntimeFrame := RegFrame
  initialData := .initialData
  reset := RegFrame.reset
  setInitialParams := RegFrame.setInitialParams
  getFinalResults := fun frame resultsCount =>
    (frame.getFinalResults resultsCount).map fun results => (results, frame)
  enterFrame := fun frame paramsCount localsTy base layout =>
    (frame.enterFrame paramsCount localsTy base layout).map fun frame => (frame, base)
  exitFrame := fun frame resultsCount base layout =>
    frame.exitFrame resultsCount base layout
  execute := execute host numerics
  IsEnd := IsEnd
  executeEnd := fun _ _ _ _ _ _ isEnd executed => execute_endOp isEnd executed

end Register
end TraceWasm
