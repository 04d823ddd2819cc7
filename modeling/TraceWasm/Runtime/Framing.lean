import TraceWasm.Runtime.DataEffect
import TraceWasm.Runtime.Lockstep

/-!
# What does not touch the frames

An operator without control, the resolution of an indirect call and the host see
the instance beside its frames and the sections of the module beside its bodies.
-/

namespace TraceWasm

/-- The module with other bodies. -/
def Module.withBodies
    {Instr Instr' FrameLayout FrameLayout' : Type}
    (module : Module Instr FrameLayout) (bodies : List (FuncBody Instr' FrameLayout')) :
    Module Instr' FrameLayout' where
  types := module.types
  funcDecls := module.funcDecls
  importedFuncCount := module.importedFuncCount
  funcBodies := bodies
  tables := module.tables
  memories := module.memories
  globals := module.globals
  importedGlobalCount := module.importedGlobalCount
  exports := module.exports
  exportedFuncName := module.exportedFuncName
  startSection := module.startSection
  elements := module.elements
  datas := module.datas

section Framing

variable {frame frame' memory registry Instr Instr' FrameLayout FrameLayout' : Type}
variable (module : Module Instr FrameLayout) (bodies : List (FuncBody Instr' FrameLayout'))
  (inst : Instance frame memory registry) (other : frame')

/-- An outcome with other frames beside it. -/
def reframe {α : Type} (other : frame') (outcome : α × Instance frame memory registry) :
    α × Instance frame' memory registry :=
  (outcome.1, outcome.2.withFrame other)

namespace DataOp

variable [Memory memory]

/-- An operator without control acts alike on all frames and leaves them alone. -/
theorem effect_withFrame
    (numerics : Numerics) (op : DataOp Nat Unit) (operands : List Value) :
    op.effect numerics (module.withBodies bodies) (inst.withFrame other) operands =
      reframe other (op.effect numerics module inst operands) := by
  rcases operands with _ | ⟨first, _ | ⟨second, _ | ⟨third, _ | ⟨fourth, rest⟩⟩⟩⟩ <;> cases op
  case nil.unary op => cases op <;> rfl
  case cons.nil.unary op => cases op <;> rfl
  case cons.cons.nil.unary op => cases op <;> rfl
  case cons.cons.cons.nil.unary op => cases op <;> rfl
  case cons.cons.cons.cons.unary op => cases op <;> rfl
  case cons.nil.globalSet index =>
      unfold effect
      dsimp only [Module.withBodies, Instance.withFrame]
      split <;> split
      all_goals
        rename_i checked _ _ checked'
        cases checked.symm.trans checked'
      · rfl
      · rfl
  case cons.cons.nil.store op memarg =>
      unfold effect
      dsimp only [Instance.withFrame]
      split <;> rfl
  case cons.cons.cons.nil.memoryInit dataIndex mem =>
      unfold effect
      dsimp only [Instance.withFrame]
      split
      · rfl
      · split <;> rfl
  all_goals rfl

/-- So they are left alone. -/
theorem frame_effect
    (numerics : Numerics) (op : DataOp Nat Unit) (operands : List Value) :
    (op.effect numerics module inst operands).2.frame = inst.frame := by
  have same := effect_withFrame module module.funcBodies inst inst.frame numerics op operands
  change op.effect numerics module inst operands = _ at same
  rw [same]
  rfl

omit [Memory memory] in
theorem dropData_withFrame (dataIndex : Nat) :
    dropData (inst.withFrame other) dataIndex =
      (dropData inst dataIndex).map (·.withFrame other) := by
  unfold dropData
  by_cases inside : dataIndex < inst.dataVals.length
  · simp [guard, Instance.withFrame, inside]
  · simp [guard, Instance.withFrame, inside]

end DataOp

/-- An indirect call resolves alike from all frames. -/
theorem resolveIndirect_withFrame (tyIndex tableIndex slot : Nat) :
    resolveIndirect (module.withBodies bodies) (inst.withFrame other) tyIndex tableIndex slot =
      resolveIndirect module inst tyIndex tableIndex slot := rfl

end Framing

/-! ## What operators without control push -/

namespace DataOp

variable {frame memory registry Instr FrameLayout : Type} [Memory memory]
  {module : Module Instr FrameLayout} {inst : Instance frame memory registry}
  {numerics : Numerics} {op : DataOp Nat Unit} {operands results : List Value}

omit [Memory memory] in
/-- An effect on the memory has no results. -/
theorem length_withEffect
    {effect : Effect memory Unit}
    (returned : (inst.withEffect effect).1 = .ok results) :
    results.length = 0 := by
  unfold Instance.withEffect at returned
  dsimp only at returned
  cases trapped : memoryTrap effect.1 with
  | ok done =>
      rw [trapped] at returned
      cases returned
      rfl
  | error fault =>
      rw [trapped] at returned
      cases returned

/-- An operator without control pushes as many results as it is counted with. -/
theorem length_effect
    (returned : (op.effect numerics module inst operands).1 = .ok results) :
    results.length = op.outputs := by
  have one : ∀ {attempt : Attempt InstructionExecutionError Value},
      (attempt >>= fun val => (pure [val] : Attempt InstructionExecutionError _)) =
        .ok results → results.length = 1 := by
    intro attempt bound
    obtain ⟨val, _, same⟩ := Attempt.bind_eq_ok.mp bound
    cases same
    rfl
  unfold effect at returned
  split at returned
  · obtain ⟨val, _, same⟩ := Attempt.bind_eq_ok.mp returned
    cases same
    rfl
  · split at returned
    · cases returned
      rfl
    · cases returned
  · cases returned
    rfl
  · exact one returned
  · exact one returned
  · obtain ⟨address, _, read⟩ := Attempt.bind_eq_ok.mp returned
    exact one read
  · split at returned
    · exact length_withEffect returned
    · exact length_withEffect returned
  · cases returned
    rfl
  · cases returned
    rfl
  · generalize (Memory.grow inst.memory _ _) = grown at returned
    rcases grown with ⟨(_ | _) | _, _⟩
    · cases returned
      rfl
    · cases returned
    · cases returned
      rfl
  · exact length_withEffect returned
  · exact length_withEffect returned
  · split at returned
    · cases returned
    · split at returned
      · exact length_withEffect returned
      · exact length_withEffect returned
  · cases returned
end DataOp

/-! ## Calls of imported functions -/

section Imported

variable {frame frame' base base' memory registry : Type}
  {Instr Instr' FrameLayout FrameLayout' : Type} [MemoryView memory]

/-- Whenever the host returns, it returns as many values as the module declares. -/
def HonorsDeclarations
    (memory : Type) [MemoryView memory] (host : ImportRegistry registry)
    (module : Module Instr FrameLayout) : Prop :=
  ∀ callee func, module.importedFunc callee = some func →
    ∀ (state : registry) (args : List Val) (m : memory) (results : List Val),
      ((host.execute state func.moduleName func.funcName args).run m).1.1 = .ok results →
        results.length = func.ty.results.length

/-- Outcomes that differ in nothing but the frames, which are related if the outcome
is not an error. -/
structure SameOutcome
    {α : Type} (related : frame → frame' → Prop)
    (outcome : Attempt ε α × Instance frame memory registry)
    (outcome' : Attempt ε α × Instance frame' memory registry) : Prop where
  answer : outcome'.1 = outcome.1
  inst : outcome'.2 = outcome.2.withFrame outcome'.2.frame
  frames : ∀ result, outcome.1 = .ok result → related outcome.2.frame outcome'.2.frame

/-- An imported function is called alike from two frames that hand it the same
arguments. -/
theorem callImported_same
    {related : frame → frame' → Prop}
    {boundary : HostBoundary frame base} {boundary' : HostBoundary frame' base'}
    {host : ImportRegistry registry} {callee : FuncIndex}
    {module : Module Instr FrameLayout} {bodies : List (FuncBody Instr' FrameLayout')}
    {inst : Instance frame memory registry} {other : frame'}
    {callerBase : base} {callerBase' : base'} {isIndirect : Option Nat}
    (honors : HonorsDeclarations memory host module)
    (exchanges : ∀ func, module.importedFunc callee = some func →
      ∃ args staged staged',
        boundary.getParams inst.frame func.ty.params.length callerBase =
          some (args, staged) ∧
        boundary'.getParams other func.ty.params.length callerBase' =
          some (args, staged') ∧
        ∀ results, results.length = func.ty.results.length → ∃ after after',
          boundary.setResults staged results callerBase = some after ∧
            boundary'.setResults staged' results callerBase' = some after' ∧
            related after after') :
    SameOutcome related
      (callImported host boundary callee module inst isIndirect callerBase)
      (callImported host boundary' callee (module.withBodies bodies)
        (inst.withFrame other) isIndirect callerBase') := by
  have found : (module.withBodies bodies).importedFunc callee = module.importedFunc callee :=
    rfl
  unfold callImported
  rw [found]
  cases isFunc : module.importedFunc callee with
  | none => exact ⟨rfl, rfl, fun _ impossible => by cases impossible⟩
  | some func =>
      obtain ⟨args, staged, staged', params, params', results⟩ := exchanges func isFunc
      dsimp only [Instance.frame_withFrame]
      rw [params, params']
      dsimp only
      cases typedArgs args func.ty.params with
      | none => exact ⟨rfl, rfl, fun _ impossible => by cases impossible⟩
      | some args =>
          have honored := honors callee func isFunc inst.importRegistry args inst.memory
          dsimp only [Instance.withFrame]
          generalize (host.execute inst.importRegistry func.moduleName func.funcName
            args).run inst.memory = reply at honored
          obtain ⟨⟨answer, importRegistry⟩, memory⟩ := reply
          cases answer with
          | error err => exact ⟨rfl, rfl, fun _ impossible => by cases impossible⟩
          | ok values =>
              obtain ⟨after, after', wrote, wrote', left⟩ := results values (honored values rfl)
              dsimp only
              rw [wrote, wrote']
              exact ⟨rfl, rfl, fun _ _ => left⟩

end Imported

end TraceWasm
