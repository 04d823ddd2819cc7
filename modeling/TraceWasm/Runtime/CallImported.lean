import TraceWasm.Register.Frame
import TraceWasm.Runtime.Error
import TraceWasm.Runtime.Instance
import TraceWasm.Stack.Frame

/-!
# Calls through a table and calls of imported functions

The arguments are read out of the frame, the host runs, and what it returned is
written back where the caller looks for results. How many values that is, the
host alone decides.
-/

namespace TraceWasm

/-- How a machine hands values to the host and takes them back. `none` is a
panic. -/
structure HostBoundary (frame base : Type) where
  getParams : frame → (paramsCount : Nat) → base → Option (List Value × frame)
  setResults : frame → List Val → base → Option frame

/-- How the stack machine hands parameters to the host and takes results. -/
def Stack.boundary : HostBoundary (Stack Value) StackCallerBaseData where
  getParams := fun s paramsCount _ => s.getParamsForImportCall paramsCount
  setResults := fun s results _ => some (s.setResultsFromImportCall results)

/-- How the register machine hands parameters to the host and takes results. -/
def Register.boundary :
    HostBoundary Register.RegFrame Register.RegCallerBaseData where
  getParams := fun frame paramsCount base => do
    let params ← frame.getParamsForImportCall paramsCount base
    return (params, frame)
  setResults := fun frame results base => frame.setResultsFromImportCall results base

/-- An imported function: its type and its names. -/
structure ImportedFunc where
  ty : FuncType
  moduleName : String
  funcName : String

namespace Module

variable {Instr FrameLayout : Type}

/-- What the module says of an imported function. Both lookups are indexings, and
a function that is not imported is not expected. -/
def importedFunc (module : Module Instr FrameLayout) (func : FuncIndex) :
    Option ImportedFunc := do
  let decl ← module.funcDecls[func.toNat]?
  let ty ← module.types[decl.ty]?
  match decl.kind with
  | .imported moduleName funcName => return ⟨ty, moduleName, funcName⟩
  | .«local» => none

end Module

/-- The typed arguments of a host function. -/
def typedArgs (args : List Value) (params : List ValType) : Option (List Val) :=
  (args.zip params).mapM fun arg =>
    (arg.1.intoVal arg.2 : Attempt Empty Val).toOption

section CallImported

variable {memory registry : Type} [MemoryView memory]
variable {frame base Instr FrameLayout : Type}

/-- The error that a failure of the host becomes. -/
def importError
    (callee : FuncIndex) (isIndirect : Option Nat) (err : HostError) :
    InstructionExecutionError :=
  match isIndirect with
  | some tableIndex => .callIndirect tableIndex (.functionCall callee err)
  | none => .call callee err

/-- `TraceVM::call_imported`. -/
def callImported
    (host : ImportRegistry registry) (boundary : HostBoundary frame base)
    (callee : FuncIndex) (module : Module Instr FrameLayout)
    (inst : Instance frame memory registry) (isIndirect : Option Nat)
    (callerBaseData : base) :
    Attempt InstructionExecutionError Unit × Instance frame memory registry :=
  match module.importedFunc callee with
  | none => (Attempt.panicked, inst)
  | some func =>
      match boundary.getParams inst.frame func.ty.params.length callerBaseData with
      | none => (Attempt.panicked, inst)
      | some (args, frame) =>
          match typedArgs args func.ty.params with
          | none => (Attempt.panicked, inst)
          | some args =>
              let ((answer, importRegistry), memory) :=
                (host.execute inst.importRegistry func.moduleName func.funcName
                  args).run inst.memory
              let inst := { inst with frame, importRegistry, memory }
              match answer with
              | .error err => (.fail (importError callee isIndirect err), inst)
              | .ok results =>
                  match boundary.setResults inst.frame results callerBaseData with
                  | none => (Attempt.panicked, inst)
                  | some frame => (.ok (), { inst with frame })

/-- The function in a table's slot, if it has the expected type. -/
def resolveIndirect
    (module : Module Instr FrameLayout)
    (inst : Instance frame memory registry) (tyIndex tableIndex slot : Nat) :
    Attempt InstructionExecutionError (FuncIndex × FuncType) := do
  let table ← .orPanic inst.tableVals[tableIndex]?
  match table.table[slot]? with
  | none => .fail (.callIndirect tableIndex .tableSlotOutOfBounds)
  | some none => .fail (.callIndirect tableIndex .nullElementInTable)
  | some (some callee) => do
      let expected ← .orPanic module.types[tyIndex]?
      let declared ← module.funcType callee
      if expected.params ≠ declared.params ∨ expected.results ≠ declared.results then
        .fail (.callIndirect tableIndex (.functionSignatureMismatch
          (declared.params, declared.results) (expected.params, expected.results)))
      else return (callee, declared)

/-- What the host answers to the arguments that lie in the frame, if they can be
handed to it. -/
def importAnswer
    (host : ImportRegistry registry) (func : ImportedFunc)
    (inst : Instance frame memory registry) (args : List Value) :
    Option (Except HostError (List Val)) :=
  (typedArgs args func.ty.params).map fun args =>
    ((host.execute inst.importRegistry func.moduleName func.funcName args).run
      inst.memory).1.1

/-- Every argument can be handed to the host, and if that returns, it returns as
many values as the function declares. -/
def HonorsSignature
    (host : ImportRegistry registry) (func : ImportedFunc)
    (inst : Instance frame memory registry) (args : List Value) : Prop :=
  (∀ ty ∈ func.ty.params, ty ≠ .v128) ∧
    ∀ results, importAnswer host func inst args = some (.ok results) →
      results.length = func.ty.results.length

end CallImported

/-! ## What a call is to leave in the frame -/

/-- What a machine promises of a call with so many arguments and so many declared
results, made in a given frame. -/
structure ImportContract
    {frame base : Type} (boundary : HostBoundary frame base)
    (before : frame) (callerBaseData : base) (params declared : Nat) where
  args : List Value
  /-- The frame once the arguments are read. -/
  staged : frame
  /-- The call has returned these values and left this frame. -/
  Returned : frame → List Val → Prop
  getParams : boundary.getParams before params callerBaseData = some (args, staged)
  argsLength : args.length = params
  /-- The frame is as promised exactly when the values are as many as declared. -/
  setResults : ∀ results,
    (∃ after, boundary.setResults staged results callerBaseData = some after ∧
      Returned after results) ↔ results.length = declared

/-- A call either returns what the host answered and leaves the frame as
promised, or ends in an error that leaves the frame without the arguments. -/
def ImportContract.Keeps
    {frame base memory registry : Type} {boundary : HostBoundary frame base}
    {before : frame} {callerBaseData : base} {params declared : Nat}
    (contract : ImportContract boundary before callerBaseData params declared)
    (answer : Option (Except HostError (List Val)))
    (outcome : Attempt InstructionExecutionError Unit × Instance frame memory registry) :
    Prop :=
  match outcome with
  | (.ok (), after) =>
      ∃ results, answer = some (.ok results) ∧ contract.Returned after.frame results
  | (.error (.error _), after) => after.frame = contract.staged
  | (.error .panic, _) => False

/-- A word is given back any type but the one that has no values. -/
theorem intoVal_isSome (value : Value) (ty : ValType) :
    (value.intoVal ty : Attempt Empty Val).toOption.isSome ↔ ty ≠ .v128 := by
  cases ty <;> simp [Value.intoVal, Attempt.panicked, Except.toOption]

/-- Arguments are handed to the host unless a parameter is a vector. -/
theorem typedArgs_isSome
    {args : List Value} {params : List ValType}
    (sameLength : args.length = params.length) :
    (typedArgs args params).isSome ↔ ∀ ty ∈ params, ty ≠ .v128 := by
  unfold typedArgs
  induction args generalizing params with
  | nil =>
      rw [List.length_nil, eq_comm, List.length_eq_zero_iff] at sameLength
      rw [sameLength]
      simp
  | cons arg args inductionHypothesis =>
      cases params with
      | nil => cases sameLength
      | cons ty params =>
          have rest := inductionHypothesis (Nat.succ.inj sameLength)
          have first := intoVal_isSome arg ty
          rw [List.zip_cons_cons, List.mapM_cons, List.forall_mem_cons, ← rest, ← first]
          cases (arg.intoVal ty : Attempt Empty Val).toOption with
          | none => simp
          | some val =>
              cases (args.zip params).mapM fun arg =>
                (arg.1.intoVal arg.2 : Attempt Empty Val).toOption <;> simp

section Keeps

variable {memory registry : Type} [MemoryView memory]
variable {frame base Instr FrameLayout : Type} {boundary : HostBoundary frame base}

/-- A call keeps its contract exactly when the host honors the signature. -/
theorem ImportContract.keeps_iff
    {inst : Instance frame memory registry} {callerBaseData : base}
    {func : ImportedFunc} {module : Module Instr FrameLayout} {callee : FuncIndex}
    (contract : ImportContract boundary inst.frame callerBaseData
      func.ty.params.length func.ty.results.length)
    (host : ImportRegistry registry)
    (found : module.importedFunc callee = some func)
    (isIndirect : Option Nat) :
    contract.Keeps (importAnswer host func inst contract.args)
        (callImported host boundary callee module inst isIndirect callerBaseData) ↔
      HonorsSignature host func inst contract.args := by
  have typed := typedArgs_isSome contract.argsLength
  unfold callImported HonorsSignature
  simp only [found, contract.getParams, ← typed]
  cases args : typedArgs contract.args func.ty.params with
  | none =>
      constructor
      · intro kept
        exact kept.elim
      · intro honors
        cases honors.1
  | some vals =>
      have answered : importAnswer host func inst contract.args =
          some ((host.execute inst.importRegistry func.moduleName func.funcName
            vals).run inst.memory).1.1 := by
        unfold importAnswer
        rw [args]
        rfl
      rw [answered]
      dsimp only
      generalize (host.execute inst.importRegistry func.moduleName func.funcName
        vals).run inst.memory = reply
      obtain ⟨⟨answer, importRegistry⟩, memory⟩ := reply
      cases answer with
      | error err =>
          constructor
          · intro _
            refine ⟨rfl, ?_⟩
            intro results impossible
            cases impossible
          · intro _
            exact rfl
      | ok results =>
          have kept := contract.setResults results
          dsimp only
          cases wrote : boundary.setResults contract.staged results callerBaseData with
          | none =>
              constructor
              · intro impossible
                exact impossible.elim
              · intro honors
                obtain ⟨after, written, _⟩ := kept.mpr (honors.2 results rfl)
                rw [wrote] at written
                cases written
          | some after =>
              rw [wrote] at kept
              constructor
              · intro ⟨_, same, returned⟩
                cases same
                refine ⟨rfl, ?_⟩
                intro _ same
                cases same
                exact kept.mp ⟨after, rfl, returned⟩
              · intro honors
                obtain ⟨_, same, returned⟩ := kept.mpr (honors.2 results rfl)
                cases same
                exact ⟨results, rfl, returned⟩

end Keeps

end TraceWasm
