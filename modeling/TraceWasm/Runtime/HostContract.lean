import TraceWasm.Memory.Linear
import TraceWasm.Runtime.CallImported

/-!
# The frames around a call of an imported function

What each machine's static picture of a frame needs of such a call: the stack
machine counts the operands that lie above its locals, the register machine owns
the slots from the callee's base on and no others.
-/

namespace TraceWasm

/-! ## The stack machine -/

namespace Stack

/-- A call has taken its arguments off the stack and put the results there. -/
structure Kept
    (before after : Stack Value) (params declared : Nat) (results : List Val) :
    Prop where
  valid : after.Valid
  /-- The height that lowering computes for the instructions that follow. -/
  height : after.stackPointer = before.stackPointer - params + declared
  live : after.live =
    before.live.take (before.stackPointer - params) ++ results.map Val.toValue
  /-- The locals and the operands below the arguments are where they were, and on
  the stack. -/
  below : ∀ slot < before.stackPointer - params,
    slot < after.stackPointer ∧ after.stack[slot]? = before.stack[slot]?

theorem getElem?_live
    {α : Type} {s : Stack α} {slot : Nat}
    (inside : slot < s.stackPointer) :
    s.live[slot]? = s.stack[slot]? := by
  unfold live
  exact List.getElem?_take_of_lt inside

variable {s : Stack Value} {params : Nat}

/-- Taking parameters leaves the stack valid. -/
theorem valid_staged (valid : s.Valid) :
    Valid { s with stackPointer := s.stackPointer - params } := by
  have bound : s.stackPointer ≤ s.stack.length := valid
  change s.stackPointer - params ≤ s.stack.length
  omega

/-- Pushing as many results as are declared keeps the frame. -/
theorem kept_of_length
    {declared : Nat} {results : List Val}
    (valid : s.Valid)
    (sameLength : results.length = declared) :
    Kept s (setResultsFromImportCall
      { s with stackPointer := s.stackPointer - params } results)
        params declared results := by
  have staged : ({ s with stackPointer := s.stackPointer - params } : Stack Value).live =
      s.live.take (s.stackPointer - params) := by
    unfold live
    rw [List.take_take, Nat.min_eq_left (by omega)]
  have live := live_pushAll (@valid_staged _ params valid)
    (results.map Val.toValue)
  rw [staged] at live
  have height := stackPointer_pushAll
    { s with stackPointer := s.stackPointer - params } (results.map Val.toValue)
  rw [List.length_map, sameLength] at height
  dsimp only at height
  constructor
  · exact valid_pushAll (valid_staged valid) _
  · exact height
  · exact live
  · intro slot inside
    have onStack : slot < (setResultsFromImportCall
        { s with stackPointer := s.stackPointer - params } results).stackPointer := by
      unfold setResultsFromImportCall
      rw [height]
      omega
    refine ⟨onStack, ?_⟩
    rw [← getElem?_live onStack, ← getElem?_live (show slot < s.stackPointer by omega)]
    change ((Stack.pushAll _ _).live)[slot]? = _
    have length := length_live valid
    rw [live, List.getElem?_append_left (by rw [List.length_take]; omega),
      List.getElem?_take_of_lt inside]

/-- The promise of the stack machine. -/
def importContract
    (valid : s.Valid) (enough : params ≤ s.stackPointer)
    (callerBaseData : StackCallerBaseData) (declared : Nat) :
    ImportContract boundary s callerBaseData params declared where
  args := s.live.drop (s.stackPointer - params)
  staged := { s with stackPointer := s.stackPointer - params }
  Returned := fun after results => Kept s after params declared results
  getParams := takeRun_of_le valid enough
  argsLength := by
    rw [List.length_drop, length_live valid]
    omega
  setResults := by
    intro results
    constructor
    · intro ⟨after, wrote, kept⟩
      cases wrote
      have height := kept.height
      unfold setResultsFromImportCall at height
      rw [stackPointer_pushAll, List.length_map] at height
      dsimp only at height
      omega
    · intro sameLength
      exact ⟨_, rfl, kept_of_length valid sameLength⟩

end Stack

/-! ## The register machine -/

namespace Register

/-- A call has put its results into the window at its base. -/
structure Kept
    (before after : RegFrame) (base declared : Nat) (results : List Val) : Prop where
  size : after.registers.length = before.registers.length
  window : (after.registers.drop base).take declared = results.map Val.toValue
  outside : ∀ slot, ¬Covers base declared slot →
    after.registers[slot]? = before.registers[slot]?

variable {frame : RegFrame} {params declared base : Nat}

/-- Writing as many results as are declared keeps the frame. -/
theorem kept_of_length
    {results : List Val}
    (resultsInside : base + declared ≤ frame.registers.length)
    (sameLength : results.length = declared) :
    Kept frame ⟨overwrite frame.registers base (results.map Val.toValue)⟩ base declared
      results := by
  have inside : base + (results.map Val.toValue).length ≤ frame.registers.length := by
    rw [List.length_map]
    omega
  constructor
  · exact length_overwrite _ _ _
  · have window := take_drop_overwrite _ _ _ inside
    rw [List.length_map, sameLength] at window
    exact window
  · intro slot outside
    dsimp only
    rw [getElem?_overwrite _ _ _ inside, List.length_map, sameLength, if_neg outside]

/-- The promise of the register machine. -/
def importContract
    (paramsInside : base + params ≤ frame.registers.length)
    (resultsInside : base + declared ≤ frame.registers.length) :
    ImportContract boundary frame ⟨base⟩ params declared where
  args := (frame.registers.drop base).take params
  staged := frame
  Returned := fun after results => Kept frame after base declared results
  getParams := by
    change (readRun frame.registers base params >>= _) = _
    rw [readRun_of_le paramsInside]
    rfl
  argsLength := by
    rw [List.length_take, List.length_drop]
    omega
  setResults := by
    intro results
    constructor
    · intro ⟨after, _, kept⟩
      have window := congrArg List.length kept.window
      rw [List.length_take, List.length_drop, kept.size, List.length_map] at window
      omega
    · intro sameLength
      refine ⟨_, ?_, kept_of_length resultsInside sameLength⟩
      change (writeRun frame.registers base _ >>= _) = _
      rw [writeRun_of_le (by rw [List.length_map]; omega)]
      rfl

end Register

/-! ## Both machines -/

section Machines

open Stack (StackInstruction StackFrameLayout StackCallerBaseData)
open Register (RegInstruction RegFrameLayout RegFrame Slot)

variable {memory registry : Type} [MemoryView memory]

/-- Whatever the host does, a call keeps the frames of either machine exactly when
the host honors the signature of the function. -/
theorem call_imported_keeps_frames_iff
    (host : ImportRegistry registry) (callee : FuncIndex) (func : ImportedFunc)
    (isIndirect : Option Nat) :
    (∀ (module : Module StackInstruction StackFrameLayout)
        (inst : Instance (Stack Value) memory registry)
        (callerBaseData : StackCallerBaseData)
        (valid : inst.frame.Valid)
        (enough : func.ty.params.length ≤ inst.frame.stackPointer),
      module.importedFunc callee = some func →
        let contract := Stack.importContract valid enough callerBaseData
          func.ty.results.length
        contract.Keeps (importAnswer host func inst contract.args)
            (callImported host Stack.boundary callee module inst isIndirect
              callerBaseData) ↔
          HonorsSignature host func inst contract.args) ∧
      ∀ (module : Module (RegInstruction Slot) RegFrameLayout)
          (inst : Instance RegFrame memory registry) (base : Nat)
          (paramsInside : base + func.ty.params.length ≤ inst.frame.registers.length)
          (resultsInside : base + func.ty.results.length ≤ inst.frame.registers.length),
        module.importedFunc callee = some func →
          let contract := Register.importContract paramsInside resultsInside
          contract.Keeps (importAnswer host func inst contract.args)
              (callImported host Register.boundary callee module inst isIndirect ⟨base⟩) ↔
            HonorsSignature host func inst contract.args := by
  constructor
  · intro module inst callerBaseData valid enough found
    exact ImportContract.keeps_iff _ host found isIndirect
  · intro module inst base paramsInside resultsInside found
    exact ImportContract.keeps_iff _ host found isIndirect

end Machines

/-! ### A host that returns what it declares, and one that returns nothing -/

section Answering

open Stack (StackInstruction StackFrameLayout StackCallerBaseData)
open Register (RegInstruction RegFrameLayout RegFrame Slot)

/-- A module that imports one function, which returns a word. -/
def importingModule (Instr FrameLayout : Type) : Module Instr FrameLayout where
  types := [⟨[], [.i32]⟩]
  funcDecls := [⟨⟨0⟩, .imported "env" "answer"⟩]
  importedFuncCount := 1
  funcBodies := []
  tables := []
  memories := []
  globals := []
  importedGlobalCount := 0
  exports := fun _ => none
  exportedFuncName := fun _ => none
  startSection := none
  elements := []
  datas := []

/-- The function it imports. -/
def importedAnswer : ImportedFunc where
  ty := ⟨[], [.i32]⟩
  moduleName := "env"
  funcName := "answer"

/-- A host that answers every call with the same values. -/
def answering (results : List Val) : ImportRegistry Unit where
  execute := fun _ _ _ _ => .done (.ok results, ())
  signature := fun _ _ _ => some ([], [.i32])
  funcCount := fun _ => 1
  globalCount := fun _ => 0
  getGlobal := fun _ _ _ => .error "import not found"

/-- An instance without memory, globals or tables. -/
def bareInstance {frame : Type} (start : frame) : Instance frame LinearMemory Unit where
  memory := ⟨[], by decide⟩
  frame := start
  importRegistry := ()
  config := .default
  globalVals := []
  tableVals := []
  dataVals := []

/-- A stack without values. -/
def emptyStack : Stack Value := .empty

/-- A register file with one slot. -/
def oneRegister : RegFrame where
  registers := [0]

/-- What the stack machine promises of a call of that function on an empty stack. -/
def emptyStackContract :
    ImportContract Stack.boundary emptyStack .initialData 0 1 :=
  Stack.importContract (show emptyStack.Valid from Nat.le_refl 0)
    (show 0 ≤ emptyStack.stackPointer from Nat.le_refl 0) .initialData 1

/-- What the register machine promises of it in a file with one slot. -/
def oneRegisterContract :
    ImportContract Register.boundary oneRegister ⟨0⟩ 0 1 :=
  Register.importContract (show 0 + 0 ≤ 1 by decide) (show 0 + 1 ≤ 1 by decide)

/-- The call on the stack machine. -/
def callOnStack (results : List Val) :
    Attempt InstructionExecutionError Unit × Instance (Stack Value) LinearMemory Unit :=
  callImported (answering results) Stack.boundary 0
    (importingModule StackInstruction StackFrameLayout) (bareInstance emptyStack) none
    .initialData

/-- The call on the register machine. -/
def callOnRegisters (results : List Val) :
    Attempt InstructionExecutionError Unit × Instance RegFrame LinearMemory Unit :=
  callImported (answering results) Register.boundary 0
    (importingModule (RegInstruction Slot) RegFrameLayout) (bareInstance oneRegister) none
    ⟨0⟩

/-- A host that answers with as many values as declared keeps the frames. -/
theorem call_imported_keeps_frames_answering :
    emptyStackContract.Keeps
        (importAnswer (answering [.i32 7]) importedAnswer (bareInstance emptyStack) [])
        (callOnStack [.i32 7]) ∧
      oneRegisterContract.Keeps
        (importAnswer (answering [.i32 7]) importedAnswer (bareInstance oneRegister) [])
        (callOnRegisters [.i32 7]) := by
  have honors : ∀ {frame : Type} (start : frame),
      HonorsSignature (answering [.i32 7]) importedAnswer (bareInstance start) [] := by
    intro frame start
    refine ⟨fun _ impossible => (List.not_mem_nil impossible).elim, ?_⟩
    intro results answered
    cases answered
    rfl
  have keeps := @call_imported_keeps_frames_iff LinearMemory Unit _
    (answering [.i32 7]) 0 importedAnswer none
  constructor
  · exact (keeps.1 (importingModule _ _) (bareInstance emptyStack) .initialData
      (show emptyStack.Valid from Nat.le_refl 0) (Nat.le_refl 0) rfl).mpr (honors _)
  · exact (keeps.2 (importingModule _ _) (bareInstance oneRegister) 0
      (show 0 + 0 ≤ 1 by decide) (show 0 + 1 ≤ 1 by decide) rfl).mpr (honors _)

/-- Neither machine gets the word it was declared, and neither is told. -/
theorem silent_host_breaks_frames :
    ¬emptyStackContract.Keeps
        (importAnswer (answering []) importedAnswer (bareInstance emptyStack) [])
        (callOnStack []) ∧
      ¬oneRegisterContract.Keeps
        (importAnswer (answering []) importedAnswer (bareInstance oneRegister) [])
        (callOnRegisters []) := by
  constructor
  · intro ⟨results, answered, kept⟩
    cases answered
    exact absurd kept.height (by decide)
  · intro ⟨results, answered, kept⟩
    cases answered
    exact absurd kept.window (by decide)

end Answering

end TraceWasm
