import TraceWasm.Runtime.Error
import TraceWasm.Runtime.Instance

/-!
# The two drivers

A machine executes one instruction at a time and reports what to do next. One
driver recurses for a call, so that a suspended caller is a native frame; the
other keeps the suspended callers in a list. A run may not end, so each driver
has a budget of instructions and returns nothing when it is used up.
-/

namespace TraceWasm

/-- What an instruction tells its driver to do next. -/
inductive Step (CallerBaseData : Type) where
  | next
  /-- Enter a locally defined callee, whose frame starts at the given base. -/
  | call (funcIndex : FuncIndex) (callerBaseData : CallerBaseData)
      (isIndirect : Option Nat)
  | jumpTo (target : Nat)

/-- An instruction set and the frames it runs in. `none` is a panic of a frame
operation. -/
structure Machine (memory registry : Type) where
  Instr : Type
  FrameLayout : Type
  CallerBaseData : Type
  RuntimeFrame : Type
  initialData : CallerBaseData
  reset : RuntimeFrame → RuntimeFrame
  setInitialParams : RuntimeFrame → List Val → RuntimeFrame
  getFinalResults : RuntimeFrame → (resultsCount : Nat) →
    Option (List Value × RuntimeFrame)
  enterFrame : RuntimeFrame → (paramsCount : Nat) → (localsTy : List ValType) →
    CallerBaseData → FrameLayout → Option (RuntimeFrame × CallerBaseData)
  exitFrame : RuntimeFrame → (resultsCount : Nat) → CallerBaseData → FrameLayout →
    Option RuntimeFrame
  execute : Module Instr FrameLayout → Instr → FrameLayout → CallerBaseData →
    Instance RuntimeFrame memory registry →
    Attempt InstructionExecutionError (Step CallerBaseData) ×
      Instance RuntimeFrame memory registry
  /-- The instruction is an `End`. -/
  IsEnd : Instr → Prop
  /-- An `End` goes on to the next instruction. -/
  executeEnd : ∀ module instr layout base inst step, IsEnd instr →
    (execute module instr layout base inst).1 = .ok step → step = .next

namespace Machine

variable {memory registry : Type} (machine : Machine memory registry)

/-- The machine's modules. -/
abbrev Code := Module machine.Instr machine.FrameLayout

/-- A function body of the machine. -/
abbrev Body := FuncBody machine.Instr machine.FrameLayout

/-- An instance of a module on the machine. -/
abbrev State := Instance machine.RuntimeFrame memory registry

/-- The outcome of a run, and the instance it leaves. -/
abbrev Outcome (ε α : Type) := Attempt ε α × machine.State

/-- A function that is running: its body and the base of its frame. -/
structure Activation where
  funcIndex : FuncIndex
  body : machine.Body
  callerBaseData : machine.CallerBaseData

variable (module : machine.Code)

/-- The head of either driver: look the function up and set its frame up. The
result count goes with the activation. -/
def enter
    (funcIndex : FuncIndex) (callerBaseData : machine.CallerBaseData)
    (inst : machine.State) :
    Option (machine.Activation × Nat × machine.State) := do
  guard (module.importedFuncCount ≤ funcIndex.toNat)
  let decl ← module.funcDecls[funcIndex.toNat]?
  let ty ← module.types[decl.ty]?
  let body ← module.funcBodies[funcIndex.toNat - module.importedFuncCount]?
  let (frame, callerBaseData) ← machine.enterFrame inst.frame ty.params.length
    body.locals callerBaseData body.frameLayout
  return (⟨funcIndex, body, callerBaseData⟩, ty.results.length, { inst with frame })

/-- Execute the instruction at an index. -/
def executeAt
    (activation : machine.Activation) (pc : Nat) (inst : machine.State) :
    machine.Outcome InstructionExecutionError (Step machine.CallerBaseData) :=
  match activation.body.instructions[pc]? with
  | none => (Attempt.panicked, inst)
  | some instr =>
      machine.execute module instr activation.body.frameLayout
        activation.callerBaseData inst

/-- Tear a frame down. -/
def leave
    (activation : machine.Activation) (resultsCount : Nat) (inst : machine.State) :
    Option machine.State := do
  let frame ← machine.exitFrame inst.frame resultsCount activation.callerBaseData
    activation.body.frameLayout
  return { inst with frame }

/-- The record of one frame of a trace. -/
def traceRecord
    (activation : machine.Activation) (funcIndex : FuncIndex) (pc : Nat)
    (kind : TraceRecordKind) : Attempt ε TraceRecord := do
  let offset ← .orPanic activation.body.instructionOffsets[pc]?
  return ⟨funcIndex, pc, kind, offset⟩

/-! ## The driver that recurses -/

/-- Start a trace at the instruction that trapped. -/
def trapHere
    (activation : machine.Activation) (pc : Nat)
    (error : InstructionExecutionError) : Attempt Unwind α := do
  let record ← machine.traceRecord activation activation.funcIndex pc (.nonCall error)
  .fail [record]

/-- A frame that a trap passes through appends its own call. -/
def appendCall
    (activation : machine.Activation) (pc : Nat) (callee : FuncIndex)
    (isIndirect : Option Nat) (trace : Unwind) : Attempt Unwind α := do
  let record ← machine.traceRecord activation activation.funcIndex pc
    (.call callee isIndirect)
  .fail (trace ++ [record])

/-- The loop of `execute_on_native_stack`. The depth counts the running frame. -/
def nativeLoop
    (fuel : Nat) (activation : machine.Activation) (resultsCount pc depth : Nat)
    (inst : machine.State) : Option (machine.Outcome Unwind Unit) :=
  match fuel with
  | 0 => none
  | fuel + 1 =>
      let advance (pc : Nat) (inst : machine.State) :=
        if pc = activation.body.instructions.length then
          match machine.leave activation resultsCount inst with
          | some inst => some (.ok (), inst)
          | none => some (Attempt.panicked, inst)
        else nativeLoop fuel activation resultsCount pc depth inst
      match machine.executeAt module activation pc inst with
      | (.error .panic, inst) => some (Attempt.panicked, inst)
      | (.error (.error error), inst) =>
          some (machine.trapHere activation pc error, inst)
      | (.ok .next, inst) => advance (pc + 1) inst
      | (.ok (.jumpTo target), inst) => advance target inst
      | (.ok (.call callee callerBaseData isIndirect), inst) =>
          let maxDepth := inst.config.maxCallStackDepth
          if depth ≥ maxDepth then
            some (machine.trapHere activation pc (.callStackExhausted maxDepth), inst)
          else match machine.enter module callee callerBaseData inst with
            | none => some (Attempt.panicked, inst)
            | some (calleeActivation, calleeResults, inst) =>
                -- the callee's frame is one deeper
                match nativeLoop fuel calleeActivation calleeResults 0 (depth + 1)
                  inst with
                | none => none
                | some (.error .panic, inst) => some (Attempt.panicked, inst)
                | some (.error (.error trace), inst) =>
                    some (machine.appendCall activation pc callee isIndirect trace, inst)
                | some (.ok (), inst) => advance (pc + 1) inst

/-- `execute_on_native_stack`, from a given depth on. -/
def executeOnNativeStack
    (fuel : Nat) (funcIndex : FuncIndex) (depth : Nat)
    (callerBaseData : machine.CallerBaseData) (inst : machine.State) :
    Option (machine.Outcome Unwind Unit) :=
  match machine.enter module funcIndex callerBaseData inst with
  | none => some (Attempt.panicked, inst)
  | some (activation, resultsCount, inst) =>
      machine.nativeLoop module fuel activation resultsCount 0 (depth + 1) inst

/-! ## The driver that keeps its callers in a list -/

/-- A caller suspended at a call. -/
structure Frame where
  activation : machine.Activation
  /-- The index of the call itself. -/
  pc : Nat
  calleeResultsCount : Nat
  calleeFuncIndex : FuncIndex
  calleeIsIndirect : Option Nat

/-- The name a trap is reported under. -/
def entryName (entry : FuncIndex) : String :=
  (module.exportedFuncName entry).getD "<unknown>"

/-- The records of the suspended callers. -/
def callRecords : List machine.Frame → Attempt ε Unwind
  | [] => return []
  | frame :: frames => do
      let record ← machine.traceRecord frame.activation frame.activation.funcIndex
        frame.pc (.call frame.calleeFuncIndex frame.calleeIsIndirect)
      return record :: (← callRecords frames)

/-- The function that runs above the suspended callers. -/
def runningFunc (entry : FuncIndex) : List machine.Frame → FuncIndex
  | [] => entry
  | frame :: _ => frame.calleeFuncIndex

/-- Build the whole trace from the suspended callers, innermost first. -/
def funcCallErr
    (entry : FuncIndex) (frames : List machine.Frame)
    (error : InstructionExecutionError) (activation : machine.Activation) (pc : Nat) :
    Attempt FuncCallError α := do
  let record ← machine.traceRecord activation (machine.runningFunc entry frames) pc
    (.nonCall error)
  let callers ← machine.callRecords frames
  .fail ⟨machine.entryName module entry, record :: callers⟩

/-- The loop of `_execute_on_frame_stack`. The innermost caller comes first. -/
def frameLoop
    (fuel : Nat) (entry : FuncIndex) (resultsCount : Nat)
    (activation : machine.Activation) (pc : Nat) (frames : List machine.Frame)
    (inst : machine.State) : Option (machine.Outcome FuncCallError Unit) :=
  match fuel with
  | 0 => none
  | fuel + 1 =>
      let advance (pc : Nat) (inst : machine.State) :=
        if pc = activation.body.instructions.length then
          match frames with
          | [] =>
              match machine.leave activation resultsCount inst with
              | some inst => some (.ok (), inst)
              | none => some (Attempt.panicked, inst)
          | frame :: frames =>
              match machine.leave activation frame.calleeResultsCount inst with
              | some inst =>
                  frameLoop fuel entry resultsCount frame.activation (frame.pc + 1)
                    frames inst
              | none => some (Attempt.panicked, inst)
        else frameLoop fuel entry resultsCount activation pc frames inst
      match machine.executeAt module activation pc inst with
      | (.error .panic, inst) => some (Attempt.panicked, inst)
      | (.error (.error error), inst) =>
          some (machine.funcCallErr module entry frames error activation pc, inst)
      | (.ok .next, inst) => advance (pc + 1) inst
      | (.ok (.jumpTo target), inst) => advance target inst
      | (.ok (.call callee callerBaseData isIndirect), inst) =>
          let maxDepth := inst.config.maxCallStackDepth
          -- the running frame is not among the suspended ones
          let depth := frames.length % 2 ^ 32 + 1
          if depth ≥ maxDepth then
            some (machine.funcCallErr module entry frames
              (.callStackExhausted maxDepth) activation pc, inst)
          else match machine.enter module callee callerBaseData inst with
            | none => some (Attempt.panicked, inst)
            | some (calleeActivation, calleeResults, inst) =>
                frameLoop fuel entry resultsCount calleeActivation 0
                  (⟨activation, pc % 2 ^ 32, calleeResults, callee, isIndirect⟩ ::
                    frames) inst

/-- `_execute_on_frame_stack`. -/
def executeOnFrameStack
    (fuel : Nat) (funcIndex : FuncIndex) (inst : machine.State) :
    Option (machine.Outcome FuncCallError Unit) :=
  match machine.enter module funcIndex machine.initialData inst with
  | none => some (Attempt.panicked, inst)
  | some (activation, resultsCount, inst) =>
      machine.frameLoop module fuel funcIndex resultsCount activation 0 [] inst

/-! ## A call from outside -/

/-- Close a trace into the error the caller sees. -/
def funcCallErrFromUnwind (entry : FuncIndex) :
    machine.Outcome Unwind Unit → machine.Outcome FuncCallError Unit
  | (.ok (), inst) => (.ok (), inst)
  | (.error .panic, inst) => (Attempt.panicked, inst)
  | (.error (.error trace), inst) =>
      (.fail ⟨machine.entryName module entry, trace⟩, inst)

/-- Take the results of a finished call. -/
def takeResults (funcIndex : FuncIndex) (inst : machine.State) :
    machine.Outcome FuncCallError (List Val) :=
  match module.funcType funcIndex with
  | .error fault => (.error fault, inst)
  | .ok ty =>
      match machine.getFinalResults inst.frame ty.results.length with
      | none => (Attempt.panicked, inst)
      | some (results, frame) =>
          ((results.zip ty.results).mapM fun result => result.1.intoVal result.2,
            { inst with frame })

/-- The frame in which an entry function finds its parameters. -/
def stageParams (params : List Val) (inst : machine.State) : machine.State :=
  { inst with frame := machine.setInitialParams (machine.reset inst.frame) params }

/-- End a call from outside. -/
def finish (funcIndex : FuncIndex) :
    machine.Outcome FuncCallError Unit → machine.Outcome FuncCallError (List Val)
  | (.ok (), inst) => machine.takeResults module funcIndex inst
  | (.error fault, inst) => (.error fault, inst)

/-- `TraceVM::run`. -/
def run
    (fuel : Nat) (funcIndex : FuncIndex) (params : List Val) (inst : machine.State) :
    Option (machine.Outcome FuncCallError (List Val)) :=
  ((machine.executeOnNativeStack module fuel funcIndex 0 machine.initialData
    (machine.stageParams params inst)).map
      (machine.funcCallErrFromUnwind module funcIndex)).map
    (machine.finish module funcIndex)

/-- `TraceVM::run` with the other driver in its place. -/
def runOnFrameStack
    (fuel : Nat) (funcIndex : FuncIndex) (params : List Val) (inst : machine.State) :
    Option (machine.Outcome FuncCallError (List Val)) :=
  (machine.executeOnFrameStack module fuel funcIndex
    (machine.stageParams params inst)).map (machine.finish module funcIndex)

end Machine

end TraceWasm
