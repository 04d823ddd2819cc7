import TraceWasm.Stack.Calls

/-!
# The two machines in lockstep

Corresponding configurations execute alike, go on alike and trap alike, so every step
leads from corresponding configurations to corresponding ones, or ends both calls with
the same outcome. A height is a 32-bit word, so this goes on for as long as there are
fewer than 2 ^ 32 values.
-/

namespace TraceWasm

namespace Stack

open Machine (Progress)
open Wasm (CallFrame CallStack Layout Located Stands executeOperator flat_append
  getElem?_numbered take_append)

section Machines

variable {memory registry : Type} [Memory memory] {host : ImportRegistry registry}
  {numerics : Numerics} {source : Module Located Layout}
  {bodies : List (FuncBody StackInstruction StackFrameLayout)}
variable {mod : ModuleTypes} {func : FuncHeader} {located : List (Operator × Nat)}
  {lowered : LoweredFuncBody} {call : CallFrame} {calls : List CallFrame}
  {outside : List Value} {entryResults : Nat}

/-! ## Executing -/

/-- Every operator that control arrives at executes as its instruction does. -/
theorem Site.executes
    {ops : List Operator} {position : Nat} {op : Operator} {instr : StackInstruction}
    {s : Lowering} {v v' : Validator} {base : StackCallerBaseData} {layout : Layout}
    {inst : Wasm.SourceInstance memory registry} {stack : Stack Value}
    (site : Site (moduleTypes source.types source.funcDecls) func ops lowered position op
      instr s v v')
    (honors : HonorsDeclarations memory host source)
    (declsFit : source.funcDecls.length ≤ 2 ^ 32)
    (narrow : op.Narrow)
    (isLayout : layout.ops = ops)
    (frames : inst.frame = ⟨call :: calls, outside⟩)
    (segmented : Segmented stack base (contents outside calls) call.locals call.flat)
    (fits : stack.stackPointer < 2 ^ 32)
    (stands : Stands (moduleTypes source.types source.funcDecls) func ops position call) :
    SameAnswer source (moduleTypes source.types source.funcDecls) func ops position base
      outside calls
      (executeOperator host numerics source (position, op) layout inst)
      (execute host numerics (source.withBodies bodies) instr lowered.frame base
        (inst.withFrame stack)) := by
  obtain ⟨notDead, _⟩ := site.arrival stands.height
  have becomes := site.becomes notDead
  cases op with
  | data op => exact site.executes_data narrow frames segmented stands
  | dataDrop dataIndex => exact site.executes_dataDrop frames segmented stands
  | call functionIndex =>
      exact site.executes_call honors declsFit frames segmented fits stands
  | callIndirect typeIndex tableIndex =>
      exact site.executes_callIndirect honors frames segmented fits stands
  | unreachable =>
      cases becomes
      exact .failed stack
  | tryTable blockty debug => cases becomes
  | other op => cases becomes
  | _ => exact site.executes_acting rfl isLayout rfl frames segmented fits stands

/-- Corresponding configurations execute alike. -/
theorem Corresponds.executes
    {c : (sourceMachine memory host numerics).Configuration}
    {d : (stackMachine memory host numerics).Configuration}
    (same : Corresponds (moduleTypes source.types source.funcDecls) outside entryResults func
      located lowered call calls c d)
    (bodies : List (FuncBody StackInstruction StackFrameLayout))
    (honors : HonorsDeclarations memory host source)
    (declsFit : source.funcDecls.length ≤ 2 ^ 32)
    (fits : d.inst.frame.stackPointer < 2 ^ 32) :
    SameAnswer source (moduleTypes source.types source.funcDecls) func
      (located.map Prod.fst) c.pc d.activation.callerBaseData outside calls
      ((sourceMachine memory host numerics).executeAt source c.activation c.pc c.inst)
      ((stackMachine memory host numerics).executeAt (source.withBodies bodies) d.activation
        d.pc d.inst) := by
  obtain ⟨_, body⟩ := same.activation
  have found := List.getElem?_eq_getElem same.inside
  obtain ⟨instr, s, v, v', isInstr, site⟩ :=
    site_of_emitted body.validates body.emitted found
  have isOperator : c.activation.body.instructions[c.pc]? =
      some (c.pc, (located.map Prod.fst).get ⟨c.pc, same.inside⟩) := by
    rw [body.operators]
    exact (getElem?_numbered _ _).trans (congrArg _ found)
  have isInstruction : d.activation.body.instructions[d.pc]? = some instr := by
    rw [body.instructions, same.pc]
    exact isInstr
  unfold Machine.executeAt
  rw [isOperator, isInstruction, same.inst, body.frame]
  apply site.executes honors declsFit (body.narrow _ (List.getElem_mem _)) ?_ same.frames
    same.segmented fits same.stands
  rw [body.layout]

/-! ## Traps -/

theorem Suspended.length_frames
    {results : Nat} {fs : List (sourceMachine memory host numerics).Frame}
    {gs : List (stackMachine memory host numerics).Frame}
    (suspended : Suspended mod outside entryResults results fs gs calls) :
    gs.length = fs.length := by
  induction suspended with
  | nil => rfl
  | cons _ _ _ _ _ inductionHypothesis =>
      rw [List.length_cons, List.length_cons, inductionHypothesis]

theorem SameActivation.traceRecord
    {ε : Type} {a : (sourceMachine memory host numerics).Activation}
    {b : (stackMachine memory host numerics).Activation}
    (same : SameActivation mod func located lowered a b)
    (funcIndex : FuncIndex) (pc : Nat) (kind : TraceRecordKind) :
    ((stackMachine memory host numerics).traceRecord b funcIndex pc kind :
        Attempt ε TraceRecord) =
      (sourceMachine memory host numerics).traceRecord a funcIndex pc kind := by
  unfold Machine.traceRecord
  rw [same.body.offsets]

/-- The suspended callers are recorded alike. -/
theorem Suspended.callRecords
    {ε : Type} {results : Nat} {fs : List (sourceMachine memory host numerics).Frame}
    {gs : List (stackMachine memory host numerics).Frame}
    (suspended : Suspended mod outside entryResults results fs gs calls) :
    ((stackMachine memory host numerics).callRecords gs : Attempt ε Unwind) =
      (sourceMachine memory host numerics).callRecords fs := by
  induction suspended with
  | nil => rfl
  | cons activation caller _ _ _ inductionHypothesis =>
      unfold Machine.callRecords
      rw [inductionHypothesis, activation.traceRecord, activation.funcIndex, caller.pc,
        caller.calleeFuncIndex, caller.calleeIsIndirect]

theorem Suspended.runningFunc
    {results : Nat} {fs : List (sourceMachine memory host numerics).Frame}
    {gs : List (stackMachine memory host numerics).Frame}
    (suspended : Suspended mod outside entryResults results fs gs calls)
    (entry : FuncIndex) :
    (stackMachine memory host numerics).runningFunc entry gs =
      (sourceMachine memory host numerics).runningFunc entry fs := by
  cases suspended with
  | nil => rfl
  | cons _ caller _ _ _ => exact caller.calleeFuncIndex

/-- A trap has the same trace. -/
theorem Corresponds.funcCallErr
    {c : (sourceMachine memory host numerics).Configuration}
    {d : (stackMachine memory host numerics).Configuration}
    (same : Corresponds mod outside entryResults func located lowered call calls c d)
    (entry : FuncIndex) (error : InstructionExecutionError) :
    ((stackMachine memory host numerics).funcCallErr (source.withBodies bodies) entry d.frames
        error d.activation d.pc : Attempt FuncCallError Unit) =
      (sourceMachine memory host numerics).funcCallErr source entry c.frames error
        c.activation c.pc := by
  unfold Machine.funcCallErr
  rw [same.suspended.runningFunc, same.suspended.callRecords,
    same.activation.traceRecord, same.pc]
  rfl

/-! ## Going on -/

section Ends

variable (host numerics)

/-- Both calls run, in corresponding configurations. -/
def Running
    (mod : ModuleTypes) (outside : List Value) (entryResults : Nat)
    (c : (sourceMachine memory host numerics).Configuration)
    (d : (stackMachine memory host numerics).Configuration) : Prop :=
  ∃ func located lowered call calls,
    Corresponds mod outside entryResults func located lowered call calls c d

/-- There are more values than a height can count. -/
def Beyond (c : (sourceMachine memory host numerics).Configuration) : Prop :=
  2 ^ 32 ≤ heightOf c.inst.frame

/-- Both calls have ended, with the same outcome. -/
abbrev Ended
    (entryResults : Nat)
    (outcome : (sourceMachine memory host numerics).Outcome FuncCallError Unit)
    (outcome' : (stackMachine memory host numerics).Outcome FuncCallError Unit) : Prop :=
  SameOutcome (Leaves entryResults) outcome outcome'

end Ends

/-- What a step does to the suspended calls: it stays in its function, suspends it, or
returns so many results to the caller, which has kept what it had. -/
inductive Passes
    (before after : (stackMachine memory host numerics).Configuration) :
    List CallFrame → CallFrame → List CallFrame → Prop where
  | stays {calls : List CallFrame} {call : CallFrame}
      (activation : after.activation = before.activation)
      (frames : after.frames = before.frames) :
      Passes before after calls call calls
  | calls {calls : List CallFrame} {call waiting : CallFrame}
      {caller : (stackMachine memory host numerics).Frame}
      (frames : after.frames = caller :: before.frames) :
      Passes before after calls call (waiting :: calls)
  | returns {calls : List CallFrame} {waiting : CallFrame}
      {caller : (stackMachine memory host numerics).Frame} {results : List Value}
      (activation : after.activation = caller.activation)
      (pc : after.pc = caller.pc + 1)
      (frames : before.frames = caller :: after.frames)
      (count : results.length = caller.calleeResultsCount) :
      Passes before after (waiting :: calls)
        { waiting with operands := waiting.operands ++ results } calls

/-- Both calls run in corresponding configurations that a step has led to. -/
def Follows
    (mod : ModuleTypes) (outside : List Value) (entryResults : Nat)
    (before : (stackMachine memory host numerics).Configuration) (calls : List CallFrame)
    (c : (sourceMachine memory host numerics).Configuration)
    (d : (stackMachine memory host numerics).Configuration) : Prop :=
  ∃ func located lowered call' calls',
    Corresponds mod outside entryResults func located lowered call' calls' c d ∧
      Passes before d calls call' calls'

/-- The operand stack is as high as the calls make it. -/
theorem Corresponds.height
    {c : (sourceMachine memory host numerics).Configuration}
    {d : (stackMachine memory host numerics).Configuration}
    (same : Corresponds mod outside entryResults func located lowered call calls c d) :
    d.inst.frame.stackPointer = heightOf c.inst.frame := by
  rw [same.frames]
  exact same.segmented.holds.length

/-- A step is matched, or the one machine enters a function whose locals the other cannot
count. -/
def StepsAlike
    (mod : ModuleTypes) (outside : List Value) (entryResults : Nat)
    (before : (stackMachine memory host numerics).Configuration) (calls : List CallFrame)
    (progress : (sourceMachine memory host numerics).Progress)
    (progress' : (stackMachine memory host numerics).Progress) : Prop :=
  Progress.Matches (Follows mod outside entryResults before calls)
      (Ended host numerics entryResults) progress progress' ∨
    ∃ after outcome, progress = .running after ∧ Beyond host numerics after ∧
      progress' = .ended outcome

theorem ended_of_panic
    {inst : Wasm.SourceInstance memory registry} {stack : Stack Value} :
    Ended host numerics entryResults (.error .panic, inst)
      (.error .panic, inst.withFrame stack) :=
  ⟨rfl, rfl, fun _ returned => by cases returned⟩

/-- Both calls trap. -/
theorem Corresponds.traps
    {c : (sourceMachine memory host numerics).Configuration}
    {d : (stackMachine memory host numerics).Configuration}
    {inst : Wasm.SourceInstance memory registry} {stack : Stack Value}
    (same : Corresponds mod outside entryResults func located lowered call calls c d)
    (entry : FuncIndex) (error : InstructionExecutionError) :
    Ended host numerics entryResults
      ((sourceMachine memory host numerics).funcCallErr source entry c.frames error
        c.activation c.pc, inst)
      ((stackMachine memory host numerics).funcCallErr (source.withBodies bodies) entry
        d.frames error d.activation d.pc, inst.withFrame stack) :=
  ⟨same.funcCallErr entry error, rfl,
    fun _ returned => absurd returned Machine.funcCallErr_ne_ok⟩

/-- A body goes on at an index, or is left for its caller. -/
theorem advances
    {a : (sourceMachine memory host numerics).Activation}
    {d : (stackMachine memory host numerics).Configuration}
    {fs : List (sourceMachine memory host numerics).Frame}
    {index : Nat} {inst : Wasm.SourceInstance memory registry} {stack : Stack Value}
    (activation : SameActivation mod func located lowered a d.activation)
    (frames : inst.frame = ⟨call :: calls, outside⟩)
    (segmented : Segmented stack d.activation.callerBaseData (contents outside calls)
      call.locals call.flat)
    (stands : Stands mod func (located.map Prod.fst) index call)
    (suspended : Suspended mod outside entryResults func.results fs d.frames calls) :
    Progress.Matches (Follows mod outside entryResults d calls)
      (Ended host numerics entryResults)
      ((sourceMachine memory host numerics).advance entryResults a index fs inst)
      ((stackMachine memory host numerics).advance entryResults d.activation index d.frames
        (inst.withFrame stack)) := by
  have within := le_of_heights stands.height
  have isLength : a.body.instructions.length = (located.map Prod.fst).length :=
    activation.body.length_source
  have isLengthToo : d.activation.body.instructions.length = (located.map Prod.fst).length :=
    activation.body.length_target
  by_cases ends : index = (located.map Prod.fst).length
  · have atEnd := ends.trans isLength.symm
    have atEndToo := ends.trans isLengthToo.symm
    subst ends
    obtain ⟨results, stack', count, left, leftToo, holds⟩ :=
      leaves (a := a) activation.body.validates frames segmented stands
    generalize isResults : func.results = resultsCount at suspended left leftToo
    generalize isFrames : d.frames = gs at suspended
    cases suspended with
    | nil =>
        rw [Machine.advance_ends atEnd left, Machine.advance_ends atEndToo leftToo]
        refine .ended ⟨rfl, rfl, fun _ _ => ⟨rfl, ?_, holds⟩⟩
        change entryResults ≤ (outside ++ results).length
        rw [List.length_append]
        omega
    | @cons func' located' lowered' f g fs' gs' waiting calls' activation' caller placed waits
        callers =>
        rw [← caller.calleeResultsCount] at leftToo
        rw [Machine.advance_resumes atEnd left, Machine.advance_resumes atEndToo leftToo]
        refine .running ⟨func', located', lowered',
          { waiting with operands := waiting.operands ++ results }, calls',
          ⟨activation', ?_, waits.inside, rfl, rfl,
            ⟨?_, placed.baseHeight, placed.operandBase⟩, ⟨waits.shaped.operate, ?_⟩, callers⟩,
          .returns rfl rfl isFrames ?_⟩
        · dsimp only
          rw [caller.pc]
        · rw [flat_append, ← List.append_assoc]
          exact holds
        · rw [waits.height, flat_append, List.length_append, count, isResults]
        · rw [count, isResults, caller.calleeResultsCount]
  · have onward : (sourceMachine memory host numerics).advance entryResults a index fs inst =
        .running ⟨a, index, fs, inst⟩ :=
      Machine.advance_inside fun atEnd => ends (atEnd.trans isLength)
    have onwardToo : (stackMachine memory host numerics).advance entryResults d.activation
        index d.frames (inst.withFrame stack) =
          .running ⟨d.activation, index, d.frames, inst.withFrame stack⟩ :=
      Machine.advance_inside fun atEnd => ends (atEnd.trans isLengthToo)
    rw [onward, onwardToo]
    exact .running ⟨func, located, lowered, call, calls, ⟨activation, rfl,
      Nat.lt_of_le_of_ne within ends, frames, rfl, segmented, stands, suspended⟩,
      .stays rfl rfl⟩

/-- A call is made alike, or refused. -/
theorem Corresponds.callsAlike
    {c : (sourceMachine memory host numerics).Configuration}
    {d : (stackMachine memory host numerics).Configuration}
    {callee : FuncIndex} {calleeBase : StackCallerBaseData} {isIndirect : Option Nat}
    {ty : FuncType} {caller : CallFrame} {rest args : List Value}
    {inst : Wasm.SourceInstance memory registry} {stack : Stack Value}
    (related : Corresponds (moduleTypes source.types source.funcDecls) outside entryResults
      func located lowered call calls c d)
    (same : SameBodies source bodies)
    (entry : FuncIndex)
    (executed : (sourceMachine memory host numerics).executeAt source c.activation c.pc
      c.inst = (.ok (.call callee () isIndirect), inst))
    (executedToo : (stackMachine memory host numerics).executeAt (source.withBodies bodies)
      d.activation d.pc d.inst =
        (.ok (.call callee calleeBase isIndirect), inst.withFrame stack))
    (typed : (source.funcType callee : Attempt InstructionExecutionError FuncType) = .ok ty)
    (frames : inst.frame = ⟨caller :: calls, outside⟩)
    (operands : caller.operands = rest ++ args)
    (count : args.length = ty.params.length)
    (segmented : Segmented stack d.activation.callerBaseData (contents outside calls)
      caller.locals caller.flat)
    (calleeHeight : calleeBase.baseHeight =
      (contents outside ({ caller with operands := rest } :: calls)).length)
    (waits : Waits (moduleTypes source.types source.funcDecls) func (located.map Prod.fst)
      c.pc ty.results.length { caller with operands := rest }) :
    StepsAlike (moduleTypes source.types source.funcDecls) outside entryResults d calls
      ((sourceMachine memory host numerics).next source entry entryResults c)
      ((stackMachine memory host numerics).next (source.withBodies bodies) entry entryResults
        d) := by
  have lengths := related.suspended.length_frames
  have room : ∀ {depth : Nat}, d.frames.length % 2 ^ 32 + 1 ≥ depth ↔
      c.frames.length % 2 ^ 32 + 1 ≥ depth := by
    intro depth
    rw [lengths]
  by_cases exhausted : c.frames.length % 2 ^ 32 + 1 ≥ inst.config.maxCallStackDepth
  · rw [Machine.next_of_exhausted executed exhausted,
      Machine.next_of_exhausted executedToo (room.mpr exhausted)]
    exact .inl (.ended (related.traps entry _))
  · have flat : caller.flat = { caller with operands := rest }.flat ++ args := by
      unfold CallFrame.flat
      rw [operands, List.append_assoc]
    have taken : inst.frame.take ty.params.length =
        some (args, ⟨{ caller with operands := rest } :: calls, outside⟩) := by
      rw [frames]
      exact take_append operands count
    have holds := segmented.holds
    rw [flat, ← List.append_assoc] at holds
    have isPc : c.pc % 2 ^ 32 = c.pc := by
      have fits := related.activation.body.fits
      have inside := related.inside
      rw [List.length_map] at inside
      exact Nat.mod_eq_of_lt (by omega)
    cases enters host numerics same typed taken count holds calleeHeight with
    | refused notEntered notEnteredToo =>
        rw [Machine.next_of_refused executed exhausted notEntered,
          Machine.next_of_refused executedToo (mt room.mp exhausted) notEnteredToo]
        exact .inl (.ended ended_of_panic)
    | overflows entered small noOperands high notEntered =>
        rw [Machine.next_of_entered executed exhausted entered,
          Machine.next_of_refused executedToo (mt room.mp exhausted) notEntered]
        exact .inr ⟨_, _, rfl, high, rfl⟩
    | @entered func' located' lowered' callee' a b stack' entered enteredToo activation results
        inside segmentedToo stands =>
        rw [Machine.next_of_entered executed exhausted entered,
          Machine.next_of_entered executedToo (mt room.mp exhausted) enteredToo]
        refine .inl (.running ⟨func', located', lowered', callee', _, ⟨activation, rfl, inside,
          rfl, rfl, segmentedToo, stands, ?_⟩, .calls rfl⟩)
        rw [results]
        have placed : Placed d.activation.callerBaseData outside
            { caller with operands := rest } calls :=
          ⟨segmented.baseHeight, segmented.operandBase⟩
        refine .cons
          (f := ⟨c.activation, c.pc % 2 ^ 32, ty.results.length, callee, isIndirect⟩)
          (g := ⟨d.activation, d.pc % 2 ^ 32, ty.results.length, callee, isIndirect⟩)
          related.activation ⟨?_, rfl, rfl, rfl⟩ placed ?_ related.suspended
        · dsimp only
          rw [related.pc]
        · dsimp only
          rw [isPc]
          exact waits

/-- A step of corresponding configurations is one of both machines. -/
theorem Corresponds.steps
    {c : (sourceMachine memory host numerics).Configuration}
    {d : (stackMachine memory host numerics).Configuration}
    (related : Corresponds (moduleTypes source.types source.funcDecls) outside entryResults
      func located lowered call calls c d)
    (same : SameBodies source bodies)
    (honors : HonorsDeclarations memory host source)
    (fits : d.inst.frame.stackPointer < 2 ^ 32)
    (entry : FuncIndex) :
    StepsAlike (moduleTypes source.types source.funcDecls) outside entryResults d calls
      ((sourceMachine memory host numerics).next source entry entryResults c)
      ((stackMachine memory host numerics).next (source.withBodies bodies) entry entryResults
        d) := by
  have answers := related.executes bodies honors same.declsFit fits
  generalize executed : (sourceMachine memory host numerics).executeAt source c.activation c.pc
    c.inst = answer at answers
  generalize executedToo : (stackMachine memory host numerics).executeAt
    (source.withBodies bodies) d.activation d.pc d.inst = answer' at answers
  cases answers with
  | @failed fault inst stack =>
      cases fault with
      | panic =>
          rw [Machine.next_of_panic executed, Machine.next_of_panic executedToo]
          exact .inl (.ended ended_of_panic)
      | error error =>
          rw [Machine.next_of_error executed, Machine.next_of_error executedToo]
          exact .inl (.ended (related.traps entry error))
  | onward onward frames segmented stands =>
      have advanced := advances related.activation frames segmented stands related.suspended
      cases onward with
      | next =>
          rw [Machine.next_of_next executed, Machine.next_of_next executedToo, related.pc]
          exact .inl advanced
      | jumpTo target =>
          rw [Machine.next_of_jumpTo executed, Machine.next_of_jumpTo executedToo]
          exact .inl advanced
  | calls typed frames operands count segmented calleeHeight waits =>
      exact related.callsAlike same entry executed executedToo typed frames operands count
        segmented calleeHeight waits

variable (host numerics outside entryResults) in
/-- The machines run in lockstep. -/
theorem lockstep
    (same : SameBodies source bodies)
    (honors : HonorsDeclarations memory host source)
    (entry : FuncIndex) :
    @Machine.Lockstep _ _ (sourceMachine memory host numerics)
      (stackMachine memory host numerics) source (source.withBodies bodies) entry entryResults
      (Beyond host numerics)
      (Running host numerics (moduleTypes source.types source.funcDecls) outside entryResults)
      (Ended host numerics entryResults) := by
  intro c d ⟨func, located, lowered, call, calls, related⟩ within
  have fits : d.inst.frame.stackPointer < 2 ^ 32 := by
    rw [related.height]
    exact Nat.not_le.mp within
  apply (related.steps same honors fits entry).imp_left
  intro matched
  apply matched.mono
  intro c' d' ⟨func, located, lowered, call, calls, related, _⟩
  exact ⟨func, located, lowered, call, calls, related⟩

end Machines

end Stack
end TraceWasm
