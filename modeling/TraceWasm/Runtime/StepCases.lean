import TraceWasm.Runtime.Lockstep

/-!
# What a step does

A function is entered when it is local and its frame can be set up. A step is read off
the answer of the instruction that it executes.
-/

namespace TraceWasm
namespace Machine

/-! ## Entering a function -/

section Enter

variable {memory registry : Type} {machine : Machine memory registry} {module : machine.Code}
  {funcIndex : FuncIndex} {base : machine.CallerBaseData} {inst : machine.State}

/-- A local function is entered with its own frame. -/
theorem enter_of_body
    {decl : FuncDeclaration} {ty : FuncType} {body : machine.Body}
    {frame : machine.RuntimeFrame} {calleeBase : machine.CallerBaseData}
    (isLocal : module.importedFuncCount ≤ funcIndex.toNat)
    (isDecl : module.funcDecls[funcIndex.toNat]? = some decl)
    (isTy : module.types[decl.ty]? = some ty)
    (isBody : module.funcBodies[funcIndex.toNat - module.importedFuncCount]? = some body)
    (entered : machine.enterFrame inst.frame ty.params.length body.locals base
      body.frameLayout = some (frame, calleeBase)) :
    machine.enter module funcIndex base inst =
      some (⟨funcIndex, body, calleeBase⟩, ty.results.length, { inst with frame }) := by
  unfold enter
  rw [guard, if_pos isLocal, isDecl]
  change Option.bind module.types[decl.ty]? _ = _
  rw [isTy]
  change Option.bind module.funcBodies[_]? _ = _
  rw [isBody]
  change Option.bind (machine.enterFrame _ _ _ _ _) _ = _
  rw [entered]
  rfl

/-- An imported function is not entered. -/
theorem enter_of_imported (isImported : ¬module.importedFuncCount ≤ funcIndex.toNat) :
    machine.enter module funcIndex base inst = none := by
  unfold enter
  rw [guard, if_neg isImported]
  rfl

theorem enter_of_noBody
    (noBody : module.funcBodies[funcIndex.toNat - module.importedFuncCount]? = none) :
    machine.enter module funcIndex base inst = none := by
  rw [Option.eq_none_iff_forall_ne_some]
  intro entered isEntered
  obtain ⟨_, _, isEntered⟩ := Option.bind_eq_some_iff.mp isEntered
  obtain ⟨_, _, isEntered⟩ := Option.bind_eq_some_iff.mp isEntered
  obtain ⟨_, _, isEntered⟩ := Option.bind_eq_some_iff.mp isEntered
  obtain ⟨_, isBody, _⟩ := Option.bind_eq_some_iff.mp isEntered
  rw [noBody] at isBody
  cases isBody

theorem enter_of_noFrame
    {decl : FuncDeclaration} {ty : FuncType} {body : machine.Body}
    (isDecl : module.funcDecls[funcIndex.toNat]? = some decl)
    (isTy : module.types[decl.ty]? = some ty)
    (isBody : module.funcBodies[funcIndex.toNat - module.importedFuncCount]? = some body)
    (refused : machine.enterFrame inst.frame ty.params.length body.locals base
      body.frameLayout = none) :
    machine.enter module funcIndex base inst = none := by
  rw [Option.eq_none_iff_forall_ne_some]
  intro entered isEntered
  obtain ⟨_, _, isEntered⟩ := Option.bind_eq_some_iff.mp isEntered
  obtain ⟨declToo, isDeclToo, isEntered⟩ := Option.bind_eq_some_iff.mp isEntered
  obtain rfl : decl = declToo := Option.some.inj (isDecl.symm.trans isDeclToo)
  obtain ⟨tyToo, isTyToo, isEntered⟩ := Option.bind_eq_some_iff.mp isEntered
  obtain rfl : ty = tyToo := Option.some.inj (isTy.symm.trans isTyToo)
  obtain ⟨bodyToo, isBodyToo, isEntered⟩ := Option.bind_eq_some_iff.mp isEntered
  obtain rfl : body = bodyToo := Option.some.inj (isBody.symm.trans isBodyToo)
  obtain ⟨_, isFrame, _⟩ := Option.bind_eq_some_iff.mp isEntered
  rw [refused] at isFrame
  cases isFrame

end Enter

/-! ## Steps of a call -/

section Steps

variable {memory registry : Type} {machine : Machine memory registry} {module : machine.Code}
  {activation : machine.Activation} {resultsCount pc : Nat} {frame : machine.Frame}
  {frames : List machine.Frame} {inst after : machine.State}

/-- Within a body the next instruction is run. -/
theorem advance_inside (inside : pc ≠ activation.body.instructions.length) :
    machine.advance resultsCount activation pc frames inst =
      .running ⟨activation, pc, frames, inst⟩ :=
  if_neg inside

/-- At the end of the entry function the run ends. -/
theorem advance_ends
    (atEnd : pc = activation.body.instructions.length)
    (left : machine.leave activation resultsCount inst = some after) :
    machine.advance resultsCount activation pc [] inst = .ended (.ok (), after) := by
  unfold advance
  rw [if_pos atEnd]
  dsimp only
  rw [left]

/-- At the end of any other its caller goes on. -/
theorem advance_resumes
    (atEnd : pc = activation.body.instructions.length)
    (left : machine.leave activation frame.calleeResultsCount inst = some after) :
    machine.advance resultsCount activation pc (frame :: frames) inst =
      .running ⟨frame.activation, frame.pc + 1, frames, after⟩ := by
  unfold advance
  rw [if_pos atEnd]
  dsimp only
  rw [left]

variable {entry callee : FuncIndex} {c : machine.Configuration}
  {base : machine.CallerBaseData} {isIndirect : Option Nat} {fault : Fault FuncCallError}

/-- A panic ends the run. -/
theorem next_of_panic
    (executed : machine.executeAt module c.activation c.pc c.inst = (.error .panic, after)) :
    machine.next module entry resultsCount c = .ended (.error .panic, after) := by
  unfold next
  rw [executed]
  rfl

/-- So does a trap. -/
theorem next_of_error
    {error : InstructionExecutionError}
    (executed : machine.executeAt module c.activation c.pc c.inst =
      (.error (.error error), after)) :
    machine.next module entry resultsCount c =
      .ended (machine.funcCallErr module entry c.frames error c.activation c.pc, after) := by
  unfold next
  rw [executed]

/-- An instruction without a jump goes on to the next one. -/
theorem next_of_next
    (executed : machine.executeAt module c.activation c.pc c.inst = (.ok .next, after)) :
    machine.next module entry resultsCount c =
      machine.advance resultsCount c.activation (c.pc + 1) c.frames after := by
  unfold next
  rw [executed]

/-- One with a jump goes on at its target. -/
theorem next_of_jumpTo
    {target : Nat}
    (executed : machine.executeAt module c.activation c.pc c.inst =
      (.ok (.jumpTo target), after)) :
    machine.next module entry resultsCount c =
      machine.advance resultsCount c.activation target c.frames after := by
  unfold next
  rw [executed]

section Call

variable (executed : machine.executeAt module c.activation c.pc c.inst =
  (.ok (.call callee base isIndirect), inst))
include executed

/-- A call too deep ends the run. -/
theorem next_of_exhausted
    (exhausted : c.frames.length % 2 ^ 32 + 1 ≥ inst.config.maxCallStackDepth) :
    machine.next module entry resultsCount c =
      .ended (machine.funcCallErr module entry c.frames
        (.callStackExhausted inst.config.maxCallStackDepth) c.activation c.pc, inst) := by
  unfold next
  rw [executed]
  exact if_pos exhausted

/-- So does one of a function that cannot be entered. -/
theorem next_of_refused
    (room : ¬c.frames.length % 2 ^ 32 + 1 ≥ inst.config.maxCallStackDepth)
    (refused : machine.enter module callee base inst = none) :
    machine.next module entry resultsCount c = .ended (.error .panic, inst) := by
  unfold next
  rw [executed]
  dsimp only
  rw [if_neg room, refused]
  rfl

/-- Any other call goes on at the callee's first instruction. -/
theorem next_of_entered
    {results : Nat}
    (room : ¬c.frames.length % 2 ^ 32 + 1 ≥ inst.config.maxCallStackDepth)
    (entered : machine.enter module callee base inst = some (activation, results, after)) :
    machine.next module entry resultsCount c =
      .running ⟨activation, 0,
        ⟨c.activation, c.pc % 2 ^ 32, results, callee, isIndirect⟩ :: c.frames, after⟩ := by
  unfold next
  rw [executed]
  dsimp only
  rw [if_neg room, entered]

end Call

/-- A trap is no result. -/
theorem funcCallErr_ne_ok
    {error : InstructionExecutionError} {result : Unit} :
    machine.funcCallErr module entry frames error activation pc ≠ .ok result := by
  intro returned
  obtain ⟨_, _, returned⟩ := Attempt.bind_eq_ok.mp returned
  obtain ⟨_, _, returned⟩ := Attempt.bind_eq_ok.mp returned
  cases returned

end Steps

/-! ## Beginning and ending a call from outside -/

section Outside

variable {memory registry : Type} {machine : Machine memory registry} {module : machine.Code}
  {fuel : Nat} {funcIndex : FuncIndex} {inst : machine.State}

theorem executeOnFrameStack_of_refused
    (refused : machine.enter module funcIndex machine.initialData inst = none) :
    machine.executeOnFrameStack module fuel funcIndex inst = some (.error .panic, inst) := by
  unfold executeOnFrameStack
  rw [refused]
  rfl

theorem executeOnFrameStack_of_entered
    {activation : machine.Activation} {resultsCount : Nat} {started : machine.State}
    (entered : machine.enter module funcIndex machine.initialData inst =
      some (activation, resultsCount, started)) :
    machine.executeOnFrameStack module fuel funcIndex inst =
      machine.frameLoop module fuel funcIndex resultsCount activation 0 [] started := by
  unfold executeOnFrameStack
  rw [entered]

/-- The results of a finished call are those that its frame has. -/
theorem takeResults_of_taken
    {ty : FuncType} {results : List Value} {frame : machine.RuntimeFrame}
    (typed : (module.funcType funcIndex : Attempt FuncCallError FuncType) = .ok ty)
    (taken : machine.getFinalResults inst.frame ty.results.length = some (results, frame)) :
    machine.takeResults module funcIndex inst =
      ((results.zip ty.results).mapM fun result => result.1.intoVal result.2,
        { inst with frame }) := by
  unfold takeResults
  rw [typed]
  dsimp only
  rw [taken]

/-- The call ends with an answer and an instance, whatever frames it leaves. -/
def ComesTo
    (machine : Machine memory registry) (module : machine.Code)
    (funcIndex : FuncIndex) (params : List Val) (inst : machine.State)
    (answer : Attempt FuncCallError (List Val)) (after : Instance Unit memory registry) :
    Prop :=
  ∃ fuel outcome, machine.run module fuel funcIndex params inst = some outcome ∧
    outcome.1 = answer ∧ outcome.2.withFrame () = after

/-- Either driver may be asked what a call comes to. -/
theorem comesTo_iff
    {params : List Val} {answer : Attempt FuncCallError (List Val)}
    {after : Instance Unit memory registry}
    (wellFormed : machine.WellFormed module) :
    machine.ComesTo module funcIndex params inst answer after ↔
      ∃ fuel outcome, machine.runOnFrameStack module fuel funcIndex params inst =
        some outcome ∧ outcome.1 = answer ∧ outcome.2.withFrame () = after := by
  have agrees := @execute_agrees _ _ machine module funcIndex wellFormed
    (machine.stageParams params inst)
  unfold ComesTo run runOnFrameStack
  constructor
  · intro ⟨fuel, outcome, ran, ended⟩
    obtain ⟨driven, ran, same⟩ := Option.map_eq_some_iff.mp ran
    obtain ⟨more, ran⟩ := (agrees driven).mp ⟨fuel, ran⟩
    exact ⟨more, outcome, Option.map_eq_some_iff.mpr ⟨driven, ran, same⟩, ended⟩
  · intro ⟨fuel, outcome, ran, ended⟩
    obtain ⟨driven, ran, same⟩ := Option.map_eq_some_iff.mp ran
    obtain ⟨more, ran⟩ := (agrees driven).mpr ⟨fuel, ran⟩
    exact ⟨more, outcome, Option.map_eq_some_iff.mpr ⟨driven, ran, same⟩, ended⟩

end Outside

section Same

variable {memory registry : Type} {left right : Machine memory registry}
  {leftModule : left.Code} {rightModule : right.Code}

/-- Two calls have come to the same answer and the same instance. -/
structure SameEnd
    (outcome : left.Outcome FuncCallError (List Val))
    (outcome' : right.Outcome FuncCallError (List Val)) : Prop where
  answer : outcome'.1 = outcome.1
  inst : outcome'.2.withFrame () = outcome.2.withFrame ()

/-- Machines that end alike on every budget come to the same. -/
theorem comesTo_congr
    {funcIndex : FuncIndex} {params : List Val} {inst : left.State} {inst' : right.State}
    {answer : Attempt FuncCallError (List Val)} {after : Instance Unit memory registry}
    (wellFormed : left.WellFormed leftModule)
    (wellFormed' : right.WellFormed rightModule)
    (related : ∀ fuel, Option.Rel SameEnd
      (left.runOnFrameStack leftModule fuel funcIndex params inst)
      (right.runOnFrameStack rightModule fuel funcIndex params inst')) :
    right.ComesTo rightModule funcIndex params inst' answer after ↔
      left.ComesTo leftModule funcIndex params inst answer after := by
  rw [comesTo_iff wellFormed, comesTo_iff wellFormed']
  constructor
  · intro ⟨fuel, outcome, ran, isAnswer, isAfter⟩
    have ended := related fuel
    rw [ran] at ended
    generalize ranToo : left.runOnFrameStack leftModule fuel funcIndex params inst = outcome'
      at ended
    cases ended with
    | some same => exact ⟨fuel, _, ranToo, same.answer ▸ isAnswer, same.inst ▸ isAfter⟩
  · intro ⟨fuel, outcome, ran, isAnswer, isAfter⟩
    have ended := related fuel
    rw [ran] at ended
    generalize ranToo : right.runOnFrameStack rightModule fuel funcIndex params inst' = outcome'
      at ended
    cases ended with
    | some same =>
        exact ⟨fuel, _, ranToo, same.answer.trans isAnswer, same.inst.trans isAfter⟩

end Same

end Machine
end TraceWasm
