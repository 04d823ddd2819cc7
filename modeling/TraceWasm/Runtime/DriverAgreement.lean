import TraceWasm.Runtime.HostContract
import TraceWasm.Stack.Machine

/-!
# The drivers agree

A run of an activation on the native stack is matched by a run of the frame
stack from the same activation, with the suspended callers below it, up to the
point where the activation returns or traps. Both directions are by induction on
the budget; a returned callee resumes the innermost suspended caller.
-/

namespace TraceWasm
namespace Machine

variable {memory registry : Type} (machine : Machine memory registry)
variable (module : machine.Code)

/-- A body as both lowerings make it. -/
structure WellFormedBody (body : machine.Body) : Prop where
  endsInEnd : ∃ instr, body.instructions.getLast? = some instr ∧ machine.IsEnd instr
  /-- An instruction index is a word. -/
  fits : body.instructions.length ≤ 2 ^ 32

/-- Every body of the module ends in its `End`. -/
def WellFormed : Prop :=
  ∀ body ∈ module.funcBodies, machine.WellFormedBody body

/-! ## One instruction of either loop -/

/-- Go on at an index, or return past the last one. -/
def nativeAdvance
    (fuel : Nat) (activation : machine.Activation) (resultsCount depth pc : Nat)
    (inst : machine.State) : Option (machine.Outcome Unwind Unit) :=
  if pc = activation.body.instructions.length then
    match machine.leave activation resultsCount inst with
    | some inst => some (.ok (), inst)
    | none => some (Attempt.panicked, inst)
  else machine.nativeLoop module fuel activation resultsCount pc depth inst

/-- What a caller does with what its callee returned. -/
def nativeReturn
    (fuel : Nat) (activation : machine.Activation) (resultsCount depth pc : Nat)
    (callee : FuncIndex) (isIndirect : Option Nat) :
    Option (machine.Outcome Unwind Unit) → Option (machine.Outcome Unwind Unit)
  | none => none
  | some (.error .panic, inst) => some (Attempt.panicked, inst)
  | some (.error (.error trace), inst) =>
      some (machine.appendCall activation pc callee isIndirect trace, inst)
  | some (.ok (), inst) =>
      machine.nativeAdvance module fuel activation resultsCount depth (pc + 1) inst

/-- What the loop does with the outcome of an instruction. -/
def nativeStep
    (fuel : Nat) (activation : machine.Activation) (resultsCount pc depth : Nat) :
    machine.Outcome InstructionExecutionError (Step machine.CallerBaseData) →
      Option (machine.Outcome Unwind Unit)
  | (.error .panic, inst) => some (Attempt.panicked, inst)
  | (.error (.error error), inst) => some (machine.trapHere activation pc error, inst)
  | (.ok .next, inst) =>
      machine.nativeAdvance module fuel activation resultsCount depth (pc + 1) inst
  | (.ok (.jumpTo target), inst) =>
      machine.nativeAdvance module fuel activation resultsCount depth target inst
  | (.ok (.call callee callerBaseData isIndirect), inst) =>
      if depth ≥ inst.config.maxCallStackDepth then
        some (machine.trapHere activation pc
          (.callStackExhausted inst.config.maxCallStackDepth), inst)
      else match machine.enter module callee callerBaseData inst with
        | none => some (Attempt.panicked, inst)
        | some (calleeActivation, calleeResults, inst) =>
            machine.nativeReturn module fuel activation resultsCount depth pc callee
              isIndirect
              (machine.nativeLoop module fuel calleeActivation calleeResults 0
                (depth + 1) inst)

/-- One iteration of the native driver. -/
theorem nativeLoop_succ
    (fuel : Nat) (activation : machine.Activation) (resultsCount pc depth : Nat)
    (inst : machine.State) :
    machine.nativeLoop module (fuel + 1) activation resultsCount pc depth inst =
      machine.nativeStep module fuel activation resultsCount pc depth
        (machine.executeAt module activation pc inst) := by
  rw [nativeLoop]
  rcases machine.executeAt module activation pc inst with ⟨outcome, inst⟩
  rcases outcome with (fault | _) | step
  · rfl
  · rfl
  · cases step with
    | next => rfl
    | jumpTo target => rfl
    | call callee callerBaseData isIndirect =>
        refine if_congr Iff.rfl rfl ?_
        rcases machine.enter module callee callerBaseData inst with _ | ⟨_, _, inst⟩
        · rfl
        · dsimp only
          rcases machine.nativeLoop module fuel _ _ 0 (depth + 1) inst with
            _ | ⟨(fault | _) | _, _⟩ <;> rfl

/-- Go on at an index, or return to the innermost caller past the last one. -/
def frameAdvance
    (fuel : Nat) (entry : FuncIndex) (resultsCount : Nat)
    (activation : machine.Activation) (pc : Nat) (frames : List machine.Frame)
    (inst : machine.State) : Option (machine.Outcome FuncCallError Unit) :=
  if pc = activation.body.instructions.length then
    match frames with
    | [] =>
        match machine.leave activation resultsCount inst with
        | some inst => some (.ok (), inst)
        | none => some (Attempt.panicked, inst)
    | frame :: frames =>
        match machine.leave activation frame.calleeResultsCount inst with
        | some inst =>
            machine.frameLoop module fuel entry resultsCount frame.activation
              (frame.pc + 1) frames inst
        | none => some (Attempt.panicked, inst)
  else machine.frameLoop module fuel entry resultsCount activation pc frames inst

/-- What the loop does with the outcome of an instruction. -/
def frameStep
    (fuel : Nat) (entry : FuncIndex) (resultsCount : Nat)
    (activation : machine.Activation) (pc : Nat) (frames : List machine.Frame) :
    machine.Outcome InstructionExecutionError (Step machine.CallerBaseData) →
      Option (machine.Outcome FuncCallError Unit)
  | (.error .panic, inst) => some (Attempt.panicked, inst)
  | (.error (.error error), inst) =>
      some (machine.funcCallErr module entry frames error activation pc, inst)
  | (.ok .next, inst) =>
      machine.frameAdvance module fuel entry resultsCount activation (pc + 1) frames inst
  | (.ok (.jumpTo target), inst) =>
      machine.frameAdvance module fuel entry resultsCount activation target frames inst
  | (.ok (.call callee callerBaseData isIndirect), inst) =>
      if frames.length % 2 ^ 32 + 1 ≥ inst.config.maxCallStackDepth then
        some (machine.funcCallErr module entry frames
          (.callStackExhausted inst.config.maxCallStackDepth) activation pc, inst)
      else match machine.enter module callee callerBaseData inst with
        | none => some (Attempt.panicked, inst)
        | some (calleeActivation, calleeResults, inst) =>
            machine.frameLoop module fuel entry resultsCount calleeActivation 0
              (⟨activation, pc % 2 ^ 32, calleeResults, callee, isIndirect⟩ :: frames)
              inst

/-- One iteration of the other driver. -/
theorem frameLoop_succ
    (fuel : Nat) (entry : FuncIndex) (resultsCount : Nat)
    (activation : machine.Activation) (pc : Nat) (frames : List machine.Frame)
    (inst : machine.State) :
    machine.frameLoop module (fuel + 1) entry resultsCount activation pc frames inst =
      machine.frameStep module fuel entry resultsCount activation pc frames
        (machine.executeAt module activation pc inst) := by
  rw [frameLoop]
  rcases machine.executeAt module activation pc inst with ⟨outcome, inst⟩
  rcases outcome with (fault | _) | step
  · rfl
  · rfl
  · cases step <;> rfl

/-! ## More budget changes nothing -/

/-- More fuel changes nothing that has come to an end. -/
theorem nativeLoop_succ_of_some
    {fuel : Nat} {activation : machine.Activation} {resultsCount pc depth : Nat}
    {inst : machine.State} {outcome : machine.Outcome Unwind Unit}
    (ran : machine.nativeLoop module fuel activation resultsCount pc depth inst =
      some outcome) :
    machine.nativeLoop module (fuel + 1) activation resultsCount pc depth inst =
      some outcome := by
  induction fuel generalizing activation resultsCount pc depth inst outcome with
  | zero => cases ran
  | succ fuel inductionHypothesis =>
      have advance :
          ∀ {pc : Nat} {inst : machine.State} {outcome : machine.Outcome Unwind Unit},
            machine.nativeAdvance module fuel activation resultsCount depth pc inst =
                some outcome →
              machine.nativeAdvance module (fuel + 1) activation resultsCount depth pc
                inst = some outcome := by
        intro pc inst outcome advanced
        unfold nativeAdvance at advanced ⊢
        split
        · rw [if_pos ‹_›] at advanced
          exact advanced
        · rw [if_neg ‹_›] at advanced
          exact inductionHypothesis advanced
      rw [nativeLoop_succ] at ran ⊢
      generalize machine.executeAt module activation pc inst = executed at ran ⊢
      obtain ⟨step, inst⟩ := executed
      unfold nativeStep at ran ⊢
      rcases step with (error | _) | step
      · exact ran
      · exact ran
      · cases step with
        | next => exact advance ran
        | jumpTo target => exact advance ran
        | call callee callerBaseData isIndirect =>
            dsimp only at ran ⊢
            split
            · rw [if_pos ‹_›] at ran
              exact ran
            · rw [if_neg ‹_›] at ran
              rcases entered : machine.enter module callee callerBaseData inst with
                _ | ⟨calleeActivation, calleeResults, inst⟩
              · rw [entered] at ran
                exact ran
              · rw [entered] at ran
                dsimp only at ran ⊢
                rcases returned : machine.nativeLoop module fuel calleeActivation
                  calleeResults 0 (depth + 1) inst with _ | ⟨(error | _) | _, inst⟩
                · rw [returned] at ran
                  cases ran
                · rw [inductionHypothesis returned]
                  rw [returned] at ran
                  exact ran
                · rw [inductionHypothesis returned]
                  rw [returned] at ran
                  exact ran
                · rw [inductionHypothesis returned]
                  rw [returned] at ran
                  exact advance ran

/-- The same of any amount of fuel. -/
theorem nativeLoop_mono
    {fuel more : Nat} {activation : machine.Activation} {resultsCount pc depth : Nat}
    {inst : machine.State} {outcome : machine.Outcome Unwind Unit}
    (ran : machine.nativeLoop module fuel activation resultsCount pc depth inst =
      some outcome)
    (le : fuel ≤ more) :
    machine.nativeLoop module more activation resultsCount pc depth inst =
      some outcome := by
  induction le with
  | refl => exact ran
  | step _ inductionHypothesis =>
      exact machine.nativeLoop_succ_of_some module inductionHypothesis

/-! ## Where the frame stack stands -/

/-- The result count of the function that is running. -/
def runningResults (resultsCount : Nat) : List machine.Frame → Nat
  | [] => resultsCount
  | frame :: _ => frame.calleeResultsCount

/-- An activation that runs above its suspended callers. -/
structure Linked
    (entry : FuncIndex) (activation : machine.Activation)
    (frames : List machine.Frame) : Prop where
  wellFormed : machine.WellFormedBody activation.body
  funcIndex : activation.funcIndex = machine.runningFunc entry frames
  depthFits : frames.length + 1 < 2 ^ 32

/-- The error that the frame stack makes of a fault on the native stack, the
suspended callers being below it. -/
def closeTrace (entry : FuncIndex) (frames : List machine.Frame) :
    Fault Unwind → Attempt FuncCallError Unit
  | .panic => Attempt.panicked
  | .error trace => do
      let callers ← machine.callRecords frames
      .fail ⟨machine.entryName module entry, trace ++ callers⟩

/-- How the frame stack ends when the running activation has ended: with the
same trap, with the same return, or by resuming the innermost caller within a
budget that is allowed. -/
def Continues
    (allowed : Nat → Prop) (entry : FuncIndex) (resultsCount : Nat)
    (frames : List machine.Frame) (native : machine.Outcome Unwind Unit)
    (outcome : machine.Outcome FuncCallError Unit) : Prop :=
  match native with
  | (.error fault, inst) => outcome = (machine.closeTrace module entry frames fault, inst)
  | (.ok (), inst) =>
      match frames with
      | [] => outcome = (.ok (), inst)
      | frame :: frames =>
          ∃ fuel, allowed fuel ∧
            machine.frameLoop module fuel entry resultsCount frame.activation
              (frame.pc + 1) frames inst = some outcome

section Continues

variable {machine} {module}
variable {allowed : Nat → Prop} {entry : FuncIndex} {resultsCount : Nat}
variable {frames : List machine.Frame} {activation : machine.Activation}
variable {inst : machine.State} {outcome : machine.Outcome FuncCallError Unit}

theorem Continues.mono
    {stronger weaker : Nat → Prop} {native : machine.Outcome Unwind Unit}
    (continues : machine.Continues module stronger entry resultsCount frames native
      outcome)
    (implies : ∀ fuel, stronger fuel → weaker fuel) :
    machine.Continues module weaker entry resultsCount frames native outcome := by
  rcases native with ⟨fault | _, inst⟩
  · exact continues
  · cases frames with
    | nil => exact continues
    | cons frame frames =>
        obtain ⟨fuel, allowed, ran⟩ := continues
        exact ⟨fuel, implies fuel allowed, ran⟩

/-- Both drivers report a trap in the running activation alike. -/
theorem continues_trapHere
    (linked : machine.Linked entry activation frames)
    (pc : Nat) (error : InstructionExecutionError) :
    machine.Continues module allowed entry resultsCount frames
        (machine.trapHere activation pc error, inst) outcome ↔
      outcome = (machine.funcCallErr module entry frames error activation pc, inst) := by
  unfold trapHere funcCallErr
  rw [← linked.funcIndex]
  unfold traceRecord
  rcases activation.body.instructionOffsets[pc]? with _ | offset <;> exact Iff.rfl

/-- A caller that a trap passes through adds to it what the frame stack adds for
the suspended frame. -/
theorem continues_appendCall
    (pc : Nat) (results : Nat) (callee : FuncIndex) (isIndirect : Option Nat)
    (trace : Unwind) :
    machine.Continues module allowed entry resultsCount frames
        (machine.appendCall activation pc callee isIndirect trace, inst) outcome ↔
      machine.Continues module allowed entry resultsCount
        (⟨activation, pc, results, callee, isIndirect⟩ :: frames)
        (.error (.error trace), inst) outcome := by
  unfold appendCall
  change _ ↔ outcome = (machine.closeTrace module entry _ _, inst)
  unfold closeTrace callRecords traceRecord
  rcases activation.body.instructionOffsets[pc]? with _ | offset
  · exact Iff.rfl
  · change outcome = (machine.closeTrace module entry frames _, inst) ↔ _
    unfold closeTrace
    dsimp only [Attempt.orPanic, Attempt.ok_bind]
    rcases machine.callRecords frames with fault | callers
    · cases fault <;> exact Iff.rfl
    · simp only [Attempt.ok_bind, Attempt.pure_eq, List.append_assoc,
        List.singleton_append]

end Continues

/-! ## What the drivers rely on -/

section Facts

variable {machine} {module}

/-- A function that is entered is one of the module's. -/
theorem body_mem_of_enter
    {funcIndex : FuncIndex} {callerBaseData : machine.CallerBaseData}
    {inst after : machine.State} {activation : machine.Activation} {results : Nat}
    (entered : machine.enter module funcIndex callerBaseData inst =
      some (activation, results, after)) :
    activation.funcIndex = funcIndex ∧ activation.body ∈ module.funcBodies := by
  simp only [enter, Option.bind_eq_bind, Option.bind_eq_some_iff] at entered
  obtain ⟨_, _, _, _, _, _, body, found, ⟨frame, base⟩, _, same⟩ := entered
  cases same
  exact ⟨rfl, List.mem_of_getElem? found⟩

/-- A call is never the last instruction of a body. -/
theorem call_not_last
    {activation : machine.Activation} {pc : Nat} {inst after : machine.State}
    {callee : FuncIndex} {callerBaseData : machine.CallerBaseData}
    {isIndirect : Option Nat}
    (wellFormed : machine.WellFormedBody activation.body)
    (executed : machine.executeAt module activation pc inst =
      (.ok (.call callee callerBaseData isIndirect), after)) :
    pc + 1 < activation.body.instructions.length := by
  unfold executeAt at executed
  cases fetched : activation.body.instructions[pc]? with
  | none =>
      rw [fetched] at executed
      cases executed
  | some instr =>
      rw [fetched] at executed
      have inside : pc < activation.body.instructions.length :=
        (List.getElem?_eq_some_iff.mp fetched).1
      by_contra last
      obtain ⟨final, isLast, isEnd⟩ := wellFormed.endsInEnd
      rw [List.getLast?_eq_getElem?,
        show activation.body.instructions.length - 1 = pc by omega, fetched] at isLast
      cases isLast
      have step := machine.executeEnd module instr activation.body.frameLayout
        activation.callerBaseData inst _ isEnd (congrArg Prod.fst executed)
      cases step

/-- An activation that was entered from a call runs above its caller. -/
theorem linked_of_enter
    {entry callee : FuncIndex} {frames : List machine.Frame}
    {calleeBase : machine.CallerBaseData} {inst after : machine.State}
    {activation calleeActivation : machine.Activation} {pc results : Nat}
    {isIndirect : Option Nat}
    (wellFormed : machine.WellFormed module)
    (shallow : frames.length + 1 < inst.config.maxCallStackDepth)
    (entered : machine.enter module callee calleeBase inst =
      some (calleeActivation, results, after)) :
    machine.Linked entry calleeActivation
      (⟨activation, pc, results, callee, isIndirect⟩ :: frames) where
  wellFormed := wellFormed _ (body_mem_of_enter entered).2
  funcIndex := (body_mem_of_enter entered).1
  depthFits := by
    have limit := inst.config.depthFits
    rw [List.length_cons]
    omega

/-- The depth that the frame stack computes is the one the native stack counts. -/
theorem Linked.depth_eq
    {entry : FuncIndex} {activation : machine.Activation} {frames : List machine.Frame}
    (linked : machine.Linked entry activation frames) :
    frames.length % 2 ^ 32 + 1 = frames.length + 1 := by
  have fits := linked.depthFits
  rw [Nat.mod_eq_of_lt (by omega)]

/-- The saved position behind a call is the next one. -/
theorem Linked.pc_eq
    {entry : FuncIndex} {activation : machine.Activation} {frames : List machine.Frame}
    {pc : Nat}
    (linked : machine.Linked entry activation frames)
    (inside : pc + 1 < activation.body.instructions.length) :
    pc % 2 ^ 32 = pc := by
  have fits := linked.wellFormed.fits
  exact Nat.mod_eq_of_lt (by omega)

end Facts

/-! ## From the native stack to the frame stack -/

section Agreement

variable {machine} {module}
variable {entry : FuncIndex} {resultsCount : Nat}

/-- The frame stack goes on as the native stack does, given that it does so from
the instructions that follow. -/
theorem frameAdvance_of_native
    {fuel depth pc : Nat} {activation : machine.Activation}
    {frames : List machine.Frame} {inst : machine.State}
    {native : machine.Outcome Unwind Unit}
    {outcome : machine.Outcome FuncCallError Unit}
    (loop : machine.nativeLoop module fuel activation
        (machine.runningResults resultsCount frames) pc depth inst = some native →
      ∃ more, machine.frameLoop module more entry resultsCount activation pc frames inst =
        some outcome)
    (advanced : machine.nativeAdvance module fuel activation
      (machine.runningResults resultsCount frames) depth pc inst = some native)
    (continues : machine.Continues module (fun _ => True) entry resultsCount frames native
      outcome) :
    ∃ more, machine.frameAdvance module more entry resultsCount activation pc frames inst =
      some outcome := by
  unfold nativeAdvance at advanced
  unfold frameAdvance
  by_cases ended : pc = activation.body.instructions.length
  · rw [if_pos ended] at advanced
    cases left : machine.leave activation (machine.runningResults resultsCount frames) inst with
    | none =>
        rw [left] at advanced
        cases advanced
        have panics : outcome = (Attempt.panicked, inst) := continues
        refine ⟨0, ?_⟩
        rw [if_pos ended, panics]
        cases frames with
        | nil =>
            change machine.leave activation resultsCount inst = none at left
            dsimp only
            rw [left]
        | cons frame frames =>
            change machine.leave activation frame.calleeResultsCount inst = none at left
            dsimp only
            rw [left]
    | some after =>
        rw [left] at advanced
        cases advanced
        cases frames with
        | nil =>
            have returns : outcome = (.ok (), after) := continues
            change machine.leave activation resultsCount inst = some after at left
            refine ⟨0, ?_⟩
            rw [if_pos ended]
            dsimp only
            rw [left, returns]
        | cons frame frames =>
            obtain ⟨more, _, resumed⟩ := continues
            change machine.leave activation frame.calleeResultsCount inst = some after at left
            refine ⟨more, ?_⟩
            rw [if_pos ended]
            dsimp only
            rw [left]
            exact resumed
  · rw [if_neg ended] at advanced
    obtain ⟨more, ran⟩ := loop advanced
    refine ⟨more, ?_⟩
    rw [if_neg ended]
    exact ran

/-- Whatever the native stack does from an activation, the frame stack does. -/
theorem frame_of_native
    (wellFormed : machine.WellFormed module)
    {fuel pc : Nat} {activation : machine.Activation}
    {frames : List machine.Frame} {inst : machine.State}
    {native : machine.Outcome Unwind Unit}
    {outcome : machine.Outcome FuncCallError Unit}
    (linked : machine.Linked entry activation frames)
    (ran : machine.nativeLoop module fuel activation
      (machine.runningResults resultsCount frames) pc (frames.length + 1) inst =
        some native)
    (continues : machine.Continues module (fun _ => True) entry resultsCount frames native
      outcome) :
    ∃ more, machine.frameLoop module more entry resultsCount activation pc frames inst =
      some outcome := by
  induction fuel generalizing activation pc frames inst native outcome with
  | zero => cases ran
  | succ fuel inductionHypothesis =>
      rw [nativeLoop_succ] at ran
      rcases executed : machine.executeAt module activation pc inst with ⟨step, after⟩
      rw [executed] at ran
      -- the frame stack executes the same instruction
      suffices stepped :
          ∃ more, machine.frameStep module more entry resultsCount activation pc frames
            (step, after) = some outcome by
        obtain ⟨more, ends⟩ := stepped
        refine ⟨more + 1, ?_⟩
        rw [frameLoop_succ, executed]
        exact ends
      unfold nativeStep at ran
      unfold frameStep
      rcases step with (error | _) | step
      · cases ran
        refine ⟨0, ?_⟩
        rw [(continues_trapHere linked pc error).mp continues]
      · cases ran
        refine ⟨0, ?_⟩
        have panics : outcome = (Attempt.panicked, after) := continues
        rw [panics]
      · cases step with
        | next =>
            exact frameAdvance_of_native
              (fun ran => inductionHypothesis linked ran continues) ran continues
        | jumpTo target =>
            exact frameAdvance_of_native
              (fun ran => inductionHypothesis linked ran continues) ran continues
        | call callee callerBaseData isIndirect =>
            dsimp only at ran ⊢
            rw [linked.depth_eq]
            by_cases exhausted : frames.length + 1 ≥ after.config.maxCallStackDepth
            · rw [if_pos exhausted] at ran
              cases ran
              refine ⟨0, ?_⟩
              rw [if_pos exhausted, (continues_trapHere linked pc _).mp continues]
            · rw [if_neg exhausted] at ran
              have inside := call_not_last linked.wellFormed executed
              cases entered : machine.enter module callee callerBaseData after with
              | none =>
                  rw [entered] at ran
                  cases ran
                  refine ⟨0, ?_⟩
                  have panics : outcome = (Attempt.panicked, after) := continues
                  rw [if_neg exhausted, panics]
              | some calleeState =>
                  obtain ⟨calleeActivation, calleeResults, started⟩ := calleeState
                  rw [entered] at ran
                  dsimp only at ran
                  have calleeLinked : machine.Linked entry calleeActivation
                      (⟨activation, pc % 2 ^ 32, calleeResults, callee, isIndirect⟩ ::
                        frames) :=
                    linked_of_enter wellFormed (by omega) entered
                  simp only [if_neg exhausted]
                  cases returned : machine.nativeLoop module fuel calleeActivation
                      calleeResults 0 (frames.length + 1 + 1) started with
                  | none =>
                      rw [returned] at ran
                      cases ran
                  | some calleeNative =>
                      rw [returned] at ran
                      refine inductionHypothesis calleeLinked returned ?_
                      rw [linked.pc_eq inside]
                      rcases calleeNative with ⟨(trace | _) | _, finished⟩
                      · cases ran
                        exact (continues_appendCall pc calleeResults callee isIndirect
                          trace).mp continues
                      · cases ran
                        exact continues
                      · -- the caller resumes past its call, which is not the last
                        change machine.nativeAdvance module fuel activation _ _ (pc + 1)
                          finished = some native at ran
                        unfold nativeAdvance at ran
                        rw [if_neg (by omega)] at ran
                        obtain ⟨more, resumed⟩ :=
                          inductionHypothesis linked ran continues
                        exact ⟨more, trivial, resumed⟩

/-- The native stack goes on as the frame stack does, given that it does so from
the instructions that follow. -/
theorem native_of_frameAdvance
    {fuel pc : Nat} {activation : machine.Activation}
    {frames : List machine.Frame} {inst : machine.State}
    {outcome : machine.Outcome FuncCallError Unit}
    (loop : machine.frameLoop module fuel entry resultsCount activation pc frames inst =
        some outcome →
      ∃ more native,
        machine.nativeLoop module more activation
            (machine.runningResults resultsCount frames) pc (frames.length + 1) inst =
          some native ∧
        machine.Continues module (· < fuel + 1) entry resultsCount frames native outcome)
    (advanced : machine.frameAdvance module fuel entry resultsCount activation pc frames
      inst = some outcome) :
    ∃ more native,
      machine.nativeAdvance module more activation
          (machine.runningResults resultsCount frames) (frames.length + 1) pc inst =
        some native ∧
      machine.Continues module (· < fuel + 1) entry resultsCount frames native outcome := by
  unfold frameAdvance at advanced
  unfold nativeAdvance
  by_cases ended : pc = activation.body.instructions.length
  · rw [if_pos ended] at advanced
    refine ⟨0, ?_⟩
    rw [if_pos ended]
    cases frames with
    | nil =>
        dsimp only [runningResults] at advanced ⊢
        cases left : machine.leave activation resultsCount inst with
        | none =>
            rw [left] at advanced
            cases advanced
            exact ⟨_, rfl, rfl⟩
        | some after =>
            rw [left] at advanced
            cases advanced
            exact ⟨_, rfl, rfl⟩
    | cons frame frames =>
        dsimp only [runningResults] at advanced ⊢
        cases left : machine.leave activation frame.calleeResultsCount inst with
        | none =>
            rw [left] at advanced
            cases advanced
            exact ⟨_, rfl, rfl⟩
        | some after =>
            rw [left] at advanced
            exact ⟨_, rfl, fuel, Nat.lt_succ_self fuel, advanced⟩
  · rw [if_neg ended] at advanced
    obtain ⟨more, native, ran, continues⟩ := loop advanced
    refine ⟨more, native, ?_, continues⟩
    rw [if_neg ended]
    exact ran

/-- Whatever the frame stack does from an activation, the native stack does. -/
theorem native_of_frame
    (wellFormed : machine.WellFormed module)
    {fuel pc : Nat} {activation : machine.Activation}
    {frames : List machine.Frame} {inst : machine.State}
    {outcome : machine.Outcome FuncCallError Unit}
    (linked : machine.Linked entry activation frames)
    (ran : machine.frameLoop module fuel entry resultsCount activation pc frames inst =
      some outcome) :
    ∃ more native,
      machine.nativeLoop module more activation
          (machine.runningResults resultsCount frames) pc (frames.length + 1) inst =
        some native ∧
      machine.Continues module (· < fuel) entry resultsCount frames native outcome := by
  induction fuel using Nat.strong_induction_on generalizing activation pc frames inst with
  | _ fuel inductionHypothesis =>
  cases fuel with
  | zero => cases ran
  | succ fuel =>
      have loop :
          ∀ {pc : Nat} {inst : machine.State},
            machine.frameLoop module fuel entry resultsCount activation pc frames inst =
                some outcome →
              ∃ more native,
                machine.nativeLoop module more activation
                    (machine.runningResults resultsCount frames) pc (frames.length + 1)
                    inst = some native ∧
                machine.Continues module (· < fuel + 1) entry resultsCount frames native
                  outcome := by
        intro pc inst ran
        obtain ⟨more, native, ranNative, continues⟩ :=
          inductionHypothesis fuel (Nat.lt_succ_self fuel) linked ran
        exact ⟨more, native, ranNative,
          continues.mono fun _ less => Nat.lt_succ_of_lt less⟩
      rw [frameLoop_succ] at ran
      rcases executed : machine.executeAt module activation pc inst with ⟨step, after⟩
      rw [executed] at ran
      -- the native stack executes the same instruction
      suffices stepped :
          ∃ more native,
            machine.nativeStep module more activation
                (machine.runningResults resultsCount frames) pc (frames.length + 1)
                (step, after) = some native ∧
            machine.Continues module (· < fuel + 1) entry resultsCount frames native
              outcome by
        obtain ⟨more, native, ends, continues⟩ := stepped
        refine ⟨more + 1, native, ?_, continues⟩
        rw [nativeLoop_succ, executed]
        exact ends
      unfold frameStep at ran
      unfold nativeStep
      rcases step with (error | _) | step
      · cases ran
        exact ⟨0, _, rfl, (continues_trapHere linked pc error).mpr rfl⟩
      · cases ran
        exact ⟨0, _, rfl, rfl⟩
      · cases step with
        | next => exact native_of_frameAdvance loop ran
        | jumpTo target => exact native_of_frameAdvance loop ran
        | call callee callerBaseData isIndirect =>
            dsimp only at ran ⊢
            rw [linked.depth_eq] at ran
            by_cases exhausted : frames.length + 1 ≥ after.config.maxCallStackDepth
            · rw [if_pos exhausted] at ran
              cases ran
              refine ⟨0, _, if_pos exhausted, ?_⟩
              exact (continues_trapHere linked pc _).mpr rfl
            · rw [if_neg exhausted] at ran
              simp only [if_neg exhausted]
              have inside := call_not_last linked.wellFormed executed
              cases entered : machine.enter module callee callerBaseData after with
              | none =>
                  rw [entered] at ran
                  cases ran
                  exact ⟨0, _, rfl, rfl⟩
              | some calleeState =>
                  obtain ⟨calleeActivation, calleeResults, started⟩ := calleeState
                  rw [entered] at ran
                  dsimp only at ran ⊢
                  obtain ⟨calleeFuel, calleeNative, returned, calleeContinues⟩ :=
                    inductionHypothesis fuel (Nat.lt_succ_self fuel)
                      (linked_of_enter wellFormed (by omega) entered) ran
                  change machine.nativeLoop module calleeFuel calleeActivation
                    calleeResults 0 (frames.length + 1 + 1) started = _ at returned
                  rw [linked.pc_eq inside] at calleeContinues
                  rcases calleeNative with ⟨(trace | _) | _, finished⟩
                  · refine ⟨calleeFuel, _, by rw [returned]; rfl, ?_⟩
                    exact (continues_appendCall pc calleeResults callee isIndirect
                      trace).mpr (calleeContinues.mono fun _ less =>
                        Nat.lt_succ_of_lt less)
                  · refine ⟨calleeFuel, _, by rw [returned]; rfl, ?_⟩
                    exact calleeContinues
                  · -- the caller resumes past its call, which is not the last
                    obtain ⟨restFuel, less, resumed⟩ := calleeContinues
                    obtain ⟨more, native, ranRest, continues⟩ :=
                      inductionHypothesis restFuel (Nat.lt_succ_of_lt less) linked resumed
                    refine ⟨max calleeFuel more, native, ?_,
                      continues.mono fun _ lessRest =>
                        lessRest.trans (Nat.lt_succ_of_lt less)⟩
                    rw [nativeLoop_mono machine module returned (Nat.le_max_left _ _)]
                    change machine.nativeAdvance module _ activation _ _ (pc + 1)
                      finished = some native
                    unfold nativeAdvance
                    rw [if_neg (by omega)]
                    exact nativeLoop_mono machine module ranRest (Nat.le_max_right _ _)

/-! ## A call from outside -/

/-- The first activation runs above no caller. -/
theorem linked_entry
    {base : machine.CallerBaseData} {inst after : machine.State}
    {activation : machine.Activation} {results : Nat}
    (wellFormed : machine.WellFormed module)
    (entered : machine.enter module entry base inst = some (activation, results, after)) :
    machine.Linked entry activation [] where
  wellFormed := wellFormed _ (body_mem_of_enter entered).2
  funcIndex := (body_mem_of_enter entered).1
  depthFits := by
    rw [List.length_nil]
    decide

/-- Nothing is suspended below the entry function. -/
theorem continues_nil
    {allowed : Nat → Prop} {native : machine.Outcome Unwind Unit}
    {outcome : machine.Outcome FuncCallError Unit} :
    machine.Continues module allowed entry resultsCount [] native outcome ↔
      outcome = machine.funcCallErrFromUnwind module entry native := by
  rcases native with ⟨(trace | _) | _, inst⟩
  · change outcome = (machine.closeTrace module entry [] (.error trace), inst) ↔ _
    simp only [closeTrace, callRecords, Attempt.pure_eq, Attempt.ok_bind,
      List.append_nil]
    exact Iff.rfl
  · exact Iff.rfl
  · exact Iff.rfl

/-- The drivers run a function alike. -/
theorem execute_agrees
    (wellFormed : machine.WellFormed module) (inst : machine.State)
    (outcome : machine.Outcome FuncCallError Unit) :
    (∃ fuel, (machine.executeOnNativeStack module fuel entry 0 machine.initialData
        inst).map (machine.funcCallErrFromUnwind module entry) = some outcome) ↔
      ∃ fuel, machine.executeOnFrameStack module fuel entry inst = some outcome := by
  unfold executeOnNativeStack executeOnFrameStack
  cases entered : machine.enter module entry machine.initialData inst with
  | none => exact Iff.rfl
  | some started =>
      obtain ⟨activation, results, started⟩ := started
      have linked := linked_entry wellFormed entered
      dsimp only
      constructor
      · intro ⟨fuel, ran⟩
        obtain ⟨native, ranNative, same⟩ := Option.map_eq_some_iff.mp ran
        exact frame_of_native wellFormed linked ranNative (continues_nil.mpr same.symm)
      · intro ⟨fuel, ran⟩
        obtain ⟨more, native, ranNative, continues⟩ :=
          native_of_frame wellFormed linked ran
        refine ⟨more, ?_⟩
        rw [show machine.nativeLoop module more activation results 0 (0 + 1) started =
          some native from ranNative, continues_nil.mp continues]
        rfl

end Agreement

/-- A call of an exported function ends the same way on either driver: the same
results or the same trace, and the same instance. -/
theorem drivers_agree
    (wellFormed : machine.WellFormed module)
    (funcIndex : FuncIndex) (params : List Val) (inst : machine.State)
    (outcome : machine.Outcome FuncCallError (List Val)) :
    (∃ fuel, machine.run module fuel funcIndex params inst = some outcome) ↔
      ∃ fuel, machine.runOnFrameStack module fuel funcIndex params inst =
        some outcome := by
  have agrees := @execute_agrees _ _ machine module funcIndex wellFormed
    (machine.stageParams params inst)
  unfold run runOnFrameStack
  simp only [Option.map_eq_some_iff] at agrees ⊢
  constructor
  · intro ⟨fuel, driven, ran, ended⟩
    obtain ⟨more, same⟩ := (agrees driven).mp ⟨fuel, ran⟩
    exact ⟨more, driven, same, ended⟩
  · intro ⟨fuel, driven, ran, ended⟩
    obtain ⟨more, same⟩ := (agrees driven).mpr ⟨fuel, ran⟩
    exact ⟨more, driven, same, ended⟩

end Machine

section Nested

open Stack (StackInstruction StackFrameLayout)

/-- A body that calls the other function, and one that returns seven. -/
def nestedBodies : List (FuncBody StackInstruction StackFrameLayout) :=
  [⟨[], [.call 1 0, .endOp 1 0], [0, 2], ⟨[]⟩⟩,
    ⟨[], [.const (.i32 7), .endOp 1 0], [4, 6], ⟨[]⟩⟩]

/-- A module of those two functions. -/
def nestedModule : Module StackInstruction StackFrameLayout where
  types := [⟨[], [.i32]⟩]
  funcDecls := [⟨⟨0⟩, .«local»⟩, ⟨⟨0⟩, .«local»⟩]
  importedFuncCount := 0
  funcBodies := nestedBodies
  tables := []
  memories := []
  globals := []
  importedGlobalCount := 0
  exports := fun _ => none
  exportedFuncName := fun _ => none
  startSection := none
  elements := []
  datas := []

/-- The stack machine without any use of the numeric operators. -/
def nestedMachine : Machine LinearMemory Unit :=
  Stack.machine (answering [])
    ⟨fun _ _ => Attempt.panicked, fun _ _ _ => Attempt.panicked⟩

/-- The bodies are well formed. -/
theorem nestedBodies_wellFormed :
    ∀ body ∈ nestedBodies, nestedMachine.WellFormedBody body := by
  refine List.forall_mem_cons.mpr ⟨?_, List.forall_mem_singleton.mpr ?_⟩
  · exact ⟨⟨.endOp 1 0, rfl, 1, 0, rfl⟩, by decide⟩
  · exact ⟨⟨.endOp 1 0, rfl, 1, 0, rfl⟩, by decide⟩

/-- Both drivers run a nested call to its result. -/
theorem drivers_agree_nested :
    ∃ fuel, nestedMachine.runOnFrameStack nestedModule fuel 0 []
        (bareInstance emptyStack) =
      some (.ok [.i32 7], bareInstance ⟨[7], 0⟩) :=
  (nestedMachine.drivers_agree nestedModule nestedBodies_wellFormed 0 []
    (bareInstance emptyStack) _).mp ⟨4, rfl⟩

end Nested

end TraceWasm
