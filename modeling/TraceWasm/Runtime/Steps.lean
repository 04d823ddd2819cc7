import TraceWasm.Runtime.DriverAgreement

/-!
# Calls step by step

A call is a sequence of configurations, each with the running activation, the
callers suspended below it and the instance. What every step keeps holds in
every configuration, and in every instance between two calls.
-/

namespace TraceWasm
namespace Machine

variable {memory registry : Type} (machine : Machine memory registry)
variable (module : machine.Code)

/-- A call in progress. The innermost caller comes first. -/
structure Configuration where
  activation : machine.Activation
  pc : Nat
  frames : List machine.Frame
  inst : machine.State

/-- How a call goes on. -/
inductive Progress where
  | running (configuration : machine.Configuration)
  | ended (outcome : machine.Outcome FuncCallError Unit)

/-- Go on at an index, or return past the last one. -/
def advance
    (resultsCount : Nat) (activation : machine.Activation) (pc : Nat)
    (frames : List machine.Frame) (inst : machine.State) : machine.Progress :=
  if pc = activation.body.instructions.length then
    match frames with
    | [] =>
        match machine.leave activation resultsCount inst with
        | some inst => .ended (.ok (), inst)
        | none => .ended (Attempt.panicked, inst)
    | frame :: frames =>
        match machine.leave activation frame.calleeResultsCount inst with
        | some inst => .running ⟨frame.activation, frame.pc + 1, frames, inst⟩
        | none => .ended (Attempt.panicked, inst)
  else .running ⟨activation, pc, frames, inst⟩

/-- One step of a call. -/
def next
    (entry : FuncIndex) (resultsCount : Nat) (c : machine.Configuration) :
    machine.Progress :=
  match machine.executeAt module c.activation c.pc c.inst with
  | (.error .panic, inst) => .ended (Attempt.panicked, inst)
  | (.error (.error error), inst) =>
      .ended (machine.funcCallErr module entry c.frames error c.activation c.pc, inst)
  | (.ok .next, inst) => machine.advance resultsCount c.activation (c.pc + 1) c.frames inst
  | (.ok (.jumpTo target), inst) =>
      machine.advance resultsCount c.activation target c.frames inst
  | (.ok (.call callee callerBaseData isIndirect), inst) =>
      if c.frames.length % 2 ^ 32 + 1 ≥ inst.config.maxCallStackDepth then
        .ended (machine.funcCallErr module entry c.frames
          (.callStackExhausted inst.config.maxCallStackDepth) c.activation c.pc, inst)
      else match machine.enter module callee callerBaseData inst with
        | none => .ended (Attempt.panicked, inst)
        | some (calleeActivation, calleeResults, inst) =>
            .running ⟨calleeActivation, 0,
              ⟨c.activation, c.pc % 2 ^ 32, calleeResults, callee, isIndirect⟩ :: c.frames,
              inst⟩

/-- The loop of the frame stack takes these steps. -/
theorem frameLoop_eq_next
    (fuel : Nat) (entry : FuncIndex) (resultsCount : Nat) (c : machine.Configuration) :
    machine.frameLoop module (fuel + 1) entry resultsCount c.activation c.pc c.frames
        c.inst =
      match machine.next module entry resultsCount c with
      | .running c =>
          machine.frameLoop module fuel entry resultsCount c.activation c.pc c.frames
            c.inst
      | .ended outcome => some outcome := by
  rw [frameLoop_succ]
  unfold next
  generalize machine.executeAt module c.activation c.pc c.inst = executed
  obtain ⟨step, inst⟩ := executed
  have advanced : ∀ pc,
      machine.frameAdvance module fuel entry resultsCount c.activation pc c.frames inst =
        match machine.advance resultsCount c.activation pc c.frames inst with
        | .running c =>
            machine.frameLoop module fuel entry resultsCount c.activation c.pc c.frames
              c.inst
        | .ended outcome => some outcome := by
    intro pc
    unfold frameAdvance advance
    split
    · cases c.frames with
      | nil => cases machine.leave c.activation resultsCount inst <;> rfl
      | cons frame _ =>
          dsimp only
          cases machine.leave c.activation frame.calleeResultsCount inst <;> rfl
    · rfl
  rcases step with (fault | _) | step
  · rfl
  · rfl
  · cases step with
    | next => exact advanced (c.pc + 1)
    | jumpTo target => exact advanced target
    | call callee callerBaseData isIndirect =>
        unfold frameStep
        dsimp only
        split
        · rfl
        · cases machine.enter module callee callerBaseData inst <;> rfl

/-! ## Runs of one call -/

section Runs

/-- The configurations a run of steps leads to, each of them taken from an allowed
one. -/
inductive Runs
    (allowed : machine.Configuration → Prop) (entry : FuncIndex) (resultsCount : Nat)
    (start : machine.Configuration) : machine.Configuration → Prop where
  | start : Runs allowed entry resultsCount start start
  | step
      (ran : Runs allowed entry resultsCount start before)
      (isAllowed : allowed before)
      (stepped : machine.next module entry resultsCount before = .running after) :
      Runs allowed entry resultsCount start after

variable {machine module}
variable {allowed : machine.Configuration → Prop} {entry : FuncIndex} {resultsCount : Nat}

/-- What every step keeps, a run keeps. -/
theorem Runs.invariant
    {start final : machine.Configuration} {kept : machine.Configuration → Prop}
    (keeps : ∀ before after, allowed before →
      machine.next module entry resultsCount before = .running after →
        kept before → kept after)
    (ran : machine.Runs module allowed entry resultsCount start final)
    (holds : kept start) :
    kept final := by
  induction ran with
  | start => exact holds
  | step _ isAllowed stepped inductionHypothesis =>
      exact keeps _ _ isAllowed stepped inductionHypothesis

/-- Runs one after the other are a run. -/
theorem Runs.trans
    {start middle final : machine.Configuration}
    (first : machine.Runs module allowed entry resultsCount start middle)
    (second : machine.Runs module allowed entry resultsCount middle final) :
    machine.Runs module allowed entry resultsCount start final := by
  induction second with
  | start => exact first
  | step _ isAllowed stepped inductionHypothesis =>
      exact .step inductionHypothesis isAllowed stepped

/-- A call is over within a budget and only passes configurations of a kind. -/
def passesOnly
    (machine : Machine memory registry) (module : machine.Code) (entry : FuncIndex)
    (resultsCount : Nat) (kind : machine.Configuration → Bool) :
    Nat → machine.Configuration → Bool
  | 0, _ => false
  | fuel + 1, c =>
      kind c &&
        match machine.next module entry resultsCount c with
        | .running c => passesOnly machine module entry resultsCount kind fuel c
        | .ended _ => true

/-- A run only comes to configurations that the call passes. -/
theorem Runs.of_passesOnly
    {kind : machine.Configuration → Bool} {fuel : Nat} {start final : machine.Configuration}
    (passes : passesOnly machine module entry resultsCount kind fuel start = true)
    (ran : machine.Runs module allowed entry resultsCount start final) :
    kind final = true := by
  suffices reaches : ∃ fuel, passesOnly machine module entry resultsCount kind fuel final =
      true by
    obtain ⟨_ | fuel, passes⟩ := reaches
    · cases passes
    · exact ((Bool.and_eq_true _ _).mp passes).1
  induction ran with
  | start => exact ⟨fuel, passes⟩
  | step _ _ stepped inductionHypothesis =>
      obtain ⟨_ | fuel, passes⟩ := inductionHypothesis
      · cases passes
      · have onward := ((Bool.and_eq_true _ _).mp passes).2
        rw [stepped] at onward
        exact ⟨fuel, onward⟩

/-- A finished loop is a run to a configuration whose step ends the call. -/
theorem runs_of_frameLoop
    {fuel : Nat} {start : machine.Configuration}
    {outcome : machine.Outcome FuncCallError Unit}
    (looped : machine.frameLoop module fuel entry resultsCount start.activation start.pc
      start.frames start.inst = some outcome) :
    ∃ final, machine.Runs module (fun _ => True) entry resultsCount start final ∧
      machine.next module entry resultsCount final = .ended outcome := by
  induction fuel generalizing start with
  | zero => cases looped
  | succ fuel inductionHypothesis =>
      rw [frameLoop_eq_next] at looped
      cases stepped : machine.next module entry resultsCount start with
      | running after =>
          rw [stepped] at looped
          obtain ⟨final, ran, ended⟩ := inductionHypothesis looped
          have first : machine.Runs module (fun _ => True) entry resultsCount start after :=
            .step .start trivial stepped
          exact ⟨final, first.trans ran, ended⟩
      | ended last =>
          rw [stepped] at looped
          cases looped
          exact ⟨start, .start, stepped⟩

end Runs

/-! ## Runs of many calls -/

section Calls

/-- The call of a function from outside has come to a configuration. -/
structure During
    (allowed : machine.Configuration → Prop) (func : FuncIndex) (params : List Val)
    (resultsCount : Nat) (inst : machine.State) (c : machine.Configuration) : Prop where
  ran : ∃ activation started,
    machine.enter module func machine.initialData (machine.stageParams params inst) =
        some (activation, resultsCount, started) ∧
      machine.Runs module allowed func resultsCount ⟨activation, 0, [], started⟩ c

/-- The instances that a sequence of calls from outside leaves, whatever each of
them came to. -/
inductive Between
    (allowed : machine.Configuration → Prop) (start : machine.State) :
    machine.State → Prop where
  | start : Between allowed start start
  /-- A call that panics before its first instruction. -/
  | refused (func : FuncIndex) (params : List Val)
      (before : Between allowed start inst)
      (panicked : machine.enter module func machine.initialData
        (machine.stageParams params inst) = none) :
      Between allowed start (machine.stageParams params inst)
  | called (func : FuncIndex) (params : List Val)
      (before : Between allowed start inst)
      (during : machine.During module allowed func params resultsCount inst c)
      (isAllowed : allowed c)
      (ended : machine.next module func resultsCount c = .ended outcome) :
      Between allowed start (machine.finish module func outcome).2

variable {machine module}
variable {allowed : machine.Configuration → Prop}

/-- A call that `run` finishes is one of these calls. -/
theorem between_of_run
    {start inst : machine.State} {fuel : Nat} {func : FuncIndex} {params : List Val}
    {outcome : machine.Outcome FuncCallError (List Val)}
    (wellFormed : machine.WellFormed module)
    (before : machine.Between module (fun _ => True) start inst)
    (ran : machine.run module fuel func params inst = some outcome) :
    machine.Between module (fun _ => True) start outcome.2 := by
  unfold run at ran
  obtain ⟨driven, ranNative, finished⟩ := Option.map_eq_some_iff.mp ran
  obtain ⟨more, ranFrames⟩ := (execute_agrees wellFormed
    (machine.stageParams params inst) driven).mp ⟨fuel, ranNative⟩
  rw [← finished]
  unfold executeOnFrameStack at ranFrames
  cases entered : machine.enter module func machine.initialData
      (machine.stageParams params inst) with
  | none =>
      rw [entered] at ranFrames
      cases ranFrames
      exact .refused func params before entered
  | some started =>
      obtain ⟨activation, resultsCount, started⟩ := started
      rw [entered] at ranFrames
      obtain ⟨final, steps, ended⟩ := @runs_of_frameLoop _ _ machine module
        func resultsCount more ⟨activation, 0, [], started⟩ driven ranFrames
      exact .called func params before ⟨activation, started, entered, steps⟩ trivial ended

end Calls

/-! ## What an instance keeps -/

section Instance

variable {machine module}
variable {allowed : machine.Configuration → Prop} {kept : machine.State → Prop}

/-- A property of instances that no frame operation and no allowed instruction
breaks. -/
structure Keeps
    (machine : Machine memory registry) (module : machine.Code)
    (allowed : machine.Configuration → Prop) (kept : machine.State → Prop) : Prop where
  frame : ∀ inst frame, kept inst → kept { inst with frame }
  execute : ∀ c : machine.Configuration, allowed c → kept c.inst →
    kept (machine.executeAt module c.activation c.pc c.inst).2

/-- What is kept is kept by entering a function. -/
theorem Keeps.enter
    (keeps : machine.Keeps module allowed kept)
    {func : FuncIndex} {base : machine.CallerBaseData} {inst entered : machine.State}
    {activation : machine.Activation} {resultsCount : Nat}
    (enters : machine.enter module func base inst = some (activation, resultsCount, entered))
    (holds : kept inst) :
    kept entered := by
  unfold Machine.enter at enters
  obtain ⟨_, _, enters⟩ := Option.bind_eq_some_iff.mp enters
  obtain ⟨_, _, enters⟩ := Option.bind_eq_some_iff.mp enters
  obtain ⟨_, _, enters⟩ := Option.bind_eq_some_iff.mp enters
  obtain ⟨_, _, enters⟩ := Option.bind_eq_some_iff.mp enters
  obtain ⟨⟨frame, _⟩, _, enters⟩ := Option.bind_eq_some_iff.mp enters
  cases enters
  exact keeps.frame inst frame holds

/-- What is kept is kept by leaving a function. -/
theorem Keeps.leave
    (keeps : machine.Keeps module allowed kept)
    {activation : machine.Activation} {resultsCount : Nat} {inst left : machine.State}
    (leaves : machine.leave activation resultsCount inst = some left)
    (holds : kept inst) :
    kept left := by
  unfold Machine.leave at leaves
  obtain ⟨frame, _, leaves⟩ := Option.bind_eq_some_iff.mp leaves
  cases leaves
  exact keeps.frame inst frame holds

/-- The instance that a call goes on or ends with. -/
def Progress.inst : machine.Progress → machine.State
  | .running c => c.inst
  | .ended outcome => outcome.2

theorem Keeps.advance
    (keeps : machine.Keeps module allowed kept)
    (resultsCount : Nat) (activation : machine.Activation) (pc : Nat)
    (frames : List machine.Frame) {inst : machine.State}
    (holds : kept inst) :
    kept (machine.advance resultsCount activation pc frames inst).inst := by
  unfold Machine.advance
  split
  · split
    · cases leaves : machine.leave activation resultsCount inst with
      | none => exact holds
      | some left => exact keeps.leave leaves holds
    · rename_i frame _
      cases leaves : machine.leave activation frame.calleeResultsCount inst with
      | none => exact holds
      | some left => exact keeps.leave leaves holds
  · exact holds

/-- What is kept is kept by every step that is allowed. -/
theorem Keeps.next
    (keeps : machine.Keeps module allowed kept)
    (entry : FuncIndex) (resultsCount : Nat) {c : machine.Configuration}
    (isAllowed : allowed c) (holds : kept c.inst) :
    kept (machine.next module entry resultsCount c).inst := by
  have executed := keeps.execute c isAllowed holds
  unfold Machine.next
  generalize machine.executeAt module c.activation c.pc c.inst = answer at executed
  obtain ⟨step, inst⟩ := answer
  rcases step with (fault | _) | step
  · exact executed
  · exact executed
  · cases step with
    | next => exact keeps.advance resultsCount c.activation (c.pc + 1) c.frames executed
    | jumpTo target => exact keeps.advance resultsCount c.activation target c.frames executed
    | call callee callerBaseData isIndirect =>
        dsimp only
        split
        · exact executed
        · cases enters : machine.enter module callee callerBaseData inst with
          | none => exact executed
          | some entered => exact keeps.enter enters executed

/-- What every allowed instruction keeps holds throughout a call. -/
theorem Keeps.during
    (keeps : machine.Keeps module allowed kept)
    {func : FuncIndex} {params : List Val} {resultsCount : Nat} {inst : machine.State}
    {c : machine.Configuration}
    (during : machine.During module allowed func params resultsCount inst c)
    (holds : kept inst) :
    kept c.inst := by
  obtain ⟨activation, started, enters, ran⟩ := during.ran
  apply ran.invariant
  · intro before after isAllowed stepped holds
    have stays := keeps.next func resultsCount isAllowed holds
    rw [stepped] at stays
    exact stays
  · exact keeps.enter enters (keeps.frame inst _ holds)

theorem Keeps.finish
    (keeps : machine.Keeps module allowed kept)
    (func : FuncIndex) {outcome : machine.Outcome FuncCallError Unit}
    (holds : kept outcome.2) :
    kept (machine.finish module func outcome).2 := by
  obtain ⟨ended, inst⟩ := outcome
  cases ended with
  | error fault => exact holds
  | ok _ =>
      change kept (machine.takeResults module func inst).2
      unfold takeResults
      split
      · exact holds
      · split
        · exact holds
        · exact keeps.frame inst _ holds

/-- What every allowed instruction keeps holds between calls. -/
theorem Keeps.between
    (keeps : machine.Keeps module allowed kept)
    {start inst : machine.State}
    (between : machine.Between module allowed start inst)
    (holds : kept start) :
    kept inst := by
  induction between with
  | start => exact holds
  | refused _ _ _ _ inductionHypothesis => exact keeps.frame _ _ inductionHypothesis
  | @called _ resultsCount _ _ func params _ during isAllowed ended inductionHypothesis =>
      apply keeps.finish
      have stays := keeps.next func resultsCount isAllowed
        (keeps.during during inductionHypothesis)
      rw [ended] at stays
      exact stays

end Instance

end Machine
end TraceWasm
