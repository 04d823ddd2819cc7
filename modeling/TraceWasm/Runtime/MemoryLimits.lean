import TraceWasm.Module.Placement
import TraceWasm.Runtime.MemorySize
import TraceWasm.Runtime.Steps

/-!
# The limits of the memory

Instantiation folds the declared maximum and the configured cap into one ceiling,
and every `memory.grow` checks the ceiling. Nothing checks the ceiling itself: it
exceeds the pages of a 32-bit memory when the cap does and no maximum is declared.
-/

namespace TraceWasm

open Instantiate

/-- The most pages a 32-bit memory can have. -/
def wasmMaxPages : Nat := 65536

/-- What `memory.grow` does to a memory, and the word it answers with. -/
inductive Grown (ceiling pages deltaInPages : Nat) (before : LinearMemory) :
    Value → LinearMemory → Prop where
  | refused
      (beyond : ceiling < pages + deltaInPages) :
      Grown ceiling pages deltaInPages before (.fromI32 (-1)) before
  /-- Every old byte is kept, and every new one is zero. -/
  | granted
      (within : pages + deltaInPages ≤ ceiling)
      (bytes : after.inner =
        before.inner ++ List.replicate (deltaInPages * wasmMemoryPageSize) 0) :
      Grown ceiling pages deltaInPages before (.fromI32 (BitVec.ofNat 32 pages)) after

/-- The memory is a whole number of pages, within every limit. -/
structure WithinLimits
    {Instr FrameLayout : Type} (module : Module Instr FrameLayout) (config : Config)
    (m : LinearMemory) (pages : Nat) : Prop where
  length : m.inner.length = pages * wasmMemoryPageSize
  declared : ∀ maximum ∈ declaredMaximum module, pages ≤ maximum
  configured : pages ≤ config.maxMemorySizeInPages
  addressable : pages ≤ wasmMaxPages

/-! ## How a machine grows its memory -/

section Growth

variable {registry : Type}

/-- Go on with a frame store, if there is one. -/
def Machine.resume
    (machine : Machine LinearMemory registry) (inst : machine.State) :
    Option machine.RuntimeFrame →
      machine.Outcome InstructionExecutionError (Step machine.CallerBaseData)
  | some frame => (.ok .next, { inst with frame })
  | none => (Attempt.panicked, inst)

/-- The memory that a request leaves. -/
def growMemory (memory : LinearMemory) (config : Config) (delta : Value) :
    Effect LinearMemory Nat :=
  Memory.grow memory delta.asOffset config.maxMemorySizeInPages

/-- A machine's `memory.grow`: where its operand is, and where its answer goes. -/
structure Growth (machine : Machine LinearMemory registry) where
  IsGrow : machine.Instr → Prop
  operand : machine.Instr → machine.CallerBaseData → machine.RuntimeFrame → Option Value
  answered : machine.Instr → machine.CallerBaseData → machine.RuntimeFrame → Value →
    Option machine.RuntimeFrame
  /-- No other instruction changes the size. -/
  others : ∀ module instr layout base inst, ¬IsGrow instr →
    SameMemorySize inst (machine.execute module instr layout base inst).2
  unreadable : ∀ module instr layout base inst, IsGrow instr →
    operand instr base inst.frame = none →
      machine.execute module instr layout base inst = (Attempt.panicked, inst)
  grows : ∀ module instr layout base inst delta answer, IsGrow instr →
    operand instr base inst.frame = some delta →
    (Instance.growAnswer (growMemory inst.memory inst.config delta).1 :
      Attempt InstructionExecutionError (List Value)) = .ok [answer] →
      machine.execute module instr layout base inst =
        machine.resume { inst with memory := (growMemory inst.memory inst.config delta).2 }
          (answered instr base inst.frame answer)

end Growth

/-- What `memory.grow` does on either machine. -/
theorem effect_memoryGrow
    {frame registry Instr FrameLayout : Type} (numerics : Numerics)
    (module : Module Instr FrameLayout) (inst : Instance frame LinearMemory registry)
    (delta : Value) :
    (DataOp.memoryGrow ()).effect numerics module inst [delta] =
      (Instance.growAnswer (growMemory inst.memory inst.config delta).1,
        { inst with memory := (growMemory inst.memory inst.config delta).2 }) := rfl

/-- A request on a memory of so many pages is granted or refused. -/
theorem grown_growMemory
    {memory : LinearMemory} {pages : Nat} {config : Config}
    (paged : memory.Paged pages) (delta : Value) :
    ∃ answer,
      (Instance.growAnswer (growMemory memory config delta).1 :
        Attempt InstructionExecutionError (List Value)) = .ok [answer] ∧
      Grown config.maxMemorySizeInPages pages delta.asOffset memory answer
        (growMemory memory config delta).2 := by
  unfold growMemory
  rw [LinearMemory.grow_eq paged config.memoryFits]
  by_cases within : pages + delta.asOffset ≤ config.maxMemorySizeInPages
  · rw [dif_pos within]
    exact ⟨_, rfl, .granted within rfl⟩
  · rw [dif_neg within]
    exact ⟨_, rfl, .refused (Nat.lt_of_not_le within)⟩

namespace Stack

variable {registry : Type} {inst : StackInstance LinearMemory registry}

/-- The operand on top of the stack. -/
def growOperand (s : Stack Value) : Option Value :=
  (s.takeRun 1).bind fun taken => taken.1.head?

/-- The stack with the answer in the operand's place. -/
def growAnswered (s : Stack Value) (answer : Value) : Option (Stack Value) :=
  (s.takeRun 1).map fun taken => taken.2.push answer

/-- A run of one value. -/
theorem takeRun_one
    {s rest : Stack Value} {run : List Value}
    (taken : s.takeRun 1 = some (run, rest)) :
    ∃ val, run = [val] := by
  unfold takeRun topRun at taken
  obtain ⟨_, top, same⟩ := Option.bind_eq_some_iff.mp taken
  obtain ⟨_, _, read⟩ := Option.bind_eq_some_iff.mp top
  cases same
  exact List.length_eq_one_iff.mp (le_of_readRun read).1

/-- The answer takes the operand's place on the stack. -/
theorem executeData_memoryGrow
    {numerics : Numerics} {module : Module StackInstruction StackFrameLayout}
    {rest : Stack Value} {delta answer : Value}
    (taken : inst.frame.takeRun 1 = some ([delta], rest))
    (answers : (Instance.growAnswer (growMemory inst.memory inst.config delta).1 :
      Attempt InstructionExecutionError (List Value)) = .ok [answer]) :
    executeData numerics module (.memoryGrow ()) inst =
      (.ok .next,
        { inst with
          memory := (growMemory inst.memory inst.config delta).2
          frame := rest.push answer }) := by
  unfold executeData
  rw [show (DataOp.memoryGrow () : DataOp Nat Unit).inputs = 1 from rfl, taken]
  dsimp only
  rw [effect_memoryGrow]
  dsimp only
  rw [answers]
  rfl

/-- `memory.grow` on the stack machine. -/
def growth (host : ImportRegistry registry) (numerics : Numerics) :
    Growth (machine host numerics : Machine LinearMemory registry) where
  IsGrow := fun instr : StackInstruction => instr = .data (.memoryGrow ())
  operand := fun _ _ frame => growOperand frame
  answered := fun _ _ frame answer => growAnswered frame answer
  others := fun _ _ _ _ _ notGrow => sameMemorySize_execute notGrow
  unreadable := by
    intro module instr layout base inst isGrow unreadable
    rw [isGrow]
    change executeData numerics module (.memoryGrow ()) inst = _
    cases taken : takeRun inst.frame 1 with
    | none =>
        unfold executeData
        rw [show (DataOp.memoryGrow () : DataOp Nat Unit).inputs = 1 from rfl, taken]
        rfl
    | some run =>
        obtain ⟨run, rest⟩ := run
        obtain ⟨delta, same⟩ := takeRun_one taken
        unfold growOperand at unreadable
        rw [taken, same] at unreadable
        cases unreadable
  grows := by
    intro module instr layout base inst delta answer isGrow readable answers
    unfold growOperand at readable
    obtain ⟨⟨run, rest⟩, taken, head⟩ := Option.bind_eq_some_iff.mp readable
    obtain ⟨val, same⟩ := takeRun_one taken
    rw [same] at taken head
    cases head
    rw [isGrow]
    refine (executeData_memoryGrow taken answers).trans ?_
    unfold growAnswered Machine.resume
    rw [taken]
    rfl

end Stack

namespace Register

variable {registry : Type} {inst : RegInstance LinearMemory registry}

/-- The instruction is a `memory.grow` with these operands. -/
def IsGrow (instr : RegInstruction Slot) : Prop :=
  ∃ input outputStart, instr = .data (.memoryGrow ()) input outputStart

/-- The single operand of a `memory.grow`. -/
def growOperand (instr : RegInstruction Slot) (base : RegCallerBaseData) (frame : RegFrame) :
    Option Value :=
  match instr with
  | .data _ input _ =>
      (frame.slotValues base input).bind fun operands =>
        match operands with
        | [delta] => some delta
        | _ => none
  | _ => none

/-- The file with the answer in the output register. -/
def growAnswered
    (instr : RegInstruction Slot) (base : RegCallerBaseData) (frame : RegFrame)
    (answer : Value) : Option RegFrame :=
  match instr with
  | .data _ _ outputStart => frame.setValues base outputStart [answer]
  | _ => none

/-- The answer goes to the output register. -/
theorem executeData_memoryGrow
    {numerics : Numerics} {module : RegModule} {layout : RegFrameLayout}
    {base : RegCallerBaseData} {input : List Slot} {outputStart : Nat}
    {delta answer : Value}
    (read : inst.frame.slotValues base input = some [delta])
    (answers : (Instance.growAnswer (growMemory inst.memory inst.config delta).1 :
      Attempt InstructionExecutionError (List Value)) = .ok [answer]) :
    executeData numerics module layout base (.memoryGrow ()) input outputStart inst =
      proceed { inst with memory := (growMemory inst.memory inst.config delta).2 }
        (inst.frame.setValues base outputStart [answer]) .next := by
  unfold executeData
  rw [read, show resolveOffset layout (.memoryGrow ()) = some (.memoryGrow ()) from rfl]
  dsimp only
  rw [effect_memoryGrow, answers]

/-- `memory.grow` on the register machine. -/
def growth (host : ImportRegistry registry) (numerics : Numerics) :
    Growth (machine host numerics : Machine LinearMemory registry) where
  IsGrow := IsGrow
  operand := growOperand
  answered := growAnswered
  others := by
    intro module instr layout base inst notGrow
    apply sameMemorySize_execute
    intro input outputStart same
    exact notGrow ⟨input, outputStart, same⟩
  unreadable := by
    intro module instr layout base inst isGrow unreadable
    obtain ⟨input, outputStart, same⟩ := isGrow
    rw [same] at unreadable ⊢
    change (RegFrame.slotValues inst.frame base input).bind _ = none at unreadable
    change executeData numerics module layout base (.memoryGrow ()) input outputStart
      inst = _
    unfold executeData
    cases read : RegFrame.slotValues inst.frame base input with
    | none => rfl
    | some operands =>
        rw [read] at unreadable
        -- without exactly one operand there is nothing to grow by
        match operands with
        | [] => rfl
        | [_] => cases unreadable
        | _ :: _ :: _ => rfl
  grows := by
    intro module instr layout base inst delta answer isGrow readable answers
    obtain ⟨input, outputStart, same⟩ := isGrow
    rw [same] at readable ⊢
    obtain ⟨operands, read, single⟩ := Option.bind_eq_some_iff.mp readable
    have one : operands = [delta] := by
      match operands with
      | [] => cases single
      | [_] =>
          cases single
          rfl
      | _ :: _ :: _ => cases single
    rw [one] at read
    refine (executeData_memoryGrow read answers).trans ?_
    unfold proceed Machine.resume growAnswered
    dsimp only
    cases RegFrame.setValues inst.frame base outputStart [answer] with
    | none => rfl
    | some frame => rfl

end Register

/-! ## Every run -/

section Runs

variable {registry : Type} {machine : Machine LinearMemory registry}
variable {host : ImportRegistry registry} {module : machine.Code}
variable {importRegistry : registry} {config : Config}

/-- A `memory.grow` that is about to run asks for no more pages in all than a
32-bit memory can have, or for more than the ceiling. -/
def Growth.AsksWithinReach
    (growth : Growth machine) (c : machine.Configuration) : Prop :=
  ∀ instr delta, c.activation.body.instructions[c.pc]? = some instr →
    growth.IsGrow instr →
    growth.operand instr c.activation.callerBaseData c.inst.frame = some delta →
    MemoryView.sizeInPages c.inst.memory + delta.asOffset ≤
        c.inst.config.maxMemorySizeInPages →
      MemoryView.sizeInPages c.inst.memory + delta.asOffset ≤ wasmMaxPages

/-- A `memory.grow` whose operand keeps within the pages of a 32-bit memory. -/
theorem Growth.asksWithinReach_of_le
    (growth : Growth machine) {c : machine.Configuration} {instr : machine.Instr} {delta : Value}
    (found : c.activation.body.instructions[c.pc]? = some instr)
    (readable : growth.operand instr c.activation.callerBaseData c.inst.frame = some delta)
    (within : MemoryView.sizeInPages c.inst.memory + delta.asOffset ≤ wasmMaxPages) :
    growth.AsksWithinReach c := by
  intro _ _ foundToo _ readableToo _
  cases found.symm.trans foundToo
  cases readable.symm.trans readableToo
  exact within

/-- A `memory.grow` that is about to run answers as it should. -/
def Growth.Answers
    (growth : Growth machine) (module : machine.Code) (c : machine.Configuration) : Prop :=
  ∀ instr delta, c.activation.body.instructions[c.pc]? = some instr →
    growth.IsGrow instr →
    growth.operand instr c.activation.callerBaseData c.inst.frame = some delta →
    ∃ answer after,
      Grown c.inst.config.maxMemorySizeInPages (MemoryView.sizeInPages c.inst.memory)
          delta.asOffset c.inst.memory answer after ∧
        machine.executeAt module c.activation c.pc c.inst =
          machine.resume { c.inst with memory := after }
            (growth.answered instr c.activation.callerBaseData c.inst.frame answer)

/-- A `memory.grow` that the ceiling admits leaves the pages that it asks for. -/
theorem Grown.length_of_within
    {ceiling pages deltaInPages : Nat} {before after : LinearMemory} {answer : Value}
    (grown : Grown ceiling pages deltaInPages before answer after)
    (paged : before.Paged pages)
    (within : pages + deltaInPages ≤ ceiling) :
    after.inner.length = (pages + deltaInPages) * wasmMemoryPageSize := by
  cases grown with
  | granted _ bytes =>
      rw [bytes, List.length_append, List.length_replicate, paged.1, Nat.add_mul]
  | refused beyond => exact absurd within (Nat.not_le_of_lt beyond)

/-- A `memory.grow` that the ceiling admits, and after which the function goes on, leaves
the pages that it asks for. -/
theorem Growth.next_of_granted
    (growth : Growth machine) {c : machine.Configuration} {entry : FuncIndex}
    {resultsCount pages : Nat} {instr : machine.Instr} {delta : Value}
    (found : c.activation.body.instructions[c.pc]? = some instr)
    (isGrow : growth.IsGrow instr)
    (readable : growth.operand instr c.activation.callerBaseData c.inst.frame = some delta)
    (room : ∀ answer, ∃ frame,
      growth.answered instr c.activation.callerBaseData c.inst.frame answer = some frame)
    (more : c.pc + 1 ≠ c.activation.body.instructions.length)
    (paged : c.inst.memory.Paged pages)
    (within : pages + delta.asOffset ≤ c.inst.config.maxMemorySizeInPages) :
    ∃ after, machine.next module entry resultsCount c = .running after ∧
      after.inst.memory.inner.length = (pages + delta.asOffset) * wasmMemoryPageSize := by
  obtain ⟨answer, answers, grown⟩ := @grown_growMemory _ _ c.inst.config paged delta
  obtain ⟨frame, answered⟩ := room answer
  have executed := growth.grows module instr c.activation.body.frameLayout
    c.activation.callerBaseData c.inst delta answer isGrow readable answers
  rw [answered] at executed
  unfold Machine.next Machine.executeAt
  rw [found]
  dsimp only
  rw [executed]
  unfold Machine.resume Machine.advance
  dsimp only
  rw [if_neg more]
  exact ⟨_, rfl, grown.length_of_within paged within⟩

/-- What is to hold of the memory in every run from an instance on. -/
structure KeepsMemoryLimits
    (growth : Growth machine) (module : machine.Code) (config : Config)
    (allowed : machine.Configuration → Prop) (start : machine.State) : Prop where
  between : ∀ inst, machine.Between module allowed start inst →
    (∃ pages, WithinLimits module config inst.memory pages) ∧
      start.memory.inner.length ≤ inst.memory.inner.length
  during : ∀ inst func params resultsCount c,
    machine.Between module allowed start inst →
    machine.During module allowed func params resultsCount inst c →
      (∃ pages, WithinLimits module config c.inst.memory pages) ∧
        inst.memory.inner.length ≤ c.inst.memory.inner.length ∧
        growth.Answers module c
  /-- The memory never shrinks from one step to the next. -/
  step : ∀ inst func params resultsCount c,
    machine.Between module allowed start inst →
    machine.During module allowed func params resultsCount inst c → allowed c →
      c.inst.memory.inner.length ≤
        (machine.next module func resultsCount c).inst.memory.inner.length

/-- The invariant of a run: the memory has grown from a given length, within the
ceiling that instantiation settled. -/
structure MemoryInvariant
    (module : machine.Code) (config : Config) (least : Nat) (inst : machine.State) :
    Prop where
  ceiling : inst.config.maxMemorySizeInPages = maxMemoryPages module config
  pages : ∃ pages, inst.memory.Paged pages ∧ pages ≤ maxMemoryPages module config ∧
    pages ≤ wasmMaxPages
  grown : least ≤ inst.memory.inner.length

/-- The invariant is within the limits. -/
theorem MemoryInvariant.withinLimits
    {least : Nat} {inst : machine.State}
    (invariant : MemoryInvariant module config least inst) :
    ∃ pages, WithinLimits module config inst.memory pages := by
  obtain ⟨pages, paged, within, addressable⟩ := invariant.pages
  refine ⟨pages, paged.1, ?_, ?_, addressable⟩
  · intro maximum declared
    have folded : maxMemoryPages module config ≤ maximum := by
      unfold maxMemoryPages
      rw [Option.mem_def.mp declared]
      exact Nat.min_le_left _ _
    exact Nat.le_trans within folded
  · exact Nat.le_trans within (maxMemoryPages_le module config)

/-- Whatever leaves the size of the memory keeps the invariant. -/
theorem MemoryInvariant.ofSameSize
    {least : Nat} {before after : machine.State}
    (invariant : MemoryInvariant module config least before)
    (same : SameMemorySize before after) :
    MemoryInvariant module config least after := by
  obtain ⟨pages, paged, within⟩ := invariant.pages
  refine ⟨?_, ⟨pages, ⟨same.length.trans paged.1, paged.2⟩, within⟩, ?_⟩
  · rw [same.config]
    exact invariant.ceiling
  · rw [same.length]
    exact invariant.grown

/-- A request within reach keeps the invariant. -/
theorem MemoryInvariant.ofGrown
    {least deltaInPages : Nat} {inst : machine.State} {answer : Value}
    {after : LinearMemory}
    (invariant : MemoryInvariant module config least inst)
    (grown : Grown inst.config.maxMemorySizeInPages (MemoryView.sizeInPages inst.memory)
      deltaInPages inst.memory answer after)
    (withinReach : MemoryView.sizeInPages inst.memory + deltaInPages ≤
        inst.config.maxMemorySizeInPages →
      MemoryView.sizeInPages inst.memory + deltaInPages ≤ wasmMaxPages) :
    MemoryInvariant module config least { inst with memory := after } := by
  obtain ⟨pages, paged, bounds⟩ := invariant.pages
  have ceiling := invariant.ceiling
  have least := invariant.grown
  rw [paged.sizeInPages] at grown withinReach
  cases grown with
  | refused _ => exact ⟨ceiling, ⟨pages, paged, bounds⟩, least⟩
  | granted within bytes =>
      have reach := withinReach within
      have length : after.inner.length = (pages + deltaInPages) * wasmMemoryPageSize := by
        rw [bytes, List.length_append, List.length_replicate, paged.1, Nat.add_mul]
      have longer : inst.memory.inner.length ≤ after.inner.length := by
        rw [length, paged.1]
        exact Nat.mul_le_mul_right _ (Nat.le_add_right _ _)
      refine ⟨ceiling, ⟨pages + deltaInPages, ⟨length, ?_⟩, ?_, reach⟩,
        Nat.le_trans least longer⟩
      · unfold wasmMaxPages at reach
        omega
      · rw [← ceiling]
        exact within

theorem MemoryInvariant.ofResume
    {least : Nat} {inst : machine.State}
    (invariant : MemoryInvariant module config least inst)
    (frame : Option machine.RuntimeFrame) :
    MemoryInvariant module config least (machine.resume inst frame).2 := by
  cases frame with
  | none => exact invariant
  | some frame => exact ⟨invariant.ceiling, invariant.pages, invariant.grown⟩

/-- Under the invariant a request is answered as it should be. -/
theorem MemoryInvariant.answers
    {least : Nat} (growth : Growth machine) {c : machine.Configuration}
    (invariant : MemoryInvariant module config least c.inst) :
    growth.Answers module c := by
  intro instr delta found isGrow readable
  obtain ⟨pages, paged, _⟩ := invariant.pages
  obtain ⟨answer, answers, grown⟩ := @grown_growMemory _ _ c.inst.config paged delta
  rw [paged.sizeInPages]
  refine ⟨answer, _, grown, ?_⟩
  unfold Machine.executeAt
  rw [found]
  exact growth.grows _ _ _ _ _ _ _ isGrow readable answers

/-- Every instruction whose request is within reach keeps the invariant. -/
theorem Growth.keeps
    (growth : Growth machine) (module : machine.Code) (config : Config) (least : Nat) :
    machine.Keeps module growth.AsksWithinReach
      (MemoryInvariant module config least) where
  frame := fun _ _ invariant => ⟨invariant.ceiling, invariant.pages, invariant.grown⟩
  execute := by
    intro c withinReach invariant
    cases found : c.activation.body.instructions[c.pc]? with
    | none =>
        unfold Machine.executeAt
        rw [found]
        exact invariant
    | some instr =>
        by_cases isGrow : growth.IsGrow instr
        · cases readable : growth.operand instr c.activation.callerBaseData
              c.inst.frame with
          | none =>
              unfold Machine.executeAt
              rw [found]
              dsimp only
              rw [growth.unreadable _ _ _ _ _ isGrow readable]
              exact invariant
          | some delta =>
              obtain ⟨answer, after, grown, executed⟩ :=
                invariant.answers growth instr delta found isGrow readable
              rw [executed]
              exact (invariant.ofGrown grown
                (withinReach instr delta found isGrow readable)).ofResume _
        · unfold Machine.executeAt
          rw [found]
          exact invariant.ofSameSize (growth.others _ _ _ _ _ isGrow)

/-- An instance starts with the memory that its module asks for. -/
theorem memoryInvariant_of_build
    {frame : machine.RuntimeFrame} {start : machine.State}
    (validated : ∀ memory ∈ module.memories, memory.initial ≤ wasmMaxPages)
    (built : build machine host module importRegistry config frame = .ok start) :
    MemoryInvariant module config start.memory.inner.length start := by
  unfold build at built
  obtain ⟨_, _, built⟩ := Attempt.bind_eq_ok.mp built
  obtain ⟨initial, allocated, built⟩ := Attempt.bind_eq_ok.mp built
  obtain ⟨_, _, built⟩ := Attempt.bind_eq_ok.mp built
  obtain ⟨_, _, built⟩ := Attempt.bind_eq_ok.mp built
  obtain ⟨_, _, built⟩ := Attempt.bind_eq_ok.mp built
  obtain ⟨⟨_, m⟩, applied, built⟩ := Attempt.bind_eq_ok.mp built
  cases built
  have kept := length_of_applyDatas applied
  have capped : initialPages module ≤ maxMemoryPages module config := by
    unfold initialMemory at allocated
    split at allocated
    · cases allocated
    · exact Nat.le_of_not_lt ‹_›
  have addressable : initialPages module ≤ wasmMaxPages := by
    unfold initialPages
    cases first : module.memories.head? with
    | none => exact Nat.zero_le _
    | some memory =>
        exact Nat.le_trans (Nat.mod_le _ _)
          (validated memory (List.mem_of_mem_head? first))
  refine ⟨rfl, ⟨initialPages module, ⟨?_, ?_⟩, capped, addressable⟩, Nat.le_refl _⟩
  · rw [@initialMemory_eq _ _ module (narrowConfig module config) capped] at allocated
    cases allocated
    exact kept.trans List.length_replicate
  · unfold wasmMaxPages at addressable
    omega

/-- A memory keeps its limits in every run whose steps keep the invariant. -/
theorem Growth.keepsMemoryLimits_of_keeps
    (growth : Growth machine) {allowed : machine.Configuration → Prop}
    {frame : machine.RuntimeFrame} {start : machine.State}
    (keeps : ∀ least, machine.Keeps module allowed (MemoryInvariant module config least))
    (validated : ∀ memory ∈ module.memories, memory.initial ≤ wasmMaxPages)
    (built : build machine host module importRegistry config frame = .ok start) :
    KeepsMemoryLimits growth module config allowed start := by
  have initial := memoryInvariant_of_build validated built
  have settled : ∀ inst, machine.Between module allowed start inst →
      MemoryInvariant module config start.memory.inner.length inst := by
    intro inst between
    exact (keeps _).between between initial
  have running : ∀ inst func params resultsCount c,
      machine.Between module allowed start inst →
      machine.During module allowed func params resultsCount inst c →
        MemoryInvariant module config inst.memory.inner.length c.inst := by
    intro inst func params resultsCount c between during
    have before := settled inst between
    exact (keeps _).during during ⟨before.ceiling, before.pages, Nat.le_refl _⟩
  constructor
  · intro inst between
    exact ⟨(settled inst between).withinLimits, (settled inst between).grown⟩
  · intro inst func params resultsCount c between during
    have invariant := running inst func params resultsCount c between during
    exact ⟨invariant.withinLimits, invariant.grown, invariant.answers growth⟩
  · intro inst func params resultsCount c between during isAllowed
    have invariant := running inst func params resultsCount c between during
    exact ((keeps c.inst.memory.inner.length).next func resultsCount isAllowed
      ⟨invariant.ceiling, invariant.pages, Nat.le_refl _⟩).grown

/-- With a ceiling that a 32-bit memory can reach, every run keeps the limits. -/
theorem Growth.keepsMemoryLimits_of_ceiling
    (growth : Growth machine) {frame : machine.RuntimeFrame} {start : machine.State}
    (validated : ∀ memory ∈ module.memories, memory.initial ≤ wasmMaxPages)
    (reachable : maxMemoryPages module config ≤ wasmMaxPages)
    (built : build machine host module importRegistry config frame = .ok start) :
    KeepsMemoryLimits growth module config (fun _ => True) start := by
  apply growth.keepsMemoryLimits_of_keeps _ validated built
  intro least
  have keeps := growth.keeps module config least
  refine ⟨keeps.frame, ?_⟩
  intro c _ invariant
  apply keeps.execute c _ invariant
  intro instr delta _ _ _ within
  rw [invariant.ceiling] at within
  exact Nat.le_trans within reachable

end Runs

/-- On either machine the memory keeps its limits in every run in which no request
that the ceiling admits asks for more than a 32-bit memory can have. -/
theorem memory_keeps_limits {registry : Type} (host : ImportRegistry registry)
    (numerics : Numerics) (importRegistry : registry) (config : Config) :
    (∀ (module : Module Stack.StackInstruction Stack.StackFrameLayout) frame start,
      (∀ memory ∈ module.memories, memory.initial ≤ wasmMaxPages) →
      build (Stack.machine host numerics) host module importRegistry config frame =
          .ok start →
        KeepsMemoryLimits (Stack.growth host numerics) module config
          (Stack.growth host numerics).AsksWithinReach start) ∧
      ∀ (module : Register.RegModule) frame start,
        (∀ memory ∈ module.memories, memory.initial ≤ wasmMaxPages) →
        build (Register.machine host numerics) host module importRegistry config frame =
            .ok start →
          KeepsMemoryLimits (Register.growth host numerics) module config
            (Register.growth host numerics).AsksWithinReach start := by
  constructor
  · intro module frame start validated built
    exact Growth.keepsMemoryLimits_of_keeps _
      ((Stack.growth host numerics).keeps module config) validated built
  · intro module frame start validated built
    exact Growth.keepsMemoryLimits_of_keeps _
      ((Register.growth host numerics).keeps module config) validated built

/-! ### Growing within reach and beyond it -/

section Growing

open Stack (StackInstruction StackFrameLayout)
open Register (RegInstruction RegFrameLayout Slot)

/-- A module whose memory starts empty and has no maximum, with one function. -/
def growing {Instr FrameLayout : Type} (body : FuncBody Instr FrameLayout) :
    Module Instr FrameLayout where
  types := [⟨[], [.i32]⟩]
  funcDecls := [⟨⟨0⟩, .«local»⟩]
  importedFuncCount := 0
  funcBodies := [body]
  tables := []
  memories := [⟨0, none⟩]
  globals := []
  importedGlobalCount := 0
  exports := fun _ => none
  exportedFuncName := fun _ => none
  startSection := none
  elements := []
  datas := []

/-- A configuration whose cap is one page more than a 32-bit memory can have. -/
def growingConfig : Config := Config.default.setMaxMemorySizeInPages 65537 (by decide)

/-- The instance of such a module. -/
def growingStart {Instr FrameLayout Frame : Type} (body : FuncBody Instr FrameLayout)
    (frame : Frame) : Instance Frame LinearMemory Unit :=
  ⟨.zeros 0 (by decide), frame, (), narrowConfig (growing body) growingConfig, [], [], []⟩

/-- A function that asks for so many pages. -/
def growingBody (pages : BitVec 32) : FuncBody StackInstruction StackFrameLayout where
  locals := []
  instructions := [.const (.i32 pages), .data (.memoryGrow ()), .endOp 1 0]
  instructionOffsets := [0, 4, 6]
  frameLayout := ⟨[]⟩

/-- The call at its `memory.grow`, with the operand on the stack. -/
def growingRequest (pages : BitVec 32) : hostlessMachine.Configuration where
  activation := ⟨0, growingBody pages, ⟨0, 0⟩⟩
  pc := 1
  frames := []
  inst := growingStart (growingBody pages) ⟨[.fromI32 pages], 1⟩

/-- The same function on the register machine, which reads the operand from a constant
slot. -/
def growingRegisterBody (pages : BitVec 32) :
    FuncBody (RegInstruction Slot) RegFrameLayout where
  locals := []
  instructions := [.data (.memoryGrow ()) [0] 1, .endOp]
  instructionOffsets := [4, 6]
  frameLayout := ⟨1, 0, 0, [.i32 pages], []⟩

/-- The register machine over the host without functions. -/
abbrev hostlessRegisterMachine : Machine LinearMemory Unit :=
  Register.machine emptyHost hostlessNumerics

/-- The call at its `memory.grow`, with the pages in the slot of the constant. -/
def growingRegisterRequest (pages : BitVec 32) : hostlessRegisterMachine.Configuration where
  activation := ⟨0, growingRegisterBody pages, ⟨0⟩⟩
  pc := 0
  frames := []
  inst := growingStart (growingRegisterBody pages) ⟨[.fromI32 pages, 0]⟩

/-- An `i32` is read as an offset without its sign. -/
theorem asOffset_fromI32 (word : BitVec 32) : (Value.fromI32 word).asOffset = word.toNat := by
  unfold Value.asOffset Value.asI32 Value.fromI32
  rw [BitVec.setWidth_setWidth_of_le word (by decide), BitVec.setWidth_eq]

/-- The stack machine grants a request within the cap. -/
theorem growingRequest_granted
    {allowed : hostlessMachine.Configuration → Prop} {pages : BitVec 32}
    (within : pages.toNat ≤ 65537)
    (entry : allowed ⟨⟨0, growingBody pages, ⟨0, 0⟩⟩, 0, [],
      growingStart (growingBody pages) emptyStack⟩)
    (request : allowed (growingRequest pages)) :
    ∃ after, hostlessMachine.During (growing (growingBody pages)) allowed 0 [] 1
        (growingStart (growingBody pages) emptyStack) after ∧
      after.inst.memory.inner.length = pages.toNat * wasmMemoryPageSize := by
  have granted := @Growth.next_of_granted Unit hostlessMachine (growing (growingBody pages))
    (Stack.growth emptyHost hostlessNumerics) (growingRequest pages) 0 1 0
    (.data (.memoryGrow ())) (.fromI32 pages) rfl rfl rfl (fun answer => ⟨_, rfl⟩)
    (show 2 ≠ 3 by decide) ⟨rfl, by decide⟩
  rw [asOffset_fromI32, Nat.zero_add] at granted
  obtain ⟨after, stepped, length⟩ := granted within
  exact ⟨after, ⟨_, _, rfl, .step (.step .start entry rfl) request stepped⟩, length⟩

/-- So does the register machine. -/
theorem growingRegisterRequest_granted
    {allowed : hostlessRegisterMachine.Configuration → Prop} {pages : BitVec 32}
    (within : pages.toNat ≤ 65537)
    (request : allowed (growingRegisterRequest pages)) :
    ∃ after, hostlessRegisterMachine.During (growing (growingRegisterBody pages)) allowed 0 []
        1 (growingStart (growingRegisterBody pages) .empty) after ∧
      after.inst.memory.inner.length = pages.toNat * wasmMemoryPageSize := by
  have granted := @Growth.next_of_granted Unit hostlessRegisterMachine
    (growing (growingRegisterBody pages)) (Register.growth emptyHost hostlessNumerics)
    (growingRegisterRequest pages) 0 1 0 (.data (.memoryGrow ()) [0] 1) (.fromI32 pages) rfl
    ⟨_, _, rfl⟩ rfl (fun answer => ⟨_, rfl⟩) (show 1 ≠ 2 by decide) ⟨rfl, by decide⟩
  rw [asOffset_fromI32, Nat.zero_add] at granted
  obtain ⟨after, stepped, length⟩ := granted within
  exact ⟨after, ⟨_, _, rfl, .step .start request stepped⟩, length⟩

/-- Both machines keep the limits of a memory that grows by one page. -/
theorem memory_keeps_limits_growing :
    (KeepsMemoryLimits (Stack.growth emptyHost hostlessNumerics) (growing (growingBody 1))
        growingConfig (Stack.growth emptyHost hostlessNumerics).AsksWithinReach
        (growingStart (growingBody 1) emptyStack) ∧
      ∃ c, hostlessMachine.During (growing (growingBody 1))
          (Stack.growth emptyHost hostlessNumerics).AsksWithinReach 0 [] 1
          (growingStart (growingBody 1) emptyStack) c ∧
        c.inst.memory.inner.length = wasmMemoryPageSize) ∧
      KeepsMemoryLimits (Register.growth emptyHost hostlessNumerics)
          (growing (growingRegisterBody 1)) growingConfig
          (Register.growth emptyHost hostlessNumerics).AsksWithinReach
          (growingStart (growingRegisterBody 1) .empty) ∧
        ∃ c, hostlessRegisterMachine.During (growing (growingRegisterBody 1))
            (Register.growth emptyHost hostlessNumerics).AsksWithinReach 0 [] 1
            (growingStart (growingRegisterBody 1) .empty) c ∧
          c.inst.memory.inner.length = wasmMemoryPageSize := by
  have limits := memory_keeps_limits emptyHost hostlessNumerics () growingConfig
  have empty : ∀ memory ∈ [MemoryType.mk 0 none], memory.initial ≤ wasmMaxPages :=
    List.forall_mem_singleton.mpr (Nat.zero_le _)
  refine ⟨⟨limits.1 _ emptyStack _ empty rfl, ?_⟩, limits.2 _ .empty _ empty rfl, ?_⟩
  · apply @growingRequest_granted _ 1 (by decide)
    · -- nothing asks for pages yet
      rintro _ _ ⟨⟩ ⟨⟩
    · exact Growth.asksWithinReach_of_le _ rfl rfl (by decide)
  · apply @growingRegisterRequest_granted _ 1 (by decide)
    exact Growth.asksWithinReach_of_le _ rfl rfl (by decide)

/-- A cap beyond 65536 pages admits a memory beyond them. -/
theorem memory_exceeds_limits :
    ¬KeepsMemoryLimits (Stack.growth emptyHost hostlessNumerics)
        (growing (growingBody 65537)) growingConfig (fun _ => True)
        (growingStart (growingBody 65537) emptyStack) := by
  intro keeps
  obtain ⟨after, reached, length⟩ :=
    @growingRequest_granted (fun _ => True) 65537 (by decide) trivial trivial
  obtain ⟨pages, within⟩ := (keeps.during _ 0 [] 1 after .start reached).1
  have addressable := within.addressable
  have same := within.length.symm.trans length
  unfold wasmMemoryPageSize at same
  unfold wasmMaxPages at addressable
  rw [show (65537 : BitVec 32).toNat = 65537 from rfl] at same
  omega

end Growing

end TraceWasm
