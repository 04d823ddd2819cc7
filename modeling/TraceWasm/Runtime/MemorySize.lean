import TraceWasm.Memory.Growth
import TraceWasm.Register.Machine
import TraceWasm.Stack.Machine

/-!
# What changes the memory's size

No instruction but `memory.grow` changes the size of the memory, and none changes
the configuration.
-/

namespace TraceWasm

/-- The host changes bytes of the memory, and not how many there are. -/
theorem HostProgram.length_run (program : HostProgram α) (m : LinearMemory) :
    (program.run m).2.inner.length = m.inner.length := by
  induction program generalizing m with
  | done result => rfl
  | sizeInBytes next inductionHypothesis => exact inductionHypothesis _ m
  | read offset len next inductionHypothesis => exact inductionHypothesis _ m
  | write offset data next inductionHypothesis =>
      rw [HostProgram.run, inductionHypothesis, LinearMemory.length_write]
  | copyWithin dest src len next inductionHypothesis =>
      rw [HostProgram.run, inductionHypothesis, LinearMemory.length_copyWithin]

section SameMemorySize

variable {frame registry base Instr FrameLayout : Type}

/-- The memory's size and the configuration are as before. -/
structure SameMemorySize (before after : Instance frame LinearMemory registry) : Prop where
  config : after.config = before.config
  length : after.memory.inner.length = before.memory.inner.length

variable {inst : Instance frame LinearMemory registry}

@[refl] theorem SameMemorySize.refl (inst : Instance frame LinearMemory registry) :
    SameMemorySize inst inst := ⟨rfl, rfl⟩

theorem SameMemorySize.trans
    {first second third : Instance frame LinearMemory registry}
    (left : SameMemorySize first second) (right : SameMemorySize second third) :
    SameMemorySize first third :=
  ⟨right.config.trans left.config, right.length.trans left.length⟩

/-- The frame store does not matter. -/
theorem SameMemorySize.ofFrame
    {newFrame : frame} {after : Instance frame LinearMemory registry}
    (kept : SameMemorySize { inst with frame := newFrame } after) :
    SameMemorySize inst after := ⟨kept.config, kept.length⟩

theorem sameMemorySize_withEffect
    {effect : Effect LinearMemory Unit}
    (length : effect.2.inner.length = inst.memory.inner.length) :
    SameMemorySize inst (inst.withEffect effect).2 := ⟨rfl, length⟩

/-- A store leaves the size of the memory. -/
theorem StoreOp.length_write (op : StoreOp) (m : LinearMemory) (address : Nat) (val : Value) :
    (op.write m address val).2.inner.length = m.inner.length := by
  cases op <;> exact LinearMemory.length_writeSized m _ _ _

/-- An operator other than `memory.grow` keeps the size. -/
theorem DataOp.sameMemorySize_effect
    (numerics : Numerics) (module : Module Instr FrameLayout)
    (inst : Instance frame LinearMemory registry) {op : DataOp Nat Unit}
    (notGrow : ∀ mem, op ≠ .memoryGrow mem) (operands : List Value) :
    SameMemorySize inst (op.effect numerics module inst operands).2 := by
  unfold DataOp.effect
  split
  case h_10 mem _ => exact (notGrow mem rfl).elim
  case h_2 =>
    split
    · exact ⟨rfl, rfl⟩
    · rfl
  case h_7 =>
    split
    · exact sameMemorySize_withEffect (StoreOp.length_write _ _ _ _)
    · rfl
  case h_11 => exact sameMemorySize_withEffect (LinearMemory.length_copyWithin _ _ _ _)
  case h_12 => exact sameMemorySize_withEffect (LinearMemory.length_fill _ _ _ _)
  case h_13 =>
    split
    · rfl
    · split
      · exact sameMemorySize_withEffect (LinearMemory.length_write _ _ _)
      · rfl
  all_goals rfl

/-- So does an imported function. -/
theorem sameMemorySize_callImported
    (host : ImportRegistry registry) (boundary : HostBoundary frame base)
    (callee : FuncIndex) (module : Module Instr FrameLayout) (isIndirect : Option Nat)
    (callerBaseData : base) :
    SameMemorySize inst
      (callImported host boundary callee module inst isIndirect callerBaseData).2 := by
  unfold callImported
  cases module.importedFunc callee with
  | none => rfl
  | some func =>
      dsimp only
      cases boundary.getParams inst.frame func.ty.params.length callerBaseData with
      | none => rfl
      | some args =>
          dsimp only
          cases typedArgs args.1 func.ty.params with
          | none => rfl
          | some vals =>
              dsimp only
              have length := HostProgram.length_run (host.execute inst.importRegistry
                func.moduleName func.funcName vals) inst.memory
              generalize (host.execute inst.importRegistry func.moduleName func.funcName
                vals).run inst.memory = reply at length
              obtain ⟨⟨answer, importRegistry⟩, memory⟩ := reply
              cases answer with
              | error err => exact ⟨rfl, length⟩
              | ok results =>
                  dsimp only
                  cases boundary.setResults args.2 results callerBaseData with
                  | none => exact ⟨rfl, length⟩
                  | some frame => exact ⟨rfl, length⟩

theorem sameMemorySize_dropData
    {after : Instance frame LinearMemory registry} {dataIndex : Nat}
    (dropped : DataOp.dropData inst dataIndex = some after) :
    SameMemorySize inst after := by
  obtain ⟨_, _, same⟩ := Option.bind_eq_some_iff.mp dropped
  cases same
  exact ⟨rfl, rfl⟩

end SameMemorySize

/-! ## The stack machine -/

namespace Stack

variable {registry : Type} {inst : StackInstance LinearMemory registry}

theorem sameMemorySize_proceed
    (frame : Option (Stack Value)) (step : Step StackCallerBaseData) :
    SameMemorySize inst (proceed inst frame step).2 := by
  cases frame with
  | none => rfl
  | some frame => exact ⟨rfl, rfl⟩

/-- So does a call. -/
theorem sameMemorySize_dispatch
    (host : ImportRegistry registry) (module : Module StackInstruction StackFrameLayout)
    (callee : FuncIndex) (isIndirect : Option Nat) (paramsCount : Nat)
    (inst : StackInstance LinearMemory registry) :
    SameMemorySize inst (dispatch host module callee isIndirect paramsCount inst).2 := by
  unfold dispatch
  split
  · rfl
  · dsimp only
    split
    · rfl
    · generalize called : callImported host boundary callee module inst isIndirect _ = answer
      have kept := congrArg Prod.snd called ▸
        sameMemorySize_callImported host boundary callee module isIndirect _
      obtain ⟨outcome, after⟩ := answer
      cases outcome with
      | ok _ => exact kept
      | error _ => exact kept

/-- So does every operator on data but `memory.grow`. -/
theorem sameMemorySize_executeData
    {numerics : Numerics} {module : Module StackInstruction StackFrameLayout}
    {op : DataOp Nat Unit}
    (notGrow : ∀ mem, op ≠ .memoryGrow mem) :
    SameMemorySize inst (executeData numerics module op inst).2 := by
  unfold executeData
  cases inst.frame.takeRun op.inputs with
  | none => rfl
  | some taken =>
      have kept := DataOp.sameMemorySize_effect numerics module
        { inst with frame := taken.2 } notGrow taken.1
      dsimp only
      generalize op.effect numerics module { inst with frame := taken.2 } taken.1 =
        answer at kept
      obtain ⟨outcome, after⟩ := answer
      cases outcome with
      | ok results => exact ⟨kept.config, kept.length⟩
      | error _ => exact ⟨kept.config, kept.length⟩

/-- No instruction but `memory.grow` changes the memory's size. -/
theorem sameMemorySize_execute
    {host : ImportRegistry registry} {numerics : Numerics}
    {module : Module StackInstruction StackFrameLayout} {instr : StackInstruction}
    {layout : StackFrameLayout} {base : StackCallerBaseData}
    (notGrow : instr ≠ .data (.memoryGrow ())) :
    SameMemorySize inst (execute host numerics module instr layout base inst).2 := by
  cases instr with
  | const value => exact sameMemorySize_proceed _ _
  | localGet index => exact sameMemorySize_proceed _ _
  | localSet index => exact sameMemorySize_proceed _ _
  | localTee index => exact sameMemorySize_proceed _ _
  | data op =>
      apply sameMemorySize_executeData
      intro mem same
      exact notGrow (congrArg StackInstruction.data same)
  | dataDrop dataIndex =>
      unfold execute
      dsimp only
      cases dropped : DataOp.dropData inst dataIndex with
      | none => rfl
      | some after => exact sameMemorySize_dropData dropped
  | nop => rfl
  | drop => exact sameMemorySize_proceed _ _
  | block => rfl
  | loop => rfl
  | ifOp elseIndex endIndex =>
      unfold execute
      dsimp only
      cases inst.frame.pop with
      | none => rfl
      | some popped =>
          dsimp only
          split
          · exact ⟨rfl, rfl⟩
          · split
            · exact ⟨rfl, rfl⟩
            · exact ⟨rfl, rfl⟩
  | elseOp ifEndIndex => rfl
  | endOp arity recordedHeight =>
      unfold execute
      dsimp only
      split
      · rfl
      · rfl
  | br target => exact sameMemorySize_proceed _ _
  | brIf target =>
      unfold execute
      dsimp only
      cases inst.frame.pop with
      | none => rfl
      | some popped =>
          dsimp only
          split
          · exact sameMemorySize_proceed _ _
          · exact ⟨rfl, rfl⟩
  | brTable startIndex len =>
      unfold execute
      dsimp only
      cases inst.frame.pop with
      | none => rfl
      | some popped =>
          dsimp only
          split
          · rfl
          · exact sameMemorySize_proceed _ _
  | returnOp target => exact sameMemorySize_proceed _ _
  | call funcIndex paramsCount => exact sameMemorySize_dispatch _ _ _ _ _ _
  | callIndirect tyIndex tableIndex =>
      unfold execute
      dsimp only
      cases inst.frame.pop with
      | none => rfl
      | some popped =>
          dsimp only
          split
          · exact ⟨rfl, rfl⟩
          · apply SameMemorySize.ofFrame
            exact sameMemorySize_dispatch _ _ _ _ _ _
  | unreachable => rfl

end Stack

/-! ## The register machine -/

namespace Register

variable {registry : Type} {inst : RegInstance LinearMemory registry}

theorem sameMemorySize_proceed
    (frame : Option RegFrame) (step : Step RegCallerBaseData) :
    SameMemorySize inst (proceed inst frame step).2 := by
  cases frame with
  | none => rfl
  | some frame => exact ⟨rfl, rfl⟩

theorem sameMemorySize_dispatch
    (host : ImportRegistry registry) (module : RegModule) (callee : FuncIndex)
    (isIndirect : Option Nat) (base : RegCallerBaseData) (callerBase : Nat)
    (inst : RegInstance LinearMemory registry) :
    SameMemorySize inst
      (dispatch host module callee isIndirect base callerBase inst).2 := by
  unfold dispatch
  dsimp only
  split
  · rfl
  split
  · rfl
  · generalize called : callImported host boundary callee module inst isIndirect _ = answer
    have kept := congrArg Prod.snd called ▸
      sameMemorySize_callImported host boundary callee module isIndirect _
    obtain ⟨outcome, after⟩ := answer
    cases outcome with
    | ok _ => exact kept
    | error _ => exact kept

/-- Reading an offset from the pool makes no other operator of an operator. -/
theorem resolveOffset_memoryGrow
    {layout : RegFrameLayout} {op resolved : DataOp Nat Unit}
    (found : resolveOffset layout op = some resolved)
    (notGrow : ∀ mem, op ≠ .memoryGrow mem) :
    ∀ mem, resolved ≠ .memoryGrow mem := by
  intro mem same
  unfold resolveOffset at found
  split at found
  · obtain ⟨_, _, made⟩ := Option.map_eq_some_iff.mp found
    rw [same] at made
    cases made
  · obtain ⟨_, _, made⟩ := Option.map_eq_some_iff.mp found
    rw [same] at made
    cases made
  · exact notGrow mem ((Option.some.inj found).trans same)

theorem sameMemorySize_executeData
    {numerics : Numerics} {module : RegModule} {layout : RegFrameLayout}
    {base : RegCallerBaseData} {op : DataOp Nat Unit} {input : List Slot}
    {outputStart : Nat}
    (notGrow : ∀ mem, op ≠ .memoryGrow mem) :
    SameMemorySize inst
      (executeData numerics module layout base op input outputStart inst).2 := by
  unfold executeData
  cases resolved : resolveOffset layout op with
  | none => rfl
  | some resolvedOp =>
      cases inst.frame.slotValues base input with
      | none => rfl
      | some operands =>
          have kept := DataOp.sameMemorySize_effect numerics module inst
            (resolveOffset_memoryGrow resolved notGrow) operands
          dsimp only
          generalize resolvedOp.effect numerics module inst operands = answer at kept
          obtain ⟨outcome, after⟩ := answer
          cases outcome with
          | ok results => exact kept.trans (sameMemorySize_proceed _ _)
          | error _ => exact kept

/-- No instruction but `memory.grow` changes the memory's size. -/
theorem sameMemorySize_execute
    {host : ImportRegistry registry} {numerics : Numerics} {module : RegModule}
    {instr : RegInstruction Slot} {layout : RegFrameLayout} {base : RegCallerBaseData}
    (notGrow : ∀ input outputStart, instr ≠ .data (.memoryGrow ()) input outputStart) :
    SameMemorySize inst (execute host numerics module instr layout base inst).2 := by
  cases instr with
  | localSet index input => exact sameMemorySize_proceed _ _
  | localTee index input => exact sameMemorySize_proceed _ _
  | localSpill index spillIndex => exact sameMemorySize_proceed _ _
  | data op input outputStart =>
      apply sameMemorySize_executeData
      intro mem same
      rw [same] at notGrow
      exact notGrow input outputStart rfl
  | dataDrop dataIndex =>
      unfold execute
      dsimp only
      cases dropped : DataOp.dropData inst dataIndex with
      | none => rfl
      | some after => exact sameMemorySize_dropData dropped
  | loop => rfl
  | ifOp cond elseIndex endIndex =>
      unfold execute
      dsimp only
      split
      · rfl
      · split
        · rfl
        · split
          · rfl
          · rfl
  | elseOp endIndex => rfl
  | endOp => rfl
  | br targetIndex => rfl
  | brIf cond mov targetIndex =>
      unfold execute
      dsimp only
      split
      · rfl
      · split
        · exact sameMemorySize_proceed _ _
        · rfl
  | brTable index brTargets =>
      unfold execute
      dsimp only
      split
      · rfl
      · exact sameMemorySize_proceed _ _
  | returnOp targetIndex => rfl
  | call funcIndex callerBase => exact sameMemorySize_dispatch _ _ _ _ _ _ _
  | callIndirect tyIndex tableIndex slot operands callerBase =>
      unfold execute
      dsimp only
      split
      · rfl
      · split
        · rfl
        · split
          · rfl
          · apply SameMemorySize.ofFrame
            exact sameMemorySize_dispatch _ _ _ _ _ _ _
  | unreachable => rfl
  | move mov => exact sameMemorySize_proceed _ _

end Register

end TraceWasm
