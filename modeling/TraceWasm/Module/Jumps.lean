import TraceWasm.Register.Machine
import TraceWasm.Register.Structured
import TraceWasm.Runtime.Closed
import TraceWasm.Stack.Jumps

/-!
# Where the code of both machines goes

A jump of a lowered body goes where the structure of the body wants it to, on either
machine, and the body is left behind the `End` of the function only.
-/

namespace TraceWasm

/-! ## Jumps go to targets -/

section Execute

variable {memory registry : Type} [Memory memory]
  {host : ImportRegistry registry} {numerics : Numerics}

namespace Stack

variable {module : Module StackInstruction StackFrameLayout} {instr : StackInstruction}
  {layout : StackFrameLayout} {base : StackCallerBaseData} {target : Nat}
  {inst : StackInstance memory registry}

/-- What goes on with another frame goes where it is told. -/
theorem proceed_eq_ok
    {frame : Option (Stack Value)} {step other : Step StackCallerBaseData}
    (executed : (proceed inst frame step).1 = .ok other) :
    step = other := by
  cases frame with
  | none => cases executed
  | some frame => exact Except.ok.inj executed

/-- A call does not jump. -/
theorem dispatch_ne_jumpTo
    {callee : FuncIndex} {isIndirect : Option Nat} {paramsCount : Nat} :
    (dispatch host module callee isIndirect paramsCount inst).1 ≠ .ok (.jumpTo target) := by
  intro executed
  unfold dispatch at executed
  split at executed
  · cases executed
  · dsimp only at executed
    split at executed
    · cases executed
    · split at executed <;> cases executed

/-- The arm that an index selects is one of the arms. -/
theorem mem_of_selectArm
    {targets : List Target} {index : Nat} {arm : Target}
    (selected : selectArm targets index = some arm) :
    arm ∈ targets := by
  obtain ⟨_, _, found⟩ := Option.bind_eq_some_iff.mp selected
  exact List.mem_of_getElem? found

/-- The targets of the arms that are read are those of the run. -/
theorem mem_armsOf_of_readRun
    {branches arms : List Target} {start len : Nat} {arm : Target}
    (isRun : readRun branches start len = some arms) (member : arm ∈ arms) :
    arm.targetIndex ∈ armsOf branches start len := by
  obtain ⟨length, inside⟩ := le_of_readRun isRun
  have some : len ≠ 0 := by
    rintro rfl
    rw [List.eq_nil_of_length_eq_zero length] at member
    cases member
  rw [readRun_of_le (inside some)] at isRun
  unfold armsOf
  rw [Option.some.inj isRun]
  exact List.mem_map_of_mem member

/-- A jump goes to one of the instruction's targets. -/
theorem target_of_execute
    (executed : (execute host numerics module instr layout base inst).1 =
      .ok (.jumpTo target)) :
    target ∈ (instr.control layout.brTargetsArena).targets := by
  unfold execute at executed
  cases instr with
  | ifOp elseIndex endIndex =>
      dsimp only at executed
      split at executed
      · cases executed
      · split at executed
        · cases executed
        · cases elseIndex with
          | none =>
              cases executed
              exact List.mem_singleton_self _
          | some elseIndex =>
              cases executed
              exact List.mem_singleton_self _
  | elseOp endIndex =>
      cases executed
      exact List.mem_singleton_self _
  | br arm =>
      cases proceed_eq_ok executed
      exact List.mem_singleton_self _
  | returnOp arm =>
      cases proceed_eq_ok executed
      exact List.mem_singleton_self _
  | brIf arm =>
      dsimp only at executed
      split at executed
      · cases executed
      · split at executed
        · cases proceed_eq_ok executed
          exact List.mem_singleton_self _
        · cases executed
  | brTable start len =>
      dsimp only at executed
      split at executed
      · cases executed
      · split at executed
        · cases executed
        · rename_i arm selected
          cases proceed_eq_ok executed
          obtain ⟨arms, isRun, selected⟩ := Option.bind_eq_some_iff.mp selected
          exact mem_armsOf_of_readRun isRun (mem_of_selectArm selected)
  | endOp arity recordedHeight =>
      dsimp only at executed
      split at executed <;> cases executed
  | data op =>
      dsimp only at executed
      unfold executeData at executed
      split at executed
      · cases executed
      · split at executed <;> cases executed
  | dataDrop dataIndex =>
      dsimp only at executed
      split at executed <;> cases executed
  | call funcIndex paramsCount => exact (dispatch_ne_jumpTo executed).elim
  | callIndirect tyIndex tableIndex =>
      dsimp only at executed
      split at executed
      · cases executed
      · split at executed
        · cases executed
        · exact (dispatch_ne_jumpTo executed).elim
  | const value => cases executed
  | localGet index => cases proceed_eq_ok executed
  | localSet index => cases proceed_eq_ok executed
  | localTee index => cases proceed_eq_ok executed
  | drop => cases proceed_eq_ok executed
  | _ => cases executed

end Stack

namespace Register

variable {module : RegModule} {instr : RegInstruction Slot} {layout : RegFrameLayout}
  {base : RegCallerBaseData} {target : Nat} {inst : RegInstance memory registry}

/-- What goes on with another register file goes where it is told. -/
theorem proceed_eq_ok
    {frame : Option RegFrame} {step other : Step RegCallerBaseData}
    (executed : (proceed inst frame step).1 = .ok other) :
    step = other := by
  cases frame with
  | none => cases executed
  | some frame => exact Except.ok.inj executed

/-- A call does not jump. -/
theorem dispatch_ne_jumpTo
    {callee : FuncIndex} {isIndirect : Option Nat} {callerBase : Nat} :
    (dispatch host module callee isIndirect base callerBase inst).1 ≠ .ok (.jumpTo target) := by
  intro executed
  unfold dispatch at executed
  dsimp only at executed
  split at executed
  · cases executed
  split at executed
  · cases executed
  · split at executed <;> cases executed

/-- The arm that an index selects is one of the arms. -/
theorem mem_of_selectArm
    {targets : List (RegBrTableTarget Slot)} {index : Nat} {arm : RegBrTableTarget Slot}
    (selected : selectArm targets index = some arm) :
    arm ∈ targets := by
  obtain ⟨_, _, found⟩ := Option.bind_eq_some_iff.mp selected
  exact List.mem_of_getElem? found

/-- A jump goes to one of the instruction's targets. -/
theorem target_of_execute
    (executed : (execute host numerics module instr layout base inst).1 =
      .ok (.jumpTo target)) :
    target ∈ instr.control.targets := by
  unfold execute at executed
  cases instr with
  | ifOp condition elseIndex endIndex =>
      dsimp only at executed
      split at executed
      · cases executed
      · split at executed
        · cases executed
        · cases elseIndex with
          | none =>
              cases executed
              exact List.mem_singleton_self _
          | some elseIndex =>
              cases executed
              exact List.mem_singleton_self _
  | elseOp endIndex =>
      cases executed
      exact List.mem_singleton_self _
  | br targetIndex =>
      cases executed
      exact List.mem_singleton_self _
  | returnOp targetIndex =>
      cases executed
      exact List.mem_singleton_self _
  | brIf condition mov targetIndex =>
      dsimp only at executed
      split at executed
      · cases executed
      · split at executed
        · cases proceed_eq_ok executed
          exact List.mem_singleton_self _
        · cases executed
  | brTable index brTargets =>
      dsimp only at executed
      split at executed
      · cases executed
      · rename_i arm selected
        cases proceed_eq_ok executed
        obtain ⟨_, _, selected⟩ := Option.bind_eq_some_iff.mp selected
        exact List.mem_map_of_mem (mem_of_selectArm selected)
  | data op input outputStart =>
      dsimp only at executed
      unfold executeData at executed
      split at executed
      · split at executed
        · cases proceed_eq_ok executed
        · cases executed
      · cases executed
  | dataDrop dataIndex =>
      dsimp only at executed
      split at executed <;> cases executed
  | call funcIndex callerBase => exact (dispatch_ne_jumpTo executed).elim
  | callIndirect tyIndex tableIndex slot operands callerBase =>
      dsimp only at executed
      split at executed
      · cases executed
      · split at executed
        · cases executed
        · split at executed
          · cases executed
          · exact (dispatch_ne_jumpTo executed).elim
  | localSet index input => cases proceed_eq_ok executed
  | localTee index input => cases proceed_eq_ok executed
  | localSpill index spillIndex => cases proceed_eq_ok executed
  | move mov => cases proceed_eq_ok executed
  | _ => cases executed

end Register

end Execute

/-! ## Lowered bodies -/

/-- Structured code ends with the `End` of the function. -/
theorem Structured.getLast?_eq
    {ops : List Operator} {lowered : Nat → Prop} {starts : Nat → Nat} {code : List Control}
    (structured : Structured ops lowered starts code)
    (isLast : ops[ops.length - 1]? = some .endOp) (isLowered : lowered (ops.length - 1)) :
    code.getLast? = some .endOp := by
  have inside := (List.getElem?_eq_some_iff.mp isLast).1
  have added := structured.steers _ _ isLast isLowered rfl
  have size := structured.last
  rw [Nat.sub_add_cancel (show 1 ≤ ops.length by omega)] at added
  have own : OwnIndex starts (ops.length - 1) (code.length - 1) := by
    unfold OwnIndex
    rw [Nat.sub_add_cancel (show 1 ≤ ops.length by omega)]
    omega
  have found := List.getElem?_eq_getElem (show code.length - 1 < code.length by omega)
  rw [List.getLast?_eq_getElem?, found]
  exact congrArg some (structured.own _ _ _ _ isLast own found)

/-- The instructions of a body go where its structure wants them to, each with the byte
offset of its operator. Every jump stays in the code, which ends with an `End`. -/
structure JumpsFollow
    (located : List (Operator × Nat)) (lowered : Nat → Prop) (code : List Control)
    (offsets : List Nat) : Prop where
  structured : ∃ starts, Structured (located.map Prod.fst) lowered starts code ∧
    OffsetsParallel located starts code offsets
  inside : ∀ control ∈ code, ∀ target ∈ control.targets, target < code.length
  last : code.getLast? = some .endOp

/-- Code that is structured follows the structure. -/
theorem JumpsFollow.of_structured
    {located : List (Operator × Nat)} {lowered : Nat → Prop} {starts : Nat → Nat}
    {code : List Control} {offsets : List Nat}
    (structured : Structured (located.map Prod.fst) lowered starts code)
    (parallel : OffsetsParallel located starts code offsets)
    (isLast : (located.map Prod.fst)[(located.map Prod.fst).length - 1]? = some .endOp)
    (isLowered : lowered ((located.map Prod.fst).length - 1)) :
    JumpsFollow located lowered code offsets where
  structured := ⟨starts, structured, parallel⟩
  inside := fun _ member _ isTarget => structured.target_lt member isTarget
  last := structured.getLast?_eq isLast isLowered

/-- Execution from the first instruction is in the body until it leaves it behind the
function's `End`, in whatever module and in whatever call. -/
structure StaysInside {memory registry : Type}
    (machine : Machine memory registry) (body : machine.Body) : Prop where
  closed : ∀ module, machine.Closed module body
  during : ∀ module allowed func params resultsCount inst c,
    machine.During module allowed func params resultsCount inst c →
    c.activation.body = body → c.pc < body.instructions.length

/-- So it is where the code ends with an `End` and its jumps stay inside. -/
theorem StaysInside.of_closed
    {memory registry : Type} {machine : Machine memory registry} {body : machine.Body}
    (closed : ∀ module, machine.Closed module body) :
    StaysInside machine body where
  closed := closed
  during := by
    intro module allowed func params resultsCount inst c during same
    have inside := during.inside
    rw [same] at inside
    exact inside (closed module)

/-- What follows from the code, as far as jumps go, for execution. -/
theorem StaysInside.of_follows
    {memory registry : Type} {machine : Machine memory registry} {body : machine.Body}
    {located : List (Operator × Nat)} {lowered : Nat → Prop} {offsets : List Nat}
    {control : machine.Instr → Control}
    (follows : JumpsFollow located lowered (body.instructions.map control) offsets)
    (jumps : ∀ module (base : machine.CallerBaseData) (inst : machine.State)
      (instr : machine.Instr) (target : Nat),
      (machine.execute module instr body.frameLayout base inst).1 = .ok (.jumpTo target) →
        target ∈ (control instr).targets)
    (ends : ∀ instr, control instr = .endOp → machine.IsEnd instr) :
    StaysInside machine body := by
  apply StaysInside.of_closed
  intro module
  apply Machine.closed_of_jumps control (jumps module)
  · intro instr member target isTarget
    have inside := follows.inside _ (List.mem_map_of_mem member) target isTarget
    rwa [List.length_map] at inside
  · have last := follows.last
    rw [List.getLast?_map] at last
    obtain ⟨instr, isLast, isEnd⟩ := Option.map_eq_some_iff.mp last
    exact ⟨instr, isLast, ends instr isEnd⟩

/-- The code of the stack machine follows the structure of the body. -/
theorem Stack.jumpsFollow
    {mod : ModuleTypes} {func : FuncHeader} {located : List (Operator × Nat)}
    {instructions : List Stack.StackInstruction} {offsets : List Nat}
    {frame : Stack.StackFrameLayout}
    (validates : Validates mod func (located.map Prod.fst))
    (emitted : Stack.emitter mod func located = .ok (instructions, offsets, frame)) :
    JumpsFollow located (fun _ => True)
      (instructions.map (Stack.StackInstruction.control frame.brTargetsArena)) offsets := by
  obtain ⟨body, lowered, same⟩ := Attempt.bind_eq_ok.mp emitted
  cases same
  obtain ⟨structured, parallel⟩ := Stack.structured_of_emitted validates lowered
  exact .of_structured structured parallel (last_of_wellNested validates.wellNested) trivial

/-- So does that of the register machine, which has none for dead code. -/
theorem Register.jumpsFollow
    {mod : ModuleTypes} {func : FuncHeader} {located : List (Operator × Nat)}
    {instructions : List (Register.RegInstruction Register.Slot)} {offsets : List Nat}
    {frame : Register.RegFrameLayout}
    (validates : Validates mod func (located.map Prod.fst))
    (emitted : Register.emitter mod func located = .ok (instructions, offsets, frame)) :
    JumpsFollow located (fun position => ¬DeadAt (located.map Prod.fst) position)
      (instructions.map Register.RegInstruction.control) offsets := by
  obtain ⟨starts, structured, parallel⟩ := Register.structured_of_emitted validates emitted
  have wellNested := validates.wellNested
  exact .of_structured structured parallel (last_of_wellNested wellNested)
    (live_of_last wellNested (last_of_wellNested wellNested))

/-- On both machines every jump of a lowered body goes where the structure of the body
wants it to, the offsets are parallel to the instructions, and execution leaves the body
behind the function's `End` only. -/
theorem lowered_bodies_follow_structure :
    (∀ (mod : ModuleTypes) (func : FuncHeader) (located : List (Operator × Nat))
        (instructions : List Stack.StackInstruction) (offsets : List Nat)
        (frame : Stack.StackFrameLayout),
      Validates mod func (located.map Prod.fst) →
      Stack.emitter mod func located = .ok (instructions, offsets, frame) →
        JumpsFollow located (fun _ => True)
            (instructions.map (Stack.StackInstruction.control frame.brTargetsArena))
            offsets ∧
          ∀ (memory registry : Type) [Memory memory] (host : ImportRegistry registry)
            (numerics : Numerics) (locals : List ValType),
            StaysInside (@Stack.machine memory registry _ host numerics)
              ⟨locals, instructions, offsets, frame⟩) ∧
      ∀ (mod : ModuleTypes) (func : FuncHeader) (located : List (Operator × Nat))
        (instructions : List (Register.RegInstruction Register.Slot)) (offsets : List Nat)
        (frame : Register.RegFrameLayout),
        Validates mod func (located.map Prod.fst) →
        Register.emitter mod func located = .ok (instructions, offsets, frame) →
          JumpsFollow located (fun position => ¬DeadAt (located.map Prod.fst) position)
              (instructions.map Register.RegInstruction.control) offsets ∧
            ∀ (memory registry : Type) [Memory memory] (host : ImportRegistry registry)
              (numerics : Numerics) (locals : List ValType),
              StaysInside (@Register.machine memory registry _ host numerics)
                ⟨locals, instructions, offsets, frame⟩ := by
  constructor
  · intro mod func located instructions offsets frame validates emitted
    have follows := Stack.jumpsFollow validates emitted
    refine ⟨follows, ?_⟩
    intro memory registry _ host numerics locals
    apply StaysInside.of_follows follows
    · intro module base inst instr target executed
      exact Stack.target_of_execute executed
    · intro instr isEnd
      cases instr <;> first | exact ⟨_, _, rfl⟩ | cases isEnd
  · intro mod func located instructions offsets frame validates emitted
    have follows := Register.jumpsFollow validates emitted
    refine ⟨follows, ?_⟩
    intro memory registry _ host numerics locals
    apply StaysInside.of_follows follows
    · intro module base inst instr target executed
      exact Register.target_of_execute executed
    · intro instr isEnd
      cases instr <;> first | rfl | cases isEnd

/-- A body that leaves a block with a value, on both machines. -/
theorem lowered_bodies_follow_structure_leaving :
    JumpsFollow Stack.leavingOperators (fun _ => True)
        (Stack.leavingBody.instructions.map (Stack.StackInstruction.control []))
        [0, 2, 4, 6, 7] ∧
      ∃ instructions offsets frame,
        Register.emitter ⟨[], []⟩ ⟨0, 1, 0, le_rfl, Nat.zero_le _⟩ Stack.leavingOperators =
          .ok (instructions, offsets, frame) ∧
        JumpsFollow Stack.leavingOperators
          (fun position => ¬DeadAt (Stack.leavingOperators.map Prod.fst) position)
          (instructions.map Register.RegInstruction.control) offsets := by
  have validates : Validates ⟨[], []⟩ ⟨0, 1, 0, le_rfl, Nat.zero_le _⟩
      (Stack.leavingOperators.map Prod.fst) := ⟨_, rfl, rfl⟩
  refine ⟨?_, _, _, _, rfl, ?_⟩
  · exact (lowered_bodies_follow_structure.1 _ _ _ _ _ _ validates rfl).1
  · exact (lowered_bodies_follow_structure.2 _ _ _ _ _ _ validates rfl).1

end TraceWasm
