import TraceWasm.Stack.Preservation

/-!
# Reachable configurations of the stack machine

In every configuration that a call from outside leads to, the operand stack is as high
as the body says for the index, so that an instruction only ever pops operands of its
own frame, and the frames of the suspended callers lie below without a gap. A call
that returns leaves its caller's frame as it was. This holds for as long as a height, a
32-bit word, can count the values on the stack.
-/

namespace TraceWasm
namespace Stack

open Wasm (CallFrame CallStack Layout Located flat_append)

/-- An instruction without effects beyond its frame. -/
def StackInstruction.staysInFrame : StackInstruction → Bool
  | .data _ => false
  | .dataDrop _ => false
  | .call _ _ => false
  | .callIndirect _ _ => false
  | .unreachable => false
  | _ => true

/-- A body that validated operators are lowered to. -/
structure LoweredFrom
    (mod : ModuleTypes) (func : FuncHeader) (located : List (Operator × Nat))
    (lowered : LoweredFuncBody) (body : FuncBody StackInstruction StackFrameLayout) :
    Prop where
  validates : Validates mod func (located.map Prod.fst)
  emitted : emitInstructionsForFunc mod func located = .ok lowered
  instructions : body.instructions = lowered.instructions
  frame : body.frameLayout = lowered.frame

section Reached

variable {memory registry : Type} [Memory memory] {host : ImportRegistry registry}
  {numerics : Numerics}

/-- A height can count the values on the operand stack. -/
def Low (d : (stackMachine memory host numerics).Configuration) : Prop :=
  d.inst.frame.stackPointer < 2 ^ 32

/-! ## Where frames lie -/

/-- A function at an index of its body has so many operands above its locals. -/
def Measures
    (mod : ModuleTypes) (b : (stackMachine memory host numerics).Activation)
    (index height : Nat) : Prop :=
  ∃ func located lowered, LoweredFrom mod func located lowered b.body ∧
    heights mod func (located.map Prod.fst) index = some height ∧
    b.callerBaseData.calleeFrameBaseHeight = b.callerBaseData.baseHeight + func.localsCount

/-- The frames of the suspended callers fill the stack up to a height. A caller has
handed its arguments over and waits for the results. -/
inductive Stacked (mod : ModuleTypes) :
    Nat → List (stackMachine memory host numerics).Frame → Prop where
  | nil : Stacked mod 0 []
  | cons
      {caller : (stackMachine memory host numerics).Frame}
      {callers : List (stackMachine memory host numerics).Frame} {height : Nat}
      (measures : Measures mod caller.activation (caller.pc + 1)
        (height + caller.calleeResultsCount))
      (below : Stacked mod caller.activation.callerBaseData.baseHeight callers) :
      Stacked mod (caller.activation.callerBaseData.calleeFrameBaseHeight + height)
        (caller :: callers)

/-- A configuration whose operand stack is as high as its body says. -/
structure Poised
    (module : Module StackInstruction StackFrameLayout) (func : FuncHeader)
    (located : List (Operator × Nat)) (lowered : LoweredFuncBody) (instr : StackInstruction)
    (height : Nat) (d : (stackMachine memory host numerics).Configuration) : Prop where
  lowers : LoweredFrom (moduleTypes module.types module.funcDecls) func located lowered
    d.activation.body
  found : d.activation.body.instructions[d.pc]? = some instr
  arrives : heights (moduleTypes module.types module.funcDecls) func (located.map Prod.fst)
    d.pc = some height
  /-- The instruction finds its operands and its local, and goes on at the right height. -/
  fits : instr.Fits (moduleTypes module.types module.funcDecls) func.localsCount
    lowered.frame.brTargetsArena
    (heights (moduleTypes module.types module.funcDecls) func (located.map Prod.fst)) d.pc
    height
  valid : d.inst.frame.Valid
  height : d.inst.frame.stackPointer =
    d.activation.callerBaseData.calleeFrameBaseHeight + height
  locals : d.activation.callerBaseData.calleeFrameBaseHeight =
    d.activation.callerBaseData.baseHeight + func.localsCount
  callers : Stacked (moduleTypes module.types module.funcDecls)
    d.activation.callerBaseData.baseHeight d.frames
  /-- What it does in its frame does not panic. -/
  executes : instr.staysInFrame = true → ∃ step after,
    (stackMachine memory host numerics).executeAt module d.activation d.pc d.inst =
      (.ok step, after)

theorem SameBody.loweredFrom
    {mod : ModuleTypes} {func : FuncHeader} {located : List (Operator × Nat)}
    {lowered : LoweredFuncBody} {source : FuncBody Located Layout}
    {target : FuncBody StackInstruction StackFrameLayout}
    (same : SameBody mod func located lowered source target) :
    LoweredFrom mod func located lowered target :=
  ⟨same.validates, same.emitted, same.instructions, same.frame⟩

theorem Suspended.stacked
    {mod : ModuleTypes} {entryResults results : Nat}
    {fs : List (sourceMachine memory host numerics).Frame}
    {gs : List (stackMachine memory host numerics).Frame} {calls : List CallFrame}
    (suspended : Suspended mod [] entryResults results fs gs calls) :
    Stacked mod (contents [] calls).length gs := by
  induction suspended with
  | nil => exact .nil
  | @cons func located lowered f g fs gs call calls activation caller placed waits callers
      inductionHypothesis =>
      have height : (contents [] (call :: calls)).length =
          g.activation.callerBaseData.calleeFrameBaseHeight + call.flat.length := by
        rw [placed.operandBase, contents, List.length_append, List.length_append]
      rw [height]
      apply Stacked.cons
      · refine ⟨func, located, lowered, activation.body.loweredFrom, ?_, ?_⟩
        · rw [caller.pc, caller.calleeResultsCount]
          exact waits.height
        · rw [placed.operandBase, placed.baseHeight, waits.shaped.locals]
      · rw [placed.baseHeight]
        exact inductionHypothesis

/-- An instruction of the frame executes. -/
theorem Corresponds.executes_ok
    {source : Module Located Layout}
    {bodies : List (FuncBody StackInstruction StackFrameLayout)} {outside : List Value}
    {entryResults : Nat} {func : FuncHeader} {located : List (Operator × Nat)}
    {lowered : LoweredFuncBody} {call : CallFrame} {calls : List CallFrame}
    {c : (sourceMachine memory host numerics).Configuration}
    {d : (stackMachine memory host numerics).Configuration} {instr : StackInstruction}
    (same : Corresponds (moduleTypes source.types source.funcDecls) outside entryResults func
      located lowered call calls c d)
    (low : Low d)
    (found : d.activation.body.instructions[d.pc]? = some instr)
    (stays : instr.staysInFrame = true) :
    ∃ step after, (stackMachine memory host numerics).executeAt (source.withBodies bodies)
      d.activation d.pc d.inst = (.ok step, after) := by
  obtain ⟨_, body⟩ := same.activation
  obtain ⟨op, isOp⟩ : ∃ op, (located.map Prod.fst)[c.pc]? = some op :=
    ⟨_, List.getElem?_eq_getElem same.inside⟩
  obtain ⟨other, s, v, v', isOther, site⟩ := site_of_emitted body.validates body.emitted isOp
  have isInstruction : d.activation.body.instructions[d.pc]? = some other := by
    rw [body.instructions, same.pc]
    exact isOther
  obtain rfl : instr = other := Option.some.inj (found.symm.trans isInstruction)
  obtain ⟨notDead, _⟩ := site.arrival same.stands.height
  have becomes := site.becomes notDead
  cases inCall : op.staysInCall with
  | true =>
      obtain ⟨_, _, step, _, _, acts, _⟩ := site.acts same.stands inCall
      rw [← body.frame] at acts
      obtain ⟨after, executed, _⟩ := execute_of_act same.segmented low acts
      refine ⟨step, { d.inst with frame := after }, ?_⟩
      unfold Machine.executeAt
      rw [found]
      exact executed
  | false =>
      cases op with
      | data op =>
          cases becomes
          cases stays
      | dataDrop dataIndex =>
          cases becomes
          cases stays
      | call functionIndex =>
          obtain ⟨_, _, rfl⟩ := becomes
          cases stays
      | callIndirect typeIndex tableIndex =>
          obtain ⟨_, rfl⟩ := becomes
          cases stays
      | unreachable =>
          cases becomes
          cases stays
      | tryTable blockty debug => cases becomes
      | other op => cases becomes
      | _ => cases inCall

/-- A configuration that corresponds to one of the operators is poised. -/
theorem Corresponds.poised
    {source : Module Located Layout}
    {bodies : List (FuncBody StackInstruction StackFrameLayout)}
    {entryResults : Nat} {func : FuncHeader} {located : List (Operator × Nat)}
    {lowered : LoweredFuncBody} {call : CallFrame} {calls : List CallFrame}
    {c : (sourceMachine memory host numerics).Configuration}
    {d : (stackMachine memory host numerics).Configuration}
    (same : Corresponds (moduleTypes source.types source.funcDecls) [] entryResults func
      located lowered call calls c d)
    (low : Low d) :
    ∃ instr, Poised (source.withBodies bodies) func located lowered instr call.flat.length
      d := by
  obtain ⟨_, body⟩ := same.activation
  have length : d.activation.body.instructions.length = (located.map Prod.fst).length :=
    body.length_target
  have inside : d.pc < d.activation.body.instructions.length := by
    rw [length, same.pc]
    exact same.inside
  have found := List.getElem?_eq_getElem inside
  have arrives : heights (moduleTypes source.types source.funcDecls) func
      (located.map Prod.fst) d.pc = some call.flat.length := by
    rw [same.pc]
    exact same.stands.height
  have segmented := same.segmented
  have balanced := balanced_of_emitted body.validates body.emitted
  refine ⟨_, body.loweredFrom, found, arrives, ?_, segmented.holds.valid, segmented.height, ?_,
    ?_, same.executes_ok low found⟩
  · apply balanced.fits d.pc _ _ _ arrives
    rw [← body.instructions]
    exact found
  · rw [segmented.operandBase, segmented.baseHeight, same.stands.locals]
  · rw [segmented.baseHeight]
    exact same.suspended.stacked

/-! ## During a call from outside -/

section During

variable {source : Module Located Layout}
  {bodies : List (FuncBody StackInstruction StackFrameLayout)}
  {funcIndex : FuncIndex} {decl : FuncDeclaration} {ty : FuncType} {params : List Val}
  {inst : StackInstance memory registry} {resultsCount : Nat}
  {d : (stackMachine memory host numerics).Configuration}

/-- What a call from outside leads to corresponds to a configuration of the
operators. -/
theorem running_of_during
    (same : SameBodies source bodies)
    (honors : HonorsDeclarations memory host source)
    (isDecl : source.funcDecls[funcIndex.toNat]? = some decl)
    (isTy : source.types[decl.ty]? = some ty)
    (count : params.length = ty.params.length)
    (during : (stackMachine memory host numerics).During (source.withBodies bodies)
      Low funcIndex params resultsCount inst d) :
    ∃ c, Running host numerics (moduleTypes source.types source.funcDecls) [] resultsCount c
      d := by
  obtain ⟨activation, started, isEntered, ran⟩ := during.ran
  rcases starts host numerics (inst.withFrame ⟨[], []⟩) same isDecl isTy count inst.frame with
    ⟨_, refused⟩ | ⟨a, b, before, stack, _, entered, running⟩
  · cases isEntered.symm.trans refused
  · cases isEntered.symm.trans entered
    have within : ∀ (c : (sourceMachine memory host numerics).Configuration) d,
        Running host numerics (moduleTypes source.types source.funcDecls) []
          ty.results.length c d → Low d → ¬Beyond host numerics c := by
      intro c d ⟨_, _, _, _, _, related⟩ low
      unfold Beyond
      rw [← related.height]
      exact Nat.not_le.mpr low
    obtain ⟨c, _, related⟩ :=
      (lockstep host numerics [] ty.results.length same honors funcIndex).runs within running
        ran
    exact ⟨c, related⟩

theorem Suspended.length_calls
    {mod : ModuleTypes} {outside : List Value} {entryResults results : Nat}
    {fs : List (sourceMachine memory host numerics).Frame}
    {gs : List (stackMachine memory host numerics).Frame} {calls : List CallFrame}
    (suspended : Suspended mod outside entryResults results fs gs calls) :
    gs.length = calls.length := by
  induction suspended with
  | nil => rfl
  | cons _ _ _ _ _ inductionHypothesis =>
      rw [List.length_cons, List.length_cons, inductionHypothesis]

/-- A step that goes on is one of the other machine as well. -/
theorem Corresponds.follows
    {entryResults : Nat} {func : FuncHeader} {located : List (Operator × Nat)}
    {lowered : LoweredFuncBody} {call : CallFrame} {calls : List CallFrame}
    {c : (sourceMachine memory host numerics).Configuration}
    {after : (stackMachine memory host numerics).Configuration}
    (related : Corresponds (moduleTypes source.types source.funcDecls) [] entryResults func
      located lowered call calls c d)
    (same : SameBodies source bodies)
    (honors : HonorsDeclarations memory host source)
    (low : Low d)
    (stepped : (stackMachine memory host numerics).next (source.withBodies bodies) funcIndex
      entryResults d = .running after) :
    ∃ progress, Machine.Progress.Matches
      (Follows (moduleTypes source.types source.funcDecls) [] entryResults d calls)
      (Ended host numerics entryResults) progress (.running after) := by
  rcases related.steps same honors low funcIndex with matched | ⟨_, _, _, _, isEnded⟩
  · rw [stepped] at matched
    exact ⟨_, matched⟩
  · rw [stepped] at isEnded
    cases isEnded

/-- Calls that stay suspended keep what they have. -/
theorem keeps_suspended
    {entryResults : Nat} {func : FuncHeader} {located : List (Operator × Nat)}
    {lowered : LoweredFuncBody} {call : CallFrame} {calls : List CallFrame}
    {c : (sourceMachine memory host numerics).Configuration}
    {last : (stackMachine memory host numerics).Configuration}
    (same : SameBodies source bodies)
    (honors : HonorsDeclarations memory host source)
    (related : Corresponds (moduleTypes source.types source.funcDecls) [] entryResults func
      located lowered call calls c d)
    (ran : (stackMachine memory host numerics).Runs (source.withBodies bodies)
      (fun between => d.frames <:+ between.frames ∧ Low between) funcIndex entryResults d last)
    (above : d.frames <:+ last.frames) :
    ∃ func' located' lowered' call' calls' c',
      Corresponds (moduleTypes source.types source.funcDecls) [] entryResults func' located'
        lowered' call' calls' c' last ∧ calls <:+ calls' := by
  induction ran with
  | start => exact ⟨_, _, _, _, _, _, related, List.suffix_rfl⟩
  | @step before after ran isAbove stepped inductionHypothesis =>
      obtain ⟨_, _, _, _, calls', c', relatedBefore, suffix⟩ := inductionHypothesis isAbove.1
      obtain ⟨progress, matched⟩ := relatedBefore.follows same honors isAbove.2 stepped
      cases matched with
      | running follows =>
          obtain ⟨func', located', lowered', call', calls', relatedAfter, passes⟩ := follows
          refine ⟨func', located', lowered', call', calls', _, relatedAfter, ?_⟩
          cases passes with
          | stays activation frames => exact suffix
          | calls frames => exact suffix.trans (List.suffix_cons _ _)
          | returns activation pc frames count =>
              rcases List.suffix_cons_iff.mp suffix with isAll | suffix
              · have lengths := related.suspended.length_calls
                have lengthsAfter := relatedAfter.suspended.length_calls
                have enough := above.length_le
                rw [isAll, List.length_cons] at lengths
                omega
              · exact suffix

/-- A call that returns leaves what lies below it and its results. -/
theorem returns_below
    {caller : (stackMachine memory host numerics).Frame}
    {last after : (stackMachine memory host numerics).Configuration}
    (same : SameBodies source bodies)
    (honors : HonorsDeclarations memory host source)
    (related : ∃ c, Running host numerics (moduleTypes source.types source.funcDecls) []
      resultsCount c d)
    (ran : (stackMachine memory host numerics).Runs (source.withBodies bodies)
      (fun between => d.frames <:+ between.frames ∧ Low between) funcIndex resultsCount d last)
    (low : Low last)
    (isLast : last.frames = d.frames)
    (called : d.frames = caller :: after.frames)
    (returned : (stackMachine memory host numerics).next (source.withBodies bodies) funcIndex
      resultsCount last = .running after) :
    after.activation = caller.activation ∧ after.pc = caller.pc + 1 ∧
      ∃ below own results, d.activation.callerBaseData.baseHeight = below.length ∧
        d.inst.frame.Holds (below ++ own) ∧ results.length = caller.calleeResultsCount ∧
        after.inst.frame.Holds (below ++ results) := by
  obtain ⟨c, func, located, lowered, call, calls, related⟩ := related
  obtain ⟨_, _, _, _, calls', c', relatedLast, suffix⟩ :=
    keeps_suspended same honors related ran (isLast ▸ List.suffix_rfl)
  have lengths := related.suspended.length_calls
  have lengthsLast := relatedLast.suspended.length_calls
  obtain rfl : calls = calls' :=
    suffix.eq_of_length (by rw [← lengths, ← lengthsLast, isLast])
  obtain ⟨progress, matched⟩ := relatedLast.follows same honors low returned
  cases matched with
  | running follows =>
      obtain ⟨_, _, _, call', calls', relatedAfter, passes⟩ := follows
      rw [called] at isLast
      cases passes with
      | stays activation frames =>
          rw [isLast] at frames
          exact absurd (congrArg List.length frames) (by simp)
      | calls frames =>
          rw [isLast] at frames
          exact absurd (congrArg List.length frames) (by simp; omega)
      | @returns _ waiting caller' results activation pc frames count =>
          rw [isLast] at frames
          cases frames
          have segmented := related.segmented
          have segmentedAfter := relatedAfter.segmented
          refine ⟨activation, pc, contents [] (waiting :: calls'), call.locals ++ call.flat,
            results, segmented.baseHeight, ?_, count, ?_⟩
          · rw [← List.append_assoc]
            exact segmented.holds
          · have holds := segmentedAfter.holds
            rw [flat_append, ← List.append_assoc] at holds
            exact holds

end During

/-! ## Compiled modules -/

section Compiled

variable {module : Module StackInstruction StackFrameLayout} {entries : List CodeEntry}
  {funcIndex : FuncIndex} {decl : FuncDeclaration} {ty : FuncType} {params : List Val}
  {inst : StackInstance memory registry} {resultsCount : Nat}
  {d : (stackMachine memory host numerics).Configuration}

/-- In every configuration that a call from outside leads to, the operand stack is as high
above the frame as the body says, every frame is where the next one begins, and no
instruction panics in its frame. The operand stack has to stay low on the way. -/
theorem heights_hold_throughout
    (checked : CheckedCode module entries)
    (compiled : compileCode emitter module.types module.funcDecls module.importedFuncCount
      entries = .ok module.funcBodies)
    (honors : HonorsDeclarations memory host module)
    (isDecl : module.funcDecls[funcIndex.toNat]? = some decl)
    (isTy : module.types[decl.ty]? = some ty)
    (count : params.length = ty.params.length)
    (during : (Stack.machine host numerics).During module Low funcIndex params resultsCount inst
      d)
    (low : Low d) :
    ∃ func located lowered instr height,
      Poised module func located lowered instr height d := by
  obtain ⟨bodies, meant⟩ := meaning_of_compileCode compiled
  have same := sameBodies_of_compileCode checked compiled meant
  obtain ⟨c, func, located, lowered, call, calls, related⟩ :=
    running_of_during same honors isDecl isTy count during
  obtain ⟨instr, poised⟩ := related.poised low
  exact ⟨func, located, lowered, instr, _, poised⟩

/-- A function that returns goes on behind its call, in its caller's frame: what lies
below the returning function's frame is what it was, and on top of it are the results. -/
theorem calls_keep_their_caller
    {caller : (stackMachine memory host numerics).Frame}
    {last after : (stackMachine memory host numerics).Configuration}
    (checked : CheckedCode module entries)
    (compiled : compileCode emitter module.types module.funcDecls module.importedFuncCount
      entries = .ok module.funcBodies)
    (honors : HonorsDeclarations memory host module)
    (isDecl : module.funcDecls[funcIndex.toNat]? = some decl)
    (isTy : module.types[decl.ty]? = some ty)
    (count : params.length = ty.params.length)
    (during : (Stack.machine host numerics).During module Low funcIndex params resultsCount inst
      d)
    (ran : (Stack.machine host numerics).Runs module
      (fun between => d.frames <:+ between.frames ∧ Low between) funcIndex resultsCount d last)
    (low : Low last)
    (isLast : last.frames = d.frames)
    (returned : (Stack.machine host numerics).next module funcIndex resultsCount last =
      .running after)
    (called : d.frames = caller :: after.frames) :
    after.activation = caller.activation ∧ after.pc = caller.pc + 1 ∧
      ∃ below own results, d.activation.callerBaseData.baseHeight = below.length ∧
        d.inst.frame.Holds (below ++ own) ∧ results.length = caller.calleeResultsCount ∧
        after.inst.frame.Holds (below ++ results) := by
  obtain ⟨bodies, meant⟩ := meaning_of_compileCode compiled
  have same := sameBodies_of_compileCode checked compiled meant
  exact returns_below same honors (running_of_during same honors isDecl isTy count during) ran
    low isLast called returned

end Compiled

end Reached

section Handing

/-- The machine without host functions and numeric operators. -/
def handingMachine : Machine LinearMemory Unit := Stack.machine (answering []) noNumerics

/-- The first function waits for the second, which is about to return. -/
def handingCallee : handingMachine.Configuration where
  activation := ⟨1, handingBodies.get ⟨1, by decide⟩, ⟨0, 1⟩⟩
  pc := 1
  frames := [⟨⟨0, handingBodies.get ⟨0, by decide⟩, ⟨0, 0⟩⟩, 4, 1, 1, none⟩]
  inst := bareInstance ⟨[7, 7], 2⟩

theorem low_of_few
    {c : handingMachine.Configuration}
    (few : Nat.blt c.inst.frame.stackPointer (2 ^ 32) = true) :
    Low c :=
  Nat.le_of_ble_eq_true few

/-- The callee is reached. -/
theorem handing_during :
    handingMachine.During handingModule Low 0 [] 1 (bareInstance emptyStack) handingCallee :=
  ⟨_, _, rfl, .step (.step (.step (.step (.step (.step .start (low_of_few rfl) rfl)
    (low_of_few rfl) rfl) (low_of_few rfl) rfl) (low_of_few rfl) rfl) (low_of_few rfl) rfl)
    (low_of_few rfl) rfl⟩

/-- The callee's operands are as many as counted. -/
theorem heights_hold_throughout_handing :
    ∃ func located lowered instr height,
      Poised handingModule func located lowered instr height handingCallee :=
  heights_hold_throughout handing_checked rfl (handing_honors (answering [])) rfl rfl rfl
    handing_during (low_of_few rfl)

/-- The first function has gone on. -/
def handingCaller : handingMachine.Configuration where
  activation := ⟨0, handingBodies.get ⟨0, by decide⟩, ⟨0, 0⟩⟩
  pc := 5
  frames := []
  inst := bareInstance ⟨[7, 7], 1⟩

/-- The callee's return keeps its caller's operands. -/
theorem calls_keep_their_caller_handing :
    ∃ below own results : List Value, 0 = below.length ∧
      Holds ⟨[7, 7], 2⟩ (below ++ own) ∧ results.length = 1 ∧
      Holds ⟨[7, 7], 1⟩ (below ++ results) :=
  (calls_keep_their_caller handing_checked rfl (handing_honors (answering [])) rfl rfl rfl
    handing_during .start (low_of_few rfl) rfl
    (show handingMachine.next handingModule 0 1 handingCallee = .running handingCaller from rfl)
    rfl).2.2

end Handing

/-! ## Heights wrap around -/

section Nesting

variable {localsCount : Nat}

/-- A function that pushes a value and calls itself. -/
def nestingEntry (localsCount : Nat) : CodeEntry where
  localGroups := [(localsCount, .i32)]
  operators := [(.const (.i32 0), 5), (.call 0, 7), (.drop, 9), (.endOp, 10)]

/-- The body that it is lowered to. -/
def nestingBody (localsCount : Nat) : FuncBody StackInstruction StackFrameLayout where
  locals := List.replicate localsCount .i32
  instructions := [.const (.i32 0), .call 0 0, .drop, .endOp 0 0]
  instructionOffsets := [5, 7, 9, 10]
  frameLayout := ⟨[]⟩

/-- A module of the one function. -/
def nestingModule (localsCount : Nat) : Module StackInstruction StackFrameLayout where
  types := [⟨[], []⟩]
  funcDecls := [⟨⟨0⟩, .«local»⟩]
  importedFuncCount := 0
  funcBodies := [nestingBody localsCount]
  tables := []
  memories := []
  globals := []
  importedGlobalCount := 0
  exports := fun _ => none
  exportedFuncName := fun _ => none
  startSection := none
  elements := []
  datas := []

theorem nesting_checked :
    CheckedCode (nestingModule localsCount) [nestingEntry localsCount] where
  declsFit := show 1 ≤ 2 ^ 32 by decide
  sizes := by
    intro entry member
    rw [List.mem_singleton.mp member]
    exact show 4 ≤ 2 ^ 32 by decide
  narrow := by
    intro entry member op isOp
    rw [List.mem_singleton.mp member] at isOp
    simp only [CodeEntry.ops, nestingEntry, List.map_cons, List.map_nil, List.mem_cons,
      List.not_mem_nil, or_false] at isOp
    rcases isOp with rfl | rfl | rfl | rfl <;> trivial
  validates := by
    intro index entry decl ty fits isEntry isDecl isTy
    rcases index with _ | index
    · cases isEntry
      cases isDecl
      cases isTy
      exact ⟨_, rfl, rfl⟩
    · cases isEntry

theorem nesting_compiled (fits : localsCount ≤ 50000) :
    compileCode emitter (nestingModule localsCount).types (nestingModule localsCount).funcDecls
      (nestingModule localsCount).importedFuncCount [nestingEntry localsCount] =
        .ok (nestingModule localsCount).funcBodies := by
  have declared : (nestingEntry localsCount).declared = List.replicate localsCount .i32 :=
    List.append_nil _
  have short : (⟨[], []⟩ : FuncType).params.length +
      (nestingEntry localsCount).declared.length ≤ 50000 := by
    rw [declared, List.length_replicate, List.length_nil, Nat.zero_add]
    exact fits
  have emitted : emitter (moduleTypes [⟨[], []⟩] [⟨⟨0⟩, .«local»⟩])
      (headerOf ⟨[], []⟩ (nestingEntry localsCount).declared short)
      (nestingEntry localsCount).operators =
        .ok ((nestingBody localsCount).instructions, [5, 7, 9, 10], ⟨[]⟩) := rfl
  have compiled : compileEntry emitter [⟨[], []⟩] [⟨⟨0⟩, .«local»⟩] 0
      (nestingEntry localsCount) = .ok (nestingBody localsCount) := by
    rw [compileEntry_of_emitted rfl rfl rfl short emitted, declared]
    rfl
  rw [compileCode, compileCode]
  change (compileEntry emitter [⟨[], []⟩] [⟨⟨0⟩, .«local»⟩] 0 (nestingEntry localsCount) >>=
    _) = _
  rw [compiled]
  rfl

/-- Nothing is imported, so the host has nothing to honor. -/
theorem nesting_honors (host : ImportRegistry Unit) :
    HonorsDeclarations LinearMemory host (nestingModule localsCount) := by
  intro callee func found
  obtain ⟨decl, isDecl, found⟩ := Option.bind_eq_some_iff.mp found
  obtain ⟨ty, _, found⟩ := Option.bind_eq_some_iff.mp found
  have isLocal : decl.kind = .«local» := by
    rw [List.mem_singleton.mp (List.mem_of_getElem? isDecl)]
  rw [isLocal] at found
  cases found

/-- The function is entered where its frame's heights fit. -/
theorem nesting_enters
    (small : localsCount ≤ 50000) (base unused : Nat) (fits : base + localsCount < 2 ^ 32)
    (inst : StackInstance LinearMemory Unit) :
    ∃ frame : Stack Value,
      handingMachine.enter (nestingModule localsCount) 0 ⟨base, unused⟩ inst =
        some (⟨0, nestingBody localsCount, ⟨base, base + localsCount⟩⟩, 0,
          { inst with frame }) ∧
      frame.stackPointer = inst.frame.stackPointer + localsCount := by
  obtain ⟨locals, areZeros, length⟩ := @zeros_isSome (List.replicate localsCount .i32) (by
    intro declared member
    rw [List.eq_of_mem_replicate member]
    exact ValType.noConfusion)
  rw [List.length_replicate] at length
  have isWord : (List.replicate localsCount ValType.i32).length % 2 ^ 32 = localsCount := by
    rw [List.length_replicate]
    omega
  have entered : inst.frame.enterFrame 0 (List.replicate localsCount .i32) ⟨base, unused⟩ =
      some (inst.frame.pushAll locals, ⟨base, base + localsCount⟩) := by
    unfold enterFrame
    rw [guard, if_pos (Nat.zero_le _), List.drop_zero, areZeros, isWord, addHeights_of_lt fits]
    rfl
  refine ⟨_, @Machine.enter_of_body _ _ handingMachine (nestingModule localsCount) 0
    ⟨base, unused⟩ inst _ _ _ _ _ (Nat.le_refl 0) rfl rfl rfl entered, ?_⟩
  rw [stackPointer_pushAll, length]

/-- The function with so many calls below it. Each of them has left its locals and an
operand on the stack, whose height the base is as a 32-bit word. -/
def nestedCall (localsCount depth : Nat) : handingMachine.Activation where
  funcIndex := 0
  body := nestingBody localsCount
  callerBaseData :=
    ⟨(localsCount + 1) * depth % 2 ^ 32, (localsCount + 1) * depth % 2 ^ 32 + localsCount⟩

/-- So many calls wait for one that is about to start. -/
structure Nested
    (localsCount depth : Nat) (frames : List handingMachine.Frame)
    (inst : StackInstance LinearMemory Unit) : Prop where
  frames : frames.length = depth
  room : inst.config.maxCallStackDepth = 200000
  height : inst.frame.stackPointer = (localsCount + 1) * depth + localsCount

/-- One call further down. -/
theorem Nested.deeper
    {depth : Nat} {frames : List handingMachine.Frame}
    {inst : StackInstance LinearMemory Unit}
    (nested : Nested localsCount depth frames inst)
    (small : localsCount ≤ 50000)
    (fits : (localsCount + 1) * (depth + 1) % 2 ^ 32 + localsCount < 2 ^ 32)
    (shallow : depth < 150000) :
    ∃ frames' inst', Nested localsCount (depth + 1) frames' inst' ∧
      handingMachine.Runs (nestingModule localsCount) (fun _ => True) 0 0
        ⟨nestedCall localsCount depth, 0, frames, inst⟩
        ⟨nestedCall localsCount (depth + 1), 0, frames', inst'⟩ := by
  obtain ⟨length, room, height⟩ := nested
  let pushed : StackInstance LinearMemory Unit :=
    { inst with frame := inst.frame.push (Const.i32 0).toValue }
  have pushes : handingMachine.next (nestingModule localsCount) 0 0
      ⟨nestedCall localsCount depth, 0, frames, inst⟩ =
        .running ⟨nestedCall localsCount depth, 1, frames, pushed⟩ := rfl
  have top : pushed.frame.stackPointer = (localsCount + 1) * (depth + 1) := by
    refine (stackPointer_push _ _).trans ?_
    rw [height, Nat.mul_succ]
    omega
  have executed : handingMachine.executeAt (nestingModule localsCount)
      (nestedCall localsCount depth) 1 pushed =
        (.ok (.call 0 ⟨(localsCount + 1) * (depth + 1) % 2 ^ 32, 2 ^ 32 - 1⟩ none), pushed) := by
    rw [← top]
    rfl
  obtain ⟨frame, entered, pointer⟩ :=
    nesting_enters small ((localsCount + 1) * (depth + 1) % 2 ^ 32) (2 ^ 32 - 1) fits pushed
  have notExhausted : ¬frames.length % 2 ^ 32 + 1 ≥ pushed.config.maxCallStackDepth := by
    change ¬frames.length % 2 ^ 32 + 1 ≥ inst.config.maxCallStackDepth
    rw [length, room]
    omega
  have calls : handingMachine.next (nestingModule localsCount) 0 0
      ⟨nestedCall localsCount depth, 1, frames, pushed⟩ =
        .running ⟨nestedCall localsCount (depth + 1), 0,
          ⟨nestedCall localsCount depth, 1, 0, 0, none⟩ :: frames,
          { pushed with frame := frame }⟩ :=
    Machine.next_of_entered executed notExhausted entered
  refine ⟨_, { pushed with frame := frame }, ⟨?_, room, ?_⟩,
    .step (.step .start trivial pushes) trivial calls⟩
  · rw [List.length_cons, length]
  · exact pointer.trans (congrArg (· + localsCount) top)

/-- The calls go as deep as the limit lets them. -/
theorem Nested.reaches
    {frames : List handingMachine.Frame} {inst : StackInstance LinearMemory Unit}
    (first : Nested localsCount 0 frames inst) (depth : Nat)
    (small : localsCount ≤ 50000)
    (fits : ∀ calls, (localsCount + 1) * calls % 2 ^ 32 + localsCount < 2 ^ 32)
    (shallow : depth ≤ 150000) :
    ∃ frames' inst', Nested localsCount depth frames' inst' ∧
      handingMachine.Runs (nestingModule localsCount) (fun _ => True) 0 0
        ⟨nestedCall localsCount 0, 0, frames, inst⟩
        ⟨nestedCall localsCount depth, 0, frames', inst'⟩ := by
  induction depth with
  | zero => exact ⟨frames, inst, first, .start⟩
  | succ depth inductionHypothesis =>
      obtain ⟨_, _, nested, ran⟩ := inductionHypothesis (by omega)
      obtain ⟨frames', inst', deeper, further⟩ := nested.deeper small (fits _) (by omega)
      exact ⟨frames', inst', deeper, ran.trans further⟩

/-- An empty stack, and a limit on the depth of calls above the default. -/
def deepInstance : StackInstance LinearMemory Unit where
  __ := bareInstance emptyStack
  config := { Config.default with maxCallStackDepth := 200000, depthFits := by decide }

/-- At a depth of `2 ^ 17` the height of the stack is `2 ^ 32`, which a height takes for
zero: the frame's base is that of the first one. -/
theorem heights_wrap_in_deep_calls :
    CheckedCode (nestingModule 32767) [nestingEntry 32767] ∧
      compileCode emitter (nestingModule 32767).types (nestingModule 32767).funcDecls
        (nestingModule 32767).importedFuncCount [nestingEntry 32767] =
          .ok (nestingModule 32767).funcBodies ∧
      HonorsDeclarations LinearMemory (answering []) (nestingModule 32767) ∧
      ∃ d, handingMachine.During (nestingModule 32767) (fun _ => True) 0 [] 0 deepInstance d ∧
        ¬∃ func located lowered instr height,
          Poised (nestingModule 32767) func located lowered instr height d := by
  refine ⟨nesting_checked, nesting_compiled (by decide), nesting_honors _, ?_⟩
  obtain ⟨frame, entered, pointer⟩ := @nesting_enters 32767 (by decide) 0
    (2 ^ 32 - 1) (by decide) (handingMachine.stageParams [] deepInstance)
  have first : Nested 32767 0 [] { deepInstance with frame } := ⟨rfl, rfl, pointer⟩
  obtain ⟨frames', inst', nested, ran⟩ :=
    first.reaches (2 ^ 17) (by decide) (by omega) (by decide)
  refine ⟨_, ⟨_, _, entered, ran⟩, ?_⟩
  rintro ⟨func, located, lowered, instr, height, poised⟩
  have balanced := balanced_of_emitted poised.lowers.validates poised.lowers.emitted
  have noOperands : some height = some 0 := poised.arrives.symm.trans balanced.first
  have atBase := poised.height
  rw [Option.some.inj noOperands] at atBase
  have real := nested.height
  change inst'.frame.stackPointer = (32767 + 1) * 2 ^ 17 % 2 ^ 32 + 32767 + 0 at atBase
  omega

end Nesting

end Stack
end TraceWasm
