import TraceWasm.Stack.Jumps
import TraceWasm.Stack.Lockstep

/-!
# Lowering preserves the meaning

A call from outside comes to the same on the stack machine, which runs the lowered
bodies, as on the machine that executes the operators of the same code section, if the
operators never have as many values at once as no height can count.
-/

namespace TraceWasm

/-! ## Validated code -/

/-- The code section is validated, and what it counts fits into words. -/
structure CheckedCode
    {Instr FrameLayout : Type} (module : Module Instr FrameLayout)
    (entries : List CodeEntry) : Prop where
  declsFit : module.funcDecls.length ≤ 2 ^ 32
  sizes : ∀ entry ∈ entries, entry.operators.length ≤ 2 ^ 32
  narrow : ∀ entry ∈ entries, ∀ op ∈ entry.ops, op.Narrow
  validates : ∀ (index : Nat) (entry : CodeEntry) (decl : FuncDeclaration) (ty : FuncType)
      (fits : ty.params.length + entry.declared.length ≤ 50000),
    entries[index]? = some entry →
    module.funcDecls[module.importedFuncCount + index]? = some decl →
    module.types[decl.ty]? = some ty →
    Validates (moduleTypes module.types module.funcDecls) (headerOf ty entry.declared fits)
      entry.ops

namespace Stack

open Machine (SameEnd)
open Wasm (CallFrame CallStack Layout Located)

/-- What the emitter returns. -/
theorem emitter_eq_ok
    {mod : ModuleTypes} {func : FuncHeader} {located : List (Operator × Nat)}
    {instructions : List StackInstruction} {offsets : List Nat} {frame : StackFrameLayout}
    (emitted : emitter mod func located = .ok (instructions, offsets, frame)) :
    ∃ lowered, emitInstructionsForFunc mod func located = .ok lowered ∧
      instructions = lowered.instructions ∧ offsets = lowered.instructionOffsets ∧
      frame = lowered.frame := by
  obtain ⟨lowered, isLowered, same⟩ := Attempt.bind_eq_ok.mp emitted
  cases same
  exact ⟨lowered, isLowered, rfl, rfl, rfl⟩

/-- The declared type of a function. -/
theorem funcType_eq_ok
    {ε Instr FrameLayout : Type} {module : Module Instr FrameLayout} {funcIndex : FuncIndex}
    {decl : FuncDeclaration} {ty : FuncType}
    (isDecl : module.funcDecls[funcIndex.toNat]? = some decl)
    (isTy : module.types[decl.ty]? = some ty) :
    (module.funcType funcIndex : Attempt ε FuncType) = .ok ty := by
  unfold Module.funcType
  rw [isDecl]
  change Attempt.orPanic module.types[decl.ty]? = _
  rw [isTy]
  rfl

section Compiled

variable {module : Module StackInstruction StackFrameLayout} {entries : List CodeEntry}
  {bodies : List (FuncBody Located Layout)}

/-- The two bodies compiled from one entry. -/
theorem sameFunction_of_compileCode
    {index : Nat} {body : FuncBody Located Layout}
    (checked : CheckedCode module entries)
    (compiled : compileCode emitter module.types module.funcDecls module.importedFuncCount
      entries = .ok module.funcBodies)
    (meant : compileCode Wasm.emitter module.types module.funcDecls module.importedFuncCount
      entries = .ok bodies)
    (isBody : bodies[index]? = some body) :
    ∃ decl ty func located lowered target,
      module.funcDecls[module.importedFuncCount + index]? = some decl ∧
      module.types[decl.ty]? = some ty ∧ module.funcBodies[index]? = some target ∧
      SameFunction (moduleTypes module.types module.funcDecls) ty func located lowered body
        target := by
  obtain ⟨entry, isEntry, ofEntry⟩ := body_of_compileCode meant isBody
  have inside := (List.getElem?_eq_some_iff.mp isEntry).1
  rw [← length_of_compileCode compiled] at inside
  have isTarget := List.getElem?_eq_getElem inside
  obtain ⟨other, isOther, lowersEntry⟩ := body_of_compileCode compiled isTarget
  rw [isEntry] at isOther
  cases isOther
  obtain ⟨decl, ty, fits, isDecl, isTy, noVector, locals, emitted⟩ :=
    compileEntry_eq_ok ofEntry
  obtain ⟨declToo, tyToo, fitsToo, isDeclToo, isTyToo, _, localsToo, emittedToo⟩ :=
    compileEntry_eq_ok lowersEntry
  obtain rfl : decl = declToo := Option.some.inj (isDecl.symm.trans isDeclToo)
  obtain rfl : ty = tyToo := Option.some.inj (isTy.symm.trans isTyToo)
  obtain ⟨lowered, isLowered, instructions, offsets, frame⟩ := emitter_eq_ok emittedToo
  have validates := checked.validates index entry decl ty fits isEntry isDecl isTy
  have member := List.mem_of_getElem? isEntry
  injection emitted with emitted
  obtain ⟨operators, rest⟩ := Prod.mk.inj emitted
  obtain ⟨sourceOffsets, layout⟩ := Prod.mk.inj rest
  refine ⟨decl, ty, headerOf ty entry.declared fits, entry.operators, lowered, _, isDecl, isTy,
    isTarget,
    { validates, emitted := isLowered, fits := checked.sizes entry member,
      narrow := checked.narrow entry member, operators := operators.symm,
      layout := layout.symm, instructions, frame, offsets := ?_, params := rfl,
      results := rfl, localsCount := ?_, locals := localsToo.trans locals.symm,
      zeros := ?_ }⟩
  · rw [offsets, ← sourceOffsets]
    exact offsets_of_emitted validates isLowered
  · rw [locals]
    exact List.length_append
  · rw [locals, List.drop_left]
    exact noVector

/-- What is lowered has a meaning. -/
theorem meaning_of_compileCode
    {types : List FuncType} {funcDecls : List FuncDeclaration} {funcIndex : Nat}
    {lowered : List (FuncBody StackInstruction StackFrameLayout)}
    (compiled : compileCode emitter types funcDecls funcIndex entries = .ok lowered) :
    ∃ bodies, compileCode Wasm.emitter types funcDecls funcIndex entries = .ok bodies := by
  have compiles : CodeCompiles emitter types funcDecls funcIndex entries := ⟨lowered, compiled⟩
  apply compiles.transfer
  intro index entry decl ty fits _ _ _ _
  exact ⟨_, rfl⟩

/-- Bodies compiled from one code section are the same bodies. -/
theorem sameBodies_of_compileCode
    (checked : CheckedCode module entries)
    (compiled : compileCode emitter module.types module.funcDecls module.importedFuncCount
      entries = .ok module.funcBodies)
    (meant : compileCode Wasm.emitter module.types module.funcDecls module.importedFuncCount
      entries = .ok bodies) :
    SameBodies (module.withBodies bodies) module.funcBodies where
  declsFit := checked.declsFit
  length := by
    rw [length_of_compileCode compiled]
    exact (length_of_compileCode meant).symm
  func := by
    intro callee decl ty body isLocal isDecl isTy isBody
    change module.importedFuncCount ≤ callee at isLocal
    change module.funcDecls[callee]? = some decl at isDecl
    change module.types[decl.ty]? = some ty at isTy
    obtain ⟨declToo, tyToo, func, located, lowered, target, isDeclToo, isTyToo, isTarget,
      same⟩ := sameFunction_of_compileCode checked compiled meant isBody
    change module.funcDecls[module.importedFuncCount + (callee - module.importedFuncCount)]? =
      some declToo at isDeclToo
    rw [Nat.add_sub_cancel' isLocal, isDecl] at isDeclToo
    cases isDeclToo
    obtain rfl : ty = tyToo := Option.some.inj (isTy.symm.trans isTyToo)
    exact ⟨func, located, lowered, target, isTarget, same⟩

end Compiled

/-! ## The bodies end -/

section WellFormed

variable {memory registry : Type} [Memory memory] {host : ImportRegistry registry}
  {numerics : Numerics}
variable {mod : ModuleTypes} {func : FuncHeader} {located : List (Operator × Nat)}
  {lowered : LoweredFuncBody} {source : FuncBody Located Layout}
  {target : FuncBody StackInstruction StackFrameLayout}

theorem SameBody.wellFormed_source
    (same : SameBody mod func located lowered source target) :
    (sourceMachine memory host numerics).WellFormedBody source := by
  have isLast : source.instructions.getLast? =
      some ((located.map Prod.fst).length - 1, .endOp) := by
    rw [same.operators, List.getLast?_eq_getElem?, Wasm.length_numbered,
      Wasm.getElem?_numbered, last_of_wellNested same.validates.wellNested]
    rfl
  have fits : source.instructions.length ≤ 2 ^ 32 := by
    rw [same.length_source, List.length_map]
    exact same.fits
  exact ⟨⟨_, isLast, rfl⟩, fits⟩

theorem SameBody.wellFormed_target
    (same : SameBody mod func located lowered source target) :
    (stackMachine memory host numerics).WellFormedBody target := by
  obtain ⟨instr, _, _, _, isInstr, site⟩ :=
    site_of_emitted same.validates same.emitted (last_of_wellNested same.validates.wellNested)
  have isLast : target.instructions.getLast? = some instr := by
    rw [List.getLast?_eq_getElem?, same.length_target, same.instructions]
    exact isInstr
  have fits : target.instructions.length ≤ 2 ^ 32 := by
    rw [same.length_target, List.length_map]
    exact same.fits
  exact ⟨⟨instr, isLast, site.isEnd⟩, fits⟩

/-- All bodies compiled from a code section end. -/
theorem wellFormed_of_compileCode
    {module : Module StackInstruction StackFrameLayout} {entries : List CodeEntry}
    {bodies : List (FuncBody Located Layout)}
    (checked : CheckedCode module entries)
    (compiled : compileCode emitter module.types module.funcDecls module.importedFuncCount
      entries = .ok module.funcBodies)
    (meant : compileCode Wasm.emitter module.types module.funcDecls module.importedFuncCount
      entries = .ok bodies) :
    (sourceMachine memory host numerics).WellFormed (module.withBodies bodies) ∧
      (stackMachine memory host numerics).WellFormed module := by
  constructor
  · intro body member
    obtain ⟨index, isBody⟩ := List.mem_iff_getElem?.mp member
    obtain ⟨_, _, _, _, _, _, _, _, _, same⟩ :=
      sameFunction_of_compileCode checked compiled meant isBody
    exact same.wellFormed_source
  · intro target member
    obtain ⟨index, isTarget⟩ := List.mem_iff_getElem?.mp member
    have inside : index < bodies.length := by
      have below := (List.getElem?_eq_some_iff.mp isTarget).1
      rw [length_of_compileCode meant, ← length_of_compileCode compiled]
      exact below
    obtain ⟨_, _, _, _, _, other, _, _, isOther, same⟩ :=
      sameFunction_of_compileCode checked compiled meant (List.getElem?_eq_getElem inside)
    obtain rfl : target = other := Option.some.inj (isTarget.symm.trans isOther)
    exact same.wellFormed_target

end WellFormed

/-! ## A call from outside -/

/-- Values are taken off the outside. -/
theorem take_outside
    {rest top : List Value} {count : Nat}
    (length : top.length = count) :
    CallStack.take ⟨[], rest ++ top⟩ count = some (top, ⟨[], rest⟩) := by
  unfold CallStack.take
  dsimp only
  rw [← length, Wasm.splitTop_append]
  rfl

section Outside

variable {memory registry : Type} [Memory memory] (host : ImportRegistry registry)
  (numerics : Numerics)
variable {source : Module Located Layout}
  {bodies : List (FuncBody StackInstruction StackFrameLayout)}
  {funcIndex : FuncIndex} {ty : FuncType} {params : List Val}
  {inst : Wasm.SourceInstance memory registry}

/-- The results are taken alike. -/
theorem finishes
    {outcome : (sourceMachine memory host numerics).Outcome FuncCallError Unit}
    {outcome' : (stackMachine memory host numerics).Outcome FuncCallError Unit}
    (typed : (source.funcType funcIndex : Attempt FuncCallError FuncType) = .ok ty)
    (ended : Ended host numerics ty.results.length outcome outcome') :
    SameEnd
      ((sourceMachine memory host numerics).finish source funcIndex outcome)
      ((stackMachine memory host numerics).finish (source.withBodies bodies) funcIndex
        outcome') := by
  obtain ⟨answer, inst⟩ := outcome
  obtain ⟨answer', inst'⟩ := outcome'
  obtain ⟨sameAnswer, sameInst, frames⟩ := ended
  dsimp only at sameAnswer sameInst frames
  subst sameAnswer
  cases answer' with
  | error fault => exact ⟨rfl, congrArg (·.withFrame ()) sameInst⟩
  | ok done =>
      obtain ⟨noFrames, enough, holds⟩ := frames done rfl
      obtain ⟨rest, results, isOutside, count⟩ := Wasm.exists_top enough
      have taken : inst.frame.take ty.results.length = some (results, ⟨[], rest⟩) := by
        rw [show inst.frame = ⟨[], rest ++ results⟩ from
          congrArg₂ CallStack.mk noFrames isOutside]
        exact take_outside count
      rw [isOutside] at holds
      have takenToo := holds.takeRun
      rw [count] at takenToo
      have finished : (sourceMachine memory host numerics).takeResults source funcIndex inst =
          _ := Machine.takeResults_of_taken typed taken
      have finishedToo : (stackMachine memory host numerics).takeResults
          (source.withBodies bodies) funcIndex inst' = _ :=
        Machine.takeResults_of_taken typed takenToo
      change SameEnd
        ((sourceMachine memory host numerics).takeResults source funcIndex inst)
        ((stackMachine memory host numerics).takeResults (source.withBodies bodies) funcIndex
          inst')
      rw [finished, finishedToo, sameInst]
      exact ⟨rfl, rfl⟩

variable (inst) in
/-- A function is entered from outside alike. -/
theorem starts
    {decl : FuncDeclaration}
    (same : SameBodies source bodies)
    (isDecl : source.funcDecls[funcIndex.toNat]? = some decl)
    (isTy : source.types[decl.ty]? = some ty)
    (count : params.length = ty.params.length)
    (stack : Stack Value) :
    ((sourceMachine memory host numerics).enter source funcIndex ()
          ((sourceMachine memory host numerics).stageParams params inst) = none ∧
      (stackMachine memory host numerics).enter (source.withBodies bodies) funcIndex
          .initialData ((stackMachine memory host numerics).stageParams params
            (inst.withFrame stack)) = none) ∨
    ∃ a b started stack',
      (sourceMachine memory host numerics).enter source funcIndex ()
          ((sourceMachine memory host numerics).stageParams params inst) =
            some (a, ty.results.length, started) ∧
        (stackMachine memory host numerics).enter (source.withBodies bodies) funcIndex
          .initialData ((stackMachine memory host numerics).stageParams params
            (inst.withFrame stack)) = some (b, ty.results.length, started.withFrame stack') ∧
        Running host numerics (moduleTypes source.types source.funcDecls) []
          ty.results.length ⟨a, 0, [], started⟩ ⟨b, 0, [], started.withFrame stack'⟩ := by
  have taken : ((sourceMachine memory host numerics).stageParams params inst).frame.take
      ty.params.length = some (params.map Val.toValue, ⟨[], []⟩) :=
    take_outside ((List.length_map _).trans count)
  have empty : (reset stack).Holds [] := ⟨Nat.zero_le _, rfl⟩
  have base : StackCallerBaseData.initialData.baseHeight = (contents [] []).length := rfl
  cases enters host numerics same (funcType_eq_ok isDecl isTy) taken
      ((List.length_map _).trans count) (empty.pushAll _) base with
  | refused notEntered notEnteredToo => exact .inl ⟨notEntered, notEnteredToo⟩
  | @overflows a call entered small noOperands high notEntered =>
      change 2 ^ 32 ≤ (call.locals ++ call.flat).length at high
      rw [noOperands, List.append_nil] at high
      omega
  | @entered func located lowered call a b stack' entered enteredToo activation results inside
      segmented stands =>
      refine .inr ⟨a, b, _, stack', entered, enteredToo, func, located, lowered, call, [],
        activation, rfl, inside, rfl, rfl, segmented, stands, ?_⟩
      rw [results]
      exact .nil

/-- In every configuration that a call from outside comes to, there are few enough values
for a height to count them. -/
def StaysLow
    (source : Module Located Layout) (funcIndex : FuncIndex) (params : List Val)
    (resultsCount : Nat) (inst : Wasm.SourceInstance memory registry) : Prop :=
  ∀ c, (sourceMachine memory host numerics).During source (fun _ => True) funcIndex params
    resultsCount inst c → heightOf c.inst.frame < 2 ^ 32

/-- A call from outside comes to the same on the same budget. -/
theorem runsOnFrameStack_alike
    {decl : FuncDeclaration}
    (same : SameBodies source bodies)
    (honors : HonorsDeclarations memory host source)
    (isDecl : source.funcDecls[funcIndex.toNat]? = some decl)
    (isTy : source.types[decl.ty]? = some ty)
    (count : params.length = ty.params.length)
    (low : StaysLow host numerics source funcIndex params ty.results.length inst)
    (stack : Stack Value) (fuel : Nat) :
    Option.Rel SameEnd
      ((sourceMachine memory host numerics).runOnFrameStack source fuel funcIndex params inst)
      ((stackMachine memory host numerics).runOnFrameStack (source.withBodies bodies) fuel
        funcIndex params (inst.withFrame stack)) := by
  have isEnd : ∀ {left right},
      Option.Rel (Ended host numerics ty.results.length) left right →
        Option.Rel SameEnd
          (left.map ((sourceMachine memory host numerics).finish source funcIndex))
          (right.map ((stackMachine memory host numerics).finish (source.withBodies bodies)
            funcIndex)) := by
    intro left right related
    cases related with
    | none => exact .none
    | some ended => exact .some (finishes host numerics (funcType_eq_ok isDecl isTy) ended)
  refine isEnd ?_
  rcases starts host numerics inst same isDecl isTy count stack with ⟨refused, refusedToo⟩ |
    ⟨a, b, started, stack', entered, enteredToo, running⟩
  · rw [Machine.executeOnFrameStack_of_refused refused,
      Machine.executeOnFrameStack_of_refused refusedToo]
    exact .some ended_of_panic
  · rw [Machine.executeOnFrameStack_of_entered entered,
      Machine.executeOnFrameStack_of_entered enteredToo]
    apply (lockstep host numerics [] ty.results.length same honors funcIndex).frameLoop fuel
      running
    intro c ran
    exact Nat.not_le.mpr (low c ⟨a, started, entered, ran⟩)

variable (inst) in
/-- A call from outside comes to the same on both machines. -/
theorem comesTo_alike
    {decl : FuncDeclaration} {answer : Attempt FuncCallError (List Val)}
    {after : Instance Unit memory registry}
    (same : SameBodies source bodies)
    (wellFormed : (sourceMachine memory host numerics).WellFormed source)
    (wellFormedToo : (stackMachine memory host numerics).WellFormed (source.withBodies bodies))
    (honors : HonorsDeclarations memory host source)
    (isDecl : source.funcDecls[funcIndex.toNat]? = some decl)
    (isTy : source.types[decl.ty]? = some ty)
    (count : params.length = ty.params.length)
    (low : StaysLow host numerics source funcIndex params ty.results.length inst)
    (stack : Stack Value) :
    (stackMachine memory host numerics).ComesTo (source.withBodies bodies) funcIndex params
        (inst.withFrame stack) answer after ↔
      (sourceMachine memory host numerics).ComesTo source funcIndex params inst answer
        after := by
  have related : ∀ fuel, Option.Rel SameEnd
      ((sourceMachine memory host numerics).runOnFrameStack source fuel funcIndex params inst)
      ((stackMachine memory host numerics).runOnFrameStack (source.withBodies bodies) fuel
        funcIndex params (inst.withFrame stack)) :=
    runsOnFrameStack_alike host numerics same honors isDecl isTy count low stack
  exact Machine.comesTo_congr wellFormed wellFormedToo related

end Outside

/-- A module compiled from validated code does what its operators mean: the lowered
bodies come to the answer and the instance that executing the operators comes to, or
run forever if that does. The operators' values have to stay countable on the way. -/
theorem lowering_preserves_meaning
    {memory registry : Type} [Memory memory] {host : ImportRegistry registry}
    {numerics : Numerics} {module : Module StackInstruction StackFrameLayout}
    {entries : List CodeEntry} {bodies : List (FuncBody Located Layout)}
    {funcIndex : FuncIndex} {decl : FuncDeclaration} {ty : FuncType} {params : List Val}
    {inst : StackInstance memory registry} {calls : CallStack}
    (checked : CheckedCode module entries)
    (compiled : compileCode emitter module.types module.funcDecls module.importedFuncCount
      entries = .ok module.funcBodies)
    (meant : compileCode Wasm.emitter module.types module.funcDecls module.importedFuncCount
      entries = .ok bodies)
    (honors : HonorsDeclarations memory host module)
    (isDecl : module.funcDecls[funcIndex.toNat]? = some decl)
    (isTy : module.types[decl.ty]? = some ty)
    (count : params.length = ty.params.length)
    (low : StaysLow host numerics (module.withBodies bodies) funcIndex params
      ty.results.length (inst.withFrame calls))
    (answer : Attempt FuncCallError (List Val)) (after : Instance Unit memory registry) :
    (Stack.machine host numerics).ComesTo module funcIndex params inst answer after ↔
      (Wasm.machine host numerics).ComesTo (module.withBodies bodies) funcIndex params
        (inst.withFrame calls) answer after := by
  have same := sameBodies_of_compileCode checked compiled meant
  obtain ⟨wellFormed, wellFormedToo⟩ := @wellFormed_of_compileCode memory registry _ host
    numerics module entries bodies checked compiled meant
  exact comesTo_alike host numerics (inst.withFrame calls) same wellFormed wellFormedToo honors
    isDecl isTy count low inst.frame

/-- What earlier calls have left on the operand stack cannot be told: a call whose values
stay countable comes to the same whatever the stack holds. -/
theorem stale_values_are_invisible
    {memory registry : Type} [Memory memory] {host : ImportRegistry registry}
    {numerics : Numerics} {module : Module StackInstruction StackFrameLayout}
    {entries : List CodeEntry} {bodies : List (FuncBody Located Layout)}
    {funcIndex : FuncIndex} {decl : FuncDeclaration} {ty : FuncType} {params : List Val}
    {inst : StackInstance memory registry} {calls : CallStack}
    (checked : CheckedCode module entries)
    (compiled : compileCode emitter module.types module.funcDecls module.importedFuncCount
      entries = .ok module.funcBodies)
    (meant : compileCode Wasm.emitter module.types module.funcDecls module.importedFuncCount
      entries = .ok bodies)
    (honors : HonorsDeclarations memory host module)
    (isDecl : module.funcDecls[funcIndex.toNat]? = some decl)
    (isTy : module.types[decl.ty]? = some ty)
    (count : params.length = ty.params.length)
    (low : StaysLow host numerics (module.withBodies bodies) funcIndex params
      ty.results.length (inst.withFrame calls))
    (stack : Stack Value) (answer : Attempt FuncCallError (List Val))
    (after : Instance Unit memory registry) :
    (Stack.machine host numerics).ComesTo module funcIndex params (inst.withFrame stack) answer
        after ↔
      (Stack.machine host numerics).ComesTo module funcIndex params inst answer after := by
  have same := sameBodies_of_compileCode checked compiled meant
  obtain ⟨wellFormed, wellFormedToo⟩ := @wellFormed_of_compileCode memory registry _ host
    numerics module entries bodies checked compiled meant
  have alike : ∀ stack : Stack Value,
      (Stack.machine host numerics).ComesTo module funcIndex params (inst.withFrame stack)
          answer after ↔
        (Wasm.machine host numerics).ComesTo (module.withBodies bodies) funcIndex params
          (inst.withFrame calls) answer after :=
    comesTo_alike host numerics (inst.withFrame calls) same wellFormed wellFormedToo honors
      isDecl isTy count low
  exact (alike stack).trans (alike inst.frame).symm

section Handing

/-- A function that branches out of a block with seven and hands it to the other. -/
def handingEntries : List CodeEntry :=
  [⟨[], [(.block (.type .i32), 0), (.const (.i32 7), 2), (.br 0, 4), (.endOp, 6),
      (.call 1, 7), (.endOp, 9)]⟩,
    ⟨[], [(.localGet 0, 12), (.endOp, 14)]⟩]

/-- The bodies that they are lowered to. -/
def handingBodies : List (FuncBody StackInstruction StackFrameLayout) :=
  [⟨[], [.block, .const (.i32 7), .br ⟨3, 1, 0⟩, .endOp 1 0, .call 1 1, .endOp 1 0],
      [0, 2, 4, 6, 7, 9], ⟨[]⟩⟩,
    ⟨[.i32], [.localGet 0, .endOp 1 0], [12, 14], ⟨[]⟩⟩]

/-- A module of the two functions. -/
def handingModule : Module StackInstruction StackFrameLayout where
  types := [⟨[], [.i32]⟩, ⟨[.i32], [.i32]⟩]
  funcDecls := [⟨⟨0⟩, .«local»⟩, ⟨⟨1⟩, .«local»⟩]
  importedFuncCount := 0
  funcBodies := handingBodies
  tables := []
  memories := []
  globals := []
  importedGlobalCount := 0
  exports := fun _ => none
  exportedFuncName := fun _ => none
  startSection := none
  elements := []
  datas := []

/-- The bodies themselves. -/
def handingMeaning : List (FuncBody Located Layout) :=
  [⟨[], Wasm.numbered [.block (.type .i32), .const (.i32 7), .br 0, .endOp, .call 1, .endOp],
      [0, 2, 4, 6, 7, 9],
      ⟨[.block (.type .i32), .const (.i32 7), .br 0, .endOp, .call 1, .endOp], 1⟩⟩,
    ⟨[.i32], Wasm.numbered [.localGet 0, .endOp], [12, 14], ⟨[.localGet 0, .endOp], 1⟩⟩]

/-- The module is one that is checked. -/
theorem handing_checked : CheckedCode handingModule handingEntries where
  declsFit := by decide
  sizes := by decide
  narrow := by
    intro entry member op isOp
    rcases List.mem_pair.mp member with rfl | rfl
    · simp only [CodeEntry.ops, List.map_cons, List.map_nil, List.mem_cons, List.not_mem_nil,
        or_false] at isOp
      rcases isOp with rfl | rfl | rfl | rfl | rfl | rfl <;> trivial
    · simp only [CodeEntry.ops, List.map_cons, List.map_nil, List.mem_cons, List.not_mem_nil,
        or_false] at isOp
      rcases isOp with rfl | rfl <;> trivial
  validates := by
    intro index entry decl ty fits isEntry isDecl isTy
    rcases index with _ | _ | index
    · cases isEntry
      cases isDecl
      cases isTy
      exact ⟨_, rfl, rfl⟩
    · cases isEntry
      cases isDecl
      cases isTy
      exact ⟨_, rfl, rfl⟩
    · cases isEntry

/-- Nothing is imported, so the host has nothing to honor. -/
theorem handing_honors (host : ImportRegistry Unit) :
    HonorsDeclarations LinearMemory host handingModule := by
  intro callee func found
  obtain ⟨decl, isDecl, found⟩ := Option.bind_eq_some_iff.mp found
  obtain ⟨ty, _, found⟩ := Option.bind_eq_some_iff.mp found
  have isLocal : decl.kind = .«local» := by
    rcases List.mem_pair.mp (List.mem_of_getElem? isDecl) with rfl | rfl <;> rfl
  rw [isLocal] at found
  cases found

/-- The numeric operators are not used. -/
def noNumerics : Numerics :=
  ⟨fun _ _ => Attempt.panicked, fun _ _ _ => Attempt.panicked⟩

/-- The call has one value at a time. -/
theorem handing_low :
    StaysLow (answering []) noNumerics (handingModule.withBodies handingMeaning) 0 [] 1
      ((bareInstance emptyStack).withFrame ⟨[], []⟩) := by
  intro c during
  obtain ⟨activation, started, entered, ran⟩ := during.ran
  cases entered
  exact of_decide_eq_true (@Machine.Runs.of_passesOnly _ _
    (sourceMachine LinearMemory (answering []) noNumerics) _ _ _ _
    (fun c => decide (heightOf c.inst.frame < 2 ^ 32)) 10 _ _ (by rfl) ran)

/-- Both machines come to the same. -/
theorem lowering_preserves_meaning_handing :
    (@Wasm.machine LinearMemory Unit _ (answering []) noNumerics).ComesTo
      (handingModule.withBodies handingMeaning) 0 []
      ((bareInstance emptyStack).withFrame ⟨[], []⟩) (.ok [.i32 7]) (bareInstance ()) :=
  (lowering_preserves_meaning handing_checked rfl rfl (handing_honors (answering [])) rfl rfl
    rfl handing_low _ _).mp ⟨9, _, rfl, rfl, rfl⟩

/-- The slot above the top that an earlier call has left. -/
theorem stale_values_are_invisible_handing :
    (@Stack.machine LinearMemory Unit _ (answering []) noNumerics).ComesTo handingModule 0 []
      ((bareInstance emptyStack).withFrame ⟨[3, 5], 1⟩) (.ok [.i32 7]) (bareInstance ()) :=
  (stale_values_are_invisible handing_checked rfl rfl (handing_honors (answering [])) rfl rfl
    rfl handing_low ⟨[3, 5], 1⟩ _ _).mpr ⟨9, _, rfl, rfl, rfl⟩

end Handing

end Stack
end TraceWasm
