import TraceWasm.Runtime.StepCases
import TraceWasm.Stack.SameSteps

/-!
# Calls of the two machines

A function is entered with the same arguments and zeros on both machines, and left with
the same results: the operands that are left are all of them.
-/

namespace TraceWasm

namespace Stack

open Wasm (CallFrame CallStack Layout Located Shaped Stands executeOperator take_append under)

/-! ## Compiled modules -/

/-- The bodies of one function in the two modules, of the function's declared type. -/
structure SameFunction
    (mod : ModuleTypes) (ty : FuncType) (func : FuncHeader)
    (located : List (Operator × Nat)) (lowered : LoweredFuncBody)
    (source : FuncBody Located Layout) (target : FuncBody StackInstruction StackFrameLayout) :
    Prop extends SameBody mod func located lowered source target where
  params : func.params = ty.params.length
  results : func.results = ty.results.length
  localsCount : source.locals.length = func.localsCount
  locals : target.locals = source.locals
  /-- No declared local is a vector. -/
  zeros : ∀ declared ∈ source.locals.drop ty.params.length, declared ≠ .v128

/-- The bodies are those that the module's own are lowered to. -/
structure SameBodies
    (source : Module Located Layout)
    (bodies : List (FuncBody StackInstruction StackFrameLayout)) : Prop where
  declsFit : source.funcDecls.length ≤ 2 ^ 32
  length : bodies.length = source.funcBodies.length
  func : ∀ (callee : Nat) (decl : FuncDeclaration) (ty : FuncType)
      (body : FuncBody Located Layout),
    source.importedFuncCount ≤ callee → source.funcDecls[callee]? = some decl →
    source.types[decl.ty]? = some ty →
    source.funcBodies[callee - source.importedFuncCount]? = some body →
    ∃ func located lowered target,
      bodies[callee - source.importedFuncCount]? = some target ∧
      SameFunction (moduleTypes source.types source.funcDecls) ty func located lowered body
        target

/-- Locals that are no vectors start as zeros. -/
theorem zeros_isSome
    {localsTy : List ValType}
    (noVector : ∀ declared ∈ localsTy, declared ≠ .v128) :
    ∃ locals, zeros localsTy = some locals ∧ locals.length = localsTy.length := by
  induction localsTy with
  | nil => exact ⟨[], rfl, rfl⟩
  | cons ty rest inductionHypothesis =>
      obtain ⟨locals, areZeros, length⟩ := inductionHypothesis
        fun declared member => noVector declared (List.mem_cons_of_mem _ member)
      have isZero : ∃ zero, (Value.zeroOfTy ty : Attempt Empty Value).toOption = some zero := by
        have notVector := noVector ty List.mem_cons_self
        cases ty <;> first | exact ⟨_, rfl⟩ | contradiction
      obtain ⟨zero, isZero⟩ := isZero
      refine ⟨zero :: locals, ?_, by rw [List.length_cons, List.length_cons, length]⟩
      unfold zeros at areZeros ⊢
      rw [List.mapM_cons, isZero, areZeros]
      rfl

section Calls

variable {memory registry : Type} [Memory memory] {host : ImportRegistry registry}
  {numerics : Numerics} {source : Module Located Layout}
  {bodies : List (FuncBody StackInstruction StackFrameLayout)}
  {inst : Wasm.SourceInstance memory registry} {stack : Stack Value}
  {outside : List Value} {calls : List CallFrame}

/-! ## Entering a function -/

/-- A function that starts stands at its first operator. -/
theorem stands_first
    {mod : ModuleTypes} {func : FuncHeader} {ops : List Operator} {locals : List Value}
    (validates : Validates mod func ops)
    (length : locals.length = func.localsCount) :
    0 < ops.length ∧
      Stands mod func ops 0 ⟨locals, [⟨none, func.results, []⟩], []⟩ := by
  have ran : Validator.before mod func ops 0 = some (.initial func.params func.results) := rfl
  have inside := validates.inside_of_frames ran (Nat.zero_le _) (List.cons_ne_nil _ _)
  refine ⟨inside, ⟨length, rfl, ?_⟩, heights_of_live validates inside ran rfl⟩
  intro label outer suffix
  rcases List.suffix_cons_iff.mp suffix with same | suffix
  · cases same
    exact ⟨⟨func.params, func.results, 0⟩, rfl, rfl, rfl⟩
  · cases List.suffix_nil.mp suffix

/-- A function is entered on both machines with the same locals, or on neither, or its
locals reach past what a height can count. -/
inductive EntersAlike
    (host : ImportRegistry registry) (numerics : Numerics) (source : Module Located Layout)
    (bodies : List (FuncBody StackInstruction StackFrameLayout)) (callee : FuncIndex)
    (base : StackCallerBaseData) (ty : FuncType) (inst : Wasm.SourceInstance memory registry)
    (stack : Stack Value) (outside : List Value) (calls : List CallFrame) : Prop where
  | refused
      (notEntered : (sourceMachine memory host numerics).enter source callee () inst = none)
      (notEnteredToo : (stackMachine memory host numerics).enter (source.withBodies bodies)
        callee base (inst.withFrame stack) = none)
  | overflows
      {a : (sourceMachine memory host numerics).Activation} {call : CallFrame}
      (entered : (sourceMachine memory host numerics).enter source callee () inst =
        some (a, ty.results.length, { inst with frame := ⟨call :: calls, outside⟩ }))
      (small : call.locals.length ≤ 50000)
      (noOperands : call.flat = [])
      (high : 2 ^ 32 ≤ heightOf ⟨call :: calls, outside⟩)
      (notEntered : (stackMachine memory host numerics).enter (source.withBodies bodies)
        callee base (inst.withFrame stack) = none)
  | entered
      {func : FuncHeader} {located : List (Operator × Nat)} {lowered : LoweredFuncBody}
      {call : CallFrame} {a : (sourceMachine memory host numerics).Activation}
      {b : (stackMachine memory host numerics).Activation} {stack' : Stack Value}
      (entered : (sourceMachine memory host numerics).enter source callee () inst =
        some (a, ty.results.length, { inst with frame := ⟨call :: calls, outside⟩ }))
      (enteredToo : (stackMachine memory host numerics).enter (source.withBodies bodies)
        callee base (inst.withFrame stack) = some (b, ty.results.length, inst.withFrame stack'))
      (activation : SameActivation (moduleTypes source.types source.funcDecls) func located
        lowered a b)
      (results : func.results = ty.results.length)
      (inside : 0 < (located.map Prod.fst).length)
      (segmented : Segmented stack' b.callerBaseData (contents outside calls) call.locals
        call.flat)
      (stands : Stands (moduleTypes source.types source.funcDecls) func (located.map Prod.fst)
        0 call)

variable (host numerics) in
/-- A function is entered alike with the same arguments on top. -/
theorem enters
    {callee : FuncIndex} {base : StackCallerBaseData} {ty : FuncType} {args : List Value}
    (same : SameBodies source bodies)
    (typed : (source.funcType callee : Attempt InstructionExecutionError FuncType) = .ok ty)
    (taken : inst.frame.take ty.params.length = some (args, ⟨calls, outside⟩))
    (count : args.length = ty.params.length)
    (holds : stack.Holds (contents outside calls ++ args))
    (calleeHeight : base.baseHeight = (contents outside calls).length) :
    EntersAlike host numerics source bodies callee base ty inst stack outside calls := by
  obtain ⟨decl, isDecl, isTy⟩ := Attempt.bind_eq_ok.mp typed
  replace isDecl := Attempt.orPanic_eq_ok.mp isDecl
  replace isTy := Attempt.orPanic_eq_ok.mp isTy
  have isDeclToo : (source.withBodies bodies).funcDecls[callee.toNat]? = some decl := isDecl
  have isTyToo : (source.withBodies bodies).types[decl.ty]? = some ty := isTy
  by_cases isLocal : source.importedFuncCount ≤ callee.toNat
  · have isLocalToo : (source.withBodies bodies).importedFuncCount ≤ callee.toNat := isLocal
    cases found : source.funcBodies[callee.toNat - source.importedFuncCount]? with
    | none =>
        have notFound : (source.withBodies bodies).funcBodies[callee.toNat -
            (source.withBodies bodies).importedFuncCount]? = none := by
          rw [List.getElem?_eq_none_iff] at found ⊢
          exact same.length ▸ found
        exact .refused (Machine.enter_of_noBody found) (Machine.enter_of_noBody notFound)
    | some body =>
        obtain ⟨func, located, lowered, target, isTarget, sameFunc⟩ :=
          same.func callee.toNat decl ty body isLocal isDecl isTy found
        have isTargetToo : (source.withBodies bodies).funcBodies[callee.toNat -
            (source.withBodies bodies).importedFuncCount]? = some target := isTarget
        obtain ⟨locals, areZeros, length⟩ := zeros_isSome sameFunc.zeros
        have paramsLe : ty.params.length ≤ body.locals.length := by
          rw [← sameFunc.params, sameFunc.localsCount]
          exact func.params_le
        rw [List.length_drop] at length
        have localsCount : (args ++ locals).length = func.localsCount := by
          rw [List.length_append, count, length, ← sameFunc.localsCount]
          omega
        have localsLe := func.locals_le
        have isWord : body.locals.length % 2 ^ 32 = body.locals.length :=
          Nat.mod_eq_of_lt (by rw [sameFunc.localsCount]; omega)
        obtain ⟨inside, stands⟩ := stands_first sameFunc.validates localsCount
        have enteredFrame : inst.frame.enterFrame ty.params.length body.locals
            body.frameLayout =
              some ⟨⟨args ++ locals, [⟨none, func.results, []⟩], []⟩ :: calls, outside⟩ := by
          unfold CallStack.enterFrame
          rw [taken, sameFunc.layout, Option.bind_eq_bind, Option.bind_some, areZeros]
          rfl
        have entered : (sourceMachine memory host numerics).enter source callee () inst = _ :=
          Machine.enter_of_body isLocal isDecl isTy found
            (Option.map_eq_some_iff.mpr ⟨_, enteredFrame, rfl⟩)
        by_cases fits : base.baseHeight + body.locals.length < 2 ^ 32
        · have enteredToo : stack.enterFrame ty.params.length target.locals base =
              some (stack.pushAll locals, { base with
                calleeFrameBaseHeight := base.baseHeight + body.locals.length }) := by
            unfold Stack.enterFrame
            rw [sameFunc.locals, guard, if_pos paramsLe, areZeros, isWord,
              addHeights_of_lt fits]
            rfl
          have pushed := holds.pushAll locals
          refine .entered entered
            (Machine.enter_of_body isLocalToo isDeclToo isTyToo isTargetToo enteredToo)
            ⟨rfl, sameFunc.toSameBody⟩ sameFunc.results inside ⟨?_, calleeHeight, ?_⟩ stands
          · rw [List.append_assoc] at pushed
            change (stack.pushAll locals).Holds
              (contents outside calls ++ (args ++ locals) ++ [])
            rw [List.append_nil]
            exact pushed
          · rw [calleeHeight, localsCount, sameFunc.localsCount]
        · have notEntered : stack.enterFrame ty.params.length target.locals base = none := by
            unfold Stack.enterFrame
            rw [sameFunc.locals, guard, if_pos paramsLe, areZeros, isWord,
              addHeights_of_le (Nat.not_lt.mp fits)]
            rfl
          refine .overflows entered (localsCount.trans_le localsLe) rfl ?_
            (Machine.enter_of_noFrame isDeclToo isTyToo isTargetToo notEntered)
          change 2 ^ 32 ≤ (contents outside calls ++ (args ++ locals) ++ []).length
          rw [List.append_nil, List.length_append, localsCount, ← calleeHeight,
            ← sameFunc.localsCount]
          exact Nat.not_lt.mp fits
  · have isImportedToo : ¬(source.withBodies bodies).importedFuncCount ≤ callee.toNat := isLocal
    exact .refused (Machine.enter_of_imported isLocal) (Machine.enter_of_imported isImportedToo)

/-! ## Leaving a function -/

/-- At the end of a validated body no label is left. -/
theorem labels_eq_nil
    {mod : ModuleTypes} {func : FuncHeader} {ops : List Operator} {call : CallFrame}
    (validates : Validates mod func ops)
    (shaped : Shaped mod func ops ops.length call) :
    call.labels = [] := by
  obtain ⟨v, ran, closed⟩ := validates
  have atEnd : Validator.before mod func ops ops.length = some v := by
    unfold Validator.before
    rw [List.take_length]
    exact ran
  have entries := entries_before atEnd le_rfl
  rw [closed, List.forall₂_nil_right_iff] at entries
  have openers := shaped.openers
  unfold Nesting.openers at openers
  rw [entries] at openers
  exact List.map_eq_nil_iff.mp openers

/-- A function is left alike, with all its operands as results. -/
theorem leaves
    {mod : ModuleTypes} {func : FuncHeader} {ops : List Operator} {call : CallFrame}
    {a : (sourceMachine memory host numerics).Activation}
    {b : (stackMachine memory host numerics).Activation}
    (validates : Validates mod func ops)
    (frames : inst.frame = ⟨call :: calls, outside⟩)
    (segmented : Segmented stack b.callerBaseData (contents outside calls) call.locals
      call.flat)
    (stands : Stands mod func ops ops.length call) :
    ∃ results stack', results.length = func.results ∧
      (sourceMachine memory host numerics).leave a func.results inst =
        some { inst with frame := (⟨calls, outside⟩ : CallStack).give results } ∧
      (stackMachine memory host numerics).leave b func.results (inst.withFrame stack) =
        some (inst.withFrame stack') ∧
      stack'.Holds (contents outside calls ++ results) := by
  have noLabels := labels_eq_nil validates stands.toShaped
  have flat : call.flat = call.operands := by
    unfold CallFrame.flat
    rw [noLabels]
    rfl
  have count : call.operands.length = func.results := by
    have height := stands.height
    rw [heights_length, flat] at height
    exact (Option.some.inj height).symm
  have holds := segmented.holds
  rw [flat, List.append_assoc] at holds
  obtain ⟨after, truncated, left⟩ := holds.truncate
  refine ⟨call.operands, after, count, ?_, ?_, left⟩
  · have exited : inst.frame.exitFrame func.results =
        some ((⟨calls, outside⟩ : CallStack).give call.operands) := by
      unfold CallStack.exitFrame
      rw [frames, take_append (List.nil_append _).symm count]
      rfl
    change Option.bind (inst.frame.exitFrame func.results) _ = _
    rw [exited]
    rfl
  · have exited : stack.exitFrame func.results b.callerBaseData = some after := by
      unfold Stack.exitFrame
      rw [segmented.baseHeight, ← count]
      exact truncated
    change Option.bind (stack.exitFrame func.results b.callerBaseData) _ = _
    rw [exited]
    rfl

end Calls

end Stack
end TraceWasm
