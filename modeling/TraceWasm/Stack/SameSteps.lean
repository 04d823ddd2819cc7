import TraceWasm.Stack.Correspondence

/-!
# Corresponding configurations execute alike

One operator on the one machine and its instruction on the other end in the same
error, go on at the same place with the same operands, or make the same call.
-/

namespace TraceWasm

namespace Wasm

section Source

variable {memory registry : Type} [Memory memory] {host : ImportRegistry registry}
  {numerics : Numerics} {module : Module Located Layout} {layout : Layout}
  {inst : SourceInstance memory registry} {call after : CallFrame} {calls : List CallFrame}
  {outside : List Value}

/-- An operator without effects beyond its call. -/
theorem executeOperator_of_act
    {position : Nat} {op : Operator} {step : Step Unit}
    (stays : op.staysInCall = true)
    (frames : inst.frame = ⟨call :: calls, outside⟩)
    (acts : call.act module.types layout.ops position op = some (step, after)) :
    executeOperator host numerics module (position, op) layout inst =
      (.ok step, { inst with frame := ⟨after :: calls, outside⟩ }) := by
  cases op <;> first
    | (cases stays; done)
    | (unfold executeOperator
       dsimp only
       rw [frames]
       dsimp only
       rw [acts])

omit [Memory memory] in
/-- Values are taken off the innermost call. -/
theorem take_append
    {rest top : List Value} {count : Nat}
    (operands : call.operands = rest ++ top)
    (length : top.length = count) :
    CallStack.take ⟨call :: calls, outside⟩ count =
      some (top, ⟨{ call with operands := rest } :: calls, outside⟩) := by
  unfold CallStack.take
  dsimp only
  rw [operands, ← length, splitTop_append]
  rfl

end Source

end Wasm

/-- The declared type of an imported function. -/
theorem ty_of_importedFunc
    (ε : Type) {Instr FrameLayout : Type} {module : Module Instr FrameLayout}
    {callee : FuncIndex} {func : ImportedFunc}
    (found : module.importedFunc callee = some func) :
    (module.funcType callee : Attempt ε FuncType) = .ok func.ty := by
  obtain ⟨decl, isDecl, found⟩ := Option.bind_eq_some_iff.mp found
  obtain ⟨ty, isTy, found⟩ := Option.bind_eq_some_iff.mp found
  unfold Module.funcType
  rw [isDecl]
  change Attempt.orPanic module.types[decl.ty]? = _
  rw [isTy]
  cases kind : decl.kind with
  | «local» =>
      rw [kind] at found
      cases found
  | imported moduleName funcName =>
      rw [kind] at found
      cases found
      rfl

/-- An indirect call that resolves is one of a function of the expected type. -/
theorem resolveIndirect_eq_ok
    {frame memory registry Instr FrameLayout : Type}
    {module : Module Instr FrameLayout} {inst : Instance frame memory registry}
    {tyIndex tableIndex slot : Nat} {callee : FuncIndex} {ty : FuncType}
    (resolved : resolveIndirect module inst tyIndex tableIndex slot = .ok (callee, ty)) :
    module.types[tyIndex]? = some ty ∧
      (module.funcType callee : Attempt InstructionExecutionError FuncType) = .ok ty := by
  obtain ⟨table, _, resolved⟩ := Attempt.bind_eq_ok.mp resolved
  split at resolved
  · cases resolved
  · cases resolved
  · obtain ⟨expected, isExpected, resolved⟩ := Attempt.bind_eq_ok.mp resolved
    obtain ⟨declared, isDeclared, resolved⟩ := Attempt.bind_eq_ok.mp resolved
    split at resolved
    · cases resolved
    · rename_i same
      cases resolved
      rw [not_or, not_not, not_not] at same
      obtain ⟨params, results⟩ := expected
      obtain ⟨params', results'⟩ := ty
      obtain ⟨sameParams, sameResults⟩ := same
      dsimp only at sameParams sameResults
      rw [← sameParams, ← sameResults]
      exact ⟨Attempt.orPanic_eq_ok.mp isExpected, by rw [sameParams, sameResults]; exact isDeclared⟩

/-- A direct call names the function by a word. -/
theorem funcType_of_moduleTypes
    {Instr FrameLayout : Type} {module : Module Instr FrameLayout} {functionIndex : Nat}
    {ty : FuncType}
    (declsFit : module.funcDecls.length ≤ 2 ^ 32)
    (typed : (moduleTypes module.types module.funcDecls).funcType functionIndex = some ty) :
    (module.funcType (BitVec.ofNat 32 functionIndex) :
      Attempt InstructionExecutionError FuncType) = .ok ty := by
  obtain ⟨decl, isDecl, isTy⟩ := Option.bind_eq_some_iff.mp typed
  change (module.funcDecls.map _)[functionIndex]? = _ at isDecl
  change module.types[decl.ty]? = _ at isTy
  rw [List.getElem?_map] at isDecl
  obtain ⟨declaration, found, same⟩ := Option.map_eq_some_iff.mp isDecl
  have inside := (List.getElem?_eq_some_iff.mp found).1
  unfold Module.funcType
  rw [BitVec.toNat_ofNat, Nat.mod_eq_of_lt (by omega), found]
  change Attempt.orPanic module.types[declaration.ty]? = _
  rw [show declaration.ty = decl.ty from congrArg FuncDecl.ty same, isTy]
  rfl

namespace Stack

open Wasm (CallFrame CallStack Layout Located Shaped SourceAnswer Stands executeOperator
  exists_last exists_top flat_concat take_append)

/-! ## What two instructions answer -/

section Answers

variable {memory registry : Type} [Memory memory]
variable (source : Module Located Layout) (mod : ModuleTypes) (func : FuncHeader)
  (ops : List Operator) (position : Nat) (base : StackCallerBaseData)
  (outside : List Value) (calls : List CallFrame)

/-- The same error, the same way on, or the same call. -/
inductive SameAnswer :
    SourceAnswer memory registry → Answer memory registry → Prop where
  | failed
      {fault : Fault InstructionExecutionError} {inst : Wasm.SourceInstance memory registry}
      (stack : Stack Value) :
      SameAnswer (.error fault, inst) (.error fault, inst.withFrame stack)
  | onward
      {step : Step Unit} {step' : Step StackCallerBaseData} {index : Nat}
      {call : CallFrame} {inst : Wasm.SourceInstance memory registry} {stack : Stack Value}
      (onward : Onward position step step' index)
      (frames : inst.frame = ⟨call :: calls, outside⟩)
      (segmented : Segmented stack base (contents outside calls) call.locals call.flat)
      (stands : Stands mod func ops index call) :
      SameAnswer (.ok step, inst) (.ok step', inst.withFrame stack)
  | calls
      {callee : FuncIndex} {calleeBase : StackCallerBaseData} {isIndirect : Option Nat}
      {ty : FuncType} {call : CallFrame} {rest args : List Value}
      {inst : Wasm.SourceInstance memory registry} {stack : Stack Value}
      (typed : (source.funcType callee : Attempt InstructionExecutionError FuncType) = .ok ty)
      (frames : inst.frame = ⟨call :: calls, outside⟩)
      (operands : call.operands = rest ++ args)
      (count : args.length = ty.params.length)
      (segmented : Segmented stack base (contents outside calls) call.locals call.flat)
      (calleeHeight : calleeBase.baseHeight =
        (contents outside ({ call with operands := rest } :: calls)).length)
      (waits : Waits mod func ops position ty.results.length { call with operands := rest }) :
      SameAnswer (.ok (.call callee () isIndirect), inst)
        (.ok (.call callee calleeBase isIndirect), inst.withFrame stack)

end Answers

section Execute

variable {memory registry : Type} [Memory memory] {host : ImportRegistry registry}
  {numerics : Numerics} {source : Module Located Layout}
  {bodies : List (FuncBody StackInstruction StackFrameLayout)}
variable {mod : ModuleTypes} {func : FuncHeader} {ops : List Operator} {position : Nat}
  {lowered : LoweredFuncBody} {op : Operator} {instr : StackInstruction} {s : Lowering}
  {v v' : Validator} {base : StackCallerBaseData} {outside : List Value}
  {call : CallFrame} {calls : List CallFrame} {layout : Layout}
  {inst : Wasm.SourceInstance memory registry} {stack : Stack Value}

namespace Site

/-- An operator without effects beyond its call. -/
theorem executes_acting
    (site : Site mod func ops lowered position op instr s v v')
    (types : mod.types = source.types)
    (isLayout : layout.ops = ops)
    (stays : op.staysInCall = true)
    (frames : inst.frame = ⟨call :: calls, outside⟩)
    (segmented : Segmented stack base (contents outside calls) call.locals call.flat)
    (fits : stack.stackPointer < 2 ^ 32)
    (stands : Stands mod func ops position call) :
    SameAnswer source mod func ops position base outside calls
      (executeOperator host numerics source (position, op) layout inst)
      (execute host numerics (source.withBodies bodies) instr lowered.frame base
        (inst.withFrame stack)) := by
  obtain ⟨step, after, step', index, acts, actsToo, onward, left⟩ := site.acts stands stays
  rw [types] at acts
  rw [← isLayout] at acts
  rw [Wasm.executeOperator_of_act stays frames acts]
  have held : Segmented (inst.withFrame stack).frame base (contents outside calls)
    call.locals call.flat := segmented
  obtain ⟨stack, executed, segmented⟩ := execute_of_act held fits actsToo
  rw [executed]
  exact .onward onward rfl segmented left

/-- An operator that acts on the instance pops and pushes alike. -/
theorem executes_data
    {op : DataOp Nat Nat}
    (site : Site mod func ops lowered position (.data op) instr s v v')
    (narrow : (Operator.data op).Narrow)
    (frames : inst.frame = ⟨call :: calls, outside⟩)
    (segmented : Segmented stack base (contents outside calls) call.locals call.flat)
    (stands : Stands mod func ops position call) :
    SameAnswer source mod func ops position base outside calls
      (executeOperator host numerics source (position, .data op) layout inst)
      (execute host numerics (source.withBodies bodies) instr lowered.frame base
        (inst.withFrame stack)) := by
  obtain ⟨live, _⟩ := site.arrival stands.height
  obtain ⟨head, outer, opened⟩ := site.opened
  have next := site.fits stands.height
  have isNarrow : Lowering.narrowOffset op.dropMemory = op.dropMemory := by
    cases op <;> first
      | rfl
      | exact congrArg _ (Nat.mod_eq_of_lt narrow)
  have inputs := DataOp.inputs_dropMemory op
  cases site.becomes live
  obtain ⟨_, enough, _⟩ := site.step live opened
  obtain ⟨_, count⟩ := site.counts stands (by simp) (by simp) opened
  obtain ⟨rest, args, operands, length⟩ := exists_top (show op.inputs ≤
    call.operands.length by omega)
  have flat : call.flat = { call with operands := rest }.flat ++ args := by
    unfold CallFrame.flat
    rw [operands, List.append_assoc]
  rw [isNarrow] at next ⊢
  rw [flat] at segmented
  obtain ⟨below, taken, segmented⟩ := segmented.takeRun
  rw [length, ← inputs] at taken
  unfold executeOperator execute executeData
  dsimp only [Instance.frame_withFrame]
  rw [frames, take_append operands length, taken]
  dsimp only
  let staged : Wasm.SourceInstance memory registry :=
    inst.withFrame (⟨{ call with operands := rest } :: calls, outside⟩ : CallStack)
  have effects := DataOp.effect_withFrame source bodies staged below numerics op.dropMemory args
  have kept := DataOp.frame_effect source staged numerics op.dropMemory args
  have counted : ∀ {results : List Value},
      (op.dropMemory.effect numerics source staged args).1 = .ok results →
        results.length = op.dropMemory.outputs := DataOp.length_effect
  change op.dropMemory.effect numerics (source.withBodies bodies)
    { inst.withFrame stack with frame := below } args = _ at effects
  rw [effects]
  change SameAnswer source mod func ops position base outside calls _ _
  rw [show ({ inst with frame := (⟨{ call with operands := rest } :: calls, outside⟩ :
    CallStack) } : Wasm.SourceInstance memory registry) = staged from rfl]
  generalize op.dropMemory.effect numerics source staged args = outcome at kept counted ⊢
  obtain ⟨answer, acted⟩ := outcome
  cases answer with
  | error fault => exact .failed below
  | ok results =>
      have pushed := segmented.pushAll results
      dsimp only at kept
      unfold reframe
      dsimp only [Instance.frame_withFrame]
      rw [kept]
      refine .onward .next rfl ?_ (site.goesOn stands.toShaped.operate rfl (by simp) ?_)
      · unfold CallFrame.flat at pushed ⊢
        rw [List.append_assoc] at pushed
        exact pushed
      · obtain ⟨_, next⟩ := next
        rw [next, flat]
        unfold CallFrame.flat
        simp only [List.length_append, counted rfl, inputs, length]
        congr 1
        omega

theorem executes_dataDrop
    {dataIndex : Nat}
    (site : Site mod func ops lowered position (.dataDrop dataIndex) instr s v v')
    (frames : inst.frame = ⟨call :: calls, outside⟩)
    (segmented : Segmented stack base (contents outside calls) call.locals call.flat)
    (stands : Stands mod func ops position call) :
    SameAnswer source mod func ops position base outside calls
      (executeOperator host numerics source (position, .dataDrop dataIndex) layout inst)
      (execute host numerics (source.withBodies bodies) instr lowered.frame base
        (inst.withFrame stack)) := by
  obtain ⟨live, _⟩ := site.arrival stands.height
  have next := site.fits stands.height
  cases site.becomes live
  have dropped := DataOp.dropData_withFrame inst stack dataIndex
  have kept : ∀ {after}, DataOp.dropData inst dataIndex = some after →
      after.frame = inst.frame := by
    intro after isDropped
    obtain ⟨_, _, same⟩ := Option.bind_eq_some_iff.mp isDropped
    cases same
    rfl
  unfold executeOperator execute
  dsimp only
  rw [dropped]
  cases isDropped : DataOp.dropData inst dataIndex with
  | none => exact .failed stack
  | some after =>
      exact .onward .next ((kept isDropped).trans frames) segmented
        (site.goesOn stands.toShaped rfl (by simp) next)

end Site

/-! ## Calls -/

/-- An imported function has returned so many values. -/
def Returned
    (base : StackCallerBaseData) (outside : List Value) (call : CallFrame)
    (calls : List CallFrame) (results : Nat) (left : CallStack) (stack : Stack Value) : Prop :=
  ∃ vals, vals.length = results ∧
    left = ⟨{ call with operands := call.operands ++ vals } :: calls, outside⟩ ∧
    Segmented stack base (contents outside calls) call.locals (call.flat ++ vals)

/-- A function is called alike once its arguments lie on top. -/
theorem dispatches
    {callee : FuncIndex} {isIndirect : Option Nat} {ty : FuncType} {rest args : List Value}
    (honors : HonorsDeclarations memory host source)
    (typed : (source.funcType callee : Attempt InstructionExecutionError FuncType) = .ok ty)
    (frames : inst.frame = ⟨call :: calls, outside⟩)
    (operands : call.operands = rest ++ args)
    (count : args.length = ty.params.length)
    (segmented : Segmented stack base (contents outside calls) call.locals call.flat)
    (fits : stack.stackPointer < 2 ^ 32)
    (waits : Waits mod func ops position ty.results.length
      { call with operands := rest }) :
    SameAnswer source mod func ops position base outside calls
      (Wasm.callFunction host source callee isIndirect inst)
      (dispatch host (source.withBodies bodies) callee isIndirect ty.params.length
        (inst.withFrame stack)) := by
  have flat : call.flat = { call with operands := rest }.flat ++ args := by
    unfold CallFrame.flat
    rw [operands, List.append_assoc]
  have height := segmented.holds.length
  rw [flat] at height
  simp only [List.length_append] at height
  have enough : ¬(inst.withFrame stack).frame.height < ty.params.length := by
    rw [Instance.frame_withFrame, height_of_lt fits]
    omega
  unfold Wasm.callFunction dispatch
  rw [if_neg enough]
  by_cases isLocal : source.importedFuncCount ≤ callee.toNat
  · have isLocalToo : (source.withBodies bodies).importedFuncCount ≤ callee.toNat := isLocal
    rw [if_pos isLocal, if_pos isLocalToo]
    refine .calls typed frames operands count segmented ?_ waits
    change stack.height - ty.params.length = _
    rw [height_of_lt fits]
    unfold contents
    simp only [List.length_append]
    omega
  · have isImportedToo : ¬(source.withBodies bodies).importedFuncCount ≤ callee.toNat := isLocal
    rw [if_neg isLocal, if_neg isImportedToo]
    rw [flat] at segmented
    have same : SameOutcome
        (Returned base outside { call with operands := rest } calls ty.results.length)
        (callImported host CallStack.boundary callee source inst isIndirect ())
        (callImported host boundary callee (source.withBodies bodies) (inst.withFrame stack)
          isIndirect
          { StackCallerBaseData.initialData with
            baseHeight := (inst.withFrame stack).frame.height - ty.params.length }) := by
      apply callImported_same honors
      intro imported found
      have isTy : imported.ty = ty := by
        have declared := ty_of_importedFunc InstructionExecutionError found
        rw [typed] at declared
        exact (Except.ok.inj declared).symm
      obtain ⟨below, taken, left⟩ := segmented.takeRun
      refine ⟨args, ⟨{ call with operands := rest } :: calls, outside⟩, below, ?_, ?_, ?_⟩
      · rw [isTy, frames]
        exact take_append operands count
      · rw [isTy, ← count]
        exact taken
      · intro results length
        refine ⟨_, _, rfl, rfl, results.map Val.toValue, ?_, rfl, left.pushAll _⟩
        rw [List.length_map, length, isTy]
    revert same
    generalize callImported host CallStack.boundary callee source inst isIndirect () = outcome
    generalize callImported host boundary callee (source.withBodies bodies)
      (inst.withFrame stack) isIndirect _ = outcome'
    intro same
    obtain ⟨answer, left⟩ := outcome
    obtain ⟨answer', left'⟩ := outcome'
    have isAnswer := same.answer
    have isInst := same.inst
    dsimp only at isAnswer isInst
    subst isAnswer
    rw [isInst]
    cases answer' with
    | error fault => exact .failed left'.frame
    | ok done =>
        obtain ⟨vals, length, isLeft, segmented⟩ := same.frames done rfl
        refine .onward .next isLeft ?_ ⟨waits.shaped.operate, ?_⟩
        · unfold CallFrame.flat at segmented ⊢
          rw [List.append_assoc] at segmented
          exact segmented
        · rw [waits.height, ← length]
          unfold CallFrame.flat
          simp only [List.length_append, Nat.add_assoc]

namespace Site

/-- A call waits for its results behind its operator. -/
theorem waits
    {results : Nat} {rest : List Value}
    (site : Site mod func ops lowered position op instr s v v')
    (shaped : Shaped mod func ops position call)
    (opens : op.opens = false) (notEnd : op ≠ .endOp)
    (open_ : v'.frames ≠ [])
    (height : heights mod func ops (position + 1) =
      some ({ call with operands := rest }.flat.length + results)) :
    Waits mod func ops position results { call with operands := rest } where
  inside := site.validates.inside_of_frames site.ranNext site.inside open_
  shaped := shaped.operate.move (Nesting.openers_of_plain site.found opens notEnd)
  height := height

theorem executes_call
    {functionIndex : Nat}
    (site : Site (moduleTypes source.types source.funcDecls) func ops lowered position
      (.call functionIndex) instr s v v')
    (honors : HonorsDeclarations memory host source)
    (declsFit : source.funcDecls.length ≤ 2 ^ 32)
    (frames : inst.frame = ⟨call :: calls, outside⟩)
    (segmented : Segmented stack base (contents outside calls) call.locals call.flat)
    (fits : stack.stackPointer < 2 ^ 32)
    (stands : Stands (moduleTypes source.types source.funcDecls) func ops position call) :
    SameAnswer source (moduleTypes source.types source.funcDecls) func ops position base
      outside calls
      (executeOperator host numerics source (position, .call functionIndex) layout inst)
      (execute host numerics (source.withBodies bodies) instr lowered.frame base
        (inst.withFrame stack)) := by
  obtain ⟨live, _⟩ := site.arrival stands.height
  obtain ⟨head, outer, opened⟩ := site.opened
  have arranged := site.fits stands.height
  obtain ⟨ty, typed, rfl⟩ := site.becomes live
  obtain ⟨other, typedOther, _, _, next⟩ := arranged
  rw [typed] at typedOther
  cases typedOther
  obtain ⟨_, other, typedOther, enough, isNext⟩ := site.step live opened
  rw [typed] at typedOther
  cases typedOther
  obtain ⟨_, count⟩ := site.counts stands (by simp) (by simp) opened
  obtain ⟨rest, args, operands, length⟩ := exists_top (show ty.params.length ≤
    call.operands.length by omega)
  have open_ : v'.frames ≠ [] := by
    rw [isNext, opened]
    exact List.cons_ne_nil _ _
  apply dispatches honors (funcType_of_moduleTypes declsFit typed) frames operands length
    segmented fits
  apply site.waits stands.toShaped rfl (by simp) open_
  rw [next]
  unfold CallFrame.flat
  rw [operands, ← length]
  simp only [List.length_append]
  congr 1
  omega

theorem executes_callIndirect
    {typeIndex tableIndex : Nat}
    (site : Site (moduleTypes source.types source.funcDecls) func ops lowered position
      (.callIndirect typeIndex tableIndex) instr s v v')
    (honors : HonorsDeclarations memory host source)
    (frames : inst.frame = ⟨call :: calls, outside⟩)
    (segmented : Segmented stack base (contents outside calls) call.locals call.flat)
    (fits : stack.stackPointer < 2 ^ 32)
    (stands : Stands (moduleTypes source.types source.funcDecls) func ops position call) :
    SameAnswer source (moduleTypes source.types source.funcDecls) func ops position base
      outside calls
      (executeOperator host numerics source (position, .callIndirect typeIndex tableIndex)
        layout inst)
      (execute host numerics (source.withBodies bodies) instr lowered.frame base
        (inst.withFrame stack)) := by
  obtain ⟨live, _⟩ := site.arrival stands.height
  obtain ⟨head, outer, opened⟩ := site.opened
  have arranged := site.fits stands.height
  obtain ⟨⟨ty, typed⟩, rfl⟩ := site.becomes live
  obtain ⟨other, typedOther, _, next⟩ := arranged
  rw [typed] at typedOther
  cases typedOther
  obtain ⟨_, other, typedOther, enough, isNext⟩ := site.step live opened
  rw [typed] at typedOther
  cases typedOther
  obtain ⟨_, count⟩ := site.counts stands (by simp) (by simp) opened
  obtain ⟨below, slot, operands⟩ := exists_last (show 1 ≤ call.operands.length by omega)
  rw [operands, List.length_append, List.length_singleton] at count
  obtain ⟨rest, args, isBelow, length⟩ := exists_top (show ty.params.length ≤
    below.length by omega)
  have flat := flat_concat operands
  have open_ : v'.frames ≠ [] := by
    rw [isNext, opened]
    exact List.cons_ne_nil _ _
  rw [flat] at segmented
  obtain ⟨left, pop, segmentedLeft⟩ := segmented.pop
  have fitsLeft := segmented.height_lt segmentedLeft fits (by simp)
  have popped : (inst.withFrame stack).frame.pop = some (slot, left) := pop
  have taken : inst.frame.take 1 =
      some ([slot], ⟨{ call with operands := below } :: calls, outside⟩) := by
    rw [frames]
    exact take_append operands rfl
  let staged : Wasm.SourceInstance memory registry :=
    inst.withFrame (⟨{ call with operands := below } :: calls, outside⟩ : CallStack)
  have resolves := resolveIndirect_withFrame source bodies staged stack typeIndex tableIndex
    slot.asOffset
  unfold executeOperator execute
  dsimp only
  rw [taken, popped]
  dsimp only
  change resolveIndirect (source.withBodies bodies) (inst.withFrame stack) typeIndex tableIndex
    slot.asOffset = _ at resolves
  rw [resolves]
  rw [show ({ inst with frame := (⟨{ call with operands := below } :: calls, outside⟩ :
    CallStack) } : Wasm.SourceInstance memory registry) = staged from rfl]
  cases isResolved : resolveIndirect source staged typeIndex tableIndex slot.asOffset with
  | error fault => exact .failed left
  | ok resolved =>
      obtain ⟨callee, declared⟩ := resolved
      obtain ⟨isDeclared, typedCallee⟩ := resolveIndirect_eq_ok isResolved
      have same : declared = ty := Option.some.inj (isDeclared.symm.trans typed)
      subst same
      apply dispatches honors typedCallee rfl isBelow length segmentedLeft fitsLeft
      apply site.waits stands.toShaped rfl (by simp) open_
      rw [next]
      unfold CallFrame.flat
      rw [operands, isBelow, ← length]
      simp only [List.length_append, List.length_singleton]
      congr 1
      omega

end Site

end Execute

end Stack
end TraceWasm
