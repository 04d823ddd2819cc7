import TraceWasm.Module.TypedFunc
import TraceWasm.Register.Machine
import TraceWasm.Runtime.DriverAgreement

/-!
# Calls through typed handles

A call enters the function that its handle's index names in the instance's module,
with the handle's arguments staged, whatever the parameters of that function are. It
serves the handle exactly when these are the handle's parameters, the function's code
does not panic, and the function has the handle's results or traps.
-/

namespace TraceWasm

/-! ## Entering a function and reading its results -/

section Entry

variable {memory registry : Type}

/-- What the frames of a machine offer a function that is called from outside. -/
structure FrameEntry (machine : Machine memory registry) where
  /-- Read a local. `none` is an access outside the frame store. -/
  getLocal : machine.RuntimeFrame → machine.CallerBaseData → Nat → Option Value
  /-- The layout has room for the locals. -/
  Fits : machine.Body → Prop
  /-- The base of the outermost frame. -/
  IsEntry : machine.CallerBaseData → Prop
  enters : ∀ frame params (body : machine.Body) types declared,
    body.locals = types ++ declared → params.length = types.length →
    (∀ ty ∈ declared, ty ≠ .v128) → Fits body →
      ∃ entered base,
        machine.enterFrame (machine.setInitialParams (machine.reset frame) params)
            types.length body.locals machine.initialData body.frameLayout =
          some (entered, base) ∧
        IsEntry base ∧
        (∀ (index : Nat) (val : Val), params[index]? = some val →
          getLocal entered base index = some val.toValue) ∧
        ∀ index < body.locals.length, (getLocal entered base index).isSome
  results : ∀ frame left count base layout, IsEntry base →
    machine.exitFrame frame count base layout = some left →
      ∃ vals rest, machine.getFinalResults left count = some (vals, rest) ∧
        vals.length = count

end Entry

/-- There is a zero of every type but the one that has no values. -/
theorem exists_zeros
    {tys : List ValType}
    (supported : ∀ ty ∈ tys, ty ≠ .v128) :
    ∃ zeros, Stack.zeros tys = some zeros ∧ zeros.length = tys.length := by
  unfold Stack.zeros
  induction tys with
  | nil => exact ⟨[], rfl, rfl⟩
  | cons ty tys inductionHypothesis =>
      obtain ⟨first, others⟩ := List.forall_mem_cons.mp supported
      obtain ⟨zeros, made, length⟩ := inductionHypothesis others
      obtain ⟨zero, madeFirst⟩ : ∃ zero,
          (Value.zeroOfTy ty : Attempt Empty Value).toOption = some zero := by
        cases ty with
        | v128 => exact (first rfl).elim
        | _ => exact ⟨_, rfl⟩
      refine ⟨zero :: zeros, ?_, congrArg (· + 1) length⟩
      rw [List.mapM_cons, madeFirst, made]
      rfl

namespace Stack

variable {memory registry : Type} [Memory memory]

/-- The stack after entering a function from outside holds its locals. -/
theorem enterFrame_initial
    (s : Stack Value) (params : List Val) (types : List ValType)
    {declared : List ValType}
    (supported : ∀ ty ∈ declared, ty ≠ .v128)
    (fits : (types ++ declared).length < 2 ^ 32) :
    ∃ zeros entered,
      (s.reset.setInitialParams params).enterFrame types.length (types ++ declared)
          .initialData =
        some (entered, ⟨0, (types ++ declared).length⟩) ∧
      entered.Valid ∧ entered.live = params.map Val.toValue ++ zeros ∧
      zeros.length = declared.length := by
  obtain ⟨zeros, made, length⟩ := exists_zeros supported
  have valid : s.reset.Valid := Nat.zero_le _
  have staged : (s.reset.setInitialParams params).Valid := valid_pushAll valid _
  refine ⟨zeros, (s.reset.setInitialParams params).pushAll zeros, ?_,
    valid_pushAll staged zeros, ?_, length⟩
  · unfold enterFrame
    have isSum : addHeights StackCallerBaseData.initialData.baseHeight
        ((types ++ declared).length % 2 ^ 32) = some (types ++ declared).length := by
      change addHeights 0 _ = _
      rw [Nat.mod_eq_of_lt fits, addHeights_of_lt (by omega), Nat.zero_add]
    rw [guard, if_pos (by rw [List.length_append]; omega), List.drop_left, made, isSum]
    rfl
  · rw [live_pushAll staged]
    unfold setInitialParams
    rw [live_pushAll valid]
    rfl

/-- The results of a function left at the bottom are read back. -/
theorem getFinalResults_of_exitFrame
    {s left : Stack Value} {count : Nat} {base : StackCallerBaseData}
    (bottom : base.baseHeight = 0)
    (left_eq : s.exitFrame count base = some left) :
    ∃ vals rest, left.getFinalResults count = some (vals, rest) ∧
      vals.length = count := by
  unfold exitFrame truncateByPreservingArity at left_eq
  rw [bottom] at left_eq
  obtain ⟨_, _, moves⟩ := Option.bind_eq_some_iff.mp left_eq
  obtain ⟨moved, move, same⟩ := Option.bind_eq_some_iff.mp moves
  cases same
  have bounds := le_of_moveRun move
  have valid : (⟨moved, 0 + count⟩ : Stack Value).Valid := by
    unfold Valid
    dsimp only
    by_cases some : count = 0
    · omega
    · have inside := bounds.2 some
      omega
  have taken := takeRun_of_le valid (Nat.le_add_left count 0)
  refine ⟨_, _, taken, ?_⟩
  rw [List.length_drop, length_live valid]
  dsimp only
  omega

/-- The frames of the stack machine. -/
def frameEntry (host : ImportRegistry registry) (numerics : Numerics) :
    FrameEntry (machine host numerics : Machine memory registry) where
  getLocal := fun s base index => getLocal s base index
  Fits := fun body : FuncBody StackInstruction StackFrameLayout =>
    body.locals.length < 2 ^ 32
  IsEntry := fun base => StackCallerBaseData.baseHeight base = 0
  enters := by
    intro frame params body types declared locals sameLength supported fits
    rw [locals] at fits
    obtain ⟨zeros, entered, enters, valid, live, length⟩ :=
      enterFrame_initial frame params types supported fits
    have stored : ∀ index, index < (types ++ declared).length →
        getLocal entered ⟨0, (types ++ declared).length⟩ index =
          (params.map Val.toValue ++ zeros)[index]? := by
      intro index inside
      rw [← live]
      unfold getLocal Stack.live
      rw [addHeights_of_lt (by dsimp only; omega), List.getElem?_take_of_lt]
      · rfl
      · rw [← length_live valid, live, List.length_append, List.length_map, length,
          sameLength, ← List.length_append]
        exact inside
    rw [locals]
    refine ⟨entered, _, enters, rfl, ?_, ?_⟩
    · intro index val found
      have inside := (List.getElem?_eq_some_iff.mp found).1
      refine (stored index (by rw [List.length_append]; omega)).trans ?_
      rw [List.getElem?_append_left (by rw [List.length_map]; exact inside),
        List.getElem?_map, found]
      rfl
    · intro index inside
      refine (congrArg Option.isSome (stored index inside)).trans ?_
      rw [Option.isSome_iff_exists]
      refine ⟨_, List.getElem?_eq_getElem ?_⟩
      rw [List.length_append, List.length_map, length, sameLength, ← List.length_append]
      exact inside
  results := fun _ _ _ _ _ bottom left_eq => getFinalResults_of_exitFrame bottom left_eq

end Stack

namespace Register

variable {memory registry : Type} [Memory memory]

open RegFrame (slotValue)

/-- The file after entering a function from outside starts with the arguments and has
all of the function's locals. -/
theorem enterFrame_initial
    (frame : RegFrame) {params : List Val} {types declared : List ValType}
    {layout : RegFrameLayout}
    (sameLength : params.length = types.length)
    (supported : ∀ ty ∈ declared, ty ≠ .v128)
    (fits : (types ++ declared).length ≤ layout.registers) :
    ∃ entered : RegFrame,
      (frame.reset.setInitialParams params).enterFrame types.length (types ++ declared)
          .initialData layout = some entered ∧
      (∀ (index : Nat) (val : Val), params[index]? = some val →
        entered.registers[index]? = some val.toValue) ∧
      (types ++ declared).length ≤ entered.registers.length := by
  obtain ⟨zeros, made, length⟩ := exists_zeros supported
  have whole : types.length + zeros.length = (types ++ declared).length := by
    rw [List.length_append, length]
  have madeRest : ((types ++ declared).drop types.length).mapM
      (fun ty => (Value.zeroOfTy ty : Attempt Empty Value).toOption) = some zeros := by
    rw [List.drop_left]
    exact made
  refine ⟨_, RegFrame.enterFrame_eq madeRest whole fits, ?_, ?_⟩
  · intro index val found
    have inside := (List.getElem?_eq_some_iff.mp found).1
    have staged : index < (frame.reset.setInitialParams params).registers.length := by
      change index < ([] ++ params.map Val.toValue).length
      rw [List.nil_append, List.length_map]
      exact inside
    have before : RegCallerBaseData.initialData.baseRegisterIndex = 0 := rfl
    have below : index < 0 + types.length := by omega
    dsimp only
    rw [before, getElem?_overwrite_of_lt _ _ _ _ (by omega),
      getElem?_overwrite_of_lt _ _ _ _ below, RegFrame.getElem?_growTo_of_lt _ staged]
    change ([] ++ params.map Val.toValue)[index]? = _
    rw [List.nil_append, List.getElem?_map, found]
    rfl
  · dsimp only
    rw [length_overwrite, length_overwrite, RegFrame.length_growTo]
    omega

/-- The results of a function left at the bottom are read back. -/
theorem getFinalResults_of_exitFrame
    {frame left : RegFrame} {count : Nat} {base : RegCallerBaseData}
    {layout : RegFrameLayout}
    (bottom : base.baseRegisterIndex = 0)
    (left_eq : frame.exitFrame count base layout = some left) :
    ∃ vals, left.getFinalResults count = some vals ∧ vals.length = count := by
  unfold RegFrame.exitFrame at left_eq
  obtain ⟨temp, read, wrote⟩ := Option.bind_eq_some_iff.mp left_eq
  obtain ⟨registers, written, same⟩ := Option.bind_eq_some_iff.mp wrote
  cases same
  have length := (le_of_readRun read).1
  rw [bottom] at written
  have inside : 0 + temp.length ≤ frame.registers.length := by
    cases temp with
    | nil => exact Nat.zero_le _
    | cons first rest => exact le_of_writeRun written (List.cons_ne_nil _ _)
  rw [writeRun_of_le inside] at written
  cases written
  refine ⟨_, readRun_of_le ?_, ?_⟩
  · rw [length_overwrite]
    omega
  · rw [List.length_take, List.length_drop, length_overwrite]
    omega

/-- The frames of the register machine. -/
def frameEntry (host : ImportRegistry registry) (numerics : Numerics) :
    FrameEntry (machine host numerics : Machine memory registry) where
  getLocal := slotValue
  Fits := fun body : FuncBody (RegInstruction Slot) RegFrameLayout =>
    body.locals.length ≤ body.frameLayout.registers
  IsEntry := fun base => RegCallerBaseData.baseRegisterIndex base = 0
  enters := by
    intro frame params body types declared locals sameLength supported fits
    rw [locals] at fits
    obtain ⟨entered, enters, stored, length⟩ :=
      enterFrame_initial frame sameLength supported fits
    rw [locals]
    refine ⟨entered, .initialData, ?_, rfl, ?_, ?_⟩
    · exact congrArg (Option.map fun frame => (frame, RegCallerBaseData.initialData)) enters
    · intro index val found
      change entered.registers[0 + index]? = _
      rw [Nat.zero_add]
      exact stored index val found
    · intro index inside
      change (entered.registers[0 + index]?).isSome
      rw [Nat.zero_add, List.getElem?_eq_getElem (by omega)]
      rfl
  results := by
    intro frame left count base layout bottom left_eq
    obtain ⟨vals, read, length⟩ := getFinalResults_of_exitFrame bottom left_eq
    exact ⟨vals, left, congrArg (Option.map fun vals => (vals, left)) read, length⟩

end Register

/-! ## Calls -/

section Calls

variable {memory registry : Type} {machine : Machine memory registry}
variable {params results : List WasmTy}

/-- A module as compilation leaves it: every locally defined function has a body,
whose locals are the parameters and then declared locals of supported types. -/
structure Compiled
    (entry : FrameEntry machine) (module : machine.Code) : Prop where
  bodies : ∀ func ty, module.importedFuncCount ≤ func.toNat →
    module.declaredType func = some ty →
      ∃ body declared,
        module.funcBodies[func.toNat - module.importedFuncCount]? = some body ∧
        body.locals = ty.params ++ declared ∧ (∀ ty ∈ declared, ty ≠ .v128) ∧
        entry.Fits body

/-- The run of the function that a call enters, on the call's arguments. -/
def TypedFunc.entryRun
    (machine : Machine memory registry) (handle : TypedFunc params results)
    (module : machine.Code) (fuel : Nat) (args : Tuple params) (inst : machine.State) :
    Option (machine.Outcome Unwind Unit) :=
  machine.executeOnNativeStack module fuel handle.funcIndex 0 machine.initialData
    (machine.stageParams (Tuple.toVals params args) inst)

/-- What a call answers when the function it entered ends: the words that the function
leaves, read with the handle's result types, or the function's trap. -/
inductive Delivers
    (handle : TypedFunc params results) (module : machine.Code) :
    machine.Outcome Unwind Unit → machine.Outcome FuncCallError (Tuple results) →
      Prop where
  | returned
      (taken : machine.getFinalResults left.frame results.length = some (vals, frame))
      (typed : ((vals.zip (results.map WasmTy.ty)).mapM fun result =>
        result.1.intoVal result.2 : Attempt FuncCallError (List Val)) =
          .ok (Tuple.toVals results tuple)) :
      Delivers handle module (.ok (), left) (.ok tuple, { left with frame })
  | trapped :
      Delivers handle module (.fail trace, left)
        (.fail ⟨machine.entryName module handle.funcIndex, trace⟩, left)

/-- The call runs a locally defined function with exactly the parameters and results of
the handle, and answers what the run comes to. -/
def RunsFunction
    (handle : TypedFunc params results) (module : machine.Code) (args : Tuple params)
    (inst : machine.State) : Prop :=
  ∃ activation started,
    machine.enter module handle.funcIndex machine.initialData
        (machine.stageParams (Tuple.toVals params args) inst) =
      some (activation, results.length, started) ∧
    module.importedFuncCount ≤ activation.funcIndex.toNat ∧
    module.declaredType activation.funcIndex =
      some ⟨params.map WasmTy.ty, results.map WasmTy.ty⟩ ∧
    ∀ fuel, Option.Rel (Delivers handle module)
      (machine.nativeLoop module fuel activation results.length 0 1 started)
      (handle.call machine module fuel args inst)

/-- What a call through a handle is for. -/
structure Serves
    (entry : FrameEntry machine) (handle : TypedFunc params results)
    (module : machine.Code) (args : Tuple params) (inst : machine.State) : Prop where
  /-- It runs a function of the handle's signature or returns an error. -/
  runs : RunsFunction handle module args inst ∨ ∃ fuel error after,
    handle.call machine module fuel args inst = some (.fail error, after)
  quiet : ∀ fuel after,
    handle.call machine module fuel args inst ≠ some (Attempt.panicked, after)
  /-- In a frame that it enters, the arguments are of the callee's parameters, in number
  and type, and all of the callee's locals are there. -/
  staged : ∀ activation count started,
    machine.enter module handle.funcIndex machine.initialData
        (machine.stageParams (Tuple.toVals params args) inst) =
      some (activation, count, started) →
    ∃ ty, module.declaredType activation.funcIndex = some ty ∧
      List.Forall₂ Val.HasTy (Tuple.toVals params args) ty.params ∧
      (∀ (index : Nat) (val : Val), (Tuple.toVals params args)[index]? = some val →
        entry.getLocal started.frame activation.callerBaseData index =
          some val.toValue) ∧
      ∀ index < activation.body.locals.length,
        (entry.getLocal started.frame activation.callerBaseData index).isSome

/-- The index names a locally defined function with the handle's parameters, whose code
does not panic on the arguments, and which has the handle's results or traps. -/
structure Suits
    (handle : TypedFunc params results) (module : machine.Code) (args : Tuple params)
    (inst : machine.State) : Prop where
  «local» : module.importedFuncCount ≤ handle.funcIndex.toNat
  declared : ∃ ty, module.declaredType handle.funcIndex = some ty ∧
    ty.params = params.map WasmTy.ty ∧
    (ty.results = results.map WasmTy.ty ∨ ∃ fuel trace after,
      handle.entryRun machine module fuel args inst = some (.fail trace, after))
  quiet : ∀ fuel after,
    handle.entryRun machine module fuel args inst ≠ some (Attempt.panicked, after)

/-- What entering a function looks up, and what it leaves. -/
theorem Machine.enter_eq_some
    {module : machine.Code} {func : FuncIndex} {base : machine.CallerBaseData}
    {inst started : machine.State} {activation : machine.Activation}
    {resultsCount : Nat} :
    machine.enter module func base inst = some (activation, resultsCount, started) ↔
      ∃ ty body frame newBase,
        module.importedFuncCount ≤ func.toNat ∧
        module.declaredType func = some ty ∧
        module.funcBodies[func.toNat - module.importedFuncCount]? = some body ∧
        machine.enterFrame inst.frame ty.params.length body.locals base
            body.frameLayout = some (frame, newBase) ∧
        activation = ⟨func, body, newBase⟩ ∧ resultsCount = ty.results.length ∧
        started = { inst with frame } := by
  unfold Machine.enter Module.declaredType
  constructor
  · intro enters
    obtain ⟨_, guarded, enters⟩ := Option.bind_eq_some_iff.mp enters
    obtain ⟨decl, foundDecl, enters⟩ := Option.bind_eq_some_iff.mp enters
    obtain ⟨ty, foundType, enters⟩ := Option.bind_eq_some_iff.mp enters
    obtain ⟨body, foundBody, enters⟩ := Option.bind_eq_some_iff.mp enters
    obtain ⟨⟨frame, newBase⟩, entered, enters⟩ := Option.bind_eq_some_iff.mp enters
    cases enters
    have isLocal : module.importedFuncCount ≤ func.toNat := by
      by_contra imported
      rw [guard, if_neg imported] at guarded
      cases guarded
    exact ⟨ty, body, frame, newBase, isLocal,
      Option.bind_eq_some_iff.mpr ⟨decl, foundDecl, foundType⟩, foundBody, entered, rfl,
      rfl, rfl⟩
  · intro ⟨ty, body, frame, newBase, isLocal, declared, foundBody, entered, same,
      sameCount, sameStarted⟩
    obtain ⟨decl, foundDecl, foundType⟩ := Option.bind_eq_some_iff.mp declared
    rw [same, sameCount, sameStarted]
    refine Option.bind_eq_some_iff.mpr ⟨(), if_pos isLocal, ?_⟩
    refine Option.bind_eq_some_iff.mpr ⟨decl, foundDecl, ?_⟩
    refine Option.bind_eq_some_iff.mpr ⟨ty, foundType, ?_⟩
    refine Option.bind_eq_some_iff.mpr ⟨body, foundBody, ?_⟩
    exact Option.bind_eq_some_iff.mpr ⟨(frame, newBase), entered, rfl⟩

/-- A trap is no result. -/
theorem Machine.ne_ok_of_trapHere
    {activation : machine.Activation} {pc : Nat} {error : InstructionExecutionError}
    {result : α}
    (returned : machine.trapHere activation pc error = .ok result) :
    False := by
  obtain ⟨_, _, impossible⟩ := Attempt.bind_eq_ok.mp returned
  cases impossible

/-- Neither is a trap that is passed on. -/
theorem Machine.ne_ok_of_appendCall
    {activation : machine.Activation} {pc : Nat} {callee : FuncIndex}
    {isIndirect : Option Nat} {trace : Unwind} {result : α}
    (returned : machine.appendCall activation pc callee isIndirect trace = .ok result) :
    False := by
  obtain ⟨_, _, impossible⟩ := Attempt.bind_eq_ok.mp returned
  cases impossible

/-- A loop that returns has left the frame it ran in. -/
theorem Machine.leave_of_nativeLoop
    {module : machine.Code} {fuel : Nat} {activation : machine.Activation}
    {resultsCount pc depth : Nat} {inst left : machine.State}
    (returned : machine.nativeLoop module fuel activation resultsCount pc depth inst =
      some (.ok (), left)) :
    ∃ last, machine.leave activation resultsCount last = some left := by
  induction fuel generalizing pc inst with
  | zero => cases returned
  | succ fuel inductionHypothesis =>
      have advance : ∀ pc inst,
          machine.nativeAdvance module fuel activation resultsCount depth pc inst =
              some (.ok (), left) →
            ∃ last, machine.leave activation resultsCount last = some left := by
        intro pc inst advanced
        unfold Machine.nativeAdvance at advanced
        split at advanced
        · cases leaves : machine.leave activation resultsCount inst with
          | none =>
              rw [leaves] at advanced
              cases advanced
          | some after =>
              rw [leaves] at advanced
              cases advanced
              exact ⟨inst, leaves⟩
        · exact inductionHypothesis advanced
      rw [Machine.nativeLoop_succ] at returned
      generalize machine.executeAt module activation pc inst = executed at returned
      obtain ⟨step, inst⟩ := executed
      unfold Machine.nativeStep at returned
      rcases step with (error | _) | step
      · exact (Machine.ne_ok_of_trapHere (congrArg Prod.fst (Option.some.inj returned))).elim
      · cases returned
      · cases step with
        | next => exact advance _ _ returned
        | jumpTo target => exact advance _ _ returned
        | call callee callerBaseData isIndirect =>
            dsimp only at returned
            split at returned
            · exact (Machine.ne_ok_of_trapHere
                (congrArg Prod.fst (Option.some.inj returned))).elim
            · split at returned
              · cases returned
              · unfold Machine.nativeReturn at returned
                split at returned
                · cases returned
                · cases returned
                · exact (Machine.ne_ok_of_appendCall
                    (congrArg Prod.fst (Option.some.inj returned))).elim
                · exact advance _ _ returned

/-- Reading a word back panics, but reports nothing. -/
theorem mapM_intoVal_ne_fail
    {words : List (Value × ValType)} {error : ε} :
    (words.mapM fun word => word.1.intoVal word.2 : Attempt ε (List Val)) ≠ .fail error := by
  induction words with
  | nil =>
      intro failed
      cases failed
  | cons word words inductionHypothesis =>
      intro failed
      rw [List.mapM_cons] at failed
      cases read : (word.1.intoVal word.2 : Attempt ε Val) with
      | ok val =>
          rw [read, Attempt.ok_bind] at failed
          cases rest : (words.mapM fun word => word.1.intoVal word.2 :
              Attempt ε (List Val)) with
          | ok vals =>
              rw [rest] at failed
              cases failed
          | error fault =>
              rw [rest] at failed
              cases failed
              exact inductionHypothesis rest
      | error fault =>
          rw [read] at failed
          cases failed
          obtain ⟨value, ty⟩ := word
          cases ty <;> cases read

/-- Words that are read back with types are values of these types. -/
theorem hasTy_of_mapM_intoVal
    {vals : List Value} {tys : List ValType} {typed : List Val}
    (sameLength : vals.length = tys.length)
    (read : ((vals.zip tys).mapM fun word => word.1.intoVal word.2 :
      Attempt ε (List Val)) = .ok typed) :
    List.Forall₂ Val.HasTy typed tys := by
  have values := Attempt.mapM_eq_ok.mp read
  apply List.forall₂_iff_get.mpr
  have length := values.length_eq
  rw [List.length_zip, sameLength, Nat.min_self] at length
  refine ⟨length.symm, fun index inside within => ?_⟩
  have bound : index < (vals.zip tys).length := by
    rw [List.length_zip]
    omega
  have word := values.get bound inside
  rw [List.get_eq_getElem, List.getElem_zip] at word
  exact Value.hasTy_of_intoVal word

/-- Words are values of every type that has values. -/
theorem exists_results
    {vals : List Value} {tys : List ValType}
    (supported : ∀ ty ∈ tys, ty ≠ .v128) :
    ∃ typed, ((vals.zip tys).mapM fun word => word.1.intoVal word.2 :
      Attempt ε (List Val)) = .ok typed := by
  induction vals generalizing tys with
  | nil => exact ⟨[], rfl⟩
  | cons value vals inductionHypothesis =>
      cases tys with
      | nil => exact ⟨[], rfl⟩
      | cons ty tys =>
          obtain ⟨first, others⟩ := List.forall_mem_cons.mp supported
          obtain ⟨typed, converts⟩ := inductionHypothesis others
          obtain ⟨val, read⟩ : ∃ val, (value.intoVal ty : Attempt ε Val) = .ok val := by
            cases ty with
            | v128 => exact (first rfl).elim
            | _ => exact ⟨_, rfl⟩
          refine ⟨val :: typed, ?_⟩
          rw [List.zip_cons_cons, List.mapM_cons, read, Attempt.ok_bind, converts]
          rfl

/-! ### How a call ends -/

namespace TypedFunc

variable {handle : TypedFunc params results} {module : machine.Code} {fuel : Nat}
variable {args : Tuple params} {inst left : machine.State}

/-- A call runs as long as its activation does. -/
theorem call_of_none
    (ran : handle.entryRun machine module fuel args inst = none) :
    handle.call machine module fuel args inst = none := by
  unfold entryRun at ran
  unfold call Machine.run
  rw [ran]
  rfl

/-- It panics if its activation does. -/
theorem call_of_panicked
    (ran : handle.entryRun machine module fuel args inst =
      some (Attempt.panicked, left)) :
    handle.call machine module fuel args inst = some (Attempt.panicked, left) := by
  unfold entryRun at ran
  unfold call Machine.run
  rw [ran]
  rfl

/-- It fails with the trace of its activation. -/
theorem call_of_trapped
    {trace : Unwind}
    (ran : handle.entryRun machine module fuel args inst = some (.fail trace, left)) :
    handle.call machine module fuel args inst =
      some (.fail ⟨machine.entryName module handle.funcIndex, trace⟩, left) := by
  unfold entryRun at ran
  unfold call Machine.run
  rw [ran]
  rfl

/-- What the function leaves is read with the types that its own module declares. -/
theorem call_of_returned
    {ty : FuncType} {vals : List Value} {frame : machine.RuntimeFrame}
    (declared : module.declaredType handle.funcIndex = some ty)
    (ran : handle.entryRun machine module fuel args inst = some (.ok (), left))
    (taken : machine.getFinalResults left.frame ty.results.length = some (vals, frame)) :
    handle.call machine module fuel args inst =
      some (((vals.zip ty.results).mapM fun word => word.1.intoVal word.2) >>= fun typed =>
        .orPanic (Tuple.fromVals results typed), { left with frame }) := by
  have finished : machine.finish module handle.funcIndex (.ok (), left) =
      (((vals.zip ty.results).mapM fun word => word.1.intoVal word.2),
        { left with frame }) := by
    unfold Machine.finish
    dsimp only
    unfold Machine.takeResults
    rw [Module.funcType_eq_ok.mpr declared]
    dsimp only
    rw [taken]
  unfold entryRun at ran
  unfold call Machine.run
  rw [ran, Option.map_some, Option.map_some, Machine.funcCallErrFromUnwind, finished,
    Option.map_some]
  cases ((vals.zip ty.results).mapM fun word => word.1.intoVal word.2 :
    Attempt FuncCallError (List Val)) with
  | ok typed => rfl
  | error fault => rfl

/-- An error that the call returns is a trap of the function. -/
theorem trapped_of_call
    {ty : FuncType} {error : FuncCallError} {after : machine.State}
    (declared : module.declaredType handle.funcIndex = some ty)
    (failed : handle.call machine module fuel args inst = some (.fail error, after)) :
    ∃ trace, handle.entryRun machine module fuel args inst = some (.fail trace, after) := by
  cases ran : handle.entryRun machine module fuel args inst with
  | none => cases (call_of_none ran).symm.trans failed
  | some native =>
      obtain ⟨(trace | _) | _, left⟩ := native
      · cases (call_of_trapped ran).symm.trans failed
        exact ⟨trace, rfl⟩
      · cases (call_of_panicked ran).symm.trans failed
      · cases taken : machine.getFinalResults left.frame ty.results.length with
        | none =>
            unfold entryRun at ran
            unfold call Machine.run at failed
            rw [ran, Option.map_some, Option.map_some, Machine.funcCallErrFromUnwind,
              Machine.finish, Machine.takeResults, Module.funcType_eq_ok.mpr declared]
              at failed
            dsimp only at failed
            rw [taken] at failed
            cases failed
        | some result =>
            have answered := congrArg Prod.fst
              (Option.some.inj ((call_of_returned declared ran taken).symm.trans failed))
            dsimp only at answered
            cases read : ((result.1.zip ty.results).mapM fun word => word.1.intoVal word.2 :
                Attempt FuncCallError (List Val)) with
            | ok typed =>
                rw [read, Attempt.ok_bind] at answered
                cases rebuilt : Tuple.fromVals results typed with
                | none =>
                    rw [rebuilt] at answered
                    cases answered
                | some tuple =>
                    rw [rebuilt] at answered
                    cases answered
            | error fault =>
                rw [read] at answered
                cases answered
                exact (mapM_intoVal_ne_fail read).elim

end TypedFunc

/-! ### The function that is entered -/

/-- A function with the handle's parameters is entered, with the arguments in its first
locals. -/
theorem exists_entered
    (entry : FrameEntry machine) {module : machine.Code}
    (compiled : Compiled entry module) {handle : TypedFunc params results}
    {ty : FuncType} (args : Tuple params) (inst : machine.State)
    (isLocal : module.importedFuncCount ≤ handle.funcIndex.toNat)
    (declared : module.declaredType handle.funcIndex = some ty)
    (sameParams : ty.params = params.map WasmTy.ty) :
    ∃ activation started,
      machine.enter module handle.funcIndex machine.initialData
          (machine.stageParams (Tuple.toVals params args) inst) =
        some (activation, ty.results.length, started) ∧
      activation.funcIndex = handle.funcIndex ∧
      entry.IsEntry activation.callerBaseData ∧
      (∀ (index : Nat) (val : Val), (Tuple.toVals params args)[index]? = some val →
        entry.getLocal started.frame activation.callerBaseData index =
          some val.toValue) ∧
      ∀ index < activation.body.locals.length,
        (entry.getLocal started.frame activation.callerBaseData index).isSome := by
  obtain ⟨body, declaredLocals, found, locals, supported, fits⟩ :=
    compiled.bodies handle.funcIndex ty isLocal declared
  obtain ⟨entered, base, enters, isEntry, staged, inside⟩ := entry.enters inst.frame
    (Tuple.toVals params args) body ty.params declaredLocals locals
    (by rw [sameParams, Tuple.length_toVals, List.length_map]) supported fits
  refine ⟨⟨handle.funcIndex, body, base⟩, { inst with frame := entered }, ?_, rfl, isEntry,
    staged, inside⟩
  exact Machine.enter_eq_some.mpr
    ⟨ty, body, entered, base, isLocal, declared, found, enters, rfl, rfl, rfl⟩

/-- What running a call runs. -/
theorem TypedFunc.entryRun_eq
    {handle : TypedFunc params results} {module : machine.Code} {args : Tuple params}
    {inst started : machine.State} {activation : machine.Activation} {resultsCount : Nat}
    (enters : machine.enter module handle.funcIndex machine.initialData
        (machine.stageParams (Tuple.toVals params args) inst) =
      some (activation, resultsCount, started))
    (fuel : Nat) :
    handle.entryRun machine module fuel args inst =
      machine.nativeLoop module fuel activation resultsCount 0 1 started := by
  unfold TypedFunc.entryRun Machine.executeOnNativeStack
  rw [enters]

/-- A function with the handle's results that returns leaves a tuple of them. -/
theorem delivers_of_returned
    (entry : FrameEntry machine) {handle : TypedFunc params results}
    {module : machine.Code} {fuel : Nat} {args : Tuple params}
    {inst started left : machine.State} {activation : machine.Activation} {ty : FuncType}
    (declared : module.declaredType handle.funcIndex = some ty)
    (sameResults : ty.results = results.map WasmTy.ty)
    (enters : machine.enter module handle.funcIndex machine.initialData
        (machine.stageParams (Tuple.toVals params args) inst) =
      some (activation, ty.results.length, started))
    (isEntry : entry.IsEntry activation.callerBaseData)
    (ran : handle.entryRun machine module fuel args inst = some (.ok (), left)) :
    ∃ tuple after, handle.call machine module fuel args inst = some (.ok tuple, after) ∧
      Delivers handle module (.ok (), left) (.ok tuple, after) := by
  have looped := (TypedFunc.entryRun_eq enters fuel).symm.trans ran
  obtain ⟨last, leaves⟩ := Machine.leave_of_nativeLoop looped
  obtain ⟨exited, exits, sameLeft⟩ := Option.bind_eq_some_iff.mp leaves
  cases sameLeft
  obtain ⟨vals, rest, taken, length⟩ := entry.results _ _ _ _ _ isEntry exits
  have supported : ∀ ty ∈ results.map WasmTy.ty, ty ≠ .v128 := by
    intro ty inside
    obtain ⟨scalar, _, same⟩ := List.mem_map.mp inside
    rw [← same]
    exact scalar.ty_ne_v128
  obtain ⟨typed, converts⟩ := @exists_results FuncCallError vals _ supported
  have hasTy := hasTy_of_mapM_intoVal (by rw [length, sameResults]) converts
  obtain ⟨tuple, rebuilt⟩ := Option.isSome_iff_exists.mp (Tuple.fromVals_isSome hasTy)
  have answered := TypedFunc.call_of_returned declared ran taken
  rw [sameResults, converts, Attempt.ok_bind, rebuilt] at answered
  have read : ((vals.zip (results.map WasmTy.ty)).mapM fun word => word.1.intoVal word.2 :
      Attempt FuncCallError (List Val)) = .ok (Tuple.toVals results tuple) := by
    rw [Tuple.toVals_of_fromVals rebuilt]
    exact converts
  rw [sameResults, List.length_map] at taken
  exact ⟨tuple, _, answered, .returned taken read⟩

/-! ### What serving comes to -/

/-- A call that serves has a handle that suits. -/
theorem suits_of_serves
    (entry : FrameEntry machine) {module : machine.Code}
    {handle : TypedFunc params results} {args : Tuple params} {inst : machine.State}
    (serves : Serves entry handle module args inst) :
    Suits handle module args inst := by
  have quiet : ∀ fuel after,
      handle.entryRun machine module fuel args inst ≠ some (Attempt.panicked, after) :=
    fun fuel after ran => serves.quiet fuel after (TypedFunc.call_of_panicked ran)
  cases enters : machine.enter module handle.funcIndex machine.initialData
      (machine.stageParams (Tuple.toVals params args) inst) with
  | none =>
      refine (quiet 0 (machine.stageParams (Tuple.toVals params args) inst) ?_).elim
      unfold TypedFunc.entryRun Machine.executeOnNativeStack
      rw [enters]
  | some entered =>
      obtain ⟨activation, count, started⟩ := entered
      obtain ⟨ty, declared, typed, _⟩ := serves.staged activation count started enters
      obtain ⟨_, _, _, _, isLocal, _, _, _, same, _⟩ := Machine.enter_eq_some.mp enters
      rw [same] at declared
      refine ⟨isLocal, ⟨ty, declared, Tuple.types_eq typed, ?_⟩, quiet⟩
      rcases serves.runs with
        ⟨activation, started, enters, _, declaredToo, _⟩ | ⟨fuel, error, after, failed⟩
      · obtain ⟨_, _, _, _, _, _, _, _, same, _⟩ := Machine.enter_eq_some.mp enters
        rw [same] at declaredToo
        cases declared.symm.trans declaredToo
        exact .inl rfl
      · obtain ⟨trace, ran⟩ := TypedFunc.trapped_of_call declared failed
        exact .inr ⟨fuel, trace, after, ran⟩

/-- A function that traps on some budget returns on none. -/
theorem TypedFunc.not_returned_of_trapped
    {handle : TypedFunc params results} {module : machine.Code} {args : Tuple params}
    {inst started left after : machine.State} {activation : machine.Activation}
    {resultsCount fuel more : Nat} {trace : Unwind}
    (enters : machine.enter module handle.funcIndex machine.initialData
        (machine.stageParams (Tuple.toVals params args) inst) =
      some (activation, resultsCount, started))
    (trapped : handle.entryRun machine module fuel args inst = some (.fail trace, after))
    (returned : handle.entryRun machine module more args inst = some (.ok (), left)) :
    False := by
  rw [TypedFunc.entryRun_eq enters] at trapped returned
  have first := machine.nativeLoop_mono module trapped (Nat.le_max_left fuel more)
  have second := machine.nativeLoop_mono module returned (Nat.le_max_right fuel more)
  cases first.symm.trans second

/-- A handle that suits is served. -/
theorem serves_of_suits
    (entry : FrameEntry machine) {module : machine.Code}
    (compiled : Compiled entry module)
    {handle : TypedFunc params results} {args : Tuple params} {inst : machine.State}
    (suits : Suits handle module args inst) :
    Serves entry handle module args inst := by
  obtain ⟨isLocal, ⟨ty, declared, sameParams, ending⟩, quiet⟩ := suits
  obtain ⟨activation, started, enters, sameFunc, isEntry, staged, inside⟩ :=
    exists_entered entry compiled args inst isLocal declared sameParams
  constructor
  · rcases ending with sameResults | ⟨fuel, trace, after, trapped⟩
    · refine .inl ⟨activation, started, ?_, ?_, ?_, fun fuel => ?_⟩
      · rw [enters, sameResults, List.length_map]
      · rw [sameFunc]
        exact isLocal
      · rw [sameFunc, declared, ← sameParams, ← sameResults]
      · have sameCount : ty.results.length = results.length := by
          rw [sameResults, List.length_map]
        have sameRun := TypedFunc.entryRun_eq enters fuel
        rw [sameCount] at sameRun
        rw [← sameRun]
        cases ran : handle.entryRun machine module fuel args inst with
        | none =>
            rw [TypedFunc.call_of_none ran]
            exact .none
        | some native =>
            obtain ⟨(trace | _) | _, left⟩ := native
            · rw [TypedFunc.call_of_trapped ran]
              exact .some .trapped
            · exact (quiet fuel left ran).elim
            · obtain ⟨tuple, after, answered, delivers⟩ :=
                delivers_of_returned entry declared sameResults enters isEntry ran
              rw [answered]
              exact .some delivers
    · exact .inr ⟨fuel, _, after, TypedFunc.call_of_trapped trapped⟩
  · intro fuel after panicked
    cases ran : handle.entryRun machine module fuel args inst with
    | none => cases (TypedFunc.call_of_none ran).symm.trans panicked
    | some native =>
        obtain ⟨(trace | _) | _, left⟩ := native
        · cases (TypedFunc.call_of_trapped ran).symm.trans panicked
        · exact quiet fuel left ran
        · rcases ending with sameResults | ⟨_, _, _, trapped⟩
          · obtain ⟨_, _, answered, _⟩ :=
              delivers_of_returned entry declared sameResults enters isEntry ran
            cases answered.symm.trans panicked
          · exact TypedFunc.not_returned_of_trapped enters trapped ran
  · intro other count startedToo entersToo
    cases enters.symm.trans entersToo
    refine ⟨ty, ?_, ?_, staged, inside⟩
    · rw [sameFunc]
      exact declared
    · rw [sameParams]
      exact Tuple.toVals_hasTy params args

/-- A call serves its handle exactly when the function that the index names suits it. -/
theorem serves_iff_suits
    (entry : FrameEntry machine) {module : machine.Code}
    (compiled : Compiled entry module)
    (handle : TypedFunc params results) (args : Tuple params) (inst : machine.State) :
    Serves entry handle module args inst ↔ Suits handle module args inst :=
  ⟨suits_of_serves entry, serves_of_suits entry compiled⟩

end Calls

/-- A handle matches the module it comes from. On either machine, and whatever module
the instance is of, a call serves the handle exactly when the function that its index
names there suits it. -/
theorem typed_calls_serve_iff
    {memory registry : Type} [Memory memory] (host : ImportRegistry registry)
    (numerics : Numerics) {params results : List WasmTy}
    (handle : TypedFunc params results) (args : Tuple params) :
    (∀ (Instr FrameLayout : Type) (origin : Module Instr FrameLayout) name,
      origin.getTypedFunc params results name = .ok handle → handle.Matches origin) ∧
    (∀ (module : Module Stack.StackInstruction Stack.StackFrameLayout)
        (inst : Instance (Stack Value) memory registry),
      Compiled (@Stack.frameEntry memory registry _ host numerics) module →
        (Serves (@Stack.frameEntry memory registry _ host numerics) handle module args inst ↔
          @Suits memory registry (Stack.machine host numerics) params results handle module
            args inst)) ∧
    ∀ (module : Register.RegModule)
        (inst : Instance Register.RegFrame memory registry),
      Compiled (@Register.frameEntry memory registry _ host numerics) module →
        (Serves (@Register.frameEntry memory registry _ host numerics) handle module args inst ↔
          @Suits memory registry (Register.machine host numerics) params results handle module
            args inst) := by
  refine ⟨?_, ?_, ?_⟩
  · intro Instr FrameLayout origin name looked
    exact TypedFunc.matches_of_getTypedFunc looked
  · intro module inst compiled
    exact serves_iff_suits _ compiled handle args inst
  · intro module inst compiled
    exact serves_iff_suits _ compiled handle args inst

/-! ### A handle on its own module and on another one -/

section Handles

open Stack (StackInstruction StackFrameLayout)
open Register (RegInstruction RegFrameLayout Slot)
open Instantiate (emptyHost hostlessNumerics hostlessMachine)

/-- A module that exports its only function, of a given type and body. -/
def exporting
    {Instr FrameLayout : Type} (ty : FuncType) (body : FuncBody Instr FrameLayout) :
    Module Instr FrameLayout where
  types := [ty]
  funcDecls := [⟨⟨0⟩, .«local»⟩]
  importedFuncCount := 0
  funcBodies := [body]
  tables := []
  memories := []
  globals := []
  importedGlobalCount := 0
  exports := fun name => if name = "f" then some (.func 0) else none
  exportedFuncName := fun _ => some "f"
  startSection := none
  elements := []
  datas := []

/-- A function that returns seven. -/
def sevenModule : Module StackInstruction StackFrameLayout :=
  exporting ⟨[], [.i32]⟩ ⟨[], [.const (.i32 7), .endOp 1 0], [0, 2], ⟨[]⟩⟩

/-- The same on the register machine. -/
def sevenRegisterModule : Register.RegModule :=
  exporting ⟨[], [.i32]⟩ ⟨[], [.move ⟨[0], 1⟩, .endOp], [0, 2], ⟨1, 0, 0, [.i32 7], []⟩⟩

/-- A function that returns the second of its parameters. -/
def secondModule : Module StackInstruction StackFrameLayout :=
  exporting ⟨[.i32, .i32], [.i32]⟩
    ⟨[.i32, .i32], [.localGet 1, .endOp 1 0], [0, 2], ⟨[]⟩⟩

/-- A handle to the first function, which takes nothing and returns an `i32`. -/
def sevenHandle : TypedFunc [] [.i32] := ⟨0⟩

/-- The only body of the module has the locals its type asks for. -/
theorem compiled_exporting
    {memory registry : Type} {machine : Machine memory registry}
    (entry : FrameEntry machine) {ty : FuncType} {body : machine.Body}
    (locals : body.locals = ty.params) (fits : entry.Fits body) :
    Compiled entry (exporting ty body) := by
  constructor
  intro func declaredTy _ declared
  obtain ⟨decl, foundDecl, foundType⟩ := Option.bind_eq_some_iff.mp declared
  obtain ⟨inside, same⟩ := List.getElem?_eq_some_iff.mp foundDecl
  have first : func.toNat = 0 := Nat.lt_one_iff.mp inside
  change [_][func.toNat]? = _ at foundDecl
  rw [first] at foundDecl
  cases foundDecl
  cases foundType
  refine ⟨body, [], ?_, ?_, ?_, fits⟩
  · change [body][func.toNat - 0]? = _
    rw [first]
    rfl
  · rw [List.append_nil]
    exact locals
  · intro ty impossible
    cases impossible

/-- The function returns after its two instructions. -/
theorem seven_suits :
    @Suits LinearMemory Unit hostlessMachine [] [.i32] sevenHandle sevenModule ()
      (bareInstance emptyStack) where
  «local» := Nat.le_refl 0
  declared := ⟨_, rfl, rfl, .inl rfl⟩
  quiet := by
    rintro (_ | _ | fuel) after panicked
    · cases panicked
    · cases panicked
    · cases panicked

/-- The handle suits the module on the register machine. -/
theorem seven_suits_register :
    @Suits LinearMemory Unit (Register.machine emptyHost hostlessNumerics) [] [.i32]
      sevenHandle sevenRegisterModule () (bareInstance .empty) where
  «local» := Nat.le_refl 0
  declared := ⟨_, rfl, rfl, .inl rfl⟩
  quiet := by
    rintro (_ | _ | fuel) after panicked
    · cases panicked
    · cases panicked
    · cases panicked

/-- Both machines serve the call. -/
theorem typed_calls_serve_seven :
    Serves (@Stack.frameEntry LinearMemory Unit _ emptyHost hostlessNumerics) sevenHandle
        sevenModule () (bareInstance emptyStack) ∧
      Serves (@Register.frameEntry LinearMemory Unit _ emptyHost hostlessNumerics)
        sevenHandle sevenRegisterModule () (bareInstance .empty) := by
  have serves := @typed_calls_serve_iff LinearMemory Unit _ emptyHost hostlessNumerics
    [] [.i32] sevenHandle ()
  constructor
  · exact (serves.2.1 sevenModule (bareInstance emptyStack)
      (compiled_exporting _ rfl (show 0 < 2 ^ 32 by decide))).mpr seven_suits
  · exact (serves.2.2 sevenRegisterModule (bareInstance .empty)
      (compiled_exporting _ rfl (Nat.zero_le _))).mpr seven_suits_register

/-- A handle of one module is not served by an instance of another. -/
theorem foreign_handle_is_not_served :
    sevenModule.getTypedFunc [] [.i32] "f" = .ok sevenHandle ∧
      Compiled (@Stack.frameEntry LinearMemory Unit _ emptyHost hostlessNumerics)
        secondModule ∧
      ¬Serves (@Stack.frameEntry LinearMemory Unit _ emptyHost hostlessNumerics)
        sevenHandle secondModule () (bareInstance emptyStack) ∧
      ∃ after, sevenHandle.call hostlessMachine secondModule 2 ()
        (bareInstance emptyStack) = some (Attempt.panicked, after) := by
  refine ⟨rfl, compiled_exporting _ rfl (show 2 < 2 ^ 32 by decide), ?_, _, rfl⟩
  intro serves
  exact serves.quiet 2 _ rfl

end Handles

end TraceWasm
