import TraceWasm.Register.FrameLayout

/-!
# The instruction of an operator on data

A live operator that acts on data is one instruction, whose operands are the topmost
ones of the simulated stack in the order they were pushed. What is lowered later
leaves it where it is.
-/

namespace TraceWasm
namespace Register

/-! ## Traces grow -/

namespace Symbolic

variable (a : Symbolic) (locals : Nat)

@[simp] theorem offsets_materialize (count : Nat) :
    (a.materialize locals count).offsets = a.offsets := by
  unfold materialize
  split <;> rfl

@[simp] theorem offsets_leave : (a.leave locals).offsets = a.offsets := by
  unfold leave
  split <;> rfl

@[simp] theorem offsets_pushMove (mov : DynSignature BackPatchableSlot) :
    (a.pushMove mov).offsets = a.offsets := by
  unfold pushMove
  split <;> rfl

@[simp] theorem offsets_attachUnlessLoop
    (relativeDepth : Nat) (block : Block) (attached : Nat × Nat) :
    (a.attachUnlessLoop relativeDepth block attached).offsets = a.offsets := by
  unfold attachUnlessLoop
  split <;> rfl

@[simp] theorem offsets_armsOf
    (done : List (RegBrTableTarget BackPatchableSlot)) (targets : List Nat) :
    (a.armsOf locals done targets).2.offsets = a.offsets := by
  induction targets generalizing a done with
  | nil => rfl
  | cons relativeDepth targets inductionHypothesis =>
      unfold armsOf
      split
      · exact inductionHypothesis a done
      · rw [inductionHypothesis, offsets_attachUnlessLoop]

end Symbolic

/-- The offset pool only grows. -/
theorem SymbolicStep.offsets_prefix
    (step : SymbolicStep mod locals results op a a') :
    a.offsets <+: a'.offsets := by
  cases step with
  | data enough grows interned => exact grows
  | ifOp redirects gone arities enough moved top =>
      simp [moved, Symbolic.emit, Symbolic.openBlock, Symbolic.rescue]
  | elseOp opened kind height moved =>
      simp [moved, Symbolic.emit, Symbolic.relayout, Symbolic.withControl]
  | endOp opened height moved =>
      simp [moved, Symbolic.emit, Symbolic.patchLabel, Symbolic.withControl]
  | brIf redirects gone target enough popped =>
      simp [popped, Symbolic.emit, Symbolic.rescue]
  | brTable redirects gone target allTargets popped arms =>
      have kept := congrArg (fun built => built.2.offsets) arms
      simp only [Symbolic.offsets_armsOf, popped, Symbolic.rescue] at kept
      simp [← kept, Symbolic.emit]
  | _ =>
      simp [Symbolic.emit, Symbolic.relayout, Symbolic.openBlock, Symbolic.rescue,
        Symbolic.attach]

/-- What lowering an operator on data does. -/
theorem SymbolicStep.data_eq
    {op : DataOp Nat Nat}
    (step : SymbolicStep mod locals results (.data op) a a') :
    op.inputs ≤ a.view.length ∧
    ∃ lowered : DataOp Nat Unit, lowered.resolveOffset a'.offsets = some op.meaning ∧
      a'.code = a.code ++ [.data lowered (a.view.take op.inputs).reverse
        (Symbolic.baseOf locals (a.view.drop op.inputs))] := by
  cases step with
  | data enough grows interned => exact ⟨enough, _, interned, rfl⟩

/-- A lowered operator has as many results as its source. -/
theorem DataOp.outputs_eq
    {lowered : DataOp Nat Unit} {offsets : List Nat} {op : DataOp Nat Nat}
    (resolved : lowered.resolveOffset offsets = some op.meaning) :
    lowered.outputs = op.outputs := by
  have same : lowered.outputs = op.meaning.outputs := by
    cases lowered with
    | load loadOp memarg =>
        obtain ⟨_, _, same⟩ := Option.map_eq_some_iff.mp resolved
        rw [← same]
        rfl
    | store storeOp memarg =>
        obtain ⟨_, _, same⟩ := Option.map_eq_some_iff.mp resolved
        rw [← same]
        rfl
    | _ => exact congrArg _ (Option.some.inj resolved)
  rw [same]
  cases op <;> rfl

/-- An offset keeps its index while the pool grows. -/
theorem DataOp.resolveOffset_mono
    {lowered : DataOp Nat Unit} {offsets offsets' : List Nat} {op : DataOp Nat Unit}
    (grows : offsets <+: offsets')
    (resolved : lowered.resolveOffset offsets = some op) :
    lowered.resolveOffset offsets' = some op := by
  have keeps : ∀ (memarg : Nat) (wrap : Nat → DataOp Nat Unit),
      (offsets[memarg]?).map wrap = some op → (offsets'[memarg]?).map wrap = some op := by
    intro memarg wrap found
    obtain ⟨offset, isOffset, same⟩ := Option.map_eq_some_iff.mp found
    obtain ⟨more, rfl⟩ := grows
    rw [List.getElem?_append_left (List.getElem?_eq_some_iff.mp isOffset).1, isOffset,
      Option.map_some, same]
  cases lowered with
  | load loadOp memarg => exact keeps memarg _ resolved
  | store storeOp memarg => exact keeps memarg _ resolved
  | _ => exact resolved

section Runs

variable {mod : ModuleTypes} {func : FuncHeader} {ops : List Operator}
variable {state : Nat → Symbolic} {last : Nat}

/-- A transition only adds code and offsets. -/
theorem Transition.grows
    (transition : Transition mod func l op a a') :
    a.Grows a' ∧ a.offsets <+: a'.offsets := by
  unfold Transition at transition
  split at transition
  · subst transition
    exact ⟨.refl _, List.prefix_refl _⟩
  · exact ⟨transition.grows, transition.offsets_prefix⟩

/-- So does every stretch of a trace. -/
theorem Trace.grows
    (trace : Trace mod func ops state last)
    (complete : last ≤ ops.length)
    {earlier later : Nat} (ordered : earlier ≤ later) (inside : later ≤ last) :
    (state earlier).Grows (state later) ∧
      (state earlier).offsets <+: (state later).offsets := by
  induction later, ordered using Nat.le_induction with
  | base => exact ⟨.refl _, List.prefix_refl _⟩
  | succ later ordered inductionHypothesis =>
      obtain ⟨code, offsets⟩ := inductionHypothesis (by omega)
      have found := List.getElem?_eq_getElem (show later < ops.length by omega)
      obtain ⟨codeStep, offsetsStep⟩ :=
        (trace.steps later (by omega) _ found).grows
      exact ⟨code.trans codeStep, offsets.trans offsetsStep⟩

/-- A live operator on data is an instruction of the finished body. Its operands are
the topmost ones of the simulated stack, deepest first, and its result takes their
place. -/
theorem data_of_emitted
    {body : LoweredFuncBody} {position : Nat} {op : DataOp Nat Nat}
    (trace : Trace mod func ops state ops.length)
    (resolves : Resolves mod func.localsCount (state ops.length) body)
    (found : ops[position]? = some (.data op))
    (live : ¬DeadAt ops position) :
    op.inputs ≤ (state position).view.length ∧
    ∃ lowered : DataOp Nat Unit,
      lowered.resolveOffset body.frame.memoryOffsets = some op.meaning ∧
      body.instructions[(state position).code.length]? = some
        (.data lowered
          ((((state position).view.take op.inputs).reverse).map
            (·.resolve func.localsCount body.frame.consts.length body.frame.spills))
          (Symbolic.baseOf func.localsCount ((state position).view.drop op.inputs) +
            body.frame.consts.length + body.frame.spills)) := by
  have inside := (List.getElem?_eq_some_iff.mp found).1
  have transition := trace.steps position inside _ found
  unfold Transition at transition
  rw [if_neg (mt (deadAt_iff found).mpr live)] at transition
  obtain ⟨enough, lowered, isOffset, code⟩ := transition.data_eq
  obtain ⟨codeGrows, offsetsGrow⟩ := trace.grows le_rfl (Nat.succ_le_of_lt inside) le_rfl
  have emitted : (state (position + 1)).code[(state position).code.length]? = some
      (.data lowered ((state position).view.take op.inputs).reverse
        (Symbolic.baseOf func.localsCount ((state position).view.drop op.inputs))) := by
    rw [code]
    exact List.getElem?_concat_length
  obtain ⟨final, isFinal, sameShape⟩ := codeGrows.getElem? emitted
  have kept : final = .data lowered ((state position).view.take op.inputs).reverse
      (Symbolic.baseOf func.localsCount ((state position).view.drop op.inputs)) := by
    cases final <;> first | exact sameShape | cases sameShape
  refine ⟨enough, lowered, ?_, ?_⟩
  · rw [resolves.offsets]
    exact DataOp.resolveOffset_mono offsetsGrow isOffset
  · rw [resolves.instructions, List.getElem?_map, isFinal, kept]
    rfl

/-- The instructions of a finished body name slots of its frame. -/
theorem Resolves.inside
    {a : Symbolic} {body : LoweredFuncBody} {instr : RegInstruction Slot}
    {locals index : Nat}
    (resolves : Resolves mod locals a body)
    (found : body.instructions[index]? = some instr) :
    instr.Inside mod body.frame := by
  rw [resolves.instructions, List.getElem?_map] at found
  obtain ⟨sym, isSym, rfl⟩ := Option.map_eq_some_iff.mp found
  have fit := resolves.fit
  have below := resolves.below sym (List.mem_of_getElem? isSym)
  rw [← resolves.localsCount] at fit below ⊢
  exact RegInstruction.inside_resolve fit below

end Runs

end Register
end TraceWasm
