import TraceWasm.Register.OperandSteps

/-!
# The bookkeeping of every lowering run

The lowering of a validated body takes its operand stack through steps that
keep the borrows, the spill slots and the registers consistent. A branch, which
pops nothing, computes what popping and pushing would have.
-/

namespace TraceWasm

namespace Validator

/-- A body that validates names no local past the function's. -/
theorem localGet_lt_of_run
    {v result : Validator}
    (ran : v.run mod locals results ops = some result)
    (member : Operator.localGet index ∈ ops) :
    index < locals := by
  induction ops generalizing v with
  | nil => simp at member
  | cons op ops inductionHypothesis =>
      simp only [run, List.foldlM_cons, Option.bind_eq_bind,
        Option.bind_eq_some_iff] at ran
      obtain ⟨middle, stepped, ran⟩ := ran
      rcases List.mem_cons.mp member with rfl | member
      · simp only [step] at stepped
        split at stepped
        · rename_i valid
          exact valid.1
        · cases stepped
      · exact inductionHypothesis ran member

end Validator

namespace Register

namespace OperandStack

/-- The registers of the stack, bottom to top. -/
def registerIndices (operands : OperandStack) : List Nat :=
  operands.stack.reverse.filterMap fun
    | .register index => some index
    | _ => none

theorem registerIndices_eq
    (sound : Sound locals operands) :
    operands.registerIndices =
      List.range' locals (View.registers operands.view) := by
  have consecutive := sound.consecutive
  unfold registerIndices view at *
  revert consecutive
  induction operands.stack with
  | nil => intro _; rfl
  | cons val stack inductionHypothesis =>
      intro consecutive
      have prior := inductionHypothesis consecutive.tail
      rw [List.reverse_cons, List.filterMap_append, prior, List.map_cons]
      cases val with
      | const id =>
          change _ = List.range' locals (View.registers (.const id :: _))
          rw [View.registers_cons_const]
          exact List.append_nil _
      | register index =>
          change _ = List.range' locals (View.registers (.register index :: _))
          rw [View.registers_cons_register, List.range'_concat, ← consecutive.1.trans
            (show _ = locals + 1 * _ by rw [Nat.one_mul])]
          rfl
      | «local» slot =>
          change _ = List.range' locals (View.registers
            (viewSlot operands.lazyLocals (.local slot) :: _))
          rw [show View.registers (viewSlot operands.lazyLocals (.local slot) :: _) = _
            from List.countP_cons_of_neg (by simp)]
          exact List.append_nil _

/-- The registers of an operand stack are consistent, and branches and calls
read it as popping and pushing would. -/
structure RegistersConsistent (locals : Nat) (operands : OperandStack) :
    Prop where
  consecutive : operands.registerIndices =
    List.range' locals operands.registerIndices.length
  counter : operands.currRegisterIndex =
    locals + operands.registerIndices.length
  /-- The register index at a depth is the one that popping leaves. -/
  atDepth : ∀ depth ≤ operands.height, ∃ slots below,
    (operands.popMany depth : Attempt TraceWasmError _) = .ok (slots, below) ∧
      (operands.registerIndexAtDepth depth : Attempt TraceWasmError _) =
        .ok below.currRegisterIndex
  /-- A branch carries the last of the operands that popping yields and goes to the
  registers that pushing them again hands out, and raises the peak over these. It
  fails exactly when they do not fit the frame. -/
  truncation : ∀ baseHeight arity, baseHeight + arity ≤ operands.height →
    ∃ slots below,
      (operands.popMany (operands.height - baseHeight) :
        Attempt TraceWasmError _) = .ok (slots, below) ∧
      operands.brTruncationRegisters baseHeight arity =
        (if below.currRegisterIndex + arity ≤ u16Max then
          .ok (slots.drop (slots.length - arity),
            ⟨List.replicate arity placeholder, below.currRegisterIndex⟩,
            raiseMax operands (below.currRegisterIndex + arity))
        else .fail (registerFrameTooLarge (below.currRegisterIndex + arity))) ∧
      (below.currRegisterIndex + arity ≤ u16Max →
        ∃ pushed, below.pushMany arity = .ok pushed ∧
          pushed.view = View.registerRun below.currRegisterIndex arity ++ below.view)

/-- A sound operand stack has consistent registers. -/
theorem Sound.registersConsistent
    (sound : Sound locals operands) :
    RegistersConsistent locals operands where
  consecutive := by
    rw [registerIndices_eq sound, List.length_range']
  counter := by
    rw [registerIndices_eq sound, List.length_range']
    exact sound.counter
  atDepth := by
    intro depth enough
    rw [← length_view] at enough
    obtain ⟨below, popped, becomes⟩ :=
      sound.popMany_eq (ε := TraceWasmError) enough
    refine ⟨_, below, popped, ?_⟩
    rw [sound.registerIndexAtDepth_eq enough, becomes.sound.counter, becomes.view]
  truncation := by
    intro baseHeight arity enough
    rw [← length_view] at enough ⊢
    obtain ⟨below, popped, becomes⟩ := sound.popMany_eq (ε := TraceWasmError)
      (show operands.view.length - baseHeight ≤ operands.view.length by omega)
    have isBase : below.currRegisterIndex = locals + View.registers
        (operands.view.drop (operands.view.length - baseHeight)) := by
      rw [becomes.sound.counter, becomes.view]
    refine ⟨_, below, popped, ?_, ?_⟩
    · have carried : (operands.view.take arity).reverse =
          (operands.view.take (operands.view.length - baseHeight)).reverse.drop
            ((operands.view.take (operands.view.length - baseHeight)).reverse.length -
              arity) := by
        rw [List.length_reverse, List.drop_reverse, List.length_take, List.take_take]
        congr 2
        omega
      rw [sound.brTruncationRegisters_eq enough isBase, carried]
    · intro fits
      obtain ⟨pushed, isPushed, becomes⟩ := becomes.sound.pushMany_eq fits
      exact ⟨pushed, isPushed, becomes.view⟩

/-- Every register the steps handed out, and every destination of a branch they
computed, lies below the peak. -/
structure PeakCovers (locals : Nat) (start operands : OperandStack) : Prop where
  pushed : ∀ before after, Steps locals start before →
    before.push (asU16 before.currRegisterIndex) = .ok after →
    Steps locals after operands →
    before.currRegisterIndex < operands.maxRegisters
  branched : ∀ before baseHeight arity carried mov after,
    Steps locals start before →
    baseHeight + arity ≤ before.height →
    before.brTruncationRegisters baseHeight arity = .ok (carried, mov, after) →
    Steps locals after operands →
    mov.outputStart + arity ≤ operands.maxRegisters

/-- Steps from a sound operand stack raise the peak as far as they need. -/
theorem Sound.peakCovers
    (sound : Sound locals start) (operands : OperandStack) :
    PeakCovers locals start operands where
  pushed := by
    intro before after prior pushed rest
    have becomes := (Steps.sound prior sound).pushRegister_meets.of_ok pushed
    have covered := becomes.sound.peak
    rw [becomes.sound.counter, becomes.view, View.registers_cons_register,
      ← Nat.add_assoc, ← (Steps.sound prior sound).counter] at covered
    exact covered.trans (Steps.max_le rest becomes.sound)
  branched := by
    intro before baseHeight arity carried mov after prior enough truncated rest
    rw [← length_view] at enough
    have soundBefore := Steps.sound prior sound
    obtain ⟨_, rfl, fits, rfl⟩ :=
      (soundBefore.brTruncationRegisters_meets enough).of_ok truncated
    exact (le_max_right _ _).trans
      (Steps.max_le rest (soundBefore.raiseMax_becomes fits).sound)

end OperandStack

open OperandStack (Steps LazyInvariant RegistersConsistent PeakCovers)

variable {mod : ModuleTypes} {func : FuncHeader} {ops : List Operator}

/-- The operand stacks that the lowering of a validated body passes through are
reached by steps from the empty one. -/
theorem steps_of_lowerOperators
    (validates : Validates mod func ops)
    (lowered : (Lowering.initial func).lowerOperators mod func.results
      (ops.take position) = .ok s) :
    Steps func.localsCount (.new func.localsCount) s.operands := by
  obtain ⟨v, ran, _⟩ := validates
  refine Lowering.steps_lowerOperators (fun op member => ?_) func.locals_le lowered
  cases op with
  | localGet index => exact Validator.localGet_lt_of_run ran (List.mem_of_mem_take member)
  | _ => trivial

/-- Over every sequence of lowering steps on a validated body, the borrows and
the spill slots stay consistent. -/
theorem lazy_bookkeeping_consistent
    (validates : Validates mod func ops) :
    (∀ position s,
      (Lowering.initial func).lowerOperators mod func.results
        (ops.take position) = .ok s →
      Steps func.localsCount (.new func.localsCount) s.operands) ∧
    ∀ operands, Steps func.localsCount (.new func.localsCount) operands →
      operands.LazyInvariant :=
  ⟨fun _ _ lowered => steps_of_lowerOperators validates lowered,
    fun _ steps =>
      (Steps.sound steps (OperandStack.sound_new func.locals_le)).lazy⟩

/-- A body that overwrites the local it returns. -/
def overwritingBody : List Operator :=
  [.localGet 0, .const (.i32 5), .localSet 0, .endOp]

/-- A function from one value to one. -/
def unaryHeader : FuncHeader := ⟨1, 1, 1, le_rfl, by decide⟩

/-- The bookkeeping of a body that overwrites a borrowed local. -/
theorem lazy_bookkeeping_of_overwritingBody :
    (∀ position s,
      (Lowering.initial unaryHeader).lowerOperators ⟨[], []⟩ unaryHeader.results
        (overwritingBody.take position) = .ok s →
      Steps unaryHeader.localsCount (.new unaryHeader.localsCount) s.operands) ∧
    ∀ operands, Steps unaryHeader.localsCount (.new unaryHeader.localsCount) operands →
      operands.LazyInvariant :=
  lazy_bookkeeping_consistent
    (show Validates ⟨[], []⟩ unaryHeader overwritingBody from ⟨_, rfl, rfl⟩)

/-- At every point of every lowering run on a validated body, the registers of
the operand stack are consecutive, the peak covers all that were allocated, and
what branches and calls compute without popping is what popping gives. A branch
changes the peak alone. -/
theorem register_bookkeeping_consistent
    (validates : Validates mod func ops) :
    (∀ position s,
      (Lowering.initial func).lowerOperators mod func.results
        (ops.take position) = .ok s →
      Steps func.localsCount (.new func.localsCount) s.operands) ∧
    ∀ operands, Steps func.localsCount (.new func.localsCount) operands →
      RegistersConsistent func.localsCount operands ∧
        PeakCovers func.localsCount (.new func.localsCount) operands :=
  have soundNew := OperandStack.sound_new func.locals_le
  ⟨fun _ _ lowered => steps_of_lowerOperators validates lowered,
    fun operands steps =>
      ⟨(Steps.sound steps soundNew).registersConsistent,
        soundNew.peakCovers operands⟩⟩

/-- Its registers. -/
theorem register_bookkeeping_of_overwritingBody :
    (∀ position s,
      (Lowering.initial unaryHeader).lowerOperators ⟨[], []⟩ unaryHeader.results
        (overwritingBody.take position) = .ok s →
      Steps unaryHeader.localsCount (.new unaryHeader.localsCount) s.operands) ∧
    ∀ operands, Steps unaryHeader.localsCount (.new unaryHeader.localsCount) operands →
      RegistersConsistent unaryHeader.localsCount operands ∧
        PeakCovers unaryHeader.localsCount (.new unaryHeader.localsCount) operands :=
  register_bookkeeping_consistent
    (show Validates ⟨[], []⟩ unaryHeader overwritingBody from ⟨_, rfl, rfl⟩)

/-- A body that branches out with a constant. -/
def constantBranchBody : List Operator :=
  [.const (.i32 5), .br 0, .endOp]

/-- A function without parameters that returns a value. -/
def constantHeader : FuncHeader := ⟨0, 1, 0, le_rfl, by decide⟩

/-- Before the branch the frame has no register yet. Computing the move of the branch
makes it one register high. -/
theorem brTruncationRegisters_raises_peak :
    Validates ⟨[], []⟩ constantHeader constantBranchBody ∧
      ∃ s carried mov after,
        (Lowering.initial constantHeader).lowerOperators ⟨[], []⟩ constantHeader.results
          (constantBranchBody.take 1) = .ok s ∧
        s.operands.brTruncationRegisters 0 1 = .ok (carried, mov, after) ∧
        s.operands.maxRegisters = 0 ∧ after.maxRegisters = 1 :=
  ⟨⟨_, rfl, rfl⟩, _, _, _, _, rfl, rfl, rfl, rfl⟩

end Register
end TraceWasm
