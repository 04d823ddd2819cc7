import TraceWasm.Stack.Structured

/-!
# The instruction of an operator on data

The instruction of an operator that acts on data stands at the position of the
operator. Closing a label changes branches only, so it is still there when the
body is finished.
-/

namespace TraceWasm
namespace Stack

/-- Instructions on data stay where they are. -/
def KeepsData (code code' : List StackInstruction) : Prop :=
  ∀ (position : Nat) (op : DataOp Nat Unit),
    code[position]? = some (StackInstruction.data op) →
      code'[position]? = some (StackInstruction.data op)

namespace KeepsData

variable {code code' code'' : List StackInstruction}

theorem refl (code : List StackInstruction) : KeepsData code code :=
  fun _ _ found => found

theorem trans (first : KeepsData code code') (second : KeepsData code' code'') :
    KeepsData code code'' :=
  fun position op found => second position op (first position op found)

theorem append (code added : List StackInstruction) : KeepsData code (code ++ added) := by
  intro position op found
  rw [List.getElem?_append_left (List.getElem?_eq_some_iff.mp found).1]
  exact found

/-- Another instruction may be replaced. -/
theorem set
    {index : Nat} {instr : StackInstruction}
    (found : code[index]? = some instr)
    (other : ∀ op, instr ≠ .data op)
    (replacement : StackInstruction) :
    KeepsData code (code.set index replacement) := by
  intro position op foundData
  have apart : index ≠ position := by
    rintro rfl
    rw [found] at foundData
    exact other op (Option.some.inj foundData)
  rw [List.getElem?_set_ne apart]
  exact foundData

end KeepsData

/-- Patching a branch keeps the operators on data. -/
theorem keepsData_patchBreak
    {index : Nat} {code code' : Lowering.Patched} {attached : Nat × Nat}
    (patched : Lowering.patchBreak index code attached = .ok code') :
    KeepsData code.1 code'.1 := by
  obtain ⟨instr, found, patched⟩ := Attempt.bind_eq_ok.mp patched
  have found := Attempt.orPanic_eq_ok.mp found
  cases instr with
  | br target =>
      cases patched
      exact .set found (by simp) _
  | brIf target =>
      cases patched
      exact .set found (by simp) _
  | brTable start len =>
      obtain ⟨target, _, same⟩ := Attempt.bind_eq_ok.mp patched
      cases same
      exact .refl _
  | returnOp target =>
      cases patched
      exact .set found (by simp) _
  | _ => cases patched

theorem keepsData_patchIf
    {index : Nat} {code code' : List StackInstruction} {kind : BlockKind}
    (patched : Lowering.patchIf index code kind = .ok code') :
    KeepsData code code' := by
  cases kind with
  | ifOp ifIndex elseIndex =>
      obtain ⟨instr, found, patched⟩ := Attempt.bind_eq_ok.mp patched
      have found := Attempt.orPanic_eq_ok.mp found
      cases instr with
      | ifOp elseTarget endTarget =>
          have first : KeepsData code (code.set ifIndex (.ifOp elseIndex index)) :=
            .set found (by simp) _
          cases elseIndex with
          | none =>
              cases patched
              exact first
          | some elseIndex =>
              obtain ⟨instr, found, patched⟩ := Attempt.bind_eq_ok.mp patched
              have found := Attempt.orPanic_eq_ok.mp found
              cases instr with
              | elseOp target =>
                  cases patched
                  exact first.trans (.set found (by simp) _)
              | _ => cases patched
      | _ => cases patched
  | _ =>
      cases patched
      exact .refl _

/-- So does lowering an operator. -/
theorem StackStep.keepsData (step : StackStep mod offset s op s') :
    KeepsData s.instructions s'.instructions := by
  cases step with
  | endOp opened patched patchedIf =>
      have breaks := @Attempt.foldlM_keeps _ _ _ _
        (fun reached => KeepsData s.instructions reached.1) _ _ _
        (fun _ _ _ stepped kept => kept.trans (keepsData_patchBreak stepped))
        patched (.refl _)
      exact (breaks.trans (keepsData_patchIf patchedIf)).trans (.append _ _)
  | _ => exact .append _ _

/-- An operator on data emits itself. -/
theorem StackStep.emits_data
    {op : DataOp Nat Nat}
    (step : StackStep mod offset s (.data op) s') :
    s'.instructions =
      s.instructions ++ [.data (Lowering.narrowOffset op.dropMemory)] := by
  cases step with
  | simple simple known enough =>
      cases simple
      rfl
  | opens isOpening arities enough => cases isOpening

/-- The operator on data at a position of a validated body is the instruction at that
position. -/
theorem data_of_emitted
    {ops : List (Operator × Nat)} {body : LoweredFuncBody}
    {position offset : Nat} {op : DataOp Nat Nat}
    (validates : Validates mod func (ops.map Prod.fst))
    (emitted : emitInstructionsForFunc mod func ops = .ok body)
    (found : ops[position]? = some (.data op, offset)) :
    body.instructions[position]? = some (.data (Lowering.narrowOffset op.dropMemory)) := by
  have wellNested := validates.wellNested
  obtain ⟨s, lowered, same⟩ := Attempt.bind_eq_ok.mp emitted
  cases same
  obtain ⟨state, isStart, rfl, steps, rests⟩ := Attempt.exists_states lowered
  have stepAt : ∀ position located, ops[position]? = some located →
      StackStep mod (located.2 % 2 ^ 32) (state position) located.1 (state (position + 1)) := by
    intro position located found
    have inside := (List.getElem?_eq_some_iff.mp found).1.le
    exact Lowering.step_of_lowerOperator
      ((reached_of_steps wellNested isStart steps inside).opened wellNested found)
      (steps _ _ found)
  have inside := (List.getElem?_eq_some_iff.mp found).1
  have first : (state (position + 1)).instructions[position]? =
      some (.data (Lowering.narrowOffset op.dropMemory)) := by
    have len := (reached_of_steps wellNested isStart steps inside.le).len
    rw [Nat.min_eq_left inside.le] at len
    have isNew : (state position).instructions.length = position := len
    rw [(stepAt position _ found).emits_data, List.getElem?_append_right isNew.le, isNew,
      Nat.sub_self]
    rfl
  have kept : ∀ later, position + 1 ≤ later → later ≤ ops.length →
      KeepsData (state (position + 1)).instructions (state later).instructions := by
    intro later after
    induction later, after using Nat.le_induction with
    | base => exact fun _ => .refl _
    | succ later after inductionHypothesis =>
        intro inside
        have found := List.getElem?_eq_getElem (show later < ops.length from inside)
        exact (inductionHypothesis (by omega)).trans (stepAt later _ found).keepsData
  exact kept ops.length inside le_rfl position _ first

end Stack
end TraceWasm
