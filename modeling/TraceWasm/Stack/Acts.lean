import Mathlib.Data.Option.Basic
import TraceWasm.Stack.Balance
import TraceWasm.Stack.Segments

/-!
# What an instruction does in its frame

An instruction that touches nothing but its frame is a function of the locals and
the operands. While the operand stack stays below 2 ^ 32 values, the instruction
executes as that function says.
-/

namespace TraceWasm
namespace Stack

/-- The locals and operands that an instruction of the frame leaves, and how it goes
on. `none` is an instruction that does not find what it takes, or that is not one of
the frame. -/
def StackInstruction.act
    (arena : List Target) (locals operands : List Value) :
    StackInstruction → Option (Step StackCallerBaseData × List Value × List Value)
  | .const value => some (.next, locals, operands ++ [value.toValue])
  | .localGet index => do
      let val ← locals[index]?
      return (.next, locals, operands ++ [val])
  | .localSet index => do
      guard (index < locals.length)
      let val ← operands.getLast?
      return (.next, locals.set index val, operands.dropLast)
  | .localTee index => do
      guard (index < locals.length)
      let val ← operands.getLast?
      return (.next, locals.set index val, operands)
  | .nop => some (.next, locals, operands)
  | .block => some (.next, locals, operands)
  | .loop => some (.next, locals, operands)
  | .drop => do
      let _ ← operands.getLast?
      return (.next, locals, operands.dropLast)
  | .ifOp elseIndex endIndex => do
      let cond ← operands.getLast?
      if cond.asI32 ≠ 0 then return (.next, locals, operands.dropLast)
      else return (.jumpTo (elseIndex.elim endIndex (· + 1)), locals, operands.dropLast)
  | .elseOp ifEndIndex => some (.jumpTo ifEndIndex, locals, operands)
  | .endOp arity recordedHeight => do
      guard (operands.length = recordedHeight + arity)
      return (.next, locals, operands)
  | .br target => do
      guard (target.recordedHeight + target.arity ≤ operands.length)
      return (.jumpTo target.targetIndex, locals, target.unwind operands)
  | .brIf target => do
      let cond ← operands.getLast?
      if cond.asI32 ≠ 0 then
        guard (target.recordedHeight + target.arity ≤ operands.dropLast.length)
        return (.jumpTo target.targetIndex, locals, target.unwind operands.dropLast)
      else return (.next, locals, operands.dropLast)
  | .brTable startIndex len => do
      let index ← operands.getLast?
      let arms ← readRun arena startIndex len
      let target ← selectArm arms index.asOffset
      guard (target.recordedHeight + target.arity ≤ operands.dropLast.length)
      return (.jumpTo target.targetIndex, locals, target.unwind operands.dropLast)
  | .returnOp target => do
      guard (target.recordedHeight + target.arity ≤ operands.length)
      return (.jumpTo target.targetIndex, locals, target.unwind operands)
  | _ => none

@[simp] theorem StackInstruction.act_nop (arena : List Target) (locals operands : List Value) :
    StackInstruction.nop.act arena locals operands = some (.next, locals, operands) := by
  simp only [StackInstruction.act]

/-- A list with a last item. -/
theorem eq_concat_of_getLast?
    {α : Type} {list : List α} {last : α}
    (isLast : list.getLast? = some last) :
    list = list.dropLast ++ [last] := by
  obtain ⟨rest, rfl⟩ := List.getLast?_eq_some_iff.mp isLast
  rw [List.dropLast_concat]

section Execute

variable {memory registry : Type} [Memory memory]
variable {host : ImportRegistry registry} {numerics : Numerics}
  {module : Module StackInstruction StackFrameLayout} {layout : StackFrameLayout}
  {base : StackCallerBaseData} {inst : StackInstance memory registry}
  {below locals operands locals' operands' : List Value} {instr : StackInstruction}
  {step : Step StackCallerBaseData}

omit [Memory memory] in
/-- A new operand stack goes into the instance. -/
theorem proceeds
    {updated : Option (Stack Value)} {after : Stack Value}
    (isUpdated : updated = some after)
    (left : Segmented after base below locals' operands') :
    ∃ after, proceed inst updated step = (.ok step, { inst with frame := after }) ∧
      Segmented after base below locals' operands' := by
  subst isUpdated
  exact ⟨after, rfl, left⟩

omit [Memory memory] in
/-- An instruction that leaves the frame alone. -/
theorem stays (frame : Segmented inst.frame base below locals operands) :
    ∃ after, ((.ok step, inst) : Answer memory registry) =
        (.ok step, { inst with frame := after }) ∧
      Segmented after base below locals operands :=
  ⟨inst.frame, rfl, frame⟩

omit [Memory memory] in
/-- A branch unwinds the frame and jumps. -/
theorem unwinds
    {target : Target}
    (frame : Segmented inst.frame base below locals operands)
    (fits : inst.frame.stackPointer < 2 ^ 32)
    (enough : target.recordedHeight + target.arity ≤ operands.length) :
    ∃ after, proceed inst (inst.frame.unwindTo base target) step =
        (.ok step, { inst with frame := after }) ∧
      Segmented after base below locals (target.unwind operands) := by
  obtain ⟨after, unwound, left⟩ := frame.unwindTo fits enough
  exact proceeds unwound left

/-- An instruction of the frame executes as it acts. -/
theorem execute_of_act
    (frame : Segmented inst.frame base below locals operands)
    (fits : inst.frame.stackPointer < 2 ^ 32)
    (acts : instr.act layout.brTargetsArena locals operands = some (step, locals', operands')) :
    ∃ after, execute host numerics module instr layout base inst =
        (.ok step, { inst with frame := after }) ∧
      Segmented after base below locals' operands' := by
  -- an instruction that takes its last operand
  have popped : ∀ {val : Value}, operands.getLast? = some val →
      ∃ after, inst.frame.pop = some (val, after) ∧
        Segmented after base below locals operands.dropLast ∧
        after.stackPointer < 2 ^ 32 := by
    intro val isLast
    have whole := frame
    rw [eq_concat_of_getLast? isLast] at whole
    obtain ⟨after, pop, left⟩ := whole.pop
    exact ⟨after, pop, left, frame.height_lt left fits (by simp)⟩
  cases instr with
  | const value =>
      cases acts
      exact ⟨_, rfl, frame.push _⟩
  | localGet index =>
      obtain ⟨val, found, same⟩ := Option.bind_eq_some_iff.mp acts
      cases same
      obtain ⟨inside, isVal⟩ := List.getElem?_eq_some_iff.mp found
      have read : (inst.frame.getLocal base index).map inst.frame.push =
          some (inst.frame.push val) := by
        rw [frame.getLocal fits inside, isVal]
        rfl
      exact proceeds read (frame.push val)
  | localSet index =>
      obtain ⟨_, inside, acts⟩ := Option.bind_eq_some_iff.mp acts
      obtain ⟨val, isLast, same⟩ := Option.bind_eq_some_iff.mp acts
      cases same
      obtain ⟨middle, pop, left, lower⟩ := popped isLast
      obtain ⟨after, wrote, left⟩ := left.setLocal lower ((Option.guard_eq_some' _).mp inside) val
      apply proceeds _ left
      rw [pop]
      exact wrote
  | localTee index =>
      obtain ⟨_, inside, acts⟩ := Option.bind_eq_some_iff.mp acts
      obtain ⟨val, isLast, same⟩ := Option.bind_eq_some_iff.mp acts
      cases same
      have top := frame
      rw [eq_concat_of_getLast? isLast] at top
      obtain ⟨after, wrote, left⟩ := frame.setLocal fits ((Option.guard_eq_some' _).mp inside) val
      apply proceeds _ left
      rw [top.tee]
      exact wrote
  | nop =>
      cases acts
      exact stays frame
  | block =>
      cases acts
      exact stays frame
  | loop =>
      cases acts
      exact stays frame
  | drop =>
      obtain ⟨val, isLast, same⟩ := Option.bind_eq_some_iff.mp acts
      cases same
      obtain ⟨after, pop, left, lower⟩ := popped isLast
      apply proceeds _ left
      rw [pop]
      rfl
  | ifOp elseIndex endIndex =>
      obtain ⟨cond, isLast, acts⟩ := Option.bind_eq_some_iff.mp acts
      obtain ⟨after, pop, left, lower⟩ := popped isLast
      unfold execute
      rw [pop]
      dsimp only at acts ⊢
      split at acts
      · rename_i holds
        cases acts
        rw [if_pos holds]
        exact ⟨after, rfl, left⟩
      · rename_i fails
        cases acts
        rw [if_neg fails]
        cases elseIndex <;> exact ⟨after, rfl, left⟩
  | elseOp ifEndIndex =>
      cases acts
      exact stays frame
  | endOp arity recordedHeight =>
      obtain ⟨_, height, same⟩ := Option.bind_eq_some_iff.mp acts
      cases same
      have balanced := (Option.guard_eq_some' _).mp height
      unfold execute
      dsimp only
      rw [if_pos (frame.endHeight fits balanced)]
      exact stays frame
  | br target =>
      obtain ⟨_, enough, same⟩ := Option.bind_eq_some_iff.mp acts
      cases same
      exact unwinds frame fits ((Option.guard_eq_some' _).mp enough)
  | brIf target =>
      obtain ⟨cond, isLast, acts⟩ := Option.bind_eq_some_iff.mp acts
      obtain ⟨after, pop, left, lower⟩ := popped isLast
      unfold execute
      rw [pop]
      dsimp only at acts ⊢
      split at acts
      · rename_i holds
        obtain ⟨_, enough, same⟩ := Option.bind_eq_some_iff.mp acts
        cases same
        rw [if_pos holds]
        obtain ⟨final, unwound, left⟩ :=
          left.unwindTo lower ((Option.guard_eq_some' _).mp enough)
        rw [unwound]
        exact ⟨final, rfl, left⟩
      · rename_i fails
        cases acts
        rw [if_neg fails]
        exact ⟨after, rfl, left⟩
  | brTable startIndex len =>
      obtain ⟨index, isLast, acts⟩ := Option.bind_eq_some_iff.mp acts
      obtain ⟨arms, read, acts⟩ := Option.bind_eq_some_iff.mp acts
      obtain ⟨target, selected, acts⟩ := Option.bind_eq_some_iff.mp acts
      obtain ⟨_, enough, same⟩ := Option.bind_eq_some_iff.mp acts
      cases same
      obtain ⟨after, pop, left, lower⟩ := popped isLast
      obtain ⟨final, unwound, left⟩ := left.unwindTo lower ((Option.guard_eq_some' _).mp enough)
      unfold execute
      rw [pop]
      dsimp only
      rw [read, Option.bind_some, selected]
      dsimp only
      rw [unwound]
      exact ⟨final, rfl, left⟩
  | returnOp target =>
      obtain ⟨_, enough, same⟩ := Option.bind_eq_some_iff.mp acts
      cases same
      exact unwinds frame fits ((Option.guard_eq_some' _).mp enough)
  | _ => cases acts

end Execute

end Stack
end TraceWasm
