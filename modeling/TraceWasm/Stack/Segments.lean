import TraceWasm.Stack.Execute

/-!
# The segments of the operand stack

What an instruction sees of the shared stack is a list in three segments: what
lies below the frame, the frame's locals, and its operands. Each instruction whose
operands and locals are there acts on the last two and leaves the first.
-/

namespace TraceWasm
namespace Stack

section Live

variable {α : Type} {s : Stack α} {below above : List α}

/-- The stack is valid and holds a list. -/
structure Holds (s : Stack α) (list : List α) : Prop where
  valid : s.Valid
  live : s.live = list

theorem Holds.length {list : List α} (holds : s.Holds list) :
    s.stackPointer = list.length := by
  rw [← holds.live, length_live holds.valid]

theorem Holds.getElem?
    {list : List α} {slot : Nat}
    (holds : s.Holds list)
    (inside : slot < list.length) :
    s.stack[slot]? = list[slot]? := by
  have height := holds.length
  rw [← holds.live]
  unfold Stack.live
  rw [List.getElem?_take_of_lt (by omega)]

theorem Holds.push {list : List α} (holds : s.Holds list) (val : α) :
    (s.push val).Holds (list ++ [val]) where
  valid := valid_push holds.valid val
  live := by rw [live_push holds.valid, holds.live]

theorem Holds.pushAll {list : List α} (holds : s.Holds list) (vals : List α) :
    (s.pushAll vals).Holds (list ++ vals) where
  valid := valid_pushAll holds.valid vals
  live := by rw [live_pushAll holds.valid, holds.live]

/-- Lowering the top forgets what lay above it. -/
theorem Holds.lower (holds : s.Holds (below ++ above)) :
    Holds { s with stackPointer := below.length } below := by
  have height := holds.length
  have bound : s.stackPointer ≤ s.stack.length := holds.valid
  rw [List.length_append] at height
  constructor
  · change below.length ≤ s.stack.length
    omega
  · have live := holds.live
    unfold Stack.live at live ⊢
    have taken := congrArg (List.take below.length) live
    rw [List.take_take, Nat.min_eq_left (by omega), List.take_left] at taken
    exact taken

/-- The topmost values are taken. -/
theorem Holds.takeRun (holds : s.Holds (below ++ above)) :
    s.takeRun above.length =
      some (above, { s with stackPointer := below.length }) := by
  have height := holds.length
  rw [List.length_append] at height
  rw [takeRun_of_le holds.valid (by omega), holds.live, height, Nat.add_sub_cancel,
    List.drop_left]

theorem Holds.pop {val : α} (holds : s.Holds (below ++ [val])) :
    s.pop = some (val, { s with stackPointer := below.length }) := by
  have height := holds.length
  rw [List.length_append, List.length_singleton] at height
  have found := holds.getElem? (show below.length < (below ++ [val]).length by simp)
  rw [List.getElem?_concat_length] at found
  unfold Stack.pop
  rw [height]
  dsimp only
  rw [found]
  rfl

theorem Holds.tee {val : α} (holds : s.Holds (below ++ [val])) :
    s.tee = some val := by
  have height := holds.length
  rw [List.length_append, List.length_singleton] at height
  have found := holds.getElem? (show below.length < (below ++ [val]).length by simp)
  rw [List.getElem?_concat_length] at found
  unfold Stack.tee
  rw [height, guard, if_pos (Nat.succ_pos _), Nat.add_sub_cancel]
  exact found

/-- Writing a slot of the live part. -/
theorem Holds.set
    {list : List α} (holds : s.Holds list) (slot : Nat) (val : α) :
    Holds { s with stack := s.stack.set slot val } (list.set slot val) := by
  constructor
  · change s.stackPointer ≤ (s.stack.set slot val).length
    rw [List.length_set]
    exact holds.valid
  · have live := holds.live
    unfold Stack.live at live ⊢
    dsimp only
    rw [List.take_set, live]

/-- Unwinding drops what lies between the new height and the values that are kept. -/
theorem Holds.truncate
    {middle : List α}
    (holds : s.Holds (below ++ (middle ++ above))) :
    ∃ after, s.truncateByPreservingArity below.length above.length = some after ∧
      after.Holds (below ++ above) := by
  have height := holds.length
  have bound : s.stackPointer ≤ s.stack.length := holds.valid
  rw [List.length_append, List.length_append] at height
  have source : (s.stack.drop (s.stackPointer - above.length)).take above.length = above := by
    have live := holds.live
    unfold Stack.live at live
    have dropped := congrArg (List.drop (below.length + middle.length)) live
    rw [← List.append_assoc, List.drop_take,
      List.drop_left' (by rw [List.length_append])] at dropped
    rw [show s.stackPointer - above.length = below.length + middle.length by omega]
    rw [show s.stackPointer - (below.length + middle.length) = above.length by omega]
      at dropped
    exact dropped
  have moved := moveRun_of_le
    (show below.length ≤ s.stackPointer - above.length by omega)
    (show s.stackPointer - above.length + above.length ≤ s.stack.length by omega)
  rw [source] at moved
  refine ⟨⟨overwrite s.stack below.length above, below.length + above.length⟩, ?_, ?_, ?_⟩
  · unfold truncateByPreservingArity
    rw [guard, if_pos (by omega), moved]
    rfl
  · change below.length + above.length ≤ (overwrite s.stack below.length above).length
    rw [length_overwrite]
    omega
  · have live := holds.live
    unfold Stack.live at live ⊢
    have taken := congrArg (List.take below.length) live
    rw [List.take_take, Nat.min_eq_left (by omega), List.take_left] at taken
    have whole : above.take (s.stack.length - below.length) = above :=
      List.take_of_length_le (by omega)
    unfold overwrite
    dsimp only
    rw [taken, whole, List.take_left' (by rw [List.length_append])]

end Live

/-! ## The frame of an activation -/

/-- The stack as a running activation sees it. -/
structure Segmented
    (s : Stack Value) (base : StackCallerBaseData) (below locals operands : List Value) :
    Prop where
  holds : s.Holds (below ++ locals ++ operands)
  baseHeight : base.baseHeight = below.length
  operandBase : base.calleeFrameBaseHeight = below.length + locals.length

section Frame

variable {s : Stack Value} {base : StackCallerBaseData}
  {below locals operands rest above : List Value} {val : Value}

/-- The height of a frame is its base and its operands. -/
theorem Segmented.height (frame : Segmented s base below locals operands) :
    s.stackPointer = base.calleeFrameBaseHeight + operands.length := by
  rw [frame.holds.length, frame.operandBase, List.length_append, List.length_append]

/-- A frame with fewer operands is no higher. -/
theorem Segmented.height_lt
    {after : Stack Value} {locals' operands' : List Value}
    (frame : Segmented s base below locals operands)
    (left : Segmented after base below locals' operands')
    (fits : s.stackPointer < 2 ^ 32)
    (fewer : operands'.length ≤ operands.length) :
    after.stackPointer < 2 ^ 32 := by
  have height := frame.height
  have heightAfter := left.height
  omega

/-- Other operands in the same frame. -/
theorem Segmented.operate
    {after : Stack Value} {operands' : List Value}
    (frame : Segmented s base below locals operands)
    (holds : after.Holds (below ++ locals ++ operands')) :
    Segmented after base below locals operands' :=
  ⟨holds, frame.baseHeight, frame.operandBase⟩

/-- A push stays in the frame. -/
theorem Segmented.push (frame : Segmented s base below locals operands) (val : Value) :
    Segmented (s.push val) base below locals (operands ++ [val]) := by
  apply frame.operate
  rw [← List.append_assoc]
  exact frame.holds.push val

theorem Segmented.pushAll (frame : Segmented s base below locals operands)
    (vals : List Value) :
    Segmented (s.pushAll vals) base below locals (operands ++ vals) := by
  apply frame.operate
  rw [← List.append_assoc]
  exact frame.holds.pushAll vals

/-- Operands of the frame are taken. -/
theorem Segmented.takeRun
    (frame : Segmented s base below locals (rest ++ above)) :
    ∃ after, s.takeRun above.length = some (above, after) ∧
      Segmented after base below locals rest := by
  have holds := frame.holds
  rw [← List.append_assoc] at holds
  exact ⟨_, holds.takeRun, frame.operate holds.lower⟩

theorem Segmented.pop (frame : Segmented s base below locals (rest ++ [val])) :
    ∃ after, s.pop = some (val, after) ∧ Segmented after base below locals rest := by
  have holds := frame.holds
  rw [← List.append_assoc] at holds
  exact ⟨_, holds.pop, frame.operate holds.lower⟩

theorem Segmented.tee (frame : Segmented s base below locals (rest ++ [val])) :
    s.tee = some val := by
  have holds := frame.holds
  rw [← List.append_assoc] at holds
  exact holds.tee

/-- A local is read where it lies. -/
theorem Segmented.getLocal
    {index : Nat}
    (frame : Segmented s base below locals operands)
    (fits : s.stackPointer < 2 ^ 32)
    (inside : index < locals.length) :
    s.getLocal base index = some locals[index] := by
  have height := frame.holds.length
  have slot := frame.baseHeight
  rw [List.length_append, List.length_append] at height
  unfold Stack.getLocal
  rw [addHeights_of_lt (by omega)]
  change s.stack[index + base.baseHeight]? = _
  rw [frame.holds.getElem? (by simp [slot]; omega), slot,
    List.append_assoc, List.getElem?_append_right (by omega), Nat.add_sub_cancel,
    List.getElem?_append_left inside, List.getElem?_eq_getElem inside]

/-- A local is written where it lies. -/
theorem Segmented.setLocal
    {index : Nat}
    (frame : Segmented s base below locals operands)
    (fits : s.stackPointer < 2 ^ 32)
    (inside : index < locals.length) (val : Value) :
    ∃ after, s.setLocal base index val = some after ∧
      Segmented after base below (locals.set index val) operands := by
  have bound : s.stackPointer ≤ s.stack.length := frame.holds.valid
  have height := frame.holds.length
  rw [List.length_append, List.length_append] at height
  have slot := frame.baseHeight
  refine ⟨{ s with stack := s.stack.set (index + base.baseHeight) val }, ?_, ?_, ?_, ?_⟩
  · unfold Stack.setLocal
    rw [addHeights_of_lt (by omega), Option.bind_eq_bind, Option.bind_some, guard,
      if_pos (by omega)]
    rfl
  · have written := frame.holds.set (index + base.baseHeight) val
    rw [slot, List.append_assoc, List.set_append_right _ _ (by omega), Nat.add_sub_cancel,
      List.set_append_left _ _ inside, ← List.append_assoc] at written
    rw [slot]
    exact written
  · exact slot
  · rw [List.length_set]
    exact frame.operandBase

/-- An `End` finds the operands above the height of its label. -/
theorem Segmented.endHeight
    {arity recordedHeight : Nat}
    (frame : Segmented s base below locals operands)
    (fits : s.stackPointer < 2 ^ 32)
    (balanced : operands.length = recordedHeight + arity) :
    Stack.endHeight base arity recordedHeight = some s.height := by
  have height := frame.height
  unfold Stack.endHeight
  rw [addHeights_of_lt (by omega), Option.bind_eq_bind, Option.bind_some,
    addHeights_of_lt (by omega), height_of_lt fits, height, balanced]
  congr 1
  omega

/-- What a branch leaves of the operands. -/
def Target.unwind (target : Target) (operands : List Value) : List Value :=
  operands.take target.recordedHeight ++ operands.drop (operands.length - target.arity)

@[simp] theorem length_unwind
    {target : Target}
    (enough : target.recordedHeight + target.arity ≤ operands.length) :
    (target.unwind operands).length = target.recordedHeight + target.arity := by
  unfold Target.unwind
  rw [List.length_append, List.length_take, List.length_drop]
  omega

/-- A branch unwinds the operands of its own frame. -/
theorem Segmented.unwindTo
    {target : Target}
    (frame : Segmented s base below locals operands)
    (fits : s.stackPointer < 2 ^ 32)
    (enough : target.recordedHeight + target.arity ≤ operands.length) :
    ∃ after, s.unwindTo base target = some after ∧
      Segmented after base below locals (target.unwind operands) := by
  have apart : target.recordedHeight + (operands.length - target.arity -
      target.recordedHeight) = operands.length - target.arity := by omega
  have split : operands = operands.take target.recordedHeight ++
      ((operands.drop target.recordedHeight).take
          (operands.length - target.arity - target.recordedHeight) ++
        operands.drop (operands.length - target.arity)) := by
    conv_lhs => rw [← List.take_append_drop target.recordedHeight operands,
      ← List.take_append_drop (operands.length - target.arity - target.recordedHeight)
        (operands.drop target.recordedHeight), List.drop_drop, apart]
  have holds := frame.holds
  rw [split, ← List.append_assoc] at holds
  obtain ⟨after, truncated, left⟩ := holds.truncate
  refine ⟨after, ?_, frame.operate ?_⟩
  · have height := frame.height
    unfold Stack.unwindTo
    rw [addHeights_of_lt (by omega), Option.bind_eq_bind, Option.bind_some,
      frame.operandBase]
    simp only [List.length_append, List.length_take, List.length_drop] at truncated
    rw [show target.recordedHeight + (below.length + locals.length) =
      below.length + locals.length + min target.recordedHeight operands.length by omega,
      show target.arity = operands.length - (operands.length - target.arity) by omega]
    exact truncated
  · unfold Target.unwind
    rw [← List.append_assoc]
    exact left

end Frame

end Stack
end TraceWasm
