import TraceWasm.Wasm.Heights
import TraceWasm.Wasm.Semantics

/-!
# The frames of validated bodies

What a call has for itself when it comes to a position of a validated body: a label
for every construct that is open there, as many operands as the validator counts, and
below each label as many as its frame was opened above.
-/

namespace TraceWasm
namespace Nesting

variable {ops : List Operator} {position : Nat}

/-- The openers of what is open around a construct. -/
def openersAround (ops : List Operator) : Option Nat → List (Option Nat)
  | none => []
  | some opener => openers ops opener

/-- What is open around a construct stays so. -/
theorem drop_openers
    {depth : Nat} {opener : Option Nat}
    (found : (openers ops position)[depth]? = some opener) :
    (openers ops position).drop (depth + 1) = openersAround ops opener := by
  induction position generalizing depth with
  | zero =>
      cases depth with
      | zero =>
          cases found
          rfl
      | succ depth => cases found
  | succ position inductionHypothesis =>
      rcases openers_succ ops position with same | same | ⟨same, _⟩
      · rw [same] at found ⊢
        exact inductionHypothesis found
      · rw [same] at found ⊢
        cases depth with
        | zero =>
            cases found
            rfl
        | succ depth => exact inductionHypothesis found
      · rw [same, List.getElem?_tail] at found
        rw [same, List.drop_tail]
        exact inductionHypothesis found

/-- What is open where a construct is the innermost one. -/
theorem InnermostAt.openers_eq
    {opener : Option Nat}
    (innermost : InnermostAt ops opener position) :
    openers ops position = opener :: openersAround ops opener := by
  unfold InnermostAt at innermost
  rw [← List.head?_map] at innermost
  change (openers ops position).head? = some opener at innermost
  rw [List.head?_eq_getElem?] at innermost
  have around := drop_openers innermost
  obtain ⟨inside, isHead⟩ := List.getElem?_eq_some_iff.mp innermost
  rw [← around, ← isHead]
  exact List.drop_eq_getElem_cons inside

/-- An operator that opens and closes nothing. -/
theorem openers_of_plain
    {op : Operator}
    (found : ops[position]? = some op)
    (opens : op.opens = false) (notEnd : op ≠ .endOp) :
    openers ops (position + 1) = openers ops position := by
  unfold openers
  rw [openAt_succ found]
  by_cases isElse : op = .elseOp
  · subst isElse
    cases openAt ops position <;> rfl
  · rw [step_of_plain opens isElse notEnd]

theorem openers_of_opens
    {op : Operator}
    (found : ops[position]? = some op)
    (opens : op.opens = true) :
    openers ops (position + 1) = some position :: openers ops position := by
  unfold openers
  rw [openAt_succ found, step_of_opens opens]
  rfl

theorem openers_of_end (found : ops[position]? = some .endOp) :
    openers ops (position + 1) = (openers ops position).tail := by
  unfold openers
  rw [openAt_succ found]
  exact List.map_tail

end Nesting

namespace Wasm

open Nesting

variable {ops : List Operator} {position : Nat} {opener : Option Nat}

/-! ## The lookups -/

theorem opensLoop_iff : opensLoop ops opener = true ↔ IsLoop ops opener := by
  unfold opensLoop IsLoop
  cases opener with
  | none => simp
  | some start =>
      cases found : ops[start]? with
      | none => simp [found]
      | some op => cases op <;> simp [Operator.isLoop, found]

theorem isEnd_iff :
    ops[position]?.any Operator.isEnd = true ↔ ops[position]? = some .endOp := by
  cases found : ops[position]? with
  | none => simp
  | some op => cases op <;> simp [Operator.isEnd]

theorem isElse_iff :
    ops[position]?.any Operator.isElse = true ↔ ops[position]? = some .elseOp := by
  cases found : ops[position]? with
  | none => simp
  | some op => cases op <;> simp [Operator.isElse]

/-- A search finds what there is one of. -/
theorem find?_range_of_unique
    {count : Nat} {test : Nat → Bool}
    (inside : position < count)
    (found : test position = true)
    (unique : ∀ other, test other = true → other = position) :
    (List.range count).find? test = some position := by
  rw [List.find?_range_eq_some]
  refine ⟨found, List.mem_range.mpr inside, ?_⟩
  intro earlier before
  rw [Bool.not_eq_true']
  by_contra here
  rw [Bool.not_eq_false] at here
  exact absurd (unique earlier here) (Nat.ne_of_lt before)

theorem endOf_of_endsAt (ends : EndsAt ops opener position) :
    endOf ops opener = some position := by
  have test : ∀ {other : Nat}, (ops[other]?.any Operator.isEnd &&
      decide (InnermostAt ops opener other)) = true ↔ EndsAt ops opener other := by
    intro other
    rw [Bool.and_eq_true, isEnd_iff, decide_eq_true_eq]
    exact Iff.rfl
  apply find?_range_of_unique (List.getElem?_eq_some_iff.mp ends.1).1 (test.mpr ends)
  intro other isEnd
  exact (test.mp isEnd).unique ends

theorem elseOf_of_elseAt
    (oneElse : OneElse ops)
    (isElse : ElseAt ops opener position) :
    elseOf ops opener = some position := by
  have test : ∀ {other : Nat}, (ops[other]?.any Operator.isElse &&
      decide (InnermostAt ops opener other)) = true ↔ ElseAt ops opener other := by
    intro other
    rw [Bool.and_eq_true, isElse_iff, decide_eq_true_eq]
    exact Iff.rfl
  apply find?_range_of_unique (List.getElem?_eq_some_iff.mp isElse.1).1 (test.mpr isElse)
  intro other isOther
  exact (test.mp isOther).unique oneElse isElse

theorem elseOf_of_noElse (noElse : ∀ elseAt, ¬ElseAt ops opener elseAt) :
    elseOf ops opener = none := by
  unfold elseOf
  rw [List.find?_eq_none]
  intro other _ isOther
  rw [Bool.and_eq_true, isElse_iff, decide_eq_true_eq] at isOther
  exact noElse other isOther

theorem continuation_of_leadsTo (leads : LeadsTo ops opener position) :
    continuation ops opener = some position := by
  unfold continuation
  rcases leads with ⟨isLoop, isOpener⟩ | ⟨notLoop, ends⟩
  · rw [if_pos (opensLoop_iff.mpr isLoop), isOpener]
  · rw [if_neg (mt opensLoop_iff.mp notLoop), endOf_of_endsAt ends]

/-! ## All operands of a call -/

/-- The operands below the innermost label's own, the deepest first. -/
def under : List Label → List Value
  | [] => []
  | label :: outer => under outer ++ label.below

/-- All operands of a call, the deepest first. -/
def CallFrame.flat (frame : CallFrame) : List Value := under frame.labels ++ frame.operands

/-- A label's operands lie on top of what lies under it. -/
theorem under_drop (labels : List Label) (depth : Nat) :
    ∃ between, under labels = under (labels.drop depth) ++ between := by
  induction labels generalizing depth with
  | nil => exact ⟨[], by simp [under]⟩
  | cons label outer inductionHypothesis =>
      cases depth with
      | zero => exact ⟨[], (List.append_nil _).symm⟩
      | succ depth =>
          obtain ⟨between, isUnder⟩ := inductionHypothesis depth
          refine ⟨between ++ label.below, ?_⟩
          rw [List.drop_succ_cons, under, isUnder, List.append_assoc]

/-- The topmost values are split off. -/
theorem splitTop_append (rest top : List Value) :
    splitTop (rest ++ top) top.length = some (rest, top) := by
  unfold splitTop
  rw [guard, if_pos (by simp), List.length_append, Nat.add_sub_cancel, List.take_left,
    List.drop_left]
  rfl

theorem exists_top
    {operands : List Value} {count : Nat}
    (enough : count ≤ operands.length) :
    ∃ rest top, operands = rest ++ top ∧ top.length = count := by
  refine ⟨operands.take (operands.length - count), operands.drop (operands.length - count),
    (List.take_append_drop _ _).symm, ?_⟩
  rw [List.length_drop]
  omega

theorem exists_last
    {operands : List Value}
    (enough : 1 ≤ operands.length) :
    ∃ rest last, operands = rest ++ [last] := by
  obtain ⟨rest, top, isSplit, length⟩ := exists_top enough
  obtain ⟨last, isTop⟩ := List.length_eq_one_iff.mp length
  exact ⟨rest, last, isTop ▸ isSplit⟩

theorem flat_append (frame : CallFrame) (vals : List Value) :
    { frame with operands := frame.operands ++ vals }.flat = frame.flat ++ vals :=
  (List.append_assoc _ _ _).symm

@[simp] theorem flat_push (frame : CallFrame) (val : Value) :
    (frame.push val).flat = frame.flat ++ [val] :=
  flat_append frame [val]

/-- The last operand is the last of all. -/
theorem flat_concat
    {frame : CallFrame} {rest : List Value} {last : Value}
    (operands : frame.operands = rest ++ [last]) :
    frame.flat = { frame with operands := rest }.flat ++ [last] := by
  unfold CallFrame.flat
  rw [operands, List.append_assoc]

/-! ## Frames at a position -/

section Shaped

variable {mod : ModuleTypes} {func : FuncHeader} {frame : CallFrame}

/-- A label carries what its construct's frame does, and lies where the frame was
opened. -/
def LabelFits
    (mod : ModuleTypes) (func : FuncHeader) (ops : List Operator)
    (label : Label) (outer : List Label) : Prop :=
  ∃ entry, entryOf mod func ops label.opener = some entry ∧
    label.arity = (if opensLoop ops label.opener then entry.params else entry.results) ∧
    (under (label :: outer)).length = entry.height

/-- The frame of a call at a position, the operands of the innermost label aside. -/
structure Shaped
    (mod : ModuleTypes) (func : FuncHeader) (ops : List Operator) (position : Nat)
    (frame : CallFrame) : Prop where
  locals : frame.locals.length = func.localsCount
  openers : frame.labels.map Label.opener = openers ops position
  fits : ∀ label outer, label :: outer <:+ frame.labels → LabelFits mod func ops label outer

/-- The frame of a call that stands at a position. -/
structure Stands
    (mod : ModuleTypes) (func : FuncHeader) (ops : List Operator) (position : Nat)
    (frame : CallFrame) : Prop extends Shaped mod func ops position frame where
  height : heights mod func ops position = some frame.flat.length

theorem Shaped.operate
    {operands : List Value}
    (shaped : Shaped mod func ops position frame) :
    Shaped mod func ops position { frame with operands } :=
  ⟨shaped.locals, shaped.openers, shaped.fits⟩

/-- The frame at another position where the same constructs are open. -/
theorem Shaped.move
    {target : Nat}
    (shaped : Shaped mod func ops position frame)
    (same : Nesting.openers ops target = Nesting.openers ops position) :
    Shaped mod func ops target frame :=
  ⟨shaped.locals, shaped.openers.trans same.symm, shaped.fits⟩

/-- The label of a construct. -/
theorem Shaped.label
    {depth : Nat}
    (shaped : Shaped mod func ops position frame)
    (found : (Nesting.openers ops position)[depth]? = some opener) :
    ∃ label, frame.labels[depth]? = some label ∧ label.opener = opener ∧
      frame.labels.drop depth = label :: frame.labels.drop (depth + 1) ∧
      LabelFits mod func ops label (frame.labels.drop (depth + 1)) := by
  rw [← shaped.openers, List.getElem?_map] at found
  obtain ⟨label, isLabel, isOpener⟩ := Option.map_eq_some_iff.mp found
  obtain ⟨inside, isHere⟩ := List.getElem?_eq_some_iff.mp isLabel
  have dropped := List.drop_eq_getElem_cons inside
  rw [isHere] at dropped
  exact ⟨label, isLabel, isOpener, dropped,
    shaped.fits _ _ (dropped ▸ List.drop_suffix depth frame.labels)⟩

/-- Leaving the labels above one. -/
theorem Shaped.drop
    {operands : List Value} {target : Nat}
    (shaped : Shaped mod func ops position frame)
    (depth : Nat)
    (same : Nesting.openers ops target = (Nesting.openers ops position).drop depth) :
    Shaped mod func ops target
      { frame with labels := frame.labels.drop depth, operands } where
  locals := shaped.locals
  openers := by
    rw [same, ← shaped.openers, List.map_drop]
  fits := fun label outer suffix =>
    shaped.fits label outer (suffix.trans (List.drop_suffix depth frame.labels))

/-- Entering a construct. -/
theorem Shaped.enter
    {label : Label} {operands : List Value} {target : Nat}
    (shaped : Shaped mod func ops position frame)
    (same : Nesting.openers ops target = label.opener :: Nesting.openers ops position)
    (fits : LabelFits mod func ops label frame.labels) :
    Shaped mod func ops target
      { frame with labels := label :: frame.labels, operands } where
  locals := shaped.locals
  openers := by
    rw [same, ← shaped.openers]
    rfl
  fits := by
    intro other outer suffix
    rcases List.suffix_cons_iff.mp suffix with same | suffix
    · cases same
      exact fits
    · exact shaped.fits other outer suffix

/-- A branch goes to its label with what the label carries, on top of what lies under
the label. -/
theorem Shaped.branch
    {depth target : Nat} {construct : Construct}
    (shaped : Shaped mod func ops position frame)
    (isOpen : (openAt ops position)[depth]? = some construct)
    (leads : LeadsTo ops construct.opener target)
    {label : Label}
    (isLabel : frame.labels[depth]? = some label)
    {rest carried : List Value}
    (operands : frame.operands = rest ++ carried)
    (arity : label.arity = carried.length) :
    ∃ after, frame.branch ops depth = some (.jumpTo target, after) ∧
      Shaped mod func ops target after ∧ after.locals = frame.locals ∧
      after.flat = under (frame.labels.drop depth) ++ carried := by
  have found : (Nesting.openers ops position)[depth]? = some construct.opener := by
    unfold Nesting.openers
    rw [List.getElem?_map, isOpen]
    rfl
  have around := drop_openers found
  obtain ⟨other, isOther, isOpener, dropped, _⟩ := shaped.label found
  rw [isLabel] at isOther
  cases isOther
  obtain ⟨inside, isHere⟩ := List.getElem?_eq_some_iff.mp found
  have split := List.drop_eq_getElem_cons inside
  rw [isHere, around] at split
  have continues := continuation_of_leadsTo leads
  unfold CallFrame.branch
  simp only [isLabel, operands, arity, splitTop_append, isOpener, continues,
    Option.bind_eq_bind, Option.bind_some]
  rcases leads with ⟨isLoop, isTarget⟩ | ⟨notLoop, ends⟩
  · rw [if_pos (opensLoop_iff.mpr isLoop)]
    refine ⟨_, rfl, shaped.drop (depth + 1) ?_, rfl, ?_⟩
    · rw [around, isTarget]
      rfl
    · unfold CallFrame.flat
      rw [dropped, under, List.append_assoc]
  · rw [if_neg (mt opensLoop_iff.mp notLoop)]
    refine ⟨_, rfl, shaped.drop depth ?_, rfl, rfl⟩
    rw [split]
    exact ends.2.openers_eq

end Shaped

end Wasm
end TraceWasm
