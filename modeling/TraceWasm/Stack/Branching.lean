import TraceWasm.Instruction.Patching
import TraceWasm.Stack.Steps

/-!
# Stack code as back-patched code

What a stack instruction does to the program counter, and what an open label
remembers. The arms of all `br_table`s share one array, in which the arms of one of
them are a run of their own.
-/

namespace TraceWasm
namespace Stack

/-- What of an instruction can wait for a target. -/
inductive Branching where
  | never
  | single
  /-- The run of the shared array. -/
  | table (start len : Nat)
  deriving DecidableEq

/-- How the instruction branches. -/
def StackInstruction.branching : StackInstruction → Branching
  | .br _ => .single
  | .brIf _ => .single
  | .returnOp _ => .single
  | .brTable start len => .table start len
  | _ => .never

/-- The targets of a run of the shared array. -/
def armsOf (branches : List Target) (start len : Nat) : List Nat :=
  ((branches.drop start).take len).map Target.targetIndex

/-- What an instruction does to the program counter. -/
def StackInstruction.control (branches : List Target) : StackInstruction → Control
  | .loop => .loop
  | .ifOp elseIndex endIndex => .ifOp elseIndex endIndex
  | .elseOp endIndex => .elseOp endIndex
  | .endOp _ _ => .endOp
  | .br target => .branch target.targetIndex
  | .brIf target => .branch target.targetIndex
  | .brTable start len => .table (armsOf branches start len)
  | .returnOp target => .returnOp target.targetIndex
  | _ => .plain

/-- What a label remembers, with an arm counted from the first one of its own
`br_table`. -/
def relativeKey (branchings : List Branching) (key : Nat × Nat) : Nat × Nat :=
  match branchings[key.1]? with
  | some (.table start _) => (key.1, key.2 - start)
  | _ => key

/-- The label of a block, with each of its branches by instruction and arm. -/
def labelOf (branchings : List Branching) (block : Block) : Label :=
  ⟨block.kind, block.attachedBreaks.map (relativeKey branchings)⟩

/-- What a label remembers is a branch, and an arm that it has. -/
def KeyInside (branchings : List Branching) (key : Nat × Nat) : Prop :=
  match branchings[key.1]? with
  | some .single => True
  | some (.table start len) => start ≤ key.2 ∧ key.2 < start + len
  | _ => False

/-- The runs of the `br_table`s lie in the array, one after the other. -/
structure TablesApart (branchings : List Branching) (size : Nat) : Prop where
  inside : ∀ (index start len : Nat), branchings[index]? = some (Branching.table start len) →
    start + len ≤ size
  apart : ∀ (index later start len start' len' : Nat), index < later →
    branchings[index]? = some (Branching.table start len) →
    branchings[later]? = some (Branching.table start' len') → start + len ≤ start'

namespace Lowering

/-- How the instructions so far branch. -/
def branchings (s : Lowering) : List Branching :=
  s.instructions.map StackInstruction.branching

/-- The code and the labels, as far as back-patching is concerned. -/
def patching (s : Lowering) : Patching where
  code := s.instructions.map (StackInstruction.control s.brTableTargetBranches)
  labels := s.controlStack.inner.map (labelOf s.branchings)

/-- Every branch that waits is one of the code, with an arm of its own. -/
structure Tabled (s : Lowering) : Prop where
  tables : TablesApart s.branchings s.brTableTargetBranches.length
  keys : ∀ block ∈ s.controlStack.inner, ∀ key ∈ block.attachedBreaks,
    KeyInside s.branchings key

end Lowering

/-! ## The shared array -/

section Arms

variable {branches : List Target} {start len slot : Nat} {target : Target}

theorem armsOf_set_inside
    (above : start ≤ slot) :
    armsOf (branches.set slot target) start len =
      (armsOf branches start len).set (slot - start) target.targetIndex := by
  unfold armsOf
  rw [List.drop_set, if_neg (by omega), List.take_set, List.map_set]

theorem armsOf_set_outside
    (outside : slot < start ∨ start + len ≤ slot) :
    armsOf (branches.set slot target) start len = armsOf branches start len := by
  unfold armsOf
  rw [List.drop_set]
  rcases outside with before | behind
  · rw [if_pos before]
  · by_cases before : slot < start
    · rw [if_pos before]
    · rw [if_neg before, List.take_set, List.set_eq_of_length_le]
      rw [List.length_take]
      omega

theorem armsOf_append (inside : start + len ≤ branches.length) (added : List Target) :
    armsOf (branches ++ added) start len = armsOf branches start len := by
  unfold armsOf
  rw [List.drop_append_of_le_length (by omega), List.take_append_of_le_length]
  rw [List.length_drop]
  omega

theorem armsOf_added (branches added : List Target) :
    armsOf (branches ++ added) branches.length added.length =
      added.map Target.targetIndex := by
  unfold armsOf
  rw [List.drop_left, List.take_length]

end Arms

/-! ## What a label remembers -/

section Keys

variable {branchings : List Branching} {key : Nat × Nat} {size : Nat}

/-- A branch that is remembered is there. -/
theorem KeyInside.lt (inside : KeyInside branchings key) : key.1 < branchings.length := by
  unfold KeyInside at inside
  by_contra outside
  rw [List.getElem?_eq_none (by omega)] at inside
  exact inside

theorem KeyInside.append (inside : KeyInside branchings key) (added : List Branching) :
    KeyInside (branchings ++ added) key := by
  unfold KeyInside
  rw [List.getElem?_append_left inside.lt]
  exact inside

theorem relativeKey_append
    (inside : KeyInside branchings key) (added : List Branching) :
    relativeKey (branchings ++ added) key = relativeKey branchings key := by
  unfold relativeKey
  rw [List.getElem?_append_left inside.lt]

@[simp] theorem relativeKey_fst (branchings : List Branching) (key : Nat × Nat) :
    (relativeKey branchings key).1 = key.1 := by
  unfold relativeKey
  split <;> rfl

theorem labelOf_append
    {block : Block}
    (inside : ∀ key ∈ block.attachedBreaks, KeyInside branchings key)
    (added : List Branching) :
    labelOf (branchings ++ added) block = labelOf branchings block := by
  unfold labelOf
  rw [List.map_congr_left fun key member => relativeKey_append (inside key member) added]

/-- An instruction without a table keeps the tables apart. -/
theorem TablesApart.append_never
    (tables : TablesApart branchings size)
    {branching : Branching}
    (notTable : ∀ start len, branching ≠ .table start len) :
    TablesApart (branchings ++ [branching]) size := by
  have old : ∀ {index start len : Nat},
      (branchings ++ [branching])[index]? = some (Branching.table start len) →
      branchings[index]? = some (Branching.table start len) := by
    intro index start len found
    rw [List.getElem?_append] at found
    split at found
    · exact found
    · rw [List.getElem?_singleton] at found
      split at found
      · exact (notTable _ _ (Option.some.inj found)).elim
      · cases found
  constructor
  · exact fun index start len found => tables.inside index start len (old found)
  · exact fun index later start len start' len' before found found' =>
      tables.apart index later start len start' len' before (old found) (old found')

/-- So does one with a table of its own. -/
theorem TablesApart.append_table
    (tables : TablesApart branchings size) (len : Nat) :
    TablesApart (branchings ++ [.table size len]) (size + len) := by
  have old : ∀ {index start len' : Nat},
      (branchings ++ [.table size len])[index]? = some (Branching.table start len') →
      branchings[index]? = some (Branching.table start len') ∨
        index = branchings.length ∧ start = size ∧ len' = len := by
    intro index start len' found
    rw [List.getElem?_append] at found
    split at found
    · exact .inl found
    · rw [List.getElem?_singleton] at found
      split at found
      · cases found
        exact .inr ⟨by omega, rfl, rfl⟩
      · cases found
  constructor
  · intro index start len' found
    rcases old found with isOld | ⟨_, rfl, rfl⟩
    · have := tables.inside index start len' isOld
      omega
    · exact le_rfl
  · intro index later start len' start' len'' before found found'
    rcases old found with isOld | ⟨isLast, _, _⟩
    · rcases old found' with isOld' | ⟨_, rfl, _⟩
      · exact tables.apart index later start len' start' len'' before isOld isOld'
      · exact tables.inside index start len' isOld
    · have := (List.getElem?_eq_some_iff.mp found').1
      rw [List.length_append, List.length_singleton] at this
      omega

/-- Another table's run does not have the arm. -/
theorem TablesApart.outside
    (tables : TablesApart branchings size)
    {index other start len start' len' slot : Nat}
    (differs : other ≠ index)
    (found : branchings[index]? = some (Branching.table start len))
    (foundOther : branchings[other]? = some (Branching.table start' len'))
    (above : start ≤ slot) (below : slot < start + len) :
    slot < start' ∨ start' + len' ≤ slot := by
  rcases Nat.lt_or_gt_of_ne differs with before | behind
  · have := tables.apart other index start' len' start len before foundOther found
    omega
  · have := tables.apart index other start len start' len' behind found foundOther
    omega

end Keys

/-! ## Closing a label -/

section Patch

variable {code code' : Lowering.Patched} {key : Nat × Nat} {index : Nat}

/-- The code, seen as what it does to the program counter. -/
def controls (code : Lowering.Patched) : List Control :=
  code.1.map (StackInstruction.control code.2)

/-- Patching one branch gives it its target, and leaves everything else. -/
structure PatchesTo (code code' : Lowering.Patched) (patched : List Control) : Prop where
  controls : controls code' = patched
  branchings : code'.1.map StackInstruction.branching = code.1.map StackInstruction.branching
  size : code'.2.length = code.2.length

/-- An instruction is replaced by one that waits as it did. -/
theorem PatchesTo.set
    {position : Nat} {instr instr' : StackInstruction} {change : Control → Control}
    (found : code.1[position]? = some instr)
    (same : instr'.branching = instr.branching)
    (changed : instr'.control code.2 = change (instr.control code.2)) :
    PatchesTo code (code.1.set position instr', code.2)
      ((Stack.controls code).modify position change) := by
  have inside := (List.getElem?_eq_some_iff.mp found).1
  constructor
  · unfold Stack.controls
    apply List.ext_getElem?
    intro other
    rw [List.getElem?_modify, List.getElem?_map, List.getElem?_map, List.getElem?_set]
    by_cases isHere : position = other
    · subst isHere
      rw [if_pos rfl, if_pos inside, found]
      simp [changed]
    · simp [isHere]
  · apply List.ext_getElem?
    intro other
    rw [List.getElem?_map, List.getElem?_map, List.getElem?_set]
    by_cases isHere : position = other
    · subst isHere
      rw [if_pos rfl, if_pos inside, found]
      exact congrArg some same
    · simp [isHere]
  · rfl

/-- An arm of one `br_table` gets its target. -/
theorem PatchesTo.setArm
    {position start len slot : Nat} {target : Target}
    (tables : TablesApart (code.1.map StackInstruction.branching) code.2.length)
    (found : code.1[position]? = some (.brTable start len))
    (above : start ≤ slot) (below : slot < start + len) :
    PatchesTo code (code.1, code.2.set slot { target with targetIndex := index })
      ((Stack.controls code).modify position (Control.setArm (slot - start) index)) := by
  have isTable : (code.1.map StackInstruction.branching)[position]? =
      some (Branching.table start len) := by
    rw [List.getElem?_map, found]
    rfl
  refine ⟨?_, rfl, List.length_set⟩
  unfold Stack.controls
  apply List.ext_getElem?
  intro other
  rw [List.getElem?_modify, List.getElem?_map, List.getElem?_map]
  by_cases isHere : position = other
  · subst isHere
    rw [found]
    simp [StackInstruction.control, Control.setArm, armsOf_set_inside above]
  · -- only a `br_table` reads the array, and another one reads another run
    simp only [if_neg isHere]
    cases isOther : code.1[other]? with
    | none => rfl
    | some instr =>
        cases instr with
        | brTable start' len' =>
            have isTable' : (code.1.map StackInstruction.branching)[other]? =
                some (Branching.table start' len') := by
              rw [List.getElem?_map, isOther]
              rfl
            have outside := tables.outside (Ne.symm isHere) isTable isTable' above below
            simp [StackInstruction.control, armsOf_set_outside outside]
        | _ => rfl

theorem patchesTo_of_patchBreak
    (tables : TablesApart (code.1.map StackInstruction.branching) code.2.length)
    (inside : KeyInside (code.1.map StackInstruction.branching) key)
    (patched : Lowering.patchBreak index code key = .ok code') :
    PatchesTo code code' ((controls code).modify key.1 (Control.setArm
      (relativeKey (code.1.map StackInstruction.branching) key).2 index)) := by
  unfold Lowering.patchBreak at patched
  obtain ⟨instr, found, patched⟩ := Attempt.bind_eq_ok.mp patched
  replace found := Attempt.orPanic_eq_ok.mp found
  have waits : (code.1.map StackInstruction.branching)[key.1]? = some instr.branching := by
    rw [List.getElem?_map, found]
    rfl
  cases instr with
  | br target =>
      cases patched
      exact .set found rfl rfl
  | brIf target =>
      cases patched
      exact .set found rfl rfl
  | returnOp target =>
      cases patched
      exact .set found rfl rfl
  | brTable start len =>
      obtain ⟨target, isTarget, same⟩ := Attempt.bind_eq_ok.mp patched
      cases same
      unfold KeyInside at inside
      unfold relativeKey
      rw [waits] at inside ⊢
      exact .setArm tables found inside.1 inside.2
  | _ => cases patched

/-- Patching all of a label's branches. -/
theorem patchesTo_of_patchBreaks
    {keys : List (Nat × Nat)}
    (tables : TablesApart (code.1.map StackInstruction.branching) code.2.length)
    (inside : ∀ key ∈ keys, KeyInside (code.1.map StackInstruction.branching) key)
    (patched : keys.foldlM (Lowering.patchBreak index) code = .ok code') :
    PatchesTo code code' (patchKeys index (controls code)
      (keys.map (relativeKey (code.1.map StackInstruction.branching)))) := by
  induction keys generalizing code with
  | nil =>
      cases patched
      exact ⟨rfl, rfl, rfl⟩
  | cons key keys inductionHypothesis =>
      rw [List.foldlM_cons] at patched
      obtain ⟨middle, first, rest⟩ := Attempt.bind_eq_ok.mp patched
      have head := patchesTo_of_patchBreak tables (inside key List.mem_cons_self) first
      have tail := inductionHypothesis
        (by rw [head.branchings, head.size]; exact tables)
        (by
          rw [head.branchings]
          exact fun other member => inside other (List.mem_cons_of_mem _ member)) rest
      refine ⟨?_, tail.branchings.trans head.branchings, tail.size.trans head.size⟩
      rw [tail.controls, head.controls, head.branchings]
      unfold patchKeys
      rw [List.map_cons, List.foldl_cons, relativeKey_fst]

/-- Patching the `if` of a label, and its `else`. -/
theorem patchesTo_of_patchIf
    {instructions instructions' : List StackInstruction} {branches : List Target}
    {kind : BlockKind}
    (patched : Lowering.patchIf index instructions kind = .ok instructions') :
    PatchesTo (instructions, branches) (instructions', branches)
      (patchKind index (controls (instructions, branches)) kind) := by
  cases kind with
  | ifOp ifIndex elseIndex =>
      unfold Lowering.patchIf at patched
      obtain ⟨instr, found, patched⟩ := Attempt.bind_eq_ok.mp patched
      replace found := Attempt.orPanic_eq_ok.mp found
      cases instr with
      | ifOp before after =>
          have first : PatchesTo (instructions, branches)
              (instructions.set ifIndex (.ifOp elseIndex index), branches)
              ((controls (instructions, branches)).modify ifIndex
                (Control.setIf elseIndex index)) :=
            .set found rfl rfl
          cases elseIndex with
          | none =>
              cases patched
              exact first
          | some elseIndex =>
              obtain ⟨instr, foundElse, patched⟩ := Attempt.bind_eq_ok.mp patched
              replace foundElse := Attempt.orPanic_eq_ok.mp foundElse
              cases instr with
              | elseOp before =>
                  cases patched
                  have second : PatchesTo
                      (instructions.set ifIndex (.ifOp (some elseIndex) index), branches)
                      ((instructions.set ifIndex (.ifOp (some elseIndex) index)).set elseIndex
                        (.elseOp index), branches)
                      ((controls (instructions.set ifIndex (.ifOp (some elseIndex) index),
                        branches)).modify elseIndex (Control.setElse index)) :=
                    .set foundElse rfl rfl
                  refine ⟨?_, second.branchings.trans first.branchings, rfl⟩
                  rw [second.controls, first.controls]
                  rfl
              | _ => cases patched
      | _ => cases patched
  | func =>
      cases patched
      exact ⟨rfl, rfl, rfl⟩
  | block =>
      cases patched
      exact ⟨rfl, rfl, rfl⟩
  | loop loopIndex =>
      cases patched
      exact ⟨rfl, rfl, rfl⟩

end Patch

end Stack
end TraceWasm
