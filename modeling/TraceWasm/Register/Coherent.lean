import Mathlib.Data.List.Nodup
import TraceWasm.Register.Targets

/-!
# What the open labels have recorded

A label remembers the branches that wait for its end and the index of its
`loop`, or of its `if` and `else`. These are instructions of the code, no two
labels wait for the same arm of one, and symbolic lowering keeps it so.
-/

namespace TraceWasm

/-- The indices of the `if` and the `else` of a label. -/
def Block.ifIndices (block : Block) : List Nat :=
  match block.kind with
  | .ifOp index none => [index]
  | .ifOp index (some elseIndex) => [index, elseIndex]
  | _ => []

/-- The label without the branches that are attached to it. -/
def Block.bare (block : Block) : Block := { block with attachedBreaks := [] }

theorem Block.recordedHeight_of_bare
    {block block' : Block}
    (same : block'.bare = block.bare) :
    block'.recordedHeight = block.recordedHeight := by
  have heights := congrArg Block.recordedHeight same
  exact heights

theorem Block.labelArity_of_bare
    {block block' : Block}
    (same : block'.bare = block.bare) :
    block'.labelArity = block.labelArity := by
  have arities := congrArg Block.labelArity same
  exact arities

namespace Register

/-- The instruction at an index of the code. -/
def InstructionAt
    (code : List (RegInstruction operand)) (index : Nat)
    (property : RegInstruction operand → Prop) : Prop :=
  ∃ instr, code[index]? = some instr ∧ property instr

section InstructionAt

variable {code code' : List (RegInstruction operand)}
  {property : RegInstruction operand → Prop}

/-- An instruction that is known is there. -/
theorem InstructionAt.lt
    (present : InstructionAt code index property) :
    index < code.length := by
  obtain ⟨instr, found, _⟩ := present
  exact (List.getElem?_eq_some_iff.mp found).1

/-- It stays known in longer code. -/
theorem InstructionAt.extend
    (present : InstructionAt code index property)
    (grows : shape code <+: shape code')
    (untargeted : ∀ instr : RegInstruction operand,
      property instr.untargeted ↔ property instr) :
    InstructionAt code' index property := by
  obtain ⟨instr, found, holds⟩ := present
  have shaped : (shape code)[index]? = some instr.untargeted := by
    rw [getElem?_shape, found, Option.map_some]
  obtain ⟨more, continued⟩ := grows
  have kept : (shape code')[index]? = some instr.untargeted := by
    rw [← continued, List.getElem?_append_left
      (List.getElem?_eq_some_iff.mp shaped).1]
    exact shaped
  rw [getElem?_shape] at kept
  obtain ⟨instr', found', same⟩ := Option.map_eq_some_iff.mp kept
  refine ⟨instr', found', ?_⟩
  rw [← untargeted, same, untargeted]
  exact holds

theorem InstructionAt.of_shape
    (present : InstructionAt code index property)
    (same : shape code' = shape code)
    (untargeted : ∀ instr : RegInstruction operand,
      property instr.untargeted ↔ property instr) :
    InstructionAt code' index property :=
  present.extend ⟨[], by rw [List.append_nil, same]⟩ untargeted

end InstructionAt

/-- What a label has recorded is in the code. -/
structure LabelCoherent (code : List SymInstruction) (block : Block) : Prop where
  awaits : ∀ key ∈ block.attachedBreaks,
    InstructionAt code key.1 (RegInstruction.HasArm key.2)
  ifIndex : ∀ index elseIndex, block.kind = .ifOp index elseIndex →
    InstructionAt code index RegInstruction.IsIf
  elseIndex : ∀ index elseIndex, block.kind = .ifOp index (some elseIndex) →
    InstructionAt code elseIndex RegInstruction.IsElse
  loopIndex : ∀ index, block.kind = .loop index →
    InstructionAt code index RegInstruction.IsLoop

/-- What the open labels have recorded is in the code, and no two have recorded
the same. -/
structure Coherent (code : List SymInstruction) (control : List Block) : Prop where
  labels : ∀ block ∈ control, LabelCoherent code block
  uniqueKeys : (control.flatMap Block.attachedBreaks).Nodup
  uniqueIfs : (control.flatMap Block.ifIndices).Nodup

section Labels

variable {code code' : List SymInstruction} {control : List Block}
  {block : Block}

/-- A label stays coherent with longer code. -/
theorem LabelCoherent.mono
    (label : LabelCoherent code block)
    (grows : shape code <+: shape code') :
    LabelCoherent code' block where
  awaits := fun key member =>
    (label.awaits key member).extend grows fun instr => instr.hasArm_untargeted
  ifIndex := fun index elseIndex kind =>
    (label.ifIndex index elseIndex kind).extend grows
      fun instr => instr.isIf_untargeted
  elseIndex := fun index elseIndex kind =>
    (label.elseIndex index elseIndex kind).extend grows
      fun instr => instr.isElse_untargeted
  loopIndex := fun index kind =>
    (label.loopIndex index kind).extend grows fun instr => instr.isLoop_untargeted

theorem LabelCoherent.ifIndices_lt
    (label : LabelCoherent code block)
    (member : index ∈ Block.ifIndices block) :
    index < code.length := by
  unfold Block.ifIndices at member
  split at member
  · rename_i ifIndex kind
    cases List.mem_singleton.mp member
    exact (label.ifIndex _ _ kind).lt
  · rename_i ifIndex elseIndex kind
    rcases List.mem_cons.mp member with rfl | member
    · exact (label.ifIndex _ _ kind).lt
    · cases List.mem_singleton.mp member
      exact (label.elseIndex _ _ kind).lt
  · simp at member

/-- So do all labels. -/
theorem Coherent.mono
    (coherent : Coherent code control)
    (grows : shape code <+: shape code') :
    Coherent code' control where
  labels := fun block member => (coherent.labels block member).mono grows
  uniqueKeys := coherent.uniqueKeys
  uniqueIfs := coherent.uniqueIfs

/-- A branch that is remembered is there. -/
theorem Coherent.key_lt
    (coherent : Coherent code control)
    (member : key ∈ control.flatMap Block.attachedBreaks) :
    key.1 < code.length := by
  obtain ⟨block, isLabel, member⟩ := List.mem_flatMap.mp member
  exact ((coherent.labels block isLabel).awaits key member).lt

theorem Coherent.ifIndex_lt
    (coherent : Coherent code control)
    (member : index ∈ control.flatMap Block.ifIndices) :
    index < code.length := by
  obtain ⟨block, isLabel, member⟩ := List.mem_flatMap.mp member
  exact (coherent.labels block isLabel).ifIndices_lt member

/-- Close the innermost label. -/
theorem Coherent.tail
    (coherent : Coherent code (block :: control)) :
    Coherent code control where
  labels := fun other member => coherent.labels other (List.mem_cons_of_mem _ member)
  uniqueKeys := coherent.uniqueKeys.sublist (by simp)
  uniqueIfs := coherent.uniqueIfs.sublist (by simp)

/-- Open a label, or let the innermost one record what is new. -/
theorem Coherent.cons
    (coherent : Coherent code control)
    (label : LabelCoherent code block)
    (keys : block.attachedBreaks.Nodup)
    (freshKeys : ∀ key ∈ block.attachedBreaks,
      key ∉ control.flatMap Block.attachedBreaks)
    (ifs : (Block.ifIndices block).Nodup)
    (freshIfs : ∀ index ∈ Block.ifIndices block,
      index ∉ control.flatMap Block.ifIndices) :
    Coherent code (block :: control) where
  labels := by
    intro other member
    rcases List.mem_cons.mp member with rfl | member
    · exact label
    · exact coherent.labels other member
  uniqueKeys := by
    rw [List.flatMap_cons]
    exact List.Nodup.append keys coherent.uniqueKeys
      fun key member other => freshKeys key member other
  uniqueIfs := by
    rw [List.flatMap_cons]
    exact List.Nodup.append ifs coherent.uniqueIfs
      fun index member other => freshIfs index member other

/-- Attach a branch to a label. -/
def attachKey (control : List Block) (relativeDepth : Nat) (key : Nat × Nat) :
    List Block :=
  control.modify relativeDepth fun block =>
    { block with attachedBreaks := block.attachedBreaks ++ [key] }

/-- Remembering a branch changes nothing else of a label. -/
theorem map_bare_attachKey
    (control : List Block) (relativeDepth : Nat) (key : Nat × Nat) :
    (attachKey control relativeDepth key).map Block.bare =
      control.map Block.bare := by
  refine List.ext_getElem? fun position => ?_
  unfold attachKey
  rw [List.getElem?_map, List.getElem?_map, List.getElem?_modify]
  cases control[position]? with
  | none => rfl
  | some block => by_cases same : relativeDepth = position <;> simp [same, Block.bare]

/-- Labels that differ in what is attached to them have the same height and
arities. -/
theorem getElem?_of_map_bare
    {control control' : List Block} {depth : Nat}
    (same : control'.map Block.bare = control.map Block.bare)
    (found : control[depth]? = some block) :
    ∃ block', control'[depth]? = some block' ∧ block'.bare = block.bare := by
  have bare : (control'.map Block.bare)[depth]? = some block.bare := by
    rw [same, List.getElem?_map, found, Option.map_some]
  rw [List.getElem?_map] at bare
  exact Option.map_eq_some_iff.mp bare

theorem mem_attachKey
    {control : List Block}
    (member : block ∈ attachKey control relativeDepth key) :
    ∃ before ∈ control, block = before ∨
      block = { before with attachedBreaks := before.attachedBreaks ++ [key] } := by
  obtain ⟨position, below, rfl⟩ := List.getElem_of_mem member
  unfold attachKey at below ⊢
  rw [List.length_modify] at below
  rw [List.getElem_modify]
  refine ⟨_, List.getElem_mem below, ?_⟩
  split
  · exact .inr rfl
  · exact .inl rfl

theorem flatMap_ifIndices_attachKey (control : List Block) :
    (attachKey control relativeDepth key).flatMap Block.ifIndices =
      control.flatMap Block.ifIndices := by
  rw [List.flatMap_def, List.flatMap_def]
  congr 1
  refine List.ext_getElem? fun position => ?_
  unfold attachKey
  rw [List.getElem?_map, List.getElem?_map, List.getElem?_modify]
  cases control[position]? with
  | none => rfl
  | some block => by_cases same : relativeDepth = position <;> simp [same, Block.ifIndices]

/-- The keys are the earlier ones, and the new one if there is such a label. -/
theorem flatMap_attachedBreaks_attachKey
    (control : List Block) (relativeDepth : Nat) (key : Nat × Nat) :
    List.Subperm ((attachKey control relativeDepth key).flatMap Block.attachedBreaks)
      (key :: control.flatMap Block.attachedBreaks) := by
  induction control generalizing relativeDepth with
  | nil =>
      cases relativeDepth <;> exact (List.nil_sublist [key]).subperm
  | cons block control inductionHypothesis =>
      cases relativeDepth with
      | zero =>
          refine List.Perm.subperm ?_
          change List.Perm ((block.attachedBreaks ++ [key]) ++ _) _
          rw [List.append_assoc, List.flatMap_cons]
          exact List.perm_middle
      | succ relativeDepth =>
          change List.Subperm (block.attachedBreaks ++
            (attachKey control relativeDepth key).flatMap Block.attachedBreaks) _
          refine ((List.subperm_append_left _).mpr
            (inductionHypothesis relativeDepth)).trans ?_
          exact List.perm_middle.subperm

/-- A branch that is there may be remembered. -/
theorem Coherent.attach
    (coherent : Coherent code control)
    (awaits : InstructionAt code key.1 (RegInstruction.HasArm key.2))
    (fresh : key ∉ control.flatMap Block.attachedBreaks)
    (relativeDepth : Nat) :
    Coherent code (attachKey control relativeDepth key) where
  labels := by
    intro block member
    obtain ⟨before, isLabel, rfl | rfl⟩ := mem_attachKey member
    · exact coherent.labels block isLabel
    · have label := coherent.labels before isLabel
      refine ⟨fun other attached => ?_, label.ifIndex, label.elseIndex, label.loopIndex⟩
      rcases List.mem_append.mp attached with attached | attached
      · exact label.awaits other attached
      · cases List.mem_singleton.mp attached
        exact awaits
  uniqueKeys := by
    obtain ⟨keys, perm, sublist⟩ :=
      flatMap_attachedBreaks_attachKey control relativeDepth key
    have unique := List.nodup_cons.mpr ⟨fresh, coherent.uniqueKeys⟩
    exact perm.nodup_iff.mp (unique.sublist sublist)
  uniqueIfs := by
    rw [flatMap_ifIndices_attachKey]
    exact coherent.uniqueIfs

end Labels

/-! ## Symbolic lowering keeps it -/

open Symbolic (baseOf branchMove moveOf withElse)

theorem instructionAt_emit
    {property : SymInstruction → Prop} {a : Symbolic}
    (position : a.code.length = index)
    (holds : property instr) :
    InstructionAt (a.emit instr).code index property := by
  subst position
  exact ⟨instr, List.getElem?_concat_length, holds⟩

/-- The instruction of a block lies behind the move of its parameters. -/
theorem Symbolic.length_materialize
    (a : Symbolic)
    (same : count = 0 ↔ params = 0) :
    (a.materialize locals count).code.length = a.headerIndex params := by
  unfold Symbolic.materialize Symbolic.headerIndex
  by_cases empty : params = 0
  · rw [if_pos (same.mpr empty), if_neg (by simpa using empty)]
  · rw [if_neg (fun isZero => empty (same.mp isZero)), if_pos empty]
    exact List.length_append

/-- A branch lies behind its move. -/
theorem Symbolic.length_pushMove
    (a : Symbolic) (mov : DynSignature BackPatchableSlot) :
    (a.pushMove mov).code.length = a.branchIndex mov := by
  unfold Symbolic.pushMove Symbolic.branchIndex
  split
  · rfl
  · exact List.length_append

theorem Symbolic.length_le_headerIndex (a : Symbolic) (params : Nat) :
    a.code.length ≤ a.headerIndex params := by
  unfold Symbolic.headerIndex
  split <;> omega

theorem Symbolic.length_le_branchIndex
    (a : Symbolic) (mov : DynSignature BackPatchableSlot) :
    a.code.length ≤ a.branchIndex mov := by
  unfold Symbolic.branchIndex
  split <;> omega

/-- Up to targets, code only grows. -/
theorem SymbolicStep.grows
    (step : SymbolicStep mod locals results op a a') :
    a.Grows a' := by
  cases step with
  | localGet below => exact .refl a
  | localSet redirects gone below =>
      exact .trans (Symbolic.grows_append rfl) (Symbolic.grows_emit _ _)
  | localTee redirects gone below =>
      exact .trans (a.grows_rescue _ _) (Symbolic.grows_emit _ _)
  | const grows interned => exact .refl a
  | data enough grows interned => exact Symbolic.grows_append rfl
  | dataDrop dataIndex => exact a.grows_emit _
  | nop => exact .refl a
  | drop top => exact .refl a
  | block arities enough =>
      refine .trans ?_ (Symbolic.grows_materialize _ _ _)
      exact Symbolic.grows_of_code rfl
  | loop redirects gone arities enough =>
      refine .trans ?_ (Symbolic.grows_emit _ _)
      refine .trans ?_ (Symbolic.grows_materialize _ _ _)
      exact Symbolic.grows_append rfl
  | ifOp redirects gone arities enough moved top =>
      subst moved
      refine .trans ?_ (Symbolic.grows_append rfl)
      refine .trans ?_ (Symbolic.grows_materialize _ _ _)
      exact Symbolic.grows_append rfl
  | elseOp opened kind height moved =>
      subst moved
      refine .trans ?_ (Symbolic.grows_append rfl)
      refine .trans ?_ (Symbolic.grows_materialize _ _ _)
      exact Symbolic.grows_of_code rfl
  | endOp opened height moved =>
      subst moved
      refine .trans ?_ (Symbolic.grows_emit _ _)
      refine .trans ?_ (Symbolic.grows_patchLabel _ _)
      refine .trans ?_ (Symbolic.grows_materialize _ _ _)
      exact Symbolic.grows_of_code rfl
  | br target enough carries =>
      refine .trans ?_ (Symbolic.grows_leave _ _)
      refine .trans ?_ (Symbolic.grows_emit _ _)
      refine .trans ?_ (Symbolic.grows_pushMove _ _)
      exact Symbolic.grows_of_code (a.code_attachUnlessLoop _ _ _)
  | brIf redirects gone target enough popped =>
      subst popped
      refine .trans ?_ (Symbolic.grows_emit _ _)
      exact Symbolic.grows_append (Symbolic.code_attachUnlessLoop _ _ _ _)
  | brTable redirects gone target allTargets popped arms =>
      subst popped
      refine .trans ?_ (Symbolic.grows_leave _ _)
      refine .trans ?_ (Symbolic.grows_emit _ _)
      have kept := congrArg (fun built => built.2.code) arms
      exact Symbolic.grows_append (kept.symm.trans (Symbolic.code_armsOf _ _ _ _))
  | returnOp opened enough carries =>
      refine .trans ?_ (Symbolic.grows_leave _ _)
      refine .trans ?_ (Symbolic.grows_emit _ _)
      refine .trans ?_ (Symbolic.grows_pushMove _ _)
      exact Symbolic.grows_of_code rfl
  | call typed enough =>
      rename_i ty
      refine .trans (a.grows_materialize locals ty.params.length) ?_
      exact Symbolic.grows_append rfl
  | callIndirect typed top enough => exact Symbolic.grows_append rfl
  | unreachable => exact .trans (a.grows_emit _) (Symbolic.grows_leave _ _)

section Labels

variable {code code' : List SymInstruction} {control : List Block}
  {block : Block}

/-- The innermost label of a coherent stack has recorded nothing twice. -/
theorem Coherent.head
    (coherent : Coherent code (block :: control)) :
    LabelCoherent code block ∧ block.attachedBreaks.Nodup ∧
      (∀ key ∈ block.attachedBreaks,
        key ∉ control.flatMap Block.attachedBreaks) ∧
      (Block.ifIndices block).Nodup ∧
      ∀ index ∈ Block.ifIndices block, index ∉ control.flatMap Block.ifIndices := by
  obtain ⟨labels, uniqueKeys, uniqueIfs⟩ := coherent
  rw [List.flatMap_cons, List.nodup_append'] at uniqueKeys uniqueIfs
  exact ⟨labels block List.mem_cons_self, uniqueKeys.1,
    fun key member other => uniqueKeys.2.2 member other, uniqueIfs.1,
    fun index member other => uniqueIfs.2.2 member other⟩

/-- Open a label whose instructions are new. -/
theorem Coherent.openBlock
    (coherent : Coherent code control)
    (grows : shape code <+: shape code')
    (label : LabelCoherent code' block)
    (noKeys : block.attachedBreaks = [])
    (ifs : (Block.ifIndices block).Nodup)
    (new : ∀ index ∈ Block.ifIndices block, code.length ≤ index) :
    Coherent code' (block :: control) := by
  refine (coherent.mono grows).cons label ?_ ?_ ifs fun index member other => ?_
  · rw [noKeys]
    exact List.nodup_nil
  · simp [noKeys]
  · have := coherent.ifIndex_lt other
    have := new index member
    omega

/-- Attach a branch of an instruction that is new. -/
theorem Coherent.attachNew
    (coherent : Coherent code control)
    (grows : shape code <+: shape code')
    (awaits : InstructionAt code' key.1 (RegInstruction.HasArm key.2))
    (new : code.length ≤ key.1)
    (relativeDepth : Nat) :
    Coherent code' (attachKey control relativeDepth key) := by
  refine (coherent.mono grows).attach awaits (fun member => ?_) relativeDepth
  have := coherent.key_lt member
  omega

/-- A branch may be remembered unless its label is a loop. -/
theorem Coherent.attachUnlessLoop
    {a : Symbolic}
    (coherent : Coherent code (attachKey a.control relativeDepth key))
    (plain : Coherent code a.control) :
    Coherent code (a.attachUnlessLoop relativeDepth block key).control := by
  unfold Symbolic.attachUnlessLoop
  split
  · exact plain
  · exact coherent

end Labels

theorem Symbolic.map_bare_attachUnlessLoop
    (a : Symbolic) (relativeDepth : Nat) (block : Block) (attached : Nat × Nat) :
    (a.attachUnlessLoop relativeDepth block attached).control.map Block.bare =
      a.control.map Block.bare := by
  unfold Symbolic.attachUnlessLoop
  split
  · rfl
  · exact map_bare_attachKey a.control relativeDepth attached

theorem Symbolic.map_bare_armsOf
    (a : Symbolic) (locals : Nat)
    (done : List (RegBrTableTarget BackPatchableSlot)) (targets : List Nat) :
    (a.armsOf locals done targets).2.control.map Block.bare =
      a.control.map Block.bare := by
  induction targets generalizing a done with
  | nil => rfl
  | cons relativeDepth targets inductionHypothesis =>
      unfold Symbolic.armsOf
      split
      · exact inductionHypothesis a done
      · rw [inductionHypothesis, Symbolic.map_bare_attachUnlessLoop]

theorem Symbolic.view_attachUnlessLoop
    (a : Symbolic) (relativeDepth : Nat) (block : Block) (attached : Nat × Nat) :
    (a.attachUnlessLoop relativeDepth block attached).view = a.view := by
  unfold Symbolic.attachUnlessLoop
  split <;> rfl

theorem Symbolic.view_armsOf
    (a : Symbolic) (locals : Nat)
    (done : List (RegBrTableTarget BackPatchableSlot)) (targets : List Nat) :
    (a.armsOf locals done targets).2.view = a.view := by
  induction targets generalizing a done with
  | nil => rfl
  | cons relativeDepth targets inductionHypothesis =>
      unfold Symbolic.armsOf
      split
      · exact inductionHypothesis a done
      · rw [inductionHypothesis, Symbolic.view_attachUnlessLoop]

theorem Symbolic.control_pushMove
    (a : Symbolic) (mov : DynSignature BackPatchableSlot) :
    (a.pushMove mov).control = a.control := by
  unfold Symbolic.pushMove
  split <;> rfl

theorem Symbolic.control_leave (a : Symbolic) (locals : Nat) :
    (a.leave locals).control = a.control := by
  unfold Symbolic.leave
  split <;> rfl

theorem Symbolic.code_leave (a : Symbolic) (locals : Nat) :
    (a.leave locals).code = a.code := by
  unfold Symbolic.leave
  split <;> rfl

theorem Symbolic.control_materialize (a : Symbolic) (locals count : Nat) :
    (a.materialize locals count).control = a.control := by
  unfold Symbolic.materialize
  split <;> rfl

/-- The arms of a `br_table` that are attached one after the other. -/
theorem Coherent.armsOf
    {code : List SymInstruction} {b : Symbolic}
    (coherent : Coherent code b.control)
    (arms : ∀ arm < done.length + targets.length,
      InstructionAt code b.code.length (RegInstruction.HasArm arm))
    (fresh : ∀ key ∈ b.control.flatMap Block.attachedBreaks,
      key.1 < b.code.length ∨ key.2 < done.length) :
    Coherent code (b.armsOf locals done targets).2.control := by
  induction targets generalizing b done with
  | nil => exact coherent
  | cons relativeDepth targets inductionHypothesis =>
      rw [List.length_cons] at arms
      unfold Symbolic.armsOf
      split
      · exact inductionHypothesis coherent (fun arm below => arms arm (by omega)) fresh
      · rename_i block found
        have attached : Coherent code (attachKey b.control relativeDepth
            (b.code.length, done.length)) := by
          refine coherent.attach (arms _ (by simp)) (fun member => ?_) _
          have := fresh _ member
          simp at this
        refine inductionHypothesis (attached.attachUnlessLoop coherent) ?_ ?_
        · intro arm below
          rw [Symbolic.code_attachUnlessLoop]
          rw [List.length_append, List.length_singleton] at below
          exact arms arm (by omega)
        · intro key member
          rw [Symbolic.code_attachUnlessLoop, List.length_append,
            List.length_singleton]
          unfold Symbolic.attachUnlessLoop at member
          split at member
          · have := fresh key member
            omega
          · have isKey := (flatMap_attachedBreaks_attachKey b.control relativeDepth
              (b.code.length, done.length)).subset member
            rcases List.mem_cons.mp isKey with rfl | isKey
            · exact .inr (Nat.lt_succ_self _)
            · have := fresh key isKey
              omega

/-- There are as many arms as targets. -/
theorem Symbolic.length_armsOf
    (a : Symbolic) (locals : Nat)
    (done : List (RegBrTableTarget BackPatchableSlot))
    (found : ∀ relativeDepth ∈ targets, relativeDepth < a.control.length) :
    (a.armsOf locals done targets).1.length = done.length + targets.length := by
  induction targets generalizing a done with
  | nil => rfl
  | cons relativeDepth targets inductionHypothesis =>
      unfold Symbolic.armsOf
      rw [List.getElem?_eq_getElem (found _ List.mem_cons_self)]
      dsimp only
      rw [inductionHypothesis]
      · simp only [List.length_append, List.length_cons, List.length_nil]
        omega
      · intro other member
        have := found other (List.mem_cons_of_mem _ member)
        unfold Symbolic.attachUnlessLoop
        split
        · exact this
        · unfold Symbolic.attach
          rwa [List.length_modify]

/-- Symbolic lowering keeps what the open labels have recorded true. -/
theorem SymbolicStep.coherent
    (step : SymbolicStep mod locals results op a a')
    (coherent : Coherent a.code a.control) :
    Coherent a'.code a'.control := by
  have grows := step.grows
  cases step with
  | localGet below => exact coherent
  | localSet redirects gone below => exact coherent.mono grows
  | localTee redirects gone below => exact coherent.mono grows
  | const grows interned => exact coherent
  | data enough grows interned => exact coherent.mono grows
  | dataDrop dataIndex => exact coherent.mono grows
  | nop => exact coherent
  | drop top => exact coherent
  | block arities enough =>
      rw [Symbolic.control_materialize]
      refine coherent.openBlock grows ⟨?_, ?_, ?_, ?_⟩ rfl ?_ ?_ <;>
        simp [Block.ifIndices]
  | loop redirects gone arities enough =>
      change Coherent _ (Symbolic.materialize _ _ _).control
      rw [Symbolic.control_materialize]
      refine coherent.openBlock grows ⟨by simp, by simp, by simp, ?_⟩ rfl
        (by simp [Block.ifIndices]) (by simp [Block.ifIndices])
      rintro index ⟨rfl⟩
      exact instructionAt_emit (Symbolic.length_materialize _ Iff.rfl) trivial
  | ifOp redirects gone arities enough moved top =>
      subst moved
      change Coherent _ (Symbolic.materialize _ _ _).control
      rw [Symbolic.control_materialize]
      refine coherent.openBlock grows ⟨by simp, ?_, by simp, by simp⟩ rfl
        (by simp [Block.ifIndices]) ?_
      · rintro index elseIndex ⟨rfl⟩
        refine instructionAt_emit ?_ trivial
        exact Symbolic.length_materialize _ (by split <;> simp_all)
      · intro index member
        cases List.mem_singleton.mp member
        refine le_trans ?_ (Symbolic.length_le_headerIndex _ _)
        exact (a.grows_rescue _ _).length_le
  | @elseOp block outer _ _ index elseIndex opened kind height moved =>
      rw [opened] at coherent
      obtain ⟨label, keys, freshKeys, ifs, freshIfs⟩ := coherent.head
      have isIf := label.ifIndex index elseIndex kind
      have isNew := a.length_le_headerIndex block.results
      have isMember : index ∈ Block.ifIndices block := by
        unfold Block.ifIndices
        rw [kind]
        cases elseIndex <;> simp
      subst moved
      change Coherent _ (Symbolic.materialize _ _ _).control
      rw [Symbolic.control_materialize]
      refine (coherent.tail.mono grows).cons ⟨?_, ?_, ?_, by simp [withElse]⟩ keys
        freshKeys ?_ ?_
      · exact (label.mono grows).awaits
      · rintro _ _ ⟨rfl⟩
        exact isIf.extend grows fun instr => instr.isIf_untargeted
      · rintro _ _ ⟨rfl⟩
        exact instructionAt_emit (Symbolic.length_materialize _ Iff.rfl) trivial
      · have := isIf.lt
        simp only [Block.ifIndices, withElse, List.nodup_cons, List.mem_singleton]
        refine ⟨by omega, by simp, List.nodup_nil⟩
      · intro other member
        simp only [Block.ifIndices, withElse, List.mem_cons, List.not_mem_nil,
          or_false] at member
        rcases member with rfl | rfl
        · exact freshIfs _ isMember
        · intro older
          have := coherent.tail.ifIndex_lt older
          omega
  | endOp opened height moved =>
      rw [opened] at coherent
      subst moved
      change Coherent _ (Symbolic.materialize _ _ _).control
      rw [Symbolic.control_materialize]
      exact coherent.tail.mono grows
  | br target enough carries =>
      rw [Symbolic.control_leave]
      change Coherent _ (Symbolic.pushMove _ _).control
      rw [Symbolic.control_pushMove]
      refine Coherent.attachUnlessLoop ?_ (coherent.mono grows)
      refine coherent.attachNew grows ?_ (a.length_le_branchIndex _) _
      rw [Symbolic.code_leave]
      refine instructionAt_emit ?_ rfl
      rw [Symbolic.length_pushMove]
      unfold Symbolic.branchIndex
      rw [Symbolic.code_attachUnlessLoop]
  | brIf redirects gone target enough popped =>
      subst popped
      refine Coherent.attachUnlessLoop ?_ (coherent.mono grows)
      refine coherent.attachNew grows ?_ (a.grows_rescue _ _).length_le _
      refine instructionAt_emit ?_ rfl
      rw [Symbolic.code_attachUnlessLoop]
  | @brTable _ selector _ last _ targets middle brTargets attached _ redirects gone
      target allTargets popped arms =>
      have isMiddle : middle.control = a.control := by rw [popped]; rfl
      have longer : a.code.length ≤ middle.code.length := by
        rw [popped]
        exact (a.grows_rescue _ _).length_le
      have found : ∀ relativeDepth ∈ targets ++ [last], relativeDepth < middle.control.length := by
        intro relativeDepth member
        obtain ⟨other, found, _⟩ := allTargets relativeDepth member
        rw [isMiddle]
        exact (List.getElem?_eq_some_iff.mp found).1
      have lengthEq := middle.length_armsOf locals [] found
      have codeEq := middle.code_armsOf locals [] (targets ++ [last])
      rw [Symbolic.control_leave]
      change Coherent _ attached.control
      rw [arms] at lengthEq codeEq
      suffices kept : Coherent
          ((attached.emit (.brTable selector brTargets)).leave locals).code
          (middle.armsOf locals [] (targets ++ [last])).2.control by
        rwa [arms] at kept
      refine Coherent.armsOf (isMiddle ▸ coherent.mono grows) ?_ ?_
      · intro arm below
        rw [Symbolic.code_leave]
        refine instructionAt_emit (congrArg List.length codeEq) ?_
        exact below.trans_eq lengthEq.symm
      · intro key member
        rw [isMiddle] at member
        exact .inl (lt_of_lt_of_le (coherent.key_lt member) longer)
  | returnOp opened enough carries =>
      rw [Symbolic.control_leave]
      change Coherent _ (Symbolic.pushMove _ _).control
      rw [Symbolic.control_pushMove]
      refine coherent.attachNew grows ?_ (a.length_le_branchIndex _) _
      rw [Symbolic.code_leave]
      exact instructionAt_emit (Symbolic.length_pushMove _ _) rfl
  | call typed enough =>
      change Coherent _ (Symbolic.materialize _ _ _).control
      rw [Symbolic.control_materialize]
      exact coherent.mono grows
  | callIndirect typed top enough => exact coherent.mono grows
  | unreachable =>
      rw [Symbolic.control_leave]
      exact coherent.mono grows

end Register
end TraceWasm
