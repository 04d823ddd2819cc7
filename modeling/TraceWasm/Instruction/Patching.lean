import TraceWasm.Instruction.Block
import TraceWasm.Instruction.Control

/-!
# Back-patching

Both lowerings emit branches ahead of knowing where they go, let the open label
they belong to remember them, and fill them in at its `end`. This is that scheme
alone: code seen as what it does to the program counter, and labels as what they
remember. Every run of it that closes all labels leaves code that follows the
structure of the body.
-/

namespace TraceWasm

open Nesting (ElseAt EndsAt IsLoop LeadsTo OneElse openAt)

/-- An open label. -/
structure Label where
  kind : BlockKind
  /-- The branches that wait for the label's `end`: an instruction's index, and the
  arm for one that has several. -/
  keys : List (Nat × Nat)

/-- The code and the open labels, innermost first. -/
structure Patching where
  code : List Control
  labels : List Label

namespace Control

/-- Give one arm of a branch its target. -/
def setArm (arm index : Nat) : Control → Control
  | .branch _ => .branch index
  | .table arms => .table (arms.set arm index)
  | .returnOp _ => .returnOp index
  | control => control

/-- Give an `if` its two targets. -/
def setIf (elseIndex : Option Nat) (index : Nat) : Control → Control
  | .ifOp _ _ => .ifOp elseIndex index
  | control => control

/-- Give an `else` its target. -/
def setElse (index : Nat) : Control → Control
  | .elseOp _ => .elseOp index
  | control => control

end Control

/-- Give the branches that wait for a label their target. -/
def patchKeys (index : Nat) (code : List Control) (keys : List (Nat × Nat)) : List Control :=
  keys.foldl (fun code key => code.modify key.1 (Control.setArm key.2 index)) code

/-- Give the `if` of a label, and its `else`, their targets. -/
def patchKind (index : Nat) (code : List Control) : BlockKind → List Control
  | .ifOp ifIndex none => code.modify ifIndex (Control.setIf none index)
  | .ifOp ifIndex (some elseIndex) =>
      (code.modify ifIndex (Control.setIf (some elseIndex) index)).modify elseIndex
        (Control.setElse index)
  | _ => code

/-- Let a label remember a branch. -/
def attachLabel (labels : List Label) (relativeDepth : Nat) (key : Nat × Nat) : List Label :=
  labels.modify relativeDepth fun label => { label with keys := label.keys ++ [key] }

/-- Let a label remember a branch, unless it is a loop. -/
def attachUnlessLoop
    (labels : List Label) (relativeDepth : Nat) (label : Label) (key : Nat × Nat) :
    List Label :=
  match label.kind.isLoop with
  | some _ => labels
  | none => attachLabel labels relativeDepth key

/-- What a branch to a label is emitted with. -/
def Label.target (label : Label) : Nat := label.kind.isLoop.getD u32Max

/-- The arms of a `br_table` at an index, from one arm on. -/
def tableArms (index : Nat) (labels : List Label) (arm : Nat) :
    List Nat → Option (List Nat × List Label)
  | [] => some ([], labels)
  | relativeDepth :: targets => do
      let label ← labels[relativeDepth]?
      let (arms, labels) ← tableArms index
        (attachUnlessLoop labels relativeDepth label (index, arm)) (arm + 1) targets
      return (label.target :: arms, labels)

namespace Patching

/-- Emit an instruction behind some that only go on to the next one. -/
def emit (p : Patching) (ahead : Nat) (control : Control) : List Control :=
  p.code ++ List.replicate ahead .plain ++ [control]

end Patching

/-- Lowering one operator. -/
inductive PatchStep : Operator → Patching → Patching → Prop
  | plain
      (count : Nat)
      (steers : op.steers = false) (opens : op.opens = false) :
      PatchStep op p ⟨p.code ++ List.replicate count .plain, p.labels⟩
  | block (count : Nat) (blockty : BlockType) :
      PatchStep (.block blockty) p
        ⟨p.code ++ List.replicate count .plain, ⟨.block, []⟩ :: p.labels⟩
  | loop (ahead : Nat) (blockty : BlockType) :
      PatchStep (.loop blockty) p
        ⟨p.emit ahead .loop, ⟨.loop (p.code.length + ahead), []⟩ :: p.labels⟩
  | ifOp (ahead : Nat) (blockty : BlockType) (elseIndex : Option Nat) (endIndex : Nat) :
      PatchStep (.ifOp blockty) p
        ⟨p.emit ahead (.ifOp elseIndex endIndex),
          ⟨.ifOp (p.code.length + ahead) none, []⟩ :: p.labels⟩
  | elseOp
      (ahead endIndex : Nat)
      (opened : p.labels = ⟨.ifOp ifIndex elseIndex, keys⟩ :: outer) :
      PatchStep .elseOp p
        ⟨p.emit ahead (.elseOp endIndex),
          ⟨.ifOp ifIndex (some (p.code.length + ahead)), keys⟩ :: outer⟩
  | endOp
      (ahead : Nat)
      (opened : p.labels = label :: outer) :
      PatchStep .endOp p
        ⟨patchKind (p.code.length + ahead)
            (patchKeys (p.code.length + ahead) (p.code ++ List.replicate ahead .plain)
              label.keys) label.kind ++ [.endOp], outer⟩
  | br
      (ahead arm : Nat)
      (target : p.labels[relativeDepth]? = some label) :
      PatchStep (.br relativeDepth) p
        ⟨p.emit ahead (.branch label.target),
          attachUnlessLoop p.labels relativeDepth label (p.code.length + ahead, arm)⟩
  | brIf
      (ahead arm : Nat)
      (target : p.labels[relativeDepth]? = some label) :
      PatchStep (.brIf relativeDepth) p
        ⟨p.emit ahead (.branch label.target),
          attachUnlessLoop p.labels relativeDepth label (p.code.length + ahead, arm)⟩
  | brTable
      (ahead : Nat)
      (built : tableArms (p.code.length + ahead) p.labels 0 (targets ++ [last]) =
        some (arms, labels)) :
      PatchStep (.brTable targets last) p ⟨p.emit ahead (.table arms), labels⟩
  | returnOp
      (ahead arm target : Nat) :
      PatchStep .returnOp p
        ⟨p.emit ahead (.returnOp target),
          attachLabel p.labels (p.labels.length - 1) (p.code.length + ahead, arm)⟩

/-- A view of a list changes with the list. -/
theorem map_modify
    {view : α → β} {change : α → α} {change' : β → β}
    (commutes : ∀ item, view (change item) = change' (view item))
    (list : List α) (position : Nat) :
    (list.modify position change).map view = (list.map view).modify position change' := by
  apply List.ext_getElem?
  intro other
  rw [List.getElem?_map, List.getElem?_modify, List.getElem?_modify, List.getElem?_map]
  cases list[other]? with
  | none => rfl
  | some item => by_cases same : position = other <;> simp [same, commutes]

/-! ## What patching does to one instruction -/

section Patch

variable {code : List Control} {index position : Nat} {keys : List (Nat × Nat)}

@[simp] theorem length_patchKeys
    (index : Nat) (code : List Control) (keys : List (Nat × Nat)) :
    (patchKeys index code keys).length = code.length := by
  induction keys generalizing code with
  | nil => rfl
  | cons key keys inductionHypothesis =>
      exact (inductionHypothesis _).trans (List.length_modify _ _ _)

@[simp] theorem length_patchKind (index : Nat) (code : List Control) (kind : BlockKind) :
    (patchKind index code kind).length = code.length := by
  unfold patchKind
  split <;> simp

/-- What patching does to the instruction at a position. -/
def patchAt (index position : Nat) (control : Control) (keys : List (Nat × Nat)) : Control :=
  keys.foldl
    (fun control key => if key.1 = position then control.setArm key.2 index else control)
    control

/-- Patching changes every instruction for itself. -/
theorem getElem?_patchKeys (index position : Nat) (code : List Control)
    (keys : List (Nat × Nat)) :
    (patchKeys index code keys)[position]? =
      code[position]?.map fun control => patchAt index position control keys := by
  induction keys generalizing code with
  | nil => simp [patchKeys, patchAt]
  | cons key keys inductionHypothesis =>
      refine (inductionHypothesis _).trans ?_
      rw [List.getElem?_modify]
      cases code[position]? with
      | none => rfl
      | some control =>
          by_cases same : key.1 = position <;> simp [patchAt, same]

/-- An instruction without arms is not patched. -/
theorem patchAt_of_not_arms
    {control : Control}
    (unchanged : ∀ arm, control.setArm arm index = control) :
    patchAt index position control keys = control := by
  induction keys with
  | nil => rfl
  | cons key keys inductionHypothesis =>
      unfold patchAt
      rw [List.foldl_cons, unchanged, ite_self]
      exact inductionHypothesis

theorem patchAt_cons (key : Nat × Nat) (control : Control) :
    patchAt index position control (key :: keys) =
      patchAt index position
        (if key.1 = position then control.setArm key.2 index else control) keys := rfl

/-- A branch that is remembered gets the index. -/
theorem patchAt_branch (target : Nat) :
    patchAt index position (.branch target) keys =
      .branch (if ∃ key ∈ keys, key.1 = position then index else target) := by
  induction keys generalizing target with
  | nil => simp [patchAt]
  | cons key keys inductionHypothesis =>
      rw [patchAt_cons]
      by_cases same : key.1 = position
      · rw [if_pos same]
        refine (inductionHypothesis index).trans ?_
        simp [same]
      · rw [if_neg same, inductionHypothesis]
        exact congrArg Control.branch (if_congr (by simp [same]) rfl rfl)

/-- A return that is remembered gets the index. -/
theorem patchAt_returnOp (target : Nat) :
    patchAt index position (.returnOp target) keys =
      .returnOp (if ∃ key ∈ keys, key.1 = position then index else target) := by
  induction keys generalizing target with
  | nil => simp [patchAt]
  | cons key keys inductionHypothesis =>
      rw [patchAt_cons]
      by_cases same : key.1 = position
      · rw [if_pos same]
        refine (inductionHypothesis index).trans ?_
        simp [same]
      · rw [if_neg same, inductionHypothesis]
        exact congrArg Control.returnOp (if_congr (by simp [same]) rfl rfl)

/-- The arms of a table that are remembered get the index. -/
theorem patchAt_table (arms : List Nat) :
    ∃ arms', patchAt index position (.table arms) keys = .table arms' ∧
      arms'.length = arms.length ∧
      ∀ arm target, arms[arm]? = some target →
        arms'[arm]? = some (if (position, arm) ∈ keys then index else target) := by
  induction keys generalizing arms with
  | nil => exact ⟨arms, rfl, rfl, fun arm target found => by simpa using found⟩
  | cons key keys inductionHypothesis =>
      rw [patchAt_cons]
      by_cases same : key.1 = position
      · rw [if_pos same]
        obtain ⟨arms', patched, length, found'⟩ := inductionHypothesis (arms.set key.2 index)
        rw [List.length_set] at length
        refine ⟨arms', patched, length, fun arm target found => ?_⟩
        have below := (List.getElem?_eq_some_iff.mp found).1
        by_cases isArm : key.2 = arm
        · have isKey : (position, arm) = key := Prod.ext same.symm isArm.symm
          rw [found' arm index (by rw [isArm, List.getElem?_set_self below]), ite_self,
            isKey, if_pos List.mem_cons_self]
        · have notKey : (position, arm) ≠ key := fun isKey => isArm (congrArg Prod.snd isKey).symm
          rw [found' arm target (by rw [List.getElem?_set_ne isArm, found])]
          simp [notKey]
      · rw [if_neg same]
        obtain ⟨arms', patched, length, found'⟩ := inductionHypothesis arms
        refine ⟨arms', patched, length, fun arm target found => ?_⟩
        have notKey : (position, arm) ≠ key := fun isKey => same (congrArg Prod.fst isKey).symm
        rw [found' arm target found]
        simp [notKey]

/-- What closing a label does to the instruction at a position. -/
def patchKindAt (index position : Nat) (control : Control) : BlockKind → Control
  | .ifOp ifIndex elseIndex =>
      let control := if ifIndex = position then control.setIf elseIndex index else control
      if elseIndex = some position then control.setElse index else control
  | _ => control

/-- Closing a label changes every instruction for itself. -/
theorem getElem?_patchKind (index position : Nat) (code : List Control) (kind : BlockKind) :
    (patchKind index code kind)[position]? =
      code[position]?.map fun control => patchKindAt index position control kind := by
  cases kind with
  | ifOp ifIndex elseIndex =>
      cases elseIndex with
      | none =>
          unfold patchKind patchKindAt
          rw [List.getElem?_modify]
          cases code[position]? with
          | none => rfl
          | some control => by_cases isIf : ifIndex = position <;> simp [isIf]
      | some elseIndex =>
          unfold patchKind patchKindAt
          rw [List.getElem?_modify, List.getElem?_modify]
          cases code[position]? with
          | none => simp
          | some control =>
              by_cases isIf : ifIndex = position <;>
                by_cases isElse : elseIndex = position <;> simp [isIf, isElse]
  | func => simp [patchKind, patchKindAt]
  | block => simp [patchKind, patchKindAt]
  | loop loopIndex => simp [patchKind, patchKindAt]

/-- Closing an `if` tells it where its `else` and its `end` are. -/
theorem patchKindAt_ifOp_self {elseIndex elseIndex' : Option Nat} {endIndex : Nat} :
    patchKindAt index position (.ifOp elseIndex endIndex) (.ifOp position elseIndex') =
      .ifOp elseIndex' index := by
  simp [patchKindAt, Control.setIf, Control.setElse]

/-- Closing anything else tells it nothing. -/
theorem patchKindAt_ifOp_of_ne
    {elseIndex : Option Nat} {endIndex : Nat} {kind : BlockKind}
    (differs : ∀ elseIndex', kind ≠ .ifOp position elseIndex') :
    patchKindAt index position (.ifOp elseIndex endIndex) kind =
      .ifOp elseIndex endIndex := by
  cases kind with
  | ifOp ifIndex elseIndex' =>
      have other : ifIndex ≠ position := by
        intro same
        exact differs elseIndex' (by rw [same])
      simp [patchKindAt, other, Control.setElse]
  | func => rfl
  | block => rfl
  | loop loopIndex => rfl

/-- Closing an `if` tells its `else` where the `end` is. -/
theorem patchKindAt_elseOp_self {ifIndex endIndex : Nat} :
    patchKindAt index position (.elseOp endIndex) (.ifOp ifIndex (some position)) =
      .elseOp index := by
  simp [patchKindAt, Control.setIf, Control.setElse]

/-- Closing anything else does not tell the `else`. -/
theorem patchKindAt_elseOp_of_ne
    {endIndex : Nat} {kind : BlockKind}
    (differs : ∀ ifIndex, kind ≠ .ifOp ifIndex (some position)) :
    patchKindAt index position (.elseOp endIndex) kind = .elseOp endIndex := by
  cases kind with
  | ifOp ifIndex elseIndex =>
      have other : elseIndex ≠ some position := by
        intro same
        exact differs ifIndex (by rw [same])
      simp [patchKindAt, other, Control.setIf]
  | func => rfl
  | block => rfl
  | loop loopIndex => rfl

/-- Closing a label changes only an `if` and an `else`. -/
theorem patchKindAt_of_plain
    {control : Control} {kind : BlockKind}
    (noIf : ∀ elseIndex, control.setIf elseIndex index = control)
    (noElse : control.setElse index = control) :
    patchKindAt index position control kind = control := by
  cases kind with
  | ifOp ifIndex elseIndex => simp [patchKindAt, noIf, noElse]
  | func => rfl
  | block => rfl
  | loop loopIndex => rfl

end Patch

end TraceWasm
