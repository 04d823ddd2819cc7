import TraceWasm.Register.Symbolic

/-!
# Code up to branch targets

Closing a label changes targets of instructions that are already emitted, and
nothing else changes emitted code. Up to its targets the code therefore only
grows, which keeps what an open label has recorded about it true.
-/

namespace TraceWasm
namespace Register

namespace RegInstruction

/-- An arm of a `br_table` without its target. -/
def untargetedArm (target : RegBrTableTarget operand) :
    RegBrTableTarget operand :=
  { target with targetIndex := 0 }

/-- The instruction without its targets. -/
def untargeted : RegInstruction operand → RegInstruction operand
  | .ifOp condition _ _ => .ifOp condition none 0
  | .elseOp _ => .elseOp 0
  | .br _ => .br 0
  | .brIf condition mov _ => .brIf condition mov 0
  | .brTable selector brTargets =>
      .brTable selector (brTargets.map untargetedArm)
  | .returnOp _ => .returnOp 0
  | instr => instr

theorem map_untargetedArm_modify
    (brTargets : List (RegBrTableTarget operand)) (arm index : Nat) :
    (brTargets.modify arm fun target =>
        { target with targetIndex := index }).map untargetedArm =
      brTargets.map untargetedArm := by
  refine List.ext_getElem? fun position => ?_
  rw [List.getElem?_map, List.getElem?_map, List.getElem?_modify]
  cases brTargets[position]? with
  | none => rfl
  | some target => by_cases same : arm = position <;> simp [same, untargetedArm]

@[simp] theorem untargeted_setTarget
    (instr : RegInstruction operand) (arm index : Nat) :
    (instr.setTarget arm index).untargeted = instr.untargeted := by
  cases instr with
  | brTable selector brTargets =>
      simp only [setTarget, untargeted, map_untargetedArm_modify]
  | _ => rfl

@[simp] theorem untargeted_setIfTargets
    (instr : RegInstruction operand) (elseIndex : Option Nat) (index : Nat) :
    (instr.setIfTargets elseIndex index).untargeted = instr.untargeted := by
  cases instr <;> rfl

@[simp] theorem untargeted_setElseTarget
    (instr : RegInstruction operand) (index : Nat) :
    (instr.setElseTarget index).untargeted = instr.untargeted := by
  cases instr <;> rfl

/-- The instruction has this arm, which a label may give a target to. -/
def HasArm (arm : Nat) : RegInstruction operand → Prop
  | .br _ => arm = u32Max
  | .brIf _ _ _ => arm = u32Max
  | .brTable _ brTargets => arm < brTargets.length
  | .returnOp _ => arm = u32Max
  | _ => False

/-- The instruction is an `if`. -/
def IsIf : RegInstruction operand → Prop
  | .ifOp _ _ _ => True
  | _ => False

/-- The instruction is an `else`. -/
def IsElse : RegInstruction operand → Prop
  | .elseOp _ => True
  | _ => False

/-- The instruction is a `loop`. -/
def IsLoop : RegInstruction operand → Prop
  | .loop => True
  | _ => False

@[simp] theorem hasArm_untargeted (instr : RegInstruction operand) :
    instr.untargeted.HasArm arm ↔ instr.HasArm arm := by
  cases instr <;> simp [untargeted, HasArm]

@[simp] theorem isIf_untargeted (instr : RegInstruction operand) :
    instr.untargeted.IsIf ↔ instr.IsIf := by
  cases instr <;> simp [untargeted, IsIf]

@[simp] theorem isElse_untargeted (instr : RegInstruction operand) :
    instr.untargeted.IsElse ↔ instr.IsElse := by
  cases instr <;> simp [untargeted, IsElse]

@[simp] theorem isLoop_untargeted (instr : RegInstruction operand) :
    instr.untargeted.IsLoop ↔ instr.IsLoop := by
  cases instr <;> simp [untargeted, IsLoop]

end RegInstruction

open RegInstruction (untargeted)

/-- The code without its targets. -/
def shape (code : List (RegInstruction operand)) : List (RegInstruction operand) :=
  code.map untargeted

@[simp] theorem shape_append (first second : List (RegInstruction operand)) :
    shape (first ++ second) = shape first ++ shape second := List.map_append

theorem getElem?_shape (code : List (RegInstruction operand)) (index : Nat) :
    (shape code)[index]? = (code[index]?).map untargeted := List.getElem?_map

theorem length_shape (code : List (RegInstruction operand)) :
    (shape code).length = code.length := List.length_map _

/-- A change of targets keeps the shape of the code. -/
theorem shape_modify
    {change : RegInstruction operand → RegInstruction operand}
    (keeps : ∀ instr, (change instr).untargeted = instr.untargeted)
    (code : List (RegInstruction operand)) (index : Nat) :
    shape (code.modify index change) = shape code := by
  refine List.ext_getElem? fun position => ?_
  rw [getElem?_shape, getElem?_shape, List.getElem?_modify]
  cases code[position]? with
  | none => rfl
  | some instr => by_cases same : index = position <;> simp [same, keeps]

@[simp] theorem shape_patchBreaks
    (index : Nat) (code : List (RegInstruction operand))
    (attached : List (Nat × Nat)) :
    shape (patchBreaks index code attached) = shape code := by
  induction attached generalizing code with
  | nil => rfl
  | cons head rest inductionHypothesis =>
      refine (inductionHypothesis _).trans (shape_modify (fun instr => ?_) code head.1)
      exact instr.untargeted_setTarget head.2 index

@[simp] theorem shape_patchIfTargets
    (index : Nat) (code : List (RegInstruction operand)) (kind : BlockKind) :
    shape (patchIfTargets index code kind) = shape code := by
  unfold patchIfTargets
  cases kind with
  | ifOp ifIndex elseIndex =>
      have patched := shape_modify
        (fun instr => instr.untargeted_setIfTargets elseIndex index) code ifIndex
      cases elseIndex with
      | none => exact patched
      | some elseIndex =>
          exact (shape_modify (fun instr => instr.untargeted_setElseTarget index) _
            elseIndex).trans patched
  | func => rfl
  | block => rfl
  | loop loopIndex => rfl

/-! ## Growth -/

/-- Up to targets, the code of the second state continues that of the first. -/
def Symbolic.Grows (a a' : Symbolic) : Prop := shape a.code <+: shape a'.code

namespace Symbolic

variable {a a' a'' : Symbolic}

theorem Grows.refl (a : Symbolic) : a.Grows a := List.prefix_refl _

theorem Grows.trans (first : a.Grows a') (second : a'.Grows a'') : a.Grows a'' :=
  List.IsPrefix.trans first second

theorem grows_append
    (same : a'.code = a.code ++ more) :
    a.Grows a' := by
  unfold Grows
  rw [same, shape_append]
  exact List.prefix_append _ _

theorem grows_of_code (same : a'.code = a.code) : a.Grows a' :=
  grows_append (same.trans (List.append_nil a.code).symm)

/-- Code that grows gets no shorter. -/
theorem Grows.length_le (grows : a.Grows a') : a.code.length ≤ a'.code.length := by
  have := List.IsPrefix.length_le grows
  rwa [length_shape, length_shape] at this

/-- An instruction stays where it is, up to targets. -/
theorem Grows.getElem?
    (grows : a.Grows a')
    {index : Nat}
    (found : a.code[index]? = some instr) :
    ∃ instr', a'.code[index]? = some instr' ∧
      instr'.untargeted = instr.untargeted := by
  have shaped : (shape a.code)[index]? = some instr.untargeted := by
    rw [getElem?_shape, found, Option.map_some]
  obtain ⟨more, continued⟩ := grows
  have kept : (shape a'.code)[index]? = some instr.untargeted := by
    rw [← continued, List.getElem?_append_left
      (List.getElem?_eq_some_iff.mp shaped).1]
    exact shaped
  rw [getElem?_shape] at kept
  exact Option.map_eq_some_iff.mp kept

theorem grows_emit (a : Symbolic) (instr : SymInstruction) :
    a.Grows (a.emit instr) := grows_append rfl

theorem grows_rescue (a : Symbolic) (copies : List (Nat × Nat)) (view : View) :
    a.Grows (a.rescue copies view) := grows_append rfl

theorem grows_materialize (a : Symbolic) (locals count : Nat) :
    a.Grows (a.materialize locals count) := by
  unfold materialize
  split
  · exact .refl a
  · exact grows_append rfl

theorem grows_pushMove (a : Symbolic) (mov : DynSignature BackPatchableSlot) :
    a.Grows (a.pushMove mov) := by
  unfold pushMove
  split
  · exact .refl a
  · exact grows_emit a _

theorem grows_leave (a : Symbolic) (locals : Nat) : a.Grows (a.leave locals) := by
  unfold leave
  split
  · exact .refl a
  · exact grows_of_code rfl

theorem code_attachUnlessLoop
    (a : Symbolic) (relativeDepth : Nat) (block : Block) (attached : Nat × Nat) :
    (a.attachUnlessLoop relativeDepth block attached).code = a.code := by
  unfold attachUnlessLoop
  split <;> rfl

theorem code_armsOf
    (a : Symbolic) (locals : Nat)
    (done : List (RegBrTableTarget BackPatchableSlot)) (targets : List Nat) :
    (a.armsOf locals done targets).2.code = a.code := by
  induction targets generalizing a done with
  | nil => rfl
  | cons relativeDepth targets inductionHypothesis =>
      unfold armsOf
      split
      · exact inductionHypothesis a done
      · rw [inductionHypothesis, code_attachUnlessLoop]

theorem grows_patchLabel (a : Symbolic) (block : Block) :
    a.Grows (a.patchLabel block) := by
  unfold Grows patchLabel
  rw [shape_patchIfTargets, shape_patchBreaks]

end Symbolic

end Register
end TraceWasm
