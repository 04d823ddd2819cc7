import TraceWasm.Instruction.PatchingRun
import TraceWasm.Register.Coherent

/-!
# Register code as back-patched code

What a register instruction does to the program counter. An operator that is lowered
emits copies and moves, which only go on, ahead of its own instruction.
-/

namespace TraceWasm
namespace Register

/-- What an instruction does to the program counter. -/
def RegInstruction.control : RegInstruction operand → Control
  | .loop => .loop
  | .ifOp _ elseIndex endIndex => .ifOp elseIndex endIndex
  | .elseOp endIndex => .elseOp endIndex
  | .endOp => .endOp
  | .br targetIndex => .branch targetIndex
  | .brIf _ _ targetIndex => .branch targetIndex
  | .brTable _ brTargets => .table (brTargets.map RegBrTableTarget.targetIndex)
  | .returnOp targetIndex => .returnOp targetIndex
  | _ => .plain

def labelOf (block : Block) : Label := ⟨block.kind, block.attachedBreaks⟩

/-- What the code does to the program counter. -/
def controls (code : List (RegInstruction operand)) : List Control :=
  code.map RegInstruction.control

/-- The code and the labels, as far as back-patching is concerned. -/
def Symbolic.patching (a : Symbolic) : Patching where
  code := controls a.code
  labels := a.control.map labelOf

/-! ## Closing a label -/

theorem modify_const (list : List α) (position : Nat) (value : α) :
    (list.modify position fun _ => value) = list.set position value := by
  apply List.ext_getElem?
  intro other
  rw [List.getElem?_modify, List.getElem?_set]
  by_cases same : position = other
  · subst same
    by_cases inside : position < list.length
    · simp [inside]
    · simp [inside]
  · simp [same]

theorem control_setTarget (instr : RegInstruction operand) (arm index : Nat) :
    (instr.setTarget arm index).control = instr.control.setArm arm index := by
  cases instr with
  | brTable selector brTargets =>
      have retargeted := @map_modify _ _ RegBrTableTarget.targetIndex
        (fun target : RegBrTableTarget operand => { target with targetIndex := index })
        (fun _ => index) (fun _ => rfl) brTargets arm
      exact congrArg Control.table (retargeted.trans (modify_const _ _ _))
  | _ => rfl

theorem control_setIfTargets
    (instr : RegInstruction operand) (elseIndex : Option Nat) (index : Nat) :
    (instr.setIfTargets elseIndex index).control = instr.control.setIf elseIndex index := by
  cases instr <;> rfl

theorem control_setElseTarget (instr : RegInstruction operand) (index : Nat) :
    (instr.setElseTarget index).control = instr.control.setElse index := by
  cases instr <;> rfl

theorem controls_patchBreaks
    (index : Nat) (code : List (RegInstruction operand)) (attached : List (Nat × Nat)) :
    controls (patchBreaks index code attached) = patchKeys index (controls code) attached := by
  induction attached generalizing code with
  | nil => rfl
  | cons head rest inductionHypothesis =>
      refine (inductionHypothesis _).trans ?_
      have first : controls (code.modify head.1 (RegInstruction.setTarget head.2 index)) =
          (controls code).modify head.1 (Control.setArm head.2 index) :=
        map_modify (fun instr => control_setTarget instr head.2 index) code head.1
      rw [first]
      rfl

theorem controls_patchIfTargets
    (index : Nat) (code : List (RegInstruction operand)) (kind : BlockKind) :
    controls (patchIfTargets index code kind) = patchKind index (controls code) kind := by
  cases kind with
  | ifOp ifIndex elseIndex =>
      have first : controls (code.modify ifIndex (RegInstruction.setIfTargets elseIndex index)) =
          (controls code).modify ifIndex (Control.setIf elseIndex index) :=
        map_modify (fun instr => control_setIfTargets instr elseIndex index) code ifIndex
      cases elseIndex with
      | none => exact first
      | some elseIndex =>
          refine (map_modify (fun instr => control_setElseTarget instr index) _ _).trans ?_
          exact congrArg (fun code : List Control =>
            code.modify elseIndex (Control.setElse index)) first
  | func => rfl
  | block => rfl
  | loop loopIndex => rfl

/-! ## What comes ahead of an operator's own instruction -/

namespace Symbolic

variable {a a' : Symbolic} {op : Operator} {locals : Nat}

theorem map_attach (a : Symbolic) (relativeDepth : Nat) (attached : Nat × Nat) :
    (a.attach relativeDepth attached).control.map labelOf =
      attachLabel (a.control.map labelOf) relativeDepth attached := by
  apply map_modify
  intro block
  rfl

theorem map_attachUnlessLoop
    (a : Symbolic) (relativeDepth : Nat) (block : Block) (attached : Nat × Nat) :
    (a.attachUnlessLoop relativeDepth block attached).control.map labelOf =
      TraceWasm.attachUnlessLoop (a.control.map labelOf) relativeDepth (labelOf block)
        attached := by
  have sameKind : (labelOf block).kind = block.kind := rfl
  unfold attachUnlessLoop TraceWasm.attachUnlessLoop
  rw [sameKind]
  cases block.kind.isLoop with
  | some index => rfl
  | none => exact map_attach a relativeDepth attached

theorem controls_spillCode (copies : List (Nat × Nat)) :
    controls (spillCode copies) = List.replicate copies.length .plain := by
  unfold controls spillCode
  rw [List.map_map]
  exact List.map_const' ..

/-- How many moves put the top operands in consecutive registers. -/
def moves (count : Nat) : Nat := if count = 0 then 0 else 1

theorem controls_materialize (a : Symbolic) (locals count : Nat) :
    controls (a.materialize locals count).code =
      controls a.code ++ List.replicate (moves count) .plain := by
  unfold materialize moves
  split
  · simp
  · exact List.map_append

theorem controls_pushMove (a : Symbolic) (mov : DynSignature BackPatchableSlot) :
    controls (a.pushMove mov).code =
      controls a.code ++ List.replicate (if mov.isEmpty then 0 else 1) .plain := by
  unfold pushMove
  split
  · simp
  · exact List.map_append

/-- Giving the innermost block its layout changes the operands only. -/
theorem patching_leave (a : Symbolic) (locals : Nat) :
    (a.leave locals).patching = a.patching := by
  unfold leave
  split <;> rfl

theorem length_controls (code : List (RegInstruction operand)) :
    (controls code).length = code.length := List.length_map _

theorem headerIndex_eq (a : Symbolic) (params : Nat) :
    a.headerIndex params = a.code.length + moves params := by
  unfold headerIndex moves
  by_cases none : params = 0 <;> simp [none]

theorem branchIndex_eq (a : Symbolic) (mov : DynSignature BackPatchableSlot) :
    a.branchIndex mov = a.code.length + if mov.isEmpty then 0 else 1 := by
  unfold branchIndex
  split <;> rfl

/-- The arms of a `br_table` are built as in back-patching. -/
theorem tableArms_of_armsOf
    {targets : List Nat} {a attached : Symbolic}
    {done brTargets : List (RegBrTableTarget BackPatchableSlot)}
    (found : ∀ relativeDepth ∈ targets, relativeDepth < a.control.length)
    (arms : a.armsOf locals done targets = (brTargets, attached)) :
    ∃ rest, tableArms a.code.length (a.control.map labelOf) done.length targets =
        some (rest, attached.control.map labelOf) ∧
      brTargets.map RegBrTableTarget.targetIndex =
        done.map RegBrTableTarget.targetIndex ++ rest := by
  induction targets generalizing a done with
  | nil =>
      cases arms
      exact ⟨[], rfl, (List.append_nil _).symm⟩
  | cons relativeDepth targets inductionHypothesis =>
      obtain ⟨inside, others⟩ := List.forall_mem_cons.mp found
      have isBlock := List.getElem?_eq_getElem inside
      unfold armsOf at arms
      rw [isBlock] at arms
      dsimp only at arms
      have labels := map_attachUnlessLoop a relativeDepth a.control[relativeDepth]
        (a.code.length, done.length)
      have length := congrArg List.length labels
      rw [List.length_map, length_attachUnlessLoop, List.length_map] at length
      rw [← length] at others
      obtain ⟨rest, built, targetsAre⟩ := inductionHypothesis others arms
      rw [code_attachUnlessLoop, labels, List.length_append, List.length_singleton] at built
      refine ⟨Lowering.branchTarget a.control[relativeDepth] :: rest, ?_, ?_⟩
      · unfold tableArms
        rw [List.getElem?_map, isBlock]
        change (tableArms _ _ (done.length + 1) targets).bind _ = _
        rw [built]
        rfl
      · rw [targetsAre]
        simp

/-! ## Runs of copies and moves -/

/-- The code gains so many instructions that only go on. -/
def GoesOn (a middle : Symbolic) (count : Nat) : Prop :=
  controls middle.code = controls a.code ++ List.replicate count .plain

namespace GoesOn

variable {middle : Symbolic} {count : Nat}

theorem refl (a : Symbolic) : a.GoesOn a 0 := (List.append_nil _).symm

theorem rescue (a : Symbolic) (copies : List (Nat × Nat)) (view : View) :
    a.GoesOn (a.rescue copies view) copies.length := by
  unfold GoesOn
  rw [← controls_spillCode]
  exact List.map_append

theorem materialize (goesOn : a.GoesOn middle count) (locals params : Nat) :
    a.GoesOn (middle.materialize locals params) (count + moves params) := by
  unfold GoesOn at goesOn ⊢
  rw [controls_materialize, goesOn, List.append_assoc, List.replicate_append_replicate]

theorem pushMove (goesOn : a.GoesOn middle count) (mov : DynSignature BackPatchableSlot) :
    a.GoesOn (middle.pushMove mov) (count + if mov.isEmpty then 0 else 1) := by
  unfold GoesOn at goesOn ⊢
  rw [controls_pushMove, goesOn, List.append_assoc, List.replicate_append_replicate]

/-- An instruction that only goes on is emitted. -/
theorem emit
    {instr : SymInstruction}
    (goesOn : a.GoesOn middle count) (plain : instr.control = .plain) :
    a.GoesOn (middle.emit instr) (count + 1) := by
  unfold GoesOn at goesOn ⊢
  rw [List.replicate_succ', ← List.append_assoc, ← goesOn, ← plain]
  exact List.map_append

theorem length (goesOn : a.GoesOn middle count) :
    middle.code.length = a.code.length + count := by
  have same := congrArg List.length goesOn
  rw [List.length_append, List.length_replicate, length_controls, length_controls] at same
  exact same

/-- The code and the labels after an operator's own instruction. -/
theorem patching_emit
    (goesOn : a.GoesOn middle count) (instr : SymInstruction) :
    (middle.emit instr).patching =
      ⟨a.patching.emit count instr.control, middle.control.map labelOf⟩ := by
  unfold GoesOn at goesOn
  unfold patching Symbolic.emit Patching.emit
  rw [← goesOn]
  exact congrArg (Patching.mk · _) List.map_append

theorem patching_eq (goesOn : a.GoesOn middle count) :
    middle.patching =
      ⟨a.patching.code ++ List.replicate count .plain, middle.control.map labelOf⟩ := by
  unfold GoesOn at goesOn
  unfold patching
  rw [goesOn]

/-- An operator that does not steer only adds such instructions. -/
theorem patches
    (goesOn : a.GoesOn a' count) (control : a'.control = a.control)
    (steers : op.steers = false) (opens : op.opens = false) :
    PatchStep op a.patching a'.patching := by
  rw [goesOn.patching_eq, control]
  exact PatchStep.plain count steers opens

end GoesOn

theorem length_patching (a : Symbolic) : a.patching.code.length = a.code.length :=
  length_controls a.code

end Symbolic

open Symbolic (GoesOn moves)

variable {a a' : Symbolic} {op : Operator} {locals : Nat}

/-- Lowering an operator is a step of back-patching. -/
theorem SymbolicStep.patches
    (step : SymbolicStep mod locals results op a a') :
    PatchStep op a.patching a'.patching := by
  cases step with
  | localGet below => exact (GoesOn.refl a).patches rfl rfl rfl
  | localSet redirects gone below =>
      exact GoesOn.patches ((GoesOn.rescue a _ _).emit rfl) rfl rfl rfl
  | localTee redirects gone below =>
      exact GoesOn.patches ((GoesOn.rescue a _ _).emit rfl) rfl rfl rfl
  | const grows interned => exact (GoesOn.refl a).patches rfl rfl rfl
  | data enough grows interned => exact GoesOn.patches ((GoesOn.refl a).emit rfl) rfl rfl rfl
  | dataDrop dataIndex => exact GoesOn.patches ((GoesOn.refl a).emit rfl) rfl rfl rfl
  | nop => exact (GoesOn.refl a).patches rfl rfl rfl
  | drop top => exact (GoesOn.refl a).patches rfl rfl rfl
  | call typed enough =>
      exact GoesOn.patches (((GoesOn.refl a).materialize _ _).emit rfl)
        (Symbolic.control_materialize _ _ _) rfl rfl
  | callIndirect typed top enough =>
      exact GoesOn.patches ((GoesOn.refl a).emit rfl) rfl rfl rfl
  | unreachable =>
      rw [Symbolic.patching_leave]
      exact GoesOn.patches ((GoesOn.refl a).emit rfl) rfl rfl rfl
  | @block blockty params blockResults _ arities enough =>
      have opened : a.GoesOn (a.openBlock .block (a.view.length - params) params blockResults)
          0 := GoesOn.refl a
      rw [(opened.materialize locals params).patching_eq, Symbolic.control_materialize]
      exact PatchStep.block _ blockty
  | @loop copies blockty params blockResults _ view redirects gone arities enough =>
      have rescued := GoesOn.rescue a copies view
      have opened : a.GoesOn ((a.rescue copies view).openBlock
          (.loop ((a.rescue copies view).headerIndex params)) (view.length - params) params
          blockResults) copies.length := rescued
      have step := PatchStep.loop (p := a.patching) (copies.length + moves params) blockty
      rw [Symbolic.length_patching, ← Nat.add_assoc, ← rescued.length,
        ← Symbolic.headerIndex_eq] at step
      rw [(opened.materialize locals params).patching_emit, Symbolic.control_materialize]
      exact step
  | @ifOp copies blockty params blockResults condition rest _ view middle redirects gone
      arities enough moved top =>
      have rescued := GoesOn.rescue a copies view
      have opened : a.GoesOn ((a.rescue copies view).openBlock
          (.ifOp ((a.rescue copies view).headerIndex params) none) (view.length - params - 1)
          params blockResults) copies.length := rescued
      have sameMoves : moves (if params ≠ 0 then params + 1 else 0) = moves params := by
        unfold moves
        by_cases none : params = 0 <;> simp [none]
      have goesOn := opened.materialize locals (if params ≠ 0 then params + 1 else 0)
      rw [← moved, sameMoves] at goesOn
      have step := PatchStep.ifOp (p := a.patching) (copies.length + moves params) blockty
        none u32Max
      rw [Symbolic.length_patching, ← Nat.add_assoc, ← rescued.length,
        ← Symbolic.headerIndex_eq] at step
      have popped : a.GoesOn { middle with view := rest } (copies.length + moves params) :=
        goesOn
      rw [popped.patching_emit]
      have control : middle.control = _ :=
        (congrArg Symbolic.control moved).trans (Symbolic.control_materialize _ _ _)
      rw [control]
      exact step
  | @elseOp block outer middle _ index elseIndex opened kind height moved =>
      have same : a.GoesOn (a.withControl
          (Symbolic.withElse block index (a.headerIndex block.results) :: outer)) 0 :=
        GoesOn.refl a
      have goesOn := same.materialize locals block.results
      rw [← moved, Nat.zero_add] at goesOn
      have labels : a.patching.labels =
          ⟨.ifOp index elseIndex, block.attachedBreaks⟩ :: outer.map labelOf := by
        rw [← kind]
        exact congrArg (List.map labelOf) opened
      have step := PatchStep.elseOp (moves block.results) u32Max labels
      rw [Symbolic.length_patching, ← Symbolic.headerIndex_eq] at step
      have laidOut : a.GoesOn (middle.relayout locals block.results block.params)
          (moves block.results) := goesOn
      rw [laidOut.patching_emit]
      have control : middle.control = _ :=
        (congrArg Symbolic.control moved).trans (Symbolic.control_materialize _ _ _)
      change PatchStep _ _ ⟨_, middle.control.map labelOf⟩
      rw [control]
      exact step
  | @endOp block outer middle _ opened height moved =>
      have same : a.GoesOn (a.withControl outer) 0 := GoesOn.refl a
      have goesOn := same.materialize locals block.results
      rw [← moved, Nat.zero_add] at goesOn
      have labels : a.patching.labels = labelOf block :: outer.map labelOf :=
        congrArg (List.map labelOf) opened
      have step := PatchStep.endOp (moves block.results) labels
      rw [Symbolic.length_patching, ← goesOn.length] at step
      have patched : ((middle.patchLabel block).emit .endOp).patching =
          ⟨patchKind middle.code.length (patchKeys middle.code.length
            (a.patching.code ++ List.replicate (moves block.results) .plain)
              block.attachedBreaks) block.kind ++ [.endOp], outer.map labelOf⟩ := by
        have control : middle.control = outer :=
          (congrArg Symbolic.control moved).trans (Symbolic.control_materialize _ _ _)
        have code : controls middle.code = a.patching.code ++ _ := goesOn
        rw [← code, ← controls_patchBreaks, ← controls_patchIfTargets, ← control]
        exact congrArg (Patching.mk · _) List.map_append
      rw [patched]
      exact step
  | @br relativeDepth block mov _ target enough carries =>
      rw [Symbolic.patching_leave]
      have attached : a.GoesOn
          (a.attachUnlessLoop relativeDepth block (a.branchIndex mov, u32Max)) 0 := by
        unfold GoesOn
        rw [Symbolic.code_attachUnlessLoop]
        exact GoesOn.refl a
      have step := PatchStep.br (p := a.patching) (if mov.isEmpty then 0 else 1) u32Max
        (by exact (List.getElem?_map ..).trans (congrArg (Option.map labelOf) target))
      rw [Symbolic.length_patching, ← Symbolic.branchIndex_eq] at step
      rw [(attached.pushMove mov).patching_emit, Symbolic.control_pushMove,
        Symbolic.map_attachUnlessLoop, Nat.zero_add]
      exact step
  | @brIf copies condition rest relativeDepth block middle _ redirects gone target
      enough popped =>
      have rescued : a.GoesOn middle copies.length := by
        rw [popped]
        exact GoesOn.rescue a copies _
      have attached : a.GoesOn (middle.attachUnlessLoop relativeDepth block
          (middle.code.length, u32Max)) copies.length := by
        unfold GoesOn
        rw [Symbolic.code_attachUnlessLoop]
        exact rescued
      have step := PatchStep.brIf (p := a.patching) copies.length u32Max
        (by exact (List.getElem?_map ..).trans (congrArg (Option.map labelOf) target))
      rw [Symbolic.length_patching, ← rescued.length] at step
      have control : middle.control = a.control := by
        rw [popped]
        rfl
      rw [attached.patching_emit, Symbolic.map_attachUnlessLoop, control]
      exact step
  | @brTable copies selector rest last block targets middle brTargets attached _ redirects
      gone target allTargets popped arms =>
      rw [Symbolic.patching_leave]
      have rescued : a.GoesOn middle copies.length := by
        rw [popped]
        exact GoesOn.rescue a copies _
      have control : middle.control = a.control := by
        rw [popped]
        rfl
      have found : ∀ relativeDepth ∈ targets ++ [last],
          relativeDepth < middle.control.length := by
        intro relativeDepth member
        obtain ⟨other, isOther, _⟩ := allTargets relativeDepth member
        rw [control]
        exact (List.getElem?_eq_some_iff.mp isOther).1
      obtain ⟨rest, built, targetsAre⟩ := Symbolic.tableArms_of_armsOf found arms
      have goesOn : a.GoesOn attached copies.length := by
        unfold GoesOn
        have code := Symbolic.code_armsOf middle locals [] (targets ++ [last])
        rw [arms] at code
        rw [code]
        exact rescued
      rw [rescued.length, control, ← Symbolic.length_patching] at built
      rw [goesOn.patching_emit]
      have step := PatchStep.brTable (p := a.patching) copies.length built
      rw [List.map_nil, List.nil_append] at targetsAre
      rw [← targetsAre] at step
      exact step
  | @returnOp mov _ opened enough carries =>
      rw [Symbolic.patching_leave]
      have attached : a.GoesOn
          (a.attach (a.control.length - 1) (a.branchIndex mov, u32Max)) 0 := GoesOn.refl a
      have step := PatchStep.returnOp (p := a.patching) (if mov.isEmpty then 0 else 1) u32Max
        u32Max
      rw [Symbolic.length_patching, ← Symbolic.branchIndex_eq] at step
      rw [(attached.pushMove mov).patching_emit, Symbolic.control_pushMove,
        Symbolic.map_attach, Nat.zero_add]
      have depth : a.patching.labels.length = a.control.length := List.length_map _
      rw [depth] at step
      exact step

end Register
end TraceWasm
