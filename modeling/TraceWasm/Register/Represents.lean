import TraceWasm.Register.Symbolic

/-!
# Placeholders and recordings against symbolic instructions

An instruction with placeholders, the operand runs recorded against its index
and the callee base recorded for it stand together for a symbolic instruction.
-/

namespace TraceWasm
namespace Register

/-- The run recorded for a branch: none when it carries nothing. -/
def branchPatches (source : InstructionSource)
    (carried : List BackPatchableSlot) : List Patch :=
  if carried = [] then [] else [(source, carried)]

/-- The runs recorded for the arms of a `br_table`. -/
def armPatches (brTargets : List (RegBrTableTarget BackPatchableSlot)) :
    List Patch :=
  brTargets.flatMap fun target => branchPatches .brTableMov target.mov.input

/-- A run of `count` placeholders. -/
def placeholders (count : Nat) : List Slot := List.replicate count placeholder

/-- The arm of a `br_table` that is emitted for a symbolic one. -/
def emittedArm (target : RegBrTableTarget BackPatchableSlot) :
    RegBrTableTarget Slot :=
  ⟨⟨placeholders target.mov.input.length, target.mov.outputStart⟩,
    target.targetIndex⟩

/-- An instruction with placeholders, the runs recorded for it and its callee
base stand for a symbolic instruction. -/
inductive Carries :
    List Patch → List Nat → RegInstruction Slot → SymInstruction → Prop
  | localSet (index : Nat) (input : BackPatchableSlot) :
      Carries [(.emit, [input])] [] (.localSet index placeholder)
        (.localSet index input)
  | localTee (index : Nat) (input : BackPatchableSlot) :
      Carries [(.emit, [input])] [] (.localTee index placeholder)
        (.localTee index input)
  | localSpill (index spillIndex : Nat) :
      Carries [] [] (.localSpill index spillIndex) (.localSpill index spillIndex)
  | data (op : DataOp Nat Unit) (input : List BackPatchableSlot)
      (outputStart : Nat) :
      Carries [(.emit, input)] []
        (.data op (placeholders input.length) outputStart)
        (.data op input outputStart)
  | dataDrop (dataIndex : Nat) :
      Carries [] [] (.dataDrop dataIndex) (.dataDrop dataIndex)
  | loop : Carries [] [] .loop .loop
  | ifOp (condition : BackPatchableSlot) (elseIndex : Option Nat)
      (endIndex : Nat) :
      Carries [(.emit, [condition])] [] (.ifOp placeholder elseIndex endIndex)
        (.ifOp condition elseIndex endIndex)
  | elseOp (endIndex : Nat) : Carries [] [] (.elseOp endIndex) (.elseOp endIndex)
  | endOp : Carries [] [] .endOp .endOp
  | br (targetIndex : Nat) : Carries [] [] (.br targetIndex) (.br targetIndex)
  | brIf (condition : BackPatchableSlot) (mov : DynSignature BackPatchableSlot)
      (targetIndex : Nat) :
      Carries ((.brIfCond, [condition]) :: branchPatches .brIfMov mov.input) []
        (.brIf placeholder ⟨placeholders mov.input.length, mov.outputStart⟩
          targetIndex)
        (.brIf condition mov targetIndex)
  | brTable (selector : BackPatchableSlot)
      (brTargets : List (RegBrTableTarget BackPatchableSlot)) (arity : Nat)
      (uniform : ∀ target ∈ brTargets, target.mov.input.length = arity) :
      Carries ((.brTableIndex, [selector]) :: armPatches brTargets) []
        (.brTable placeholder (brTargets.map emittedArm))
        (.brTable selector brTargets)
  | returnOp (targetIndex : Nat) :
      Carries [] [] (.returnOp targetIndex) (.returnOp targetIndex)
  | call (funcIndex callerBase : Nat) :
      Carries [] [callerBase] (.call funcIndex u16Max)
        (.call funcIndex callerBase)
  | callIndirect (tyIndex tableIndex : Nat) (slot : BackPatchableSlot)
      (operands : DynSignature BackPatchableSlot) (callerBase : Nat) :
      Carries [(.callIndirectSlot, [slot]), (.callIndirectMov, operands.input)]
        [callerBase]
        (.callIndirect tyIndex tableIndex placeholder
          ⟨placeholders operands.input.length, operands.outputStart⟩ u16Max)
        (.callIndirect tyIndex tableIndex slot operands callerBase)
  | unreachable : Carries [] [] .unreachable .unreachable
  | move (mov : DynSignature BackPatchableSlot) :
      Carries [(.emit, mov.input)] []
        (.move ⟨placeholders mov.input.length, mov.outputStart⟩) (.move mov)

/-- The callee bases recorded against one instruction. -/
def callBasesAt (calls : List (Nat × Nat)) (instrIndex : Nat) : List Nat :=
  (calls.filter fun call => call.1 = instrIndex).map Prod.snd

/-- The code with placeholders, and what is recorded against it, stand for the
symbolic code. -/
structure Represents
    (map : BackpatchMap) (calls : List (Nat × Nat))
    (instructions : List (RegInstruction Slot)) (code : List SymInstruction) :
    Prop where
  length : instructions.length = code.length
  mapBelow : ∀ entry ∈ map, entry.1 < instructions.length
  callsBelow : ∀ call ∈ calls, call.1 < instructions.length
  carries : ∀ (index : Nat) instr sym, instructions[index]? = some instr →
    code[index]? = some sym →
    Carries (map.patchesAt index) (callBasesAt calls index) instr sym

namespace BackpatchMap

theorem patchesAt_append
    (first second : BackpatchMap) (index : Nat) :
    patchesAt (first ++ second) index =
      first.patchesAt index ++ second.patchesAt index := by
  simp [patchesAt]

theorem patchesAt_eq_nil
    {map : BackpatchMap}
    (below : ∀ entry ∈ map, entry.1 < bound)
    (above : bound ≤ index) :
    map.patchesAt index = [] := by
  unfold patchesAt
  rw [List.map_eq_nil_iff, List.filter_eq_nil_iff]
  intro entry member same
  have := below entry member
  simp only [decide_eq_true_eq] at same
  omega

theorem patchesAt_pending
    (pending : List Patch) (position index : Nat) :
    patchesAt (pending.map fun patch => (position, patch)) index =
      if position = index then pending else [] := by
  unfold patchesAt
  split
  · rename_i same
    have all : ∀ entry ∈ pending.map fun patch => (position, patch),
        decide (entry.1 = index) = true := by
      intro entry member
      obtain ⟨_, _, rfl⟩ := List.mem_map.mp member
      exact decide_eq_true same
    rw [List.filter_eq_self.mpr all, List.map_map]
    exact List.map_id pending
  · rename_i different
    have noneOf : ∀ entry ∈ pending.map fun patch => (position, patch),
        ¬decide (entry.1 = index) = true := by
      intro entry member
      obtain ⟨_, _, rfl⟩ := List.mem_map.mp member
      simpa using different
    rw [List.filter_eq_nil_iff.mpr noneOf, List.map_nil]

end BackpatchMap

theorem callBasesAt_append
    (first second : List (Nat × Nat)) (index : Nat) :
    callBasesAt (first ++ second) index =
      callBasesAt first index ++ callBasesAt second index := by
  simp [callBasesAt]

theorem callBasesAt_eq_nil
    {calls : List (Nat × Nat)}
    (below : ∀ call ∈ calls, call.1 < bound)
    (above : bound ≤ index) :
    callBasesAt calls index = [] := by
  unfold callBasesAt
  rw [List.map_eq_nil_iff, List.filter_eq_nil_iff]
  intro call member same
  have := below call member
  simp only [decide_eq_true_eq] at same
  omega

theorem callBasesAt_pending
    (pending : List Nat) (position index : Nat) :
    callBasesAt (pending.map fun base => (position, base)) index =
      if position = index then pending else [] := by
  unfold callBasesAt
  split
  · rename_i same
    rw [List.filter_eq_self.mpr (by simp [same]), List.map_map]
    exact List.map_id pending
  · rename_i different
    rw [List.filter_eq_nil_iff.mpr (by simp [different]), List.map_nil]

namespace Represents

variable {map : BackpatchMap} {calls : List (Nat × Nat)}
  {instructions : List (RegInstruction Slot)} {code : List SymInstruction}

theorem nil : Represents [] [] [] [] where
  length := rfl
  mapBelow := by simp
  callsBelow := by simp
  carries := by simp

/-- Append an instruction along with what was recorded for it. -/
theorem append
    (represents : Represents map calls instructions code)
    (carries : Carries patches bases instr sym) :
    Represents
      (map ++ patches.map fun patch => (instructions.length, patch))
      (calls ++ bases.map fun base => (instructions.length, base))
      (instructions ++ [instr]) (code ++ [sym]) where
  length := by simp [represents.length]
  mapBelow := by
    intro entry member
    rw [List.length_append, List.length_singleton]
    rcases List.mem_append.mp member with member | member
    · exact Nat.lt_succ_of_lt (represents.mapBelow entry member)
    · obtain ⟨_, _, rfl⟩ := List.mem_map.mp member
      exact Nat.lt_succ_self _
  callsBelow := by
    intro call member
    rw [List.length_append, List.length_singleton]
    rcases List.mem_append.mp member with member | member
    · exact Nat.lt_succ_of_lt (represents.callsBelow call member)
    · obtain ⟨_, _, rfl⟩ := List.mem_map.mp member
      exact Nat.lt_succ_self _
  carries := by
    intro index other otherSym found foundSym
    rw [BackpatchMap.patchesAt_append, BackpatchMap.patchesAt_pending,
      callBasesAt_append, callBasesAt_pending]
    by_cases last : instructions.length = index
    · subst last
      rw [List.getElem?_concat_length] at found
      rw [represents.length, List.getElem?_concat_length] at foundSym
      cases found
      cases foundSym
      rw [if_pos rfl, if_pos rfl,
        BackpatchMap.patchesAt_eq_nil represents.mapBelow le_rfl,
        callBasesAt_eq_nil represents.callsBelow le_rfl]
      exact carries
    · have bound := (List.getElem?_eq_some_iff.mp found).1
      rw [List.length_append, List.length_singleton] at bound
      rw [List.getElem?_append_left (by omega)] at found
      rw [List.getElem?_append_left (by rw [← represents.length]; omega)] at foundSym
      rw [if_neg last, if_neg last, List.append_nil, List.append_nil]
      exact represents.carries index other otherSym found foundSym

/-- The symbolic instruction at an index of the code. -/
theorem sym_of_instr
    (represents : Represents map calls instructions code)
    {index : Nat}
    (found : instructions[index]? = some instr) :
    ∃ sym, code[index]? = some sym ∧
      Carries (map.patchesAt index) (callBasesAt calls index) instr sym := by
  have bound := (List.getElem?_eq_some_iff.mp found).1
  rw [represents.length] at bound
  exact ⟨code[index], List.getElem?_eq_getElem bound,
    represents.carries index instr _ found (List.getElem?_eq_getElem bound)⟩

/-- A symbolic instruction is represented by the one at its index. -/
theorem instr_of_sym
    (represents : Represents map calls instructions code)
    {index : Nat}
    (found : code[index]? = some sym) :
    ∃ instr, instructions[index]? = some instr ∧
      Carries (map.patchesAt index) (callBasesAt calls index) instr sym := by
  have bound := (List.getElem?_eq_some_iff.mp found).1
  rw [← represents.length] at bound
  exact ⟨instructions[index], List.getElem?_eq_getElem bound,
    represents.carries index _ sym (List.getElem?_eq_getElem bound) found⟩

/-- Change one instruction and its symbolic counterpart alike. -/
theorem modify
    (represents : Represents map calls instructions code)
    (index : Nat)
    {change : RegInstruction Slot → RegInstruction Slot}
    {changeSym : SymInstruction → SymInstruction}
    (keeps : ∀ patches bases instr sym, Carries patches bases instr sym →
      Carries patches bases (change instr) (changeSym sym)) :
    Represents map calls (instructions.modify index change)
      (code.modify index changeSym) where
  length := by simp [represents.length]
  mapBelow := by simpa using represents.mapBelow
  callsBelow := by simpa using represents.callsBelow
  carries := by
    intro other instr sym found foundSym
    rw [List.getElem?_modify] at found foundSym
    obtain ⟨before, foundBefore, rfl⟩ := Option.map_eq_some_iff.mp found
    obtain ⟨beforeSym, foundBeforeSym, rfl⟩ := Option.map_eq_some_iff.mp foundSym
    have carried := represents.carries other before beforeSym foundBefore foundBeforeSym
    by_cases same : index = other
    · simp only [same, if_true]
      exact keeps _ _ _ _ carried
    · simp only [same, if_false]
      exact carried

end Represents

/-! ## Targets -/

/-- Setting a target keeps what an instruction carries. -/
theorem Carries.setTarget
    (carries : Carries patches bases instr sym) (arm index : Nat) :
    Carries patches bases (instr.setTarget arm index)
      (sym.setTarget arm index) := by
  cases carries with
  | br targetIndex => exact .br index
  | brIf condition mov targetIndex => exact .brIf condition mov index
  | brTable selector brTargets arity uniform =>
      have sameMov : ∀ target : RegBrTableTarget BackPatchableSlot,
          ({ target with targetIndex := index }
            : RegBrTableTarget BackPatchableSlot).mov = target.mov := fun _ => rfl
      have patchesEq : armPatches brTargets = armPatches (brTargets.modify arm
          fun target => { target with targetIndex := index }) := by
        unfold armPatches
        rw [List.flatMap_def, List.flatMap_def]
        congr 1
        refine List.ext_getElem? fun position => ?_
        rw [List.getElem?_map, List.getElem?_map, List.getElem?_modify]
        cases brTargets[position]? with
        | none => rfl
        | some target =>
            by_cases same : arm = position <;> simp [same]
      have mapEq : (brTargets.map emittedArm).modify arm
            (fun target => { target with targetIndex := index }) =
          (brTargets.modify arm
            fun target => { target with targetIndex := index }).map emittedArm := by
        refine List.ext_getElem? fun position => ?_
        rw [List.getElem?_modify, List.getElem?_map, List.getElem?_map,
          List.getElem?_modify]
        cases brTargets[position]? with
        | none => rfl
        | some target =>
            by_cases same : arm = position <;> simp [same, emittedArm]
      simp only [RegInstruction.setTarget]
      rw [patchesEq, mapEq]
      refine .brTable selector _ arity fun target member => ?_
      obtain ⟨position, below, rfl⟩ := List.getElem_of_mem member
      rw [List.getElem_modify]
      have bound : position < brTargets.length := by simpa using below
      have sameArity := uniform brTargets[position] (List.getElem_mem bound)
      split
      · exact sameArity
      · exact sameArity
  | returnOp targetIndex => exact .returnOp index
  | localSet index input => exact .localSet index input
  | localTee index input => exact .localTee index input
  | localSpill index spillIndex => exact .localSpill index spillIndex
  | data op input outputStart => exact .data op input outputStart
  | dataDrop dataIndex => exact .dataDrop dataIndex
  | loop => exact .loop
  | ifOp condition elseIndex endIndex => exact .ifOp condition elseIndex endIndex
  | elseOp endIndex => exact .elseOp endIndex
  | endOp => exact .endOp
  | call funcIndex callerBase => exact .call funcIndex callerBase
  | callIndirect tyIndex tableIndex slot operands callerBase =>
      exact .callIndirect tyIndex tableIndex slot operands callerBase
  | unreachable => exact .unreachable
  | move mov => exact .move mov

/-- So does setting those of an `if`. -/
theorem Carries.setIfTargets
    (carries : Carries patches bases instr sym)
    (elseIndex : Option Nat) (index : Nat) :
    Carries patches bases (instr.setIfTargets elseIndex index)
      (sym.setIfTargets elseIndex index) := by
  cases carries <;> constructor
  assumption

theorem Carries.setElseTarget
    (carries : Carries patches bases instr sym) (index : Nat) :
    Carries patches bases (instr.setElseTarget index)
      (sym.setElseTarget index) := by
  cases carries <;> constructor
  assumption

/-- Patching branches keeps the representation. -/
theorem Represents.patchBreaks
    (represents : Represents map calls instructions code)
    (index : Nat) (attached : List (Nat × Nat)) :
    Represents map calls (Register.patchBreaks index instructions attached)
      (Register.patchBreaks index code attached) := by
  induction attached generalizing instructions code with
  | nil => exact represents
  | cons head rest inductionHypothesis =>
      exact inductionHypothesis
        (represents.modify head.1 fun _ _ _ _ carries => carries.setTarget head.2 index)

/-- So does patching an `if`. -/
theorem Represents.patchIfTargets
    (represents : Represents map calls instructions code)
    (index : Nat) (kind : BlockKind) :
    Represents map calls (Register.patchIfTargets index instructions kind)
      (Register.patchIfTargets index code kind) := by
  unfold Register.patchIfTargets
  cases kind with
  | ifOp ifIndex elseIndex =>
      have patched := represents.modify ifIndex fun _ _ _ _ carries =>
        carries.setIfTargets elseIndex index
      cases elseIndex with
      | none => exact patched
      | some elseIndex =>
          exact patched.modify elseIndex fun _ _ _ _ carries =>
            carries.setElseTarget index
  | func => exact represents
  | block => exact represents
  | loop loopIndex => exact represents

end Register
end TraceWasm
