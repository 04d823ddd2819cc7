import TraceWasm.Stack.Balance
import TraceWasm.Stack.Machine
import TraceWasm.Wasm.Standing

/-!
# Where lowered code goes

The jumps of a lowered body stay in it and go where the structure of its operators
wants them to, and the body is left only behind the function's `end`.
-/

namespace TraceWasm
namespace Stack

/-- An `end` becomes an `End`. -/
theorem Site.isEnd
    {mod : ModuleTypes} {func : FuncHeader} {ops : List Operator} {body : LoweredFuncBody}
    {position : Nat} {instr : StackInstruction} {s : Lowering} {v v' : Validator}
    (site : Site mod func ops body position .endOp instr s v v') :
    IsEnd instr := by
  obtain ⟨emitted, added, emission, same, _⟩ := site.emitted
  obtain ⟨frame, outer, opened⟩ := site.opened
  obtain ⟨block, rest, isInner, _⟩ := site.agrees.head opened
  dsimp only [Lowering.emission, Lowering.simpleInstruction, Lowering.opening] at emission
  rw [isInner] at emission
  cases emission
  exact ⟨_, _, eq_of_unaimed same rfl⟩

/-- Every operator of a validated body has become one instruction, with its own byte
offset. Its jumps have been filled in: a branch to a loop goes to the loop, any other one
and a return to the `end` of the construct, a false `if` behind its `else` or else to its
`end`. The last instruction is the `End` of the function, and no jump leaves the body. -/
theorem jumps_follow_structure
    {mod : ModuleTypes} {func : FuncHeader} {located : List (Operator × Nat)}
    {body : LoweredFuncBody}
    (validates : Validates mod func (located.map Prod.fst))
    (emitted : emitInstructionsForFunc mod func located = .ok body) :
    body.instructions.length = located.length ∧
      body.instructionOffsets = (located.map fun operator => operator.2 % 2 ^ 32) ∧
      (∀ (position : Nat) (op : Operator) (instr : StackInstruction),
        (located.map Prod.fst)[position]? = some op →
        body.instructions[position]? = some instr →
        op.Prescribes (located.map Prod.fst) (ownStarts (located.map Prod.fst)) position
          (instr.control body.frame.brTargetsArena)) ∧
      (∀ instr ∈ body.instructions, ∀ target ∈ (instr.control body.frame.brTargetsArena).targets,
        target < body.instructions.length) ∧
      ∃ instr, body.instructions.getLast? = some instr ∧ IsEnd instr := by
  have length := length_of_emitted validates emitted
  obtain ⟨structured, _⟩ := structured_of_emitted validates emitted
  refine ⟨length, offsets_of_emitted validates emitted, ?_, ?_, ?_⟩
  · intro position op instr isOp isInstr
    obtain ⟨other, _, _, _, isOther, site⟩ := site_of_emitted validates emitted isOp
    obtain rfl : instr = other := Option.some.inj (isInstr.symm.trans isOther)
    exact site.prescribed
  · intro instr member target isTarget
    have below := structured.target_lt (List.mem_map_of_mem member) isTarget
    unfold LoweredFuncBody.controls at below
    rwa [List.length_map] at below
  · obtain ⟨instr, _, _, _, isInstr, site⟩ :=
      site_of_emitted validates emitted (last_of_wellNested validates.wellNested)
    refine ⟨instr, ?_, site.isEnd⟩
    rw [List.getLast?_eq_getElem?, length, ← List.length_map Prod.fst]
    exact isInstr

/-- A block that is left with seven. -/
def leavingOperators : List (Operator × Nat) :=
  [(.block (.type .i32), 0), (.const (.i32 7), 2), (.br 0, 4), (.endOp, 6), (.endOp, 7)]

/-- A body that leaves a block with a value. -/
def leavingBody : LoweredFuncBody where
  instructions := [.block, .const (.i32 7), .br ⟨3, 1, 0⟩, .endOp 1 0, .endOp 1 0]
  instructionOffsets := [0, 2, 4, 6, 7]
  frame := ⟨[]⟩

/-- The branch out of a block goes to its `end`. -/
theorem jumps_follow_structure_leaving :
    (Operator.br 0).Prescribes (leavingOperators.map Prod.fst)
      (ownStarts (leavingOperators.map Prod.fst)) 2 (.branch 3) :=
  (@jumps_follow_structure ⟨[], []⟩ ⟨0, 1, 0, le_rfl, Nat.zero_le _⟩ leavingOperators leavingBody
    ⟨_, rfl, rfl⟩ rfl).2.2.1 2 _ _ rfl rfl

end Stack
end TraceWasm
