import TraceWasm.Llvm.Registers

/-!
# Where registers are defined

The definition map leads from a register of a function to the one instruction that
defines it, and stays right however much is appended.
-/

namespace TraceWasm
namespace Llvm

namespace Context

/-- The instruction at a place, and the function that it belongs to. -/
def instructionAt (self : Context) (place : RegisterDef) : Option (FuncId × Instruction) :=
  (self.blocks[place.block]?).bind fun block =>
    (block.instructions[place.instrIndex]?).map fun instr => (block.funcId, instr)

/-- The instruction at the place is one of the function and defines the register. -/
def DefinedAt
    (self : Context) (f : FuncId) (name : String) (place : RegisterDef)
    (instr : Instruction) : Prop :=
  self.instructionAt place = some (f, instr) ∧ instr.register? = some name

/-- The entry of the definition map. -/
def definition (self : Context) (f : FuncId) (name : String) : Option RegisterDef :=
  (self.registerDefInstrIndex f).bind (· name)

/-- The entries of the map are the places of the definitions. -/
def Mapped (ctx : Context) : Prop :=
  ∀ f name place, ctx.definition f name = some place ↔ ∃ instr, ctx.DefinedAt f name place instr

/-! ## Instructions stay in place -/

section Places

variable {ctx after : Context} {id : BasicBlockId} {block : BasicBlock}
  {alter : BasicBlock → BasicBlock}

/-- Where instructions are depends on the blocks only. -/
theorem instructionAt_congr
    (blocks : after.blocks = ctx.blocks) :
    after.instructionAt = ctx.instructionAt := by
  funext place
  unfold instructionAt
  rw [blocks]

/-- It stays when a block keeps its instructions and its function. -/
theorem instructionAt_modify
    (blocks : after.blocks = ctx.blocks.modify id alter)
    (instructions : ∀ block, (alter block).instructions = block.instructions)
    (funcId : ∀ block, (alter block).funcId = block.funcId) :
    after.instructionAt = ctx.instructionAt := by
  funext place
  unfold instructionAt
  rw [blocks, List.getElem?_modify]
  cases ctx.blocks[place.block]? with
  | none => rfl
  | some found =>
      simp only [Option.map_eq_map, Option.map_some, Option.bind_some]
      split
      · rw [instructions, funcId]
      · rfl

/-- It stays when an empty block is added. -/
theorem instructionAt_addBlock
    (blocks : after.blocks = ctx.blocks ++ [block]) (empty : block.instructions = []) :
    after.instructionAt = ctx.instructionAt := by
  funext place
  unfold instructionAt
  rw [blocks, List.getElem?_append]
  split
  case isTrue => rfl
  case isFalse beyond =>
    rw [List.getElem?_eq_none (Nat.le_of_not_lt beyond)]
    cases found : [block][place.block - ctx.blocks.length]? with
    | none => rfl
    | some other =>
        have same := List.mem_singleton.mp (List.mem_of_getElem? found)
        simp [same, empty]

/-- Where a block ends there is nothing yet. -/
theorem instructionAt_end
    (found : ctx.blocks[id]? = some block) :
    ctx.instructionAt ⟨id, block.instructions.length⟩ = none := by
  simp [instructionAt, found]

/-- An appended instruction is found where the block ended. -/
theorem instructionAt_push
    (found : ctx.blocks[id]? = some block)
    (blocks : after.blocks = ctx.blocks.modify id alter)
    (instructions : (alter block).instructions = block.instructions ++ [instr])
    (funcId : (alter block).funcId = block.funcId) :
    after.instructionAt ⟨id, block.instructions.length⟩ = some (block.funcId, instr) ∧
      ∀ place, place ≠ ⟨id, block.instructions.length⟩ →
        after.instructionAt place = ctx.instructionAt place := by
  have here : after.blocks[id]? = some (alter block) := by
    rw [blocks, List.getElem?_modify_eq, found]
    rfl
  constructor
  · simp [instructionAt, here, instructions, funcId]
  · rintro ⟨i, index⟩ unlike
    unfold instructionAt
    dsimp only
    by_cases same : i = id
    · have inside : index ≠ block.instructions.length := by
        rintro rfl
        exact unlike (by rw [same])
      rw [same, here, found]
      simp only [Option.bind_some, instructions, funcId]
      apply congrArg (Option.map _)
      by_cases before : index < block.instructions.length
      · rw [List.getElem?_append_left before]
      · rw [List.getElem?_eq_none (Nat.le_of_not_lt before), List.getElem?_eq_none]
        rw [List.length_append, List.length_singleton]
        omega
    · rw [blocks, List.getElem?_modify_ne _ _ (Ne.symm same)]

end Places

/-- What is defined at a place is a register of the function. -/
theorem mem_registers
    {ctx : Context} {place : RegisterDef}
    (linked : ctx.Linked) (defined : ctx.DefinedAt f name place instr) :
    name ∈ ctx.registers f := by
  obtain ⟨there, named⟩ := defined
  obtain ⟨block, found, there⟩ := Option.bind_eq_some_iff.mp there
  obtain ⟨_, at_, same⟩ := Option.map_eq_some_iff.mp there
  cases same
  have headed : ctx.header place.block = some block.header := by
    unfold header
    rw [found]
    rfl
  obtain ⟨func, owner, member, -⟩ := linked.listed headed
  have owner : ctx.funcs[block.funcId]? = some func := owner
  rw [registers_of_some owner]
  apply List.mem_append_right
  refine List.mem_flatMap.mpr ⟨place.block, member, ?_⟩
  rw [registersIn_of_some found]
  apply List.mem_append_right
  exact List.mem_filterMap.mpr ⟨instr, List.mem_of_getElem? at_, named⟩

/-! ## What a call does to the definitions -/

/-- An instruction is appended, or none is. The map follows. -/
inductive Definitions (ctx after : Context) : Prop where
  | kept
      (places : after.instructionAt = ctx.instructionAt)
      (definitions : after.definition = ctx.definition)
  | pushed (f : FuncId) (instr : Instruction) (last : RegisterDef)
      (free : ctx.instructionAt last = none)
      (here : after.instructionAt last = some (f, instr))
      (elsewhere : ∀ place, place ≠ last → after.instructionAt place = ctx.instructionAt place)
      (fresh : ∀ name, instr.register? = some name → name ∉ ctx.registers f)
      (entered : ∀ name, instr.register? = some name → after.definition f name = some last)
      (others : ∀ g name, ¬(g = f ∧ instr.register? = some name) →
        after.definition g name = ctx.definition g name)

/-- One more entry in the map defines one register and no other. -/
theorem definition_insertRegisterDef
    {self : Context} (f : FuncId) (name : String) (place : RegisterDef) :
    (self.insertRegisterDef f name place).definition f name = some place ∧
      ∀ g other, ¬(g = f ∧ other = name) →
        (self.insertRegisterDef f name place).definition g other = self.definition g other := by
  unfold definition insertRegisterDef
  constructor
  · simp
  · intro g other unlike
    dsimp only
    by_cases sameFunc : g = f
    · have otherName : other ≠ name := fun same => unlike ⟨sameFunc, same⟩
      rw [sameFunc, Function.update_self, Option.bind_some, Function.update_of_ne otherName]
      cases self.registerDefInstrIndex f <;> rfl
    · rw [Function.update_of_ne sameFunc]

/-- What a call defines is mapped to where it stands. -/
theorem Mapped.definitions
    {ctx after : Context}
    (linked : ctx.Linked) (mapped : ctx.Mapped) (definitions : Definitions ctx after) :
    after.Mapped := by
  cases definitions with
  | kept places definitions =>
      intro f name place
      unfold DefinedAt
      rw [places, definitions]
      exact mapped f name place
  | pushed f instr last free here elsewhere fresh entered others =>
      intro g name place
      by_cases new : g = f ∧ instr.register? = some name
      · obtain ⟨rfl, named⟩ := new
        rw [entered name named, Option.some.injEq]
        constructor
        · rintro rfl
          exact ⟨instr, here, named⟩
        · rintro ⟨other, there, otherNamed⟩
          by_contra unlike
          rw [elsewhere place (Ne.symm unlike)] at there
          exact fresh name named (mem_registers linked ⟨there, otherNamed⟩)
      · rw [others g name new, mapped g name place]
        apply exists_congr
        intro other
        unfold DefinedAt
        by_cases same : place = last
        · rw [same, here, free]
          constructor
          · rintro ⟨absurd, _⟩
            cases absurd
          · rintro ⟨same, named⟩
            cases same
            exact (new ⟨rfl, named⟩).elim
        · rw [elsewhere place same]

/-- An instruction stays where it is. -/
theorem instructionAt_mono
    {ctx after : Context} {place : RegisterDef}
    (definitions : Definitions ctx after) (there : ctx.instructionAt place = some found) :
    after.instructionAt place = some found := by
  cases definitions with
  | kept places definitions =>
      rw [places]
      exact there
  | pushed f instr last free here elsewhere fresh entered others =>
      rw [elsewhere place]
      · exact there
      · rintro rfl
        rw [free] at there
        cases there

end Context

section Effects

open Context

variable {ctx after : Context} {call : Call}

/-- Every call defines at most one register, where it puts the instruction. -/
theorem Effect.definitions
    (linked : ctx.Linked) (named : ctx.Named) (mapped : ctx.Mapped)
    (effect : Effect ctx call after) :
    Definitions ctx after := by
  cases effect with
  | nothing => exact .kept rfl rfl
  | named => exact .kept (instructionAt_congr rfl) rfl
  | @defined id call kind ty reg block name names checked found unlocked issued =>
      have due := (FuncRegNameIndex.nameFromHint_eq_ok issued).1
      have blocks : (ctx.define id block names kind (Value.fromRegister name ty) name).blocks =
          ctx.blocks.modify id
            (·.pushInstruction ⟨kind, some (Value.fromRegister name ty)⟩) := rfl
      obtain ⟨here, elsewhere⟩ := instructionAt_push found blocks rfl rfl
      let written := (ctx.setNames block.funcId names).modifyBlock id
        (·.pushInstruction ⟨kind, some (Value.fromRegister name ty)⟩)
      obtain ⟨entered, others⟩ := @definition_insertRegisterDef written
        block.funcId name ⟨id, block.instructions.length⟩
      refine .pushed _ _ _ (instructionAt_end found) here elsewhere ?_ ?_ ?_
      · rintro _ ⟨rfl⟩ member
        exact FuncRegNameIndex.not_issued_of_due due (named.issued _ _ member)
      · rintro _ ⟨rfl⟩
        exact entered
      · intro g other unlike
        exact others g other fun same => unlike ⟨same.1, congrArg some same.2.symm⟩
  | @appended id call kind block checked found unlocked =>
      have blocks : (ctx.modifyBlock id (·.pushInstruction ⟨kind, none⟩)).blocks =
          ctx.blocks.modify id (·.pushInstruction ⟨kind, none⟩) := rfl
      obtain ⟨here, elsewhere⟩ := instructionAt_push found blocks rfl rfl
      refine .pushed _ _ _ (instructionAt_end found) here elsewhere ?_ ?_ fun _ _ _ => rfl
      · exact fun _ absurd => by cases absurd
      · exact fun _ absurd => by cases absurd
  | @terminated id call kind block checked found unlocked =>
      have blocks : (ctx.modifyBlock id fun block =>
          (block.pushInstruction ⟨kind, none⟩).lock).blocks =
          ctx.blocks.modify id fun block => (block.pushInstruction ⟨kind, none⟩).lock := rfl
      obtain ⟨here, elsewhere⟩ := instructionAt_push found blocks rfl rfl
      refine .pushed _ _ _ (instructionAt_end found) here elsewhere ?_ ?_ fun _ _ _ => rfl
      · exact fun _ absurd => by cases absurd
      · exact fun _ absurd => by cases absurd
  | placed given found unlocked later empty issued value sound =>
      exact .kept (instructionAt_modify rfl (fun _ => rfl) fun _ => rfl) rfl
  | joined found there takes =>
      exact .kept (instructionAt_modify rfl (fun _ => rfl) fun _ => rfl) rfl
  | opened found new =>
      exact .kept (instructionAt_addBlock rfl rfl) rfl
  | declared => exact .kept (instructionAt_congr rfl) rfl
  | imported => exact .kept (instructionAt_congr rfl) rfl
  | allocated stopped =>
      obtain ⟨names, rfl⟩ := nameParams_frame stopped
      exact .kept (instructionAt_congr rfl) rfl
  | @entered name params result vals between new checked naming =>
      obtain ⟨names, rfl⟩ := nameParams_frame naming
      refine .kept (instructionAt_congr rfl) ?_
      funext f other
      by_cases same : f = ctx.funcs.length
      · have old : ctx.definition f other = none := by
          cases entry : ctx.definition f other with
          | none => rfl
          | some place =>
              obtain ⟨instr, defined⟩ := (mapped f other place).mp entry
              have member := mem_registers linked defined
              rw [same] at member
              simp [Context.registers] at member
        rw [old, same]
        simp [Context.definition, Context.enterFunction]
      · unfold Context.definition Context.enterFunction
        dsimp only
        rw [Function.update_of_ne same]
        rfl

end Effects

end Llvm
end TraceWasm
