import TraceWasm.Llvm.Calls

/-!
# What a call can do

A call leaves the context as it is, or makes one of a few changes to it. The changes
are listed once, with what was checked before each, and every invariant is proved by
going through the list.
-/

namespace TraceWasm
namespace Llvm

/-! ## The changes -/

namespace Context

/-- Issue names to a function and append an instruction that defines a register. -/
def define
    (id : BasicBlockId) (block : BasicBlock) (names : FuncRegNameIndex)
    (kind : InstructionKind) (val : Value) (name : String)
    (self : Context) : Context :=
  (((self.setNames block.funcId names).modifyBlock id
    (·.pushInstruction ⟨kind, some val⟩))).insertRegisterDef block.funcId name
      ⟨id, block.instructions.length⟩

/-- Issue names to a function and place a phi. -/
def place
    (id : BasicBlockId) (block : BasicBlock) (names : FuncRegNameIndex)
    (phi : PhiInstruction)
    (self : Context) : Context :=
  (self.setNames block.funcId names).modifyBlock id (·.pushPhi phi)

/-- Allocate a function without parameters. -/
def alloc (name : String) (self : Context) : Context :=
  { self with funcs := self.funcs ++ [⟨name, [], .void, [], []⟩] }

/-- Add an empty block to a function. -/
def addBlock (id : FuncId) (func : Function) (name : String) (self : Context) : Context :=
  Context.modifyFunc id (·.pushBlock self.blocks.length name)
    { self with blocks := self.blocks ++ [⟨name, func.blocks.isEmpty, id, [], [], false⟩] }

end Context

/-- The branches have the phi's type and come from distinct blocks. -/
structure PhiInstruction.Sound (phi : PhiInstruction) : Prop where
  types : ∀ branch ∈ phi.branches, branch.2.ty = phi.refTy
  blocks : ∀ id, id ∈ phi.blocks ↔ id ∈ phi.branches.map (·.1)
  distinct : (phi.branches.map (·.1)).Nodup

/-- The phi can take the branch. -/
def PhiInstruction.Takes (branch : BasicBlockId × Value) (self : PhiInstruction) : Prop :=
  branch.2.ty = self.refTy ∧ branch.1 ∉ self.blocks

/-- What a call can make of a context. -/
inductive Effect (ctx : Context) : Call → Context → Prop where
  | nothing {call : Call} : Effect ctx call ctx
  /-- The name is used up, but the block took nothing. -/
  | named {call : Call} {func : FuncId} {reg : RegName} {name : String}
      {names : FuncRegNameIndex}
      (issued : (ctx.regNameAssigner func).nameFromHint reg = .ok (name, names)) :
      Effect ctx call (ctx.setNames func names)
  | defined {id : BasicBlockId} {call : CursorCall} {kind : InstructionKind} {ty : Ty}
      {reg : RegName} {block : BasicBlock} {name : String} {names : FuncRegNameIndex}
      (checked : call.write ctx id = .ok (.define kind ty reg))
      (found : ctx.blocks[id]? = some block)
      (unlocked : block.isLocked = false)
      (issued : (ctx.regNameAssigner block.funcId).nameFromHint reg = .ok (name, names)) :
      Effect ctx (.build id call)
        (ctx.define id block names kind (Value.fromRegister name ty) name)
  | appended {id : BasicBlockId} {call : CursorCall} {kind : InstructionKind}
      {block : BasicBlock}
      (checked : call.write ctx id = .ok (.append kind))
      (found : ctx.blocks[id]? = some block)
      (unlocked : block.isLocked = false) :
      Effect ctx (.build id call) (ctx.modifyBlock id (·.pushInstruction ⟨kind, none⟩))
  | terminated {id : BasicBlockId} {call : CursorCall} {kind : InstructionKind}
      {block : BasicBlock}
      (checked : call.write ctx id = .ok (.terminate kind))
      (found : ctx.blocks[id]? = some block)
      (unlocked : block.isLocked = false) :
      Effect ctx (.build id call)
        (ctx.modifyBlock id fun block => (block.pushInstruction ⟨kind, none⟩).lock)
  | placed {id : BasicBlockId} {branches : List (BasicBlockId × Value)} {reg : RegName}
      {block : BasicBlock} {name : String} {names : FuncRegNameIndex}
      {phi : PhiInstruction}
      (given : branches ≠ [])
      (found : ctx.blocks[id]? = some block)
      (unlocked : block.isLocked = false)
      (later : block.isFirst = false)
      (empty : block.instructions = [])
      (issued : (ctx.regNameAssigner block.funcId).nameFromHint reg = .ok (name, names))
      (value : phi.value = Value.fromRegister name phi.refTy)
      (sound : phi.Sound)
      (taken : ∀ branch ∈ phi.branches, branch ∈ branches) :
      Effect ctx (.buildPhi id branches reg) (ctx.place id block names phi)
  | joined {handler : PhiInstrHandler} {branch : BasicBlockId × Value} {block : BasicBlock}
      {phi : PhiInstruction}
      (found : ctx.blocks[handler.block]? = some block)
      (there : block.phis[handler.index]? = some phi)
      (takes : phi.Takes branch) :
      Effect ctx (.addBranch handler branch)
        (ctx.modifyBlock handler.block (·.modifyPhi handler.index (·.pushBranch branch)))
  | opened {id : FuncId} {name : String} {func : Function}
      (found : ctx.funcs[id]? = some func)
      (new : name ∉ func.blockNames) :
      Effect ctx (.addBasicBlock id name) (ctx.addBlock id func name)
  | declared {name : String} {ty : Option Ty} {initializer : Option ConstExpr} {finalTy : Ty}
      (new : ctx.globals name = none)
      (checked : globalVariableTy ty initializer = .ok finalTy) :
      Effect ctx (.declareGlobalVariable name ty initializer)
        { ctx.insertGlobal name (.variable finalTy initializer) with
          globalVariables := ctx.globalVariables ++ [name] }
  | imported {name : String} {params : List Ty} {result : Ty}
      (new : ctx.globals name = none)
      (checked : requireSignature params result = .ok ()) :
      Effect ctx (.declareFunction name params result)
        { ctx.insertGlobal name (.func ⟨params, result⟩) with
          importedFunctions := ctx.importedFunctions ++ [name] }
  /-- The function is allocated, but one of its parameters got no name. -/
  | allocated {name : String} {params : List (Ty × RegName)} {result : Ty}
      {fault : Fault ContextError} {after : Context}
      (stopped : nameParams ctx.funcs.length params (ctx.alloc name) = (.error fault, after)) :
      Effect ctx (.defineFunction name params result) after
  | entered {name : String} {params : List (Ty × RegName)} {result : Ty}
      {vals : List Value} {between : Context}
      (new : ctx.globals name = none)
      (checked : requireSignature (params.map (·.1)) result = .ok ())
      (named : nameParams ctx.funcs.length params (ctx.alloc name) = (.ok vals, between)) :
      Effect ctx (.defineFunction name params result)
        (between.enterFunction ctx.funcs.length name vals (params.map (·.1)) result)

/-! ## Every call makes one of them -/

namespace Context

variable {self : Context} {id : BasicBlockId}

/-- Two changes of a block are one. -/
theorem modifyBlock_modifyBlock (f g : BasicBlock → BasicBlock) :
    (self.modifyBlock id f).modifyBlock id g = self.modifyBlock id fun block => g (f block) := by
  unfold modifyBlock
  rw [List.modify_modify_eq]
  rfl

/-- Only what is done to the block that is there matters. -/
theorem modifyBlock_congr
    (found : self.blocks[id]? = some block) (same : f block = g block) :
    self.modifyBlock id f = self.modifyBlock id g := by
  have sameBlocks : self.blocks.modify id f = self.blocks.modify id g := by
    apply List.ext_getElem?
    intro i
    rw [List.getElem?_modify, List.getElem?_modify]
    by_cases here : id = i
    · rw [← here, found]
      simp [same]
    · simp [here]
  unfold modifyBlock
  rw [sameBlocks]

@[simp] theorem blocks_modifyBlock (f : BasicBlock → BasicBlock) :
    (self.modifyBlock id f).blocks = self.blocks.modify id f := rfl

end Context

/-- A change of the phi just pushed is a push of the changed phi. -/
theorem BasicBlock.modifyPhi_pushPhi (phi : PhiInstruction) (block : BasicBlock)
    (alter : PhiInstruction → PhiInstruction) :
    (block.pushPhi phi).modifyPhi block.phis.length alter = block.pushPhi (alter phi) := by
  unfold BasicBlock.pushPhi BasicBlock.modifyPhi
  simp [List.modify_eq_take_cons_drop]

/-- Changing the phi that was placed last is placing the changed one. -/
theorem Context.modifyBlock_pushPhi
    {self : Context} {id : BasicBlockId}
    (found : self.blocks[id]? = some block) (alter : PhiInstruction → PhiInstruction) :
    (self.modifyBlock id (·.pushPhi phi)).modifyBlock id
        (·.modifyPhi block.phis.length alter) =
      self.modifyBlock id (·.pushPhi (alter phi)) := by
  rw [modifyBlock_modifyBlock]
  exact modifyBlock_congr found (BasicBlock.modifyPhi_pushPhi phi block alter)

section Primitives

variable {ctx after : Context} {id : BasicBlockId}

/-- A name that is handed out is one that the function's names hand out. -/
theorem nameForReg_ok
    (ran : nameForReg reg func ctx = (.ok name, after)) :
    ∃ names, (ctx.regNameAssigner func).nameFromHint reg = .ok (name, names) ∧
      after = ctx.setNames func names := by
  obtain ⟨⟨_, names⟩, issued, same⟩ := Attempt.bind_eq_ok.mp (Stateful.change_ok ran)
  cases same
  exact ⟨names, issued, rfl⟩

/-- An instruction is only appended to a block that is not locked. -/
theorem addInstruction_ok
    (ran : BasicBlock.addInstruction id instr ctx = (.ok index, after)) :
    ∃ block, ctx.blocks[id]? = some block ∧ block.isLocked = false ∧
      index = block.instructions.length ∧
      after = ctx.modifyBlock id (·.pushInstruction instr) := by
  obtain ⟨block, found, added⟩ := Attempt.bind_eq_ok.mp (Stateful.change_ok ran)
  obtain ⟨_, unlocked, added⟩ := Attempt.bind_eq_ok.mp added
  cases added
  exact ⟨block, Attempt.orPanic_eq_ok.mp found, Attempt.require_eq_ok.mp unlocked, rfl, rfl⟩

/-- A phi is only appended to a block that takes it. -/
theorem addPhi_ok
    (ran : BasicBlock.addPhi id instr ctx = (.ok handler, after)) :
    ∃ block, ctx.blocks[id]? = some block ∧ block.isLocked = false ∧
      block.isFirst = false ∧ block.instructions = [] ∧
      handler = ⟨block.phis.length, id⟩ ∧ after = ctx.modifyBlock id (·.pushPhi instr) := by
  obtain ⟨block, found, added⟩ := Attempt.bind_eq_ok.mp (Stateful.change_ok ran)
  obtain ⟨_, unlocked, added⟩ := Attempt.bind_eq_ok.mp added
  obtain ⟨_, later, added⟩ := Attempt.bind_eq_ok.mp added
  obtain ⟨_, empty, added⟩ := Attempt.bind_eq_ok.mp added
  cases added
  exact ⟨block, Attempt.orPanic_eq_ok.mp found, Attempt.require_eq_ok.mp unlocked,
    Attempt.require_eq_ok.mp later, Attempt.require_eq_ok.mp empty, rfl, rfl⟩

/-- A branch is only appended to a phi that takes it. -/
theorem addBranch_ok
    {handler : PhiInstrHandler}
    (ran : handler.addBranch branch ctx = (.ok done, after)) :
    ∃ block phi, ctx.blocks[handler.block]? = some block ∧
      block.phis[handler.index]? = some phi ∧ phi.Takes branch ∧
      after = ctx.modifyBlock handler.block
        (·.modifyPhi handler.index (·.pushBranch branch)) := by
  obtain ⟨block, found, added⟩ := Attempt.bind_eq_ok.mp (Stateful.change_ok ran)
  obtain ⟨phi, there, added⟩ := Attempt.bind_eq_ok.mp added
  obtain ⟨_, typed, added⟩ := Attempt.bind_eq_ok.mp added
  obtain ⟨_, new, added⟩ := Attempt.bind_eq_ok.mp added
  cases added
  exact ⟨block, phi, Attempt.orPanic_eq_ok.mp found, Attempt.orPanic_eq_ok.mp there,
    ⟨Attempt.require_eq_ok.mp typed, Attempt.require_eq_ok.mp new⟩, rfl⟩

/-- A name in a block is one in the block's function. -/
theorem nameInBlock_ok
    (ran : nameInBlock id reg ctx = (.ok (name, func), after)) :
    ∃ block names, ctx.blocks[id]? = some block ∧ func = block.funcId ∧
      (ctx.regNameAssigner block.funcId).nameFromHint reg = .ok (name, names) ∧
      after = ctx.setNames block.funcId names := by
  obtain ⟨funcId, _, reading, rest⟩ := Stateful.bind_eq_ok ran
  obtain ⟨looked, rfl⟩ := Stateful.read_cases reading
  obtain ⟨block, found, same⟩ := Attempt.bind_eq_ok.mp looked
  cases same
  obtain ⟨_, _, naming, done⟩ := Stateful.bind_eq_ok rest
  obtain ⟨names, issued, rfl⟩ := nameForReg_ok naming
  cases done
  exact ⟨block, names, Attempt.orPanic_eq_ok.mp found, rfl, issued, rfl⟩

/-- A refused name changes nothing. -/
theorem nameInBlock_error
    (ran : nameInBlock id reg ctx = (.error fault, after)) :
    ctx = after := by
  rcases Stateful.bind_cases ran with ⟨_, _, reading, rest⟩ | ⟨_, reading, _⟩
  · obtain ⟨_, rfl⟩ := Stateful.read_cases reading
    rcases Stateful.bind_cases rest with ⟨_, _, _, done⟩ | ⟨_, naming, _⟩
    · cases done
    · exact Stateful.change_error naming
  · exact (Stateful.read_cases reading).2

end Primitives

/-! ## Phis that are given branches -/

/-- A phi stays sound with a branch that it takes. -/
theorem PhiInstruction.Sound.pushBranch
    {phi : PhiInstruction}
    (sound : phi.Sound) (takes : phi.Takes branch) :
    (phi.pushBranch branch).Sound where
  types := by
    intro other member
    rcases List.mem_append.mp member with member | member
    · exact sound.types other member
    · rw [List.mem_singleton.mp member]
      exact takes.1
  blocks := by
    intro id
    simp only [PhiInstruction.pushBranch, List.mem_cons, List.map_append, List.mem_append,
      List.map_cons,
      List.map_nil, List.not_mem_nil, or_false, sound.blocks id]
    exact or_comm
  distinct := by
    simp only [PhiInstruction.pushBranch, List.map_append, List.map_cons, List.map_nil]
    apply List.Nodup.append sound.distinct (List.nodup_singleton _)
    intro id member same
    rw [List.mem_singleton.mp same] at member
    exact takes.2 ((sound.blocks _).mpr member)

/-- A phi without branches is sound. -/
theorem PhiInstruction.sound_nil (refTy : Ty) (value : Value) :
    PhiInstruction.Sound ⟨[], [], refTy, value⟩ where
  types := fun _ member => (List.not_mem_nil member).elim
  blocks := fun _ => Iff.rfl
  distinct := List.nodup_nil

/-- The block's last phi is given branches, all of them or the ones up to a refusal. -/
theorem addBranches_cases
    {ctx after : Context} {id : BasicBlockId} {block : BasicBlock} {phi : PhiInstruction}
    (found : ctx.blocks[id]? = some block) (sound : phi.Sound)
    (ran : addBranches ⟨block.phis.length, id⟩ branches
      (ctx.modifyBlock id (·.pushPhi phi)) = (outcome, after)) :
    ∃ joined, after = ctx.modifyBlock id (·.pushPhi joined) ∧ joined.Sound ∧
      joined.refTy = phi.refTy ∧ joined.value = phi.value ∧
      ∀ branch ∈ joined.branches, branch ∈ phi.branches ∨ branch ∈ branches := by
  induction branches generalizing phi with
  | nil =>
      cases ran
      exact ⟨phi, rfl, sound, rfl, rfl, fun _ => .inl⟩
  | cons branch branches inductionHypothesis =>
      rcases Stateful.bind_cases ran with ⟨_, _, added, rest⟩ | ⟨fault, added, rfl⟩
      · obtain ⟨_, last, there, lastOf, takes, rfl⟩ := addBranch_ok added
        rw [Context.blocks_modifyBlock, List.getElem?_modify_eq, found] at there
        cases there
        simp only [BasicBlock.pushPhi, List.getElem?_concat_length] at lastOf
        cases lastOf
        rw [Context.modifyBlock_pushPhi found] at rest
        obtain ⟨joined, same, joinedSound, refTy, value, taken⟩ :=
          inductionHypothesis (sound.pushBranch takes) rest
        refine ⟨joined, same, joinedSound, refTy, value, fun other member => ?_⟩
        rcases taken other member with earlier | later
        · rcases List.mem_append.mp earlier with there | last
          · exact .inl there
          · exact .inr (List.mem_singleton.mp last ▸ List.mem_cons_self)
        · exact .inr (List.mem_cons_of_mem _ later)
      · exact ⟨phi, (Stateful.change_error added).symm, sound, rfl, rfl, fun _ => .inl⟩

/-! ## The calls, one after another -/

section Calls

variable {ctx after : Context} {id : BasicBlockId}

/-- What placing an instruction that defines a register does. -/
theorem effect_of_addInstructionToBlock
    {call : CursorCall}
    (checked : call.write ctx id = .ok (.define kind ty reg))
    (ran : addInstructionToBlockAndGetValue kind ty id reg ctx = (outcome, after)) :
    Effect ctx (.build id call) after := by
  rcases Stateful.bind_cases ran with ⟨⟨name, _⟩, _, naming, written⟩ | ⟨_, naming, rfl⟩
  case inr =>
    obtain ⟨_, naming⟩ := Stateful.mapError_error naming
    rw [← nameInBlock_error naming]
    exact .nothing
  obtain ⟨block, names, found, rfl, issued, rfl⟩ :=
    nameInBlock_ok (Stateful.mapError_ok naming)
  rcases Stateful.bind_cases written with ⟨index, _, added, recorded⟩ | ⟨_, added, rfl⟩
  case inr =>
    rw [← Stateful.change_error added]
    exact .named issued
  obtain ⟨other, there, unlocked, rfl, rfl⟩ := addInstruction_ok added
  have sameBlock : some other = some block := there.symm.trans found
  cases sameBlock
  cases recorded
  exact .defined checked found unlocked issued

/-- What placing an instruction does. -/
theorem effect_of_carryOut
    {call : CursorCall} {write : Write}
    (checked : call.write ctx id = .ok write)
    (ran : write.carryOut id ctx = (outcome, after)) :
    Effect ctx (.build id call) after := by
  cases write with
  | define kind ty reg =>
      rcases Stateful.bind_cases ran with ⟨_, _, added, done⟩ | ⟨_, added, rfl⟩
      · cases done
        exact effect_of_addInstructionToBlock checked added
      · exact effect_of_addInstructionToBlock checked added
  | append kind =>
      rcases Stateful.bind_cases ran with ⟨_, _, added, done⟩ | ⟨_, added, rfl⟩
      · obtain ⟨_, found, unlocked, _, rfl⟩ := addInstruction_ok added
        cases done
        exact .appended checked found unlocked
      · rw [← Stateful.change_error added]
        exact .nothing
  | terminate kind =>
      rcases Stateful.bind_cases ran with ⟨_, _, added, done⟩ | ⟨_, added, rfl⟩
      · obtain ⟨_, found, unlocked, _, rfl⟩ := addInstruction_ok added
        cases done
        dsimp only
        rw [Context.modifyBlock_modifyBlock]
        exact .terminated checked found unlocked
      · rw [← Stateful.change_error added]
        exact .nothing

/-- What a call of the cursor does. -/
theorem effect_of_run
    {call : CursorCall}
    (ran : call.run id ctx = (outcome, after)) :
    Effect ctx (.build id call) after := by
  rcases Stateful.bind_cases ran with ⟨write, _, reading, rest⟩ | ⟨_, reading, rfl⟩
  · obtain ⟨checked, rfl⟩ := Stateful.read_cases reading
    exact effect_of_carryOut checked rest
  · obtain ⟨_, rfl⟩ := Stateful.read_cases reading
    exact .nothing

/-- What building a phi does. -/
theorem effect_of_buildPhi
    (ran : buildPhi id branches reg ctx = (outcome, after)) :
    Effect ctx (.buildPhi id branches reg) after := by
  cases branches with
  | nil =>
      cases ran
      exact .nothing
  | cons first branches =>
      rcases Stateful.bind_cases ran with ⟨⟨name, _⟩, _, naming, placing⟩ | ⟨_, naming, rfl⟩
      case inr =>
        obtain ⟨_, naming⟩ := Stateful.mapError_error naming
        rw [← nameInBlock_error naming]
        exact .nothing
      obtain ⟨block, names, found, rfl, issued, rfl⟩ :=
        nameInBlock_ok (Stateful.mapError_ok naming)
      rcases Stateful.bind_cases placing with ⟨handler, _, added, joining⟩ | ⟨_, added, rfl⟩
      case inr =>
        rw [← Stateful.change_error added]
        exact .named issued
      obtain ⟨other, there, unlocked, later, empty, rfl, rfl⟩ := addPhi_ok added
      have sameBlock : some other = some block := there.symm.trans found
      cases sameBlock
      have sound := PhiInstruction.sound_nil first.2.ty (Value.fromRegister name first.2.ty)
      have placed {outcome after}
          (ran : addBranches ⟨block.phis.length, id⟩ (first :: branches)
            ((ctx.setNames block.funcId names).modifyBlock id (·.pushPhi
              ⟨[], [], first.2.ty, Value.fromRegister name first.2.ty⟩)) = (outcome, after)) :
          Effect ctx (.buildPhi id (first :: branches) reg) after := by
        obtain ⟨phi, rfl, sound, sameTy, sameValue, taken⟩ := addBranches_cases there sound ran
        have value : phi.value = Value.fromRegister name phi.refTy := by
          rw [sameValue, sameTy]
        exact .placed (List.cons_ne_nil _ _) found unlocked later empty issued value sound
          fun branch member => (taken branch member).resolve_left (List.not_mem_nil)
      rcases Stateful.bind_cases joining with ⟨_, _, joined, done⟩ | ⟨_, joined, rfl⟩
      · cases done
        exact placed joined
      · exact placed joined

/-- What defining a function does. -/
theorem effect_of_defineFunction
    (ran : defineFunction name params result ctx = (outcome, after)) :
    Effect ctx (.defineFunction name params result) after := by
  rcases Stateful.bind_cases ran with ⟨_, _, reading, rest⟩ | ⟨_, reading, rfl⟩
  case inr =>
    obtain ⟨_, rfl⟩ := Stateful.read_cases reading
    exact .nothing
  obtain ⟨looked, rfl⟩ := Stateful.read_cases reading
  obtain ⟨_, new, checked⟩ := Attempt.bind_eq_ok.mp looked
  have new := Option.isNone_iff_eq_none.mp (Attempt.require_eq_ok.mp new)
  rcases Stateful.bind_cases rest with ⟨_, _, allocated, naming⟩ | ⟨_, absurd, rfl⟩
  case inr => cases absurd
  cases allocated
  rcases Stateful.bind_cases naming with ⟨vals, between, named, entering⟩ | ⟨_, stopped, rfl⟩
  case inr => exact .allocated stopped
  cases entering
  exact .entered new checked named

/-- A call has one of the effects listed. -/
theorem effect_of_perform
    {call : Call}
    (ran : call.perform ctx = (outcome, after)) :
    Effect ctx call after := by
  cases call with
  | addBasicBlock func name =>
      rcases Stateful.bind_cases ran with ⟨_, _, added, done⟩ | ⟨_, added, rfl⟩
      · have added := Stateful.change_ok (Stateful.mapError_ok added)
        obtain ⟨function, found, added⟩ := Attempt.bind_eq_ok.mp added
        obtain ⟨_, new, added⟩ := Attempt.bind_eq_ok.mp added
        cases added
        cases done
        exact .opened (Attempt.orPanic_eq_ok.mp found) (Attempt.require_eq_ok.mp new)
      · obtain ⟨_, added⟩ := Stateful.mapError_error added
        rw [← Stateful.change_error added]
        exact .nothing
  | declareGlobalVariable name ty initializer =>
      cases outcome with
      | ok _ =>
          have declared := Stateful.change_ok (Stateful.mapError_ok ran)
          obtain ⟨_, new, declared⟩ := Attempt.bind_eq_ok.mp declared
          obtain ⟨finalTy, checked, declared⟩ := Attempt.bind_eq_ok.mp declared
          cases declared
          exact .declared (Option.isNone_iff_eq_none.mp (Attempt.require_eq_ok.mp new)) checked
      | error _ =>
          obtain ⟨_, failed⟩ := Stateful.mapError_error ran
          rw [← Stateful.change_error failed]
          exact .nothing
  | declareFunction name params result =>
      cases outcome with
      | ok _ =>
          have declared := Stateful.change_ok (Stateful.mapError_ok ran)
          obtain ⟨_, new, declared⟩ := Attempt.bind_eq_ok.mp declared
          obtain ⟨_, checked, declared⟩ := Attempt.bind_eq_ok.mp declared
          cases declared
          exact .imported (Option.isNone_iff_eq_none.mp (Attempt.require_eq_ok.mp new)) checked
      | error _ =>
          obtain ⟨_, failed⟩ := Stateful.mapError_error ran
          rw [← Stateful.change_error failed]
          exact .nothing
  | defineFunction name params result =>
      rcases Stateful.bind_cases ran with ⟨_, _, defined, done⟩ | ⟨_, defined, rfl⟩
      · cases done
        exact effect_of_defineFunction (Stateful.mapError_ok defined)
      · obtain ⟨_, defined⟩ := Stateful.mapError_error defined
        exact effect_of_defineFunction defined
  | buildPhi block branches reg =>
      rcases Stateful.bind_cases ran with ⟨_, _, built, done⟩ | ⟨_, built, rfl⟩
      · cases done
        exact effect_of_buildPhi (Stateful.mapError_ok built)
      · obtain ⟨_, built⟩ := Stateful.mapError_error built
        exact effect_of_buildPhi built
  | addBranch phi branch =>
      cases outcome with
      | ok _ =>
          obtain ⟨_, _, found, there, takes, rfl⟩ := addBranch_ok (Stateful.mapError_ok ran)
          exact .joined found there takes
      | error _ =>
          obtain ⟨_, failed⟩ := Stateful.mapError_error ran
          rw [← Stateful.change_error failed]
          exact .nothing
  | build block call =>
      rcases Stateful.bind_cases ran with ⟨_, _, built, done⟩ | ⟨_, built, rfl⟩
      · cases done
        exact effect_of_run (Stateful.mapError_ok built)
      · obtain ⟨_, built⟩ := Stateful.mapError_error built
        exact effect_of_run built

end Calls

end Llvm
end TraceWasm
