import TraceWasm.Foundation.Splice
import TraceWasm.Llvm.Layout

/-!
# The registers of a function

Parameters, phis and instructions define registers, in the order in which they are
emitted. A call adds at most one to the functions that exist, under a name that was not
issued before.
-/

namespace TraceWasm
namespace Llvm

/-- The registers that the phis and then the instructions define. -/
def BasicBlock.registers (self : BasicBlock) : List String :=
  self.phis.filterMap (·.value.register?) ++ self.instructions.filterMap (·.register?)

/-- The registers that the parameters are. -/
def Function.paramRegisters (self : Function) : List String :=
  self.params.filterMap (·.register?)

namespace Context

/-- The registers that a block of the context defines. -/
def registersIn (self : Context) (id : BasicBlockId) : List String :=
  ((self.blocks[id]?).map BasicBlock.registers).getD []

/-- The registers that the function defines, in the order of their emission. -/
def registers (self : Context) (f : FuncId) : List String :=
  match self.funcs[f]? with
  | none => []
  | some func => func.paramRegisters ++ func.blocks.flatMap self.registersIn

/-- The registers of a function are its parameters' and its blocks'. -/
theorem registers_of_some
    {self : Context} {f : FuncId} {func : Function}
    (found : self.funcs[f]? = some func) :
    self.registers f = func.paramRegisters ++ func.blocks.flatMap self.registersIn := by
  unfold registers
  rw [found]

/-- The registers of a block that is there. -/
theorem registersIn_of_some
    {self : Context} {id : BasicBlockId} {block : BasicBlock}
    (found : self.blocks[id]? = some block) :
    self.registersIn id = block.registers := by
  unfold registersIn
  rw [found]
  rfl

/-- The registers depend on the blocks and the functions only. -/
theorem registers_congr
    {ctx after : Context}
    (blocks : after.blocks = ctx.blocks) (funcs : after.funcs = ctx.funcs) :
    after.registers = ctx.registers := by
  funext f
  unfold registers registersIn
  rw [blocks, funcs]

/-! ## Writing into one block -/

section Rewritten

variable {ctx after : Context} {id : BasicBlockId} {block : BasicBlock}
  {alter : BasicBlock → BasicBlock}

/-- The registers of a block that is changed. -/
theorem registersIn_modify
    (found : ctx.blocks[id]? = some block)
    (blocks : after.blocks = ctx.blocks.modify id alter) :
    after.registersIn id = (alter block).registers := by
  apply registersIn_of_some
  rw [blocks, List.getElem?_modify_eq, found]
  rfl

/-- The other blocks keep theirs. -/
theorem registersIn_elsewhere
    {other : BasicBlockId}
    (blocks : after.blocks = ctx.blocks.modify id alter) (unlike : other ≠ id) :
    after.registersIn other = ctx.registersIn other := by
  unfold registersIn
  rw [blocks, List.getElem?_modify_ne _ _ (Ne.symm unlike)]

/-- A change that leaves the registers of a block leaves them all. -/
theorem registers_of_same
    (found : ctx.blocks[id]? = some block)
    (blocks : after.blocks = ctx.blocks.modify id alter)
    (funcs : after.funcs = ctx.funcs)
    (same : (alter block).registers = block.registers) :
    after.registers = ctx.registers := by
  have sameIn : after.registersIn = ctx.registersIn := by
    funext other
    by_cases this : other = id
    · rw [this, registersIn_modify found blocks, same, registersIn_of_some found]
    · exact registersIn_elsewhere blocks this
  funext f
  unfold registers
  rw [funcs, sameIn]

/-- Another function's registers are unaffected. -/
theorem registers_of_other
    (linked : ctx.Linked)
    (found : ctx.blocks[id]? = some block)
    (blocks : after.blocks = ctx.blocks.modify id alter)
    (funcs : after.funcs = ctx.funcs)
    (unlike : f ≠ block.funcId) :
    after.registers f = ctx.registers f := by
  unfold registers
  rw [funcs]
  cases there : ctx.funcs[f]? with
  | none => rfl
  | some func =>
      dsimp only
      apply congrArg (func.paramRegisters ++ ·)
      apply List.flatMap_congr
      intro other member
      apply registersIn_elsewhere blocks
      rintro rfl
      obtain ⟨head, headed, owner⟩ := linked.owned there member
      unfold header at headed
      rw [found] at headed
      cases headed
      exact unlike owner.symm

/-- The registers around those of one block of the function. -/
theorem registers_split
    (linked : ctx.Linked)
    (found : ctx.blocks[id]? = some block)
    (blocks : after.blocks = ctx.blocks.modify id alter)
    (funcs : after.funcs = ctx.funcs) :
    ∃ func earlier later, ctx.funcs[block.funcId]? = some func ∧
      func.blocks = earlier ++ id :: later ∧
      ctx.registers block.funcId = func.paramRegisters ++
        (earlier.flatMap ctx.registersIn ++
          (block.registers ++ later.flatMap ctx.registersIn)) ∧
      after.registers block.funcId = func.paramRegisters ++
        (earlier.flatMap ctx.registersIn ++
          ((alter block).registers ++ later.flatMap ctx.registersIn)) := by
  have headed : ctx.header id = some block.header := by
    unfold header
    rw [found]
    rfl
  obtain ⟨func, there, member, -⟩ := linked.listed headed
  have there : ctx.funcs[block.funcId]? = some func := there
  have distinct : func.blocks.Nodup := (linked.ordered there).imp Nat.ne_of_lt
  obtain ⟨earlier, later, spelled, flattened, flattenedAfter⟩ :=
    exists_flatMap_split distinct member fun other _ => registersIn_elsewhere blocks
  refine ⟨func, earlier, later, there, spelled, ?_, ?_⟩
  · rw [registers_of_some there, flattened, registersIn_of_some found]
  · have thereAfter : after.funcs[block.funcId]? = some func := funcs ▸ there
    rw [registers_of_some thereAfter, flattenedAfter, registersIn_modify found blocks]

/-- One more register in a block is one more in its function. -/
theorem registers_perm
    (linked : ctx.Linked)
    (found : ctx.blocks[id]? = some block)
    (blocks : after.blocks = ctx.blocks.modify id alter)
    (funcs : after.funcs = ctx.funcs)
    (more : (alter block).registers = block.registers ++ [name]) :
    (after.registers block.funcId).Perm (name :: ctx.registers block.funcId) := by
  obtain ⟨func, earlier, later, _, _, before, now⟩ :=
    registers_split linked found blocks funcs
  rw [before, now, more, ← List.append_assoc func.paramRegisters,
    ← List.append_assoc func.paramRegisters]
  have moved := ((List.perm_append_singleton name block.registers).append_right
    (later.flatMap ctx.registersIn)).append_left
      (func.paramRegisters ++ earlier.flatMap ctx.registersIn)
  exact moved.trans List.perm_middle

end Rewritten

/-- A new block defines no register. -/
theorem registers_opened
    {ctx : Context} {id : FuncId} {func : Function}
    (linked : ctx.Linked) (found : ctx.funcs[id]? = some func) :
    (ctx.addBlock id func name).registers = ctx.registers := by
  have earlier {i : Nat} (before : i < ctx.blocks.length) :
      (ctx.addBlock id func name).registersIn i = ctx.registersIn i := by
    unfold registersIn addBlock modifyFunc
    rw [List.getElem?_append_left before]
  have last : (ctx.addBlock id func name).registersIn ctx.blocks.length = [] := by
    simp [registersIn, addBlock, modifyFunc, BasicBlock.registers]
  funext f
  by_cases same : f = id
  · have opened : (ctx.addBlock id func name).funcs[f]? =
        some (func.pushBlock ctx.blocks.length name) := by
      rw [same]
      exact funcs_opened_self found rfl
    rw [registers_of_some opened, registers_of_some (same ▸ found)]
    apply congrArg (func.paramRegisters ++ ·)
    unfold Function.pushBlock
    rw [List.flatMap_append, List.flatMap_singleton, last, List.append_nil]
    exact List.flatMap_congr fun i member => earlier (linked.lt found member)
  · unfold registers
    have kept : (ctx.addBlock id func name).funcs[f]? = ctx.funcs[f]? :=
      List.getElem?_modify_ne _ _ (Ne.symm same)
    rw [kept]
    cases there : ctx.funcs[f]? with
    | none => rfl
    | some other =>
        apply congrArg (other.paramRegisters ++ ·)
        exact List.flatMap_congr fun i member => earlier (linked.lt there member)

/-- A new function has its parameters only. -/
theorem registers_function
    {ctx after : Context} {func : Function}
    (funcs : after.funcs = ctx.funcs ++ [func]) (blocks : after.blocks = ctx.blocks)
    (empty : func.blocks = []) :
    after.registers ctx.funcs.length = func.paramRegisters ∧
      ∀ f, f ≠ ctx.funcs.length → after.registers f = ctx.registers f := by
  constructor
  · have last : after.funcs[ctx.funcs.length]? = some func := by
      rw [funcs, List.getElem?_concat_length]
    rw [registers_of_some last, empty]
    simp
  · intro f earlier
    have kept : after.funcs[f]? = ctx.funcs[f]? := by
      rw [funcs, List.getElem?_append]
      split
      case isTrue => rfl
      case isFalse beyond =>
        rw [List.getElem?_eq_none (Nat.le_of_not_lt beyond)]
        apply List.getElem?_eq_none
        have past : ctx.funcs.length < f := lt_of_le_of_ne (Nat.le_of_not_lt beyond) earlier.symm
        rw [List.length_singleton]
        exact Nat.sub_pos_of_lt past
    unfold registers registersIn
    rw [kept, blocks]

end Context

/-! ## What a call adds -/

/-- The call has the block define a register, if its name is a legal one: the checks of
the call pass, and the block takes what is written. -/
def Call.Defines (ctx : Context) (id : BasicBlockId) (reg : RegName) :
    Call → Prop
  | .build place call =>
      place = id ∧ (∃ kind ty, call.write ctx id = .ok (.define kind ty reg)) ∧
        ∃ block, ctx.blocks[id]? = some block ∧ block.isLocked = false
  | .buildPhi place branches hint =>
      place = id ∧ hint = reg ∧ branches ≠ [] ∧
        ∃ block, ctx.blocks[id]? = some block ∧ block.isLocked = false ∧
          block.isFirst = false ∧ block.instructions = []
  | _ => False

/-- No name is withdrawn. -/
def Context.Grows (ctx after : Context) : Prop :=
  ∀ f name, (ctx.regNameAssigner f).Issued name → (after.regNameAssigner f).Issued name

/-- What a call may add to the registers of the functions. -/
inductive Additions (ctx : Context) (call : Call) (after : Context) : Prop where
  | none
      (registers : after.registers = ctx.registers)
      (grows : ctx.Grows after)
  | one (id : BasicBlockId) (block : BasicBlock) (reg : RegName) (name : String)
      (found : ctx.blocks[id]? = some block)
      (defines : call.Defines ctx id reg)
      (due : (ctx.regNameAssigner block.funcId).Due name reg)
      (funcs : after.funcs = ctx.funcs)
      (last : after.registersIn id = block.registers ++ [name])
      (elsewhere : ∀ other, other ≠ id → after.registersIn other = ctx.registersIn other)
      (registers :
        (after.registers block.funcId).Perm (name :: ctx.registers block.funcId))
      (others : ∀ f, f ≠ block.funcId → after.registers f = ctx.registers f)
      (grows : ctx.Grows after)
      (issued : (after.regNameAssigner block.funcId).Issued name)
  /-- The parameters of a new function. -/
  | params (f : FuncId) (params : List (Ty × RegName)) (vals : List Value)
      (before named : Context)
      (new : ctx.funcs[f]? = .none)
      (naming : nameParams f params before = (.ok vals, named))
      (defined : after.registers f = vals.filterMap (·.register?))
      (distinct : (after.registers f).Nodup)
      (others : ∀ g, g ≠ f → after.registers g = ctx.registers g)
      (grows : ctx.Grows after)
      (issued : ∀ name ∈ after.registers f, (after.regNameAssigner f).Issued name)

theorem Context.Grows.refl (ctx : Context) : ctx.Grows ctx :=
  fun _ _ issued => issued

theorem Context.Grows.trans
    {ctx between after : Context}
    (first : ctx.Grows between) (second : between.Grows after) :
    ctx.Grows after :=
  fun f name issued => second f name (first f name issued)

/-- Handing out a name keeps the names that are out. -/
theorem Context.grows_setNames
    {ctx : Context} {f : FuncId}
    (issued : (ctx.regNameAssigner f).nameFromHint reg = .ok (name, names)) :
    ctx.Grows (ctx.setNames f names) := by
  intro g other before
  unfold Context.setNames
  dsimp only
  by_cases same : g = f
  · rw [same, Function.update_self]
    rw [same] at before
    exact ((FuncRegNameIndex.nameFromHint_eq_ok issued).2 other).mpr (.inr before)
  · rw [Function.update_of_ne same]
    exact before

/-- A name that is handed out is out. -/
theorem Context.issued_setNames
    {ctx : Context} {f : FuncId}
    (issued : (ctx.regNameAssigner f).nameFromHint reg = .ok (name, names)) :
    ((ctx.setNames f names).regNameAssigner f).Issued name := by
  unfold Context.setNames
  dsimp only
  rw [Function.update_self]
  exact ((FuncRegNameIndex.nameFromHint_eq_ok issued).2 name).mpr (.inl rfl)

/-- Naming parameters keeps the names that are out. -/
theorem nameParams_grows
    {ctx after : Context}
    (ran : nameParams f params ctx = (outcome, after)) :
    ctx.Grows after := by
  induction params generalizing ctx outcome with
  | nil =>
      cases ran
      exact Context.Grows.refl _
  | cons param params inductionHypothesis =>
      obtain ⟨ty, reg⟩ := param
      rcases Stateful.bind_cases ran with ⟨name, between, named, rest⟩ | ⟨_, named, rfl⟩
      · obtain ⟨names, issued, rfl⟩ := nameForReg_ok named
        have grown := Context.grows_setNames issued
        rcases Stateful.bind_cases rest with ⟨_, _, others, done⟩ | ⟨_, others, rfl⟩
        · cases done
          exact grown.trans (inductionHypothesis others)
        · exact grown.trans (inductionHypothesis others)
      · rw [← Stateful.change_error named]
        exact Context.Grows.refl _

/-- Parameters get distinct names that were not issued before. -/
theorem nameParams_ok
    {ctx after : Context}
    (ran : nameParams f params ctx = (.ok vals, after)) :
    (vals.filterMap (·.register?)).Nodup ∧
      ∀ name ∈ vals.filterMap (·.register?),
        ¬(ctx.regNameAssigner f).Issued name ∧ (after.regNameAssigner f).Issued name := by
  induction params generalizing ctx vals with
  | nil =>
      cases ran
      exact ⟨List.nodup_nil, by simp⟩
  | cons param params inductionHypothesis =>
      obtain ⟨ty, reg⟩ := param
      obtain ⟨name, _, named, rest⟩ := Stateful.bind_eq_ok ran
      obtain ⟨names, issued, rfl⟩ := nameForReg_ok named
      obtain ⟨others, _, naming, done⟩ := Stateful.bind_eq_ok rest
      cases done
      obtain ⟨distinct, fresh⟩ := inductionHypothesis naming
      have grows := nameParams_grows naming
      have due := (FuncRegNameIndex.nameFromHint_eq_ok issued).1
      have grown := Context.grows_setNames issued
      have now := Context.issued_setNames issued
      simp only [List.filterMap_cons, Value.register?_fromRegister]
      refine ⟨List.nodup_cons.mpr ⟨fun member => (fresh name member).1 now, distinct⟩, ?_⟩
      intro other member
      rcases List.mem_cons.mp member with rfl | member
      · exact ⟨FuncRegNameIndex.not_issued_of_due due, grows f other now⟩
      · exact ⟨fun before => (fresh other member).1 (grown f other before),
          (fresh other member).2⟩

/-! ## The calls, one after another -/

namespace BasicBlock

/-- An instruction that defines a register adds it. -/
theorem registers_pushInstruction (name : String) (kind : InstructionKind) (ty : Ty)
    (block : BasicBlock) :
    (block.pushInstruction ⟨kind, some (Value.fromRegister name ty)⟩).registers =
      block.registers ++ [name] := by
  simp [registers, pushInstruction, Instruction.register?]

/-- A phi comes last as long as there are no instructions. -/
theorem registers_pushPhi {name : String} {phi : PhiInstruction} {block : BasicBlock}
    (empty : block.instructions = [])
    (value : phi.value = Value.fromRegister name phi.refTy) :
    (block.pushPhi phi).registers = block.registers ++ [name] := by
  simp [registers, pushPhi, empty, value]

/-- An instruction that defines none adds none. -/
theorem registers_plain (kind : InstructionKind) (block : BasicBlock) :
    (block.pushInstruction ⟨kind, none⟩).registers = block.registers := by
  simp [registers, pushInstruction, Instruction.register?]

theorem registers_lock (block : BasicBlock) : block.lock.registers = block.registers := rfl

theorem filterMap_modify
    {β : Type} {alter : α → α} {read : α → Option β} (same : ∀ x, read (alter x) = read x)
    (list : List α) (i : Nat) :
    (list.modify i alter).filterMap read = list.filterMap read := by
  induction list generalizing i with
  | nil => rw [List.modify_nil]
  | cons first rest inductionHypothesis =>
      cases i with
      | zero => simp only [List.modify_zero_cons, List.filterMap_cons, same]
      | succ i =>
          simp only [List.modify_succ_cons, List.filterMap_cons, inductionHypothesis]

/-- A branch of a phi adds none. -/
theorem registers_joined (index : Nat) (branch : BasicBlockId × Value) (block : BasicBlock) :
    (block.modifyPhi index (·.pushBranch branch)).registers = block.registers := by
  unfold registers modifyPhi
  have same : ∀ phi : PhiInstruction,
      (phi.pushBranch branch).value.register? = phi.value.register? := fun _ => rfl
  exact congrArg (· ++ _) (filterMap_modify same block.phis index)

end BasicBlock

section Effects

variable {ctx after : Context} {call : Call}

/-- A call adds at most one register, or the parameters of a new function. -/
theorem Effect.additions
    (linked : ctx.Linked) (effect : Effect ctx call after) :
    Additions ctx call after := by
  cases effect with
  | nothing => exact .none rfl (Context.Grows.refl _)
  | named issued => exact .none (Context.registers_congr rfl rfl) (Context.grows_setNames issued)
  | @defined id call kind ty reg block name names checked found unlocked issued =>
      have pushed := BasicBlock.registers_pushInstruction name kind ty block
      exact .one _ _ _ _ found ⟨rfl, ⟨_, _, checked⟩, _, found, unlocked⟩
        (FuncRegNameIndex.nameFromHint_eq_ok issued).1 rfl
        (pushed ▸ Context.registersIn_modify found rfl)
        (fun other unlike => Context.registersIn_elsewhere rfl unlike)
        (Context.registers_perm linked found rfl rfl pushed)
        (fun f unlike => Context.registers_of_other linked found rfl rfl unlike)
        (Context.grows_setNames issued) (Context.issued_setNames issued)
  | appended checked found unlocked =>
      exact .none (Context.registers_of_same found rfl rfl (BasicBlock.registers_plain _ _))
        (Context.Grows.refl _)
  | @terminated id call kind block checked found unlocked =>
      have plain := BasicBlock.registers_plain kind block
      rw [← BasicBlock.registers_lock] at plain
      exact .none (Context.registers_of_same found rfl rfl plain) (Context.Grows.refl _)
  | placed given found unlocked later empty issued value sound =>
      have pushed := BasicBlock.registers_pushPhi empty value
      exact .one _ _ _ _ found ⟨rfl, rfl, given, _, found, unlocked, later, empty⟩
        (FuncRegNameIndex.nameFromHint_eq_ok issued).1 rfl
        (pushed ▸ Context.registersIn_modify found rfl)
        (fun other unlike => Context.registersIn_elsewhere rfl unlike)
        (Context.registers_perm linked found rfl rfl pushed)
        (fun f unlike => Context.registers_of_other linked found rfl rfl unlike)
        (Context.grows_setNames issued) (Context.issued_setNames issued)
  | joined found there takes =>
      exact .none (Context.registers_of_same found rfl rfl (BasicBlock.registers_joined _ _ _))
        (Context.Grows.refl _)
  | opened found new =>
      exact .none (Context.registers_opened linked found) (Context.Grows.refl _)
  | declared => exact .none (Context.registers_congr rfl rfl) (Context.Grows.refl _)
  | imported => exact .none (Context.registers_congr rfl rfl) (Context.Grows.refl _)
  | @allocated name params result fault _ stopped =>
      have grows := nameParams_grows stopped
      obtain ⟨names, rfl⟩ := nameParams_frame stopped
      have funcs : ((ctx.alloc name).setNames ctx.funcs.length names).funcs =
          ctx.funcs ++ [⟨name, [], .void, [], []⟩] := rfl
      obtain ⟨last, others⟩ := Context.registers_function funcs rfl rfl
      refine .none ?_ grows
      funext f
      by_cases same : f = ctx.funcs.length
      · rw [same, last]
        simp [Context.registers, Function.paramRegisters]
      · exact others f same
  | @entered name params result vals between new checked named =>
      have grows := nameParams_grows named
      obtain ⟨distinct, fresh⟩ := nameParams_ok named
      have naming := named
      obtain ⟨names, rfl⟩ := nameParams_frame named
      obtain ⟨last, others⟩ := Context.registers_function Context.funcs_entered rfl rfl
      refine .params ctx.funcs.length _ _ _ _ (List.getElem?_eq_none (Nat.le_refl _))
        naming last ?_ others grows ?_
      · rw [last]
        exact distinct
      · rw [last]
        exact fun name member => (fresh name member).2

/-! ## Distinct names -/

/-- A function's registers are distinct, and all of their names are issued. -/
structure Context.Named (ctx : Context) : Prop where
  distinct : ∀ f, (ctx.registers f).Nodup
  issued : ∀ f, ∀ name ∈ ctx.registers f, (ctx.regNameAssigner f).Issued name

/-- What a call adds keeps the names distinct and handed out. -/
theorem Context.Named.additions
    (named : ctx.Named) (additions : Additions ctx call after) :
    after.Named := by
  cases additions with
  | none registers grows =>
      constructor
      · rw [registers]
        exact named.distinct
      · rw [registers]
        exact fun f name member => grows f name (named.issued f name member)
  | one id block reg name found defines due _ _ _ registers others grows issued =>
      constructor
      · intro f
        by_cases same : f = block.funcId
        · rw [same, registers.nodup_iff, List.nodup_cons]
          refine ⟨fun member => ?_, named.distinct block.funcId⟩
          exact FuncRegNameIndex.not_issued_of_due due (named.issued _ _ member)
        · rw [others f same]
          exact named.distinct f
      · intro f other member
        by_cases same : f = block.funcId
        · rw [same, registers.mem_iff] at member
          rw [same]
          rcases List.mem_cons.mp member with rfl | member
          · exact issued
          · exact grows _ _ (named.issued _ _ member)
        · rw [others f same] at member
          exact grows f other (named.issued f other member)
  | params f params vals _ _ new naming defined distinct others grows issued =>
      constructor
      · intro g
        by_cases same : g = f
        · exact same ▸ distinct
        · rw [others g same]
          exact named.distinct g
      · intro g other member
        by_cases same : g = f
        · rw [same] at member ⊢
          exact issued other member
        · rw [others g same] at member
          exact grows g other (named.issued g other member)

end Effects

/-- In an empty context no name is out. -/
theorem named_new : Context.new.Named where
  distinct := fun _ => List.nodup_nil
  issued := fun _ _ member => (List.not_mem_nil member).elim

end Llvm
end TraceWasm
