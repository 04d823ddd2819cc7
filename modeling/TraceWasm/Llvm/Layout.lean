import TraceWasm.Foundation.Returns
import TraceWasm.Llvm.Effects

/-!
# The layout of a graph

Which blocks belong to which function, and how a block ends.
-/

namespace TraceWasm
namespace Llvm

/-! ## How a block ends -/

/-- Only the last instruction is a terminator, and the block is locked exactly when
it has one. Phis are for blocks that can be branched to. -/
structure BasicBlock.Sealed (block : BasicBlock) : Prop where
  last : ∀ instr ∈ block.instructions.dropLast, instr.kind.isTerminator = false
  locked : block.isLocked = true ↔
    ∃ instr ∈ block.instructions, instr.kind.isTerminator = true
  phis : block.phis ≠ [] → block.isFirst = false

namespace BasicBlock

variable {block : BasicBlock}

/-- A sealed block that is not locked has no terminator. -/
theorem Sealed.plain
    (ends : block.Sealed) (unlocked : block.isLocked = false) :
    ∀ instr ∈ block.instructions, instr.kind.isTerminator = false := by
  intro instr member
  by_contra terminator
  have locked := ends.locked.mpr ⟨instr, member, by simpa using terminator⟩
  rw [unlocked] at locked
  cases locked

/-- In a sealed block a terminator is the last instruction. -/
theorem Sealed.terminator_last
    {i : Nat}
    (ends : block.Sealed) (there : block.instructions[i]? = some instr)
    (terminator : instr.kind.isTerminator = true) :
    i + 1 = block.instructions.length := by
  have inside := (List.getElem?_eq_some_iff.mp there).1
  by_contra earlier
  have member : instr ∈ block.instructions.dropLast := by
    apply List.mem_of_getElem? (i := i)
    rw [List.dropLast_eq_take, List.getElem?_take_of_lt (by omega)]
    exact there
  rw [ends.last instr member] at terminator
  cases terminator

/-- An instruction that is not a terminator keeps an open block sealed. -/
theorem Sealed.push
    (ends : block.Sealed) (unlocked : block.isLocked = false)
    (plain : kind.isTerminator = false) :
    (block.pushInstruction ⟨kind, value⟩).Sealed where
  last := by
    simp only [pushInstruction, List.dropLast_concat]
    exact ends.plain unlocked
  locked := by
    simp only [pushInstruction, unlocked, List.mem_append, List.mem_singleton]
    constructor
    · intro absurd
      cases absurd
    · rintro ⟨other, member | rfl, terminator⟩
      · rw [ends.plain unlocked other member] at terminator
        cases terminator
      · rw [plain] at terminator
        cases terminator
  phis := ends.phis

/-- A terminator that locks the block keeps it sealed. -/
theorem Sealed.finish
    (ends : block.Sealed) (unlocked : block.isLocked = false)
    (terminator : kind.isTerminator = true) :
    (block.pushInstruction ⟨kind, value⟩).lock.Sealed where
  last := by
    simp only [pushInstruction, lock, List.dropLast_concat]
    exact ends.plain unlocked
  locked := by
    simp only [pushInstruction, lock, true_iff]
    exact ⟨_, List.mem_append_right _ (List.mem_singleton_self _), terminator⟩
  phis := ends.phis

/-- A phi keeps a block that is not the entry sealed. -/
theorem Sealed.pushPhi
    (ends : block.Sealed) (later : block.isFirst = false) :
    (block.pushPhi phi).Sealed where
  last := ends.last
  locked := ends.locked
  phis := fun _ => later

/-- A change of a phi keeps a block sealed. -/
theorem Sealed.modifyPhi
    (ends : block.Sealed) (index : Nat) (alter : PhiInstruction → PhiInstruction) :
    (block.modifyPhi index alter).Sealed where
  last := ends.last
  locked := ends.locked
  phis := by
    intro some
    apply ends.phis
    intro none
    simp [BasicBlock.modifyPhi, none] at some

end BasicBlock

/-! ## What the checks settle -/

/-- Only a terminator is written so that it ends the block. -/
def Write.Fits : Write → Prop
  | .define kind _ _ => kind.isTerminator = false
  | .append kind => kind.isTerminator = false
  | .terminate kind => kind.isTerminator = true

/-- What a call of the cursor writes ends the block exactly if it is a terminator. -/
theorem fits_of_write
    {ctx : Context} {id : BasicBlockId} (call : CursorCall) :
    (call.write ctx id).Returns Write.Fits := by
  cases call with
  | store ptr value ty align =>
      simp only [CursorCall.write, buildStore, Attempt.returns_bind, Attempt.returns_require]
      intro _ _ _ _ _ pointee _
      cases pointee <;> simp [Write.Fits, InstructionKind.isTerminator]
  | getElementPtr ptr sourceTy indices inbounds reg =>
      simp only [CursorCall.write, buildGetElementPtr, Attempt.returns_bind,
        Attempt.returns_require]
      intro _ _ _ _ _ _ _
      split <;> simp [Write.Fits, InstructionKind.isTerminator]
  | _ =>
      simp [CursorCall.write, buildUnconditionalBr, buildConditionalBr, buildRet, buildSwitch,
        buildUnreachable, buildAlloca, buildLoad, buildCall, buildVoidCall, buildIcmp,
        buildIbinop, buildFcmp, buildFbinop, buildFneg, buildCast, buildSelect, Write.Fits,
        InstructionKind.isTerminator]

/-! ## Which blocks a function has -/

/-- What a block keeps from its creation on. -/
structure Header where
  name : String
  funcId : FuncId
  isFirst : Bool

/-- What stays of a block whatever is added to it. -/
def BasicBlock.header (self : BasicBlock) : Header :=
  ⟨self.name, self.funcId, self.isFirst⟩

/-- The header of the block with an id. -/
def Context.header (self : Context) (id : BasicBlockId) : Option Header :=
  (self.blocks[id]?).map BasicBlock.header

/-- The labels of the blocks, in the order of their creation. -/
def Context.labels (self : Context) (func : Function) : List String :=
  func.blocks.filterMap fun id => (self.header id).map (·.name)

/-- A block is listed once, by the function that it belongs to, under its own label. -/
structure Context.Linked (ctx : Context) : Prop where
  owned : ∀ {f : FuncId} {func : Function} {id : BasicBlockId},
    ctx.funcs[f]? = some func → id ∈ func.blocks →
    ∃ header, ctx.header id = some header ∧ header.funcId = f
  listed : ∀ {id header}, ctx.header id = some header →
    ∃ func, ctx.funcs[header.funcId]? = some func ∧ id ∈ func.blocks ∧
      (header.isFirst = true ↔ func.blocks.head? = some id)
  ordered : ∀ {f : FuncId} {func : Function}, ctx.funcs[f]? = some func →
    func.blocks.Pairwise (· < ·)
  labels : ∀ {f : FuncId} {func : Function}, ctx.funcs[f]? = some func →
    ctx.labels func = func.blockNames.reverse
  distinct : ∀ {f : FuncId} {func : Function}, ctx.funcs[f]? = some func →
    func.blockNames.Nodup

/-- What a call may make of the blocks and the functions. -/
inductive Reshape (ctx : Context) (call : Call) (after : Context) : Prop where
  | same
      (blocks : after.blocks = ctx.blocks)
      (funcs : after.funcs = ctx.funcs)
  /-- A block is written to. -/
  | rewritten (id : BasicBlockId) (alter : BasicBlock → BasicBlock)
      (blocks : after.blocks = ctx.blocks.modify id alter)
      (funcs : after.funcs = ctx.funcs)
      (header : ∀ block, (alter block).header = block.header)
  | opened (id : FuncId) (name : String) (func : Function)
      (called : call = .addBasicBlock id name)
      (found : ctx.funcs[id]? = some func)
      (new : name ∉ func.blockNames)
      (blocks : after.blocks =
        ctx.blocks ++ [⟨name, func.blocks.isEmpty, id, [], [], false⟩])
      (funcs : after.funcs = ctx.funcs.modify id (·.pushBlock ctx.blocks.length name))
  | function (func : Function)
      (empty : func.blocks = [])
      (unnamed : func.blockNames = [])
      (blocks : after.blocks = ctx.blocks)
      (funcs : after.funcs = ctx.funcs ++ [func])

namespace Context

variable {self : Context}

@[simp] theorem setNames_self : self.setNames f (self.regNameAssigner f) = self := by
  simp [setNames]

@[simp] theorem setNames_setNames : (self.setNames f a).setNames f b = self.setNames f b := by
  simp [setNames]

end Context

/-- Naming parameters issues names to the function, and nothing else. -/
theorem nameParams_frame
    {ctx after : Context}
    (ran : nameParams f params ctx = (outcome, after)) :
    ∃ names, after = ctx.setNames f names := by
  induction params generalizing ctx outcome with
  | nil =>
      cases ran
      exact ⟨_, Context.setNames_self.symm⟩
  | cons param params inductionHypothesis =>
      obtain ⟨ty, reg⟩ := param
      rcases Stateful.bind_cases ran with ⟨name, between, named, rest⟩ | ⟨_, named, rfl⟩
      · obtain ⟨names, _, rfl⟩ := nameForReg_ok named
        have framed {outcome}
            (ran : nameParams f params (ctx.setNames f names) = (outcome, after)) :
            ∃ names, after = ctx.setNames f names := by
          obtain ⟨further, rfl⟩ := inductionHypothesis ran
          exact ⟨further, Context.setNames_setNames⟩
        rcases Stateful.bind_cases rest with ⟨_, _, others, done⟩ | ⟨_, others, rfl⟩
        · cases done
          exact framed others
        · exact framed others
      · rw [← Stateful.change_error named]
        exact ⟨_, Context.setNames_self.symm⟩

/-- A function that is defined comes behind those that were there. -/
theorem Context.funcs_entered
    {ctx : Context} :
    (((ctx.alloc name).setNames ctx.funcs.length names).enterFunction ctx.funcs.length
      name vals tys result).funcs =
        ctx.funcs ++ [Function.setSignature vals result ⟨name, [], .void, [], []⟩] := by
  simp [Context.enterFunction, Context.insertGlobal, Context.modifyFunc, Context.alloc,
    Context.setNames, List.modify_eq_take_cons_drop]

/-- What every call does to the blocks and the functions. -/
theorem Effect.reshape
    {ctx after : Context} {call : Call}
    (effect : Effect ctx call after) :
    Reshape ctx call after := by
  cases effect with
  | nothing => exact .same rfl rfl
  | named => exact .same rfl rfl
  | defined => exact .rewritten _ _ rfl rfl fun _ => rfl
  | appended => exact .rewritten _ _ rfl rfl fun _ => rfl
  | terminated => exact .rewritten _ _ rfl rfl fun _ => rfl
  | placed => exact .rewritten _ _ rfl rfl fun _ => rfl
  | joined => exact .rewritten _ _ rfl rfl fun _ => rfl
  | opened found new => exact .opened _ _ _ rfl found new rfl rfl
  | declared => exact .same rfl rfl
  | imported => exact .same rfl rfl
  | allocated stopped =>
      obtain ⟨names, rfl⟩ := nameParams_frame stopped
      exact .function _ rfl rfl rfl rfl
  | @entered name params result vals between new checked named =>
      obtain ⟨names, rfl⟩ := nameParams_frame named
      exact .function (Function.setSignature vals result ⟨name, [], .void, [], []⟩)
        rfl rfl rfl Context.funcs_entered

namespace Context

/-- The links depend on the headers and the functions only. -/
theorem Linked.of_same
    {ctx after : Context}
    (linked : ctx.Linked)
    (header : after.header = ctx.header) (funcs : after.funcs = ctx.funcs) :
    after.Linked where
  owned := by
    rw [header, funcs]
    exact linked.owned
  listed := by
    rw [header, funcs]
    exact linked.listed
  ordered := by
    rw [funcs]
    exact linked.ordered
  labels := by
    have same : after.labels = ctx.labels := by
      funext func
      simp only [Context.labels, header]
    intro f func found
    rw [funcs] at found
    rw [same]
    exact linked.labels found
  distinct := by
    rw [funcs]
    exact linked.distinct

/-- A change of a block that leaves its header leaves all headers. -/
theorem header_modify
    {ctx after : Context} {id : BasicBlockId} {alter : BasicBlock → BasicBlock}
    (blocks : after.blocks = ctx.blocks.modify id alter)
    (header : ∀ block, (alter block).header = block.header) :
    after.header = ctx.header := by
  funext i
  simp only [Context.header, blocks, List.getElem?_modify, Option.map_eq_map, Option.map_map]
  apply Option.map_congr
  intro block _
  simp only [Function.comp_apply]
  split
  · exact header block
  · rfl

/-- A block with a header is there. -/
theorem lt_of_header
    {ctx : Context} {id : BasicBlockId} {head : Header}
    (found : ctx.header id = some head) :
    id < ctx.blocks.length := by
  obtain ⟨block, there, _⟩ := Option.map_eq_some_iff.mp found
  exact (List.getElem?_eq_some_iff.mp there).1

/-- The blocks of a function are there. -/
theorem Linked.lt
    {ctx : Context} {id : BasicBlockId} {f : FuncId} {func : Function}
    (linked : ctx.Linked)
    (found : ctx.funcs[f]? = some func) (member : id ∈ func.blocks) :
    id < ctx.blocks.length := by
  obtain ⟨header, there, _⟩ := linked.owned found member
  exact lt_of_header there

section Opened

variable {ctx after : Context} {id f : FuncId} {func other : Function}

/-- A block that is added has its header, and the others keep theirs. -/
theorem header_opened
    (blocks : after.blocks = ctx.blocks ++ [block]) (i : Nat) :
    after.header i =
      if i = ctx.blocks.length then some block.header else ctx.header i := by
  unfold header
  rw [blocks]
  split
  case isTrue last => simp [last]
  case isFalse earlier =>
    by_cases before : i < ctx.blocks.length
    · rw [List.getElem?_append_left before]
    · rw [List.getElem?_eq_none (by simp; omega), List.getElem?_eq_none (by omega)]

/-- The functions after one of them got a block. -/
theorem funcs_opened
    (found : ctx.funcs[id]? = some func)
    (funcs : after.funcs = ctx.funcs.modify id alter)
    (there : after.funcs[f]? = some other) :
    (f = id ∧ other = alter func) ∨ (f ≠ id ∧ ctx.funcs[f]? = some other) := by
  rw [funcs, List.getElem?_modify] at there
  by_cases same : id = f
  · rw [← same, found] at there
    simp only [if_pos, Option.map_eq_map, Option.map_some, Option.some.injEq] at there
    exact .inl ⟨same.symm, there.symm⟩
  · simp only [if_neg same, Option.map_eq_map, Option.map_id'] at there
    exact .inr ⟨Ne.symm same, there⟩

/-- The function that gets a block is changed. -/
theorem funcs_opened_self
    (found : ctx.funcs[id]? = some func)
    (funcs : after.funcs = ctx.funcs.modify id alter) :
    after.funcs[id]? = some (alter func) := by
  rw [funcs, List.getElem?_modify_eq, found]
  rfl

/-- A block is the first one if the function had none. -/
theorem head?_pushBlock_new
    {n : BasicBlockId}
    (new : n ∉ func.blocks) :
    func.blocks.isEmpty = true ↔ (func.pushBlock n name).blocks.head? = some n := by
  unfold Function.pushBlock
  cases spelled : func.blocks with
  | nil => simp
  | cons first rest =>
      rw [spelled] at new
      simp only [List.isEmpty_cons, List.cons_append, List.head?_cons, Option.some.injEq,
        Bool.false_eq_true, false_iff]
      rintro rfl
      exact new List.mem_cons_self

/-- The first block stays the first one. -/
theorem head?_pushBlock
    {n : BasicBlockId}
    (some : func.blocks ≠ []) :
    (func.pushBlock n name).blocks.head? = func.blocks.head? := by
  unfold Function.pushBlock
  cases spelled : func.blocks with
  | nil => exact (some spelled).elim
  | cons first rest => rfl

/-- A block that is added to a function is linked to it. -/
theorem Linked.opened
    (linked : ctx.Linked)
    (found : ctx.funcs[id]? = some func) (new : name ∉ func.blockNames)
    (blocks : after.blocks = ctx.blocks ++ [⟨name, func.blocks.isEmpty, id, [], [], false⟩])
    (funcs : after.funcs = ctx.funcs.modify id (·.pushBlock ctx.blocks.length name)) :
    after.Linked := by
  have header := header_opened blocks
  have kept {i : Nat} (before : i < ctx.blocks.length) :
      after.header i = ctx.header i := by
    rw [header, if_neg (by omega)]
  have labelled {other : Function} (known : ∀ i ∈ other.blocks, i < ctx.blocks.length) :
      after.labels other = ctx.labels other := by
    apply List.filterMap_congr
    intro i member
    rw [kept (known i member)]
  constructor
  case owned =>
    intro f other i there member
    rcases funcs_opened found funcs there with ⟨rfl, rfl⟩ | ⟨_, there⟩
    · rcases List.mem_append.mp member with member | member
      · rw [kept (linked.lt found member)]
        exact linked.owned found member
      · rw [List.mem_singleton.mp member, header, if_pos rfl]
        exact ⟨_, rfl, rfl⟩
    · rw [kept (linked.lt there member)]
      exact linked.owned there member
  case listed =>
    intro i head there
    rw [header] at there
    split at there
    case isTrue last =>
      cases there
      refine ⟨_, funcs_opened_self found funcs, ?_, ?_⟩
      · rw [last]
        exact List.mem_append_right _ (List.mem_singleton_self _)
      · rw [last]
        exact head?_pushBlock_new fun member => (linked.lt found member).ne rfl
    case isFalse earlier =>
      obtain ⟨other, otherFound, member, first⟩ := linked.listed there
      by_cases same : id = head.funcId
      · rw [← same, found] at otherFound
        cases otherFound
        refine ⟨_, same ▸ funcs_opened_self found funcs, List.mem_append_left _ member, ?_⟩
        rw [first, head?_pushBlock (List.ne_nil_of_mem member)]
      · refine ⟨other, ?_, member, first⟩
        rw [funcs, List.getElem?_modify_ne _ _ same]
        exact otherFound
  case ordered =>
    intro f other there
    rcases funcs_opened found funcs there with ⟨rfl, rfl⟩ | ⟨_, there⟩
    · apply List.pairwise_append.mpr
      refine ⟨linked.ordered found, List.pairwise_singleton _ _, fun i member j last => ?_⟩
      rw [List.mem_singleton.mp last]
      exact linked.lt found member
    · exact linked.ordered there
  case labels =>
    intro f other there
    rcases funcs_opened found funcs there with ⟨rfl, rfl⟩ | ⟨_, there⟩
    · have labels := labelled fun i member => linked.lt found member
      have last := header ctx.blocks.length
      rw [if_pos rfl] at last
      simp only [Context.labels, Function.pushBlock, List.filterMap_append,
        List.filterMap_cons, List.filterMap_nil, last, List.reverse_cons] at labels ⊢
      rw [labels]
      exact congrArg (· ++ [name]) (linked.labels found)
    · rw [labelled fun i member => linked.lt there member]
      exact linked.labels there
  case distinct =>
    intro f other there
    rcases funcs_opened found funcs there with ⟨rfl, rfl⟩ | ⟨_, there⟩
    · exact List.nodup_cons.mpr ⟨new, linked.distinct found⟩
    · exact linked.distinct there

/-- The functions after one was added. -/
theorem funcs_function
    (funcs : after.funcs = ctx.funcs ++ [func])
    (there : after.funcs[f]? = some other) :
    ctx.funcs[f]? = some other ∨ other = func := by
  rw [funcs, List.getElem?_append] at there
  split at there
  case isTrue => exact .inl there
  case isFalse =>
    have last := (List.getElem?_eq_some_iff.mp there).2
    rw [List.getElem_singleton] at last
    exact .inr last.symm

/-- A function without blocks links none. -/
theorem Linked.function
    (linked : ctx.Linked)
    (empty : func.blocks = []) (unnamed : func.blockNames = [])
    (blocks : after.blocks = ctx.blocks) (funcs : after.funcs = ctx.funcs ++ [func]) :
    after.Linked := by
  have header : after.header = ctx.header := by
    funext i
    simp only [Context.header, blocks]
  have labelled : after.labels = ctx.labels := by
    funext other
    simp only [Context.labels, header]
  constructor
  case owned =>
    intro f other i there member
    rcases funcs_function funcs there with there | rfl
    · rw [header]
      exact linked.owned there member
    · rw [empty] at member
      exact (List.not_mem_nil member).elim
  case listed =>
    intro i head there
    rw [header] at there
    obtain ⟨other, found, member, first⟩ := linked.listed there
    refine ⟨other, ?_, member, first⟩
    rw [funcs, List.getElem?_append_left (List.getElem?_eq_some_iff.mp found).1]
    exact found
  case ordered =>
    intro f other there
    rcases funcs_function funcs there with there | rfl
    · exact linked.ordered there
    · rw [empty]
      exact List.Pairwise.nil
  case labels =>
    intro f other there
    rw [labelled]
    rcases funcs_function funcs there with there | rfl
    · exact linked.labels there
    · simp [Context.labels, empty, unnamed]
  case distinct =>
    intro f other there
    rcases funcs_function funcs there with there | rfl
    · exact linked.distinct there
    · rw [unnamed]
      exact List.nodup_nil

end Opened

/-- Every call keeps blocks and functions linked. -/
theorem Linked.reshape
    {ctx after : Context}
    (linked : ctx.Linked) (reshape : Reshape ctx call after) :
    after.Linked := by
  cases reshape with
  | same blocks funcs =>
      apply linked.of_same _ funcs
      funext i
      simp only [Context.header, blocks]
  | rewritten id alter blocks funcs header =>
      exact linked.of_same (header_modify blocks header) funcs
  | opened id name func _ found new blocks funcs =>
      exact linked.opened found new blocks funcs
  | function func empty unnamed blocks funcs =>
      exact linked.function empty unnamed blocks funcs

/-- In an empty context everything is linked. -/
theorem linked_new : Context.new.Linked where
  owned := fun found => by cases found
  listed := fun found => by cases found
  ordered := fun found => by cases found
  labels := fun found => by cases found
  distinct := fun found => by cases found

/-! ## Every block is sealed -/

/-- What holds of every element and of the changed one holds after the change. -/
theorem forall_mem_modify
    {α : Type} {values : List α} {i : Nat} {value : α} {alter : α → α} {P : α → Prop}
    (holds : ∀ value ∈ values, P value)
    (found : values[i]? = some value) (altered : P (alter value)) :
    ∀ other ∈ values.modify i alter, P other := by
  intro other member
  obtain ⟨j, there⟩ := List.mem_iff_getElem?.mp member
  rw [List.getElem?_modify] at there
  by_cases same : i = j
  · rw [← same, found] at there
    simp only [if_pos, Option.map_eq_map, Option.map_some, Option.some.injEq] at there
    exact there ▸ altered
  · simp only [if_neg same, Option.map_eq_map, Option.map_id'] at there
    exact holds other (List.mem_of_getElem? there)

/-- Every call keeps the blocks sealed. -/
theorem sealed_of_effect
    {ctx after : Context} {call : Call}
    (ends : ∀ block ∈ ctx.blocks, block.Sealed)
    (effect : Effect ctx call after) :
    ∀ block ∈ after.blocks, block.Sealed := by
  have at_ {id : BasicBlockId} {block : BasicBlock} (found : ctx.blocks[id]? = some block) :
      block.Sealed :=
    ends block (List.mem_of_getElem? found)
  cases effect with
  | nothing => exact ends
  | named => exact ends
  | defined checked found unlocked issued =>
      have plain := fits_of_write _ _ checked
      exact forall_mem_modify ends found ((at_ found).push unlocked plain)
  | appended checked found unlocked =>
      have plain := fits_of_write _ _ checked
      exact forall_mem_modify ends found ((at_ found).push unlocked plain)
  | terminated checked found unlocked =>
      have terminator := fits_of_write _ _ checked
      exact forall_mem_modify ends found ((at_ found).finish unlocked terminator)
  | placed given found unlocked later empty issued value sound =>
      exact forall_mem_modify ends found ((at_ found).pushPhi later)
  | joined found there takes =>
      exact forall_mem_modify ends found ((at_ found).modifyPhi _ _)
  | opened found new =>
      intro block member
      rcases List.mem_append.mp member with member | member
      · exact ends block member
      · rw [List.mem_singleton.mp member]
        exact ⟨by simp, by simp, by simp⟩
  | declared => exact ends
  | imported => exact ends
  | allocated stopped =>
      obtain ⟨names, rfl⟩ := nameParams_frame stopped
      exact ends
  | entered new checked named =>
      obtain ⟨names, rfl⟩ := nameParams_frame named
      exact ends

end Context

end Llvm
end TraceWasm
