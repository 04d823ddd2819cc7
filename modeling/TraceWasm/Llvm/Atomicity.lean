import TraceWasm.Foundation.Loop
import TraceWasm.Llvm.Layout

/-!
# Refused calls

A call that reports an error leaves the graph as it was, but for two: a phi stays in
its block when one of its branches is refused, and a function stays allocated when one
of its parameters is not given a name.
-/

namespace TraceWasm
namespace Llvm

/-! ## What is left behind -/

/-- The block can take a phi. -/
structure BasicBlock.TakesPhi (block : BasicBlock) : Prop where
  unlocked : block.isLocked = false
  later : block.isFirst = false
  empty : block.instructions = []

/-- A phi of the type can have all the branches. -/
structure BranchesAgree (ty : Ty) (branches : List (BasicBlockId × Value)) : Prop where
  types : ∀ branch ∈ branches, branch.2.ty = ty
  distinct : (branches.map (·.1)).Nodup

/-- What is wrong with the call is found after it has changed the graph. -/
def Call.LeavesBehind (ctx : Context) : Call → Prop
  | .defineFunction name params result =>
      ctx.globals name = none ∧ (∀ param ∈ params, param.1.isFirstClass) ∧
        (result = .void ∨ result.isFirstClass) ∧ ∃ param ∈ params, ¬param.2.Legal
  | .buildPhi id (first :: branches) reg =>
      reg.Legal ∧ (∃ block, ctx.blocks[id]? = some block ∧ block.TakesPhi) ∧
        ¬BranchesAgree first.2.ty (first :: branches)
  | _ => False

/-- A signature is accepted if every parameter has a size and the result has one or is
`void`. -/
theorem requireSignature_eq_ok :
    requireSignature params result = .ok () ↔
      (∀ ty ∈ params, ty.isFirstClass) ∧ (result = .void ∨ result.isFirstClass) := by
  unfold requireSignature
  rw [Attempt.bind_eq_ok]
  constructor
  · rintro ⟨⟨⟩, sized, returnable⟩
    refine ⟨fun ty member => ?_, Attempt.require_eq_ok.mp returnable⟩
    exact Attempt.require_eq_ok.mp (Attempt.forM_eq_ok.mp sized ty member)
  · rintro ⟨sized, returnable⟩
    refine ⟨⟨⟩, ?_, Attempt.require_eq_ok.mpr returnable⟩
    exact Attempt.forM_eq_ok.mpr fun ty member => Attempt.require_eq_ok.mpr (sized ty member)

/-! ## Names do not show in the graph -/

section Names

/-- Naming a register leaves the graph. -/
theorem silent_nameForReg (reg : RegName) (func : FuncId) :
    Stateful.Silent Context.toGraph (nameForReg reg func) := by
  apply Stateful.silent_change
  intro ctx name after issued
  obtain ⟨_, _, same⟩ := Attempt.bind_eq_ok.mp issued
  cases same
  rfl

/-- So does naming one in a block's function. -/
theorem silent_nameInBlock (id : BasicBlockId) (reg : RegName) :
    Stateful.Silent Context.toGraph (nameInBlock id reg) := by
  apply (Stateful.silent_read _).seq
  intro func
  apply (silent_nameForReg reg func).seq
  intro name
  exact Stateful.silent_pure _

variable {ctx after : Context} {id : BasicBlockId}

/-- Only an illegal hint is refused as a name. -/
theorem nameForReg_refused
    (refused : nameForReg reg func ctx = (.error (.error reported), after)) :
    ¬reg.Legal := by
  have refused := Stateful.change_refused refused
  cases issued : (ctx.regNameAssigner func).nameFromHint reg with
  | ok _ =>
      rw [issued] at refused
      cases refused
  | error fault =>
      rw [issued] at refused
      cases refused
      exact FuncRegNameIndex.not_legal_of_refused issued

/-- The same in the function of a block. -/
theorem nameInBlock_refused
    (refused : nameInBlock id reg ctx = (.error (.error reported), after)) :
    ¬reg.Legal := by
  rcases Stateful.bind_cases refused with ⟨func, _, _, naming⟩ | ⟨_, reading, same⟩
  · rcases Stateful.bind_cases naming with ⟨_, _, _, done⟩ | ⟨_, naming, same⟩
    · cases done
    · cases same
      exact nameForReg_refused naming
  · cases same
    have looked := (Stateful.read_cases reading).1
    unfold Context.getBlock at looked
    cases found : ctx.blocks[id]? with
    | none =>
        rw [found] at looked
        cases looked
    | some block =>
        rw [found] at looked
        cases looked

/-- Parameters are refused for an illegal hint among them. -/
theorem nameParams_refused
    (refused : nameParams func params ctx = (.error (.error reported), after)) :
    ∃ param ∈ params, ¬param.2.Legal := by
  induction params generalizing ctx with
  | nil => cases refused
  | cons param params inductionHypothesis =>
      obtain ⟨ty, reg⟩ := param
      rcases Stateful.bind_cases refused with ⟨_, between, _, rest⟩ | ⟨_, naming, same⟩
      · rcases Stateful.bind_cases rest with ⟨_, _, _, done⟩ | ⟨_, others, same⟩
        · cases done
        · cases same
          obtain ⟨param, member, illegal⟩ := inductionHypothesis others
          exact ⟨param, List.mem_cons_of_mem _ member, illegal⟩
      · cases same
        exact ⟨_, List.mem_cons_self, nameForReg_refused naming⟩

end Names

/-! ## Phis and their branches -/

section Phis

variable {ctx after : Context} {id : BasicBlockId} {block : BasicBlock}

/-- A block that takes a phi appends it. -/
theorem addPhi_of_takes
    (found : ctx.blocks[id]? = some block) (takes : block.TakesPhi)
    (phi : PhiInstruction) :
    BasicBlock.addPhi id phi ctx =
      (.ok ⟨block.phis.length, id⟩, ctx.modifyBlock id (·.pushPhi phi)) := by
  unfold BasicBlock.addPhi Stateful.change Context.getBlock Attempt.require
  simp [found, takes.unlocked, takes.later, takes.empty]

/-- A phi that takes a branch appends it. -/
theorem addBranch_of_takes
    {handler : PhiInstrHandler} {phi : PhiInstruction}
    (found : ctx.blocks[handler.block]? = some block)
    (there : block.phis[handler.index]? = some phi)
    (takes : phi.Takes branch) :
    handler.addBranch branch ctx =
      (.ok (), ctx.modifyBlock handler.block
        (·.modifyPhi handler.index (·.pushBranch branch))) := by
  unfold PhiInstrHandler.addBranch Stateful.change Context.getBlock Attempt.require
  simp [found, there, takes.1, takes.2]

/-- The block's last phi is given all branches if they agree. -/
theorem addBranches_of_agree
    {phi : PhiInstruction}
    (found : ctx.blocks[id]? = some block)
    (agree : BranchesAgree phi.refTy branches)
    (new : ∀ branch ∈ branches, branch.1 ∉ phi.blocks) :
    ∃ after, addBranches ⟨block.phis.length, id⟩ branches
      (ctx.modifyBlock id (·.pushPhi phi)) = (.ok (), after) := by
  induction branches generalizing phi with
  | nil => exact ⟨_, rfl⟩
  | cons branch branches inductionHypothesis =>
      have placed : (ctx.modifyBlock id (·.pushPhi phi)).blocks[id]? =
          some (block.pushPhi phi) := by
        simp [found]
      have last : (block.pushPhi phi).phis[block.phis.length]? = some phi :=
        List.getElem?_concat_length
      have takes : phi.Takes branch :=
        ⟨agree.types _ List.mem_cons_self, new _ List.mem_cons_self⟩
      have added := @addBranch_of_takes _ _ _ ⟨block.phis.length, id⟩ _ placed last takes
      rw [Context.modifyBlock_pushPhi found] at added
      obtain ⟨notAgain, distinct⟩ := List.nodup_cons.mp agree.distinct
      have others : BranchesAgree phi.refTy branches :=
        ⟨fun other member => agree.types other (List.mem_cons_of_mem _ member), distinct⟩
      have stillNew : ∀ other ∈ branches, other.1 ∉ (phi.pushBranch branch).blocks := by
        intro other member
        simp only [PhiInstruction.pushBranch, List.mem_cons, not_or]
        refine ⟨?_, new other (List.mem_cons_of_mem _ member)⟩
        intro same
        exact notAgain (List.mem_map.mpr ⟨other, member, same⟩)
      obtain ⟨after, rest⟩ := @inductionHypothesis (phi.pushBranch branch) others stillNew
      exact ⟨after, (Stateful.bind_of_ok added).trans rest⟩

/-- A phi that was placed shows. -/
theorem graph_ne_of_pushPhi
    (found : ctx.blocks[id]? = some block) (phi : PhiInstruction) :
    (ctx.modifyBlock id (·.pushPhi phi)).toGraph ≠ ctx.toGraph := by
  intro same
  have sameBlocks := congrArg (fun graph => graph.blocks[id]?.map (·.phis.length)) same
  simp [found, BasicBlock.pushPhi] at sameBlocks

end Phis

/-! ## Calls that change nothing -/

/-- An instruction is either placed, or the graph is left. -/
theorem atomic_addInstructionToBlock
    (kind : InstructionKind) (ty : Ty) (id : BasicBlockId) (reg : RegName) :
    Stateful.Atomic Context.toGraph (addInstructionToBlockAndGetValue kind ty id reg) := by
  apply ((silent_nameInBlock id reg).mapError _).bind
  intro named
  apply (Stateful.atomic_change _).bind
  exact fun index ctx => ⟨_, _, rfl⟩

/-- A write is refused before anything is written. -/
theorem atomic_carryOut (id : BasicBlockId) (write : Write) :
    Stateful.Atomic Context.toGraph (write.carryOut id) := by
  cases write with
  | define kind ty reg =>
      apply (atomic_addInstructionToBlock kind ty id reg).bind
      exact fun _ _ => ⟨_, _, rfl⟩
  | append kind =>
      apply (Stateful.atomic_change _).bind
      exact fun _ _ => ⟨_, _, rfl⟩
  | terminate kind =>
      apply (Stateful.atomic_change _).bind
      exact fun _ _ => ⟨_, _, rfl⟩

/-- So is whatever a call of the cursor builds. -/
theorem atomic_run (id : BasicBlockId) (call : CursorCall) :
    Stateful.Atomic Context.toGraph (call.run id) := by
  apply (Stateful.silent_read _).bind
  exact atomic_carryOut id

/-- The calls that check everything first. -/
def Call.ChecksFirst : Call → Prop
  | .defineFunction _ _ _ => False
  | .buildPhi _ _ _ => False
  | _ => True

/-- So is every call that checks before it writes. -/
theorem atomic_perform
    {call : Call}
    (checksFirst : call.ChecksFirst) :
    Stateful.Atomic Context.toGraph call.perform := by
  cases call with
  | addBasicBlock func name =>
      apply ((Stateful.atomic_change _).mapError _).bind
      exact fun _ _ => ⟨_, _, rfl⟩
  | declareGlobalVariable name ty initializer =>
      exact (Stateful.atomic_change _).mapError _
  | declareFunction name params result =>
      exact (Stateful.atomic_change _).mapError _
  | defineFunction name params result => exact checksFirst.elim
  | buildPhi id branches reg => exact checksFirst.elim
  | addBranch phi branch =>
      exact (Stateful.atomic_change _).mapError _
  | build id call =>
      apply ((atomic_run id call).mapError _).bind
      exact fun _ _ => ⟨_, _, rfl⟩

/-! ## Calls that change the graph first -/

section Late

variable {ctx after : Context} {id : BasicBlockId}

/-- A refused phi leaves the graph unless only its branches are wrong. -/
theorem buildPhi_kept_iff
    (refused : buildPhi id branches reg ctx = (.error (.error reported), after)) :
    after.toGraph = ctx.toGraph ↔ ¬(Call.buildPhi id branches reg).LeavesBehind ctx := by
  cases branches with
  | nil =>
      cases refused
      exact iff_of_true rfl fun left => left
  | cons first branches =>
      rcases Stateful.bind_cases refused with
        ⟨⟨name, func⟩, _, naming, placing⟩ | ⟨_, naming, same⟩
      case inr =>
        cases same
        obtain ⟨_, naming⟩ := Stateful.mapError_refused naming
        rw [← nameInBlock_error naming]
        exact iff_of_true rfl fun left => nameInBlock_refused naming left.1
      obtain ⟨block, names, found, rfl, issued, rfl⟩ :=
        nameInBlock_ok (Stateful.mapError_ok naming)
      have legal := FuncRegNameIndex.legal_of_due
        (FuncRegNameIndex.nameFromHint_eq_ok issued).1
      rcases Stateful.bind_cases placing with ⟨handler, _, added, joining⟩ | ⟨_, added, same⟩
      case inr =>
        cases same
        rw [← Stateful.change_error added]
        apply iff_of_true rfl
        rintro ⟨_, ⟨other, there, takes⟩, _⟩
        have there : (ctx.setNames block.funcId names).blocks[id]? = some other := there
        have accepted := (addPhi_of_takes there takes _).symm.trans added
        cases accepted
      obtain ⟨other, there, unlocked, later, empty, rfl, rfl⟩ := addPhi_ok added
      have takes : other.TakesPhi := ⟨unlocked, later, empty⟩
      rcases Stateful.bind_cases joining with ⟨_, _, _, done⟩ | ⟨_, joined, same⟩
      case inl => cases done
      cases same
      have sound := PhiInstruction.sound_nil first.2.ty (Value.fromRegister name first.2.ty)
      apply iff_of_false
      · obtain ⟨phi, rfl, _⟩ := addBranches_cases there sound joined
        exact graph_ne_of_pushPhi there phi
      · rw [not_not]
        refine ⟨legal, ⟨other, there, takes⟩, ?_⟩
        intro agree
        have free : ∀ branch ∈ first :: branches, branch.1 ∉ PhiInstruction.blocks
            ⟨[], [], first.2.ty, Value.fromRegister name first.2.ty⟩ :=
          fun _ _ => List.not_mem_nil
        obtain ⟨_, given⟩ := addBranches_of_agree there agree free
        rw [given] at joined
        cases joined

/-- A refused definition leaves the graph unless only a parameter's name is wrong. -/
theorem defineFunction_kept_iff
    (refused : defineFunction name params result ctx = (.error (.error reported), after)) :
    after.toGraph = ctx.toGraph ↔
      ¬(Call.defineFunction name params result).LeavesBehind ctx := by
  rcases Stateful.bind_cases refused with ⟨_, _, reading, rest⟩ | ⟨_, reading, same⟩
  case inr =>
    cases same
    obtain ⟨looked, rfl⟩ := Stateful.read_cases reading
    apply iff_of_true rfl
    rintro ⟨new, sized, returnable, _⟩
    have checked : requireSignature (params.map (·.1)) result = .ok () := by
      rw [requireSignature_eq_ok, List.forall_mem_map]
      exact ⟨sized, returnable⟩
    have passed : requireNewGlobal ctx name = .ok () := by
      unfold requireNewGlobal
      simp [Attempt.require, new]
    rw [passed, checked] at looked
    cases looked
  obtain ⟨looked, rfl⟩ := Stateful.read_cases reading
  obtain ⟨_, new, checked⟩ := Attempt.bind_eq_ok.mp looked
  have new := Option.isNone_iff_eq_none.mp (Attempt.require_eq_ok.mp new)
  have ⟨sized, returnable⟩ := requireSignature_eq_ok.mp checked
  rw [List.forall_mem_map] at sized
  rcases Stateful.bind_cases rest with ⟨_, _, allocated, naming⟩ | ⟨_, absurd, _⟩
  case inr => cases absurd
  cases allocated
  rcases Stateful.bind_cases naming with ⟨_, _, _, entering⟩ | ⟨_, naming, same⟩
  case inl => cases entering
  cases same
  apply iff_of_false
  · obtain ⟨names, rfl⟩ := nameParams_frame naming
    intro sameGraph
    have sameFuncs := congrArg (fun graph => graph.funcs.length) sameGraph
    simp [Context.setNames] at sameFuncs
  · rw [not_not]
    exact ⟨new, sized, returnable, nameParams_refused naming⟩

/-- A refused call leaves the graph as it was, unless it is one of those that change it
first. -/
theorem graph_kept_iff
    {call : Call}
    (refused : call.perform ctx = (.error (.error reported), after)) :
    after.toGraph = ctx.toGraph ↔ ¬call.LeavesBehind ctx := by
  have kept (checksFirst : call.ChecksFirst) : after.toGraph = ctx.toGraph :=
    atomic_perform checksFirst ctx _ after refused
  cases call with
  | defineFunction name params result =>
      rcases Stateful.bind_cases refused with ⟨_, _, _, done⟩ | ⟨_, defining, same⟩
      · cases done
      · cases same
        obtain ⟨_, defining⟩ := Stateful.mapError_refused defining
        exact defineFunction_kept_iff defining
  | buildPhi id branches reg =>
      rcases Stateful.bind_cases refused with ⟨_, _, _, done⟩ | ⟨_, building, same⟩
      · cases done
      · cases same
        obtain ⟨_, building⟩ := Stateful.mapError_refused building
        exact buildPhi_kept_iff building
  | _ => exact iff_of_true (kept trivial) False.elim

end Late

/-- A function whose parameter has no legal name stays allocated. -/
theorem graph_kept_iff_illegal_parameter :
    (Call.perform (.defineFunction "f" [(.i32, .named "")] .void)
      Context.new).2.toGraph ≠ Context.new.toGraph := by
  intro kept
  have refused : Call.perform (.defineFunction "f" [(.i32, .named "")] .void)
      Context.new = (.error (.error (.context (.invalidRegisterName ""))), _) := rfl
  apply (@graph_kept_iff _ _ _ _ refused).mp kept
  have illegal : ¬isIdentifier "" = true := by decide
  exact ⟨rfl, by simp [Ty.isFirstClass], .inl rfl, _, List.mem_singleton_self _, illegal⟩

/-- A phi stays in its block when its second branch has another type. -/
theorem refused_phi_stays :
    ¬∀ (ctx after : Context) (call : Call) (reported : Refusal),
      Reachable ctx →
        Call.perform call ctx = (.error (.error reported), after) →
          after.toGraph = ctx.toGraph := by
  intro kept
  have returns : (performAll
      [.defineFunction "f" [] .void, .addBasicBlock 0 "entry", .addBasicBlock 0 "loop"]
      Context.new).isSome = true := rfl
  have ran := (Option.some_get returns).symm
  have reachable := runs_of_performAll ran
  have same := kept _ _
    (.buildPhi 1 [(0, .fromConstExpr (.const (.i32 0))), (1, .fromConstExpr (.const (.i64 0)))]
      .unnamed)
    (.phi (.phiInstructionBranchTypeMismatch .i32 .i64)) reachable rfl
  have sameLengths : [0, 1] = [0, 0] :=
    congrArg (fun graph => graph.blocks.map (·.phis.length)) same
  cases sameLengths

end Llvm
end TraceWasm
