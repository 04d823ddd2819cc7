import TraceWasm.Llvm.Consistency

/-!
# The numbers of unnamed registers

Numbers are drawn in the order of the calls, and written in the order of the blocks. The
two orders agree as long as no call goes back to a block before one that has an unnamed
register.
-/

namespace TraceWasm
namespace Llvm

/-- The numbers of the unnamed registers, in the order of their emission. -/
def Context.numbers (self : Context) (f : FuncId) : List Nat :=
  (self.registers f).filterMap number?

/-- In every function the numbers are strictly increasing. -/
def Context.Ordered (self : Context) : Prop :=
  ∀ f, (self.numbers f).Pairwise (· < ·)

/-- A number that has been handed out is below the next one. -/
theorem Context.numbers_lt
    {ctx : Context} {f : FuncId}
    (named : ctx.Named) (member : n ∈ ctx.numbers f) :
    n < (ctx.regNameAssigner f).unnamedIndex := by
  obtain ⟨name, defined, numbered⟩ := List.mem_filterMap.mp member
  exact FuncRegNameIndex.lt_of_issued (named.issued f name defined) numbered

/-- Parameters are numbered from the count on, in their order. -/
theorem nameParams_ordered
    {ctx after : Context}
    (ran : nameParams f params ctx = (.ok vals, after)) :
    ((vals.filterMap (·.register?)).filterMap number?).Pairwise (· < ·) ∧
      ∀ n ∈ (vals.filterMap (·.register?)).filterMap number?,
        (ctx.regNameAssigner f).unnamedIndex ≤ n := by
  induction params generalizing ctx vals with
  | nil =>
      cases ran
      exact ⟨List.Pairwise.nil, fun _ member => (List.not_mem_nil member).elim⟩
  | cons param params inductionHypothesis =>
      obtain ⟨ty, reg⟩ := param
      obtain ⟨name, _, named, rest⟩ := Stateful.bind_eq_ok ran
      obtain ⟨names, issued, rfl⟩ := nameForReg_ok named
      obtain ⟨others, _, naming, done⟩ := Stateful.bind_eq_ok rest
      cases done
      obtain ⟨ordered, fromCount⟩ := inductionHypothesis naming
      have sameNames : (ctx.setNames f names).regNameAssigner f = names :=
        Function.update_self ..
      rw [sameNames] at fromCount
      have counted := FuncRegNameIndex.unnamedIndex_le issued
      obtain ⟨due, nowIssued⟩ := FuncRegNameIndex.nameFromHint_eq_ok issued
      simp only [List.filterMap_cons, Value.register?_fromRegister]
      cases reg with
      | named hint =>
          rw [FuncRegNameIndex.number?_of_due_named due]
          exact ⟨ordered, fun n member => counted.trans (fromCount n member)⟩
      | unnamed =>
          have numbered := FuncRegNameIndex.number?_of_due_unnamed due
          have next := FuncRegNameIndex.lt_of_issued ((nowIssued name).mpr (.inl rfl)) numbered
          rw [numbered]
          constructor
          · apply List.pairwise_cons.mpr
            exact ⟨fun n member => next.trans_le (fromCount n member), ordered⟩
          · intro n member
            rcases List.mem_cons.mp member with rfl | member
            · exact Nat.le_refl _
            · exact counted.trans (fromCount n member)

section Runs

variable {ctx after : Context} {call : Call}

/-- If the call defines an unnamed register, the blocks of the function that were created
after its block have none. -/
def Call.KeepsOrder (ctx : Context) (call : Call) : Prop :=
  ∀ id block, call.Defines ctx id .unnamed → ctx.blocks[id]? = some block →
    ∀ later laterBlock, id < later → ctx.blocks[later]? = some laterBlock →
      laterBlock.funcId = block.funcId → ∀ name ∈ laterBlock.registers, number? name = none

/-- The numbers of the function after a register was added to one of its blocks. -/
theorem Context.numbers_added
    {id : BasicBlockId} {block : BasicBlock}
    (linked : ctx.Linked) (keeps : call.KeepsOrder ctx)
    (found : ctx.blocks[id]? = some block) (defines : call.Defines ctx id reg)
    (due : (ctx.regNameAssigner block.funcId).Due name reg)
    (funcs : after.funcs = ctx.funcs)
    (last : after.registersIn id = block.registers ++ [name])
    (elsewhere : ∀ other, other ≠ id → after.registersIn other = ctx.registersIn other) :
    after.numbers block.funcId =
      ctx.numbers block.funcId ++ (number? name).toList := by
  have headed : ctx.header id = some block.header := by
    unfold header
    rw [found]
    rfl
  obtain ⟨func, there, member, -⟩ := linked.listed headed
  have there : ctx.funcs[block.funcId]? = some func := there
  have thereAfter : after.funcs[block.funcId]? = some func := funcs ▸ there
  have ordered := linked.ordered there
  obtain ⟨earlier, later, spelled, before, now⟩ :=
    exists_flatMap_split (ordered.imp Nat.ne_of_lt) member fun other _ => elsewhere other
  unfold numbers
  rw [registers_of_some there, registers_of_some thereAfter, before, now, last,
    registersIn_of_some found]
  simp only [List.filterMap_append, List.append_assoc, List.append_cancel_left_eq,
    List.filterMap_cons, List.filterMap_nil]
  cases reg with
  | named hint =>
      rw [FuncRegNameIndex.number?_of_due_named due]
      simp
  | unnamed =>
      have none : (later.flatMap ctx.registersIn).filterMap number? = [] := by
        rw [List.filterMap_eq_nil_iff]
        intro other defined
        obtain ⟨place, listed, defined⟩ := List.mem_flatMap.mp defined
        rw [spelled] at ordered
        have isLater : id < place :=
          (List.pairwise_cons.mp (List.pairwise_append.mp ordered).2.1).1 place listed
        have owned : place ∈ func.blocks := by
          rw [spelled]
          exact List.mem_append_right _ (List.mem_cons_of_mem _ listed)
        obtain ⟨head, placed, owner⟩ := linked.owned there owned
        obtain ⟨laterBlock, laterFound, rfl⟩ := Option.map_eq_some_iff.mp placed
        rw [registersIn_of_some laterFound] at defined
        exact keeps id block defines found place laterBlock isLater laterFound owner other
          defined
      rw [none, FuncRegNameIndex.number?_of_due_unnamed due]
      rfl

/-- A call that keeps the order adds its registers behind those that are there. -/
theorem Context.Ordered.additions
    (ordered : ctx.Ordered) (linked : ctx.Linked) (named : ctx.Named)
    (keeps : call.KeepsOrder ctx) (additions : Additions ctx call after) :
    after.Ordered := by
  intro f
  have same (registers : after.registers f = ctx.registers f) :
      (after.numbers f).Pairwise (· < ·) := by
    unfold Context.numbers
    rw [registers]
    exact ordered f
  cases additions with
  | none registers grows => exact same (congrFun registers f)
  | one id block reg name found defines due funcs last elsewhere registers others _ _ =>
      by_cases other : f = block.funcId
      · rw [other, Context.numbers_added linked keeps found defines due funcs last elsewhere]
        apply List.pairwise_append.mpr
        refine ⟨ordered _, ?_, ?_⟩
        · cases number? name <;> simp
        · intro n member m next
          have numbered := Option.mem_toList.mp next
          cases reg with
          | named hint =>
              rw [FuncRegNameIndex.number?_of_due_named due] at numbered
              cases numbered
          | unnamed =>
              rw [FuncRegNameIndex.number?_of_due_unnamed due] at numbered
              cases numbered
              exact Context.numbers_lt named member
      · exact same (others f other)
  | params new params vals _ _ absent naming defined distinct others _ _ =>
      by_cases other : f = new
      · unfold Context.numbers
        rw [other, defined]
        exact (nameParams_ordered naming).1
      · exact same (others f other)

/-- The unnamed registers of every function are numbered in the order of their emission,
in every state of a run whose calls keep to the order of the blocks. -/
theorem numbers_increase
    (runs : Runs (fun ctx call => call.KeepsOrder ctx) Context.new ctx) (f : FuncId) :
    (ctx.numbers f).Pairwise (· < ·) := by
  have holds : ctx.Invariant ∧ ctx.Ordered := by
    apply runs.invariant
    · exact ⟨Context.invariant_new, fun _ => List.Pairwise.nil⟩
    · rintro before call next ⟨invariant, ordered⟩ keeps effect
      have additions := effect.additions invariant.linked
      exact ⟨invariant.effect effect,
        ordered.additions invariant.linked invariant.named keeps additions⟩
  exact holds.2 f

end Runs

/-- A function with a parameter and a variable in each of two blocks, all unnamed. -/
theorem numbers_increase_entry :
    ∃ ctx, performAll
      [.defineFunction "f" [(.i32, .unnamed)] .void, .addBasicBlock 0 "a",
        .addBasicBlock 0 "b", .build 0 (.alloca .i32 none none .unnamed),
        .build 1 (.alloca .i32 none none .unnamed)] Context.new = some ctx ∧
      ctx.numbers 0 = [0, 1, 2] ∧ (ctx.numbers 0).Pairwise (· < ·) := by
  refine ⟨_, rfl, rfl, numbers_increase ?_ 0⟩
  have defined := @Runs.perform (fun ctx call => call.KeepsOrder ctx) _ _
    (.defineFunction "f" [(.i32, .unnamed)] .void) (.refl (a := Context.new))
    (fun _ _ defines => defines.elim) nofun
  have first := @Runs.perform _ _ _ (.addBasicBlock 0 "a") defined
    (fun _ _ defines => defines.elim) nofun
  have second := @Runs.perform _ _ _ (.addBasicBlock 0 "b") first
    (fun _ _ defines => defines.elim) nofun
  have allocated := @Runs.perform _ _ _ (.build 0 (.alloca .i32 none none .unnamed)) second
    (by
      -- the second block is still empty
      rintro id block ⟨rfl, _⟩ _ later laterBlock isLater there _ name member
      have bound : later < 2 := (List.getElem?_eq_some_iff.mp there).1
      obtain rfl : later = 1 := Nat.le_antisymm (Nat.le_of_lt_succ bound) isLater
      cases there
      cases member)
    nofun
  apply @Runs.perform _ _ _ (.build 1 (.alloca .i32 none none .unnamed)) allocated
  · rintro id block ⟨rfl, _⟩ _ later laterBlock isLater there
    have bound : later < 2 := (List.getElem?_eq_some_iff.mp there).1
    exact absurd isLater (Nat.not_lt_of_ge (Nat.le_of_lt_succ bound))
  · nofun

/-- A variable of the second block, then one of the first. -/
theorem earlier_block_has_later_number :
    ¬∀ ctx, Reachable ctx → ∀ f, (ctx.numbers f).Pairwise (· < ·) := by
  intro increase
  have returns : (performAll
      [.defineFunction "f" [] .void, .addBasicBlock 0 "a", .addBasicBlock 0 "b",
        .build 1 (.alloca .i32 none none .unnamed),
        .build 0 (.alloca .i32 none none .unnamed)] Context.new).isSome = true := rfl
  have ran := (Option.some_get returns).symm
  have ordered : [1, 0].Pairwise (· < ·) :=
    increase _ (runs_of_performAll ran) 0
  exact absurd ordered (by decide)

end Llvm
end TraceWasm
