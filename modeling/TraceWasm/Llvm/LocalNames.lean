import TraceWasm.Llvm.Consistency

/-!
# Local names

Labels and registers share the namespace of their function, but which names are taken
is recorded for each of the two apart. The local names are distinct as long as no call
gives a name that the other kind has.
-/

namespace TraceWasm
namespace Llvm

namespace Context

/-- The names that a block's text defines: its label, then its registers. -/
def localNamesIn (self : Context) (id : BasicBlockId) : List String :=
  match self.blocks[id]? with
  | none => []
  | some block => block.name :: block.registers

/-- The names that a function's text defines, in the order of their emission. -/
def localNames (self : Context) (f : FuncId) : List String :=
  match self.funcs[f]? with
  | none => []
  | some func => func.paramRegisters ++ func.blocks.flatMap self.localNamesIn

variable {ctx : Context} {f : FuncId} {func : Function}

/-- The local names of a block are its label and its registers. -/
theorem localNamesIn_eq (id : BasicBlockId) :
    ctx.localNamesIn id =
      ((ctx.header id).map (·.name)).toList ++ ctx.registersIn id := by
  unfold localNamesIn header registersIn
  cases ctx.blocks[id]? <;> rfl

/-- The local names of a function are its labels and its registers. -/
theorem localNames_perm
    (found : ctx.funcs[f]? = some func) :
    (ctx.localNames f).Perm (ctx.labels func ++ ctx.registers f) := by
  have split : (func.blocks.flatMap ctx.localNamesIn).Perm
      (ctx.labels func ++ func.blocks.flatMap ctx.registersIn) := by
    unfold labels
    rw [List.filterMap_eq_flatMap_toList, funext (@localNamesIn_eq ctx)]
    exact (List.flatMap_append_perm ..).symm
  unfold localNames
  rw [found, registers_of_some found]
  apply (split.append_left _).trans
  rw [← List.append_assoc, ← List.append_assoc]
  exact List.perm_append_comm.append_right _

/-- No register of a function has the name of a label. -/
def Apart (ctx : Context) : Prop :=
  ∀ f func, ctx.funcs[f]? = some func → ∀ name ∈ func.blockNames, name ∉ ctx.registers f

/-- Where labels and registers are apart no local name is taken twice. -/
theorem Apart.nodup
    (apart : ctx.Apart) (invariant : ctx.Invariant) (f : FuncId) :
    (ctx.localNames f).Nodup := by
  cases found : ctx.funcs[f]? with
  | none =>
      unfold localNames
      rw [found]
      exact List.nodup_nil
  | some func =>
      rw [(localNames_perm found).nodup_iff, invariant.linked.labels found]
      apply List.Nodup.append
      · exact List.nodup_reverse.mpr (invariant.linked.distinct found)
      · exact invariant.named.distinct f
      · intro name label register
        exact apart f func found name (List.mem_reverse.mp label) register

end Context

/-! ## Names for the other kind -/

section Runs

variable {ctx after : Context} {call : Call}

/-- The call gives no label the name of a register and no register the name of a label. -/
structure Call.SeparatesNames (ctx : Context) (call : Call) : Prop where
  label : ∀ f name, call = .addBasicBlock f name → name ∉ ctx.registers f
  register : ∀ id reg, call.Defines ctx id reg → ∀ block func,
    ctx.blocks[id]? = some block → ctx.funcs[block.funcId]? = some func →
      ∀ name, (ctx.regNameAssigner block.funcId).Due name reg → name ∉ func.blockNames

/-- A register's name is not added to a function that is not due it. -/
theorem Additions.notMem_registers
    {f : FuncId} {func : Function}
    (additions : Additions ctx call after)
    (found : ctx.funcs[f]? = some func) (free : name ∉ ctx.registers f)
    (notDue : ∀ id reg block, call.Defines ctx id reg → ctx.blocks[id]? = some block →
      block.funcId = f → ¬(ctx.regNameAssigner f).Due name reg) :
    name ∉ after.registers f := by
  cases additions with
  | none registers grows =>
      rw [registers]
      exact free
  | one id block reg given there defines due _ _ _ registers others grows issued =>
      by_cases same : block.funcId = f
      · rw [same] at registers due
        rw [registers.mem_iff, List.mem_cons, not_or]
        refine ⟨?_, free⟩
        rintro rfl
        exact notDue id reg block defines there same due
      · rw [others f (Ne.symm same)]
        exact free
  | params new _ _ _ _ absent _ _ distinct others grows issued =>
      have other : f ≠ new := by
        rintro rfl
        rw [absent] at found
        cases found
      rw [others f other]
      exact free

/-- A call that separates names keeps labels and registers apart. -/
theorem Context.Apart.effect
    (apart : ctx.Apart) (linked : ctx.Linked) (separates : call.SeparatesNames ctx)
    (effect : Effect ctx call after) :
    after.Apart := by
  have additions := effect.additions linked
  -- Labels that were there before: a register that is added does not take their names.
  have kept {f func name} (found : ctx.funcs[f]? = some func)
      (label : name ∈ func.blockNames) : name ∉ after.registers f := by
    apply additions.notMem_registers found (apart f func found name label)
    rintro id reg block defines there rfl due
    exact separates.register id reg defines block func there found name due label
  intro f func found name label
  cases effect.reshape with
  | same blocks funcs => exact kept (funcs ▸ found) label
  | rewritten id alter blocks funcs header => exact kept (funcs ▸ found) label
  | opened id new other called there absent blocks funcs =>
      rcases Context.funcs_opened there funcs found with ⟨rfl, rfl⟩ | ⟨_, found⟩
      · rcases List.mem_cons.mp label with rfl | label
        · subst called
          apply additions.notMem_registers there (separates.label f name rfl)
          exact fun _ _ _ defines => defines.elim
        · exact kept there label
      · exact kept found label
  | function other empty unnamed blocks funcs =>
      rcases Context.funcs_function funcs found with found | rfl
      · exact kept found label
      · rw [unnamed] at label
        exact (List.not_mem_nil label).elim

/-- The local names of every function are distinct, in every state of a run whose calls
keep labels and registers apart. -/
theorem local_names_distinct
    (runs : Runs (fun ctx call => call.SeparatesNames ctx) Context.new ctx) (f : FuncId) :
    (ctx.localNames f).Nodup := by
  have holds : ctx.Invariant ∧ ctx.Apart := by
    apply runs.invariant
    · exact ⟨Context.invariant_new, fun _ _ found => by cases found⟩
    · rintro before call next ⟨invariant, apart⟩ separates effect
      exact ⟨invariant.effect effect, apart.effect invariant.linked separates effect⟩
  exact holds.2.nodup holds.1 f

end Runs

/-- A function with a parameter and a variable, both unnamed. -/
theorem local_names_distinct_unnamed :
    ∃ ctx, performAll
      [.defineFunction "f" [(.i32, .unnamed)] .void, .addBasicBlock 0 "entry",
        .build 0 (.alloca .i32 none none .unnamed)] Context.new = some ctx ∧
      ctx.localNames 0 = ["0", "entry", "1"] ∧ (ctx.localNames 0).Nodup := by
  refine ⟨_, rfl, rfl, local_names_distinct ?_ 0⟩
  have defined := @Runs.perform (fun ctx call => call.SeparatesNames ctx) _ _
    (.defineFunction "f" [(.i32, .unnamed)] .void) (.refl (a := Context.new))
    ⟨fun _ _ called => (by cases called), fun _ _ defines => defines.elim⟩ nofun
  have opened := @Runs.perform _ _ _ (.addBasicBlock 0 "entry") defined
    ⟨by
      rintro f name called
      cases called
      exact (by decide : "entry" ∉ ["0"]), fun _ _ defines => defines.elim⟩ nofun
  apply @Runs.perform _ _ _ (.build 0 (.alloca .i32 none none .unnamed)) opened
  · constructor
    · intro f name called
      cases called
    · rintro id reg ⟨rfl, ⟨kind, ty, checked⟩, _⟩ block func found there name due
      cases checked
      cases found
      cases there
      have next : name = toString 1 := due
      rw [next]
      exact (by decide : toString 1 ∉ ["entry"])
  · nofun

/-- A variable that is named like the block it is in. -/
theorem label_and_register_collide :
    ¬∀ ctx, Reachable ctx → ∀ f, (ctx.localNames f).Nodup := by
  intro distinct
  have returns : (performAll
      [.defineFunction "f" [] .void, .addBasicBlock 0 "x",
        .build 0 (.alloca .i32 none none (.named "x"))] Context.new).isSome = true := rfl
  have ran := (Option.some_get returns).symm
  have apart : ["x", "x"].Nodup := distinct _ (runs_of_performAll ran) 0
  exact absurd apart (by decide)

end Llvm
end TraceWasm
