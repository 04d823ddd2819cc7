import TraceWasm.Instruction.Control
import TraceWasm.Runtime.Steps

/-!
# Bodies that execution leaves at their end

The driver goes on at the next instruction, at the target of a jump, or behind a call.
A body whose instructions lead into it again, but for the `End` that is its last one, is
one that no configuration of a call is ever outside of.
-/

namespace TraceWasm
namespace Machine

variable {memory registry : Type} (machine : Machine memory registry)
variable (module : machine.Code)

/-- Whatever the instance, execution stays in the body, or leaves it behind the `End` that
is its last instruction. -/
structure Closed (body : machine.Body) : Prop where
  nonempty : 0 < body.instructions.length
  next : ∀ (activation : machine.Activation) (pc : Nat) (inst : machine.State),
    activation.body = body →
    (machine.executeAt module activation pc inst).1 = .ok .next →
      pc + 1 < body.instructions.length ∨ pc + 1 = body.instructions.length ∧
        ∃ instr, body.instructions[pc]? = some instr ∧ machine.IsEnd instr
  jump : ∀ (activation : machine.Activation) (pc target : Nat) (inst : machine.State),
    activation.body = body →
    (machine.executeAt module activation pc inst).1 = .ok (.jumpTo target) →
      target < body.instructions.length
  call : ∀ (activation : machine.Activation) (pc : Nat) (inst : machine.State)
      (callee : FuncIndex) (base : machine.CallerBaseData) (isIndirect : Option Nat),
    activation.body = body →
    (machine.executeAt module activation pc inst).1 = .ok (.call callee base isIndirect) →
      pc + 1 < body.instructions.length

variable {machine module}

/-- Code whose jumps stay in it and that ends with an `End` is closed. -/
theorem closed_of_jumps
    {body : machine.Body} (control : machine.Instr → Control)
    (jumps : ∀ (base : machine.CallerBaseData) (inst : machine.State) (instr : machine.Instr)
      (target : Nat),
      (machine.execute module instr body.frameLayout base inst).1 = .ok (.jumpTo target) →
        target ∈ (control instr).targets)
    (inside : ∀ instr ∈ body.instructions, ∀ target ∈ (control instr).targets,
      target < body.instructions.length)
    (last : ∃ instr, body.instructions.getLast? = some instr ∧ machine.IsEnd instr) :
    machine.Closed module body := by
  obtain ⟨lastInstr, isLast, isEnd⟩ := last
  rw [List.getLast?_eq_getElem?] at isLast
  -- what executes is an instruction of the body
  have executes : ∀ (activation : machine.Activation) (pc : Nat) (inst : machine.State)
      (step : Step machine.CallerBaseData), activation.body = body →
      (machine.executeAt module activation pc inst).1 = .ok step →
        ∃ instr, body.instructions[pc]? = some instr ∧
          (machine.execute module instr body.frameLayout activation.callerBaseData inst).1 =
            .ok step := by
    intro activation pc inst step same executed
    unfold executeAt at executed
    rw [same] at executed
    cases found : body.instructions[pc]? with
    | none =>
        rw [found] at executed
        cases executed
    | some instr =>
        rw [found] at executed
        exact ⟨instr, rfl, executed⟩
  refine ⟨?_, ?_, ?_, ?_⟩
  · have := (List.getElem?_eq_some_iff.mp isLast).1
    omega
  · intro activation pc inst same executed
    obtain ⟨instr, found, _⟩ := executes activation pc inst _ same executed
    have below := (List.getElem?_eq_some_iff.mp found).1
    by_cases atEnd : pc + 1 = body.instructions.length
    · refine .inr ⟨atEnd, lastInstr, ?_, isEnd⟩
      rw [← isLast, ← atEnd, Nat.add_sub_cancel]
    · exact .inl (by omega)
  · intro activation pc target inst same executed
    obtain ⟨instr, found, executed⟩ := executes activation pc inst _ same executed
    exact inside instr (List.mem_of_getElem? found) target
      (jumps activation.callerBaseData inst instr target executed)
  · intro activation pc inst callee base isIndirect same executed
    obtain ⟨instr, found, executed⟩ := executes activation pc inst _ same executed
    have below := (List.getElem?_eq_some_iff.mp found).1
    by_contra outside
    have atEnd : pc = body.instructions.length - 1 := by omega
    rw [atEnd, isLast] at found
    obtain rfl := Option.some.inj found
    cases machine.executeEnd _ _ _ _ _ _ isEnd executed

/-- The running activation and its suspended callers are inside closed bodies. -/
def Inside (machine : Machine memory registry) (module : machine.Code)
    (c : machine.Configuration) : Prop :=
  (machine.Closed module c.activation.body → c.pc < c.activation.body.instructions.length) ∧
    ∀ frame ∈ c.frames, machine.Closed module frame.activation.body →
      frame.pc + 1 < frame.activation.body.instructions.length

section Step

variable {entry : FuncIndex} {resultsCount pc : Nat} {activation : machine.Activation}
  {frames : List machine.Frame} {inst : machine.State} {before after : machine.Configuration}

/-- Going on inside a body, or returning from it, stays inside. -/
theorem inside_of_advance
    (here : machine.Closed module activation.body →
      pc ≤ activation.body.instructions.length)
    (callers : ∀ frame ∈ frames, machine.Closed module frame.activation.body →
      frame.pc + 1 < frame.activation.body.instructions.length)
    (advanced : machine.advance resultsCount activation pc frames inst = .running after) :
    machine.Inside module after := by
  unfold advance at advanced
  split at advanced
  · cases frames with
    | nil =>
        dsimp only at advanced
        split at advanced <;> cases advanced
    | cons frame frames =>
        obtain ⟨first, others⟩ := List.forall_mem_cons.mp callers
        dsimp only at advanced
        split at advanced
        · cases advanced
          exact ⟨first, others⟩
        · cases advanced
  · rename_i notEnd
    cases advanced
    exact ⟨fun closed => Nat.lt_of_le_of_ne (here closed) notEnd, callers⟩

/-- Every step stays inside closed bodies. -/
theorem inside_of_next
    (inside : machine.Inside module before)
    (stepped : machine.next module entry resultsCount before = .running after) :
    machine.Inside module after := by
  unfold Machine.next at stepped
  generalize executed : machine.executeAt module before.activation before.pc before.inst =
    answer at stepped
  have isFirst := congrArg Prod.fst executed
  obtain ⟨step, inst⟩ := answer
  rcases step with (fault | _) | step
  · cases stepped
  · cases stepped
  · cases step with
    | next =>
        apply inside_of_advance ?_ inside.2 stepped
        intro closed
        rcases closed.next _ _ _ rfl isFirst with below | ⟨atEnd, _⟩ <;> omega
    | jumpTo target =>
        apply inside_of_advance ?_ inside.2 stepped
        intro closed
        exact (closed.jump _ _ _ _ rfl isFirst).le
    | call callee base isIndirect =>
        dsimp only at stepped
        split at stepped
        · cases stepped
        · split at stepped
          · cases stepped
          · cases stepped
            refine ⟨fun closed => closed.nonempty, ?_⟩
            intro frame member
            rcases List.mem_cons.mp member with rfl | member
            · intro closed
              have below := closed.call _ _ _ _ _ _ rfl isFirst
              exact (Nat.succ_le_succ (Nat.mod_le before.pc (2 ^ 32))).trans_lt below
            · exact inside.2 frame member

/-- In every configuration that a call comes to the driver is inside the running body, if
that is closed. -/
theorem During.inside
    {allowed : machine.Configuration → Prop} {func : FuncIndex} {params : List Val}
    {c : machine.Configuration}
    (during : machine.During module allowed func params resultsCount inst c)
    (closed : machine.Closed module c.activation.body) :
    c.pc < c.activation.body.instructions.length := by
  obtain ⟨activation, started, _, ran⟩ := during.ran
  have kept : machine.Inside module c := by
    apply ran.invariant
    · intro before after _ stepped inside
      exact inside_of_next inside stepped
    · refine ⟨fun closed => closed.nonempty, ?_⟩
      intro frame member
      cases member
  exact kept.1 closed

end Step

end Machine
end TraceWasm
