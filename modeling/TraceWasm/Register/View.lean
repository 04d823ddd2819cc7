import TraceWasm.Register.OperandStack

/-!
# The resolved operand stack

What an instruction would read for each entry of the simulated stack. Borrows
are gone from this view: an operand is a constant, a register, a local or a
spill slot, and a write to a local redirects every operand that is that local.
-/

namespace TraceWasm
namespace Register

/-- The resolved operands, the top one first. -/
abbrev View := List BackPatchableSlot

namespace View

/-- How many operands are in registers. -/
def registers (view : View) : Nat := view.countP BackPatchableSlot.isRegister

@[simp] theorem registers_cons_register (view : View) :
    registers (.register index :: view) = registers view + 1 :=
  List.countP_cons_of_pos rfl

@[simp] theorem registers_cons_const (view : View) :
    registers (.const constId :: view) = registers view :=
  List.countP_cons_of_neg (by simp [BackPatchableSlot.isRegister])

@[simp] theorem registers_cons_slot (view : View) :
    registers (.slot localIndex :: view) = registers view :=
  List.countP_cons_of_neg (by simp [BackPatchableSlot.isRegister])

/-- Registers are counted piece by piece. -/
theorem registers_append (first second : View) :
    registers (first ++ second) = registers first + registers second :=
  List.countP_append

theorem registers_take_add_drop (count : Nat) (view : View) :
    registers (view.take count) + registers (view.drop count) =
      registers view := by
  rw [← registers_append, List.take_append_drop]

/-- The registers, bottom to top, are consecutive from `base`. -/
def Consecutive (base : Nat) : View → Prop
  | [] => True
  | .register index :: view => index = base + registers view ∧ Consecutive base view
  | .const _ :: view => Consecutive base view
  | .spill _ :: view => Consecutive base view
  | .slot _ :: view => Consecutive base view

/-- Registers stay consecutive without the topmost operand. -/
theorem Consecutive.tail
    {view : View}
    (consecutive : Consecutive base (operand :: view)) :
    Consecutive base view := by
  cases operand with
  | register index => exact consecutive.2
  | const id => exact consecutive
  | spill spillIndex => exact consecutive
  | slot localIndex => exact consecutive

/-- A register lies above the base and below the registers counted so far. -/
theorem Consecutive.register_lt
    {view : View}
    (consecutive : Consecutive base view)
    (member : BackPatchableSlot.register index ∈ view) :
    base ≤ index ∧ index < base + registers view := by
  induction view with
  | nil => simp at member
  | cons operand view inductionHypothesis =>
      rcases List.mem_cons.mp member with rfl | member
      · have := consecutive.1
        rw [registers_cons_register]
        omega
      · have := inductionHypothesis consecutive.tail member
        have grows : registers view ≤ registers (operand :: view) :=
          (List.sublist_cons_self operand view).countP_le
        omega

/-- Registers `start`, `start + 1`, …, the last one on top. -/
def registerRun (start : Nat) : Nat → View
  | 0 => []
  | count + 1 => .register (start + count) :: registerRun start count

@[simp] theorem length_registerRun (start count : Nat) :
    (registerRun start count).length = count := by
  induction count with
  | zero => rfl
  | succ count inductionHypothesis => simp [registerRun, inductionHypothesis]

@[simp] theorem registers_registerRun (start count : Nat) :
    registers (registerRun start count) = count := by
  induction count with
  | zero => rfl
  | succ count inductionHypothesis => simp [registerRun, inductionHypothesis]

theorem registerRun_succ_append (start count : Nat) :
    registerRun (start + 1) count ++ [.register start] =
      registerRun start (count + 1) := by
  induction count with
  | zero => rfl
  | succ count inductionHypothesis =>
      rw [registerRun, List.cons_append, inductionHypothesis]
      simp only [registerRun, List.cons.injEq, BackPatchableSlot.register.injEq,
        and_true]
      omega

theorem mem_registerRun
    {operand : BackPatchableSlot} :
    operand ∈ registerRun start count ↔
      ∃ offset, offset < count ∧ operand = .register (start + offset) := by
  induction count with
  | zero => simp [registerRun]
  | succ count inductionHypothesis =>
      rw [registerRun, List.mem_cons, inductionHypothesis]
      constructor
      · rintro (rfl | ⟨offset, below, rfl⟩)
        · exact ⟨count, by omega, rfl⟩
        · exact ⟨offset, by omega, rfl⟩
      · rintro ⟨offset, below, rfl⟩
        by_cases last : offset = count
        · exact .inl (by rw [last])
        · exact .inr ⟨offset, by omega, rfl⟩

/-- Read a spill slot in place of a local. -/
def redirectSlot (localIndex spillIndex : Nat) :
    BackPatchableSlot → BackPatchableSlot
  | .slot index => if index = localIndex then .spill spillIndex else .slot index
  | operand => operand

theorem redirectSlot_slot :
    redirectSlot localIndex spillIndex (.slot index) =
      if index = localIndex then .spill spillIndex else .slot index := rfl

/-- The view once a local has moved to a spill slot. -/
def redirect (localIndex spillIndex : Nat) (view : View) : View :=
  view.map (redirectSlot localIndex spillIndex)

@[simp] theorem length_redirect (view : View) :
    (redirect localIndex spillIndex view).length = view.length :=
  List.length_map _

@[simp] theorem isRegister_redirectSlot (operand : BackPatchableSlot) :
    (redirectSlot localIndex spillIndex operand).isRegister =
      operand.isRegister := by
  cases operand with
  | slot index =>
      rw [redirectSlot_slot]
      split <;> rfl
  | _ => rfl

@[simp] theorem registers_redirect (view : View) :
    registers (redirect localIndex spillIndex view) = registers view := by
  unfold registers redirect
  rw [List.countP_map]
  exact List.countP_congr fun operand _ => by simp

/-- Redirecting a local keeps the registers consecutive. -/
theorem consecutive_redirect
    {view : View}
    (consecutive : Consecutive base view) :
    Consecutive base (redirect localIndex spillIndex view) := by
  induction view with
  | nil => exact consecutive
  | cons operand view inductionHypothesis =>
      have tail := inductionHypothesis consecutive.tail
      cases operand with
      | register index =>
          refine ⟨?_, tail⟩
          rw [consecutive.1]
          congr 1
          exact (registers_redirect view).symm
      | const id => exact tail
      | spill index => exact tail
      | slot index =>
          change Consecutive base
            (redirectSlot localIndex spillIndex (.slot index) ::
              redirect localIndex spillIndex view)
          rw [redirectSlot_slot]
          split <;> exact tail

theorem redirectSlot_eq_self
    {operand : BackPatchableSlot}
    (different : operand ≠ .slot localIndex) :
    redirectSlot localIndex spillIndex operand = operand := by
  cases operand with
  | slot index =>
      refine if_neg ?_
      rintro rfl
      exact different rfl
  | _ => rfl

/-- A local that is redirected is not seen any more. -/
theorem slot_notMem_redirect (view : View) :
    BackPatchableSlot.slot localIndex ∉ redirect localIndex spillIndex view := by
  intro member
  obtain ⟨operand, _, same⟩ := List.mem_map.mp member
  cases operand with
  | slot index =>
      rw [redirectSlot_slot] at same
      split at same
      · cases same
      · rename_i different
        cases same
        exact different rfl
  | _ => cases same

/-- A sequence of copies of locals to spill slots, each of which redirects the
operands that are the local to a slot that no operand is. -/
inductive Redirects : List (Nat × Nat) → View → View → Prop
  | nil (view : View) : Redirects [] view view
  | cons
      {view result : View} {localIndex spillIndex : Nat}
      {copies : List (Nat × Nat)}
      (borrowed : BackPatchableSlot.slot localIndex ∈ view)
      (fresh : BackPatchableSlot.spill spillIndex ∉ view)
      (rest : Redirects copies (redirect localIndex spillIndex view) result) :
      Redirects ((localIndex, spillIndex) :: copies) view result

/-- Redirections in a row. -/
theorem Redirects.append
    (first : Redirects copies view middle)
    (second : Redirects moreCopies middle result) :
    Redirects (copies ++ moreCopies) view result := by
  induction first with
  | nil => exact second
  | cons borrowed fresh rest inductionHypothesis =>
      exact .cons borrowed fresh (inductionHypothesis second)

theorem Redirects.length_eq
    (redirects : Redirects copies view result) :
    result.length = view.length := by
  induction redirects with
  | nil => rfl
  | cons borrowed fresh rest inductionHypothesis =>
      rw [inductionHypothesis, length_redirect]

/-- Redirection makes no operand a local. -/
theorem Redirects.slot_mem
    (redirects : Redirects copies view result)
    (member : BackPatchableSlot.slot localIndex ∈ result) :
    BackPatchableSlot.slot localIndex ∈ view := by
  induction redirects with
  | nil => exact member
  | cons borrowed fresh rest inductionHypothesis =>
      obtain ⟨operand, present, same⟩ := List.mem_map.mp (inductionHypothesis member)
      cases operand with
      | slot index =>
          rw [redirectSlot_slot] at same
          split at same
          · cases same
          · cases same
            exact present
      | _ => cases same

theorem mem_redirect_of_const
    (member : BackPatchableSlot.const constId ∈ redirect localIndex spillIndex view) :
    BackPatchableSlot.const constId ∈ view := by
  obtain ⟨operand, present, same⟩ := List.mem_map.mp member
  cases operand with
  | slot index =>
      rw [redirectSlot_slot] at same
      split at same <;> cases same
  | const id =>
      cases same
      exact present
  | _ => cases same

theorem Redirects.const_mem
    (redirects : Redirects copies view result)
    (member : BackPatchableSlot.const constId ∈ result) :
    BackPatchableSlot.const constId ∈ view := by
  induction redirects with
  | nil => exact member
  | cons borrowed fresh rest inductionHypothesis =>
      exact mem_redirect_of_const (inductionHypothesis member)

theorem spill_mem_redirect
    (member : BackPatchableSlot.spill index ∈ view) :
    BackPatchableSlot.spill index ∈ redirect localIndex spillIndex view :=
  List.mem_map.mpr ⟨_, member, rfl⟩

theorem Redirects.spill_mem_of_mem
    (redirects : Redirects copies view result)
    (member : BackPatchableSlot.spill index ∈ view) :
    BackPatchableSlot.spill index ∈ result := by
  induction redirects with
  | nil => exact member
  | cons borrowed fresh rest inductionHypothesis =>
      exact inductionHypothesis (spill_mem_redirect member)

/-- Every copy takes its local from an operand and leaves its spill slot in
one. -/
theorem Redirects.mem_of_copy
    (redirects : Redirects copies view result)
    (member : copy ∈ copies) :
    BackPatchableSlot.slot copy.1 ∈ view ∧
      BackPatchableSlot.spill copy.2 ∈ result := by
  induction redirects with
  | nil => simp at member
  | @cons view result localIndex spillIndex copies borrowed fresh rest
      inductionHypothesis =>
      rcases List.mem_cons.mp member with rfl | member
      · refine ⟨borrowed, rest.spill_mem_of_mem ?_⟩
        exact List.mem_map.mpr ⟨_, borrowed, by rw [redirectSlot_slot, if_pos rfl]⟩
      · obtain ⟨slotMem, spillMem⟩ := inductionHypothesis member
        exact ⟨(Redirects.cons borrowed fresh (.nil _)).slot_mem slotMem, spillMem⟩

end View

namespace OperandStack

/-- What an instruction would read for an entry. -/
def viewSlot (lazyLocals : LazyArena) : StackSlot → BackPatchableSlot
  | .const id => .const id
  | .register index => .register index
  | .local slot =>
      match lazyLocals.arena[slot]? with
      | some entry => slotOfLocation entry.location
      | none => .slot 0

@[simp] theorem isRegister_viewSlot_local (lazyLocals : LazyArena) (slot : Nat) :
    (viewSlot lazyLocals (.local slot)).isRegister = false := by
  simp only [viewSlot]
  split
  · rename_i entry _
    cases entry.location <;> rfl
  · rfl

/-- The resolved operand stack. -/
def view (operands : OperandStack) : View :=
  operands.stack.map (viewSlot operands.lazyLocals)

@[simp] theorem length_view (operands : OperandStack) :
    operands.view.length = operands.height := List.length_map _

end OperandStack

end Register
end TraceWasm
