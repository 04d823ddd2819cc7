import TraceWasm.Register.LazyInvariant
import TraceWasm.Register.View

/-!
# What the operations do to the resolved operand stack

A sound operand stack has consistent borrows and consecutive registers. On one,
every operation is described by its effect on the view.
-/

namespace TraceWasm
namespace Register
namespace OperandStack

/-- The invariant of the operand stack of a body with `locals` locals. -/
structure Sound (locals : Nat) (operands : OperandStack) : Prop where
  lazy : operands.LazyInvariant
  origins : operands.lazyLocals.origin.length = locals
  localsLe : locals ≤ 50000
  consecutive : View.Consecutive locals operands.view
  counter : operands.currRegisterIndex =
    locals + View.registers operands.view
  peak : operands.currRegisterIndex ≤ operands.maxRegisters
  peakLe : operands.maxRegisters ≤ u16Max
  spillsLe : operands.spills.allocationLen ≤ u16Max

/-- The operand stack is sound at the beginning. -/
theorem sound_new (localsLe : locals ≤ 50000) :
    Sound locals (.new locals) where
  lazy := lazyInvariant_new locals
  origins := by simp [OperandStack.new, LazyArena.new]
  localsLe := localsLe
  consecutive := trivial
  counter := rfl
  peak := by
    change locals ≤ asU16 locals
    rw [asU16_of_le (by unfold u16Max; omega)]
  peakLe := by
    change asU16 locals ≤ u16Max
    rw [asU16_of_le] <;> unfold u16Max <;> omega
  spillsLe := Nat.zero_le _

/-! ## Reading the view -/

/-- The view depends on the locations of the entries only. -/
theorem map_viewSlot_congr
    {first second : LazyArena} {stack : List StackSlot}
    (same : ∀ slot, StackSlot.local slot ∈ stack →
      second.arena[slot]?.map LazyEntry.location =
        first.arena[slot]?.map LazyEntry.location) :
    stack.map (viewSlot second) = stack.map (viewSlot first) := by
  refine List.map_congr_left fun val member => ?_
  cases val with
  | const id => rfl
  | register index => rfl
  | «local» slot =>
      have := same slot member
      unfold viewSlot
      cases firstFound : first.arena[slot]? with
      | none =>
          cases secondFound : second.arena[slot]? with
          | none => simp [firstFound, secondFound]
          | some entry => simp [firstFound, secondFound] at this
      | some firstEntry =>
          cases secondFound : second.arena[slot]? with
          | none => simp [firstFound, secondFound] at this
          | some entry =>
              simp only [firstFound, secondFound, Option.map_some,
                Option.some.injEq] at this
              simp [firstFound, secondFound, this]

/-- A borrow is seen where its entry says. -/
theorem viewSlot_local
    {lazyLocals : LazyArena}
    (found : lazyLocals.arena[slot]? = some entry) :
    viewSlot lazyLocals (.local slot) = slotOfLocation entry.location := by
  simp [viewSlot, found]

/-- Two locations are seen as one only if they are. -/
theorem slotOfLocation_injective : Function.Injective slotOfLocation := by
  intro first second same
  cases first <;> cases second <;> simp_all [slotOfLocation]

/-- A location is seen if a live borrow is there. -/
theorem mem_view_of_location
    {operands : OperandStack}
    (invariant : operands.LazyInvariant)
    (location : LazyLocation) :
    slotOfLocation location ∈ operands.view ↔
      ∃ slot, operands.Live slot ∧ operands.locationAt slot = some location := by
  unfold view Live locationAt
  rw [List.mem_map]
  constructor
  · rintro ⟨val, member, same⟩
    cases val with
    | const id => cases location <;> simp [viewSlot, slotOfLocation] at same
    | register index => cases location <;> simp [viewSlot, slotOfLocation] at same
    | «local» slot =>
        obtain ⟨entry, found, _⟩ := invariant.entry_of_live member
        rw [viewSlot_local found] at same
        exact ⟨slot, member, by simp [found, slotOfLocation_injective same]⟩
  · rintro ⟨slot, member, located⟩
    obtain ⟨entry, found, _⟩ := invariant.entry_of_live member
    refine ⟨.local slot, member, ?_⟩
    rw [viewSlot_local found]
    simp only [found, Option.map_some, Option.some.injEq] at located
    rw [located]

/-- Raise the peak of the registers. -/
def raiseMax (operands : OperandStack) (peak : Nat) : OperandStack :=
  { operands with maxRegisters := max operands.maxRegisters peak }

namespace Sound

variable {locals : Nat} {operands : OperandStack}

/-- An operand in a local has an entry in the origin table. -/
theorem slot_mem_view
    (sound : Sound locals operands) :
    BackPatchableSlot.slot localIndex ∈ operands.view ↔
      ∃ slot, operands.lazyLocals.origin[localIndex]? = some (some slot) := by
  rw [show BackPatchableSlot.slot localIndex =
    slotOfLocation (.original localIndex) from rfl,
    mem_view_of_location sound.lazy]
  simp only [sound.lazy.origin]

/-- A borrowed local is one of the body's. -/
theorem slot_lt
    (sound : Sound locals operands)
    (member : BackPatchableSlot.slot localIndex ∈ operands.view) :
    localIndex < locals := by
  obtain ⟨slot, held⟩ := sound.slot_mem_view.mp member
  rw [← sound.origins]
  exact (List.getElem?_eq_some_iff.mp held).1

theorem spill_lt
    (sound : Sound locals operands)
    (member : BackPatchableSlot.spill spillIndex ∈ operands.view) :
    spillIndex < operands.spills.allocationLen := by
  have := (mem_view_of_location sound.lazy (.spilled spillIndex)).mp member
  exact (sound.lazy.allocated spillIndex).mpr (.inr this)

/-- The locals are those of the body. -/
theorem localsCount_eq
    (sound : Sound locals operands) :
    operands.localsCount = locals := by
  have := sound.localsLe
  unfold OperandStack.localsCount
  rw [sound.origins, asU16_of_le (by unfold u16Max; omega)]

theorem locals_le_counter
    (sound : Sound locals operands) :
    locals ≤ operands.currRegisterIndex := by
  rw [sound.counter]
  omega

theorem asU16_counter
    (sound : Sound locals operands) :
    asU16 operands.currRegisterIndex = operands.currRegisterIndex :=
  asU16_of_le (sound.peak.trans sound.peakLe)

/-- Resolving the entry at a depth gives the view's operand there. -/
theorem resolve_eq
    (sound : Sound locals operands)
    {depth : Nat}
    (found : operands.stack[depth]? = some val) :
    (operands.resolve val : Attempt ε BackPatchableSlot) =
      .ok (viewSlot operands.lazyLocals val) := by
  cases val with
  | const id => rfl
  | register index => rfl
  | «local» slot =>
      have live : operands.Live slot := List.mem_of_getElem? found
      obtain ⟨entry, present, _⟩ := sound.lazy.entry_of_live live
      rw [viewSlot_local present]
      simp only [resolve, LazyArena.location_eq present, Attempt.ok_bind,
        Attempt.pure_eq]

/-- The operand at a depth is read from the view. -/
theorem simulatedPop_eq
    (sound : Sound locals operands)
    {depth : Nat}
    (found : operands.view[depth]? = some operand) :
    (operands.simulatedPop depth : Attempt ε BackPatchableSlot) =
      .ok operand := by
  unfold view at found
  rw [List.getElem?_map, Option.map_eq_some_iff] at found
  obtain ⟨val, present, rfl⟩ := found
  unfold simulatedPop
  rw [present]
  exact sound.resolve_eq present

/-- A `local.tee` reads the topmost operand. -/
theorem tee_eq
    (sound : Sound locals operands)
    (top : operands.view = operand :: rest) :
    (operands.tee : Attempt ε BackPatchableSlot) = .ok operand := by
  have : operands.view[0]? = some operand := by simp [top]
  have popped := sound.simulatedPop_eq (ε := ε) this
  unfold tee
  rw [List.head?_eq_getElem?]
  exact popped

/-! ## Popping -/

/-- The operand stack goes over to another one with the given view. The peaks
only grow. -/
structure Becomes
    (locals : Nat) (operands : OperandStack) (view : View)
    (after : OperandStack) : Prop where
  sound : Sound locals after
  view : after.view = view
  max : operands.maxRegisters ≤ after.maxRegisters
  spills : operands.spills.allocationLen ≤ after.spills.allocationLen

theorem Becomes.refl (sound : Sound locals operands) :
    Becomes locals operands operands.view operands :=
  ⟨sound, rfl, le_rfl, le_rfl⟩

/-- Two operations in a row. -/
theorem Becomes.trans
    {between result : View}
    (first : Becomes locals operands between middle)
    (second : Becomes locals middle result after) :
    Becomes locals operands result after :=
  ⟨second.sound, second.view, first.max.trans second.max,
    first.spills.trans second.spills⟩

/-- What a pop leaves is sound once its parts are known. -/
theorem becomes_tail
    (sound : Sound locals operands)
    {after : OperandStack}
    (lazy : after.LazyInvariant)
    (origins : after.lazyLocals.origin.length =
      operands.lazyLocals.origin.length)
    (view : operands.view = operand :: after.view)
    (counter : after.currRegisterIndex + View.registers [operand] =
      operands.currRegisterIndex)
    (max : after.maxRegisters = operands.maxRegisters)
    (spills : after.spills.allocationLen = operands.spills.allocationLen) :
    Becomes locals operands operands.view.tail after where
  sound := by
    have split : View.registers operands.view =
        View.registers [operand] + View.registers after.view := by
      rw [view, ← View.registers_append]
      rfl
    have before := sound.counter
    have peak := sound.peak
    exact {
      lazy := lazy
      origins := origins.trans sound.origins
      localsLe := sound.localsLe
      consecutive := (view ▸ sound.consecutive).tail
      counter := by omega
      peak := by omega
      peakLe := by rw [max]; exact sound.peakLe
      spillsLe := by rw [spills]; exact sound.spillsLe }
  view := by rw [view, List.tail_cons]
  max := max.ge
  spills := spills.ge

/-! A borrow is released in one of three ways. -/

section Release

variable {arena : LazyArena} {spills : SpillArena} {entry : LazyEntry}

/-- A borrow that others share stays where it is. -/
theorem popLazy_shared
    (found : arena.arena[slot]? = some entry) (positive : 0 < entry.refCount)
    (more : entry.refCount - 1 ≠ 0) :
    (popLazy slot arena spills : Attempt ε _) =
      .ok (entry.location, { arena with
        arena := arena.arena.set slot { entry with refCount := entry.refCount - 1 } },
        spills) := by
  simp [popLazy, LazyArena.location_eq found, LazyArena.decreaseRefCount_eq found positive, more]

/-- The last borrow of a local gives the local back. -/
theorem popLazy_original
    (found : arena.arena[slot]? = some entry) (positive : 0 < entry.refCount)
    (last : entry.refCount - 1 = 0) (location : entry.location = .original localIndex)
    (inRange : localIndex < arena.origin.length) :
    (popLazy slot arena spills : Attempt ε _) =
      .ok (.original localIndex,
        ⟨arena.arena.set slot { entry with refCount := entry.refCount - 1 },
          arena.origin.set localIndex none⟩, spills) := by
  simp [popLazy, LazyArena.location_eq found, LazyArena.decreaseRefCount_eq found positive, last,
    location, LazyArena.setOrigin_mk _ inRange]

/-- The last borrow in a spill slot frees the slot. -/
theorem popLazy_spilled
    (found : arena.arena[slot]? = some entry) (positive : 0 < entry.refCount)
    (last : entry.refCount - 1 = 0) (location : entry.location = .spilled spillIndex) :
    (popLazy slot arena spills : Attempt ε _) =
      .ok (.spilled spillIndex, { arena with
        arena := arena.arena.set slot { entry with refCount := entry.refCount - 1 } },
        spills.freeSlot spillIndex) := by
  simp [popLazy, LazyArena.location_eq found, LazyArena.decreaseRefCount_eq found positive, last,
    location]

end Release

/-- A pop takes the topmost operand. -/
theorem pop_eq
    (sound : Sound locals operands)
    (top : operands.view = operand :: rest) :
    ∃ after, (operands.pop : Attempt ε _) = .ok (operand, after) ∧
      Becomes locals operands rest after := by
  rw [show rest = operands.view.tail by rw [top, List.tail_cons]]
  unfold view at top
  obtain ⟨val, stack, topStack, rfl, rfl⟩ := List.map_eq_cons_iff.mp top
  unfold pop
  rw [topStack]
  cases val with
  | const id =>
      refine ⟨{ operands with stack }, rfl, sound.becomes_tail
        (sound.lazy.popOther _ _ topStack (by simp)) rfl top rfl rfl rfl⟩
  | register index =>
      have positive : 1 ≤ operands.currRegisterIndex := by
        have := sound.counter
        unfold view at this
        rw [top] at this
        change _ = locals + View.registers (.register index :: _) at this
        rw [View.registers_cons_register] at this
        omega
      refine ⟨{ operands with
        stack
        currRegisterIndex := operands.currRegisterIndex - 1 }, ?_, ?_⟩
      · simp only [recedeRegisterIndex, Attempt.sub_of_le positive]
        rfl
      · exact sound.becomes_tail
          ((sound.lazy.popOther _ _ topStack (by simp)).setCounters _ _) rfl top
          (Nat.sub_add_cancel positive) rfl rfl
  | «local» slot =>
      have live : operands.Live slot := by simp [Live, topStack]
      obtain ⟨entry, found, positive⟩ := sound.lazy.entry_of_live live
      have counted := sound.lazy.refCount slot entry found
      rw [topStack, List.count_cons_self] at counted
      have sameLocation : ∀ other : Nat, ((operands.lazyLocals.arena.set slot
          { entry with refCount := entry.refCount - 1 })[other]?).map
            LazyEntry.location =
          operands.lazyLocals.arena[other]?.map LazyEntry.location := by
        intro other
        by_cases same : slot = other
        · subst same
          rw [List.getElem?_set_self (sound.lazy.entryExists slot live), found]
          rfl
        · rw [List.getElem?_set_ne same]
      have released : ∀ after : OperandStack, after.stack = stack →
          after.lazyLocals.arena = operands.lazyLocals.arena.set slot
            { entry with refCount := entry.refCount - 1 } →
          LazyInvariant.Released operands after slot ∧
            operands.view = viewSlot operands.lazyLocals (.local slot) ::
              after.view := by
        intro after afterStack afterArena
        refine ⟨⟨by rw [afterStack, topStack], ?_⟩, ?_⟩
        · intro other otherFound
          rw [found] at otherFound
          cases otherFound
          exact afterArena
        · unfold view
          rw [afterStack, topStack, List.map_cons]
          congr 1
          refine (map_viewSlot_congr fun other _ => ?_).symm
          rw [afterArena]
          exact sameLocation other
      rw [viewSlot_local found]
      by_cases last : entry.refCount - 1 = 0
      · have gone : ∀ after : OperandStack, after.stack = stack →
            ¬after.Live slot := by
          intro after afterStack afterLive
          unfold Live at afterLive
          rw [afterStack, ← List.count_pos_iff] at afterLive
          omega
        cases location : entry.location with
        | original localIndex =>
            have located : operands.locationAt slot = some (.original localIndex) := by
              simp [locationAt, found, location]
            have inRange : localIndex < operands.lazyLocals.origin.length :=
              (List.getElem?_eq_some_iff.mp
                ((sound.lazy.origin localIndex slot).mpr ⟨live, located⟩)).1
            refine ⟨{ operands with
              stack
              lazyLocals := ⟨operands.lazyLocals.arena.set slot
                { entry with refCount := entry.refCount - 1 },
                operands.lazyLocals.origin.set localIndex none⟩ }, ?_, ?_⟩
            · simp only [popLazy_original found positive last location inRange]
              rfl
            · exact sound.becomes_tail
                (sound.lazy.releaseOriginal (released _ rfl rfl).1 (gone _ rfl)
                  located rfl rfl)
                (List.length_set) (released _ rfl rfl).2
                (by rw [viewSlot_local found, location]; rfl) rfl rfl
        | spilled spillIndex =>
            have located : operands.locationAt slot = some (.spilled spillIndex) := by
              simp [locationAt, found, location]
            refine ⟨{ operands with
              stack
              lazyLocals := { operands.lazyLocals with
                arena := operands.lazyLocals.arena.set slot
                  { entry with refCount := entry.refCount - 1 } }
              spills := operands.spills.freeSlot spillIndex }, ?_, ?_⟩
            · simp only [popLazy_spilled found positive last location]
              rfl
            · exact sound.becomes_tail
                (sound.lazy.releaseSpilled (released _ rfl rfl).1 (gone _ rfl)
                  located rfl rfl)
                rfl (released _ rfl rfl).2
                (by rw [viewSlot_local found, location]; rfl) rfl rfl
      · refine ⟨{ operands with
          stack
          lazyLocals := { operands.lazyLocals with
            arena := operands.lazyLocals.arena.set slot
              { entry with refCount := entry.refCount - 1 } } }, ?_, ?_⟩
        · simp only [popLazy_shared found positive last]
          rfl
        refine sound.becomes_tail
          (sound.lazy.releaseShared (released _ rfl rfl).1 ?_ rfl rfl) rfl
          (released _ rfl rfl).2
          (by rw [viewSlot_local found]; cases entry.location <;> rfl) rfl rfl
        unfold Live
        rw [← List.count_pos_iff]
        change 0 < stack.count (.local slot)
        omega

/-- Several pops take the topmost operands. -/
theorem popMany_eq
    (sound : Sound locals operands)
    (enough : count ≤ operands.view.length) :
    ∃ after, (operands.popMany count : Attempt ε _) =
        .ok ((operands.view.take count).reverse, after) ∧
      Becomes locals operands (operands.view.drop count) after := by
  induction count generalizing operands with
  | zero => exact ⟨operands, by simp [popMany], .refl sound⟩
  | succ count inductionHypothesis =>
      cases top : operands.view with
      | nil => simp [top] at enough
      | cons operand rest =>
          obtain ⟨middle, popped, becomes⟩ := sound.pop_eq (ε := ε) top
          rw [top, List.length_cons, Nat.add_le_add_iff_right] at enough
          obtain ⟨after, poppedRest, becomesRest⟩ :=
            inductionHypothesis becomes.sound (by rw [becomes.view]; exact enough)
          refine ⟨after, ?_, becomes.trans ?_⟩
          · rw [popMany, popped, Attempt.ok_bind]
            simp only [poppedRest, Attempt.ok_bind, becomes.view, List.take_succ_cons,
              List.reverse_cons, Attempt.pure_eq]
          · rw [List.drop_succ_cons, ← becomes.view]
            exact becomesRest

/-! ## Pushing -/

/-- A constant is pushed. -/
theorem pushConstId_becomes
    (sound : Sound locals operands) (id : Nat) :
    Becomes locals operands (.const id :: operands.view)
      (operands.pushConstId id) where
  sound := {
    lazy := sound.lazy.pushOther (.const id) (by simp)
    origins := sound.origins
    localsLe := sound.localsLe
    consecutive := sound.consecutive
    counter := by
      change _ = locals + View.registers (.const id :: operands.view)
      rw [View.registers_cons_const]
      exact sound.counter
    peak := sound.peak
    peakLe := sound.peakLe
    spillsLe := sound.spillsLe }
  view := rfl
  max := le_rfl
  spills := le_rfl

/-- The counter advances, or there are too many registers. -/
theorem advancedRegisterIndex_meets
    (peak : operands.currRegisterIndex ≤ operands.maxRegisters)
    (peakLe : operands.maxRegisters ≤ u16Max) :
    operands.advancedRegisterIndex.Meets TraceWasmError.IsLimit fun after =>
      ∃ maxRegisters, operands.maxRegisters ≤ maxRegisters ∧
        operands.currRegisterIndex + 1 ≤ maxRegisters ∧ maxRegisters ≤ u16Max ∧
        after = { operands with
          currRegisterIndex := operands.currRegisterIndex + 1
          maxRegisters := maxRegisters } := by
  unfold advancedRegisterIndex
  dsimp only
  split
  · split
    · trivial
    · rename_i above notFull
      unfold maxRegisterSlots at notFull
      exact ⟨_, Nat.le_succ _, by omega, by omega, rfl⟩
  · exact ⟨operands.maxRegisters, le_rfl, by omega, peakLe, rfl⟩

/-- The next register is pushed, or there are too many. -/
theorem pushRegister_meets
    (sound : Sound locals operands) :
    (operands.push (asU16 operands.currRegisterIndex)).Meets
      TraceWasmError.IsLimit
      (Becomes locals operands
        (.register operands.currRegisterIndex :: operands.view)) := by
  have notLocal : ¬operands.currRegisterIndex < operands.localsCount := by
    rw [sound.localsCount_eq]
    exact sound.locals_le_counter.not_gt
  rw [sound.asU16_counter, push, if_neg notLocal]
  refine (advancedRegisterIndex_meets sound.peak sound.peakLe).bind ?_
  rintro _ ⟨maxRegisters, grows, covers, fits, rfl⟩
  refine ⟨?_, rfl, grows, le_rfl⟩
  exact {
    lazy := (sound.lazy.pushOther (.register operands.currRegisterIndex)
      (by simp)).setCounters _ _
    origins := sound.origins
    localsLe := sound.localsLe
    consecutive := ⟨sound.counter, sound.consecutive⟩
    counter := by
      change operands.currRegisterIndex + 1 =
        locals + View.registers (.register operands.currRegisterIndex ::
          operands.view)
      rw [View.registers_cons_register]
      have := sound.counter
      omega
    peak := covers
    peakLe := fits
    spillsLe := sound.spillsLe }

/-- The next registers are pushed, or there are too many. -/
theorem pushMany_meets
    (sound : Sound locals operands) (count : Nat) :
    (operands.pushMany count).Meets TraceWasmError.IsLimit
      (Becomes locals operands
        (View.registerRun operands.currRegisterIndex count ++ operands.view)) := by
  induction count generalizing operands with
  | zero => exact .refl sound
  | succ count inductionHypothesis =>
      refine sound.pushRegister_meets.bind fun middle becomes => ?_
      refine (inductionHypothesis becomes.sound).mono fun after rest => ?_
      have counter : middle.currRegisterIndex = operands.currRegisterIndex + 1 := by
        rw [becomes.sound.counter, becomes.view, View.registers_cons_register,
          sound.counter]
        omega
      rw [becomes.view, counter, List.append_cons,
        View.registerRun_succ_append] at rest
      exact becomes.trans rest

/-- A register that fits the frame is handed out. -/
theorem pushRegister_eq
    (sound : Sound locals operands)
    (fits : operands.currRegisterIndex < u16Max) :
    ∃ after, operands.push (asU16 operands.currRegisterIndex) = .ok after ∧
      Becomes locals operands
        (.register operands.currRegisterIndex :: operands.view) after := by
  have notLocal : ¬operands.currRegisterIndex < operands.localsCount := by
    rw [sound.localsCount_eq]
    exact sound.locals_le_counter.not_gt
  obtain ⟨after, pushed⟩ : ∃ after,
      operands.push (asU16 operands.currRegisterIndex) = .ok after := by
    rw [sound.asU16_counter, push, if_neg notLocal, advancedRegisterIndex]
    unfold maxRegisterSlots
    by_cases raises : operands.currRegisterIndex + 1 > operands.maxRegisters
    · rw [if_pos raises, if_neg (by dsimp only; omega)]
      exact ⟨_, rfl⟩
    · rw [if_neg raises]
      exact ⟨_, rfl⟩
  exact ⟨after, pushed, sound.pushRegister_meets.of_ok pushed⟩

/-- Registers that fit the frame are handed out in order. -/
theorem pushMany_eq
    (sound : Sound locals operands)
    (fits : operands.currRegisterIndex + count ≤ u16Max) :
    ∃ after, operands.pushMany count = .ok after ∧
      Becomes locals operands
        (View.registerRun operands.currRegisterIndex count ++ operands.view) after := by
  have pushed : ∃ after, operands.pushMany count = .ok after := by
    induction count generalizing operands with
    | zero => exact ⟨operands, rfl⟩
    | succ count inductionHypothesis =>
        obtain ⟨middle, pushed, becomes⟩ := sound.pushRegister_eq (by omega)
        have counter : middle.currRegisterIndex = operands.currRegisterIndex + 1 := by
          rw [becomes.sound.counter, becomes.view, View.registers_cons_register,
            sound.counter]
          omega
        obtain ⟨after, rest⟩ := inductionHypothesis becomes.sound (by omega)
        refine ⟨after, ?_⟩
        rw [pushMany, pushed, Attempt.ok_bind]
        exact rest
  obtain ⟨after, pushed⟩ := pushed
  exact ⟨after, pushed, (sound.pushMany_meets count).of_ok pushed⟩

/-- Operands are replaced by registers, or there are too many. -/
theorem popsAndPushes_meets
    (sound : Sound locals operands)
    (enough : pops ≤ operands.view.length) (pushes : Nat) :
    (operands.popsAndPushes pops pushes).Meets TraceWasmError.IsLimit
      (Becomes locals operands
        (View.registerRun
            (locals + View.registers (operands.view.drop pops)) pushes ++
          operands.view.drop pops)) := by
  obtain ⟨middle, popped, becomes⟩ := sound.popMany_eq enough
  rw [popsAndPushes, popped, Attempt.ok_bind]
  refine (becomes.sound.pushMany_meets pushes).mono fun after rest => ?_
  rw [becomes.sound.counter, becomes.view] at rest
  exact becomes.trans rest

/-- A local is pushed without a copy. -/
theorem pushLocal_eq
    (sound : Sound locals operands)
    (below : localIndex < locals) :
    ∃ after, operands.pushLocal localIndex = .ok after ∧
      Becomes locals operands (.slot localIndex :: operands.view) after := by
  have isLocal : localIndex < operands.localsCount := by
    rw [sound.localsCount_eq]
    exact below
  have inRange : localIndex < operands.lazyLocals.origin.length := by
    rw [sound.origins]
    exact below
  -- the counters stay as they are, so soundness follows from the view
  have becomesOf : ∀ after : OperandStack, after.LazyInvariant →
      after.lazyLocals.origin.length = operands.lazyLocals.origin.length →
      after.view = .slot localIndex :: operands.view →
      after.currRegisterIndex = operands.currRegisterIndex →
      after.maxRegisters = operands.maxRegisters →
      after.spills = operands.spills →
      Becomes locals operands (.slot localIndex :: operands.view) after := by
    intro after lazy origins view curr max spills
    refine ⟨?_, view, max.ge, by rw [spills]⟩
    have counter := sound.counter
    exact {
      lazy := lazy
      origins := origins.trans sound.origins
      localsLe := sound.localsLe
      consecutive := by rw [view]; exact sound.consecutive
      counter := by rw [view, View.registers_cons_slot, curr, counter]
      peak := by rw [curr, max]; exact sound.peak
      peakLe := by rw [max]; exact sound.peakLe
      spillsLe := by rw [spills]; exact sound.spillsLe }
  unfold pushLocal push
  rw [if_pos isLocal]
  cases held : operands.lazyLocals.origin[localIndex] with
  | some slot =>
      have heldAt : operands.lazyLocals.origin[localIndex]? = some (some slot) :=
        List.getElem?_eq_some_iff.mpr ⟨inRange, held⟩
      obtain ⟨live, location⟩ := (sound.lazy.origin localIndex slot).mp heldAt
      obtain ⟨entry, found, _⟩ := sound.lazy.entry_of_live live
      have located : entry.location = .original localIndex := by
        simpa [locationAt, found] using location
      refine ⟨{ operands with
        stack := .local slot :: operands.stack
        lazyLocals := { operands.lazyLocals with
          arena := operands.lazyLocals.arena.set slot
            { entry with refCount := entry.refCount + 1 } } }, ?_, ?_⟩
      · rw [pushLazy, LazyArena.getOrigin_eq heldAt, Attempt.ok_bind]
        simp only [LazyArena.advancedRefCount_eq found, Attempt.ok_bind,
          Attempt.pure_eq]
      · refine becomesOf _ (sound.lazy.join live found rfl rfl rfl rfl) rfl ?_
          rfl rfl rfl
        unfold view
        rw [List.map_cons]
        congr 1
        · rw [viewSlot_local (List.getElem?_set_self (sound.lazy.entryExists slot live))]
          exact congrArg slotOfLocation located
        · refine map_viewSlot_congr fun other _ => ?_
          by_cases same : slot = other
          · subst same
            rw [List.getElem?_set_self (sound.lazy.entryExists slot live), found]
            rfl
          · rw [List.getElem?_set_ne same]
  | none =>
      have unborrowed : operands.lazyLocals.origin[localIndex]? = some none :=
        List.getElem?_eq_some_iff.mpr ⟨inRange, held⟩
      refine ⟨{ operands with
        stack := .local operands.lazyLocals.arena.length :: operands.stack
        lazyLocals := {
          arena := operands.lazyLocals.arena ++ [⟨.original localIndex, 1⟩]
          origin := operands.lazyLocals.origin.set localIndex
            (some operands.lazyLocals.arena.length) } }, ?_, ?_⟩
      · rw [pushLazy, LazyArena.getOrigin_eq unborrowed, Attempt.ok_bind]
        simp only [LazyArena.allocate]
        rw [LazyArena.setOrigin_mk _ inRange]
        rfl
      · refine becomesOf _ (sound.lazy.start unborrowed rfl rfl rfl rfl)
          List.length_set ?_ rfl rfl rfl
        unfold view
        rw [List.map_cons]
        congr 1
        · have pushed : (operands.lazyLocals.arena ++
              [⟨.original localIndex, 1⟩])[operands.lazyLocals.arena.length]? =
                some (⟨.original localIndex, 1⟩ : LazyEntry) := by simp
          rw [viewSlot_local pushed]
          rfl
        · refine map_viewSlot_congr fun other live => ?_
          rw [List.getElem?_append_left (sound.lazy.entryExists other live)]

/-! ## Rescuing borrows -/

/-- The copies rescue the operands that they redirect. -/
def Rescues
    (locals : Nat) (operands : OperandStack) (copies : List (Nat × Nat))
    (after : OperandStack) : Prop :=
  ∃ view, View.Redirects copies operands.view view ∧
    Becomes locals operands view after

/-- The borrows of a local are rescued before it is written. -/
theorem setLazy_meets
    (sound : Sound locals operands)
    (below : localIndex < locals) :
    (operands.setLazy localIndex).Meets TraceWasmError.IsLimit
      fun (spillIndex, after) =>
        Rescues locals operands
          ((spillIndex.map fun index => (localIndex, index)).toList) after ∧
        .slot localIndex ∉ after.view := by
  have inRange : localIndex < operands.lazyLocals.origin.length := by
    rw [sound.origins]
    exact below
  unfold setLazy
  cases held : operands.lazyLocals.origin[localIndex] with
  | none =>
      have unborrowed : operands.lazyLocals.origin[localIndex]? = some none :=
        List.getElem?_eq_some_iff.mpr ⟨inRange, held⟩
      rw [LazyArena.getOrigin_eq unborrowed, Attempt.ok_bind]
      refine ⟨⟨operands.view, .nil _, .refl sound⟩, ?_⟩
      rw [sound.slot_mem_view, unborrowed]
      simp
  | some slot =>
      have heldAt : operands.lazyLocals.origin[localIndex]? = some (some slot) :=
        List.getElem?_eq_some_iff.mpr ⟨inRange, held⟩
      obtain ⟨live, location⟩ := (sound.lazy.origin localIndex slot).mp heldAt
      obtain ⟨entry, found, _⟩ := sound.lazy.entry_of_live live
      have located : entry.location = .original localIndex := by
        simpa [locationAt, found] using location
      rw [LazyArena.getOrigin_eq heldAt, Attempt.ok_bind]
      cases reservation : operands.spills.reserveSlot with
      | error fault =>
          unfold SpillArena.reserveSlot at reservation
          split at reservation
          · cases reservation
          · split at reservation
            · cases reservation
              trivial
            · cases reservation
      | ok result =>
          obtain ⟨spillIndex, spills⟩ := result
          have fresh := sound.lazy.reserved reservation
          simp only [Attempt.ok_bind, LazyArena.spill_eq found located]
          rw [LazyArena.setOrigin_mk _ inRange, Attempt.ok_bind, Attempt.pure_eq,
            Attempt.meets_ok]
          have viewEq : operands.stack.map (viewSlot
              ⟨operands.lazyLocals.arena.set slot
                { entry with location := .spilled spillIndex },
                operands.lazyLocals.origin.set localIndex none⟩) =
              View.redirect localIndex spillIndex operands.view := by
            unfold View.redirect view
            rw [List.map_map]
            refine List.map_congr_left fun val member => ?_
            cases val with
            | const id => rfl
            | register index => rfl
            | «local» other =>
                rw [Function.comp_apply]
                by_cases same : slot = other
                · subst same
                  rw [viewSlot_local found, located, viewSlot_local
                    (List.getElem?_set_self (sound.lazy.entryExists slot live))]
                  exact (if_pos rfl).symm
                · obtain ⟨otherEntry, otherFound, _⟩ :=
                    sound.lazy.entry_of_live member
                  rw [viewSlot_local otherFound, viewSlot_local
                    ((List.getElem?_set_ne same).trans otherFound),
                    View.redirectSlot_eq_self]
                  intro isLocal
                  have otherLocation := slotOfLocation_injective
                    (isLocal.trans (show _ = slotOfLocation (.original localIndex) from rfl))
                  have otherHeld := (sound.lazy.origin localIndex other).mpr
                    ⟨member, by simp [locationAt, otherFound, otherLocation]⟩
                  rw [heldAt] at otherHeld
                  cases otherHeld
                  exact same rfl
          have spillNotMem : BackPatchableSlot.spill spillIndex ∉ operands.view := by
            intro member
            obtain ⟨other, otherLive, otherLocation⟩ :=
              (mem_view_of_location sound.lazy (.spilled spillIndex)).mp member
            exact fresh.unused other otherLive otherLocation
          have grows : operands.spills.allocationLen ≤ spills.allocationLen := by
            by_contra shrinks
            have := (fresh.allocated spills.allocationLen).mpr (.inl (by omega))
            omega
          have spillsLe : spills.allocationLen ≤ u16Max := by
            have before := sound.spillsLe
            unfold SpillArena.reserveSlot at reservation
            split at reservation
            · cases reservation
              exact before
            · split at reservation
              · cases reservation
              · rename_i notFull
                cases reservation
                unfold SpillArena.maxSpills at notFull
                change operands.spills.allocationLen + 1 ≤ u16Max
                omega
          refine ⟨⟨_, .cons (sound.slot_mem_view.mpr ⟨slot, heldAt⟩) spillNotMem
            (.nil _), ⟨?_, viewEq, le_rfl, grows⟩⟩, ?_⟩
          · exact {
              lazy := sound.lazy.redirect heldAt found fresh rfl rfl rfl
              origins := List.length_set.trans sound.origins
              localsLe := sound.localsLe
              consecutive := by
                change View.Consecutive locals (operands.stack.map _)
                rw [viewEq]
                exact View.consecutive_redirect sound.consecutive
              counter := by
                change _ = locals + View.registers (operands.stack.map _)
                rw [viewEq, View.registers_redirect]
                exact sound.counter
              peak := sound.peak
              peakLe := sound.peakLe
              spillsLe := spillsLe }
          · change _ ∉ operands.stack.map _
            rw [viewEq]
            exact View.slot_notMem_redirect _

/-- The borrows of several locals are rescued. -/
theorem spillLazyOf_meets
    (sound : Sound locals operands)
    (indices : List Nat)
    (below : ∀ index ∈ indices, index < locals) :
    (operands.spillLazyOf indices).Meets TraceWasmError.IsLimit
      fun (copies, after) =>
        Rescues locals operands copies after ∧
        ∀ index ∈ indices, .slot index ∉ after.view := by
  induction indices generalizing operands with
  | nil => exact ⟨⟨_, .nil _, .refl sound⟩, by simp⟩
  | cons index indices inductionHypothesis =>
      refine (sound.setLazy_meets (below index (by simp))).bind ?_
      rintro ⟨spillIndex, middle⟩ ⟨⟨between, redirect, becomes⟩, gone⟩
      refine (inductionHypothesis becomes.sound
        fun index member => below index (by simp [member])).bind ?_
      rintro ⟨copies, after⟩ ⟨⟨view, redirects, becomesRest⟩, goneRest⟩
      rw [becomes.view] at redirects
      have goneAll : ∀ other ∈ index :: indices, .slot other ∉ after.view := by
        intro other member
        rcases List.mem_cons.mp member with rfl | member
        · intro present
          rw [becomesRest.view] at present
          rw [becomes.view] at gone
          exact gone (redirects.slot_mem present)
        · exact goneRest other member
      have rescues : Rescues locals operands _ after :=
        ⟨view, redirect.append redirects, becomes.trans becomesRest⟩
      cases spillIndex with
      | none => exact ⟨rescues, goneAll⟩
      | some spillIndex => exact ⟨rescues, goneAll⟩

/-- Rescuing every borrow leaves no operand in a local. -/
theorem spillLazy_meets
    (sound : Sound locals operands) :
    operands.spillLazy.Meets TraceWasmError.IsLimit
      fun (copies, after) =>
        Rescues locals operands copies after ∧
        ∀ index, .slot index ∉ after.view := by
  unfold spillLazy
  refine (sound.spillLazyOf_meets _ ?_).mono ?_
  · rw [sound.origins]
    exact fun index member => List.mem_range.mp member
  · rintro ⟨copies, after⟩ ⟨⟨view, redirects, becomes⟩, gone⟩
    refine ⟨⟨view, redirects, becomes⟩, fun index member => ?_⟩
    refine gone index ?_ member
    rw [sound.origins, List.mem_range]
    exact becomes.sound.slot_lt member

/-! ## Reading without popping -/

theorem stack_getElem?_of_lt
    (_ : Sound locals operands)
    {depth : Nat}
    (below : depth < operands.view.length) :
    ∃ val, operands.stack[depth]? = some val ∧
      operands.view[depth]? = some (viewSlot operands.lazyLocals val) := by
  rw [length_view] at below
  refine ⟨operands.stack[depth], List.getElem?_eq_getElem below, ?_⟩
  unfold view
  rw [List.getElem?_map, List.getElem?_eq_getElem below, Option.map_some]

theorem registers_take_succ
    {view : View} {operand : BackPatchableSlot}
    (found : view[depth]? = some operand) :
    View.registers (view.take (depth + 1)) =
      View.registers (view.take depth) + View.registers [operand] := by
  rw [List.take_add_one, found, View.registers_append]
  rfl

theorem registers_take_le (view : View) (depth : Nat) :
    View.registers (view.take depth) ≤ View.registers view :=
  (List.take_sublist depth view).countP_le

/-- The register at a depth is counted from below. -/
theorem registerIndexAtDepth_eq
    (sound : Sound locals operands)
    (enough : depth ≤ operands.view.length) :
    (operands.registerIndexAtDepth depth : Attempt ε Nat) =
      .ok (locals + View.registers (operands.view.drop depth)) := by
  have counts : (operands.registerIndexAtDepth depth : Attempt ε Nat) =
      .ok (operands.currRegisterIndex -
        View.registers (operands.view.take depth)) := by
    induction depth with
    | zero => rfl
    | succ depth inductionHypothesis =>
        obtain ⟨val, found, viewed⟩ := sound.stack_getElem?_of_lt
          (show depth < operands.view.length by omega)
        have prior := inductionHypothesis (by omega)
        unfold registerIndexAtDepth at prior ⊢
        have taken := registers_take_succ viewed
        have bound := registers_take_le operands.view (depth + 1)
        have counter := sound.counter
        rw [List.range_succ, List.foldlM_append, prior, Attempt.ok_bind,
          List.foldlM_cons, found, Attempt.orPanic_some, Attempt.ok_bind]
        cases val with
        | const id =>
            change View.registers _ = _ + View.registers [.const id] at taken
            rw [taken]
            rfl
        | register index =>
            change View.registers _ = _ + 1 at taken
            rw [taken, Attempt.sub_of_le (by omega)]
            rfl
        | «local» slot =>
            have notRegister :
                View.registers [viewSlot operands.lazyLocals (.local slot)] = 0 := by
              simp [View.registers]
            rw [taken, notRegister]
            rfl
  have split := View.registers_take_add_drop depth operands.view
  have counter := sound.counter
  rw [counts]
  congr 1
  omega

/-- The operands down to a depth are read from the view. -/
theorem simulatedPops_eq
    (sound : Sound locals operands)
    (enough : popped ≤ operands.view.length) :
    (operands.simulatedPops popped : Attempt ε _) =
      .ok (operands.view.take popped,
        locals + View.registers (operands.view.drop popped)) := by
  have counts : (operands.simulatedPops popped : Attempt ε _) =
      .ok (operands.view.take popped, operands.currRegisterIndex -
        View.registers (operands.view.take popped)) := by
    induction popped with
    | zero =>
        unfold simulatedPops
        rw [sound.asU16_counter]
        rfl
    | succ depth inductionHypothesis =>
        have prior := inductionHypothesis (by omega)
        have found := List.getElem?_eq_getElem (l := operands.view) (i := depth)
          (by omega)
        have taken := registers_take_succ found
        have bound := registers_take_le operands.view (depth + 1)
        have counter := sound.counter
        unfold simulatedPops at prior ⊢
        rw [List.range_succ, List.foldlM_append, prior, Attempt.ok_bind,
          List.foldlM_cons]
        simp only [sound.simulatedPop_eq found, Attempt.ok_bind, List.foldlM_nil]
        cases isRegister : operands.view[depth].isRegister with
        | true =>
            rw [if_pos rfl]
            have one : View.registers [operands.view[depth]] = 1 := by
              simp [View.registers, isRegister]
            rw [Attempt.sub_of_le (by omega), taken, one, List.take_add_one, found]
            rfl
        | false =>
            have none : View.registers [operands.view[depth]] = 0 := by
              simp [View.registers, isRegister]
            rw [taken, none, List.take_add_one, found]
            rfl
  have split := View.registers_take_add_drop popped operands.view
  have counter := sound.counter
  rw [counts]
  congr 2
  omega

/-- Raising the peak changes nothing else. -/
theorem raiseMax_becomes
    (sound : Sound locals operands)
    {peak : Nat}
    (fits : peak ≤ u16Max) :
    Becomes locals operands operands.view (raiseMax operands peak) where
  sound := {
    lazy := sound.lazy.setCounters _ _
    origins := sound.origins
    localsLe := sound.localsLe
    consecutive := sound.consecutive
    counter := sound.counter
    peak := sound.peak.trans (le_max_left _ _)
    peakLe := max_le sound.peakLe fits
    spillsLe := sound.spillsLe }
  view := rfl
  max := le_max_left _ _
  spills := le_rfl

/-- A branch reads the operands that popping would have popped and goes to the
registers that popping would have freed, if those fit the frame. -/
theorem brTruncationRegisters_eq
    (sound : Sound locals operands)
    (enough : baseHeight + arity ≤ operands.view.length)
    (isBase : base = locals + View.registers
      (operands.view.drop (operands.view.length - baseHeight))) :
    operands.brTruncationRegisters baseHeight arity =
      if base + arity ≤ u16Max then
        .ok ((operands.view.take arity).reverse,
          ⟨List.replicate arity placeholder, base⟩, raiseMax operands (base + arity))
      else .fail (registerFrameTooLarge (base + arity)) := by
  have heightEq := operands.length_view
  unfold brTruncationRegisters
  rw [← heightEq, Attempt.sub_of_le (by omega), Attempt.ok_bind,
    sound.simulatedPops_eq (by omega), Attempt.ok_bind, ← isBase]
  dsimp only
  have carriedEq : ((List.range arity).map fun i =>
      (operands.view.take (operands.view.length - baseHeight)).getD
        (arity - 1 - i) (.register placeholder)) =
      (operands.view.take arity).reverse := by
    refine List.ext_getElem (by simp; omega) fun index below _ => ?_
    rw [List.length_map, List.length_range] at below
    rw [List.getElem_map, List.getElem_range, List.getElem_reverse,
      List.getElem_take, List.getD_eq_getElem?_getD, List.getElem?_take,
      if_pos (by omega), List.getElem?_eq_getElem (by omega), Option.getD_some]
    congr 1
    rw [List.length_take]
    omega
  have peakLe := sound.peakLe
  rw [carriedEq]
  unfold maxRegisterSlots
  by_cases fits : base + arity ≤ u16Max
  · rw [if_pos fits]
    by_cases raises : base + arity > operands.maxRegisters
    · rw [if_pos raises, if_neg (by omega), asU16_of_le fits, raiseMax,
        max_eq_right (by omega)]
      rfl
    · rw [if_neg raises, raiseMax, max_eq_left (by omega)]
      rfl
  · rw [if_neg fits, if_pos (by omega), if_pos (by omega)]

/-- The operands that a branch carries, and the registers it carries them to. -/
theorem brTruncationRegisters_meets
    (sound : Sound locals operands)
    (enough : baseHeight + arity ≤ operands.view.length) :
    (operands.brTruncationRegisters baseHeight arity).Meets
      TraceWasmError.IsLimit
      fun (carried, mov, after) =>
        let base := locals + View.registers
          (operands.view.drop (operands.view.length - baseHeight))
        carried = (operands.view.take arity).reverse ∧
          mov = ⟨List.replicate arity placeholder, base⟩ ∧
          base + arity ≤ u16Max ∧
          after = raiseMax operands (base + arity) := by
  rw [sound.brTruncationRegisters_eq enough rfl]
  by_cases fits : locals + View.registers
      (operands.view.drop (operands.view.length - baseHeight)) + arity ≤ u16Max
  · rw [if_pos fits]
    exact ⟨rfl, rfl, fits, rfl⟩
  · rw [if_neg fits]
    trivial

end Sound

end OperandStack
end Register
end TraceWasm
