import TraceWasm.Foundation.Loop
import TraceWasm.Memory.ByteStore
import TraceWasm.Module.Initializers

/-!
# Active segments

What an active segment is for, and what applying it does. Its offset is a signed word
that is widened to the platform's word before it is compared with the size. An offset
from 2 GiB on becomes an offset past the end of every table and memory, so a segment
there is refused even if it fits; below 2 GiB a segment is applied exactly when it fits.
-/

namespace TraceWasm
namespace Instantiate

/-- The errors that say a segment does not fit. -/
inductive OutOfBounds : InstantiateError → Prop where
  | element : OutOfBounds (.elementSegmentOutOfBounds offset len tableLen)
  | data : OutOfBounds (.memoryError (.outOfBoundsAccess kind offset memLen))

/-! ## Widening an offset -/

/-- The offset that a segment is compared and applied with. -/
def widened (offset : BitVec 32) : Nat := (offset.signExtend 64).toNat

/-- An offset below `2 ^ 31` is widened to itself. -/
theorem widened_of_lt
    {offset : BitVec 32}
    (small : offset.toNat < 2 ^ 31) :
    widened offset = offset.toNat := by
  have positive : offset.msb = false := by
    rw [BitVec.msb_eq_false_iff_two_mul_lt]
    omega
  unfold widened
  rw [BitVec.toNat_signExtend, positive, BitVec.toNat_setWidth,
    Nat.mod_eq_of_lt (by omega)]
  rfl

/-- Any other is widened to the end of the address space. -/
theorem le_widened_of_le
    {offset : BitVec 32}
    (large : 2 ^ 31 ≤ offset.toNat) :
    2 ^ 64 - 2 ^ 32 ≤ widened offset := by
  have negative : offset.msb = true := by
    rw [BitVec.msb_eq_true_iff_two_mul_ge]
    omega
  unfold widened
  rw [BitVec.toNat_signExtend, negative, if_pos rfl]
  omega

/-! ## One segment -/

section Segment

variable (globalVals : List Val)

/-- The items have these values, whatever the type of their references. -/
inductive ItemsHave : ElementItems → List (Option FuncIndex) → Prop where
  | functions : ItemsHave (.functions funcs) (funcs.map some)
  | expressions
      (values : List.Forall₂ (fun init item =>
        (init.evaluate globalVals : Attempt InstantiateError Val) = .ok (.ref item))
        exprs items) :
      ItemsHave (.expressions isFuncRef exprs) items

/-- An active element segment whose expressions have these values. -/
structure ActiveElement
    (element : Element) (tableIndex : Nat) (offset : BitVec 32)
    (items : List (Option FuncIndex)) : Prop where
  active : ∃ index offsetExpr, element.kind = .active index offsetExpr ∧
    index.getD 0 = tableIndex ∧
    (offsetExpr.evaluate globalVals : Attempt InstantiateError Val) = .ok (.i32 offset)
  evaluated : ItemsHave globalVals element.items items

/-- An active data segment for the module's memory whose offset has this value. -/
def ActiveData (data : Data) (offset : BitVec 32) : Prop :=
  ∃ offsetExpr, data.kind = .active 0 offsetExpr ∧
    (offsetExpr.evaluate globalVals : Attempt InstantiateError Val) = .ok (.i32 offset)

/-- What an element segment is for: an active one that fits is written to its table at
its unsigned offset. The others leave the tables as they are. -/
inductive PlacedElement
    (tableVals : List TableVal) (element : Element) : List TableVal → Prop where
  | written
      (active : ActiveElement globalVals element tableIndex offset items)
      (found : tableVals[tableIndex]? = some table)
      (fits : offset.toNat + items.length ≤ table.table.length) :
      PlacedElement tableVals element (tableVals.set tableIndex
        { table with table := overwrite table.table offset.toNat items })
  | inactive
      (inactive : ∀ index offsetExpr, element.kind ≠ .active index offsetExpr) :
      PlacedElement tableVals element tableVals

/-- The same of a data segment and the memory. -/
inductive PlacedData (m : LinearMemory) (data : Data) : LinearMemory → Prop where
  | written
      (active : ActiveData globalVals data offset)
      (fits : offset.toNat + data.data.length ≤ m.inner.length) :
      PlacedData m data (m.set offset.toNat data.data)
  | passive
      (passive : data.kind = .passive) :
      PlacedData m data m

/-- The references of the segment are of the one type that instantiation handles. -/
def FuncRefs (element : Element) : Prop :=
  ∀ exprs, element.items ≠ .expressions false exprs

/-- The segment is not for a further memory. -/
def ForFirstMemory (data : Data) : Prop :=
  ∀ index offsetExpr, data.kind = .active index offsetExpr → index = 0

variable {globalVals}

/-- The offset of a segment is widened with its sign. -/
theorem segmentOffset_eq
    {offsetExpr : ConstExpr} {offset : BitVec 32}
    (evaluated : (offsetExpr.evaluate globalVals : Attempt InstantiateError Val) =
      .ok (.i32 offset)) :
    (segmentOffset globalVals offsetExpr : Attempt InstantiateError Nat) =
      .ok (widened offset) := by
  unfold segmentOffset
  rw [evaluated]
  rfl

/-- A segment has one list of references. -/
theorem ItemsHave.unique
    {items : ElementItems} {vals others : List (Option FuncIndex)}
    (known : ItemsHave globalVals items vals)
    (again : ItemsHave globalVals items others) :
    vals = others := by
  cases known with
  | functions =>
      cases again
      rfl
  | expressions values =>
      cases again with
      | expressions valuesAgain =>
          refine List.right_unique_forall₂' ?_ values valuesAgain
          intro init item other evaluated evaluatedAgain
          cases evaluated.symm.trans evaluatedAgain
          rfl

/-- A segment goes to one place. -/
theorem ActiveElement.unique
    {element : Element} {tableIndex otherIndex : Nat} {offset otherOffset : BitVec 32}
    {items others : List (Option FuncIndex)}
    (active : ActiveElement globalVals element tableIndex offset items)
    (again : ActiveElement globalVals element otherIndex otherOffset others) :
    tableIndex = otherIndex ∧ offset = otherOffset ∧ items = others := by
  obtain ⟨index, offsetExpr, kind, rfl, evaluated⟩ := active.active
  obtain ⟨_, _, kindAgain, rfl, evaluatedAgain⟩ := again.active
  cases kind.symm.trans kindAgain
  cases evaluated.symm.trans evaluatedAgain
  exact ⟨rfl, rfl, active.evaluated.unique again.evaluated⟩

/-- Writing an element segment has one result. -/
theorem PlacedElement.unique
    {tableVals after other : List TableVal} {element : Element}
    (placed : PlacedElement globalVals tableVals element after)
    (again : PlacedElement globalVals tableVals element other) :
    after = other := by
  cases placed with
  | written active found fits =>
      cases again with
      | written activeAgain foundAgain fitsAgain =>
          obtain ⟨rfl, rfl, rfl⟩ := active.unique activeAgain
          cases found.symm.trans foundAgain
          rfl
      | inactive inactive =>
          obtain ⟨index, offsetExpr, kind, _⟩ := active.active
          exact absurd kind (inactive index offsetExpr)
  | inactive inactive =>
      cases again with
      | written activeAgain foundAgain fitsAgain =>
          obtain ⟨index, offsetExpr, kind, _⟩ := activeAgain.active
          exact absurd kind (inactive index offsetExpr)
      | inactive _ => rfl

/-- Writing a data segment has one result. -/
theorem PlacedData.unique
    {m after other : LinearMemory} {data : Data}
    (placed : PlacedData globalVals m data after)
    (again : PlacedData globalVals m data other) :
    after = other := by
  cases placed with
  | written active fits =>
      obtain ⟨offsetExpr, kind, evaluated⟩ := active
      cases again with
      | written activeAgain fitsAgain =>
          obtain ⟨_, kindAgain, evaluatedAgain⟩ := activeAgain
          cases kind.symm.trans kindAgain
          cases evaluated.symm.trans evaluatedAgain
          rfl
      | passive passive => cases kind.symm.trans passive
  | passive passive =>
      cases again with
      | written activeAgain fitsAgain =>
          obtain ⟨_, kindAgain, _⟩ := activeAgain
          cases passive.symm.trans kindAgain
      | passive _ => rfl

/-- The items of a segment of function references are what they have to be. -/
theorem elementItems_eq
    {items : ElementItems} {vals : List (Option FuncIndex)}
    (known : ItemsHave globalVals items vals)
    (funcRefs : ∀ exprs, items ≠ .expressions false exprs) :
    elementItems globalVals items = .ok vals := by
  cases known with
  | functions => rfl
  | @expressions exprs vals isFuncRef values =>
      cases isFuncRef with
      | false => exact absurd rfl (funcRefs exprs)
      | true =>
          apply Attempt.mapM_eq_ok.mpr
          apply values.imp
          intro init item evaluated
          rw [evaluated]
          rfl

/-- Instantiation gives up at references of another type. -/
theorem applyElement_of_unsupported
    {element : Element} {exprs : List ConstExpr}
    (others : element.items = .expressions false exprs) (tableVals : List TableVal) :
    applyElement globalVals tableVals element =
      .fail (.unsupported "non-funcref table element types") := by
  unfold applyElement
  rw [others]
  rfl

/-- The subtraction in the bounds check says that the run fits. -/
theorem writeItems_eq (table : TableVal) (offset : Nat) (items : List (Option FuncIndex)) :
    writeItems table offset items =
      if offset + items.length ≤ table.table.length then
        .ok { table with table := overwrite table.table offset items }
      else .fail (.elementSegmentOutOfBounds offset items.length table.table.length) := by
  unfold writeItems
  by_cases fits : offset + items.length ≤ table.table.length
  · rw [if_pos fits, if_neg (by omega), writeRun_of_le fits]
    rfl
  · rw [if_neg fits, if_pos (by omega)]

/-- An active element segment is written if its widened offset lets it fit. -/
theorem applyElement_eq
    {element : Element} {tableIndex : Nat} {offset : BitVec 32}
    {items : List (Option FuncIndex)} {tableVals : List TableVal} {table : TableVal}
    (funcRefs : FuncRefs element)
    (active : ActiveElement globalVals element tableIndex offset items)
    (found : tableVals[tableIndex]? = some table) :
    applyElement globalVals tableVals element =
      if widened offset + items.length ≤ table.table.length then
        .ok (tableVals.set tableIndex
          { table with table := overwrite table.table (widened offset) items })
      else
        .fail (.elementSegmentOutOfBounds (widened offset) items.length
          table.table.length) := by
  obtain ⟨index, offsetExpr, kind, target, evaluated⟩ := active.active
  unfold applyElement
  rw [elementItems_eq active.evaluated funcRefs, Attempt.ok_bind, kind]
  dsimp only
  rw [target, segmentOffset_eq evaluated, Attempt.ok_bind, found, Attempt.orPanic_some,
    Attempt.ok_bind, writeItems_eq]
  split
  · rfl
  · rfl

/-- A segment that is not active is only evaluated. -/
theorem applyElement_of_inactive
    {element : Element} {items : List (Option FuncIndex)} {tableVals : List TableVal}
    (funcRefs : FuncRefs element)
    (evaluated : ItemsHave globalVals element.items items)
    (inactive : ∀ index offsetExpr, element.kind ≠ .active index offsetExpr) :
    applyElement globalVals tableVals element = .ok tableVals := by
  unfold applyElement
  rw [elementItems_eq evaluated funcRefs, Attempt.ok_bind]
  cases kind : element.kind with
  | active index offsetExpr => exact absurd kind (inactive index offsetExpr)
  | passive => rfl
  | declared => rfl

/-- An active data segment is written if its widened offset lets it fit. -/
theorem applyData_eq
    {data : Data} {offset : BitVec 32} {m : LinearMemory}
    (active : ActiveData globalVals data offset) :
    applyData globalVals m data =
      if widened offset + data.data.length ≤ m.inner.length then
        .ok (.dropped, m.set (widened offset) data.data)
      else .fail (.memoryError (.outOfBoundsAccess .write (widened offset)
        m.inner.length)) := by
  obtain ⟨offsetExpr, kind, evaluated⟩ := active
  have wrote : MemoryView.write m (widened offset) data.data =
      if widened offset + data.data.length ≤ m.inner.length then
        (.ok (), m.set (widened offset) data.data)
      else (.fail (.outOfBoundsAccess .write (widened offset) m.inner.length), m) :=
    m.write_eq (widened offset) data.data
  unfold applyData
  rw [kind]
  dsimp only
  rw [if_neg (by decide), segmentOffset_eq evaluated, Attempt.ok_bind, wrote]
  by_cases fits : widened offset + data.data.length ≤ m.inner.length
  · rw [if_pos fits, if_pos fits]
    rfl
  · rw [if_neg fits, if_neg fits]
    rfl

/-- A segment is applied with its unsigned offset when it fits and its offset is
below 2 GiB; no other segment is applied. -/
theorem widened_add_le_iff
    {offset : BitVec 32} {len size : Nat}
    (sizeFits : size < 2 ^ 64 - 2 ^ 32) :
    widened offset + len ≤ size ↔
      offset.toNat < 2 ^ 31 ∧ offset.toNat + len ≤ size := by
  by_cases small : offset.toNat < 2 ^ 31
  · rw [widened_of_lt small]
    exact ⟨fun fits => ⟨small, fits⟩, fun fits => fits.2⟩
  · have large := @le_widened_of_le offset (by omega)
    constructor
    · omega
    · omega

end Segment

/-! ## The sizes a segment is compared with -/

/-- A table has fewer than `2 ^ 32` elements. -/
theorem initTable_fits
    {config : Config} {globalVals : List Val} {table : Table} {tableVal : TableVal}
    (created : initTable config globalVals table = .ok tableVal) :
    tableVal.table.length < 2 ^ 32 := by
  have cap := config.tableFits
  unfold initTable at created
  dsimp only at created
  split at created
  · cases created
  · split at created
    · cases created
      dsimp only
      rw [List.length_replicate]
      omega
    · obtain ⟨val, _, created⟩ := Attempt.bind_eq_ok.mp created
      obtain ⟨func, _, created⟩ := Attempt.bind_eq_ok.mp created
      cases created
      dsimp only
      rw [List.length_replicate]
      omega

/-- A segment changes no table's size. -/
theorem PlacedElement.lengths_eq
    {globalVals : List Val} {tableVals after : List TableVal} {element : Element}
    (placed : PlacedElement globalVals tableVals element after) :
    after.map (·.table.length) = tableVals.map (·.table.length) := by
  cases placed with
  | written active found fits =>
      obtain ⟨inside, same⟩ := List.getElem?_eq_some_iff.mp found
      have kept := List.set_getElem_self (inside.trans_eq
        (List.length_map fun table : TableVal => table.table.length).symm)
      rw [List.getElem_map, same] at kept
      rw [List.map_set]
      dsimp only
      rw [length_overwrite]
      exact kept
  | inactive _ => rfl

/-- Pages under the cap fit the address space. -/
theorem pages_fit
    {pages : Nat} (config : Config)
    (capped : pages ≤ config.maxMemorySizeInPages) :
    pages * wasmMemoryPageSize < 2 ^ 48 := by
  have cap := config.memoryFits
  unfold wasmMemoryPageSize
  omega

/-- A memory below the cap is allocated, and is zero. -/
theorem initialMemory_eq
    {Instr FrameLayout : Type} {module : Module Instr FrameLayout} {config : Config}
    (capped : initialPages module ≤ config.maxMemorySizeInPages) :
    (initialMemory module config : Attempt InstantiateError LinearMemory) =
      .ok (.zeros (initialPages module * wasmMemoryPageSize)
        (Nat.le_of_lt (Nat.lt_trans (pages_fit config capped) (by decide)))) := by
  have created : (Memory.allocateInitialMemory (initialPages module) :
      Attempt MemoryError LinearMemory) = _ :=
    LinearMemory.new_of_le
      (Nat.le_of_lt (Nat.lt_trans (pages_fit config capped) (by decide)))
  unfold initialMemory
  rw [if_neg (Nat.not_lt.mpr capped), created]

/-- So does the initial memory. -/
theorem initialMemory_fits
    {Instr FrameLayout : Type} {module : Module Instr FrameLayout} {config : Config}
    {m : LinearMemory}
    (allocated : initialMemory module config = .ok m) :
    m.inner.length < 2 ^ 48 := by
  by_cases capped : initialPages module ≤ config.maxMemorySizeInPages
  · rw [initialMemory_eq capped] at allocated
    cases allocated
    exact (List.length_replicate).trans_lt (pages_fit config capped)
  · unfold initialMemory at allocated
    rw [if_pos (Nat.lt_of_not_le capped)] at allocated
    cases allocated

/-- A segment does not change the memory's size. -/
theorem PlacedData.length_eq
    {globalVals : List Val} {m after : LinearMemory} {data : Data}
    (placed : PlacedData globalVals m data after) :
    after.inner.length = m.inner.length := by
  cases placed with
  | written active fits => exact length_overwrite _ _ _
  | passive _ => rfl

/-! ## A list of data segments -/

/-- Apply one data segment, leaving out what is left of it. -/
def writeData (globalVals : List Val) (m : LinearMemory) (data : Data) :
    Attempt InstantiateError LinearMemory :=
  (applyData globalVals m data).map Prod.snd

/-- Applying the data segments folds their writes over the memory. -/
theorem applyDatas_map_snd (globalVals : List Val) (m : LinearMemory) (datas : List Data) :
    (applyDatas globalVals m datas).map Prod.snd =
      datas.foldlM (writeData globalVals) m := by
  induction datas generalizing m with
  | nil => rfl
  | cons data datas inductionHypothesis =>
      rw [applyDatas, List.foldlM_cons, writeData]
      cases applied : applyData globalVals m data with
      | error fault => rfl
      | ok result =>
          obtain ⟨left, between⟩ := result
          change Except.map Prod.snd (applyDatas globalVals between datas >>= _) =
            datas.foldlM (writeData globalVals) between
          rw [← inductionHypothesis]
          cases applyDatas globalVals between datas with
          | error fault => rfl
          | ok result => rfl

/-- Whatever is applied, the memory keeps its size. -/
theorem length_of_applyData
    {globalVals : List Val} {m after : LinearMemory} {data : Data} {left : DataVal}
    (applied : applyData globalVals m data = .ok (left, after)) :
    after.inner.length = m.inner.length := by
  unfold applyData at applied
  split at applied
  · cases applied
    rfl
  · split at applied
    · cases applied
    · obtain ⟨offset, _, applied⟩ := Attempt.bind_eq_ok.mp applied
      have wrote := m.write_eq offset data.data
      change MemoryView.write m offset data.data = _ at wrote
      rw [wrote] at applied
      split at applied
      · rename_i same
        split at same
        · cases same
          cases applied
          exact length_overwrite _ _ _
        · cases same
      · cases applied
      · cases applied

/-- Applying the data segments keeps the size of the memory. -/
theorem length_of_applyDatas
    {globalVals : List Val} {m after : LinearMemory} {datas : List Data}
    {left : List DataVal}
    (applied : applyDatas globalVals m datas = .ok (left, after)) :
    after.inner.length = m.inner.length := by
  induction datas generalizing m left with
  | nil =>
      cases applied
      rfl
  | cons data datas inductionHypothesis =>
      rw [applyDatas] at applied
      obtain ⟨⟨_, between⟩, first, applied⟩ := Attempt.bind_eq_ok.mp applied
      obtain ⟨⟨_, _⟩, rest, applied⟩ := Attempt.bind_eq_ok.mp applied
      cases applied
      exact (inductionHypothesis rest).trans (length_of_applyData first)

/-! ## Validated segments -/

/-- What validation says of an initializer. -/
def ValidInit
    (debug : Operator → String) (context : ConstExpr.Context) (expected : ValType)
    (init : ConstExpr) : Prop :=
  ∃ operators, context.Validates expected operators [] ∧
    ConstExpr.emitInstructionForConstExpr debug operators = .ok init

/-- What validation says of an element segment: its table is there and its expressions
are of the types they have to be. -/
structure ValidElement
    (debug : Operator → String) (context : ConstExpr.Context) (tableCount : Nat)
    (element : Element) : Prop where
  kind : ∀ index offsetExpr, element.kind = .active index offsetExpr →
    index.getD 0 < tableCount ∧ ValidInit debug context .i32 offsetExpr
  items : ∀ isFuncRef exprs, element.items = .expressions isFuncRef exprs →
    ∀ init ∈ exprs, ∃ ty, ValidInit debug context (.ref ty) init

/-- What validation says of a module's initializers, as far as segments read them. -/
structure ValidSegments
    {Instr FrameLayout : Type} (debug : Operator → String)
    (module : Module Instr FrameLayout) : Prop where
  funcFits : module.funcDecls.length ≤ 2 ^ 32
  globals : ConstExpr.Declares debug module.funcDecls.length funcFits
    ((module.globals.take module.importedGlobalCount).map Global.ty)
    (module.globals.drop module.importedGlobalCount)
  elements : ∀ element ∈ module.elements, ValidElement debug
    ⟨module.globals.map Global.ty, module.funcDecls.length, funcFits⟩
    module.tables.length element
  datas : ∀ data ∈ module.datas, ∀ index offsetExpr,
    data.kind = .active index offsetExpr → ValidInit debug
      ⟨module.globals.map Global.ty, module.funcDecls.length, funcFits⟩ .i32 offsetExpr

section Valid

variable {debug : Operator → String} {context : ConstExpr.Context} {globalVals : List Val}

/-- A valid expression evaluates to a value of its type. -/
theorem ValidInit.evaluates
    {expected : ValType} {init : ConstExpr}
    (valid : ValidInit debug context expected init)
    (assigned : context.Assigned globalVals) :
    ∃ val : Val, (init.evaluate globalVals : Attempt InstantiateError Val) = .ok val ∧
      val.HasTy expected := by
  obtain ⟨operators, validates, emitted⟩ := valid
  obtain ⟨_, val, _, _, evaluated, typed, _⟩ :=
    @ConstExpr.leavesMeaning_of_validates _ _ _ _ InstantiateError _ _ validates emitted
      assigned
  exact ⟨val, evaluated, typed⟩

/-- A valid offset evaluates to an `i32`. -/
theorem ValidInit.offset
    {offsetExpr : ConstExpr}
    (valid : ValidInit debug context .i32 offsetExpr)
    (assigned : context.Assigned globalVals) :
    ∃ offset, (offsetExpr.evaluate globalVals : Attempt InstantiateError Val) =
      .ok (.i32 offset) := by
  obtain ⟨val, evaluated, typed⟩ := valid.evaluates assigned
  cases typed with
  | i32 => exact ⟨_, evaluated⟩

/-- Valid references evaluate. -/
theorem exists_references
    {exprs : List ConstExpr}
    (valid : ∀ init ∈ exprs, ∃ ty, ValidInit debug context (.ref ty) init)
    (assigned : context.Assigned globalVals) :
    ∃ items, List.Forall₂ (fun init item =>
      (init.evaluate globalVals : Attempt InstantiateError Val) = .ok (.ref item))
      exprs items := by
  induction exprs with
  | nil => exact ⟨[], .nil⟩
  | cons init exprs inductionHypothesis =>
      obtain ⟨⟨ty, first⟩, others⟩ := List.forall_mem_cons.mp valid
      obtain ⟨items, values⟩ := inductionHypothesis others
      obtain ⟨val, evaluated, typed⟩ := first.evaluates assigned
      cases typed with
      | @ref item _ => exact ⟨item :: items, .cons evaluated values⟩

/-- The references of a valid segment evaluate. -/
theorem ValidElement.itemsHave
    {tableCount : Nat} {element : Element}
    (valid : ValidElement debug context tableCount element)
    (assigned : context.Assigned globalVals) :
    ∃ items, ItemsHave globalVals element.items items := by
  cases shape : element.items with
  | functions funcs => exact ⟨_, .functions⟩
  | expressions isFuncRef exprs =>
      obtain ⟨items, values⟩ := exists_references (valid.items _ _ shape) assigned
      exact ⟨items, .expressions values⟩

/-- A valid segment is active with a table, an offset and items, or not active. -/
theorem ValidElement.cases
    {tableCount : Nat} {element : Element}
    (valid : ValidElement debug context tableCount element)
    (assigned : context.Assigned globalVals) :
    (∃ tableIndex offset items, tableIndex < tableCount ∧
      ActiveElement globalVals element tableIndex offset items) ∨
      ∀ index offsetExpr, element.kind ≠ .active index offsetExpr := by
  cases kind : element.kind with
  | active index offsetExpr =>
      obtain ⟨inside, validOffset⟩ := valid.kind index offsetExpr kind
      obtain ⟨offset, evaluated⟩ := validOffset.offset assigned
      obtain ⟨items, evaluatedItems⟩ := valid.itemsHave assigned
      exact .inl ⟨_, offset, items, inside, ⟨index, offsetExpr, kind, rfl, evaluated⟩,
        evaluatedItems⟩
  | passive => exact .inr fun _ _ impossible => by cases impossible
  | declared => exact .inr fun _ _ impossible => by cases impossible

end Valid

end Instantiate
end TraceWasm
