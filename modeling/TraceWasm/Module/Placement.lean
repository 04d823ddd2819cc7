import TraceWasm.Module.Segments
import TraceWasm.Stack.Machine

/-!
# Segments at instantiation

Instantiation takes the active segments in order, the elements before the data. The
instance that it returns has their writes in the tables and the memory that it started
from, and there is none if a segment does not fit.
-/

namespace TraceWasm
namespace Instantiate

/-! ## When a segment's turn comes -/

section Reached

variable {registry : Type} (machine : Machine LinearMemory registry)
variable (host : ImportRegistry registry) (module : machine.Code)
variable (importRegistry : registry) (config : Option Config)

/-- Instantiation gets to the segments with these globals, tables and memory. -/
structure ReachesSegments
    (globalVals : List Val) (tableVals : List TableVal) (m : LinearMemory) : Prop where
  imports : checkImports host importRegistry module = .ok ()
  allocated : initialMemory module (narrowConfig module (config.getD .default)) = .ok m
  globals : initGlobals host importRegistry module = .ok globalVals
  tables : module.tables.mapM
    (initTable (narrowConfig module (config.getD .default)) globalVals) = .ok tableVals

/-- An element segment's turn has come, with these tables: all segments before it fit
and are written. -/
structure ReachesElement
    (globalVals : List Val) (tableVals : List TableVal) (element : Element) : Prop where
  reached : ∃ start m front rest,
    ReachesSegments machine host module importRegistry config globalVals start m ∧
      module.elements = front ++ element :: rest ∧
      Folds (PlacedElement globalVals) start front tableVals

/-- A data segment's turn has come, with this memory. -/
structure ReachesData
    (globalVals : List Val) (m : LinearMemory) (data : Data) : Prop where
  reached : ∃ start initial tableVals front rest,
    ReachesSegments machine host module importRegistry config globalVals start initial ∧
      Folds (PlacedElement globalVals) start module.elements tableVals ∧
      module.datas = front ++ data :: rest ∧
      Folds (PlacedData globalVals) initial front m

/-- All segments fit, and writing them in order gives these tables and this memory. -/
structure AllPlaced
    (globalVals : List Val) (start : List TableVal) (initial : LinearMemory)
    (tableVals : List TableVal) (m : LinearMemory) : Prop where
  elements : Folds (PlacedElement globalVals) start module.elements tableVals
  datas : Folds (PlacedData globalVals) initial module.datas m

variable (frame : machine.RuntimeFrame)

/-- Instantiation comes to an instance with these globals, tables and memory, on which
the start function runs. -/
def Instantiates
    (globalVals : List Val) (tableVals : List TableVal) (m : LinearMemory) : Prop :=
  ∀ fuel, ∃ dataVals inst,
    inst = ⟨m, frame, importRegistry, narrowConfig module (config.getD .default),
      globalVals, tableVals, dataVals⟩ ∧
    instantiate machine host fuel module importRegistry config frame =
      runStart machine fuel module inst ∧
    (module.startSection = none →
      instantiate machine host fuel module importRegistry config frame = some (.ok inst))

/-- Instantiation fails because a segment does not fit. -/
def Refuses : Prop :=
  ∃ error, OutOfBounds error ∧
    ∀ fuel, instantiate machine host fuel module importRegistry config frame =
      some (.fail error)

/-- Each segment is applied in its turn if it fits. -/
structure AppliesSegments : Prop where
  /-- An element segment whose turn has come is applied if it fits. -/
  element : ∀ globalVals tableVals element after,
    ReachesElement machine host module importRegistry config globalVals tableVals element →
    PlacedElement globalVals tableVals element after →
      applyElement globalVals tableVals element = .ok after
  /-- So is a data segment. -/
  data : ∀ globalVals m data after,
    ReachesData machine host module importRegistry config globalVals m data →
    PlacedData globalVals m data after →
      writeData globalVals m data = .ok after

/-- Instantiation applies each segment in order, exactly when it fits, and writes nothing
else than what it asks for. -/
structure PlacesSegments : Prop
    extends AppliesSegments machine host module importRegistry config where
  /-- If all segments fit, the instance has their writes. -/
  placed : ∀ globalVals start initial tableVals m,
    ReachesSegments machine host module importRegistry config globalVals start initial →
    AllPlaced machine module globalVals start initial tableVals m →
      Instantiates machine host module importRegistry config frame globalVals tableVals m
  /-- If one does not, there is an error and no instance. -/
  refused : ∀ globalVals start initial,
    ReachesSegments machine host module importRegistry config globalVals start initial →
    (¬∃ tableVals m, AllPlaced machine module globalVals start initial tableVals m) →
      Refuses machine host module importRegistry config frame

/-- Every segment whose turn comes is one that instantiation handles, and none that fits
starts from 2 GiB on. -/
structure SegmentsInReach : Prop where
  element : ∀ globalVals tableVals element,
    ReachesElement machine host module importRegistry config globalVals tableVals element →
    FuncRefs element ∧ ∀ tableIndex offset items table,
      ActiveElement globalVals element tableIndex offset items →
      tableVals[tableIndex]? = some table →
      offset.toNat + items.length ≤ table.table.length →
        offset.toNat < 2 ^ 31
  data : ∀ globalVals m data,
    ReachesData machine host module importRegistry config globalVals m data →
    ForFirstMemory data ∧ ∀ offset, ActiveData globalVals data offset →
      offset.toNat + data.data.length ≤ m.inner.length →
        offset.toNat < 2 ^ 31

variable {machine host module importRegistry config frame}

/-! ### Sizes and types -/

/-- The tables that segments are written to are small. -/
theorem ReachesElement.fits
    {globalVals : List Val} {tableVals : List TableVal} {element : Element}
    {tableIndex : Nat} {table : TableVal}
    (reaches : ReachesElement machine host module importRegistry config globalVals
      tableVals element)
    (found : tableVals[tableIndex]? = some table) :
    table.table.length < 2 ^ 64 - 2 ^ 32 := by
  obtain ⟨start, m, front, rest, reached, _, placed⟩ := reaches.reached
  have created : ∀ table ∈ start, table.table.length < 2 ^ 32 :=
    Attempt.forall_mem_of_mapM (fun _ _ _ => initTable_fits) reached.tables
  have sizes : tableVals.map (·.table.length) = start.map (·.table.length) :=
    placed.measure_eq (fun vals => vals.map (·.table.length)) PlacedElement.lengths_eq
  have inside : table.table.length ∈ start.map (·.table.length) := by
    rw [← sizes]
    exact List.mem_map_of_mem (List.mem_of_getElem? found)
  obtain ⟨original, mem, same⟩ := List.mem_map.mp inside
  have bound := created original mem
  omega

/-- The table that a valid segment is for is there. -/
theorem ReachesElement.exists_table
    {globalVals : List Val} {tableVals : List TableVal} {element : Element}
    {tableIndex : Nat}
    (reaches : ReachesElement machine host module importRegistry config globalVals
      tableVals element)
    (inside : tableIndex < module.tables.length) :
    ∃ table, tableVals[tableIndex]? = some table := by
  obtain ⟨start, m, front, rest, reached, _, placed⟩ := reaches.reached
  have sizes := placed.measure_eq (fun vals => vals.map (·.table.length))
    PlacedElement.lengths_eq
  have lengths := congrArg List.length sizes
  have created := (Attempt.mapM_eq_ok.mp reached.tables).length_eq
  rw [List.length_map, List.length_map] at lengths
  exact ⟨_, List.getElem?_eq_getElem (by omega)⟩

/-- The memory that segments are written to is small. -/
theorem ReachesData.fits
    {globalVals : List Val} {m : LinearMemory} {data : Data}
    (reaches : ReachesData machine host module importRegistry config globalVals m data) :
    m.inner.length < 2 ^ 64 - 2 ^ 32 := by
  obtain ⟨_, initial, _, front, _, reached, _, _, placed⟩ := reaches.reached
  have bound := initialMemory_fits reached.allocated
  have size : m.inner.length = initial.inner.length :=
    placed.measure_eq (fun m => m.inner.length) PlacedData.length_eq
  omega

/-- The globals are those that the segments' expressions read. -/
theorem ReachesSegments.assigned
    {debug : Operator → String} {globalVals : List Val} {start : List TableVal}
    {initial : LinearMemory}
    (reached : ReachesSegments machine host module importRegistry config globalVals start
      initial)
    (valid : ValidSegments debug module) :
    ConstExpr.Context.Assigned
      ⟨module.globals.map Global.ty, module.funcDecls.length, valid.funcFits⟩ globalVals :=
  ConstExpr.assigned_of_typed (ConstExpr.typed_of_initGlobals valid.globals reached.globals)

/-- A segment whose turn comes is one of the module's, and is valid. -/
theorem ReachesElement.valid
    {debug : Operator → String} {globalVals : List Val} {tableVals : List TableVal}
    {element : Element}
    (reaches : ReachesElement machine host module importRegistry config globalVals tableVals
      element)
    (valid : ValidSegments debug module) :
    ValidElement debug
        ⟨module.globals.map Global.ty, module.funcDecls.length, valid.funcFits⟩
        module.tables.length element ∧
      ConstExpr.Context.Assigned
        ⟨module.globals.map Global.ty, module.funcDecls.length, valid.funcFits⟩
        globalVals := by
  obtain ⟨start, initial, front, rest, reached, elements, _⟩ := reaches.reached
  have member : element ∈ module.elements := by
    rw [elements]
    exact List.mem_append_right _ List.mem_cons_self
  exact ⟨valid.elements element member, reached.assigned valid⟩

/-- The offset of a segment that is reached has a value. -/
theorem ReachesData.offset
    {debug : Operator → String} {globalVals : List Val} {m : LinearMemory} {data : Data}
    {index : Nat} {offsetExpr : ConstExpr}
    (reaches : ReachesData machine host module importRegistry config globalVals m data)
    (valid : ValidSegments debug module)
    (kind : data.kind = .active index offsetExpr) :
    ∃ offset, (offsetExpr.evaluate globalVals : Attempt InstantiateError Val) =
      .ok (.i32 offset) := by
  obtain ⟨start, initial, tableVals, front, rest, reached, _, datas, _⟩ := reaches.reached
  have member : data ∈ module.datas := by
    rw [datas]
    exact List.mem_append_right _ List.mem_cons_self
  exact (valid.datas data member index offsetExpr kind).offset (reached.assigned valid)

/-! ### What is built -/

/-- From the segments on, all that is left is to apply them. -/
theorem ReachesSegments.build_eq
    {globalVals : List Val} {tableVals : List TableVal} {m : LinearMemory}
    (reached : ReachesSegments machine host module importRegistry config globalVals
      tableVals m)
    (frame : machine.RuntimeFrame) :
    build machine host module importRegistry (config.getD .default) frame = do
      let tableVals ← module.elements.foldlM (applyElement globalVals) tableVals
      let (dataVals, m) ← applyDatas globalVals m module.datas
      return ⟨m, frame, importRegistry, narrowConfig module (config.getD .default),
        globalVals, tableVals, dataVals⟩ := by
  unfold build
  rw [reached.imports, Attempt.ok_bind]
  dsimp only
  rw [reached.allocated, Attempt.ok_bind, reached.globals, Attempt.ok_bind,
    reached.tables, Attempt.ok_bind]

/-- With all segments applied, the start function is left. -/
theorem ReachesSegments.instantiates
    {globalVals : List Val} {start tableVals : List TableVal} {initial m : LinearMemory}
    (reached : ReachesSegments machine host module importRegistry config globalVals start
      initial)
    (elements : module.elements.foldlM (applyElement globalVals) start = .ok tableVals)
    (datas : module.datas.foldlM (writeData globalVals) initial = .ok m) :
    Instantiates machine host module importRegistry config frame globalVals tableVals m := by
  intro fuel
  rw [← applyDatas_map_snd] at datas
  obtain ⟨⟨dataVals, after⟩, applied, same⟩ := Attempt.map_eq_ok.mp datas
  obtain rfl : m = after := same.symm
  have built := reached.build_eq frame
  rw [elements, Attempt.ok_bind, applied] at built
  have runs : instantiate machine host fuel module importRegistry config frame =
      runStart machine fuel module ⟨m, frame, importRegistry,
        narrowConfig module (config.getD .default), globalVals, tableVals, dataVals⟩ := by
    unfold instantiate
    rw [built]
    rfl
  refine ⟨dataVals, _, rfl, runs, fun noStart => ?_⟩
  rw [runs, runStart, noStart]

/-- A module that cannot be built is not instantiated. -/
theorem instantiate_of_build_fails
    {fault : Fault InstantiateError}
    (failed : build machine host module importRegistry (config.getD .default) frame =
      .error fault)
    (fuel : Nat) :
    instantiate machine host fuel module importRegistry config frame =
      some (.error fault) := by
  unfold instantiate
  rw [failed]

/-! ### Segments that are applied -/

/-- The element segments up to any of them are written in order. -/
theorem AppliesSegments.elements_eq
    {globalVals : List Val} {start tableVals : List TableVal} {initial : LinearMemory}
    {front rest : List Element}
    (applies : AppliesSegments machine host module importRegistry config)
    (reached : ReachesSegments machine host module importRegistry config globalVals start
      initial)
    (elements : module.elements = front ++ rest)
    (placed : Folds (PlacedElement globalVals) start front tableVals) :
    front.foldlM (applyElement globalVals) start = .ok tableVals := by
  apply Attempt.foldlM_of_folds _ placed
  rintro before element behind state after rfl between step
  rw [List.append_assoc] at elements
  exact applies.element _ _ _ _
    ⟨start, initial, before, behind ++ rest, reached, elements, between⟩ step

/-- The data segments up to any of them are written in order. -/
theorem AppliesSegments.datas_eq
    {globalVals : List Val} {start tableVals : List TableVal} {initial m : LinearMemory}
    {front rest : List Data}
    (applies : AppliesSegments machine host module importRegistry config)
    (reached : ReachesSegments machine host module importRegistry config globalVals start
      initial)
    (elements : Folds (PlacedElement globalVals) start module.elements tableVals)
    (datas : module.datas = front ++ rest)
    (placed : Folds (PlacedData globalVals) initial front m) :
    front.foldlM (writeData globalVals) initial = .ok m := by
  apply Attempt.foldlM_of_folds _ placed
  rintro before data behind state after rfl between step
  rw [List.append_assoc] at datas
  exact applies.data _ _ _ _
    ⟨start, initial, tableVals, before, behind ++ rest, reached, elements, datas, between⟩
    step

/-- An element segment that fails in its turn makes instantiation fail with it. -/
theorem AppliesSegments.fails_of_element
    {globalVals : List Val} {tableVals : List TableVal} {element : Element}
    {fault : Fault InstantiateError}
    (applies : AppliesSegments machine host module importRegistry config)
    (reaches : ReachesElement machine host module importRegistry config globalVals tableVals
      element)
    (failed : applyElement globalVals tableVals element = .error fault)
    (fuel : Nat) :
    instantiate machine host fuel module importRegistry config frame =
      some (.error fault) := by
  obtain ⟨start, initial, front, rest, reached, elements, before⟩ := reaches.reached
  have ran := applies.elements_eq reached elements before
  have whole := @Attempt.foldlM_of_error _ _ _ _ _ rest _ _ _ _ ran failed
  apply instantiate_of_build_fails
  rw [reached.build_eq, elements, whole]
  rfl

/-- So does a data segment. -/
theorem AppliesSegments.fails_of_data
    {globalVals : List Val} {m : LinearMemory} {data : Data} {fault : Fault InstantiateError}
    (applies : AppliesSegments machine host module importRegistry config)
    (reaches : ReachesData machine host module importRegistry config globalVals m data)
    (failed : writeData globalVals m data = .error fault)
    (fuel : Nat) :
    instantiate machine host fuel module importRegistry config frame =
      some (.error fault) := by
  obtain ⟨start, initial, tableVals, front, rest, reached, elements, datas, before⟩ :=
    reaches.reached
  have ranElements := applies.elements_eq reached (List.append_nil _).symm elements
  have ran := applies.datas_eq reached elements datas before
  have whole := @Attempt.foldlM_of_error _ _ _ _ _ rest _ _ _ _ ran failed
  rw [← datas, ← applyDatas_map_snd] at whole
  have applied := Attempt.map_eq_error.mp whole
  apply instantiate_of_build_fails
  rw [reached.build_eq, ranElements, Attempt.ok_bind, applied]
  rfl

/-! ### Placed where the condition holds -/

/-- An element segment is written if it fits, and refused otherwise. -/
theorem SegmentsInReach.element_eq
    {globalVals : List Val} {tableVals after : List TableVal} {element : Element}
    {debug : Operator → String}
    (inReach : SegmentsInReach machine host module importRegistry config)
    (valid : ValidSegments debug module)
    (reaches : ReachesElement machine host module importRegistry config globalVals
      tableVals element)
    (placed : PlacedElement globalVals tableVals element after) :
    applyElement globalVals tableVals element = .ok after := by
  obtain ⟨funcRefs, below⟩ := inReach.element globalVals tableVals element reaches
  cases placed with
  | written active found fits =>
      rw [applyElement_eq funcRefs active found,
        widened_of_lt (below _ _ _ _ active found fits), if_pos fits]
  | inactive inactive =>
      obtain ⟨validElement, assigned⟩ := reaches.valid valid
      obtain ⟨items, evaluated⟩ := validElement.itemsHave assigned
      exact applyElement_of_inactive funcRefs evaluated inactive

/-- A data segment is written if it fits, and refused otherwise. -/
theorem SegmentsInReach.data_eq
    {globalVals : List Val} {m after : LinearMemory} {data : Data}
    (inReach : SegmentsInReach machine host module importRegistry config)
    (reaches : ReachesData machine host module importRegistry config globalVals m data)
    (placed : PlacedData globalVals m data after) :
    writeData globalVals m data = .ok after := by
  cases placed with
  | written active fits =>
      have below := (inReach.data globalVals m data reaches).2 _ active fits
      rw [writeData, applyData_eq active, widened_of_lt below, if_pos fits]
      rfl
  | passive passive =>
      rw [writeData, applyData, passive]
      rfl

/-- Segments in reach are written one after another. -/
theorem SegmentsInReach.applies
    {debug : Operator → String}
    (inReach : SegmentsInReach machine host module importRegistry config)
    (valid : ValidSegments debug module) :
    AppliesSegments machine host module importRegistry config where
  element _ _ _ _ reaches placed := inReach.element_eq valid reaches placed
  data _ _ _ _ reaches placed := inReach.data_eq reaches placed

/-- An element segment that does not fit is refused. -/
theorem SegmentsInReach.refuses_element
    {globalVals : List Val} {tableVals : List TableVal} {element : Element}
    {debug : Operator → String}
    (inReach : SegmentsInReach machine host module importRegistry config)
    (valid : ValidSegments debug module)
    (reaches : ReachesElement machine host module importRegistry config globalVals tableVals
      element)
    (stuck : ∀ after, ¬PlacedElement globalVals tableVals element after) :
    Refuses machine host module importRegistry config frame := by
  obtain ⟨validElement, assigned⟩ := reaches.valid valid
  rcases validElement.cases assigned with
    ⟨tableIndex, offset, items, inside, active⟩ | inactive
  · obtain ⟨table, found⟩ := reaches.exists_table inside
    have tooLong : ¬offset.toNat + items.length ≤ table.table.length := fun fits =>
      stuck _ (.written active found fits)
    have refused : ¬widened offset + items.length ≤ table.table.length := fun fits =>
      tooLong ((widened_add_le_iff (reaches.fits found)).mp fits).2
    have failed := applyElement_eq (inReach.element _ _ _ reaches).1 active found
    rw [if_neg refused] at failed
    exact ⟨_, .element, (inReach.applies valid).fails_of_element reaches failed⟩
  · exact absurd (.inactive inactive) (stuck _)

/-- So is a data segment. -/
theorem SegmentsInReach.refuses_data
    {globalVals : List Val} {m : LinearMemory} {data : Data} {debug : Operator → String}
    (inReach : SegmentsInReach machine host module importRegistry config)
    (valid : ValidSegments debug module)
    (reaches : ReachesData machine host module importRegistry config globalVals m data)
    (stuck : ∀ after, ¬PlacedData globalVals m data after) :
    Refuses machine host module importRegistry config frame := by
  cases kind : data.kind with
  | passive => exact absurd (.passive kind) (stuck _)
  | active index offsetExpr =>
      obtain rfl := (inReach.data _ _ _ reaches).1 _ _ kind
      obtain ⟨offset, evaluated⟩ := reaches.offset valid kind
      have active : ActiveData globalVals data offset := ⟨offsetExpr, kind, evaluated⟩
      have refused : ¬widened offset + data.data.length ≤ m.inner.length := fun fits =>
        stuck _ (.written active ((widened_add_le_iff reaches.fits).mp fits).2)
      have failed : writeData globalVals m data = .fail (.memoryError
          (.outOfBoundsAccess .write (widened offset) m.inner.length)) := by
        rw [writeData, applyData_eq active, if_neg refused]
        rfl
      exact ⟨_, .data, (inReach.applies valid).fails_of_data reaches failed⟩

/-- A segment in reach that does not fit is refused. -/
theorem SegmentsInReach.refuses
    {globalVals : List Val} {start : List TableVal} {initial : LinearMemory}
    {debug : Operator → String}
    (inReach : SegmentsInReach machine host module importRegistry config)
    (valid : ValidSegments debug module)
    (reached : ReachesSegments machine host module importRegistry config globalVals start
      initial)
    (blocked : ¬∃ tableVals m, AllPlaced machine module globalVals start initial tableVals
      m) :
    Refuses machine host module importRegistry config frame := by
  by_cases elements : ∃ tableVals, Folds (PlacedElement globalVals) start module.elements
      tableVals
  · obtain ⟨tableVals, placed⟩ := elements
    have blockedData : ¬∃ m, Folds (PlacedData globalVals) initial module.datas m :=
      fun ⟨m, datas⟩ => blocked ⟨tableVals, m, placed, datas⟩
    obtain ⟨front, data, rest, m, datas, before, stuck⟩ := Folds.exists_stuck blockedData
    exact inReach.refuses_data valid
      ⟨start, initial, tableVals, front, rest, reached, placed, datas, before⟩ stuck
  · obtain ⟨front, element, rest, tableVals, isElements, before, stuck⟩ :=
      Folds.exists_stuck elements
    exact inReach.refuses_element valid
      ⟨start, initial, front, rest, reached, isElements, before⟩ stuck

/-! ### In reach where all is placed -/

/-- A segment that fails in its turn is one that does not fit, or one for which there is
no place. -/
theorem PlacesSegments.outOfBounds
    {globalVals : List Val} {start : List TableVal} {initial : LinearMemory}
    {error : InstantiateError}
    (places : PlacesSegments machine host module importRegistry config frame)
    (reached : ReachesSegments machine host module importRegistry config globalVals start
      initial)
    (blocked : ¬∃ tableVals m, AllPlaced machine module globalVals start initial tableVals m)
    (failed : ∀ fuel, instantiate machine host fuel module importRegistry config frame =
      some (.fail error)) :
    OutOfBounds error := by
  obtain ⟨other, outOfBounds, refused⟩ := places.refused _ _ _ reached blocked
  cases (refused 0).symm.trans (failed 0)
  exact outOfBounds

/-- Where segments are placed, those that are reached hold references to functions. -/
theorem PlacesSegments.funcRefs
    {globalVals : List Val} {tableVals : List TableVal} {element : Element}
    (places : PlacesSegments machine host module importRegistry config frame)
    (reaches : ReachesElement machine host module importRegistry config globalVals tableVals
      element) :
    FuncRefs element := by
  intro exprs others
  have failed := @applyElement_of_unsupported globalVals _ _ others tableVals
  have blocked : ∀ after, ¬PlacedElement globalVals tableVals element after := by
    intro after placed
    cases (places.element _ _ _ _ reaches placed).symm.trans failed
  obtain ⟨start, initial, front, rest, reached, elements, before⟩ := reaches.reached
  have never : ¬∃ tableVals m,
      AllPlaced machine module globalVals start initial tableVals m := by
    rintro ⟨_, _, allElements, _⟩
    rw [elements] at allElements
    obtain ⟨after, placed⟩ := before.step_of_append (fun first => first.unique) allElements
    exact blocked after placed
  cases places.outOfBounds reached never (places.fails_of_element reaches failed)

/-- Where segments are placed, those that are reached are for the first memory. -/
theorem PlacesSegments.forFirstMemory
    {globalVals : List Val} {m : LinearMemory} {data : Data}
    (places : PlacesSegments machine host module importRegistry config frame)
    (reaches : ReachesData machine host module importRegistry config globalVals m data) :
    ForFirstMemory data := by
  intro index offsetExpr kind
  by_contra further
  have failed : writeData globalVals m data = .fail (.unsupported "multiple memories") := by
    rw [writeData, applyData, kind]
    dsimp only
    rw [if_pos further]
    rfl
  obtain ⟨start, initial, tableVals, front, rest, reached, elements, datas, before⟩ :=
    reaches.reached
  have never : ¬∃ tableVals m,
      AllPlaced machine module globalVals start initial tableVals m := by
    rintro ⟨_, _, _, allDatas⟩
    rw [datas] at allDatas
    obtain ⟨after, placed⟩ := before.step_of_append (fun first => first.unique) allDatas
    cases placed with
    | written active fits =>
        obtain ⟨_, kindAgain, _⟩ := active
        cases kind.symm.trans kindAgain
        exact further rfl
    | passive passive => cases kind.symm.trans passive
  cases places.outOfBounds reached never (places.fails_of_data reaches failed)

/-- An element segment that is placed and fits starts below 2 GiB. -/
theorem AppliesSegments.element_lt
    {globalVals : List Val} {tableVals : List TableVal} {element : Element}
    {tableIndex : Nat} {offset : BitVec 32} {items : List (Option FuncIndex)}
    {table : TableVal}
    (applies : AppliesSegments machine host module importRegistry config)
    (reaches : ReachesElement machine host module importRegistry config globalVals tableVals
      element)
    (funcRefs : FuncRefs element)
    (active : ActiveElement globalVals element tableIndex offset items)
    (found : tableVals[tableIndex]? = some table)
    (fits : offset.toNat + items.length ≤ table.table.length) :
    offset.toNat < 2 ^ 31 := by
  have applied := applies.element _ _ _ _ reaches (.written active found fits)
  rw [applyElement_eq funcRefs active found] at applied
  split at applied
  · rename_i inside
    exact ((widened_add_le_iff (reaches.fits found)).mp inside).1
  · cases applied

/-- So does a data segment. -/
theorem AppliesSegments.data_lt
    {globalVals : List Val} {m : LinearMemory} {data : Data} {offset : BitVec 32}
    (applies : AppliesSegments machine host module importRegistry config)
    (reaches : ReachesData machine host module importRegistry config globalVals m data)
    (active : ActiveData globalVals data offset)
    (fits : offset.toNat + data.data.length ≤ m.inner.length) :
    offset.toNat < 2 ^ 31 := by
  have applied := applies.data _ _ _ _ reaches (.written active fits)
  rw [writeData, applyData_eq active] at applied
  split at applied
  · rename_i inside
    exact ((widened_add_le_iff reaches.fits).mp inside).1
  · cases applied

variable (machine host module importRegistry config frame)

/-- Instantiation places every segment as asked exactly when it handles all that it gets
to and none of them fits at an offset from 2 GiB on. -/
theorem places_segments_iff
    {debug : Operator → String}
    (valid : ValidSegments debug module) :
    PlacesSegments machine host module importRegistry config frame ↔
      SegmentsInReach machine host module importRegistry config := by
  constructor
  · intro places
    refine ⟨fun globalVals tableVals element reaches => ?_,
      fun globalVals m data reaches => ?_⟩
    · have funcRefs := places.funcRefs reaches
      exact ⟨funcRefs, fun _ _ _ _ => places.element_lt reaches funcRefs⟩
    · exact ⟨places.forFirstMemory reaches,
        fun _ => places.data_lt reaches⟩
  · intro inReach
    have applies := inReach.applies valid
    refine ⟨applies, fun globalVals start initial tableVals m reached placed => ?_,
      fun globalVals start initial => inReach.refuses valid⟩
    exact reached.instantiates
      (applies.elements_eq reached (List.append_nil _).symm placed.elements)
      (applies.datas_eq reached placed.elements (List.append_nil _).symm placed.datas)

end Reached

/-! ## A segment that fits above 2 GiB -/

section HighSegment

open Stack (StackInstruction StackFrameLayout)

/-- One byte at 2 GiB. -/
def highData : Data where
  kind := .active 0 [.const (.i32 0x80000000)]
  data := [1]

/-- A module with that segment and a memory of 2 GiB and one page. -/
def highModule : Module StackInstruction StackFrameLayout where
  types := []
  funcDecls := []
  importedFuncCount := 0
  funcBodies := []
  tables := []
  memories := [⟨32769, none⟩]
  globals := []
  importedGlobalCount := 0
  exports := fun _ => none
  exportedFuncName := fun _ => none
  startSection := none
  elements := []
  datas := [highData]

/-- A host without imports. -/
def emptyHost : ImportRegistry Unit where
  execute := fun _ _ _ _ => .done (.error "import not found", ())
  signature := fun _ _ _ => none
  funcCount := fun _ => 0
  globalCount := fun _ => 0
  getGlobal := fun _ _ _ => .error "import not found"

/-- No numeric operators. -/
def hostlessNumerics : Numerics where
  unary := fun _ _ => Attempt.panicked
  binary := fun _ _ _ => Attempt.panicked

/-- The stack machine over that host. -/
abbrev hostlessMachine : Machine LinearMemory Unit :=
  Stack.machine emptyHost hostlessNumerics

/-- A configuration that admits the memory. -/
def highConfig : Config := Config.default.setMaxMemorySizeInPages 40000 (by decide)

theorem highMemory_fits :
    initialPages highModule * wasmMemoryPageSize ≤ usizeMax := by
  decide

/-- The memory that the module starts with. -/
def highMemory : LinearMemory :=
  .zeros (initialPages highModule * wasmMemoryPageSize) highMemory_fits

/-- The segment is reached. -/
theorem highModule_reachesSegments :
    ReachesSegments hostlessMachine emptyHost highModule () (some highConfig) [] []
      highMemory where
  imports := rfl
  allocated := initialMemory_eq (by decide)
  globals := rfl
  tables := rfl

/-- An initializer that is one constant is valid. -/
theorem validInit_const
    {context : ConstExpr.Context} {value : Const} {ty : ValType}
    (typed : context.HasType value ty)
    (accepted : ConstExpr.Accepted ty ty) :
    ValidInit (fun _ => "") context ty [.const value] :=
  ⟨[.const value, .endOp], .step (.const typed) (.endOp accepted), rfl⟩

/-- The module is valid. -/
theorem highModule_valid : ValidSegments (fun _ => "") highModule where
  funcFits := Nat.zero_le _
  globals := .nil
  elements := fun _ member => absurd member List.not_mem_nil
  datas := by
    intro data member index offsetExpr kind
    cases List.mem_singleton.mp member
    cases kind
    exact validInit_const .i32 rfl

/-- A segment that fits a memory above 2 GiB is refused. -/
theorem high_segment_is_refused :
    ValidSegments (fun _ => "") highModule ∧
      ¬PlacesSegments hostlessMachine emptyHost highModule () (some highConfig)
        Stack.empty := by
  refine ⟨highModule_valid, fun places => ?_⟩
  have reaches : ReachesData hostlessMachine emptyHost highModule () (some highConfig) []
      highMemory highData :=
    ⟨[], highMemory, [], [], [], highModule_reachesSegments, .nil, rfl, .nil⟩
  have active : ActiveData [] highData 0x80000000 := ⟨_, rfl, rfl⟩
  have inside : (0x80000000 : BitVec 32).toNat + highData.data.length ≤
      highMemory.inner.length := by
    unfold highMemory LinearMemory.zeros
    dsimp only
    rw [List.length_replicate]
    decide
  exact Nat.lt_irrefl (2 ^ 31) (places.data_lt reaches active inside)

end HighSegment

/-! ## Segments at the end of a table and of a memory -/

section LastSegments

open Stack (StackInstruction StackFrameLayout)

/-- A null reference in the last of two slots. -/
def lastElement : Element where
  kind := .active none [.const (.i32 1)]
  items := .expressions true [[.const (.ref none)]]

/-- Two bytes at the end of the first page. -/
def lastData : Data where
  kind := .active 0 [.const (.i32 65534)]
  data := [1, 2]

/-- A module whose segments fill the ends of its table and of its memory. -/
def lastModule : Module StackInstruction StackFrameLayout where
  types := []
  funcDecls := []
  importedFuncCount := 0
  funcBodies := []
  tables := [⟨.refNull, 2, none⟩]
  memories := [⟨1, none⟩]
  globals := []
  importedGlobalCount := 0
  exports := fun _ => none
  exportedFuncName := fun _ => none
  startSection := none
  elements := [lastElement]
  datas := [lastData]

/-- The module is valid. -/
theorem lastModule_valid : ValidSegments (fun _ => "") lastModule where
  funcFits := Nat.zero_le _
  globals := .nil
  elements := by
    intro element member
    cases List.mem_singleton.mp member
    constructor
    · intro index offsetExpr kind
      cases kind
      exact ⟨by decide, validInit_const .i32 rfl⟩
    · intro isFuncRef exprs items init inside
      cases items
      cases List.mem_singleton.mp inside
      exact ⟨0, validInit_const .refNull trivial⟩
  datas := by
    intro data member index offsetExpr kind
    cases List.mem_singleton.mp member
    cases kind
    exact validInit_const .i32 rfl

/-- Its segments are placed. -/
theorem places_segments_iff_last :
    PlacesSegments hostlessMachine emptyHost lastModule () none Stack.empty := by
  apply (places_segments_iff hostlessMachine emptyHost lastModule () none Stack.empty
    lastModule_valid).mpr
  constructor
  · rintro globalVals tableVals element ⟨_, _, front, rest, _, elements, _⟩
    have member : element ∈ lastModule.elements := by
      rw [elements]
      exact List.mem_append_right _ List.mem_cons_self
    cases List.mem_singleton.mp member
    constructor
    · intro exprs items
      cases items
    · intro _ offset items table active _ _
      obtain ⟨_, _, kind, _, evaluated⟩ := active.active
      cases kind
      cases evaluated
      decide
  · rintro globalVals m data ⟨_, _, _, front, rest, _, _, datas, _⟩
    have member : data ∈ lastModule.datas := by
      rw [datas]
      exact List.mem_append_right _ List.mem_cons_self
    cases List.mem_singleton.mp member
    constructor
    · intro index offsetExpr kind
      cases kind
      rfl
    · intro offset active _
      obtain ⟨_, kind, evaluated⟩ := active
      cases kind
      cases evaluated
      decide

end LastSegments

end Instantiate
end TraceWasm
