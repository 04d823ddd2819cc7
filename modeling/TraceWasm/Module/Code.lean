import TraceWasm.Instruction.Block
import TraceWasm.Module.Sections
import TraceWasm.Stack.Lower

/-!
# Compiling the code section

The entries of the code section are the bodies of the local functions, in their
order. Each is lowered with the function's declared type and all of its locals.
-/

namespace TraceWasm

/-- One entry of the code section. -/
structure CodeEntry where
  /-- The declared locals, a count and a type for each run. -/
  localGroups : List (Nat × ValType)
  /-- The operators with their byte offsets. -/
  operators : List (Operator × Nat)

namespace CodeEntry

/-- The declared locals, one by one. -/
def declared (entry : CodeEntry) : List ValType :=
  entry.localGroups.flatMap fun group => List.replicate group.1 group.2

/-- The body without the offsets. -/
def ops (entry : CodeEntry) : List Operator := entry.operators.map Prod.fst

end CodeEntry

/-- What a machine makes of a body: its instructions, their byte offsets, and what
execution reads beside them. -/
abbrev Emitter (Instr FrameLayout : Type) :=
  ModuleTypes → FuncHeader → List (Operator × Nat) →
    Attempt TraceWasmError (List Instr × List Nat × FrameLayout)

/-- `emit_instructions_for_func` of the stack machine. -/
def Stack.emitter : Emitter Stack.StackInstruction Stack.StackFrameLayout :=
  fun mod func ops => do
    let body ← Stack.emitInstructionsForFunc mod func ops
    return (body.instructions, body.instructionOffsets, body.frame)

/-- What the lowerings read of the types and declarations. -/
def moduleTypes (types : List FuncType) (funcDecls : List FuncDeclaration) : ModuleTypes where
  types := types
  funcDecls := funcDecls.map FuncDeclaration.toFuncDecl

/-- The header of a body, if the locals are within the validator's limit. -/
def headerOf (ty : FuncType) (declared : List ValType)
    (fits : ty.params.length + declared.length ≤ 50000) : FuncHeader where
  params := ty.params.length
  results := ty.results.length
  localsCount := ty.params.length + declared.length
  params_le := Nat.le_add_right _ _
  locals_le := fits

section Compile

variable {Instr FrameLayout : Type} (emit : Emitter Instr FrameLayout)
  (types : List FuncType) (funcDecls : List FuncDeclaration)

/-- Compile the body of a local function. -/
def compileEntry (funcIndex : Nat) (entry : CodeEntry) :
    Attempt TraceWasmError (FuncBody Instr FrameLayout) := do
  let decl ← .orPanic funcDecls[funcIndex]?
  let ty ← .orPanic types[decl.ty]?
  if entry.localGroups.any (fun group => group.2 = .v128) then
    .fail (.unsupported "v128 local")
  else if fits : ty.params.length + entry.declared.length ≤ 50000 then
    let (instructions, instructionOffsets, frameLayout) ←
      emit (moduleTypes types funcDecls) (headerOf ty entry.declared fits) entry.operators
    return ⟨ty.params ++ entry.declared, instructions, instructionOffsets, frameLayout⟩
  -- the validator, which ran before, has refused so many locals
  else Attempt.panicked

/-- Compile the bodies of the functions from an index on. -/
def compileCode (funcIndex : Nat) :
    List CodeEntry → Attempt TraceWasmError (List (FuncBody Instr FrameLayout))
  | [] => return []
  | entry :: entries => do
      let body ← compileEntry emit types funcDecls funcIndex entry
      return body :: (← compileCode (funcIndex + 1) entries)

end Compile

/-! ## What is compiled -/

section Compiled

variable {Instr FrameLayout : Type} {emit : Emitter Instr FrameLayout}
  {types : List FuncType} {funcDecls : List FuncDeclaration}

/-- Each body is compiled from its own entry. -/
theorem body_of_compileCode
    {funcIndex index : Nat} {entries : List CodeEntry}
    {bodies : List (FuncBody Instr FrameLayout)} {body : FuncBody Instr FrameLayout}
    (compiled : compileCode emit types funcDecls funcIndex entries = .ok bodies)
    (isBody : bodies[index]? = some body) :
    ∃ entry, entries[index]? = some entry ∧
      compileEntry emit types funcDecls (funcIndex + index) entry = .ok body := by
  induction entries generalizing funcIndex index bodies with
  | nil =>
      cases compiled
      cases isBody
  | cons entry entries inductionHypothesis =>
      obtain ⟨first, isFirst, compiled⟩ := Attempt.bind_eq_ok.mp compiled
      obtain ⟨others, areOthers, same⟩ := Attempt.bind_eq_ok.mp compiled
      cases same
      cases index with
      | zero =>
          cases isBody
          exact ⟨entry, rfl, isFirst⟩
      | succ index =>
          obtain ⟨found, isEntry, isCompiled⟩ := inductionHypothesis areOthers isBody
          refine ⟨found, isEntry, ?_⟩
          rw [← isCompiled, Nat.add_right_comm, Nat.add_assoc]

/-- Every entry of the code section becomes a body. -/
theorem length_of_compileCode
    {funcIndex : Nat} {entries : List CodeEntry}
    {bodies : List (FuncBody Instr FrameLayout)}
    (compiled : compileCode emit types funcDecls funcIndex entries = .ok bodies) :
    bodies.length = entries.length := by
  induction entries generalizing funcIndex bodies with
  | nil =>
      cases compiled
      rfl
  | cons entry entries inductionHypothesis =>
      obtain ⟨first, _, compiled⟩ := Attempt.bind_eq_ok.mp compiled
      obtain ⟨others, areOthers, same⟩ := Attempt.bind_eq_ok.mp compiled
      cases same
      rw [List.length_cons, List.length_cons, inductionHypothesis areOthers]

/-- A compiled body has its parameters and its declared locals, none of which is a
vector, and what the machine makes of its operators. -/
theorem compileEntry_eq_ok
    {funcIndex : Nat} {entry : CodeEntry} {body : FuncBody Instr FrameLayout}
    (compiled : compileEntry emit types funcDecls funcIndex entry = .ok body) :
    ∃ decl ty fits, funcDecls[funcIndex]? = some decl ∧ types[decl.ty]? = some ty ∧
      (∀ declared ∈ entry.declared, declared ≠ .v128) ∧
      body.locals = ty.params ++ entry.declared ∧
      emit (moduleTypes types funcDecls) (headerOf ty entry.declared fits) entry.operators =
        .ok (body.instructions, body.instructionOffsets, body.frameLayout) := by
  unfold compileEntry at compiled
  obtain ⟨decl, isDecl, compiled⟩ := Attempt.bind_eq_ok.mp compiled
  obtain ⟨ty, isTy, compiled⟩ := Attempt.bind_eq_ok.mp compiled
  split at compiled
  · cases compiled
  · rename_i noVector
    split at compiled
    · rename_i fits
      obtain ⟨emitted, isEmitted, same⟩ := Attempt.bind_eq_ok.mp compiled
      cases same
      refine ⟨decl, ty, fits, Attempt.orPanic_eq_ok.mp isDecl, Attempt.orPanic_eq_ok.mp isTy,
        ?_, rfl, isEmitted⟩
      intro declared member vector
      obtain ⟨group, isGroup, inGroup⟩ := List.mem_flatMap.mp member
      apply noVector
      rw [List.any_eq_true]
      refine ⟨group, isGroup, ?_⟩
      rw [decide_eq_true_eq, ← vector]
      exact (List.eq_of_mem_replicate inGroup).symm
    · cases compiled

/-- A body that lowers compiles. -/
theorem compileEntry_of_emitted
    {funcIndex : Nat} {entry : CodeEntry} {decl : FuncDeclaration} {ty : FuncType}
    {instructions : List Instr} {offsets : List Nat} {frame : FrameLayout}
    (isDecl : funcDecls[funcIndex]? = some decl)
    (isTy : types[decl.ty]? = some ty)
    (noVector : entry.localGroups.any (fun group => group.2 = .v128) = false)
    (fits : ty.params.length + entry.declared.length ≤ 50000)
    (emitted : emit (moduleTypes types funcDecls) (headerOf ty entry.declared fits)
      entry.operators = .ok (instructions, offsets, frame)) :
    compileEntry emit types funcDecls funcIndex entry =
      .ok ⟨ty.params ++ entry.declared, instructions, offsets, frame⟩ := by
  unfold compileEntry
  rw [isDecl, Attempt.orPanic_some, Attempt.ok_bind, isTy, Attempt.orPanic_some,
    Attempt.ok_bind, noVector, if_neg Bool.false_ne_true, dif_pos fits, emitted]
  rfl

/-- The code section compiles. -/
def CodeCompiles
    (emit : Emitter Instr FrameLayout) (types : List FuncType)
    (funcDecls : List FuncDeclaration) (funcIndex : Nat) (entries : List CodeEntry) : Prop :=
  ∃ bodies, compileCode emit types funcDecls funcIndex entries = .ok bodies

/-- A code section compiles if each entry does. -/
theorem codeCompiles_iff
    {funcIndex : Nat} {entries : List CodeEntry} :
    CodeCompiles emit types funcDecls funcIndex entries ↔
      ∀ index entry, entries[index]? = some entry →
        ∃ body, compileEntry emit types funcDecls (funcIndex + index) entry = .ok body := by
  induction entries generalizing funcIndex with
  | nil =>
      constructor
      · intro _ index entry found
        cases found
      · intro _
        exact ⟨[], rfl⟩
  | cons entry entries inductionHypothesis =>
      constructor
      · rintro ⟨bodies, compiled⟩ index found isEntry
        obtain ⟨first, isFirst, compiled⟩ := Attempt.bind_eq_ok.mp compiled
        obtain ⟨others, areOthers, _⟩ := Attempt.bind_eq_ok.mp compiled
        cases index with
        | zero =>
            cases isEntry
            exact ⟨first, isFirst⟩
        | succ index =>
            have body := inductionHypothesis.mp ⟨others, areOthers⟩ index found isEntry
            rwa [Nat.add_right_comm, Nat.add_assoc] at body
      · intro each
        obtain ⟨first, isFirst⟩ := each 0 entry rfl
        have later : CodeCompiles emit types funcDecls (funcIndex + 1) entries := by
          apply inductionHypothesis.mpr
          intro index found isEntry
          rw [Nat.add_right_comm, Nat.add_assoc]
          exact each (index + 1) found isEntry
        obtain ⟨others, areOthers⟩ := later
        refine ⟨first :: others, Attempt.bind_eq_ok.mpr ⟨first, isFirst, ?_⟩⟩
        rw [areOthers]
        rfl

/-- An entry compiles if none of its locals is a vector and its body lowers. -/
theorem compileEntry_ok_iff
    {funcIndex : Nat} {entry : CodeEntry} {decl : FuncDeclaration} {ty : FuncType}
    (isDecl : funcDecls[funcIndex]? = some decl)
    (isTy : types[decl.ty]? = some ty)
    (fits : ty.params.length + entry.declared.length ≤ 50000) :
    (∃ body, compileEntry emit types funcDecls funcIndex entry = .ok body) ↔
      entry.localGroups.any (fun group => group.2 = .v128) = false ∧
        ∃ emitted, emit (moduleTypes types funcDecls) (headerOf ty entry.declared fits)
          entry.operators = .ok emitted := by
  unfold compileEntry
  rw [isDecl, Attempt.orPanic_some, Attempt.ok_bind, isTy, Attempt.orPanic_some,
    Attempt.ok_bind]
  cases entry.localGroups.any (fun group => group.2 = .v128) with
  | true =>
      constructor
      · rintro ⟨_, impossible⟩
        cases impossible
      · rintro ⟨impossible, _⟩
        cases impossible
  | false =>
      rw [if_neg Bool.false_ne_true, dif_pos fits]
      constructor
      · rintro ⟨_, compiled⟩
        obtain ⟨emitted, isEmitted, _⟩ := Attempt.bind_eq_ok.mp compiled
        exact ⟨rfl, emitted, isEmitted⟩
      · rintro ⟨_, emitted, isEmitted⟩
        exact ⟨_, Attempt.bind_eq_ok.mpr ⟨emitted, isEmitted, rfl⟩⟩

/-- If what one machine lowers the other lowers too, what compiles on the one compiles on
the other. -/
theorem CodeCompiles.transfer
    {Instr' FrameLayout' : Type} {emit' : Emitter Instr' FrameLayout'}
    {funcIndex : Nat} {entries : List CodeEntry}
    (lowers : ∀ (index : Nat) (entry : CodeEntry) (decl : FuncDeclaration) (ty : FuncType)
        (fits : ty.params.length + entry.declared.length ≤ 50000),
      entries[index]? = some entry → funcDecls[funcIndex + index]? = some decl →
      types[decl.ty]? = some ty →
      (∃ emitted, emit (moduleTypes types funcDecls) (headerOf ty entry.declared fits)
        entry.operators = .ok emitted) →
        ∃ emitted, emit' (moduleTypes types funcDecls) (headerOf ty entry.declared fits)
          entry.operators = .ok emitted)
    (compiles : CodeCompiles emit types funcDecls funcIndex entries) :
    CodeCompiles emit' types funcDecls funcIndex entries := by
  rw [codeCompiles_iff] at compiles ⊢
  intro index entry found
  obtain ⟨body, compiled⟩ := compiles index entry found
  obtain ⟨decl, ty, fits, isDecl, isTy, _⟩ := compileEntry_eq_ok compiled
  have both := (compileEntry_ok_iff isDecl isTy fits).mp ⟨body, compiled⟩
  apply (compileEntry_ok_iff isDecl isTy fits).mpr
  exact ⟨both.1, lowers index entry decl ty fits found isDecl isTy both.2⟩

end Compiled

end TraceWasm
