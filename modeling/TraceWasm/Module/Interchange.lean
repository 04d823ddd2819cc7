import TraceWasm.Register.Emitter
import TraceWasm.Register.Reachability
import TraceWasm.Stack.Totality

/-!
# Which modules the machines compile

The stack lowering reads live and dead code, the register lowering only live code, and
that one also has limits. So the machines part, limits aside, where what the lowerings do
not know is all dead: the stack machine then rejects the module, and the register machine
compiles it.
-/

namespace TraceWasm

/-- The register lowering does not stop at a limit. -/
def Register.Unlimited (mod : ModuleTypes) (func : FuncHeader) (ops : List Operator) : Prop :=
  ∀ reported, reported.IsLimit → Register.emitInstructionsForFunc mod func ops ≠ .fail reported

/-- The emitter of the stack machine returns what the lowering makes of the body. -/
theorem Stack.emitter_ok_iff
    {mod : ModuleTypes} {func : FuncHeader} {located : List (Operator × Nat)} :
    (∃ emitted, Stack.emitter mod func located = .ok emitted) ↔
      ∃ body, Stack.emitInstructionsForFunc mod func located = .ok body := by
  constructor
  · rintro ⟨_, emitted⟩
    obtain ⟨body, lowered, _⟩ := Attempt.bind_eq_ok.mp emitted
    exact ⟨body, lowered⟩
  · rintro ⟨body, lowered⟩
    exact ⟨_, Attempt.bind_eq_ok.mpr ⟨body, lowered, rfl⟩⟩

/-! ## Bodies -/

/-- What the two lowerings make of one body. -/
structure BodyAlike
    (mod : ModuleTypes) (func : FuncHeader) (located : List (Operator × Nat)) : Prop where
  /-- The stack lowering reads everything and has no limits. -/
  stack : RefusesUnknown (located.map Prod.fst) (fun _ => True) (fun _ => False)
    (Stack.emitInstructionsForFunc mod func located)
  /-- The register lowering reads what is live. -/
  register : RefusesUnknown (located.map Prod.fst)
    (fun position => ¬DeadAt (located.map Prod.fst) position) TraceWasmError.IsLimit
    (Register.emitInstructionsForFunc mod func (located.map Prod.fst))
  /-- What the register lowering does not support, the stack lowering does not. -/
  included : RejectsUnsupported
      (Register.emitInstructionsForFunc mod func (located.map Prod.fst)) →
    RejectsUnsupported (Stack.emitInstructionsForFunc mod func located)
  /-- Limits aside, the lowerings part exactly where all that is unknown is dead. -/
  parts : Register.Unlimited mod func (located.map Prod.fst) →
    ((RejectsUnsupported (Stack.emitInstructionsForFunc mod func located) ↔
        RejectsUnsupported
          (Register.emitInstructionsForFunc mod func (located.map Prod.fst))) ↔
      (AllKnown (located.map Prod.fst) (fun _ => True) ∨
        ¬AllKnown (located.map Prod.fst)
          fun position => ¬DeadAt (located.map Prod.fst) position))
  /-- Limits aside, without unknown operators in dead code, they report the same. -/
  same : Register.Unlimited mod func (located.map Prod.fst) →
    AllKnown (located.map Prod.fst) (DeadAt (located.map Prod.fst)) →
    ∀ reported, Stack.emitInstructionsForFunc mod func located = .fail reported ↔
      Register.emitInstructionsForFunc mod func (located.map Prod.fst) = .fail reported

/-- The lowerings of a validated body part only where all that is unknown is dead. -/
theorem bodyAlike
    {mod : ModuleTypes} {func : FuncHeader} {located : List (Operator × Nat)}
    (validates : Validates mod func (located.map Prod.fst))
    (noDead : Register.NoDeadTryTable mod func (located.map Prod.fst)) :
    BodyAlike mod func located := by
  have stack := Stack.refusesUnknown validates
  have register := Register.refusesUnknown validates noDead
  have stackRejects := stack.rejectsUnsupported_iff fun _ => False.elim
  have fewer : AllKnown (located.map Prod.fst) (fun _ => True) →
      AllKnown (located.map Prod.fst) fun position => ¬DeadAt (located.map Prod.fst) position :=
    fun known => known.mono fun _ _ => trivial
  refine ⟨stack, register, ?_, ?_, ?_⟩
  · rintro ⟨message, failed⟩
    apply stackRejects.mpr
    have first := (register.refuses _ failed).resolve_left id
    exact fun known => first.not_allKnown (fewer known)
  · intro unlimited
    rw [stackRejects, register.rejectsUnsupported_iff unlimited]
    tauto
  · intro unlimited known reported
    rw [stack.fail_iff fun _ => False.elim, register.fail_iff unlimited]
    apply firstRejected_congr known
    intro position
    tauto

/-! ## Code sections -/

section Code

variable {types : List FuncType} {funcDecls : List FuncDeclaration} {funcIndex : Nat}
  {entries : List CodeEntry}

/-- The functions have types, and something holds of each body under the header of its
function. -/
def EachBody
    (types : List FuncType) (funcDecls : List FuncDeclaration) (funcIndex : Nat)
    (entries : List CodeEntry) (holds : FuncHeader → List (Operator × Nat) → Prop) : Prop :=
  ∀ index entry, entries[index]? = some entry →
    ∃ decl ty fits, funcDecls[funcIndex + index]? = some decl ∧ types[decl.ty]? = some ty ∧
      holds (headerOf ty entry.declared fits) entry.operators

/-- What follows from what holds of each body holds of each body. -/
theorem EachBody.mono
    {holds weaker : FuncHeader → List (Operator × Nat) → Prop}
    (each : EachBody types funcDecls funcIndex entries holds)
    (implies : ∀ func located, holds func located → weaker func located) :
    EachBody types funcDecls funcIndex entries weaker := by
  intro index entry found
  obtain ⟨decl, ty, fits, isDecl, isTy, holdsOf⟩ := each index entry found
  exact ⟨decl, ty, fits, isDecl, isTy, implies _ _ holdsOf⟩

end Code

/-- What the two machines make of one code section. -/
structure CodeAlike
    (types : List FuncType) (funcDecls : List FuncDeclaration) (funcIndex : Nat)
    (entries : List CodeEntry) : Prop where
  /-- Limits aside, what the stack machine compiles the register machine compiles. -/
  included : (EachBody types funcDecls funcIndex entries fun func located =>
      Register.Unlimited (moduleTypes types funcDecls) func (located.map Prod.fst)) →
    CodeCompiles Stack.emitter types funcDecls funcIndex entries →
      CodeCompiles Register.emitter types funcDecls funcIndex entries
  /-- Without unknown operators in dead code, what the register machine compiles the
  stack machine compiles. -/
  same : (EachBody types funcDecls funcIndex entries fun _ located =>
      AllKnown (located.map Prod.fst) (DeadAt (located.map Prod.fst))) →
    CodeCompiles Register.emitter types funcDecls funcIndex entries →
      CodeCompiles Stack.emitter types funcDecls funcIndex entries

/-- Limits aside, the machines compile the same code sections, but that the register
machine also compiles what is unknown in dead code only. -/
theorem codeAlike
    {types : List FuncType} {funcDecls : List FuncDeclaration} {funcIndex : Nat}
    {entries : List CodeEntry}
    (alike : EachBody types funcDecls funcIndex entries
      (BodyAlike (moduleTypes types funcDecls))) :
    CodeAlike types funcDecls funcIndex entries where
  included unlimited := by
    apply CodeCompiles.transfer
    intro index entry decl ty fits found isDecl isTy
    obtain ⟨_, _, _, isDecl', isTy', body⟩ := alike index entry found
    obtain rfl := Option.some.inj (isDecl.symm.trans isDecl')
    obtain rfl := Option.some.inj (isTy.symm.trans isTy')
    obtain ⟨_, _, _, isDecl', isTy', unlimited⟩ := unlimited index entry found
    obtain rfl := Option.some.inj (isDecl.symm.trans isDecl')
    obtain rfl := Option.some.inj (isTy.symm.trans isTy')
    rw [Stack.emitter_ok_iff, Register.emitter_ok_iff, body.register.compiles_iff unlimited]
    rintro ⟨_, lowered⟩
    exact (body.stack.compiles _ lowered).mono fun _ _ => trivial
  same known := by
    apply CodeCompiles.transfer
    intro index entry decl ty fits found isDecl isTy
    obtain ⟨_, _, _, isDecl', isTy', body⟩ := alike index entry found
    obtain rfl := Option.some.inj (isDecl.symm.trans isDecl')
    obtain rfl := Option.some.inj (isTy.symm.trans isTy')
    obtain ⟨_, _, _, _, _, known⟩ := known index entry found
    rw [Stack.emitter_ok_iff, Register.emitter_ok_iff,
      body.stack.compiles_iff fun _ => False.elim]
    rintro ⟨_, lowered⟩ position op _ isOp
    by_cases dead : DeadAt (entry.operators.map Prod.fst) position
    · exact known position op dead isOp
    · exact body.register.compiles _ lowered position op dead isOp

/-- On validated bodies without dead `try_table`s both lowerings report the first unknown
operator that they read, and limits aside the machines compile the same code sections,
but that the register machine also compiles what is unknown in dead code only. -/
theorem machines_compile_alike :
    (∀ (mod : ModuleTypes) (func : FuncHeader) (located : List (Operator × Nat)),
      Validates mod func (located.map Prod.fst) →
      Register.NoDeadTryTable mod func (located.map Prod.fst) →
        BodyAlike mod func located) ∧
      ∀ (types : List FuncType) (funcDecls : List FuncDeclaration) (funcIndex : Nat)
        (entries : List CodeEntry),
        (EachBody types funcDecls funcIndex entries fun func located =>
          Validates (moduleTypes types funcDecls) func (located.map Prod.fst) ∧
            Register.NoDeadTryTable (moduleTypes types funcDecls) func
              (located.map Prod.fst)) →
          CodeAlike types funcDecls funcIndex entries := by
  constructor
  · intro mod func located validates noDead
    exact bodyAlike validates noDead
  · intro types funcDecls funcIndex entries each
    apply codeAlike
    apply each.mono
    rintro func located ⟨validates, noDead⟩
    exact bodyAlike validates noDead

/-- A body with a vector operator in dead code. -/
def deadVectorBody : List (Operator × Nat) :=
  [(.unreachable, 0), (.other ⟨"V128AnyTrue", 1, 1, false⟩, 1), (.drop, 3), (.endOp, 4)]

/-- There is no `try_table` in the body. -/
theorem noDeadTryTable_deadVectorBody :
    Register.NoDeadTryTable ⟨[], []⟩ Register.emptyHeader (deadVectorBody.map Prod.fst) := by
  intro position blockty debug _ found
  have member := List.mem_of_getElem? found
  simp [deadVectorBody] at member

/-- The code section with that body alone. -/
def deadVectorEntry : CodeEntry := ⟨[], deadVectorBody⟩

/-- The body and its code section, which the register machine alone compiles. -/
theorem machines_compile_alike_deadVectorBody :
    Validates ⟨[], []⟩ Register.emptyHeader (deadVectorBody.map Prod.fst) ∧
      BodyAlike ⟨[], []⟩ Register.emptyHeader deadVectorBody ∧
      CodeAlike [⟨[], []⟩] [⟨⟨0⟩, .«local»⟩] 0 [deadVectorEntry] := by
  refine ⟨⟨_, rfl, rfl⟩, ?_, ?_⟩
  · exact machines_compile_alike.1 _ _ _ ⟨_, rfl, rfl⟩ noDeadTryTable_deadVectorBody
  · apply machines_compile_alike.2
    intro index entry found
    obtain ⟨rfl, rfl⟩ : index = 0 ∧ entry = deadVectorEntry := by
      cases index with
      | zero =>
          cases found
          exact ⟨rfl, rfl⟩
      | succ index => cases found
    refine ⟨_, _, by decide, rfl, rfl, ⟨_, rfl, rfl⟩, ?_⟩
    intro position blockty debug _ found
    have member := List.mem_of_getElem? found
    simp [deadVectorEntry, deadVectorBody] at member

/-- The stack lowering rejects the body, the register lowering accepts it, and so the
register machine alone compiles the module. -/
theorem register_alone_compiles_deadVectorBody :
    Validates ⟨[], []⟩ Register.emptyHeader (deadVectorBody.map Prod.fst) ∧
      Stack.emitInstructionsForFunc ⟨[], []⟩ Register.emptyHeader deadVectorBody =
        .fail (.unsupported "instruction `V128AnyTrue`") ∧
      (∃ body, Register.emitInstructionsForFunc ⟨[], []⟩ Register.emptyHeader
        (deadVectorBody.map Prod.fst) = .ok body) ∧
      CodeCompiles Register.emitter [⟨[], []⟩] [⟨⟨0⟩, .«local»⟩] 0 [deadVectorEntry] ∧
      ¬CodeCompiles Stack.emitter [⟨[], []⟩] [⟨⟨0⟩, .«local»⟩] 0 [deadVectorEntry] := by
  refine ⟨⟨_, rfl, rfl⟩, rfl, ⟨_, rfl⟩, ⟨_, rfl⟩, ?_⟩
  rintro ⟨_, compiled⟩
  cases compiled

end TraceWasm
