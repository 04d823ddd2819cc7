import TraceWasm.Module.Placement

/-!
# Typed handles to functions

A handle is checked against the module it is looked up in. A call takes any
instance and looks the index up again, in the instance's own module, and checks
nothing.
-/

namespace TraceWasm

/-! ## Native values -/

/-- The scalars of the host that correspond to a value type. -/
inductive WasmTy where
  | i32 | i64 | f32 | f64
  deriving DecidableEq

namespace WasmTy

/-- The value type of a scalar. -/
def ty : WasmTy → ValType
  | .i32 => .i32
  | .i64 => .i64
  | .f32 => .f32
  | .f64 => .f64

/-- The values of a scalar type. A float is its bit pattern. -/
def Native : WasmTy → Type
  | .i32 => BitVec 32
  | .i64 => BitVec 64
  | .f32 => BitVec 32
  | .f64 => BitVec 64

/-- The value that a native value is passed as. -/
def toVal : (ty : WasmTy) → ty.Native → Val
  | .i32, value => .i32 value
  | .i64, value => .i64 value
  | .f32, bits => .f32 bits
  | .f64, bits => .f64 bits

/-- The native value of a value, if it has the type. -/
def fromVal : (ty : WasmTy) → Val → Option ty.Native
  | .i32, .i32 value => some value
  | .i64, .i64 value => some value
  | .f32, .f32 bits => some bits
  | .f64, .f64 bits => some bits
  | _, _ => none

theorem fromVal_isSome
    {ty : WasmTy} {val : Val}
    (typed : val.HasTy ty.ty) :
    (ty.fromVal val).isSome := by
  cases ty <;> cases typed <;> rfl

/-- A native value is passed as the value it was read from. -/
theorem toVal_of_fromVal
    {ty : WasmTy} {val : Val} {native : ty.Native}
    (read : ty.fromVal val = some native) :
    ty.toVal native = val := by
  cases ty <;> cases val <;> cases read <;> rfl

/-- A native value is of one value type. -/
theorem eq_of_hasTy
    {ty : WasmTy} {native : ty.Native} {declared : ValType}
    (typed : (ty.toVal native).HasTy declared) :
    declared = ty.ty := by
  cases ty <;> cases typed <;> rfl

theorem ty_ne_v128 (ty : WasmTy) : ty.ty ≠ .v128 := by
  cases ty <;> intro same <;> cases same

end WasmTy

/-- The tuples of a signature's parameters, or of its results. -/
def Tuple : List WasmTy → Type
  | [] => Unit
  | ty :: tys => ty.Native × Tuple tys

namespace Tuple

/-- The values that a tuple of native values is passed as. -/
def toVals : (tys : List WasmTy) → Tuple tys → List Val
  | [], _ => []
  | ty :: tys, (value, rest) => ty.toVal value :: toVals tys rest

/-- Rebuild a tuple. A value too many is as wrong as one too few. -/
def fromVals : (tys : List WasmTy) → List Val → Option (Tuple tys)
  | [], [] => some ()
  | [], _ :: _ => none
  | _ :: _, [] => none
  | ty :: tys, val :: vals => do
      let value ← ty.fromVal val
      let rest ← fromVals tys vals
      return (value, rest)

@[simp] theorem length_toVals (tys : List WasmTy) (tuple : Tuple tys) :
    (toVals tys tuple).length = tys.length := by
  induction tys with
  | nil => rfl
  | cons ty tys inductionHypothesis =>
      obtain ⟨value, rest⟩ := tuple
      rw [toVals, List.length_cons, inductionHypothesis rest, List.length_cons]

/-- A tuple's values have the types of its signature. -/
theorem toVals_hasTy (tys : List WasmTy) (tuple : Tuple tys) :
    List.Forall₂ Val.HasTy (toVals tys tuple) (tys.map WasmTy.ty) := by
  induction tys with
  | nil => exact .nil
  | cons ty tys inductionHypothesis =>
      obtain ⟨value, rest⟩ := tuple
      refine .cons ?_ (inductionHypothesis rest)
      cases ty <;> constructor

/-- So is a tuple of them. -/
theorem toVals_of_fromVals
    {tys : List WasmTy} {vals : List Val} {tuple : Tuple tys}
    (read : fromVals tys vals = some tuple) :
    toVals tys tuple = vals := by
  induction tys generalizing vals with
  | nil =>
      cases vals with
      | nil => rfl
      | cons val vals => cases read
  | cons ty tys inductionHypothesis =>
      cases vals with
      | nil => cases read
      | cons val vals =>
          obtain ⟨value, readFirst, read⟩ := Option.bind_eq_some_iff.mp read
          obtain ⟨rest, readRest, same⟩ := Option.bind_eq_some_iff.mp read
          cases same
          rw [toVals, WasmTy.toVal_of_fromVal readFirst, inductionHypothesis readRest]

/-- A tuple's values have the types of no other signature. -/
theorem types_eq
    {tys : List WasmTy} {tuple : Tuple tys} {types : List ValType}
    (typed : List.Forall₂ Val.HasTy (toVals tys tuple) types) :
    types = tys.map WasmTy.ty := by
  induction tys generalizing types with
  | nil =>
      cases typed
      rfl
  | cons ty tys inductionHypothesis =>
      obtain ⟨value, rest⟩ := tuple
      obtain _ | ⟨first, others⟩ := typed
      rw [List.map_cons, WasmTy.eq_of_hasTy first, inductionHypothesis others]

/-- Values of the right types are native values. -/
theorem fromVals_isSome
    {tys : List WasmTy} {vals : List Val}
    (typed : List.Forall₂ Val.HasTy vals (tys.map WasmTy.ty)) :
    (fromVals tys vals).isSome := by
  induction tys generalizing vals with
  | nil =>
      cases typed
      rfl
  | cons ty tys inductionHypothesis =>
      obtain _ | ⟨first, others⟩ := typed
      obtain ⟨value, read⟩ := Option.isSome_iff_exists.mp (WasmTy.fromVal_isSome first)
      obtain ⟨rest, readRest⟩ := Option.isSome_iff_exists.mp (inductionHypothesis others)
      rw [fromVals, read, readRest]
      rfl

end Tuple

/-! ## Handles -/

namespace Module

variable {Instr FrameLayout : Type}

/-- The type that the module declares for a function. -/
def declaredType (module : Module Instr FrameLayout) (func : FuncIndex) :
    Option FuncType := do
  let decl ← module.funcDecls[func.toNat]?
  module.types[decl.ty]?

/-- The type of a function is the declared one. -/
theorem funcType_eq_ok
    {module : Module Instr FrameLayout} {func : FuncIndex} {ty : FuncType} :
    (module.funcType func : Attempt ε FuncType) = .ok ty ↔
      module.declaredType func = some ty := by
  unfold funcType declaredType
  refine Attempt.bind_eq_ok.trans (Iff.trans ?_ Option.bind_eq_some_iff.symm)
  constructor
  · intro ⟨decl, found, typed⟩
    exact ⟨decl, Attempt.orPanic_eq_ok.mp found, Attempt.orPanic_eq_ok.mp typed⟩
  · intro ⟨decl, found, typed⟩
    exact ⟨decl, Attempt.orPanic_eq_ok.mpr found, Attempt.orPanic_eq_ok.mpr typed⟩

end Module

/-- A handle to a function with these parameters and results. -/
structure TypedFunc (params results : List WasmTy) where
  funcIndex : FuncIndex

/-- The errors of looking a handle up. -/
inductive LookupError where
  | exportNotFound (name : String)
  | exportNotA (expected : String)
  | importedFunctionNotCallable (func : Nat)
  | incorrectParamsResultsStructure (side : String) (func : Nat)
      (expected got : List ValType)
  deriving DecidableEq

/-- `Export::to_func`. -/
def Export.toFunc : Export → Attempt LookupError FuncIndex
  | .func index => .ok index
  | .other => .fail (.exportNotA "function")

/-- `Module::get_typed_func`. -/
def Module.getTypedFunc
    {Instr FrameLayout : Type} (module : Module Instr FrameLayout)
    (params results : List WasmTy) (name : String) :
    Attempt LookupError (TypedFunc params results) :=
  match module.exports name with
  | none => .fail (.exportNotFound name)
  | some exported => do
      let funcIndex ← exported.toFunc
      if funcIndex.toNat < module.importedFuncCount then
        .fail (.importedFunctionNotCallable funcIndex.toNat)
      else
        let ty ← module.funcType funcIndex
        if ty.params ≠ params.map WasmTy.ty then
          .fail (.incorrectParamsResultsStructure "params" funcIndex.toNat ty.params
            (params.map WasmTy.ty))
        else if ty.results ≠ results.map WasmTy.ty then
          .fail (.incorrectParamsResultsStructure "results" funcIndex.toNat ty.results
            (results.map WasmTy.ty))
        else return ⟨funcIndex⟩

namespace TypedFunc

variable {params results : List WasmTy}

/-- In the module, the handle's index names a locally defined function with exactly
the handle's parameters and results. -/
structure Matches
    {Instr FrameLayout : Type} (handle : TypedFunc params results)
    (module : Module Instr FrameLayout) : Prop where
  «local» : module.importedFuncCount ≤ handle.funcIndex.toNat
  declared : module.declaredType handle.funcIndex =
    some ⟨params.map WasmTy.ty, results.map WasmTy.ty⟩

/-- A handle matches the module that it comes from. -/
theorem matches_of_getTypedFunc
    {Instr FrameLayout : Type} {module : Module Instr FrameLayout} {name : String}
    {handle : TypedFunc params results}
    (looked : module.getTypedFunc params results name = .ok handle) :
    handle.Matches module := by
  unfold Module.getTypedFunc at looked
  split at looked
  · cases looked
  · obtain ⟨funcIndex, _, looked⟩ := Attempt.bind_eq_ok.mp looked
    split at looked
    · cases looked
    · rename_i isLocal
      obtain ⟨ty, declared, looked⟩ := Attempt.bind_eq_ok.mp looked
      split at looked
      · cases looked
      · rename_i sameParams
        split at looked
        · cases looked
        · rename_i sameResults
          cases looked
          refine ⟨Nat.le_of_not_lt isLocal, (Module.funcType_eq_ok.mp declared).trans ?_⟩
          rw [← not_ne_iff.mp sameParams, ← not_ne_iff.mp sameResults]

variable {memory registry : Type} (machine : Machine memory registry)

/-- `TypedFunc::call`, with a budget of instructions. -/
def call
    (handle : TypedFunc params results) (module : machine.Code) (fuel : Nat)
    (args : Tuple params) (inst : machine.State) :
    Option (machine.Outcome FuncCallError (Tuple results)) :=
  (machine.run module fuel handle.funcIndex (Tuple.toVals params args) inst).map fun
    | (.ok vals, inst) => (.orPanic (Tuple.fromVals results vals), inst)
    | (.error fault, inst) => (.error fault, inst)

end TypedFunc

end TraceWasm
