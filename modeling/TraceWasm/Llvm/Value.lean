import TraceWasm.Foundation.Fault
import TraceWasm.Llvm.Error

/-!
# Values

A value is what an instruction operates on: a type, and how the value is obtained.
Interned names, types and constants stand for what they name.
-/

namespace TraceWasm
namespace Llvm

/-- The position of a block in the arena. -/
abbrev BasicBlockId := Nat

/-- The position of a function in the arena. -/
abbrev FuncId := Nat

/-- The types of a function's parameters and of its result. -/
structure FuncSignature where
  params : List Ty
  result : Ty

/-- A module-level symbol. -/
inductive Global where
  | variable (name : String)
  | definedFunc (name : String) (id : FuncId)
  | declaredFunc (name : String)

/-- The name that the global is written with. -/
def Global.name : Global → String
  | .variable name => name
  | .definedFunc name _ => name
  | .declaredFunc name => name

mutual

/-- An operand with its type. -/
structure Value where
  ty : Ty
  kind : ValueKind

/-- An operand: a register, a constant, or a global. -/
inductive ValueKind where
  | reg (name : String)
  | constExpr (expr : ConstExpr)
  | global (global : Global)

/-- An expression that is written inline wherever a constant may appear. -/
inductive ConstExpr where
  | getElementPtr (operands : GetElementPtrOperands)
  | ptrToInt
  | intToPtr
  | bitCast (ty : Ty)
  | trunc (targetTy : Ty)
  | const (value : ConstValue)

/-- Where the address of an element starts, and the indices it goes along. -/
structure GetElementPtrOperands where
  sourceTy : Ty
  ptr : Value
  indices : List Value
  inbounds : Bool

end

/-- A value that is known to be an `i1`. -/
abbrev I1Value := {value : Value // value.ty = .i1}

/-- What a caller says of an operand's type. -/
inductive OperandTy where
  | asserted (ty : Ty)
  | inferred

/-- What is called. -/
inductive FuncRef where
  | defined (name : String) (id : FuncId)
  | declared (name : String)
  | pointer (ptr : Value) (sig : FuncSignature)

/-- The name a call is written with. -/
inductive FuncName where
  | global (name : String)
  | local (name : String)

/-- The name as it stands in errors. -/
def FuncName.str : FuncName → String
  | .global name => name
  | .local name => name

namespace ConstExpr

/-- The type of a constant expression. -/
def ty : ConstExpr → Ty
  | .getElementPtr _ => .ptr
  | .ptrToInt => .i32
  | .intToPtr => .ptr
  | .bitCast ty => ty
  | .trunc targetTy => targetTy
  | .const value => value.ty

end ConstExpr

namespace Value

/-- The value of a register. -/
def fromRegister (name : String) (ty : Ty) : Value := ⟨ty, .reg name⟩

/-- The value of a constant expression. -/
def fromConstExpr (expr : ConstExpr) : Value := ⟨expr.ty, .constExpr expr⟩

/-- The register that the value names. -/
def register? (self : Value) : Option String :=
  match self.kind with
  | .reg name => some name
  | _ => none

@[simp] theorem register?_fromRegister (name : String) (ty : Ty) :
    (fromRegister name ty).register? = some name := rfl

/-- The constant, if the value is one. -/
def tryConst (self : Value) : Option ConstValue :=
  match self.kind with
  | .constExpr (.const value) => some value
  | _ => none

/-- The value at another type. Only a constant folds into one. -/
def tryCast (self : Value) (ty : Ty) (signedness : Signedness) : Option Value :=
  if !ty.isFirstClass then none
  else
    match self.kind with
    | .constExpr (.const value) => do
        let casted ← value.tryCast ty signedness
        return ⟨ty, .constExpr (.const casted)⟩
    | _ => if self.ty ≠ ty then none else some self

/-- Two operands at one type: the asserted one, or the wider of the two. -/
def tryCastTwo (a b : Value) (ty : OperandTy) (signedness : Signedness) :
    Option (Value × Value) :=
  match ty with
  | .asserted ty => do return (← a.tryCast ty signedness, ← b.tryCast ty signedness)
  | .inferred =>
      if a.ty = b.ty then some (a, b)
      else do
        let aWidth ← a.ty.width
        let bWidth ← b.ty.width
        if aWidth ≥ bWidth then return (a, ← b.tryCast a.ty signedness)
        else return (← a.tryCast b.ty signedness, b)

end Value

/-! ## What a `getelementptr` reaches -/

/-- The type that the indices reach. A struct is indexed by a constant `i32`. -/
def walkPointeeTyInGep : (indices : List Value) → Ty → Attempt GepError Ty
  | [], self => return self
  | index :: indices, .struct fields _ => do
      Attempt.require (index.ty = .i32) (.structIndexNotAConstantI32 index.ty)
      let constVal ← Attempt.orFail (.structIndexNotAConstantI32 index.ty) index.tryConst
      let fieldIndex ←
        Attempt.orFail (.structIndexNotAConstantI32 index.ty) constVal.tryInteger
      -- a negative index is out of range, not a huge one
      let fieldTy ← Attempt.orFail (.structIndexOutOfRange fieldIndex.toInt fields.length)
        (if fieldIndex.toInt < 0 then none else fields[fieldIndex.toNat]?)
      walkPointeeTyInGep indices fieldTy
  | index :: indices, .array size element => do
      match index.tryConst.bind (·.tryInteger) with
      | some elementIndex =>
          let asU64 := (elementIndex.signExtend 64).toNat
          Attempt.require (¬(elementIndex.toInt < 0 ∨ asU64 ≥ size))
            (.arrayIndexOutOfRange asU64 size)
      | none => pure ()
      walkPointeeTyInGep indices element
  | _ :: _, self => Attempt.fail (.typeNotIndexable self)

/-- The first index steps over the source type, the rest descend into it. -/
def GetElementPtrOperands.resultPointeeTy (self : GetElementPtrOperands) : Option Ty :=
  if self.indices.length ≤ 1 then some self.sourceTy
  else (walkPointeeTyInGep self.indices.tail self.sourceTy).toOption

end Llvm
end TraceWasm
