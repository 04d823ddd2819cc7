import TraceWasm.Llvm.Cursor

/-!
# Emitting a module as text

The emitter walks a finished graph and appends one line after another. Nothing is
validated on the way: names are written as the caller gave them.
-/

namespace TraceWasm
namespace Llvm

/-! ## Symbols -/

/-- How a symbol is linked, and whether it is defined here at all. -/
inductive Linkage where
  | external | «internal» | «private» | weak | linkonce | linkonceOdr | weakOdr | common
  | appending | availableExternally | externWeak
  deriving DecidableEq

/-- How the linkage is written. -/
def Linkage.toString : Linkage → String
  | .external => "external"
  | .internal => "internal"
  | .private => "private"
  | .weak => "weak"
  | .linkonce => "linkonce"
  | .linkonceOdr => "linkonce_odr"
  | .weakOdr => "weak_odr"
  | .common => "common"
  | .appending => "appending"
  | .availableExternally => "available_externally"
  | .externWeak => "extern_weak"

/-- Whether a symbol is visible outside the object it is defined in. -/
inductive Visibility where
  | default | hidden | «protected»
  deriving DecidableEq

/-- How the visibility is written. -/
def Visibility.toString : Visibility → String
  | .default => "default"
  | .hidden => "hidden"
  | .protected => "protected"

/-! ## Spellings -/

/-- The pieces, each with a comma ahead of it. -/
def separated : List String → String
  | [] => ""
  | piece :: pieces => ", " ++ piece ++ separated pieces

/-- The pieces with commas between them. -/
def joined : List String → String
  | [] => ""
  | piece :: pieces => piece ++ separated pieces

namespace Ty

mutual

/-- The type as LLVM spells it. -/
def display : Ty → String
  | .i1 => "i1"
  | .i8 => "i8"
  | .i16 => "i16"
  | .i32 => "i32"
  | .i64 => "i64"
  | .half => "half"
  | .bfloat => "bfloat"
  | .float => "float"
  | .double => "double"
  | .ptr => "ptr"
  | .void => "void"
  | .array size element => "[" ++ toString size ++ " x " ++ element.display ++ "]"
  | .struct fields packed =>
      (if packed then "<\x7b " else "\x7b ") ++ joined (displayAll fields) ++
        (if packed then " \x7d>" else " \x7d")
  -- the result comes first
  | .func params result => result.display ++ " (" ++ joined (displayAll params) ++ ")"

/-- How the types are written. -/
def displayAll : List Ty → List String
  | [] => []
  | ty :: tys => ty.display :: displayAll tys

end

theorem displayAll_eq (tys : List Ty) : displayAll tys = tys.map display := by
  induction tys with
  | nil => rfl
  | cons ty tys inductionHypothesis => exact congrArg (ty.display :: ·) inductionHypothesis

end Ty

/-- How the condition is written. -/
def ICond.toString : ICond → String
  | .eq => "eq"
  | .ne => "ne"
  | .ugt => "ugt"
  | .uge => "uge"
  | .ult => "ult"
  | .ule => "ule"
  | .sgt => "sgt"
  | .sge => "sge"
  | .slt => "slt"
  | .sle => "sle"

/-- How the operation is written. -/
def IBinOp.toString : IBinOp → String
  | .add => "add"
  | .sub => "sub"
  | .mul => "mul"
  | .udiv => "udiv"
  | .sdiv => "sdiv"
  | .urem => "urem"
  | .srem => "srem"
  | .shl => "shl"
  | .lshr => "lshr"
  | .ashr => "ashr"
  | .and => "and"
  | .or => "or"
  | .xor => "xor"

/-- How the condition is written. -/
def FCond.toString : FCond → String
  | .oeq => "oeq"
  | .ogt => "ogt"
  | .oge => "oge"
  | .olt => "olt"
  | .ole => "ole"
  | .one => "one"
  | .ord => "ord"
  | .ueq => "ueq"
  | .ugt => "ugt"
  | .uge => "uge"
  | .ult => "ult"
  | .ule => "ule"
  | .une => "une"
  | .uno => "uno"
  | .true => "true"
  | .false => "false"

/-- How the conversion is written. -/
def CastOp.toString : CastOp → String
  | .trunc => "trunc"
  | .zext => "zext"
  | .sext => "sext"
  | .fptrunc => "fptrunc"
  | .fpext => "fpext"
  | .fptoui => "fptoui"
  | .fptosi => "fptosi"
  | .uitofp => "uitofp"
  | .sitofp => "sitofp"
  | .ptrtoint => "ptrtoint"
  | .inttoptr => "inttoptr"
  | .bitcast => "bitcast"

/-- An upper-case hexadecimal digit. -/
def hexDigit (n : Nat) : Char :=
  "0123456789ABCDEF".toList.getD n '0'

/-- The number in as many hexadecimal digits as are asked for. -/
def hexDigits : (width : Nat) → Nat → List Char
  | 0, _ => []
  | width + 1, n => hexDigits width (n / 16) ++ [hexDigit (n % 16)]

/-! ## Operands -/

/-- Why a graph is not emitted: the expression has no operands to spell. -/
inductive EmitError where
  | noOperands (expr : ConstExpr)

/-- A float is written as the bits of the `f64` that it is. -/
def constant : ConstValue → String
  | .i1 val _ => if val = 0 then "false" else "true"
  | .i8 val => toString val.toInt
  | .i16 val => toString val.toInt
  | .i32 val => toString val.toInt
  | .i64 val => toString val.toInt
  | .float bits => "0x" ++ String.ofList (hexDigits 16 (Ieee.widen bits).toNat)
  | .double bits => "0x" ++ String.ofList (hexDigits 16 bits.toNat)
  | .nullPtr => "null"

mutual

/-- `<type> <operand>` -/
def typedOperand : Value → Attempt EmitError String
  | ⟨ty, kind⟩ => do return ty.display ++ " " ++ (← operandKind kind)

/-- Write an operand without its type. -/
def operandKind : ValueKind → Attempt EmitError String
  | .reg name => return "%" ++ name
  | .constExpr expr => constExpr expr
  | .global global => return "@" ++ global.name

/-- A constant expression, in the parenthesised form. -/
def constExpr : ConstExpr → Attempt EmitError String
  | .getElementPtr operands => getElementPtrExpr operands
  | .const value => return constant value
  | .ptrToInt => Attempt.fail (.noOperands .ptrToInt)
  | .intToPtr => Attempt.fail (.noOperands .intToPtr)
  | .bitCast ty => Attempt.fail (.noOperands (.bitCast ty))
  | .trunc targetTy => Attempt.fail (.noOperands (.trunc targetTy))

/-- Write the address of an element as a constant. -/
def getElementPtrExpr : GetElementPtrOperands → Attempt EmitError String
  | ⟨sourceTy, ptr, indices, inbounds⟩ => do
      let indices ← typedOperands indices
      return "getelementptr " ++ (if inbounds then "inbounds " else "") ++ "(" ++
        sourceTy.display ++ ", " ++ (← typedOperand ptr) ++ separated indices ++ ")"

/-- Write operands with their types. -/
def typedOperands : List Value → Attempt EmitError (List String)
  | [] => return []
  | value :: values => do
      let first ← typedOperand value
      return first :: (← typedOperands values)

end

/-- A register's name, the literal of a constant, or a constant expression. -/
def operand (value : Value) : Attempt EmitError String := operandKind value.kind

/-- A block's label without the sigil. -/
def blockName (id : BasicBlockId) (ctx : Context) : Attempt EmitError String := do
  return (← ctx.getBlock id).name

/-- `%name`, how a branch or a phi names a block. -/
def label (id : BasicBlockId) (ctx : Context) : Attempt EmitError String := do
  return "%" ++ (← blockName id ctx)

/-- The `%x = ` ahead of an instruction that defines a register. -/
def assignment (value : Value) : Attempt EmitError String := do
  return (← operand value) ++ " = "

/-- Write an alignment, if there is one. -/
def alignment : Option Nat → String
  | some align => ", align " ++ toString align
  | none => ""

/-- Narrow a value to an `i1`. -/
def Value.intoI1 (self : Value) : Attempt EmitError I1Value :=
  if isI1 : self.ty = .i1 then return ⟨self, isI1⟩ else Attempt.panicked

/-! ## Instructions

The visit of an instruction pushes one line, which is what its function here gives. -/

section Instructions

variable (ctx : Context)

/-- `[ value, %label ]` -/
def phiBranch (branch : BasicBlockId × Value) : Attempt EmitError String := do
  return "[ " ++ (← operand branch.2) ++ ", " ++ (← label branch.1 ctx) ++ " ]"

/-- Write a phi. -/
def visitPhi (instr : PhiInstruction) : Attempt EmitError String := do
  let branches ← instr.branches.mapM (phiBranch ctx)
  return (← assignment instr.value) ++ "phi " ++ instr.refTy.display ++ " " ++ joined branches

/-- Write a return. -/
def visitRet (operands : RetOperands) : Attempt EmitError String :=
  match operands.value with
  | some value => do return "ret " ++ (← typedOperand value)
  | none => return "ret " ++ operands.ty.display

/-- Write a branch to a block. -/
def visitUnconditionalBr (operands : UnconditionalBrOperands) : Attempt EmitError String := do
  return "br label " ++ (← label operands.label ctx)

/-- Write a branch to one of two blocks. -/
def visitConditionalBr (operands : ConditionalBrOperands) : Attempt EmitError String := do
  let cond ← operandKind operands.cond.val.kind
  return "br i1 " ++ cond ++ ", label " ++ (← label operands.trueLabel ctx) ++ ", label " ++
    (← label operands.falseLabel ctx)

/-- Write an allocation. -/
def visitAlloca (operands : AllocaOperands) (value : Value) : Attempt EmitError String := do
  let count ← match operands.count with
    | some count => do pure (", " ++ (← typedOperand count))
    | none => pure ""
  return (← assignment value) ++ "alloca " ++ operands.ty.display ++ count ++
    alignment operands.align

/-- Write a load. -/
def visitLoad (operands : LoadOperands) (value : Value) : Attempt EmitError String := do
  return (← assignment value) ++ "load " ++ operands.ty.display ++ ", " ++
    (← typedOperand operands.ptr) ++ alignment operands.align

/-- Write a store. -/
def visitStore (operands : StoreOperands) : Attempt EmitError String := do
  return "store " ++ (← typedOperand operands.value) ++ ", " ++
    (← typedOperand operands.ptr) ++ alignment operands.align

/-- Write the address of an element. -/
def visitGetElementPtr (operands : GetElementPtrOperands) (value : Value) :
    Attempt EmitError String := do
  let indices ← typedOperands operands.indices
  return (← assignment value) ++ "getelementptr " ++
    (if operands.inbounds then "inbounds " else "") ++ operands.sourceTy.display ++ ", " ++
    (← typedOperand operands.ptr) ++ separated indices

/-- The sigil tells a direct call from an indirect one. -/
def FuncName.sigil : FuncName → String
  | .global _ => "@"
  | .local _ => "%"

/-- Write a call. -/
def visitCall (operands : CallOperands) (value : Option Value) : Attempt EmitError String := do
  let args ← typedOperands operands.params
  -- a `void` call defines no register
  let assigned ← match value with
    | some value => assignment value
    | none => pure ""
  return assigned ++ "call " ++ operands.returnTy.display ++ " " ++ operands.funcName.sigil ++
    operands.funcName.str ++ "(" ++ joined args ++ ")"

/-- Write a comparison, whose result is always assigned. -/
def visitIcmp (operands : ICmpOperands) (value : I1Value) : Attempt EmitError String := do
  return (← operandKind value.val.kind) ++ " = icmp " ++ operands.cond.toString ++ " " ++
    operands.ty.display ++ " " ++ (← operand operands.a) ++ ", " ++ (← operand operands.b)

/-- Write an operation on integers. -/
def visitIbinop (operands : IBinOpOperands) (value : Value) : Attempt EmitError String := do
  return (← assignment value) ++ operands.op.toString ++ " " ++ operands.ty.display ++ " " ++
    (← operand operands.a) ++ ", " ++ (← operand operands.b)

/-- Write a comparison of floating-point numbers. -/
def visitFcmp (operands : FCmpOperands) (value : I1Value) : Attempt EmitError String := do
  return (← operandKind value.val.kind) ++ " = fcmp " ++ operands.cond.toString ++ " " ++
    operands.ty.display ++ " " ++ (← operand operands.a) ++ ", " ++ (← operand operands.b)

/-- Write an operation on floating-point numbers. -/
def visitFbinop (operands : FBinOpOperands) (value : Value) : Attempt EmitError String := do
  return (← assignment value) ++ operands.op.toString ++ " " ++ operands.ty.display ++ " " ++
    (← operand operands.a) ++ ", " ++ (← operand operands.b)

/-- Write a negation. -/
def visitFneg (operands : FNegOperands) (value : Value) : Attempt EmitError String := do
  return (← assignment value) ++ "fneg " ++ operands.ty.display ++ " " ++
    (← operand operands.value)

/-- Write a conversion. -/
def visitCast (operands : CastOperands) (value : Value) : Attempt EmitError String := do
  return (← assignment value) ++ operands.op.toString ++ " " ++ operands.srcTy.display ++ " " ++
    (← operand operands.value) ++ " to " ++ operands.destTy.display

/-- One case of a switch, on a line of its own. -/
def switchCase (condTy : Ty) (case : ConstValue × BasicBlockId) : Attempt EmitError String := do
  return "        " ++ condTy.display ++ " " ++ constant case.1 ++ ", label " ++
    (← label case.2 ctx) ++ "\n"

/-- The only instruction that spans lines. -/
def visitSwitch (operands : SwitchOperands) : Attempt EmitError String := do
  let first := "switch " ++ operands.condTy.display ++ " " ++ (← operand operands.condValue) ++
    ", label " ++ (← label operands.defaultLabel ctx) ++ " [\n"
  let cases ← operands.cases.mapM (switchCase ctx operands.condTy)
  return first ++ String.join cases ++ "    ]"

/-- Write a choice. -/
def visitSelect (operands : SelectOperands) (value : Value) : Attempt EmitError String := do
  return (← assignment value) ++ "select i1 " ++ (← operandKind operands.cond.val.kind) ++ ", " ++
    operands.armsTy.display ++ " " ++ (← operand operands.trueArm) ++ ", " ++
    operands.armsTy.display ++ " " ++ (← operand operands.falseArm)

/-- Write the end of a block that is never reached. -/
def visitUnreachable : Attempt EmitError String := return "unreachable"

/-- The line of an instruction. One that defines a register is given its value. -/
def visitInstruction (instr : Instruction) : Attempt EmitError String :=
  let defined : Attempt EmitError Value := Attempt.orPanic instr.value
  match instr.kind with
  | .ret operands => visitRet operands
  | .unconditionalBr operands => visitUnconditionalBr ctx operands
  | .conditionalBr operands => visitConditionalBr ctx operands
  | .alloca operands => do visitAlloca operands (← defined)
  | .load operands => do visitLoad operands (← defined)
  | .store operands => visitStore operands
  | .getElementPtr operands => do visitGetElementPtr operands (← defined)
  | .call operands => visitCall operands instr.value
  | .icmp operands => do visitIcmp operands (← (← defined).intoI1)
  | .ibinop operands => do visitIbinop operands (← defined)
  | .fcmp operands => do visitFcmp operands (← (← defined).intoI1)
  | .fbinop operands => do visitFbinop operands (← defined)
  | .fneg operands => do visitFneg operands (← defined)
  | .cast operands => do visitCast operands (← defined)
  | .switch operands => visitSwitch ctx operands
  | .select operands => do visitSelect operands (← defined)
  | .unreachable => visitUnreachable

end Instructions

/-! ## The emitter -/

/-- The text so far, and whether its lines are indented. -/
structure IREmitter where
  ir : String
  indentation : Bool

/-- A finished module with its target settings. -/
structure ControlFlowGraph where
  triple : String
  dataLayout : String
  context : Context

namespace IREmitter

/-- Indent the lines from here on. -/
def setIndentation (self : IREmitter) : IREmitter := { self with indentation := true }

/-- Do not indent the lines from here on. -/
def unsetIndentation (self : IREmitter) : IREmitter := { self with indentation := false }

/-- Append text, behind the current indentation. -/
def pushStr (s : String) (self : IREmitter) : IREmitter :=
  { self with ir := self.ir ++ ((if self.indentation then "    " else "") ++ s) }

/-- One whole line. -/
def pushLine (s : String) (self : IREmitter) : IREmitter := self.pushStr (s ++ "\n")

/-! ## Visits -/

/-- Write the settings of the module. -/
def visitCfg (cfg : ControlFlowGraph) (self : IREmitter) : IREmitter :=
  let self := self.unsetIndentation
  let self :=
    if cfg.dataLayout ≠ "" then
      self.pushLine ("target datalayout = \"" ++ cfg.dataLayout ++ "\"")
    else self
  let self :=
    if cfg.triple ≠ "" then self.pushLine ("target triple = \"" ++ cfg.triple ++ "\"") else self
  if cfg.dataLayout ≠ "" ∨ cfg.triple ≠ "" then self.pushLine "" else self

/-- A definition omits the keyword of external linkage, a declaration the value. -/
def visitGlobalVariable
    (name : String) (ty : Ty) (initializer : Option ConstExpr) (linkage : Linkage)
    (visibility : Visibility) (self : IREmitter) : Attempt EmitError IREmitter := do
  let linkage :=
    if linkage = .external ∧ initializer.isSome then "" else linkage.toString ++ " "
  let visibility := if visibility = .default then "" else visibility.toString ++ " "
  let initializer ← match initializer with
    | some expr => do pure (" " ++ (← constExpr expr))
    | none => pure ""
  return self.unsetIndentation.pushLine
    ("@" ++ name ++ " = " ++ linkage ++ visibility ++ "global " ++ ty.display ++ initializer)

/-- A declaration names types only. -/
def visitImportedFunc (funcName : String) (sig : FuncSignature) (self : IREmitter) : IREmitter :=
  self.unsetIndentation.pushLine
    ("declare " ++ sig.result.display ++ " @" ++ funcName ++ "(" ++
      joined (sig.params.map Ty.display) ++ ")")

/-- Open a function. -/
def visitFunc (func : Function) (self : IREmitter) : Attempt EmitError IREmitter := do
  let params ← typedOperands func.params
  return self.unsetIndentation.pushLine
    ("define " ++ func.result.display ++ " @" ++ func.name ++ "(" ++ joined params ++ ") \x7b")

/-- A label stands at the margin, what follows it is indented. -/
def visitBasicBlock (block : BasicBlock) (self : IREmitter) : IREmitter :=
  (self.unsetIndentation.pushLine (block.name ++ ":")).setIndentation

/-- Close a function. -/
def postFuncVisit (self : IREmitter) : IREmitter :=
  (self.unsetIndentation.pushLine "\x7d").pushLine ""

/-! ## The walk -/

/-- Write a block: its label, its phis, and its instructions. -/
def walkBasicBlock (block : BasicBlock) (ctx : Context) (self : IREmitter) :
    Attempt EmitError IREmitter := do
  let self ← block.phis.foldlM
    (fun self phi => do return self.pushLine (← visitPhi ctx phi)) (self.visitBasicBlock block)
  block.instructions.foldlM
    (fun self instr => do return self.pushLine (← visitInstruction ctx instr)) self

/-- Write a function, its blocks in the order they were added. -/
def walkFunc (func : Function) (ctx : Context) (self : IREmitter) :
    Attempt EmitError IREmitter := do
  let self ← self.visitFunc func
  let self ← func.blocks.foldlM
    (fun self id => do self.walkBasicBlock (← ctx.getBlock id) ctx) self
  return self.postFuncVisit

/-- The builder writes external linkage and default visibility only. -/
def walkGlobalVariable (name : String) (ctx : Context) (self : IREmitter) :
    Attempt EmitError IREmitter := do
  match ← Attempt.orPanic (ctx.globals name) with
  | .variable ty initializer => self.visitGlobalVariable name ty initializer .external .default
  | .func _ => Attempt.panicked

/-- Write a declared function. -/
def walkImportedFunc (name : String) (ctx : Context) (self : IREmitter) :
    Attempt EmitError IREmitter := do
  match ← Attempt.orPanic (ctx.globals name) with
  | .func sig => return self.visitImportedFunc name sig
  | .variable _ _ => Attempt.panicked

/-- The whole module: its variables, its declarations, its definitions. -/
def walkCfg (cfg : ControlFlowGraph) (self : IREmitter) : Attempt EmitError IREmitter := do
  let ctx := cfg.context
  let self ← ctx.globalVariables.foldlM
    (fun self name => self.walkGlobalVariable name ctx) (self.visitCfg cfg)
  let self ← ctx.importedFunctions.foldlM
    (fun self name => self.walkImportedFunc name ctx) self
  ctx.functions.foldlM
    (fun self id => do self.walkFunc (← ctx.getFunc id) ctx) self

/-- Render the graph. -/
def emit (cfg : ControlFlowGraph) : Attempt EmitError String := do
  return (← walkCfg cfg ⟨"", false⟩).ir

end IREmitter

end Llvm
end TraceWasm
