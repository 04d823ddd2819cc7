import TraceWasm.Llvm.OperandText

/-!
# Reading instructions

An instruction is read from its line: the register that it defines, the keyword, and
what the keyword says comes next.
-/

namespace TraceWasm
namespace Llvm

open Reader
open Filter (atTop)

/-! ## Keywords -/

/-- Every operation on integers. -/
def IBinOp.all : List IBinOp :=
  [.add, .sub, .mul, .udiv, .sdiv, .urem, .srem, .shl, .lshr, .ashr, .and, .or, .xor]

/-- Every operation on floating-point numbers. -/
def FBinOp.all : List FBinOp :=
  [.fadd, .fsub, .fmul, .fdiv, .frem]

/-- Every conversion. -/
def CastOp.all : List CastOp :=
  [.trunc, .zext, .sext, .fptrunc, .fpext, .fptoui, .fptosi, .uitofp, .sitofp, .ptrtoint,
    .inttoptr, .bitcast]

/-- What an instruction starts with, behind the register that it defines. -/
inductive Keyword where
  | ret | br | alloca | load | store | getElementPtr | call
  | icmp | fcmp | fneg | switch | select | unreachable
  | ibinop (op : IBinOp)
  | fbinop (op : FBinOp)
  | cast (op : CastOp)

namespace Keyword

/-- How the keyword is written. -/
def spelling : Keyword → String
  | .ret => "ret"
  | .br => "br"
  | .alloca => "alloca"
  | .load => "load"
  | .store => "store"
  | .getElementPtr => "getelementptr"
  | .call => "call"
  | .icmp => "icmp"
  | .fcmp => "fcmp"
  | .fneg => "fneg"
  | .switch => "switch"
  | .select => "select"
  | .unreachable => "unreachable"
  | .ibinop op => op.toString
  | .fbinop op => op.toString
  | .cast op => op.toString

/-- The keywords of the kinds that have one keyword only. -/
def plain : List Keyword :=
  [.ret, .br, .alloca, .load, .store, .getElementPtr, .call, .icmp, .fcmp, .fneg, .switch,
    .select, .unreachable]

/-- Every keyword. -/
def all : List Keyword :=
  plain ++ (IBinOp.all.map ibinop ++ (FBinOp.all.map fbinop ++ CastOp.all.map cast))

theorem mem_all (keyword : Keyword) : keyword ∈ all := by
  simp only [all, List.mem_append, List.mem_map]
  cases keyword with
  | ibinop op => exact .inr (.inl ⟨op, by cases op <;> decide, rfl⟩)
  | fbinop op => exact .inr (.inr (.inl ⟨op, by cases op <;> decide, rfl⟩))
  | cast op => exact .inr (.inr (.inr ⟨op, by cases op <;> decide, rfl⟩))
  | _ => exact .inl (by simp [plain])

/-- Read a keyword. -/
def read : Reader Char Keyword :=
  oneOf Char.isAlpha all (·.spelling.toList)

/-- A keyword is read back before anything that is not a letter. -/
theorem read_append
    (keyword : Keyword) {rest : List Char}
    (ends : Ends Char.isAlpha rest) :
    read (keyword.spelling.toList ++ rest) = some (keyword, rest) := by
  apply oneOf_append _ _ keyword.mem_all ends
  · decide +kernel
  · decide +kernel

end Keyword

/-- Every condition on integers. -/
def ICond.all : List ICond :=
  [.eq, .ne, .ugt, .uge, .ult, .ule, .sgt, .sge, .slt, .sle]

/-- Read a condition on integers. -/
def ICond.read : Reader Char ICond :=
  oneOf Char.isAlpha ICond.all (·.toString.toList)

/-- So is a condition on integers. -/
theorem ICond.read_append
    (cond : ICond) {rest : List Char}
    (ends : Ends Char.isAlpha rest) :
    ICond.read (cond.toString.toList ++ rest) = some (cond, rest) := by
  apply oneOf_append (by decide) (by decide) _ ends
  cases cond <;> decide

/-- Every condition on floating-point numbers. -/
def FCond.all : List FCond :=
  [.oeq, .ogt, .oge, .olt, .ole, .one, .ord, .ueq, .ugt, .uge, .ult, .ule, .une, .uno,
    .true, .false]

/-- Read a condition on floating-point numbers. -/
def FCond.read : Reader Char FCond :=
  oneOf Char.isAlpha FCond.all (·.toString.toList)

/-- So is a condition on floating-point numbers. -/
theorem FCond.read_append
    (cond : FCond) {rest : List Char}
    (ends : Ends Char.isAlpha rest) :
    FCond.read (cond.toString.toList ++ rest) = some (cond, rest) := by
  apply oneOf_append (by decide) (by decide) _ ends
  cases cond <;> decide

/-! ## The readers -/

/-- What the names in a text stand for. -/
structure Naming where
  block : String → BasicBlockId
  symbol : String → Global

/-- Read an alignment, if there is one. -/
def readAlignment : Reader Char (Option Nat) := do
  let aligned ← flag ", align ".toList
  if aligned then
    return some (← readNat)
  else
    return none

section Readers

variable (names : Naming) (depth : Nat)

/-- Read a label, which is the id of its block. -/
def readLabel : Reader Char BasicBlockId := do
  token "%"
  let name ← readName
  return names.block name

/-- Read two operands of one type, which is written once. -/
def readPair : Reader Char (Value × Value) := do
  let a ← readTyped names.symbol depth
  token ", "
  let b ← readOperand names.symbol depth a.ty
  return (a, ⟨a.ty, b⟩)

/-- Read a case of a switch. -/
def readCase (condTy : Ty) : Reader Char (ConstValue × BasicBlockId) := do
  token "        "
  let _ ← readTy depth
  token " "
  let value ← readConstant condTy
  token ", label "
  let label ← readLabel names
  token "\n"
  return (value, label)

/-! What comes after the keyword. -/

/-- Read a return. -/
def readRet : Reader Char InstructionKind := do
  token " "
  let ty ← readTy depth
  let given ← flag " ".toList
  if given then
    let kind ← readOperand names.symbol depth ty
    return .ret ⟨ty, some ⟨ty, kind⟩⟩
  else
    return .ret ⟨ty, none⟩

/-- Read a branch to one of two blocks. -/
def readConditionalBr : Reader Char InstructionKind := do
  token " i1 "
  let cond ← readOperand names.symbol depth .i1
  token ", label "
  let trueLabel ← readLabel names
  token ", label "
  let falseLabel ← readLabel names
  return .conditionalBr ⟨⟨⟨.i1, cond⟩, rfl⟩, trueLabel, falseLabel⟩

/-- Read a branch: only an unconditional one names its label first. -/
def readBr : Reader Char InstructionKind := do
  let always ← flag " label ".toList
  if always then
    let label ← readLabel names
    return .unconditionalBr ⟨label⟩
  else
    readConditionalBr names depth

/-- Read a number of elements, and the alignment behind it. -/
def readCount (ty : Ty) : Reader Char InstructionKind := do
  let counted ← flag ", ".toList
  if counted then
    let count ← readTyped names.symbol depth
    let align ← readAlignment
    return .alloca ⟨ty, some count, align⟩
  else
    return .alloca ⟨ty, none, none⟩

/-- Read an allocation: what follows the type is the alignment or the count. -/
def readAlloca : Reader Char InstructionKind := do
  token " "
  let ty ← readTy depth
  match ← readAlignment with
  | some align => return .alloca ⟨ty, none, some align⟩
  | none => readCount names depth ty

/-- Read a load. -/
def readLoad : Reader Char InstructionKind := do
  token " "
  let ty ← readTy depth
  token ", "
  let ptr ← readTyped names.symbol depth
  let align ← readAlignment
  return .load ⟨ty, ptr, align⟩

/-- Read a store. -/
def readStore : Reader Char InstructionKind := do
  token " "
  let value ← readTyped names.symbol depth
  token ", "
  let ptr ← readTyped names.symbol depth
  let align ← readAlignment
  return .store ⟨value, ptr, align⟩

/-- Read the address of an element. -/
def readGetElementPtr : Reader Char InstructionKind := do
  token " "
  let inbounds ← flag "inbounds ".toList
  let sourceTy ← readTy depth
  token ", "
  let ptr ← readTyped names.symbol depth
  let indices ← separatedBy ", ".toList (readTyped names.symbol depth)
  return .getElementPtr ⟨sourceTy, ptr, indices, inbounds⟩

/-- The sigil tells a function from a register. -/
def readCallee : Reader Char FuncName := do
  let direct ← flag "@".toList
  if direct then
    let name ← readName
    return .global name
  else
    token "%"
    let name ← readName
    return .local name

/-- Read a call. -/
def readCall : Reader Char InstructionKind := do
  token " "
  let returnTy ← readTy depth
  token " "
  let funcName ← readCallee
  token "("
  let args ← joinedBy ", ".toList ")".toList (readTyped names.symbol depth)
  token ")"
  return .call ⟨funcName, returnTy, args⟩

/-- Read a comparison. -/
def readIcmp : Reader Char InstructionKind := do
  token " "
  let cond ← ICond.read
  token " "
  let (a, b) ← readPair names depth
  return .icmp ⟨cond, a.ty, a, b⟩

/-- Read a comparison of floating-point numbers. -/
def readFcmp : Reader Char InstructionKind := do
  token " "
  let cond ← FCond.read
  token " "
  let (a, b) ← readPair names depth
  return .fcmp ⟨cond, a.ty, a, b⟩

/-- Read an operation on integers. -/
def readIbinop (op : IBinOp) : Reader Char InstructionKind := do
  token " "
  let (a, b) ← readPair names depth
  return .ibinop ⟨op, a.ty, a, b⟩

/-- Read an operation on floating-point numbers. -/
def readFbinop (op : FBinOp) : Reader Char InstructionKind := do
  token " "
  let (a, b) ← readPair names depth
  return .fbinop ⟨op, a.ty, a, b⟩

/-- Read a negation. -/
def readFneg : Reader Char InstructionKind := do
  token " "
  let value ← readTyped names.symbol depth
  return .fneg ⟨value.ty, value⟩

/-- Read a conversion. -/
def readCast (op : CastOp) : Reader Char InstructionKind := do
  token " "
  let value ← readTyped names.symbol depth
  token " to "
  let destTy ← readTy depth
  return .cast ⟨op, value.ty, value, destTy⟩

/-- Read a switch. -/
def readSwitch : Reader Char InstructionKind := do
  token " "
  let cond ← readTyped names.symbol depth
  token ", label "
  let defaultLabel ← readLabel names
  token " [\n"
  let cases ← many (readCase names depth cond.ty)
  token "    ]"
  return .switch ⟨cond.ty, cond, defaultLabel, cases⟩

/-- Read a choice. -/
def readSelect : Reader Char InstructionKind := do
  token " i1 "
  let cond ← readOperand names.symbol depth .i1
  token ", "
  let trueArm ← readTyped names.symbol depth
  token ", "
  let falseArm ← readTyped names.symbol depth
  return .select ⟨⟨⟨.i1, cond⟩, rfl⟩, trueArm.ty, trueArm, falseArm⟩

/-- Read what follows a keyword. -/
def readOperands : Keyword → Reader Char InstructionKind
  | .ret => readRet names depth
  | .br => readBr names depth
  | .alloca => readAlloca names depth
  | .load => readLoad names depth
  | .store => readStore names depth
  | .getElementPtr => readGetElementPtr names depth
  | .call => readCall names depth
  | .icmp => readIcmp names depth
  | .ibinop op => readIbinop names depth op
  | .fcmp => readFcmp names depth
  | .fbinop op => readFbinop names depth op
  | .fneg => readFneg names depth
  | .cast op => readCast names depth op
  | .switch => readSwitch names depth
  | .select => readSelect names depth
  | .unreachable => return .unreachable

/-- Read an instruction without its assignment. -/
def readInstructionKind : Reader Char InstructionKind := do
  let keyword ← Keyword.read
  readOperands names depth keyword

/-- Read the register that an instruction defines, if it defines one. -/
def readDefined : Reader Char (Option String) := do
  let defines ← flag "%".toList
  if defines then
    let name ← readName
    token " = "
    return some name
  else
    return none

/-- Read an instruction from its line. -/
def readInstruction : Reader Char Instruction := do
  token "    "
  let defined ← readDefined
  let kind ← readInstructionKind names depth
  token "\n"
  return ⟨kind, defined.bind fun name => kind.resultTy.map (Value.fromRegister name)⟩

/-- Read a branch of a phi of the type. -/
def readPhiBranch (ty : Ty) : Reader Char (BasicBlockId × Value) := do
  token "[ "
  let kind ← readOperand names.symbol depth ty
  token ", "
  let label ← readLabel names
  token " ]"
  return (label, ⟨ty, kind⟩)

/-- Read a phi from its line. -/
def readPhi : Reader Char PhiInstruction := do
  token "    %"
  let name ← readName
  token " = phi "
  let refTy ← readTy depth
  token " "
  let branches ← joinedBy ", ".toList "\n".toList (readPhiBranch names depth refTy)
  token "\n"
  return ⟨branches, branches.map (·.1), refTy, Value.fromRegister name refTy⟩

end Readers

/-! ## Reading back -/

/-- What follows an instruction on its line. -/
def AfterLine (rest : List Char) : Prop :=
  ∃ later, rest = '\n' :: later

/-- The label of the block. -/
def Context.labelOf (self : Context) (id : BasicBlockId) : String :=
  ((self.blocks[id]?).map BasicBlock.name).getD ""

/-- The renaming that reading back amounts to. -/
def Naming.renaming (self : Naming) (ctx : Context) : Renaming where
  block := fun id => self.block (ctx.labelOf id)
  symbol := fun global => self.symbol global.name

/-- How a line starts that defines a register. -/
def definition : Option String → List Char
  | some name => "%".toList ++ (name.toList ++ " = ".toList)
  | none => []

/-- A name may stand at the end of a line. -/
theorem AfterLine.afterName
    {rest : List Char}
    (after : AfterLine rest) :
    AfterName rest := by
  obtain ⟨later, rfl⟩ := after
  simp [isPlain]

/-- So may a type. -/
theorem AfterLine.afterTy
    {rest : List Char}
    (after : AfterLine rest) :
    AfterTy rest := by
  obtain ⟨later, rfl⟩ := after
  exact ⟨by simp, by simp⟩

theorem afterName_comma (rest : List Char) : AfterName (", ".toList ++ rest) := by
  simp [isPlain]

section Pieces

variable {rest : List Char}

/-- An alignment at the end of a line is read back. -/
theorem readAlignment_append
    (align : Option Nat) (after : AfterLine rest) :
    readAlignment ((alignment align).toList ++ rest) = some (align, rest) := by
  obtain ⟨later, rfl⟩ := after
  cases align with
  | none =>
      have unlike : ¬", align ".toList <+: '\n' :: later := by simp
      have spelled : (alignment none).toList = [] := rfl
      rw [spelled, List.nil_append]
      simp only [readAlignment, bind_apply, flag_of_not unlike, Option.bind_some,
        Bool.false_eq_true, if_false, pure_apply]
  | some align =>
      have ends : Ends Char.isDigit ('\n' :: later) := by simp
      simp only [alignment, String.toList_append, List.append_assoc, readAlignment, bind_apply,
        flag_append, Option.bind_some, if_true, readNat_append align ends, pure_apply]

theorem afterName_alignment
    (align : Option Nat) (after : AfterLine rest) :
    AfterName ((alignment align).toList ++ rest) := by
  cases align with
  | none => exact after.afterName
  | some align =>
      rw [alignment, String.toList_append, List.append_assoc]
      simp [isPlain]

end Pieces

section Lines

variable (names : Naming) {ctx : Context}

/-- A label is read back as its block. -/
theorem readLabel_append
    {id : BasicBlockId} {text : String} {rest : List Char}
    (plain : ∀ id, Plain (ctx.labelOf id)) (spelled : label id ctx = .ok text)
    (after : AfterName rest) :
    readLabel names (text.toList ++ rest) = some ((names.renaming ctx).block id, rest) := by
  obtain ⟨name, named, same⟩ := Attempt.bind_eq_ok.mp spelled
  cases same
  obtain ⟨block, found, same⟩ := Attempt.bind_eq_ok.mp named
  cases same
  have labelled : ctx.labelOf id = block.name := by
    rw [Context.labelOf, Attempt.orPanic_eq_ok.mp found]
    rfl
  have plain := plain id
  rw [labelled] at plain
  simp only [String.toList_append, List.append_assoc, readLabel, bind_apply, token_append,
    readName_append plain after, Option.bind_some, pure_apply, Naming.renaming, labelled]

/-- The line consists of the register that it defines, the keyword, and operands that
are read back. -/
structure LineReads
    (ctx : Context) (defined : Option String) (kind : InstructionKind) (text : String)
    (keyword : Keyword) (tail : List Char) : Prop where
  spelled : text.toList = definition defined ++ (keyword.spelling.toList ++ tail)
  ends : Ends Char.isAlpha tail
  reads : ∀ᶠ depth in atTop, Reads (readOperands names depth keyword) AfterLine tail
    (kind.rename (names.renaming ctx))

end Lines

end Llvm
end TraceWasm
