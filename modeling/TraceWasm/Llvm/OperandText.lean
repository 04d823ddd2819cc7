import TraceWasm.Llvm.LiteralText
import TraceWasm.Llvm.Renaming
import TraceWasm.Llvm.WellFormed

/-!
# Reading operands

An operand is read at its type. A symbol is read as whatever its name stands for, so
it comes back renamed.
-/

namespace TraceWasm
namespace Llvm

open Reader
open Filter (atTop)

/-! ## The reader -/

section Readers

variable (symbol : String → Global)

/-- Read an operand of the type, given how to read the types and operands in it. -/
def readKind (type : Reader Char Ty) (typed : Reader Char Value) (ty : Ty) :
    Reader Char ValueKind := fun text =>
  match text with
  | '%' :: rest => (do return .reg (← readName) : Reader Char ValueKind) rest
  | '@' :: rest => (do return .global (symbol (← readName)) : Reader Char ValueKind) rest
  | 'g' :: _ => (do
      token "getelementptr "
      let inbounds ← flag "inbounds ".toList
      token "("
      let sourceTy ← type
      token ", "
      let ptr ← typed
      let indices ← separatedBy ", ".toList typed
      token ")"
      return .constExpr (.getElementPtr ⟨sourceTy, ptr, indices, inbounds⟩) :
        Reader Char ValueKind) text
  | _ => (do return .constExpr (.const (← readConstant ty)) : Reader Char ValueKind) text

/-- Read a type and then an operand of it. -/
def readTyped : Nat → Reader Char Value
  | 0 => fail
  | depth + 1 => do
      let ty ← readTy depth
      token " "
      let kind ← readKind symbol (readTy depth) (readTyped depth) ty
      return ⟨ty, kind⟩

/-- Read an operand of the type. -/
def readOperand (depth : Nat) (ty : Ty) : Reader Char ValueKind :=
  readKind symbol (readTy depth) (readTyped symbol depth) ty

end Readers

/-! ## Reading back -/

section Reads

/-- The leaves that are read back. -/
def legible : Leaves where
  reg := Plain
  symbol := fun global => Plain global.name
  const := ConstValue.Exact

/-- An operand is spelled so that it does not end the type ahead of it. -/
theorem operandKind_head
    {kind : ValueKind} {text : String}
    (spelled : operandKind kind = .ok text) :
    ∃ first rest, text.toList = first :: rest ∧ first ≠ '(' := by
  cases kind with
  | reg name =>
      cases spelled
      exact ⟨'%', name.toList, by simp, by decide⟩
  | global global =>
      cases spelled
      exact ⟨'@', global.name.toList, by simp, by decide⟩
  | constExpr expr =>
      cases expr with
      | const value =>
          cases spelled
          obtain ⟨first, rest, head, unlike⟩ := constant_head value
          exact ⟨first, rest, head, fun same => unlike (by simp [same])⟩
      | getElementPtr operands =>
          obtain ⟨sourceTy, ptr, indices, inbounds⟩ := operands
          obtain ⟨_, _, spelled⟩ := Attempt.bind_eq_ok.mp spelled
          obtain ⟨_, _, spelled⟩ := Attempt.bind_eq_ok.mp spelled
          cases spelled
          exact ⟨'g', _, by simp only [String.toList_append]; rfl, by decide⟩
      | _ => cases spelled

theorem afterTy_blank
    {first : Char} {rest : List Char}
    (unlike : first ≠ '(') :
    AfterTy (" ".toList ++ (first :: rest)) := by
  refine ⟨by simp, ?_⟩
  have spelled : " (".toList = [' ', '('] := rfl
  have blank : " ".toList = [' '] := rfl
  rw [spelled, blank]
  simp [Ne.symm unlike]

theorem afterTy_comma (rest : List Char) : AfterTy (", ".toList ++ rest) :=
  ⟨by simp, by simp⟩

variable (symbol : String → Global)

/-- Every operand is read back, by the name that it has in the text. -/
abbrev KindReads (depth : Nat) (ty : Ty) (text : String) (kind : ValueKind) : Prop :=
  Reads (readOperand symbol depth ty) AfterName text.toList
    (kind.rename fun global => symbol global.name)

/-- The text of an operand with its type is read back as the operand, renamed. -/
abbrev ValueReads (depth : Nat) (text : String) (value : Value) : Prop :=
  Reads (readTyped symbol depth) AfterName text.toList
    (value.rename fun global => symbol global.name)

section Steps

variable {symbol} {depth : Nat}

/-- An operand with its type is read back if its parts are. -/
theorem reads_typed
    {ty : Ty} {kind : ValueKind} {text : String}
    (spelled : operandKind kind = .ok text)
    (reads : Reads (readTy depth) AfterTy ty.display.toList ty)
    (kindReads : KindReads symbol depth ty text kind) :
    ValueReads symbol (depth + 1) (ty.display ++ " " ++ text) ⟨ty, kind⟩ := by
  intro rest ends
  obtain ⟨first, others, head, unlike⟩ := operandKind_head spelled
  have next : AfterTy (" ".toList ++ (text.toList ++ rest)) := by
    rw [head]
    exact afterTy_blank unlike
  have kindRead := kindReads rest ends
  unfold readOperand at kindRead
  simp only [String.toList_append, List.append_assoc, readTyped, bind_apply, reads _ next,
    Option.bind_some, token_append, kindRead, pure_apply, Value.rename]

/-- A register is read back. -/
theorem reads_reg
    {ty : Ty} {name : String}
    (plain : Plain name) :
    KindReads symbol depth ty ("%" ++ name) (.reg name) := by
  intro rest ends
  have sigil : "%".toList = ['%'] := rfl
  simp only [String.toList_append, sigil, List.cons_append, List.nil_append, readOperand,
    readKind, bind_apply, readName_append plain ends, Option.bind_some, pure_apply,
    ValueKind.rename]

/-- So is a global. -/
theorem reads_global
    {ty : Ty} {global : Global}
    (plain : Plain global.name) :
    KindReads symbol depth ty ("@" ++ global.name) (.global global) := by
  intro rest ends
  have sigil : "@".toList = ['@'] := rfl
  simp only [String.toList_append, sigil, List.cons_append, List.nil_append, readOperand,
    readKind, bind_apply, readName_append plain ends, Option.bind_some, pure_apply,
    ValueKind.rename]

/-- So is a constant that is written exactly. -/
theorem reads_const
    {value : ConstValue}
    (exactly : value.Exact) :
    KindReads symbol depth value.ty (constant value) (.constExpr (.const value)) := by
  intro rest ends
  have read := reads_constant exactly rest ends
  obtain ⟨first, others, head, unlike⟩ := constant_head value
  simp only [List.mem_cons, not_or] at unlike
  rw [head, List.cons_append] at read ⊢
  unfold readOperand readKind
  split
  case h_1 same =>
    cases same
    exact (unlike.1 rfl).elim
  case h_2 same =>
    cases same
    exact (unlike.2.1 rfl).elim
  case h_3 same =>
    cases same
    exact (unlike.2.2.1 rfl).elim
  case h_4 =>
    simp only [bind_apply, read, Option.bind_some, pure_apply, ValueKind.rename,
      ConstExpr.rename]

/-- So is a constant address, if its parts are. -/
theorem reads_gep
    {ty sourceTy : Ty} {ptr : Value} {indices : List Value} {inbounds : Bool}
    {ptrText : String} {texts : List String}
    (reads : Reads (readTy depth) AfterTy sourceTy.display.toList sourceTy)
    (readsPtr : ValueReads symbol depth ptrText ptr)
    (readsIndices : List.Forall₂ (Reads (readTyped symbol depth) AfterName)
      (texts.map String.toList)
      (Value.renameAll (fun global => symbol global.name) indices)) :
    KindReads symbol depth ty
      ("getelementptr " ++ (if inbounds then "inbounds " else "") ++ "(" ++
        sourceTy.display ++ ", " ++ ptrText ++ separated texts ++ ")")
      (.constExpr (.getElementPtr ⟨sourceTy, ptr, indices, inbounds⟩)) := by
  intro rest ends
  have closes : AfterName (")".toList ++ rest) := by simp [isPlain]
  have later : separatedBy ", ".toList (readTyped symbol depth)
      ((separated texts).toList ++ (")".toList ++ rest)) =
        some (Value.renameAll (fun global => symbol global.name) indices,
          ")".toList ++ rest) := by
    rw [toList_separated]
    exact separatedBy_flatten readsIndices (by simp [isPlain]) (by simp) closes (by simp)
  have next : AfterName ((separated texts).toList ++ (")".toList ++ rest)) := by
    cases texts <;> simp [separated, isPlain]
  have opened : "getelementptr ".toList = 'g' :: "etelementptr ".toList := rfl
  have taken (text : List Char) :
      token "getelementptr " ('g' :: ("etelementptr ".toList ++ text)) = some ((), text) :=
    token_append "getelementptr " text
  have marked (text : List Char) :
      flag "inbounds ".toList ((if inbounds then "inbounds " else "").toList ++
        ("(".toList ++ text)) = some (inbounds, "(".toList ++ text) := by
    cases inbounds with
    | true => exact flag_append _ _
    | false => exact flag_of_not (by simp)
  simp only [String.toList_append, List.append_assoc, opened, List.cons_append, readOperand,
    readKind, bind_apply, taken, marked, reads _ (afterTy_comma _), token_append,
    Option.bind_some, readsPtr _ next, later, pure_apply, ValueKind.rename, ConstExpr.rename,
    GetElementPtrOperands.rename]

end Steps

mutual

/-- A deep enough reader reads back an operand with its type. -/
theorem eventually_reads_typed :
    (value : Value) → {text : String} → typedOperand value = .ok text →
      value.Formed legible → ∀ᶠ depth in atTop, ValueReads symbol depth text value
  | ⟨ty, kind⟩, text, spelled, formed => by
      obtain ⟨kindText, kindSpelled, same⟩ := Attempt.bind_eq_ok.mp spelled
      cases same
      rw [← Filter.map_add_atTop_eq_nat 1, Filter.eventually_map]
      apply ((eventually_reads_ty ty).and (eventually_reads_kind kind kindSpelled formed)).mono
      exact fun depth reads => reads_typed kindSpelled reads.1 reads.2

/-- A deep enough reader reads back an operand. -/
theorem eventually_reads_kind :
    (kind : ValueKind) → {ty : Ty} → {text : String} → operandKind kind = .ok text →
      kind.Formed legible ty → ∀ᶠ depth in atTop, KindReads symbol depth ty text kind
  | .reg name, ty, text, spelled, formed => by
      cases spelled
      exact .of_forall fun _ => reads_reg formed
  | .constExpr expr, ty, text, spelled, formed =>
      eventually_reads_expr expr spelled formed.1 formed.2
  | .global global, ty, text, spelled, formed => by
      cases spelled
      exact .of_forall fun _ => reads_global formed.2

/-- A deep enough reader reads back a constant expression. -/
theorem eventually_reads_expr :
    (expr : ConstExpr) → {ty : Ty} → {text : String} → constExpr expr = .ok text →
      expr.ty = ty → expr.Formed legible →
      ∀ᶠ depth in atTop, KindReads symbol depth ty text (.constExpr expr)
  | .getElementPtr operands, ty, text, spelled, typed, formed =>
      eventually_reads_gep operands spelled formed
  | .const value, ty, text, spelled, typed, formed => by
      cases spelled
      cases typed
      exact .of_forall fun _ => reads_const formed
  | .ptrToInt, ty, text, spelled, typed, formed => by cases spelled
  | .intToPtr, ty, text, spelled, typed, formed => by cases spelled
  | .bitCast _, ty, text, spelled, typed, formed => by cases spelled
  | .trunc _, ty, text, spelled, typed, formed => by cases spelled

/-- A deep enough reader reads back a constant address. -/
theorem eventually_reads_gep :
    (operands : GetElementPtrOperands) → {ty : Ty} → {text : String} →
      getElementPtrExpr operands = .ok text → operands.Formed legible →
      ∀ᶠ depth in atTop, KindReads symbol depth ty text (.constExpr (.getElementPtr operands))
  | ⟨sourceTy, ptr, indices, inbounds⟩, ty, text, spelled, formed => by
      obtain ⟨texts, indicesSpelled, spelled⟩ := Attempt.bind_eq_ok.mp spelled
      obtain ⟨ptrText, ptrSpelled, same⟩ := Attempt.bind_eq_ok.mp spelled
      cases same
      have reads := (eventually_reads_ty sourceTy).and
        ((eventually_reads_typed ptr ptrSpelled formed.1).and
          (eventually_reads_values indices indicesSpelled formed.2))
      exact reads.mono fun depth reads => reads_gep reads.1 reads.2.1 reads.2.2

/-- A deep enough reader reads back a list of operands. -/
theorem eventually_reads_values :
    (values : List Value) → {texts : List String} → typedOperands values = .ok texts →
      Value.AllFormed legible values →
      ∀ᶠ depth in atTop, List.Forall₂ (Reads (readTyped symbol depth) AfterName)
        (texts.map String.toList)
        (Value.renameAll (fun global => symbol global.name) values)
  | [], texts, spelled, formed => by
      cases spelled
      exact .of_forall fun _ => .nil
  | value :: values, texts, spelled, formed => by
      obtain ⟨text, first, spelled⟩ := Attempt.bind_eq_ok.mp spelled
      obtain ⟨others, later, same⟩ := Attempt.bind_eq_ok.mp spelled
      cases same
      have reads := (eventually_reads_typed value first formed.1).and
        (eventually_reads_values values later formed.2)
      exact reads.mono fun depth reads => .cons reads.1 reads.2

end

end Reads

end Llvm
end TraceWasm
