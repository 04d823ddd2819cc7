import TraceWasm.Llvm.TypeText

/-!
# Reading names and literals

A name ends where a character stands that no plain name has. Integers are read from
their decimal digits, floats from the bits of the `f64` that they are.
-/

namespace TraceWasm
namespace Llvm

open Reader

/-! ## Names and numbers -/

/-- A character that never stands next to a name. -/
def isPlain (c : Char) : Bool :=
  c ∉ [' ', '\n', ',', '(', ')']

/-- The end of the name can be told. -/
def Plain (name : String) : Prop :=
  ∀ c ∈ name.toList, isPlain c = true

instance (name : String) : Decidable (Plain name) :=
  decidable_of_iff (name.toList.all isPlain = true) List.all_eq_true

/-- What may follow a name, and so an operand. -/
abbrev AfterName : List Char → Prop := Ends isPlain

/-- Read a name, up to the first character that no name has. -/
def readName : Reader Char String := do
  let name ← run isPlain
  return String.ofList name

/-- A plain name is read back. -/
theorem readName_append
    {name : String} {rest : List Char}
    (plain : Plain name) (ends : AfterName rest) :
    readName (name.toList ++ rest) = some (name, rest) := by
  simp only [readName, bind_apply, run_append plain ends, Option.bind_some, pure_apply,
    String.ofList_toList]

/-- What ends a name ends every run of characters that names may have. -/
theorem ends_of_afterName
    {kind : Char → Bool} {rest : List Char}
    (all : ∀ c, kind c = true → isPlain c = true) (ends : AfterName rest) :
    Ends kind rest := by
  intro c member
  by_contra isKind
  have plain := all c (by simpa using isKind)
  rw [ends c member] at plain
  cases plain

/-- Characters that are unlike the separators may stand in names. -/
theorem isPlain_of_not_mem
    {kind : Char → Bool} {c : Char}
    (unlike : [' ', '\n', ',', '(', ')'].any kind = false) (isKind : kind c = true) :
    isPlain c = true := by
  unfold isPlain
  rw [decide_eq_true_eq]
  intro member
  exact List.any_eq_false.mp unlike c member isKind

/-- A number starts with a digit. -/
theorem toString_head (n : Nat) :
    ∃ first rest, (toString n).toList = first :: rest ∧ first.isDigit = true := by
  obtain ⟨first, rest, spelled⟩ := List.exists_cons_of_ne_nil (toString_ne_nil n)
  have member : first ∈ (toString n).toList := by
    rw [spelled]
    exact List.mem_cons_self
  exact ⟨first, rest, spelled, isDigit_of_mem_toString member⟩

theorem toString_negSucc (n : Nat) :
    (toString (Int.negSucc n)).toList = '-' :: (toString (n + 1)).toList := by
  have spelled : toString (Int.negSucc n) = "-" ++ toString (n + 1) := rfl
  rw [spelled, String.toList_append]
  rfl

/-- Read a number that may be negative. -/
def readInt : Reader Char Int := fun text =>
  match text with
  | '-' :: rest => (do return -(← readNat) : Reader Char Int) rest
  | _ => (do return ← readNat : Reader Char Int) text

/-- An integer is read back. -/
theorem readInt_append
    (n : Int) {rest : List Char}
    (ends : AfterName rest) :
    readInt ((toString n).toList ++ rest) = some (n, rest) := by
  have ends : Ends Char.isDigit rest :=
    ends_of_afterName (fun _ => isPlain_of_not_mem (by decide)) ends
  cases n with
  | ofNat n =>
      have read := readNat_append n ends
      have same : (toString (Int.ofNat n)).toList = (toString n).toList := rfl
      obtain ⟨first, others, spelled, digit⟩ := toString_head n
      rw [same]
      rw [spelled, List.cons_append] at read ⊢
      unfold readInt
      split
      case h_1 sameHead =>
        cases sameHead
        cases digit
      case h_2 => simp [read]
  | negSucc n =>
      rw [toString_negSucc, List.cons_append]
      simp only [readInt, bind_apply, readNat_append (n + 1) ends, Option.bind_some, pure_apply]
      rfl

/-! ## Hexadecimal numbers -/

/-- The value of an upper-case hexadecimal digit. -/
def hexDigitValue (c : Char) : Nat := "0123456789ABCDEF".toList.idxOf c

/-- An upper-case hexadecimal digit. -/
def isHexDigit (c : Char) : Bool := c ∈ "0123456789ABCDEF".toList

/-- Read a hexadecimal number. -/
def readHex : Reader Char Nat := do
  token "0x"
  let digits ← run isHexDigit
  return digits.foldl (fun n digit => 16 * n + hexDigitValue digit) 0

/-- A hexadecimal digit is read back. -/
theorem hexDigitValue_hexDigit
    (small : n < 16) :
    hexDigitValue (hexDigit n) = n ∧ isHexDigit (hexDigit n) = true := by
  revert n
  decide

/-- Hexadecimal digits are read back as the number they were written from. -/
theorem foldl_hexDigits (width n : Nat) :
    (hexDigits width n).foldl (fun n digit => 16 * n + hexDigitValue digit) 0 =
      n % 16 ^ width := by
  induction width generalizing n with
  | zero => simp [hexDigits, Nat.mod_one]
  | succ width inductionHypothesis =>
      have last := (hexDigitValue_hexDigit (Nat.mod_lt n (by decide : 16 > 0))).1
      rw [hexDigits, List.foldl_append, inductionHypothesis, List.foldl_cons, List.foldl_nil,
        last, Nat.pow_succ, Nat.mul_comm _ 16, Nat.mod_mul, Nat.add_comm]

theorem isHexDigit_of_mem
    (member : c ∈ hexDigits width n) :
    isHexDigit c = true := by
  induction width generalizing n with
  | zero => cases member
  | succ width inductionHypothesis =>
      rcases List.mem_append.mp member with earlier | last
      · exact inductionHypothesis earlier
      · rw [List.mem_singleton.mp last]
        exact (hexDigitValue_hexDigit (Nat.mod_lt n (by decide))).2

/-- A number of 64 bits is read back from its sixteen digits. -/
theorem readHex_append
    (bits : BitVec 64) {rest : List Char}
    (ends : AfterName rest) :
    readHex ("0x".toList ++ (hexDigits 16 bits.toNat ++ rest)) = some (bits.toNat, rest) := by
  have ends : Ends isHexDigit rest :=
    ends_of_afterName (fun _ => isPlain_of_not_mem (by decide)) ends
  have small : bits.toNat % 16 ^ 16 = bits.toNat := Nat.mod_eq_of_lt bits.isLt
  simp only [readHex, bind_apply, token_append, Option.bind_some,
    run_append (fun _ => isHexDigit_of_mem) ends, pure_apply, foldl_hexDigits, small]

/-! ## Constants -/

/-- A `float` is what its `f64` is narrowed to. -/
def ConstValue.Exact : ConstValue → Prop
  | .float bits => Ieee.narrow (Ieee.widen bits) = bits
  | _ => True

/-- Read a constant of the type. -/
def readConstant : Ty → Reader Char ConstValue
  | .i1 => do
      let isTrue ← flag "true".toList
      if isTrue then
        return boolConst true
      else
        token "false"
        return boolConst false
  | .i8 => do return .i8 (BitVec.ofInt 8 (← readInt))
  | .i16 => do return .i16 (BitVec.ofInt 16 (← readInt))
  | .i32 => do return .i32 (BitVec.ofInt 32 (← readInt))
  | .i64 => do return .i64 (BitVec.ofInt 64 (← readInt))
  | .float => do return .float (Ieee.narrow (BitVec.ofNat 64 (← readHex)))
  | .double => do return .double (BitVec.ofNat 64 (← readHex))
  | .ptr => do
      token "null"
      return .nullPtr
  | _ => fail

/-- A constant that is written exactly is read back. -/
theorem reads_constant
    {value : ConstValue}
    (exactly : value.Exact) :
    Reads (readConstant value.ty) AfterName (constant value).toList value := by
  intro rest ends
  cases value with
  | i1 val bit =>
      rcases bit with rfl | rfl
      · have unlike : ¬"true".toList <+: "false".toList ++ rest := by simp
        have spelled : constant (.i1 0 (.inl rfl)) = "false" := rfl
        simp only [spelled, ConstValue.ty, readConstant, bind_apply, flag_of_not unlike,
          Option.bind_some, Bool.false_eq_true, if_false, token_append, pure_apply, boolConst]
      · have spelled : constant (.i1 1 (.inr rfl)) = "true" := rfl
        simp only [spelled, ConstValue.ty, readConstant, bind_apply, flag_append,
          Option.bind_some, if_true, pure_apply, boolConst]
  | nullPtr =>
      simp only [constant, ConstValue.ty, readConstant, bind_apply, token_append,
        Option.bind_some, pure_apply]
  | float bits =>
      simp only [constant, ConstValue.ty, readConstant, String.toList_append,
        String.toList_ofList, List.append_assoc, bind_apply, readHex_append _ ends,
        Option.bind_some, pure_apply, BitVec.ofNat_toNat, BitVec.setWidth_eq,
        show Ieee.narrow (Ieee.widen bits) = bits from exactly]
  | double bits =>
      simp only [constant, ConstValue.ty, readConstant, String.toList_append,
        String.toList_ofList, List.append_assoc, bind_apply, readHex_append _ ends,
        Option.bind_some, pure_apply, BitVec.ofNat_toNat, BitVec.setWidth_eq]
  | _ =>
      simp only [constant, ConstValue.ty, readConstant, bind_apply, readInt_append _ ends,
        Option.bind_some, pure_apply, BitVec.ofInt_toInt]

/-- A constant is spelled neither like a name nor like an expression. -/
theorem constant_head (value : ConstValue) :
    ∃ first rest, (constant value).toList = first :: rest ∧ first ∉ ['%', '@', 'g', '('] := by
  have integer (n : Int) :
      ∃ first rest, (toString n).toList = first :: rest ∧ first ∉ ['%', '@', 'g', '('] := by
    cases n with
    | ofNat n =>
        obtain ⟨first, rest, spelled, digit⟩ := toString_head n
        refine ⟨first, rest, spelled, fun member => ?_⟩
        have noDigit : ['%', '@', 'g', '('].any Char.isDigit = false := by decide
        exact List.any_eq_false.mp noDigit first member digit
    | negSucc n => exact ⟨'-', _, toString_negSucc n, by decide⟩
  cases value with
  | i1 val bit =>
      rcases bit with rfl | rfl
      · exact ⟨'f', "alse".toList, by simp [constant], by decide⟩
      · exact ⟨'t', "rue".toList, by simp [constant], by decide⟩
  | nullPtr => exact ⟨'n', "ull".toList, by simp [constant], by decide⟩
  | float bits => exact ⟨'0', _, by simp [constant]; rfl, by decide⟩
  | double bits => exact ⟨'0', _, by simp [constant]; rfl, by decide⟩
  | i8 val => exact integer val.toInt
  | i16 val => exact integer val.toInt
  | i32 val => exact integer val.toInt
  | i64 val => exact integer val.toInt

end Llvm
end TraceWasm
