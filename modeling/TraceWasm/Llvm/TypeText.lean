import TraceWasm.Foundation.Reader
import TraceWasm.Llvm.Emit
import Mathlib.Order.Filter.AtTopBot.Basic

/-!
# Reading types

A type is read back from its spelling, so two types that are spelled alike are the same
type. A function type starts with its result, so a type is read as one that is no
function and the parameter lists behind it.
-/

namespace TraceWasm
namespace Llvm

open Reader
open Filter (atTop)

/-! ## Pieces -/

/-- Read exactly the given string. -/
def token (spelling : String) : Reader Char Unit := literal spelling.toList

/-- A token is read back. -/
@[simp] theorem token_append (spelling : String) (rest : List Char) :
    token spelling (spelling.toList ++ rest) = some ((), rest) :=
  literal_append _ _

/-- Read a number in decimal digits. -/
def readNat : Reader Char Nat := do
  let digits ← run Char.isDigit
  return Nat.ofDigitChars 10 digits 0

/-- A natural number is read back. -/
theorem readNat_append
    (n : Nat) {rest : List Char}
    (ends : Ends Char.isDigit rest) :
    readNat ((toString n).toList ++ rest) = some (n, rest) := by
  have spelled : (toString n).toList = Nat.toDigits 10 n := Nat.toList_repr
  unfold readNat
  rw [bind_apply, run_append (fun _ member => isDigit_of_mem_toString member) ends]
  simp

/-- Pieces with a separator before each. -/
theorem toList_separated (pieces : List String) :
    (separated pieces).toList =
      ((pieces.map String.toList).map (", ".toList ++ ·)).flatten := by
  induction pieces with
  | nil => rfl
  | cons piece pieces inductionHypothesis =>
      simp only [separated, String.toList_append, inductionHypothesis, List.map_cons,
        List.flatten_cons]

/-- Pieces with separators between them. -/
theorem toList_joined (piece : String) (pieces : List String) :
    (joined (piece :: pieces)).toList =
      piece.toList ++ ((pieces.map String.toList).map (", ".toList ++ ·)).flatten := by
  rw [joined, String.toList_append, toList_separated]

/-- What is written with commas in between is read back up to what closes it. -/
theorem joinedBy_joined
    {α : Type} {read : Reader Char α} {follow : List Char → Prop} {close rest : List Char}
    {texts : List String} {values : List α}
    (reads : List.Forall₂
      (fun text value => (∀ rest, ¬close <+: String.toList text ++ rest) ∧
        Reads read follow (String.toList text) value)
      texts values)
    (comma : ∀ rest, follow (", ".toList ++ rest))
    (follows : follow (close ++ rest)) (ends : ¬", ".toList <+: close ++ rest) :
    joinedBy ", ".toList close read ((joined texts).toList ++ (close ++ rest)) =
      some (values, close ++ rest) := by
  cases reads with
  | nil => exact joinedBy_nil (List.prefix_append _ _)
  | cons first later =>
      have others : List.Forall₂ (Reads read follow) (List.map String.toList _) _ :=
        List.forall₂_map_left_iff.mpr (later.imp fun _ _ reads => reads.2)
      rw [toList_joined, List.append_assoc]
      exact joinedBy_cons first.2 first.1 others comma (by simp) follows ends

/-! ## The reader -/

/-- The types that are spelled as one word. -/
def wordTys : List Ty :=
  [.i1, .i8, .i16, .i32, .i64, .half, .bfloat, .float, .double, .ptr, .void]

/-- Read a type that is spelled as one word. -/
def readWordTy : Reader Char Ty :=
  oneOf Char.isAlphanum wordTys (·.display.toList)

/-- Read a type that is no function type. -/
def readCore (inner : Reader Char Ty) : Reader Char Ty := fun text =>
  match text with
  | '[' :: rest => (do
      let size ← readNat
      token " x "
      let element ← inner
      token "]"
      return .array size element : Reader Char Ty) rest
  | '\x7b' :: _ => (do
      token "\x7b "
      let fields ← joinedBy ", ".toList " \x7d".toList inner
      token " \x7d"
      return .struct fields false : Reader Char Ty) text
  | '<' :: _ => (do
      token "<\x7b "
      let fields ← joinedBy ", ".toList " \x7d>".toList inner
      token " \x7d>"
      return .struct fields true : Reader Char Ty) text
  | _ => readWordTy text

/-- Read the parameter types of a function type. -/
def readParamTys (inner : Reader Char Ty) : Reader Char (List Ty) := do
  token " ("
  let params ← joinedBy ", ".toList ")".toList inner
  token ")"
  return params

/-- Read a type that is nested at most so deep. -/
def readTy : Nat → Reader Char Ty
  | 0 => fail
  | depth + 1 => do
      let core ← readCore (readTy depth)
      let paramLists ← many (readParamTys (readTy depth))
      return paramLists.foldl (fun result params => .func params result) core

/-- What may follow a type. -/
def AfterTy (rest : List Char) : Prop :=
  Ends Char.isAlphanum rest ∧ ¬" (".toList <+: rest

/-! ## Function types, taken apart -/

namespace Ty

/-- The result of the innermost function type. -/
def core : Ty → Ty
  | .func _ result => result.core
  | ty => ty

/-- The parameter types, from the innermost function type on. -/
def paramLists : Ty → List (List Ty)
  | .func params result => result.paramLists ++ [params]
  | _ => []

/-- A function type is its core, applied to its lists of parameters. -/
theorem foldl_paramLists (ty : Ty) :
    ty.paramLists.foldl (fun result params => .func params result) ty.core = ty := by
  induction ty using core.induct with
  | case1 params result inductionHypothesis =>
      rw [paramLists, core, List.foldl_append, inductionHypothesis]
      rfl
  | case2 ty notFunc =>
      cases ty with
      | func params result => exact (notFunc params result rfl).elim
      | _ => rfl

/-- The spelling of the parameter types. -/
def paramsText (params : List Ty) : List Char :=
  " (".toList ++ ((joined (displayAll params)).toList ++ ")".toList)

/-- A type is written as its core, followed by its lists of parameters. -/
theorem toList_display (ty : Ty) :
    ty.display.toList =
      ty.core.display.toList ++ (ty.paramLists.map paramsText).flatten := by
  induction ty using core.induct with
  | case1 params result inductionHypothesis =>
      rw [display, paramLists, core, List.map_append, List.flatten_append,
        String.toList_append, String.toList_append, String.toList_append, inductionHypothesis]
      simp [paramsText]
  | case2 ty notFunc =>
      cases ty with
      | func params result => exact (notFunc params result rfl).elim
      | _ => simp [paramLists, core]

/-- A spelling starts with neither a blank nor a parenthesis, nor as `align` does. -/
theorem display_head (ty : Ty) :
    ∃ first rest, ty.display.toList = first :: rest ∧ first ∉ [' ', '(', ')', 'a'] := by
  induction ty using core.induct with
  | case1 params result inductionHypothesis =>
      obtain ⟨first, rest, spelled, unlike⟩ := inductionHypothesis
      rw [display, String.toList_append, String.toList_append, String.toList_append, spelled]
      exact ⟨first, _, rfl, unlike⟩
  | case2 ty notFunc =>
      cases ty with
      | func params result => exact (notFunc params result rfl).elim
      | array size element =>
          exact ⟨'[', _, by simp [display]; rfl, by decide⟩
      | struct fields packed =>
          cases packed with
          | false => exact ⟨'\x7b', _, by simp [display]; rfl, by decide⟩
          | true => exact ⟨'<', _, by simp [display]; rfl, by decide⟩
      | _ => exact ⟨_, _, rfl, by decide⟩

/-- No type starts with a blank, a parenthesis or an `a`. -/
theorem not_prefix_display
    {first : Char} {close : List Char}
    (listed : first ∈ [' ', '(', ')', 'a']) (ty : Ty) (rest : List Char) :
    ¬(first :: close) <+: ty.display.toList ++ rest := by
  intro closing
  obtain ⟨other, others, spelled, unlike⟩ := ty.display_head
  rw [spelled, List.cons_append, List.cons_prefix_cons] at closing
  exact unlike (closing.1 ▸ listed)

end Ty

/-! ## Reading back -/

section Reads

variable {inner : Reader Char Ty} {ty : Ty} {tys : List Ty} {rest : List Char}

/-- The text closes a list of types. -/
structure Closes (close : List Char) : Prop where
  after : ∀ rest, AfterTy (close ++ rest)
  unlike : ∀ rest, ¬", ".toList <+: close ++ rest
  opens : ∀ (ty : Ty) rest, ¬close <+: ty.display.toList ++ rest

theorem closes_brace : Closes " \x7d".toList where
  after := fun rest => ⟨by simp, by simp⟩
  unlike := by simp
  opens := Ty.not_prefix_display (by decide)

theorem closes_angle : Closes " \x7d>".toList where
  after := fun rest => ⟨by simp, by simp⟩
  unlike := by simp
  opens := Ty.not_prefix_display (by decide)

theorem closes_paren : Closes ")".toList where
  after := fun rest => ⟨by simp, by simp⟩
  unlike := by simp
  opens := Ty.not_prefix_display (by decide)

/-- A list of types is read back up to what closes it. -/
theorem reads_tys
    {close : List Char}
    (reads : ∀ ty ∈ tys, Reads inner AfterTy ty.display.toList ty) (closes : Closes close) :
    joinedBy ", ".toList close inner ((joined (Ty.displayAll tys)).toList ++ (close ++ rest)) =
      some (tys, close ++ rest) := by
  rw [Ty.displayAll_eq]
  apply joinedBy_joined _ (fun rest => ⟨by simp, by simp⟩) (closes.after rest)
    (closes.unlike rest)
  apply List.forall₂_map_left_iff.mpr
  apply List.forall₂_same.mpr
  exact fun ty member => ⟨closes.opens ty, reads ty member⟩

/-- A list of parameter types is read back. -/
theorem reads_paramTys
    (reads : ∀ ty ∈ tys, Reads inner AfterTy ty.display.toList ty) :
    Reads (readParamTys inner) (fun _ => True) (Ty.paramsText tys) tys := by
  intro rest _
  unfold readParamTys Ty.paramsText
  simp only [bind_apply, pure_apply, List.append_assoc, token_append, Option.bind_some,
    reads_tys reads closes_paren]

/-- A type of one word is read back. -/
theorem reads_wordTy (isWord : ty ∈ wordTys) :
    Reads (readCore inner) (Ends Char.isAlphanum) ty.display.toList ty := by
  intro rest ends
  have letters : (wordTys.all fun ty => ty.display.toList.all Char.isAlphanum) = true := by
    decide
  have word : readWordTy (ty.display.toList ++ rest) = some (ty, rest) :=
    oneOf_append letters (by decide) isWord ends
  obtain ⟨first, others, spelled, -⟩ := ty.display_head
  have letter := List.all_eq_true.mp (List.all_eq_true.mp letters ty isWord) first
    (by simp [spelled])
  rw [spelled, List.cons_append] at word ⊢
  unfold readCore
  split
  case h_1 same =>
    cases same
    cases letter
  case h_2 same =>
    cases same
    cases letter
  case h_3 same =>
    cases same
    cases letter
  case h_4 => exact word

/-- An array type is read back if its element type is. -/
theorem reads_array
    {size : Nat} {element : Ty}
    (reads : Reads inner AfterTy element.display.toList element) :
    Reads (readCore inner) (Ends Char.isAlphanum) (Ty.array size element).display.toList
      (.array size element) := by
  intro rest _
  have after : AfterTy ("]".toList ++ rest) := ⟨by simp, by simp⟩
  have digits : Ends Char.isDigit
      (" x ".toList ++ (element.display.toList ++ ("]".toList ++ rest))) := by
    simp
  have opened : "[".toList = ['['] := rfl
  simp only [Ty.display, String.toList_append, List.append_assoc, opened, List.cons_append,
    List.nil_append, readCore, bind_apply, pure_apply, token_append, Option.bind_some,
    readNat_append size digits, reads _ after]

/-- A structure type is read back if its field types are. -/
theorem reads_struct
    {fields : List Ty} {packed : Bool}
    (reads : ∀ ty ∈ fields, Reads inner AfterTy ty.display.toList ty) :
    Reads (readCore inner) (Ends Char.isAlphanum) (Ty.struct fields packed).display.toList
      (.struct fields packed) := by
  intro rest _
  cases packed with
  | false =>
      have opened : "\x7b ".toList = '\x7b' :: [' '] := rfl
      have taken (text : List Char) : token "\x7b " ('\x7b' :: ' ' :: text) = some ((), text) :=
        token_append "\x7b " text
      simp only [Ty.display, String.toList_append, List.append_assoc, Bool.false_eq_true,
        if_false, opened, List.cons_append, List.nil_append, readCore, bind_apply, pure_apply,
        taken, Option.bind_some, reads_tys reads closes_brace, token_append]
  | true =>
      have opened : "<\x7b ".toList = '<' :: '\x7b' :: [' '] := rfl
      have taken (text : List Char) :
          token "<\x7b " ('<' :: '\x7b' :: ' ' :: text) = some ((), text) :=
        token_append "<\x7b " text
      simp only [Ty.display, String.toList_append, List.append_assoc, if_true, opened,
        List.cons_append, List.nil_append, readCore, bind_apply, pure_apply, taken,
        Option.bind_some, reads_tys reads closes_angle, token_append]

/-- What a type is made of can be read at the depth. -/
structure Readable (depth : Nat) (ty : Ty) : Prop where
  core : Reads (readCore (readTy depth)) (Ends Char.isAlphanum) ty.core.display.toList ty.core
  params : ∀ params ∈ ty.paramLists, ∀ param ∈ params,
    Reads (readTy depth) AfterTy param.display.toList param

/-- A readable type is read back. -/
theorem Readable.reads
    {depth : Nat}
    (readable : Readable depth ty) :
    Reads (readTy (depth + 1)) AfterTy ty.display.toList ty := by
  rintro rest ⟨alone, noParams⟩
  have spells : Spells (readParamTys (readTy depth)) (Ends Char.isAlphanum)
      (ty.paramLists.map Ty.paramsText) ty.paramLists := by
    apply List.forall₂_map_left_iff.mpr
    apply List.forall₂_same.mpr
    intro params member
    refine ⟨fun rest _ => ?_, by simp [Ty.paramsText], fun rest => by simp [Ty.paramsText]⟩
    exact reads_paramTys (readable.params params member) rest trivial
  have ends : readParamTys (readTy depth) rest = none := by
    have stops : token " (" rest = none := literal_of_not noParams
    rw [readParamTys, bind_apply, stops, Option.bind_none]
  have lists := many_flatten spells alone ends
  have next : Ends Char.isAlphanum ((ty.paramLists.map Ty.paramsText).flatten ++ rest) := by
    cases ty.paramLists with
    | nil => exact alone
    | cons params others => simp [Ty.paramsText]
  rw [Ty.toList_display, List.append_assoc, readTy]
  simp only [bind_apply, pure_apply, readable.core _ next, Option.bind_some, lists,
    Ty.foldl_paramLists]

/-- A type that is no function type is readable once it reads as a core. -/
theorem Readable.of_core
    {depth : Nat}
    (core : ty.core = ty) (noParams : ty.paramLists = [])
    (reads : Reads (readCore (readTy depth)) (Ends Char.isAlphanum) ty.display.toList ty) :
    Readable depth ty where
  core := core.symm ▸ reads
  params := by simp [noParams]

end Reads

/-- What can be read can be read at one more level. -/
theorem eventually_reads
    {ty : Ty}
    (readable : ∀ᶠ depth in atTop, Readable depth ty) :
    ∀ᶠ depth in atTop, Reads (readTy depth) AfterTy ty.display.toList ty := by
  rw [← Filter.map_add_atTop_eq_nat 1, Filter.eventually_map]
  exact readable.mono fun _ readable => readable.reads

mutual

/-- Every type is readable at a large enough depth. -/
theorem eventually_readable : (ty : Ty) → ∀ᶠ depth in atTop, Readable depth ty
  | .array size element => (eventually_reads (eventually_readable element)).mono fun _ reads =>
      .of_core rfl rfl (reads_array reads)
  | .struct fields packed => (eventually_reads_all fields).mono fun _ reads =>
      .of_core rfl rfl (reads_struct reads)
  | .func params result =>
      (eventually_readable result).mp ((eventually_reads_all params).mono fun _ reads readable =>
        { core := readable.core
          params := by
            simp only [Ty.paramLists, List.forall_mem_append, List.forall_mem_singleton]
            exact ⟨readable.params, reads⟩ })
  | .i1 | .i8 | .i16 | .i32 | .i64 | .half | .bfloat | .float | .double | .ptr | .void =>
      .of_forall fun _ => .of_core rfl rfl (reads_wordTy (by decide))

/-- So are several types at once. -/
theorem eventually_reads_all :
    (tys : List Ty) →
      ∀ᶠ depth in atTop, ∀ ty ∈ tys, Reads (readTy depth) AfterTy ty.display.toList ty
  | [] => .of_forall fun _ _ member => (List.not_mem_nil member).elim
  | ty :: tys =>
      (eventually_reads (eventually_readable ty)).mp
        ((eventually_reads_all tys).mono fun _ later first =>
          List.forall_mem_cons.mpr ⟨first, later⟩)

end

/-- A type is read back from its spelling at every sufficient depth. -/
theorem eventually_reads_ty (ty : Ty) :
    ∀ᶠ depth in atTop, Reads (readTy depth) AfterTy ty.display.toList ty :=
  eventually_reads (eventually_readable ty)

/-- Types that are spelled alike are the same type. -/
theorem Ty.display_injective : Function.Injective Ty.display := by
  intro ty other same
  obtain ⟨depth, reads, readsOther⟩ :=
    ((eventually_reads_ty ty).and (eventually_reads_ty other)).exists
  rw [← same] at readsOther
  exact reads.unique readsOther ⟨[], by simp, by simp⟩

end Llvm
end TraceWasm
