import TraceWasm.Foundation.Fault
import TraceWasm.Foundation.Probing
import TraceWasm.Llvm.Error
import Mathlib.Logic.Function.Basic

/-!
# Register names

Unnamed values take consecutive numbers. A hint is used as given unless it is taken,
in which case a numeric suffix is appended.
-/

namespace TraceWasm
namespace Llvm

/-! ## Identifiers -/

/-- `[-a-zA-Z$._]` -/
def isIdentifierStart (c : Char) : Bool :=
  c == '-' || c.isAlpha || c == '$' || c == '.' || c == '_'

/-- `[-a-zA-Z$._0-9]` -/
def isIdentifierPart (c : Char) : Bool :=
  isIdentifierStart c || c.isDigit

/-- `^[-a-zA-Z$._][-a-zA-Z$._0-9]*$` -/
def isIdentifier (name : String) : Bool :=
  match name.toList with
  | [] => false
  | first :: rest => isIdentifierStart first && rest.all isIdentifierPart

/-- A legal unquoted LLVM local. -/
abbrev Identifier := {name : String // isIdentifier name = true}

theorem isDigit_of_mem_toString
    (member : c ∈ (toString (n : Nat)).toList) :
    c.isDigit := by
  have spelled : (toString n).toList = Nat.toDigits 10 n := Nat.toList_repr
  rw [spelled] at member
  exact Nat.isDigit_of_mem_toDigits (by decide) (by decide) member

theorem toString_ne_nil (n : Nat) : (toString n).toList ≠ [] := by
  have spelled : (toString n).toList = Nat.toDigits 10 n := Nat.toList_repr
  rw [spelled]
  exact Nat.toDigits_ne_nil

/-- Two numbers are written alike only if they are one. -/
theorem toString_injective : Function.Injective (toString : Nat → String) := by
  intro n m same
  have digits : (toString n).toList = (toString m).toList := congrArg String.toList same
  have spelled (k : Nat) : (toString k).toList = Nat.toDigits 10 k := Nat.toList_repr
  rw [spelled, spelled] at digits
  have read := congrArg (Nat.ofDigitChars 10 · 0) digits
  simpa using read

/-- No identifier starts with a digit. -/
theorem isIdentifierStart_of_isDigit
    (digit : c.isDigit = true) :
    isIdentifierStart c = false := by
  have letter : c.isAlpha = false := by
    simp only [Char.isDigit, Bool.and_eq_true, decide_eq_true_eq, UInt32.le_iff_toNat_le,
      ge_iff_le] at digit
    delta Char.isAlpha Char.isUpper Char.isLower
    simp only [Bool.or_eq_false_iff, Bool.and_eq_false_iff, decide_eq_false_iff_not,
      UInt32.le_iff_toNat_le, ge_iff_le]
    have low : (48 : Nat) ≤ c.val.toNat := digit.1
    have high : c.val.toNat ≤ (57 : Nat) := digit.2
    constructor
    · rintro ⟨upper, -⟩
      change (65 : Nat) ≤ _ at upper
      omega
    · left
      intro lower
      change (97 : Nat) ≤ _ at lower
      omega
  unfold isIdentifierStart
  rw [letter]
  simp only [Bool.or_false, Bool.or_eq_false_iff, beq_eq_false_iff_ne]
  refine ⟨⟨⟨?_, ?_⟩, ?_⟩, ?_⟩ <;> (rintro rfl; revert digit; decide)

/-- A number is no identifier. -/
theorem isIdentifier_toString (n : Nat) : isIdentifier (toString n) = false := by
  unfold isIdentifier
  cases spelled : (toString n).toList with
  | nil => exact absurd spelled (toString_ne_nil n)
  | cons first rest =>
      have digit : first.isDigit := isDigit_of_mem_toString (by rw [spelled]; simp)
      simp [isIdentifierStart_of_isDigit digit]

/-- The number of an unnamed register, which is spelled in digits. -/
def number? (name : String) : Option Nat :=
  if name.toList ≠ [] ∧ name.toList.all Char.isDigit then
    some (Nat.ofDigitChars 10 name.toList 0)
  else none

/-- A number is read back from its spelling. -/
@[simp] theorem number?_toString (n : Nat) : number? (toString n) = some n := by
  have digits : (toString n).toList.all Char.isDigit = true :=
    List.all_eq_true.mpr fun _ member => isDigit_of_mem_toString member
  have spelled : (toString n).toList = Nat.toDigits 10 n := Nat.toList_repr
  unfold number?
  rw [if_pos ⟨toString_ne_nil n, digits⟩, spelled]
  simp

/-- An identifier is not the spelling of a number. -/
theorem number?_of_isIdentifier
    (legal : isIdentifier name = true) :
    number? name = none := by
  unfold number?
  apply if_neg
  rintro ⟨-, digits⟩
  unfold isIdentifier at legal
  cases spelled : name.toList with
  | nil => simp [spelled] at legal
  | cons first rest =>
      simp only [spelled, List.all_cons, Bool.and_eq_true] at legal digits
      rw [isIdentifierStart_of_isDigit digits.1] at legal
      cases legal.1

namespace Identifier

/-- The hint with a suffix. The first request for it has none. -/
def spelling (hint : String) (index : Nat) : String :=
  if index = 0 then hint else hint ++ toString index

/-- An identifier with a number behind it is an identifier. -/
theorem isIdentifier_spelling
    (legal : isIdentifier hint = true) (index : Nat) :
    isIdentifier (spelling hint index) = true := by
  unfold spelling
  split
  · exact legal
  · unfold isIdentifier at legal ⊢
    rw [String.toList_append]
    cases spelled : hint.toList with
    | nil => simp [spelled] at legal
    | cons first rest =>
        rw [spelled] at legal
        simp only [Bool.and_eq_true, List.all_eq_true] at legal
        simp only [List.cons_append, Bool.and_eq_true, List.all_eq_true,
          List.mem_append]
        refine ⟨legal.1, fun c member => ?_⟩
        rcases member with member | member
        · exact legal.2 c member
        · simp [isIdentifierPart, isDigit_of_mem_toString member]

/-- Two numbers behind one hint make two names. -/
theorem spelling_injective (hint : String) : Function.Injective (spelling hint) := by
  have longer (index : Nat) : hint ≠ hint ++ toString index := by
    intro same
    have lists := congrArg String.toList same
    rw [String.toList_append] at lists
    exact toString_ne_nil index (List.self_eq_append_right.mp lists)
  intro n m same
  unfold spelling at same
  split at same <;> split at same
  · omega
  · exact absurd same (longer m)
  · exact absurd same.symm (longer n)
  · apply toString_injective
    have lists := congrArg String.toList same
    rw [String.toList_append, String.toList_append] at lists
    exact String.toList_inj.mp (List.append_cancel_left lists)

/-- A hint with a number behind it. -/
def suffixed (hint : Identifier) (index : Nat) : Identifier :=
  ⟨spelling hint.val index, isIdentifier_spelling hint.property index⟩

end Identifier

/-! ## Issuing names -/

/-- How a register is to be called. -/
inductive RegName where
  | named (hint : String)
  | unnamed

/-- A hint is a legal identifier. -/
def RegName.Legal : RegName → Prop
  | .named hint => isIdentifier hint = true
  | .unnamed => True

/-- Hands out unique register names within one function. -/
structure FuncRegNameIndex where
  unnamedIndex : Nat
  namedIndex : String → Option Nat
  issuedNames : List Identifier

namespace FuncRegNameIndex

/-- No name has been handed out. -/
def empty : FuncRegNameIndex where
  unnamedIndex := 0
  namedIndex := fun _ => none
  issuedNames := []

/-- The next `%N` for an unnamed value. -/
def nextUnnamedIndex (self : FuncRegNameIndex) :
    Attempt ContextError (Nat × FuncRegNameIndex) := do
  Attempt.assert (self.unnamedIndex < 4294967295)
  return (self.unnamedIndex, { self with unnamedIndex := self.unnamedIndex + 1 })

/-- How many times the name has been asked for. -/
def nextNamedIndex (self : FuncRegNameIndex) (name : String) :
    Attempt ContextError (Nat × FuncRegNameIndex) :=
  match self.namedIndex name with
  | some index => do
      Attempt.assert (index < 4294967295)
      return (index, { self with
        namedIndex := Function.update self.namedIndex name (some (index + 1)) })
  | none =>
      return (0, { self with
        namedIndex := Function.update self.namedIndex name (some 1) })

/-- Retry suffixes until one gives a name that is not issued. The bound is never
what ends the search. -/
def freeIndex (hint : Identifier) :
    Nat → FuncRegNameIndex → Attempt ContextError (Nat × FuncRegNameIndex)
  | 0, _ => Attempt.panicked
  | bound + 1, self => do
      let (index, self) ← self.nextNamedIndex hint.val
      if hint.suffixed index ∈ self.issuedNames then freeIndex hint bound self
      else return (index, self)

/-- Turn an optional hint into a name that no other register of the function has. -/
def nameFromHint (self : FuncRegNameIndex) :
    RegName → Attempt ContextError (String × FuncRegNameIndex)
  | .unnamed => do
      let (index, self) ← self.nextUnnamedIndex
      return (toString index, self)
  | .named hint =>
      if legal : isIdentifier hint = true then do
        let (index, self) ← freeIndex ⟨hint, legal⟩ (self.issuedNames.length + 1) self
        let name := Identifier.suffixed ⟨hint, legal⟩ index
        return (name.val, { self with issuedNames := name :: self.issuedNames })
      else Attempt.fail (.invalidRegisterName hint)

/-! ## What is issued -/

/-- How many times the hint has been asked for so far. -/
def asked (self : FuncRegNameIndex) (hint : String) : Nat :=
  (self.namedIndex hint).getD 0

/-- The hinted names that have been handed out. -/
def hinted (self : FuncRegNameIndex) : List String :=
  self.issuedNames.map (·.val)

/-- The name has been handed out. -/
def Issued (self : FuncRegNameIndex) (name : String) : Prop :=
  name ∈ self.hinted ∨ ∃ n < self.unnamedIndex, name = toString n

/-- The name that a request is due: the next number, or the hint with the first
suffix, from the count of its requests on, that gives a name not issued yet. -/
def Due (self : FuncRegNameIndex) (name : String) : RegName → Prop
  | .unnamed => name = toString self.unnamedIndex
  | .named hint =>
      isIdentifier hint = true ∧ ∃ index, name = Identifier.spelling hint index ∧
        FirstFree (Identifier.spelling hint) self.hinted (self.asked hint) index

section Search

variable {self next : FuncRegNameIndex}

/-- Counting a hint up answers with the old count. -/
theorem nextNamedIndex_eq_ok
    (counted : nextNamedIndex self hint = .ok (index, next)) :
    index = self.asked hint ∧ next.asked hint = index + 1 ∧
      next.issuedNames = self.issuedNames ∧ next.unnamedIndex = self.unnamedIndex := by
  unfold nextNamedIndex at counted
  unfold asked
  cases entry : self.namedIndex hint with
  | none =>
      rw [entry] at counted
      cases counted
      simp
  | some count =>
      rw [entry] at counted
      obtain ⟨_, _, counted⟩ := Attempt.bind_eq_ok.mp counted
      cases counted
      simp

/-- A hint that has not been asked for too often can be counted up. -/
theorem nextNamedIndex_of_lt
    (fits : self.asked hint < 4294967295) :
    ∃ counted, self.nextNamedIndex hint = .ok (self.asked hint, counted) := by
  unfold nextNamedIndex
  unfold asked at fits ⊢
  cases entry : self.namedIndex hint with
  | none => exact ⟨_, rfl⟩
  | some count =>
      rw [entry] at fits
      dsimp only [Option.getD_some] at fits ⊢
      rw [Attempt.assert_of fits]
      exact ⟨_, rfl⟩

theorem mem_hinted
    (hint : Identifier) (index : Nat) :
    Identifier.spelling hint.val index ∈ self.hinted ↔
      hint.suffixed index ∈ self.issuedNames := by
  unfold hinted
  rw [List.mem_map]
  constructor
  · rintro ⟨name, member, same⟩
    have same : name = hint.suffixed index := Subtype.ext same
    exact same ▸ member
  · intro member
    exact ⟨hint.suffixed index, member, rfl⟩

/-- The search for a free number finds the first free one. -/
theorem freeIndex_eq_ok
    (hint : Identifier)
    (found : freeIndex hint bound self = .ok (index, next)) :
    FirstFree (Identifier.spelling hint.val) self.hinted (self.asked hint.val) index ∧
      next.issuedNames = self.issuedNames ∧ next.unnamedIndex = self.unnamedIndex := by
  induction bound generalizing self with
  | zero => cases found
  | succ bound inductionHypothesis =>
      obtain ⟨⟨count, counted⟩, counting, found⟩ := Attempt.bind_eq_ok.mp found
      obtain ⟨rfl, further, sameNames, sameNumber⟩ := nextNamedIndex_eq_ok counting
      have sameHinted : counted.hinted = self.hinted := by
        unfold hinted
        rw [sameNames]
      dsimp only at found
      split at found
      case isTrue taken =>
        obtain ⟨rest, names, number⟩ := inductionHypothesis found
        rw [further, sameHinted] at rest
        refine ⟨rest.there ?_, names.trans sameNames, number.trans sameNumber⟩
        rw [sameNames] at taken
        exact (mem_hinted hint _).mpr taken
      case isFalse free =>
        cases found
        refine ⟨FirstFree.here ?_, sameNames, sameNumber⟩
        rw [sameNames] at free
        exact mt (mem_hinted hint _).mp free

/-- The bound does not end the search: the names issued cannot take all the
spellings tried. -/
theorem freeIndex_finds
    (hint : Identifier)
    (free : ∃ n, self.asked hint.val ≤ n ∧ n < self.asked hint.val + bound ∧
      n < 4294967295 ∧ Identifier.spelling hint.val n ∉ self.hinted) :
    ∃ index next, freeIndex hint bound self = .ok (index, next) := by
  induction bound generalizing self with
  | zero =>
      obtain ⟨n, fromCount, before, -, -⟩ := free
      omega
  | succ bound inductionHypothesis =>
      obtain ⟨n, fromCount, before, fits, free⟩ := free
      have fitting : self.asked hint.val < 4294967295 := by omega
      obtain ⟨counted, counting⟩ := nextNamedIndex_of_lt fitting
      obtain ⟨-, further, sameNames, -⟩ := nextNamedIndex_eq_ok counting
      have sameHinted : counted.hinted = self.hinted := by
        unfold hinted
        rw [sameNames]
      rw [freeIndex, counting, Attempt.ok_bind]
      dsimp only
      split
      case isTrue taken =>
        rw [sameNames] at taken
        have passed : n ≠ self.asked hint.val := by
          rintro rfl
          exact free ((mem_hinted hint _).mpr taken)
        apply inductionHypothesis
        rw [further, sameHinted]
        exact ⟨n, by omega, by omega, fits, free⟩
      case isFalse =>
        exact ⟨_, _, rfl⟩

/-- A legal hint is given a name, as long as its requests can be counted. -/
theorem nameFromHint_named
    (legal : isIdentifier hint = true)
    (fits : self.asked hint + self.issuedNames.length < 4294967295) :
    ∃ name next, self.nameFromHint (.named hint) = .ok (name, next) := by
  have distinct := Identifier.spelling_injective hint
  obtain ⟨n, fromCount, within, free⟩ := exists_free distinct self.hinted (self.asked hint)
  have sameLength : self.hinted.length = self.issuedNames.length := List.length_map ..
  have withinBound : n < self.asked hint + (self.issuedNames.length + 1) := by omega
  obtain ⟨index, next, found⟩ :=
    freeIndex_finds ⟨hint, legal⟩ ⟨n, fromCount, withinBound, by omega, free⟩
  rw [nameFromHint, dif_pos legal, found]
  exact ⟨_, _, rfl⟩

/-- Every name handed out was due, and is issued from then on. -/
theorem nameFromHint_eq_ok
    (named : self.nameFromHint reg = .ok (name, next)) :
    self.Due name reg ∧ ∀ other, next.Issued other ↔ other = name ∨ self.Issued other := by
  cases reg with
  | unnamed =>
      obtain ⟨⟨index, counted⟩, counting, named⟩ := Attempt.bind_eq_ok.mp named
      obtain ⟨_, _, counting⟩ := Attempt.bind_eq_ok.mp counting
      cases counting
      cases named
      refine ⟨rfl, fun other => ?_⟩
      simp only [Issued, hinted, Nat.lt_succ_iff_lt_or_eq, or_and_right, exists_or,
        exists_eq_left]
      rw [← or_assoc, or_comm]
  | named hint =>
      rw [nameFromHint] at named
      split at named
      case isTrue legal =>
        obtain ⟨⟨index, counted⟩, found, named⟩ := Attempt.bind_eq_ok.mp named
        obtain ⟨first, sameNames, sameNumber⟩ := freeIndex_eq_ok _ found
        cases named
        refine ⟨⟨legal, index, rfl, first⟩, fun other => ?_⟩
        simp only [Issued, hinted, sameNames, sameNumber, List.map_cons, List.mem_cons,
          or_assoc]
      case isFalse => cases named

/-- The search ends with a name or in a count that overflows. -/
theorem freeIndex_ne_error (hint : Identifier) :
    freeIndex hint bound self ≠ .error (.error reported) := by
  induction bound generalizing self with
  | zero => exact fun absurd => by cases absurd
  | succ bound inductionHypothesis =>
      intro failed
      rw [freeIndex] at failed
      cases counting : self.nextNamedIndex hint.val with
      | ok counted =>
          rw [counting, Attempt.ok_bind] at failed
          dsimp only at failed
          split at failed
          · exact inductionHypothesis failed
          · cases failed
      | error fault =>
          rw [counting] at failed
          cases failed
          unfold nextNamedIndex at counting
          split at counting
          · unfold Attempt.assert at counting
            split at counting <;> cases counting
          · cases counting

/-- Only an illegal hint is refused. -/
theorem not_legal_of_refused
    (refused : self.nameFromHint reg = .error (.error reported)) :
    ¬reg.Legal := by
  cases reg with
  | unnamed =>
      rw [nameFromHint, nextUnnamedIndex] at refused
      unfold Attempt.assert at refused
      by_cases fits : self.unnamedIndex < 4294967295
      · rw [if_pos fits] at refused
        cases refused
      · rw [if_neg fits] at refused
        cases refused
  | named hint =>
      intro legal
      have legal : isIdentifier hint = true := legal
      rw [nameFromHint, dif_pos legal] at refused
      cases found : freeIndex ⟨hint, legal⟩ (self.issuedNames.length + 1) self with
      | ok _ =>
          rw [found] at refused
          cases refused
      | error fault =>
          rw [found] at refused
          cases refused
          exact freeIndex_ne_error _ found

/-- Only a legal hint is due a name. -/
theorem legal_of_due
    (due : self.Due name reg) :
    reg.Legal := by
  cases reg with
  | unnamed => trivial
  | named hint => exact due.1

/-- Only the numbers that are counted are issued. -/
theorem lt_of_issued
    (issued : self.Issued name) (numbered : number? name = some n) :
    n < self.unnamedIndex := by
  rcases issued with member | ⟨m, before, rfl⟩
  · obtain ⟨⟨_, legal⟩, -, rfl⟩ := List.mem_map.mp member
    rw [number?_of_isIdentifier legal] at numbered
    cases numbered
  · rw [number?_toString] at numbered
    cases numbered
    exact before

/-- A register without a name is due the next number. -/
theorem number?_of_due_unnamed
    (due : self.Due name .unnamed) :
    number? name = some self.unnamedIndex := by
  have due : name = toString self.unnamedIndex := due
  rw [due, number?_toString]

/-- A register with a hint is not due a number. -/
theorem number?_of_due_named
    (due : self.Due name (.named hint)) :
    number? name = none := by
  obtain ⟨legal, index, rfl, -⟩ := due
  exact number?_of_isIdentifier (Identifier.isIdentifier_spelling legal index)

/-- The count goes on with every name, whatever it is. -/
theorem unnamedIndex_le
    (named : self.nameFromHint reg = .ok (name, next)) :
    self.unnamedIndex ≤ next.unnamedIndex := by
  have issued := (nameFromHint_eq_ok named).2
  by_contra fewer
  have last : self.Issued (toString next.unnamedIndex) :=
    .inr ⟨_, Nat.lt_of_not_le fewer, rfl⟩
  have same := lt_of_issued ((issued _).mpr (.inr last)) (number?_toString _)
  exact Nat.lt_irrefl _ same

/-- A request is due a name that is not issued yet. -/
theorem not_issued_of_due
    (due : self.Due name reg) :
    ¬self.Issued name := by
  cases reg with
  | unnamed =>
      rintro (member | ⟨n, before, same⟩)
      · obtain ⟨⟨other, legal⟩, -, rfl⟩ := List.mem_map.mp member
        rw [show other = toString _ from due, isIdentifier_toString] at legal
        cases legal
      · have := toString_injective (due.symm.trans same)
        omega
  | named hint =>
      obtain ⟨legal, index, rfl, first⟩ := due
      rintro (member | ⟨n, -, same⟩)
      · exact first.free member
      · have legal := Identifier.isIdentifier_spelling legal index
        rw [same, isIdentifier_toString] at legal
        cases legal

end Search

end FuncRegNameIndex

end Llvm
end TraceWasm
