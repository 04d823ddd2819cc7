import Mathlib.Data.List.Forall2
import Mathlib.Data.List.Infix
import Mathlib.Data.List.TakeWhile
import Mathlib.Order.Filter.Basic
import Mathlib.Tactic.Common

/-!
# Readers

A reader takes a value off the front of a text. That a value can be read back from its
spelling, whatever follows, makes the spelling unambiguous.
-/

namespace TraceWasm

/-- Take a value off the front of a text, if there is one. -/
def Reader (τ α : Type) := List τ → Option (α × List τ)

namespace Reader

variable {τ α β : Type}

instance : Monad (Reader τ) where
  pure value := fun text => some (value, text)
  bind read next := fun text => (read text).bind fun (value, rest) => next value rest

@[simp] theorem pure_apply (value : α) (text : List τ) :
    (pure value : Reader τ α) text = some (value, text) := rfl

@[simp] theorem bind_apply
    (read : Reader τ α) (next : α → Reader τ β) (text : List τ) :
    (read >>= next) text = (read text).bind fun (value, rest) => next value rest := rfl

/-- Read nothing. -/
def fail : Reader τ α := fun _ => none

/-! ## Literals and runs -/

section Tokens

variable [DecidableEq τ]

/-- Read exactly the given text. -/
def literal (spelling : List τ) : Reader τ Unit := fun text =>
  if spelling <+: text then some ((), text.drop spelling.length) else none

/-- A literal is read back. -/
@[simp] theorem literal_append (spelling rest : List τ) :
    literal spelling (spelling ++ rest) = some ((), rest) := by
  unfold literal
  rw [if_pos (List.prefix_append spelling rest), List.drop_left]

theorem literal_of_not
    {spelling text : List τ}
    (unlike : ¬spelling <+: text) :
    literal spelling text = none :=
  if_neg unlike

/-- Whether the text starts as given, which is taken off if it does. -/
def flag (spelling : List τ) : Reader τ Bool := fun text =>
  if spelling <+: text then some (true, text.drop spelling.length) else some (false, text)

/-- A flag that is there is seen. -/
@[simp] theorem flag_append (spelling rest : List τ) :
    flag spelling (spelling ++ rest) = some (true, rest) := by
  unfold flag
  rw [if_pos (List.prefix_append spelling rest), List.drop_left]

theorem flag_of_not
    {spelling text : List τ}
    (unlike : ¬spelling <+: text) :
    flag spelling text = some (false, text) :=
  if_neg unlike

end Tokens

/-- Read the longest run of tokens of a kind. -/
def run (kind : τ → Bool) : Reader τ (List τ) := fun text =>
  some (text.takeWhile kind, text.dropWhile kind)

/-- What follows is not of the kind. -/
def Ends (kind : τ → Bool) (rest : List τ) : Prop :=
  ∀ token ∈ rest.head?, kind token = false

@[simp] theorem ends_nil (kind : τ → Bool) : Ends kind [] := by
  simp [Ends]

@[simp] theorem ends_cons {kind : τ → Bool} {token : τ} {rest : List τ} :
    Ends kind (token :: rest) ↔ kind token = false := by
  simp [Ends]

/-- A run is read up to where it ends. -/
theorem run_append
    {kind : τ → Bool} {word rest : List τ}
    (all : ∀ token ∈ word, kind token = true) (ends : Ends kind rest) :
    run kind (word ++ rest) = some (word, rest) := by
  unfold run
  rw [List.takeWhile_append_of_pos all, List.dropWhile_append_of_pos all]
  cases rest with
  | nil => simp
  | cons token rest =>
      rw [ends_cons] at ends
      simp [ends]

/-- Read a word of the kind, which is how one of the values is spelled. -/
def oneOf [DecidableEq τ] (kind : τ → Bool) (values : List α) (spelling : α → List τ) :
    Reader τ α := do
  let word ← run kind
  match values.find? fun value => spelling value = word with
  | some value => pure value
  | none => fail

/-- Among distinct spellings a value is found by its own. -/
theorem find?_of_nodup
    [DecidableEq τ] {values : List α} {spelling : α → List τ} {value : α}
    (distinct : (values.map spelling).Nodup) (member : value ∈ values) :
    (values.find? fun other => spelling other = spelling value) = some value := by
  induction values with
  | nil => cases member
  | cons first others inductionHypothesis =>
      obtain ⟨apart, distinct⟩ := List.nodup_cons.mp distinct
      rcases List.mem_cons.mp member with rfl | member
      · exact List.find?_cons_of_pos (by simp)
      · have unlike : spelling first ≠ spelling value := by
          intro same
          exact apart (same ▸ List.mem_map_of_mem member)
        rw [List.find?_cons_of_neg (by simpa using unlike)]
        exact inductionHypothesis distinct member

/-- One of several values is read back by its spelling. -/
theorem oneOf_append
    [DecidableEq τ] {kind : τ → Bool} {values : List α} {spelling : α → List τ} {value : α}
    {rest : List τ}
    (all : (values.all fun value => (spelling value).all kind) = true)
    (distinct : (values.map spelling).Nodup) (member : value ∈ values)
    (ends : Ends kind rest) :
    oneOf kind values spelling (spelling value ++ rest) = some (value, rest) := by
  have spelled := List.all_eq_true.mp (List.all_eq_true.mp all value member)
  simp only [oneOf, bind_apply, run_append spelled ends, Option.bind_some,
    find?_of_nodup distinct member, pure_apply]

/-! ## Reading back -/

/-- The value is read back from the text, whatever of the kind follows. -/
def Reads (read : Reader τ α) (follow : List τ → Prop) (text : List τ) (value : α) : Prop :=
  ∀ rest, follow rest → read (text ++ rest) = some (value, rest)

/-- What is read back from one text is one value. -/
theorem Reads.unique
    {read : Reader τ α} {follow : List τ → Prop} {text : List τ} {value other : α}
    (reads : Reads read follow text value) (readsOther : Reads read follow text other)
    (exists_follow : ∃ rest, follow rest) :
    value = other := by
  obtain ⟨rest, follows⟩ := exists_follow
  have same := (reads rest follows).symm.trans (readsOther rest follows)
  exact (Prod.mk.inj (Option.some.inj same)).1

/-! ## Repetition -/

/-- Read at most so many values, until there is none. -/
def manyUpTo (read : Reader τ α) : Nat → Reader τ (List α)
  | 0 => pure []
  | bound + 1 => fun text =>
      match read text with
      | none => some ([], text)
      | some (value, rest) => (manyUpTo read bound rest).map fun (values, rest) =>
          (value :: values, rest)

/-- Nothing more is read where nothing can be read. -/
theorem manyUpTo_of_none
    {read : Reader τ α} {text : List τ}
    (ends : read text = none) (bound : Nat) :
    manyUpTo read (bound + 1) text = some ([], text) := by
  simp [manyUpTo, ends]

/-- What can be read is read before the rest. -/
theorem manyUpTo_of_some
    {read : Reader τ α} {text rest : List τ} {value : α}
    (reads : read text = some (value, rest)) (bound : Nat) :
    manyUpTo read (bound + 1) text =
      (manyUpTo read bound rest).map fun (values, rest) => (value :: values, rest) := by
  simp [manyUpTo, reads]

/-- Read values until there is none. Each takes at least one token. -/
def many (read : Reader τ α) : Reader τ (List α) := fun text =>
  manyUpTo read (text.length + 1) text

/-- The texts are the spellings of the values, and each may follow another. -/
abbrev Spells
    (read : Reader τ α) (follow : List τ → Prop) (texts : List (List τ)) (values : List α) :
    Prop :=
  List.Forall₂
    (fun text value => Reads read follow text value ∧ text ≠ [] ∧ ∀ rest, follow (text ++ rest))
    texts values

section Many

variable {read : Reader τ α} {follow : List τ → Prop} {texts : List (List τ)}
  {values : List α} {rest : List τ}

/-- Pieces one after another are read back. -/
theorem manyUpTo_flatten
    {bound : Nat}
    (spells : Spells read follow texts values) (follows : follow rest)
    (ends : read rest = none) (enough : texts.length < bound) :
    manyUpTo read bound (texts.flatten ++ rest) = some (values, rest) := by
  induction spells generalizing bound with
  | nil =>
      obtain ⟨bound, rfl⟩ := Nat.exists_eq_succ_of_ne_zero (Nat.ne_of_gt enough)
      exact manyUpTo_of_none ends bound
  | @cons text value texts values first others inductionHypothesis =>
      obtain ⟨bound, rfl⟩ := Nat.exists_eq_succ_of_ne_zero (Nat.ne_of_gt (Nat.zero_lt_of_lt enough))
      obtain ⟨reads, -, -⟩ := first
      have next : follow (texts.flatten ++ rest) := by
        cases others with
        | nil => exact follows
        | cons second later =>
            rw [List.flatten_cons, List.append_assoc]
            exact second.2.2 _
      have later := inductionHypothesis (Nat.lt_of_succ_lt_succ enough)
      rw [List.flatten_cons, List.append_assoc, manyUpTo_of_some (reads _ next), later]
      rfl

/-- Values are read back from their spellings, one after another. -/
theorem many_flatten
    (spells : Spells read follow texts values) (follows : follow rest)
    (ends : read rest = none) :
    many read (texts.flatten ++ rest) = some (values, rest) := by
  have length : texts.length ≤ texts.flatten.length := by
    clear follows ends
    induction spells with
    | nil => exact Nat.zero_le _
    | cons first others inductionHypothesis =>
        have := List.length_pos_iff.mpr first.2.1
        rw [List.flatten_cons, List.length_append, List.length_cons]
        omega
  apply manyUpTo_flatten spells follows ends
  rw [List.length_append]
  omega

end Many

/-- What holds of each pair from some point on holds of all of them from some point on. -/
theorem eventually_forall₂
    {ι σ : Type} {filter : Filter ι} {related : α → σ → Prop} {holds : ι → α → σ → Prop}
    {values : List α} {results : List σ}
    (all : List.Forall₂ related values results)
    (each : ∀ value ∈ values, ∀ result, related value result →
      ∀ᶠ i in filter, holds i value result) :
    ∀ᶠ i in filter, List.Forall₂ (holds i) values results := by
  induction all with
  | nil => exact .of_forall fun _ => .nil
  | cons first _ inductionHypothesis =>
      obtain ⟨head, tail⟩ := List.forall_mem_cons.mp each
      filter_upwards [head _ first, inductionHypothesis tail] with i holdsFirst holdsLater
      exact .cons holdsFirst holdsLater

/-! ## Lists with separators -/

section Lists

variable [DecidableEq τ]

/-- Read values, each with a separator ahead of it. -/
def separatedBy (separator : List τ) (read : Reader τ α) : Reader τ (List α) :=
  many do
    literal separator
    read

/-- Read values with separators between them. There are none if what closes the list
comes first. -/
def joinedBy (separator close : List τ) (read : Reader τ α) : Reader τ (List α) := fun text =>
  if close <+: text then some ([], text)
  else (do
    let first ← read
    let later ← separatedBy separator read
    return first :: later : Reader τ (List α)) text

variable {read : Reader τ α} {follow : List τ → Prop} {separator close rest : List τ}
  {texts : List (List τ)} {values : List α}

/-- Pieces with a separator before each are read back. -/
theorem separatedBy_flatten
    (reads : List.Forall₂ (Reads read follow) texts values)
    (separatorFollows : ∀ rest, follow (separator ++ rest)) (nonempty : separator ≠ [])
    (follows : follow rest) (ends : ¬separator <+: rest) :
    separatedBy separator read ((texts.map (separator ++ ·)).flatten ++ rest) =
      some (values, rest) := by
  have spells : Spells (do literal separator; read) follow
      (texts.map (separator ++ ·)) values := by
    apply List.forall₂_map_left_iff.mpr
    apply reads.imp
    intro text value reads
    refine ⟨fun rest follows => ?_, by simp [nonempty], fun rest => ?_⟩
    · simp [reads rest follows]
    · rw [List.append_assoc]
      exact separatorFollows _
  apply many_flatten spells follows
  simp [literal_of_not ends]

/-- Between the ends there may be nothing. -/
theorem joinedBy_nil
    (closes : close <+: rest) :
    joinedBy separator close read rest = some ([], rest) :=
  if_pos closes

/-- Pieces with separators between them are read back. -/
theorem joinedBy_cons
    {text : List τ} {value : α}
    (first : Reads read follow text value) (opens : ∀ rest, ¬close <+: text ++ rest)
    (reads : List.Forall₂ (Reads read follow) texts values)
    (separatorFollows : ∀ rest, follow (separator ++ rest)) (nonempty : separator ≠ [])
    (follows : follow rest) (ends : ¬separator <+: rest) :
    joinedBy separator close read
        (text ++ ((texts.map (separator ++ ·)).flatten ++ rest)) =
      some (value :: values, rest) := by
  have next : follow ((texts.map (separator ++ ·)).flatten ++ rest) := by
    cases texts with
    | nil => exact follows
    | cons second later =>
        rw [List.map_cons, List.flatten_cons, List.append_assoc, List.append_assoc]
        exact separatorFollows _
  unfold joinedBy
  rw [if_neg (opens _)]
  simp only [bind_apply, pure_apply, first _ next, Option.bind_some,
    separatedBy_flatten reads separatorFollows nonempty follows ends]

end Lists

end Reader

end TraceWasm
