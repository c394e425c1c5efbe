import Mathlib.Data.List.Basic
import Mathlib.Data.List.TakeWhile

/-! Backtracking patterns over characters. A pattern lists every way it can match
from a position, in the order a backtracking engine tries them, so the first
entry is the engine's answer and the empty list is its failure. -/

set_option autoImplicit false

namespace ZabbixPortal.Foundation

/-- A position in a text: the character before it, what is left, and the groups
captured so far, newest first. -/
structure Cursor where
  before : Option Char
  rest : List Char
  groups : List (Nat × List Char)
deriving DecidableEq, Repr

namespace Cursor

def atStart (text : List Char) : Cursor := ⟨none, text, []⟩

def advance (cursor : Cursor) (count : Nat) : Cursor where
  before := (cursor.rest.take count).getLast?.or cursor.before
  rest := cursor.rest.drop count
  groups := cursor.groups

def capture (opened closed : Cursor) (index : Nat) : Cursor where
  before := closed.before
  rest := closed.rest
  groups := (index, opened.rest.take (opened.rest.length - closed.rest.length)) :: closed.groups

def group? (cursor : Cursor) (index : Nat) : Option (List Char) :=
  (cursor.groups.find? fun captured => captured.1 = index).map Prod.snd

end Cursor

/-- Repetition is over one character class, which is all these patterns use. -/
inductive Pattern where
  | empty
  | one (accepts : Char → Bool)
  | repeated (accepts : Char → Bool) (least : Nat) (most : Option Nat) (greedy : Bool)
  | seq (first second : Pattern)
  | alt (first second : Pattern)
  | group (index : Nat) (body : Pattern)
  | boundary
  | stop

def isWordChar (c : Char) : Bool := c.isAlphanum || c == '_'

/-- The numbers of characters a repetition may take, in the order it tries them. -/
def repetitions (accepts : Char → Bool) (least : Nat) (most : Option Nat) (greedy : Bool)
    (text : List Char) : List Nat :=
  let available := (text.takeWhile accepts).length
  let limit := match most with
    | none => available
    | some bound => min bound available
  let counts := (List.range (limit + 1)).filter fun count => least ≤ count
  if greedy then counts.reverse else counts

def Pattern.run : Pattern → Cursor → List Cursor
  | .empty, cursor => [cursor]
  | .one accepts, cursor =>
      match cursor.rest with
      | [] => []
      | c :: _ => if accepts c then [cursor.advance 1] else []
  | .repeated accepts least most greedy, cursor =>
      (repetitions accepts least most greedy cursor.rest).map cursor.advance
  | .seq first second, cursor => (first.run cursor).flatMap second.run
  | .alt first second, cursor => first.run cursor ++ second.run cursor
  | .group index body, cursor => (body.run cursor).map fun closed => cursor.capture closed index
  | .boundary, cursor =>
      let left := (cursor.before.map isWordChar).getD false
      let right := (cursor.rest.head?.map isWordChar).getD false
      if left == right then [] else [cursor]
  | .stop, cursor => if cursor.rest.isEmpty then [cursor] else []

namespace Pattern

section Run

variable (first second body : Pattern) (cursor : Cursor)

theorem run_empty : Pattern.empty.run cursor = [cursor] := rfl

theorem run_one (accepts : Char → Bool) : (Pattern.one accepts).run cursor =
    match cursor.rest with
    | [] => []
    | c :: _ => if accepts c then [cursor.advance 1] else [] := rfl

theorem run_repeated (accepts : Char → Bool) (least : Nat) (most : Option Nat) (greedy : Bool) :
    (Pattern.repeated accepts least most greedy).run cursor =
      (repetitions accepts least most greedy cursor.rest).map cursor.advance := rfl

theorem run_seq : (Pattern.seq first second).run cursor = (first.run cursor).flatMap second.run := rfl

theorem run_group (index : Nat) : (Pattern.group index body).run cursor =
    (body.run cursor).map fun closed => cursor.capture closed index := rfl

theorem run_boundary : Pattern.boundary.run cursor =
    if ((cursor.before.map isWordChar).getD false ==
        (cursor.rest.head?.map isWordChar).getD false) = true then [] else [cursor] := rfl

theorem run_stop : Pattern.stop.run cursor = if cursor.rest.isEmpty then [cursor] else [] := rfl

end Run

def exec (pattern : Pattern) (text : List Char) : Option Cursor :=
  (pattern.run (Cursor.atStart text)).head?

private def searchFrom (pattern : Pattern) (before : Option Char) : List Char → Bool
  | [] => !(pattern.run ⟨before, [], []⟩).isEmpty
  | c :: rest =>
      !(pattern.run ⟨before, c :: rest, []⟩).isEmpty || searchFrom pattern (some c) rest

def test (pattern : Pattern) (text : List Char) : Bool := searchFrom pattern none text

def word (same : Char → Char → Bool) : List Char → Pattern
  | [] => .empty
  | c :: rest => .seq (.one (same c)) (word same rest)

def sequence (parts : List Pattern) : Pattern := parts.foldr .seq .empty

def choice : List Pattern → Pattern
  | [] => .empty
  | [only] => only
  | first :: rest => .alt first (choice rest)

def optional (body : Pattern) : Pattern := .alt body .empty

end Pattern

theorem exec_ne_none_iff (pattern : Pattern) (text : List Char) :
    pattern.exec text ≠ none ↔ ∃ cursor, cursor ∈ pattern.run (Cursor.atStart text) := by
  rw [Pattern.exec, ne_eq, List.head?_eq_none_iff]
  exact ⟨fun nonempty => List.exists_mem_of_ne_nil _ nonempty, fun ⟨_, member⟩ => List.ne_nil_of_mem member⟩

@[simp] theorem mem_run_seq (first second : Pattern) (cursor final : Cursor) :
    final ∈ (Pattern.seq first second).run cursor ↔
      ∃ middle ∈ first.run cursor, final ∈ second.run middle := by
  simp [Pattern.run_seq]

theorem mem_run_one (accepts : Char → Bool) (cursor final : Cursor) :
    final ∈ (Pattern.one accepts).run cursor ↔
      ∃ c rest, cursor.rest = c :: rest ∧ accepts c = true ∧
        final = ⟨some c, rest, cursor.groups⟩ := by
  rcases cursor with ⟨before, _ | ⟨c, rest⟩, groups⟩
  · simp [Pattern.run_one]
  · by_cases accepted : accepts c = true
    · simp only [Pattern.run_one, accepted, ↓reduceIte, List.mem_singleton, Cursor.advance]
      constructor
      · rintro rfl
        exact ⟨c, rest, rfl, accepted, by simp⟩
      · rintro ⟨other, tail, shape, _, rfl⟩
        cases shape
        simp
    · simp only [Pattern.run_one, accepted, Bool.false_eq_true, ↓reduceIte, List.not_mem_nil,
        false_iff, not_exists, not_and]
      rintro other tail shape wanted
      cases shape
      exact absurd wanted accepted

/-- An unbounded greedy or lazy repetition can take any number of leading
characters of its class. -/
theorem mem_run_repeated_zero (accepts : Char → Bool) (greedy : Bool) (cursor final : Cursor) :
    final ∈ (Pattern.repeated accepts 0 none greedy).run cursor ↔
      ∃ count ≤ (cursor.rest.takeWhile accepts).length, final = cursor.advance count := by
  have members : ∀ count, count ∈ repetitions accepts 0 none greedy cursor.rest ↔
      count ≤ (cursor.rest.takeWhile accepts).length := by
    intro count
    cases greedy <;> simp [repetitions, Nat.lt_succ_iff]
  simp only [Pattern.run_repeated, List.mem_map, members]
  exact ⟨fun ⟨count, bound, same⟩ => ⟨count, bound, same.symm⟩,
    fun ⟨count, bound, same⟩ => ⟨count, bound, same.symm⟩⟩

/-- What a repetition leaves is preceded by characters of its class. -/
theorem rest_of_mem_run_repeated {accepts : Char → Bool} {greedy : Bool} {cursor final : Cursor}
    (matched : final ∈ (Pattern.repeated accepts 0 none greedy).run cursor) :
    ∃ taken, cursor.rest = taken ++ final.rest ∧ ∀ c ∈ taken, accepts c = true := by
  obtain ⟨count, bound, rfl⟩ := (mem_run_repeated_zero accepts greedy cursor final).mp matched
  refine ⟨cursor.rest.take count, (List.take_append_drop count cursor.rest).symm, ?_⟩
  intro c member
  have leading : cursor.rest.take count <+: cursor.rest.takeWhile accepts :=
    List.prefix_of_prefix_length_le (List.take_prefix _ _) (List.takeWhile_prefix _)
      ((List.length_take_le _ _).trans bound)
  exact List.mem_takeWhile_imp (leading.subset member)

/-- A repetition can take exactly a leading run of its class. -/
theorem exists_mem_run_repeated (accepts : Char → Bool) (greedy : Bool) (taken rest : List Char)
    (before : Option Char) (groups : List (Nat × List Char))
    (accepted : ∀ c ∈ taken, accepts c = true) :
    ∃ final ∈ (Pattern.repeated accepts 0 none greedy).run ⟨before, taken ++ rest, groups⟩,
      final.rest = rest := by
  refine ⟨(Cursor.mk before (taken ++ rest) groups).advance taken.length, ?_, ?_⟩
  · refine (mem_run_repeated_zero accepts greedy _ _).mpr ⟨taken.length, ?_, rfl⟩
    rw [List.takeWhile_append_of_pos accepted, List.length_append]
    exact Nat.le_add_right _ _
  · simp [Cursor.advance]

/-- A word matches characters that compare the same, one for one. -/
theorem rest_of_mem_run_word {same : Char → Char → Bool} {letters : List Char}
    {cursor final : Cursor} (matched : final ∈ (Pattern.word same letters).run cursor) :
    ∃ taken, cursor.rest = taken ++ final.rest ∧
      List.Forall₂ (fun letter c => same letter c = true) letters taken := by
  induction letters generalizing cursor with
  | nil =>
      have unchanged : final = cursor := by simpa [Pattern.word, Pattern.run_empty] using matched
      exact ⟨[], by simp [unchanged], .nil⟩
  | cons letter letters ih =>
      obtain ⟨middle, first, later⟩ := (mem_run_seq _ _ _ _).mp matched
      obtain ⟨c, rest, shape, accepted, rfl⟩ := (mem_run_one _ _ _).mp first
      obtain ⟨taken, split, letterwise⟩ := ih later
      exact ⟨c :: taken, by rw [shape, List.cons_append, ← split], .cons accepted letterwise⟩

theorem exists_mem_run_word (same : Char → Char → Bool) (letters taken rest : List Char)
    (letterwise : List.Forall₂ (fun letter c => same letter c = true) letters taken)
    (before : Option Char) (groups : List (Nat × List Char)) :
    ∃ final ∈ (Pattern.word same letters).run ⟨before, taken ++ rest, groups⟩,
      final.rest = rest := by
  induction letterwise generalizing before with
  | nil => exact ⟨_, by simp [Pattern.word, Pattern.run_empty]; rfl, rfl⟩
  | @cons letter c letters taken accepted _ ih =>
      obtain ⟨final, member, left⟩ := ih (some c)
      refine ⟨final, (mem_run_seq _ _ _ _).mpr ⟨⟨some c, taken ++ rest, groups⟩, ?_, member⟩, left⟩
      exact (mem_run_one _ _ _).mpr ⟨c, taken ++ rest, rfl, accepted, rfl⟩

end ZabbixPortal.Foundation
