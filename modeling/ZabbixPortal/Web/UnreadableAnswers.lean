import ZabbixPortal.Foundation.Firsts
import ZabbixPortal.Web.GuardShapesProperties

/-! What happens when an answer fails its check: the error a page shows, and the line written
once to the console. -/

set_option autoImplicit false

namespace ZabbixPortal.Web.Guards

open Foundation

variable {ν : Type} (table : ν → List (Key × Kind ν))

structure Guard (ν : Type) where
  what : String
  check : Kind ν

def unreadableMessage (what : String) : String :=
  "The portal sent back " ++ what ++
    " in a form this page cannot read. Try again in a minute, or tell the portal admin."

structure UnreadableAnswer where
  path : String
  message : String
  detail : String
deriving DecidableEq, Repr

/-- The lines told, and what `console.warn` has printed. -/
structure Console where
  told : List String
  warned : List String
deriving DecidableEq, Repr

def Console.start : Console := ⟨[], []⟩

def toldLimit : Nat := 50

def misfitLine (source detail : String) : String := source ++ ": " ++ detail

def warning (line : String) : String :=
  "The portal's answer did not match what the page expects. " ++ line

def noteMisfit (console : Console) (source detail : String) : Console :=
  let line := misfitLine source detail
  if line ∈ console.told ∨ toldLimit ≤ console.told.length then console
  else ⟨console.told ++ [line], console.warned ++ [warning line]⟩

def assertFits (console : Console) (guard : Guard ν) (body : Option Json) (path : String) :
    Console × Except UnreadableAnswer (Option Json) :=
  match misfit (guard.check.run table) body with
  | none => (console, .ok body)
  | some detail =>
      (noteMisfit console path detail, .error ⟨path, unreadableMessage guard.what, detail⟩)

structure Asked (ν : Type) where
  guard : Guard ν
  path : String
  body : Option Json

def answerAll (console : Console) : List (Asked ν) →
    Console × List (Except UnreadableAnswer (Option Json))
  | [] => (console, [])
  | asked :: rest =>
      let answered := assertFits table console asked.guard asked.body asked.path
      let others := answerAll answered.1 rest
      (others.1, answered.2 :: others.2)

def lineOf (asked : Asked ν) : Option String :=
  (misfit (asked.guard.check.run table) asked.body).map (misfitLine asked.path)

inductive Given (asked : Asked ν) : Except UnreadableAnswer (Option Json) → Prop where
  | whole : Fits table asked.guard.check asked.body → Given asked (.ok asked.body)
  | unreadable (steps why) : Wrong table asked.guard.check asked.body steps why →
      Given asked (.error ⟨asked.path, unreadableMessage asked.guard.what, detailText steps why⟩)

/-- The console after some lines: the first of each, up to the limit. -/
structure Console.Holds (console : Console) (lines : List String) : Prop where
  told : console.told = (firsts id lines).take toldLimit
  warned : console.warned = console.told.map warning

theorem Console.Holds.start : Console.start.Holds [] := ⟨rfl, rfl⟩

theorem firsts_snoc {α : Type} [DecidableEq α] (items : List α) (item : α) :
    firsts id (items ++ [item]) =
      if item ∈ firsts id items then firsts id items else firsts id items ++ [item] := by
  have walked := walked_foldl id items
  have seen : (items.foldl (keepFirst id) ([], [])).2 = firsts id items := by
    rw [← walked.keys, List.map_id]
    rfl
  rw [firsts, List.foldl_append, List.foldl_cons, List.foldl_nil, keepFirst, seen, id]
  by_cases member : item ∈ firsts id items
  · rw [if_pos member, if_pos member]
    rfl
  · rw [if_neg member, if_neg member]
    rfl

/-- A line that is told already, or one over the limit, changes nothing; any other is added. -/
theorem Console.Holds.noteMisfit {console : Console} {lines : List String}
    (holds : console.Holds lines) (source detail : String) :
    (noteMisfit console source detail).Holds (lines ++ [misfitLine source detail]) := by
  obtain ⟨told, warned⟩ := holds
  rw [Guards.noteMisfit]
  by_cases known : misfitLine source detail ∈ firsts id lines
  · -- told before, or one of the many after the limit
    have unchanged : misfitLine source detail ∈ console.told ∨
        toldLimit ≤ console.told.length := by
      by_cases inside : misfitLine source detail ∈ console.told
      · exact .inl inside
      · right
        rw [told, List.length_take]
        refine Nat.le_min.mpr ⟨Nat.le_refl _, Nat.le_of_not_lt fun few => inside ?_⟩
        rw [told, List.take_of_length_le (Nat.le_of_lt few)]
        exact known
    rw [if_pos unchanged]
    exact ⟨by rw [firsts_snoc, if_pos known, told], warned⟩
  · by_cases full : toldLimit ≤ (firsts id lines).length
    · have unchanged : toldLimit ≤ console.told.length := by
        rw [told, List.length_take]
        exact Nat.le_min.mpr ⟨Nat.le_refl _, full⟩
      rw [if_pos (.inr unchanged)]
      refine ⟨?_, warned⟩
      rw [firsts_snoc, if_neg known, List.take_append_of_le_length full, told]
    · have few := Nat.lt_of_not_le full
      have whole : console.told = firsts id lines := by
        rw [told, List.take_of_length_le (Nat.le_of_lt few)]
      have added : ¬ (misfitLine source detail ∈ console.told ∨
          toldLimit ≤ console.told.length) := by
        rw [whole]
        exact fun either => either.elim known full
      rw [if_neg added]
      refine ⟨?_, by simp only [warned, List.map_append, List.map_cons, List.map_nil]⟩
      rw [firsts_snoc, if_neg known, List.take_of_length_le
        (by rw [List.length_append]; exact few), whole]

theorem given_assertFits (console : Console) (asked : Asked ν) :
    Given table asked (assertFits table console asked.guard asked.body asked.path).2 := by
  obtain ⟨silent, told⟩ := misfit_exact table asked.guard.check asked.body
  rw [assertFits]
  cases answered : misfit (asked.guard.check.run table) asked.body with
  | none => exact .whole (silent.mp answered)
  | some detail =>
      obtain ⟨steps, place, expected, noun, wrong, _, _, _, same, _⟩ := told detail answered
      exact same ▸ .unreadable steps _ wrong

theorem holds_assertFits {console : Console} {lines : List String} (holds : console.Holds lines)
    (asked : Asked ν) :
    (assertFits table console asked.guard asked.body asked.path).1.Holds
      (lines ++ (lineOf table asked).toList) := by
  rw [assertFits, lineOf]
  cases misfit (asked.guard.check.run table) asked.body with
  | none =>
      rw [Option.map_none, Option.toList_none, List.append_nil]
      exact holds
  | some detail => exact holds.noteMisfit asked.path detail

theorem answerAll_from {console : Console} {lines : List String} (holds : console.Holds lines)
    (answers : List (Asked ν)) :
    (answerAll table console answers).1.Holds (lines ++ answers.filterMap (lineOf table)) ∧
      List.Forall₂ (Given table) answers (answerAll table console answers).2 := by
  induction answers generalizing console lines with
  | nil => exact ⟨by rwa [List.filterMap_nil, List.append_nil], .nil⟩
  | cons asked rest ih =>
      obtain ⟨later, given⟩ := ih (holds_assertFits table holds asked)
      refine ⟨?_, .cons (given_assertFits table console asked) given⟩
      have split : lines ++ (asked :: rest).filterMap (lineOf table) =
          lines ++ (lineOf table asked).toList ++ rest.filterMap (lineOf table) := by
        cases own : lineOf table asked with
        | none => simp [own]
        | some line => simp [own]
      rw [split]
      exact later

/-- Over any run of answers each page gets its answer whole, or the error that names the first
place it goes wrong; and the console has told the first of each line, in order, and no more
than the limit. -/
theorem answerAll_tells (answers : List (Asked ν)) :
    (answerAll table .start answers).1.warned =
        ((firsts id (answers.filterMap (lineOf table))).take toldLimit).map warning ∧
      List.Forall₂ (Given table) answers (answerAll table .start answers).2 := by
  obtain ⟨holds, given⟩ := answerAll_from table Console.Holds.start answers
  exact ⟨by rw [holds.warned, holds.told]; rfl, given⟩

end ZabbixPortal.Web.Guards
