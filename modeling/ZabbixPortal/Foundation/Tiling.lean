import Mathlib.Data.Int.Notation
import Mathlib.Data.List.Nodup
import Mathlib.Tactic.Cases

/-! Ranges cut into consecutive windows and lists cut into parts: a point is in one
window, an item in one part. -/

set_option autoImplicit false

namespace ZabbixPortal.Foundation

inductive Tiles (last : ℤ) : ℤ → List (ℤ × ℤ) → Prop where
  | done : Tiles last (last + 1) []
  | next {first stop : ℤ} {windows : List (ℤ × ℤ)} :
      first ≤ stop → Tiles last (stop + 1) windows → Tiles last first ((first, stop) :: windows)

namespace Tiles

def Holds (point : ℤ) (window : ℤ × ℤ) : Bool := window.1 ≤ point ∧ point ≤ window.2

theorem holds_iff (point : ℤ) (window : ℤ × ℤ) :
    Holds point window = true ↔ window.1 ≤ point ∧ point ≤ window.2 := decide_eq_true_iff

variable {first last : ℤ} {windows : List (ℤ × ℤ)}

theorem within (tiles : Tiles last first windows) :
    first ≤ last + 1 ∧ ∀ window ∈ windows, first ≤ window.1 ∧ window.2 ≤ last := by
  induction tiles with
  | done => simp
  | next forward _ ih =>
      obtain ⟨bound, inside⟩ := ih
      refine ⟨by omega, ?_⟩
      intro window member
      rcases List.mem_cons.mp member with rfl | later
      · dsimp only
        omega
      · have bounds := inside window later
        omega

theorem none_before (tiles : Tiles last first windows) {point : ℤ} (before : point < first) :
    windows.countP (Holds point) = 0 := by
  rw [List.countP_eq_zero]
  intro window member
  have bounds := (tiles.within.2 window member).1
  simp only [Holds, decide_eq_true_eq, not_and]
  omega

theorem once (tiles : Tiles last first windows) {point : ℤ} (lower : first ≤ point)
    (upper : point ≤ last) : windows.countP (Holds point) = 1 := by
  induction tiles with
  | done => omega
  | @next first stop windows forward rest ih =>
      by_cases here : point ≤ stop
      · have later : windows.countP (Holds point) = 0 := rest.none_before (by omega)
        rw [List.countP_cons_of_pos (by simp [Holds, lower, here]), later]
      · have passed : ¬ Holds point (first, stop) = true := by simp [Holds, here]
        rw [List.countP_cons_of_neg passed]
        exact ih (by omega)

end Tiles

/-- An item of a list without repetition is in one part of it only. -/
theorem filter_parts {α : Type} [DecidableEq α] {parts : List (List α)}
    (distinct : parts.flatten.Nodup) {item : α} (member : item ∈ parts.flatten) :
    ∃ part, item ∈ part ∧ parts.filter (fun part => item ∈ part) = [part] := by
  induction parts with
  | nil => cases member
  | cons part parts ih =>
      rw [List.flatten_cons, List.nodup_append'] at distinct
      obtain ⟨_, rest, apart⟩ := distinct
      rw [List.flatten_cons, List.mem_append] at member
      by_cases here : item ∈ part
      · refine ⟨part, here, ?_⟩
        have others : parts.filter (fun part => item ∈ part) = [] := by
          rw [List.filter_eq_nil_iff]
          intro other inParts inOther
          have later : item ∈ parts.flatten :=
            List.mem_flatten.mpr ⟨other, inParts, by simpa using inOther⟩
          exact apart here later
        rw [List.filter_cons_of_pos (by simpa using here), others]
      · obtain ⟨own, inOwn, found⟩ := ih rest (member.resolve_left here)
        refine ⟨own, inOwn, ?_⟩
        rw [List.filter_cons_of_neg (by simpa using here), found]

end ZabbixPortal.Foundation
