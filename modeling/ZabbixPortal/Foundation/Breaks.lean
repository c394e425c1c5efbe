import Mathlib.Algebra.Group.Nat.Defs
import Mathlib.Algebra.BigOperators.Group.List.Basic
import Mathlib.Algebra.GroupWithZero.Nat

/-! Breaks between lines: blocks of consecutive lines, and where a break leaves at least two lines of a
block on either side. -/

set_option autoImplicit false

namespace ZabbixPortal.Foundation

/-- For each line of consecutive blocks, the first line of its block and the one behind its last. -/
def lineBounds (start : Nat) : List Nat → List (Nat × Nat)
  | [] => []
  | size :: rest => List.replicate size (start, start + size) ++ lineBounds (start + size) rest

theorem length_lineBounds (start : Nat) (sizes : List Nat) :
    (lineBounds start sizes).length = sizes.sum := by
  induction sizes generalizing start with
  | nil => rfl
  | cons size rest ih =>
      rw [lineBounds, List.length_append, List.length_replicate, ih, List.sum_cons]

theorem lineBounds_append (start : Nat) (sizes more : List Nat) :
    lineBounds start (sizes ++ more) =
      lineBounds start sizes ++ lineBounds (start + sizes.sum) more := by
  induction sizes generalizing start with
  | nil => rfl
  | cons size rest ih =>
      rw [List.cons_append, lineBounds, lineBounds, ih, List.append_assoc, List.sum_cons,
        Nat.add_assoc]

/-- The bounds of a line are those of its block. -/
theorem getElem?_lineBounds {before after : List Nat} {size j : Nat} (lower : before.sum ≤ j)
    (upper : j < before.sum + size) :
    (lineBounds 0 (before ++ size :: after))[j]? =
      some (before.sum, before.sum + size) := by
  have within : j - before.sum < (List.replicate size (before.sum, before.sum + size)).length := by
    rw [List.length_replicate]
    omega
  rw [lineBounds_append, Nat.zero_add, lineBounds,
    List.getElem?_append_right (by rw [length_lineBounds]; exact lower), length_lineBounds,
    List.getElem?_append_left within, List.getElem?_replicate_of_lt (by omega)]

/-- Every line is in a block. -/
theorem exists_block {sizes : List Nat} {j : Nat} (within : j < sizes.sum) :
    ∃ before size after, sizes = before ++ size :: after ∧ before.sum ≤ j ∧
      j < before.sum + size := by
  induction sizes generalizing j with
  | nil => exact absurd within (Nat.not_lt_zero j)
  | cons first rest ih =>
      by_cases inFirst : j < first
      · exact ⟨[], first, rest, rfl, Nat.zero_le j, by rw [List.sum_nil]; omega⟩
      · rw [List.sum_cons] at within
        obtain ⟨before, size, after, split, lower, upper⟩ := ih (j := j - first) (by omega)
        refine ⟨first :: before, size, after, by rw [split, List.cons_append], ?_, ?_⟩
        · rw [List.sum_cons]
          omega
        · rw [List.sum_cons]
          omega

/-- Each line is within the bounds of its block, and the lines of a block share theirs. -/
structure Blocks (total : Nat) (starts ends : Nat → Nat) : Prop where
  lower : ∀ {j : Nat}, j < total → starts j ≤ j
  upper : ∀ {j : Nat}, j < total → j < ends j
  last : ∀ {j : Nat}, j < total → ends j ≤ total
  starts_same : ∀ {j k : Nat}, j < total → starts j ≤ k → k < ends j → starts k = starts j
  ends_same : ∀ {j k : Nat}, j < total → starts j ≤ k → k < ends j → ends k = ends j

theorem blocks_lineBounds (sizes : List Nat) :
    Blocks sizes.sum (fun j => ((lineBounds 0 sizes)[j]?.getD (0, 0)).1)
      (fun j => ((lineBounds 0 sizes)[j]?.getD (0, 0)).2) := by
  -- the bounds of a line by the block it is in
  have found : ∀ {j : Nat}, j < sizes.sum → ∃ s e, s ≤ j ∧ j < e ∧ e ≤ sizes.sum ∧
      ∀ k, s ≤ k → k < e → (lineBounds 0 sizes)[k]? = some (s, e) := by
    intro j within
    obtain ⟨before, size, after, split, lower, upper⟩ := exists_block within
    refine ⟨before.sum, before.sum + size, lower, upper, ?_, ?_⟩
    · rw [split, List.sum_append, List.sum_cons]
      omega
    · intro k above below
      rw [split]
      exact getElem?_lineBounds above below
  refine ⟨?_, ?_, ?_, ?_, ?_⟩
  · intro j within
    obtain ⟨s, e, lower, upper, _, bounds⟩ := found within
    rw [bounds j lower upper]
    exact lower
  · intro j within
    obtain ⟨s, e, lower, upper, _, bounds⟩ := found within
    rw [bounds j lower upper]
    exact upper
  · intro j within
    obtain ⟨s, e, lower, upper, last, bounds⟩ := found within
    rw [bounds j lower upper]
    exact last
  · intro j k within above below
    obtain ⟨s, e, lower, upper, _, bounds⟩ := found within
    rw [bounds j lower upper] at above below ⊢
    rw [bounds k above below]
  · intro j k within above below
    obtain ⟨s, e, lower, upper, _, bounds⟩ := found within
    rw [bounds j lower upper] at above below ⊢
    rw [bounds k above below]

/-- A break behind so many lines is behind a block, or leaves two lines of one on either side. -/
def CleanBreak (starts ends : Nat → Nat) (k : Nat) : Prop :=
  ends (k - 1) = k ∨ (starts (k - 1) + 2 ≤ k ∧ k + 2 ≤ ends (k - 1))

instance (starts ends : Nat → Nat) (k : Nat) : Decidable (CleanBreak starts ends k) :=
  inferInstanceAs (Decidable (_ ∨ _))

def LeavesTwo (s e k : Nat) : Prop := s < k → k < e → s + 2 ≤ k ∧ k + 2 ≤ e

section Breaking

variable {total : Nat} {starts ends : Nat → Nat}

theorem Blocks.leavesTwo (blocks : Blocks total starts ends) {j k : Nat} (line : j < total)
    (clean : CleanBreak starts ends k) : LeavesTwo (starts j) (ends j) k := by
  intro above below
  have sameStart := blocks.starts_same (k := k - 1) line (by omega) (by omega)
  have sameEnd := blocks.ends_same (k := k - 1) line (by omega) (by omega)
  rcases clean with behind | ⟨head, foot⟩
  · omega
  · omega

/-- Of three places in a row one is a clean break. -/
theorem Blocks.exists_cleanBreak (blocks : Blocks total starts ends) {k : Nat} (positive : 0 < k)
    (below : k + 1 < total) : ∃ l, k ≤ l ∧ l ≤ k + 2 ∧ CleanBreak starts ends l := by
  have lower := blocks.lower (j := k - 1) (by omega)
  have upper := blocks.upper (j := k - 1) (by omega)
  by_cases behind : ends (k - 1) = k
  · exact ⟨k, Nat.le_refl k, by omega, .inl behind⟩
  · have sameStart := blocks.starts_same (j := k - 1) (k := k) (by omega) (by omega) (by omega)
    have sameEnd := blocks.ends_same (j := k - 1) (k := k) (by omega) (by omega) (by omega)
    by_cases one : ends (k - 1) = k + 1
    · exact ⟨k + 1, by omega, by omega, .inl (by rw [Nat.add_sub_cancel]; omega)⟩
    · by_cases two : ends (k - 1) = k + 2
      · have last := blocks.ends_same (j := k - 1) (k := k + 1) (by omega) (by omega) (by omega)
        exact ⟨k + 2, by omega, Nat.le_refl _, .inl (by
          rw [show k + 2 - 1 = k + 1 from rfl, last, two])⟩
      · refine ⟨k + 1, by omega, by omega, .inr ?_⟩
        rw [Nat.add_sub_cancel]
        omega

/-- Between two places that leave two, and at least two lines apart, no line of a block of two or
more is alone. -/
theorem exists_neighbour {s e k l j : Nat} (two : s + 2 ≤ e) (head : LeavesTwo s e k)
    (foot : LeavesTwo s e l) (apart : k + 2 ≤ l) (lower : s ≤ j) (upper : j < e) (after : k ≤ j)
    (before : j < l) : ∃ i, i ≠ j ∧ (s ≤ i ∧ i < e) ∧ k ≤ i ∧ i < l := by
  unfold LeavesTwo at head foot
  by_cases next : j + 1 < e ∧ j + 1 < l
  · exact ⟨j + 1, by omega, by omega, by omega⟩
  · exact ⟨j - 1, by omega, by omega, by omega⟩

end Breaking

end ZabbixPortal.Foundation
