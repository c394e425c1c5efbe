import Mathlib.Order.Interval.Finset.Basic
import Mathlib.Data.Int.Interval
import Mathlib.Data.Int.ConditionallyCompleteOrder
import Mathlib.Data.List.Pairwise
import Mathlib.Tactic.Linarith

/-! Lists of half-open intervals and the points they cover. Membership is stated
over any linear order; the number of points is counted over the integers. -/

set_option autoImplicit false

namespace ZabbixPortal.Foundation.HalfOpen

section Covers

variable {α : Type} [LinearOrder α]

def Covers (intervals : List (α × α)) (point : α) : Prop :=
  ∃ interval ∈ intervals, interval.1 ≤ point ∧ point < interval.2

instance (intervals : List (α × α)) (point : α) : Decidable (Covers intervals point) :=
  inferInstanceAs (Decidable (∃ interval ∈ intervals, interval.1 ≤ point ∧ point < interval.2))

@[simp] theorem covers_nil (point : α) : ¬ Covers [] point := by
  simp [Covers]

@[simp] theorem covers_cons (interval : α × α) (rest : List (α × α)) (point : α) :
    Covers (interval :: rest) point ↔
      (interval.1 ≤ point ∧ point < interval.2) ∨ Covers rest point := by
  simp [Covers]

@[simp] theorem covers_append (left right : List (α × α)) (point : α) :
    Covers (left ++ right) point ↔ Covers left point ∨ Covers right point := by
  simp [Covers, or_and_right, exists_or]

theorem covers_perm {left right : List (α × α)} (same : left.Perm right) (point : α) :
    Covers left point ↔ Covers right point := by
  simp only [Covers, same.mem_iff]

theorem covers_flatMap {β : Type} (items : List β) (spans : β → List (α × α)) (point : α) :
    Covers (items.flatMap spans) point ↔ ∃ item ∈ items, Covers (spans item) point := by
  simp only [Covers, List.mem_flatMap]
  constructor
  · rintro ⟨interval, ⟨item, member, inside⟩, bounds⟩
    exact ⟨item, member, interval, inside, bounds⟩
  · rintro ⟨item, member, interval, inside, bounds⟩
    exact ⟨interval, ⟨item, member, inside⟩, bounds⟩

/-- Proper intervals in ascending order that do not overlap; they may touch. -/
structure Ordered (intervals : List (α × α)) : Prop where
  proper : ∀ interval ∈ intervals, interval.1 < interval.2
  apart : intervals.Pairwise fun left right => left.2 ≤ right.1

theorem Ordered.nil : Ordered ([] : List (α × α)) := ⟨by simp, .nil⟩

theorem Ordered.tail {interval : α × α} {rest : List (α × α)}
    (ordered : Ordered (interval :: rest)) : Ordered rest :=
  ⟨fun other member => ordered.proper other (.tail _ member), ordered.apart.of_cons⟩

/-- The tail of an ordered list lies entirely after its head. -/
theorem Ordered.head_before {interval : α × α} {rest : List (α × α)}
    (ordered : Ordered (interval :: rest)) (point : α) (covered : Covers rest point) :
    interval.2 ≤ point := by
  obtain ⟨other, member, lower, _⟩ := covered
  exact ((List.pairwise_cons.mp ordered.apart).1 other member).trans lower

structure Separated (intervals : List (α × α)) : Prop where
  proper : ∀ interval ∈ intervals, interval.1 < interval.2
  apart : intervals.Pairwise fun left right => left.2 < right.1

namespace Separated

variable {interval other : α × α} {rest others : List (α × α)}

theorem ordered (separated : Separated rest) : Ordered rest :=
  ⟨separated.proper, separated.apart.imp le_of_lt⟩

theorem nil : Separated ([] : List (α × α)) := ⟨by simp, .nil⟩

theorem cons (proper : interval.1 < interval.2) (before : ∀ other ∈ rest, interval.2 < other.1)
    (separated : Separated rest) : Separated (interval :: rest) := by
  constructor
  · intro other member
    rcases List.mem_cons.mp member with rfl | inRest
    · exact proper
    · exact separated.proper other inRest
  · exact List.pairwise_cons.mpr ⟨before, separated.apart⟩

theorem head (separated : Separated (interval :: rest)) : interval.1 < interval.2 :=
  separated.proper interval List.mem_cons_self

theorem tail (separated : Separated (interval :: rest)) : Separated rest :=
  ⟨fun other member => separated.proper other (.tail _ member), separated.apart.of_cons⟩

theorem after_head (separated : Separated (interval :: rest)) {point : α}
    (covered : Covers rest point) : interval.2 < point := by
  obtain ⟨other, member, lower, _⟩ := covered
  have gap := (List.pairwise_cons.mp separated.apart).1 other member
  exact gap.trans_le lower

theorem covers_tail_iff (separated : Separated (interval :: rest)) (point : α) :
    Covers rest point ↔ Covers (interval :: rest) point ∧ interval.2 ≤ point := by
  rw [covers_cons]
  constructor
  · intro covered
    exact ⟨.inr covered, (separated.after_head covered).le⟩
  · rintro ⟨inHead | inRest, late⟩
    · exact absurd inHead.2 (not_lt.mpr late)
    · exact inRest

theorem start_le (separated : Separated (interval :: rest)) {point : α}
    (covered : Covers (interval :: rest) point) : interval.1 ≤ point := by
  rcases (covers_cons _ _ _).mp covered with inHead | inRest
  · exact inHead.1
  · exact (separated.head.trans (separated.after_head inRest)).le

/-- The end of the first interval is not covered: nothing starts there. -/
theorem not_covers_stop (separated : Separated (interval :: rest)) :
    ¬ Covers (interval :: rest) interval.2 := by
  intro covered
  rcases (covers_cons _ _ _).mp covered with inHead | inRest
  · exact lt_irrefl _ inHead.2
  · exact lt_irrefl _ (separated.after_head inRest)

private theorem head_le (left : Separated (interval :: rest)) (right : Separated (other :: others))
    (same : ∀ point, Covers (interval :: rest) point ↔ Covers (other :: others) point) :
    interval.1 ≤ other.1 ∧ (interval.1 = other.1 → other.2 ≤ interval.2) := by
  have started : Covers (other :: others) other.1 :=
    (covers_cons _ _ _).mpr (.inl ⟨le_rfl, right.head⟩)
  refine ⟨left.start_le ((same _).mpr started), fun together => ?_⟩
  by_contra longer
  have inside : Covers (other :: others) interval.2 :=
    (covers_cons _ _ _).mpr (.inl ⟨together ▸ left.head.le, not_le.mp longer⟩)
  exact left.not_covers_stop ((same _).mpr inside)

/-- The covered points determine the intervals. -/
theorem unique (left : Separated rest) (right : Separated others)
    (same : ∀ point, Covers rest point ↔ Covers others point) : rest = others := by
  induction rest generalizing others with
  | nil =>
      cases others with
      | nil => rfl
      | cons other others =>
          have started : Covers (other :: others) other.1 :=
            (covers_cons _ _ _).mpr (.inl ⟨le_rfl, right.head⟩)
          exact absurd ((same _).mpr started) (covers_nil _)
  | cons interval rest ih =>
      cases others with
      | nil =>
          have started : Covers (interval :: rest) interval.1 :=
            (covers_cons _ _ _).mpr (.inl ⟨le_rfl, left.head⟩)
          exact absurd ((same _).mp started) (covers_nil _)
      | cons other others =>
          obtain ⟨leftStart, leftStop⟩ := head_le left right same
          obtain ⟨rightStart, rightStop⟩ := head_le right left fun point => (same point).symm
          have starts := le_antisymm leftStart rightStart
          have stops := le_antisymm (rightStop starts.symm) (leftStop starts)
          have heads : interval = other := Prod.ext starts stops
          have tails : rest = others := by
            apply ih left.tail right.tail
            intro point
            rw [left.covers_tail_iff, right.covers_tail_iff, same, stops]
          rw [heads, tails]

end Separated

end Covers

section Points

noncomputable def points (intervals : List (ℤ × ℤ)) : Finset ℤ :=
  intervals.foldr (fun interval covered => Finset.Ico interval.1 interval.2 ∪ covered) ∅

@[simp] theorem mem_points (intervals : List (ℤ × ℤ)) (point : ℤ) :
    point ∈ points intervals ↔ Covers intervals point := by
  induction intervals with
  | nil => simp [points]
  | cons interval rest ih =>
      have unfolded : points (interval :: rest) =
          Finset.Ico interval.1 interval.2 ∪ points rest := rfl
      rw [unfolded, Finset.mem_union, ih, Finset.mem_Ico, covers_cons]

theorem points_congr {left right : List (ℤ × ℤ)}
    (same : ∀ point, Covers left point ↔ Covers right point) : points left = points right := by
  ext point
  simp [same]

def lengths (intervals : List (ℤ × ℤ)) : ℤ :=
  (intervals.map fun interval => interval.2 - interval.1).sum

/-- Ordered intervals count every covered point exactly once. -/
theorem Ordered.lengths_eq_card {intervals : List (ℤ × ℤ)} (ordered : Ordered intervals) :
    lengths intervals = (points intervals).card := by
  induction intervals with
  | nil => simp [lengths, points]
  | cons interval rest ih =>
      have proper := ordered.proper interval (by simp)
      have disjoint : Disjoint (Finset.Ico interval.1 interval.2) (points rest) := by
        rw [Finset.disjoint_left]
        intro point inHead inRest
        have after := ordered.head_before _ ((mem_points rest point).mp inRest)
        exact absurd (Finset.mem_Ico.mp inHead).2 (not_lt.mpr after)
      have split : points (interval :: rest) =
          Finset.Ico interval.1 interval.2 ∪ points rest := rfl
      have width : ((interval.2 - interval.1).toNat : ℤ) = interval.2 - interval.1 := by
        omega
      have recursive := ih ordered.tail
      rw [split, Finset.card_union_of_disjoint disjoint, Int.card_Ico]
      simp only [lengths, List.map_cons, List.sum_cons] at recursive ⊢
      push_cast
      rw [recursive]
      omega

theorem card_points_le_of_subset {intervals : List (ℤ × ℤ)} {lower upper : ℤ}
    (inside : ∀ point, Covers intervals point → lower ≤ point ∧ point < upper)
    (forward : lower ≤ upper) : ((points intervals).card : ℤ) ≤ upper - lower := by
  have contained : points intervals ⊆ Finset.Ico lower upper := by
    intro point member
    exact Finset.mem_Ico.mpr (inside point ((mem_points intervals point).mp member))
  have bound := Finset.card_le_card contained
  rw [Int.card_Ico] at bound
  omega

end Points

/-! Half-open intervals that tile a longer one: each begins where the one before it ends. -/

variable {α : Type} [LinearOrder α]

inductive Fills : α → α → List (α × α) → Prop where
  | nil (point : α) : Fills point point []
  | cons {first middle last : α} {rest : List (α × α)} :
      first < middle → Fills middle last rest → Fills first last ((first, middle) :: rest)

theorem Fills.le {first last : α} {intervals : List (α × α)}
    (fills : Fills first last intervals) : first ≤ last := by
  induction fills with
  | nil point => exact le_rfl
  | cons proper _ ih => exact proper.le.trans ih

/-- What tiles an interval covers just its points. -/
theorem Fills.covers_iff {first last : α} {intervals : List (α × α)}
    (fills : Fills first last intervals) (point : α) :
    Covers intervals point ↔ first ≤ point ∧ point < last := by
  induction fills with
  | nil point' =>
      simp only [covers_nil, false_iff, not_and, not_lt]
      exact id
  | @cons first middle last rest proper fills ih =>
      rw [covers_cons, ih]
      constructor
      · rintro (⟨lower, upper⟩ | ⟨lower, upper⟩)
        · exact ⟨lower, upper.trans_le fills.le⟩
        · exact ⟨proper.le.trans lower, upper⟩
      · rintro ⟨lower, upper⟩
        rcases lt_or_ge point middle with before | after
        · exact .inl ⟨lower, before⟩
        · exact .inr ⟨after, upper⟩

end ZabbixPortal.Foundation.HalfOpen
