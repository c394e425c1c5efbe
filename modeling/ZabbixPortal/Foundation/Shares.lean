import Mathlib.Algebra.BigOperators.Field
import Mathlib.Algebra.Order.BigOperators.Group.Finset
import Mathlib.Tactic.FieldSimp

/-! An amount shared by weight among some items, or evenly when no weight counts. -/

set_option autoImplicit false

namespace ZabbixPortal.Foundation

variable {ι K : Type} [Field K] [LinearOrder K]

def share (weights : ι → K) (live : Finset ι) (left : K) (i : ι) : K :=
  let sum := ∑ j ∈ live, weights j
  if sum > 0 then weights i / sum * left else left / live.card

section Share

variable (weights floors : ι → K) {live : Finset ι}

def low (live : Finset ι) (left : K) : Finset ι :=
  live.filter fun i => share weights live left i < floors i

theorem low_subset (left : K) : low weights floors live left ⊆ live := Finset.filter_subset _ _

theorem floor_le_share {left : K} (empty : low weights floors live left = ∅) {i : ι}
    (member : i ∈ live) : floors i ≤ share weights live left i :=
  not_lt.mp (Finset.filter_eq_empty_iff.mp empty member)

theorem card_sdiff_low_lt [DecidableEq ι] {left : K} (nonempty : low weights floors live left ≠ ∅) :
    (live \ low weights floors live left).card < live.card :=
  Finset.card_lt_card (Finset.sdiff_ssubset (low_subset weights floors left)
    (Finset.nonempty_iff_ne_empty.mpr nonempty))

variable [IsStrictOrderedRing K]

theorem sum_share (nonempty : live.Nonempty) (left : K) :
    ∑ i ∈ live, share weights live left i = left := by
  unfold share
  dsimp only
  split
  · next positive =>
      rw [← Finset.sum_mul, ← Finset.sum_div, div_self positive.ne', one_mul]
  · have count : (live.card : K) ≠ 0 := by
      exact_mod_cast (Finset.card_pos.mpr nonempty).ne'
    rw [Finset.sum_const, nsmul_eq_mul, mul_div_cancel₀ left count]

/-- When no share is under its floor, what is left is enough for the floors. -/
theorem sum_floors_le {left : K} (nonempty : live.Nonempty)
    (empty : low weights floors live left = ∅) : ∑ i ∈ live, floors i ≤ left :=
  calc ∑ i ∈ live, floors i
      ≤ ∑ i ∈ live, share weights live left i :=
        Finset.sum_le_sum fun _ member => floor_le_share weights floors empty member
    _ = left := sum_share weights nonempty left

/-- When every share is under its floor, what is left is too little for the floors. -/
theorem lt_sum_floors [DecidableEq ι] {left : K} (nonempty : live.Nonempty)
    (all : live \ low weights floors live left = ∅) : left < ∑ i ∈ live, floors i :=
  calc left
      = ∑ i ∈ live, share weights live left i := (sum_share weights nonempty left).symm
    _ < ∑ i ∈ live, floors i := Finset.sum_lt_sum_of_nonempty nonempty fun _ member =>
        (Finset.mem_filter.mp (Finset.sdiff_eq_empty_iff_subset.mp all member)).2

end Share

end ZabbixPortal.Foundation
