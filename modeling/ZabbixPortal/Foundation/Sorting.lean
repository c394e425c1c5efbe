import ZabbixPortal.Foundation.Text
import Mathlib.Data.List.Sort
import Mathlib.Algebra.Order.Field.Rat
import Mathlib.Algebra.BigOperators.Group.List.Basic
import Mathlib.Algebra.Order.BigOperators.Group.List
import Mathlib.Tactic.Positivity
import Mathlib.Tactic.Linarith

/-! Stable sorting by a comparator that answers with an ordering, and the means and
sums reports take of sorted or grouped lists. -/

set_option autoImplicit false

namespace ZabbixPortal.Foundation

def sortBy {α : Type} (compare : α → α → Ordering) (items : List α) : List α :=
  items.insertionSort fun left right => compare left right ≠ .gt

theorem sortBy_perm {α : Type} (compare : α → α → Ordering) (items : List α) :
    (sortBy compare items).Perm items :=
  List.perm_insertionSort _ _

@[simp] theorem mem_sortBy {α : Type} (compare : α → α → Ordering) (items : List α) (item : α) :
    item ∈ sortBy compare items ↔ item ∈ items :=
  (sortBy_perm compare items).mem_iff

private theorem orderedInsert_congr {α : Type} {before other : α → α → Prop}
    [DecidableRel before] [DecidableRel other] {item : α} {items : List α}
    (same : ∀ b ∈ items, before item b ↔ other item b) :
    items.orderedInsert before item = items.orderedInsert other item := by
  induction items with
  | nil => rfl
  | cons head rest ih =>
      rw [List.orderedInsert_cons, List.orderedInsert_cons,
        ih fun b member => same b (List.mem_cons_of_mem _ member)]
      exact ite_congr (propext (same head List.mem_cons_self)) (fun _ => rfl) fun _ => rfl

/-- A comparator counts for the items it compares only. -/
theorem sortBy_congr {α : Type} {compare other : α → α → Ordering} {items : List α}
    (same : ∀ a ∈ items, ∀ b ∈ items, compare a b = other a b) :
    sortBy compare items = sortBy other items := by
  induction items with
  | nil => rfl
  | cons head rest ih =>
      have later := ih fun a first b second =>
        same a (List.mem_cons_of_mem _ first) b (List.mem_cons_of_mem _ second)
      change (sortBy compare rest).orderedInsert _ head = (sortBy other rest).orderedInsert _ head
      rw [later]
      refine orderedInsert_congr fun b member => ?_
      rw [same head List.mem_cons_self b
        (List.mem_cons_of_mem _ ((mem_sortBy other rest b).mp member))]

private theorem orderedInsert_of_head {α : Type} (before : α → α → Prop) [DecidableRel before]
    {item : α} {items : List α} (stops : ∀ other ∈ items, before item other) :
    items.orderedInsert before item = item :: items := by
  cases items with
  | nil => rfl
  | cons other rest => rw [List.orderedInsert_cons, if_pos (stops other List.mem_cons_self)]

private theorem orderedInsert_append {α : Type} {before : α → α → Prop} [DecidableRel before]
    {item : α} {leading rest : List α} (passed : ∀ other ∈ leading, ¬ before item other) :
    (leading ++ rest).orderedInsert before item = leading ++ rest.orderedInsert before item := by
  induction leading with
  | nil => rfl
  | cons other leading ih =>
      rw [List.cons_append, List.orderedInsert_cons,
        if_neg (passed other List.mem_cons_self),
        ih fun later member => passed later (List.mem_cons_of_mem _ member)]
      rfl

/-- Sorting by a yes or no puts the items it holds of first, both parts in their order. -/
theorem sortBy_bool {α : Type} (first : α → Bool) (items : List α) :
    sortBy (fun a b => compare (first b) (first a)) items =
      items.filter first ++ items.filter fun item => !first item := by
  induction items with
  | nil => rfl
  | cons item rest ih =>
      change List.orderedInsert _ item
        (sortBy (fun a b => compare (first b) (first a)) rest) = _
      rw [ih]
      cases ranked : first item with
      | true =>
          have front : ∀ other : α, compare (first other) (first item) ≠ .gt := by
            intro other
            rw [ranked]
            cases first other <;> decide
          rw [orderedInsert_of_head _ fun other _ => front other]
          simp [ranked]
      | false =>
          have passed : ∀ other ∈ rest.filter first,
              ¬ compare (first other) (first item) ≠ .gt := by
            intro other member
            rw [ranked, (List.mem_filter.mp member).2]
            decide
          have stops : ∀ other ∈ rest.filter fun item => !first item,
              compare (first other) (first item) ≠ .gt := by
            intro other member
            have last : first other = false := by simpa using (List.mem_filter.mp member).2
            rw [ranked, last]
            decide
          rw [orderedInsert_append passed, orderedInsert_of_head _ stops]
          simp [ranked]

def compareNumbers (left right : ℚ) : Ordering :=
  if left < right then .lt else if right < left then .gt else .eq

def mean (numbers : List ℚ) : Option ℚ :=
  if numbers.isEmpty then none else some (numbers.sum / numbers.length)

theorem mean_eq_none_iff (numbers : List ℚ) : mean numbers = none ↔ numbers = [] := by
  simp [mean]

theorem mean_of_ne_nil {numbers : List ℚ} (nonempty : numbers ≠ []) :
    mean numbers = some (numbers.sum / numbers.length) := by
  simp [mean, nonempty]

theorem mean_perm {left right : List ℚ} (same : left.Perm right) : mean left = mean right := by
  by_cases bare : left = []
  · subst bare
    rw [List.nil_perm.mp same]
  · have others : right ≠ [] := fun empty => bare (List.perm_nil.mp (empty ▸ same))
    rw [mean_of_ne_nil bare, mean_of_ne_nil others, same.sum_eq, same.length_eq]

/-- Adding numbers changes no mean exactly when they have that mean themselves. -/
theorem mean_append_eq_iff (numbers added : List ℚ) :
    mean (numbers ++ added) = mean numbers ↔
      added = [] ∨ (numbers ≠ [] ∧ mean added = mean numbers) := by
  by_cases noneAdded : added = []
  · simp [noneAdded]
  by_cases empty : numbers = []
  · simp [empty, mean, noneAdded]
  have together : numbers ++ added ≠ [] := by simp [empty]
  rw [mean_of_ne_nil together, mean_of_ne_nil empty, mean_of_ne_nil noneAdded]
  have count : (numbers.length : ℚ) ≠ 0 := by exact_mod_cast (List.length_pos_of_ne_nil empty).ne'
  have addedCount : (added.length : ℚ) ≠ 0 := by
    exact_mod_cast (List.length_pos_of_ne_nil noneAdded).ne'
  have total : (numbers.length : ℚ) + added.length ≠ 0 := by positivity
  simp only [List.sum_append, List.length_append, Nat.cast_add, Option.some.injEq, noneAdded,
    empty, ne_eq, not_false_eq_true, true_and, false_or]
  rw [div_eq_div_iff total count, div_eq_div_iff addedCount count]
  constructor <;> intro same <;> linarith

/-- A sum of amounts that each stay within a bound. -/
theorem sum_map_le {α : Type} {amount : α → Nat} {items : List α} {most : Nat}
    (each : ∀ item ∈ items, amount item ≤ most) :
    (items.map amount).sum ≤ items.length * most := by
  have bounded := List.sum_le_card_nsmul (items.map amount) most fun value member => by
    obtain ⟨item, listed, rfl⟩ := List.mem_map.mp member
    exact each item listed
  rwa [List.length_map, Nat.nsmul_eq_mul] at bounded

/-! The plain sort of texts: it depends on which texts there are, and not on their order. -/

/-- No character is half of a surrogate pair. -/
theorem not_surrogate (c : Char) :
    c.toNat < 0xD800 ∨ (0xDFFF < c.toNat ∧ c.toNat < 0x110000) := by
  have valid := c.valid
  unfold UInt32.isValidChar Nat.isValidChar at valid
  have same : c.val.toNat = c.toNat := rfl
  omega

/-- The units of a text tell its characters apart, from the front. -/
theorem codeUnits_append_inj {c d : Char} {rest more : List Nat}
    (same : codeUnits c ++ rest = codeUnits d ++ more) : c = d ∧ rest = more := by
  have left := not_surrogate c
  have right := not_surrogate d
  unfold codeUnits at same
  have ofNat : c.toNat = d.toNat → c = d := fun equal => Char.toNat_inj.mp equal
  split at same <;> split at same <;> simp at same
  · exact ⟨ofNat same.1, same.2⟩
  · omega
  · omega
  · exact ⟨ofNat (by omega), same.2.2⟩

theorem flatMap_codeUnits_inj {left right : List Char}
    (same : left.flatMap codeUnits = right.flatMap codeUnits) : left = right := by
  induction left generalizing right with
  | nil =>
      cases right with
      | nil => rfl
      | cons d more =>
          have nonempty : codeUnits d ≠ [] := by
            unfold codeUnits
            split <;> simp
          simp [nonempty] at same
  | cons c rest ih =>
      cases right with
      | nil =>
          have nonempty : codeUnits c ≠ [] := by
            unfold codeUnits
            split <;> simp
          simp [nonempty] at same
      | cons d more =>
          rw [List.flatMap_cons, List.flatMap_cons] at same
          obtain ⟨first, others⟩ := codeUnits_append_inj same
          rw [first, ih others]

/-- A sort by an order puts the same items in the same places. -/
theorem sortBy_eq_of_perm {α : Type} {before : α → α → Ordering}
    (total : ∀ left right, before left right ≠ .gt ∨ before right left ≠ .gt)
    (trans' : ∀ left middle right, before left middle ≠ .gt → before middle right ≠ .gt →
      before left right ≠ .gt)
    (antisymm' : ∀ left right, before left right ≠ .gt → before right left ≠ .gt → left = right)
    {left right : List α} (same : left.Perm right) : sortBy before left = sortBy before right := by
  have sorted : ∀ items : List α, (sortBy before items).Pairwise fun left right =>
      before left right ≠ .gt := by
    intro items
    have totals : Std.Total fun left right : α => before left right ≠ .gt := ⟨total⟩
    have transes : IsTrans α fun left right : α => before left right ≠ .gt := ⟨trans'⟩
    exact List.pairwise_insertionSort _ items
  refine List.Perm.eq_of_pairwise (fun left right _ _ => antisymm' left right) (sorted left)
    (sorted right) ?_
  exact (sortBy_perm before left).trans (same.trans (sortBy_perm before right).symm)

theorem compareCodeUnits_eq {left right : String} (same : compareCodeUnits left right = .eq) :
    left = right :=
  String.toList_inj.mp (flatMap_codeUnits_inj (Std.LawfulEqOrd.eq_of_compare same))

/-- Texts with no regard to their order are sorted to one list. -/
theorem sortBy_compareCodeUnits {left right : List String} (same : left.Perm right) :
    sortBy compareCodeUnits left = sortBy compareCodeUnits right := by
  have swapped : ∀ left right : String,
      compareCodeUnits right left = (compareCodeUnits left right).swap := fun _ _ =>
    Std.OrientedOrd.eq_swap
  refine sortBy_eq_of_perm (fun left right => ?_) (fun left middle right first second => ?_)
    (fun left right first second => ?_) same
  · rw [swapped left right]
    cases compareCodeUnits left right <;> simp
  · have earlier := Std.TransOrd.isLE_trans (Ordering.isLE_iff_ne_gt.mpr first)
      (Ordering.isLE_iff_ne_gt.mpr second)
    exact Ordering.isLE_iff_ne_gt.mp earlier
  · apply compareCodeUnits_eq
    rw [swapped left right] at second
    cases order : compareCodeUnits left right with
    | eq => rfl
    | lt => simp [order] at second
    | gt => exact absurd order first

end ZabbixPortal.Foundation
