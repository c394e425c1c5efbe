import ZabbixPortal.Foundation.OrderedMap
import ZabbixPortal.Foundation.Sorting
import Mathlib.Order.Bounds.Basic

/-! The highest ranked items of a list, and how they are found from those of its parts. -/

set_option autoImplicit false

namespace ZabbixPortal.Foundation

section TopOf

variable {α : Type} (count : Nat) (rank : α → Nat)

/-- A list is the highest ranked items of another, as many as are wanted, best first. -/
def TopOf (all listed : List α) : Prop :=
  ∃ rest, (listed ++ rest).Perm all ∧ listed.Pairwise (fun a b => rank b ≤ rank a) ∧
    (∀ a ∈ listed, ∀ b ∈ rest, rank b ≤ rank a) ∧ listed.length = min count all.length

variable {count rank}

theorem TopOf.of_sorted {all sorted : List α} (same : sorted.Perm all)
    (descending : sorted.Pairwise fun a b => rank b ≤ rank a) :
    TopOf count rank all (sorted.take count) := by
  have split : sorted.take count ++ sorted.drop count = sorted := List.take_append_drop _ _
  refine ⟨sorted.drop count, by rw [split]; exact same, descending.sublist
    (List.take_sublist _ _), ?_, by rw [List.length_take, same.length_eq]⟩
  rw [← split] at descending
  exact (List.pairwise_append.mp descending).2.2

/-- Where enough items of a sorted list have a property that higher ones share, its first ones
have it. -/
theorem forall_mem_take_of_countP {sorted : List α} {holds : α → Bool}
    (descending : sorted.Pairwise fun a b => rank b ≤ rank a)
    (upward : ∀ a b, rank b ≤ rank a → holds b = true → holds a = true) {wanted : Nat}
    (enough : wanted ≤ sorted.countP holds) : ∀ a ∈ sorted.take wanted, holds a = true := by
  induction sorted generalizing wanted with
  | nil => simp
  | cons first rest ih =>
      obtain ⟨above, later⟩ := List.pairwise_cons.mp descending
      cases wanted with
      | zero => simp
      | succ wanted =>
          rw [List.countP_cons] at enough
          by_cases firstHolds : holds first = true
          · rw [if_pos firstHolds] at enough
            intro a member
            rcases List.mem_cons.mp member with rfl | inRest
            · exact firstHolds
            · exact ih later (by omega) a inRest
          · have empty : rest.countP holds = 0 :=
              List.countP_eq_zero.mpr fun b member holdsB =>
                firstHolds (upward first b (above b member) holdsB)
            rw [if_neg firstHolds, empty] at enough
            omega

/-- What the parts leave out ranks below enough of what they list. -/
private theorem exists_rests {ι : Type} (parts : List ι) (all listed : ι → List α)
    (tops : ∀ part ∈ parts, TopOf count rank (all part) (listed part)) :
    ∃ rests, (parts.flatMap listed ++ rests).Perm (parts.flatMap all) ∧
      ∀ b ∈ rests, count ≤ (parts.flatMap listed).countP fun a => rank b ≤ rank a := by
  induction parts with
  | nil => exact ⟨[], List.Perm.refl _, fun b impossible => nomatch impossible⟩
  | cons part parts ih =>
      obtain ⟨rests, same, below⟩ := ih fun other member => tops other (List.mem_cons_of_mem _ member)
      obtain ⟨rest, own, -, best, size⟩ := tops part List.mem_cons_self
      refine ⟨rest ++ rests, ?_, fun b member => ?_⟩
      · rw [List.flatMap_cons, List.flatMap_cons]
        refine List.Perm.trans ?_ (own.append same)
        simp only [List.append_assoc]
        refine List.Perm.append_left _ ?_
        rw [← List.append_assoc, ← List.append_assoc]
        exact List.perm_append_comm.append_right _
      · rw [List.flatMap_cons, List.countP_append]
        rcases List.mem_append.mp member with inRest | inRests
        · have full : (listed part).length = count := by
            have total := own.length_eq
            have positive := List.length_pos_of_mem inRest
            rw [List.length_append] at total
            omega
          have allAbove : (listed part).countP (fun a => rank b ≤ rank a) = (listed part).length :=
            List.countP_eq_length.mpr fun a inListed => decide_eq_true (best a inListed b inRest)
          omega
        · have := below b inRests
          omega

/-- The best of the parts' best are the best of all. -/
theorem TopOf.merge {ι : Type} (parts : List ι) (all listed : ι → List α)
    (tops : ∀ part ∈ parts, TopOf count rank (all part) (listed part)) {sorted : List α}
    (same : sorted.Perm (parts.flatMap listed))
    (descending : sorted.Pairwise fun a b => rank b ≤ rank a) :
    TopOf count rank (parts.flatMap all) (sorted.take count) := by
  obtain ⟨rests, whole, below⟩ := exists_rests parts all listed tops
  obtain ⟨dropped, split, ordered, best, size⟩ : TopOf count rank (parts.flatMap listed)
      (sorted.take count) := TopOf.of_sorted same descending
  refine ⟨dropped ++ rests, ?_, ordered, fun a member b left => ?_, ?_⟩
  · rw [← List.append_assoc]
    exact (split.append_right rests).trans whole
  · rcases List.mem_append.mp left with inDropped | inRests
    · exact best a member b inDropped
    · have enough : count ≤ sorted.countP fun a => rank b ≤ rank a := by
        rw [same.countP_eq]
        exact below b inRests
      have first := forall_mem_take_of_countP descending (fun a c higher reaches => by
        have reaches := of_decide_eq_true reaches
        exact decide_eq_true (by omega)) enough a member
      exact of_decide_eq_true first
  · have total := whole.length_eq
    rw [List.length_append] at total
    rw [size]
    cases rests with
    | nil =>
        rw [List.length_nil] at total
        omega
    | cons b rests =>
        have enough := below b List.mem_cons_self
        have within := List.countP_le_length (p := fun a => decide (rank b ≤ rank a))
          (l := parts.flatMap listed)
        omega

end TopOf

/-- Sorting by a rank, highest first. -/
theorem pairwise_sortBy_rank {α : Type} (rank : α → Nat) (items : List α) :
    (sortBy (fun a b => compare (rank b) (rank a)) items).Pairwise fun a b => rank b ≤ rank a := by
  have keeps : ∀ a b : α, compare (rank b) (rank a) ≠ .gt ↔ rank b ≤ rank a := fun a b => by
    rw [Nat.compare_ne_gt]
  have : Std.Total fun a b : α => compare (rank b) (rank a) ≠ .gt :=
    ⟨fun a b => by rw [keeps, keeps]; exact Nat.le_total _ _⟩
  have : IsTrans α fun a b : α => compare (rank b) (rank a) ≠ .gt :=
    ⟨fun a b c first second => by rw [keeps] at *; exact second.trans first⟩
  exact (List.pairwise_insertionSort _ items).imp fun before => (keeps _ _).mp before

/-- Sorting by a comparator that orders. -/
theorem pairwise_sortBy {α : Type} (compare : α → α → Ordering) [Std.TransCmp compare]
    (items : List α) : (sortBy compare items).Pairwise fun a b => compare a b ≠ .gt := by
  have : Std.Total fun a b : α => compare a b ≠ .gt := ⟨fun a b => by
    cases order : compare a b with
    | lt => exact .inl (by decide)
    | eq => exact .inl (by decide)
    | gt =>
        have back : compare b a = .lt := Std.OrientedCmp.lt_of_gt order
        exact .inr (by rw [back]; decide)⟩
  have : IsTrans α fun a b : α => compare a b ≠ .gt := ⟨fun a b c first second => by
    exact Ordering.isLE_iff_ne_gt.mp (Std.TransCmp.isLE_trans (Ordering.isLE_iff_ne_gt.mpr first)
      (Ordering.isLE_iff_ne_gt.mpr second))⟩
  exact List.pairwise_insertionSort _ items

private theorem filter_orderedInsert {α : Type} (before : α → α → Prop) [DecidableRel before]
    [IsTrans α before] (keep : α → Bool) (item : α) {items : List α}
    (sorted : items.Pairwise before) :
    (items.orderedInsert before item).filter keep =
      if keep item then (items.filter keep).orderedInsert before item else items.filter keep := by
  induction items with
  | nil => cases kept : keep item <;> simp [kept]
  | cons head rest ih =>
      obtain ⟨first, later⟩ := List.pairwise_cons.mp sorted
      by_cases precedes : before item head
      · rw [List.orderedInsert_cons, if_pos precedes]
        cases kept : keep item with
        | false => rw [List.filter_cons_of_neg (by simp [kept])]; rfl
        | true =>
            rw [List.filter_cons_of_pos kept, if_pos rfl]
            have stops : ∀ other ∈ (head :: rest).filter keep, before item other := by
              intro other member
              cases List.mem_cons.mp (List.mem_filter.mp member).1 with
              | inl same => exact same ▸ precedes
              | inr inside => exact IsTrans.trans _ _ _ precedes (first other inside)
            cases whole : (head :: rest).filter keep with
            | nil => rfl
            | cons top more =>
                rw [List.orderedInsert_cons, if_pos (stops top (whole ▸ List.mem_cons_self))]
      · rw [List.orderedInsert_cons, if_neg precedes]
        cases keptHead : keep head with
        | false =>
            rw [List.filter_cons_of_neg (by simp [keptHead]), ih later,
              List.filter_cons_of_neg (by simp [keptHead])]
        | true =>
            rw [List.filter_cons_of_pos keptHead, ih later, List.filter_cons_of_pos keptHead]
            cases keep item with
            | false => rfl
            | true => rw [if_pos rfl, if_pos rfl, List.orderedInsert_cons, if_neg precedes]

/-- A stable sort of some of the items is what is left of the sort of all. -/
theorem filter_sortBy {α : Type} (compare : α → α → Ordering) [Std.TransCmp compare]
    (keep : α → Bool) (items : List α) :
    (sortBy compare items).filter keep = sortBy compare (items.filter keep) := by
  have : IsTrans α fun a b : α => compare a b ≠ .gt := ⟨fun a b c first second => by
    exact Ordering.isLE_iff_ne_gt.mp (Std.TransCmp.isLE_trans (Ordering.isLE_iff_ne_gt.mpr first)
      (Ordering.isLE_iff_ne_gt.mpr second))⟩
  induction items with
  | nil => rfl
  | cons item rest ih =>
      have step := filter_orderedInsert (fun a b => compare a b ≠ .gt) keep item
        (pairwise_sortBy compare rest)
      have inserted : sortBy compare (item :: rest) =
          (sortBy compare rest).orderedInsert (fun a b => compare a b ≠ .gt) item := rfl
      rw [inserted, step, ih]
      cases kept : keep item with
      | false => rw [List.filter_cons_of_neg (by simp [kept])]; rfl
      | true => rw [List.filter_cons_of_pos kept]; rfl

/-- The entries of a map by a number, no two at the same. -/
theorem pairwise_sortBy_keys {α : Type} (map : OrderedMap ℤ α) :
    (sortBy (fun a b => compare a.1 b.1) map.entries).Pairwise fun a b => a.1 < b.1 := by
  have : Std.TransCmp fun a b : ℤ × α => compare a.1 b.1 :=
    inferInstanceAs (Std.TransCmp (compareOn Prod.fst))
  have sorted := pairwise_sortBy (fun a b : ℤ × α => compare a.1 b.1) map.entries
  have distinct : (sortBy (fun a b : ℤ × α => compare a.1 b.1) map.entries).Pairwise
      fun a b => a.1 ≠ b.1 :=
    (sortBy_perm _ _).symm.pairwise (List.pairwise_map.mp map.distinct)
      fun differs => differs.symm
  refine (sorted.and distinct).imp fun both => ?_
  exact lt_of_le_of_ne (Int.compare_ne_gt.mp both.1) both.2

theorem compareNumbers_ne_gt (left right : ℚ) : compareNumbers left right ≠ .gt ↔ left ≤ right := by
  unfold compareNumbers
  split
  · next less => exact iff_of_true (by decide) less.le
  · next notLess =>
      split
      · next greater => exact iff_of_false (fun differs => differs rfl) greater.not_ge
      · next notGreater => exact iff_of_true (by decide) (not_lt.mp notGreater)

instance transCmp_compareNumbers : Std.TransCmp compareNumbers where
  eq_swap := by
    intro a b
    unfold compareNumbers
    rcases lt_trichotomy a b with less | same | more
    · simp [less, less.not_gt]
    · simp [same]
    · simp [more, more.not_gt]
  isLE_trans := by
    intro a b c first second
    rw [Ordering.isLE_iff_ne_gt] at first second ⊢
    exact (compareNumbers_ne_gt a c).mpr
      (((compareNumbers_ne_gt a b).mp first).trans ((compareNumbers_ne_gt b c).mp second))

/-- Sorting by a number, lowest first. -/
theorem pairwise_sortBy_number {α : Type} (number : α → ℚ) (items : List α) :
    (sortBy (fun a b => compareNumbers (number a) (number b)) items).Pairwise
      fun a b => number a ≤ number b := by
  have : Std.Total fun a b : α => compareNumbers (number a) (number b) ≠ .gt :=
    ⟨fun a b => by rw [compareNumbers_ne_gt, compareNumbers_ne_gt]; exact le_total _ _⟩
  have : IsTrans α fun a b : α => compareNumbers (number a) (number b) ≠ .gt :=
    ⟨fun a b c first second => by rw [compareNumbers_ne_gt] at *; exact first.trans second⟩
  exact (List.pairwise_insertionSort _ items).imp fun before =>
    (compareNumbers_ne_gt _ _).mp before

/-- The highest of a start and of the highest of each part is the highest of them all. -/
theorem isGreatest_foldl_max {ι α : Type} [LinearOrder α] {items : List ι} {values : ι → Set α}
    {most : ι → α} (each : ∀ item ∈ items, IsGreatest (values item) (most item)) {start : Set α}
    {first : α} (begins : IsGreatest start first) :
    IsGreatest (start ∪ {value | ∃ item ∈ items, value ∈ values item})
      ((items.map most).foldl max first) := by
  induction items generalizing start first with
  | nil => simpa using begins
  | cons item items ih =>
      have joined := ih (fun other member => each other (List.mem_cons_of_mem _ member))
        (begins.union (each item List.mem_cons_self))
      have same : start ∪ {value | ∃ other ∈ item :: items, value ∈ values other} =
          start ∪ values item ∪ {value | ∃ other ∈ items, value ∈ values other} := by
        ext value
        simp [or_assoc]
      rw [List.map_cons, List.foldl_cons, same]
      exact joined

end ZabbixPortal.Foundation
