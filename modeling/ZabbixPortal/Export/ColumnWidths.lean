import Mathlib.Data.Fin.VecNotation
import ZabbixPortal.Foundation.Shares
import ZabbixPortal.Foundation.Sorting

/-! The widths of a report's columns, in the workbook and in the PDF: shared by weight over
floors, then moved from columns with room to columns whose text does not fit. -/

set_option autoImplicit false

namespace ZabbixPortal.Export

open Foundation

variable {n : ℕ}

namespace Xlsx

/-- The rounds of `shareWidths`: columns whose share is under their floor are pinned at it, and
the others share what is left. -/
def shareRounds (weights floors : Fin n → ℚ) (live : Finset (Fin n)) (left : ℚ) : Fin n → ℚ :=
  if live = ∅ then floors
  else
    let pinned := low weights floors live left
    if pinned = ∅ then fun i => if i ∈ live then share weights live left i else floors i
    else shareRounds weights floors (live \ pinned) (left - ∑ i ∈ pinned, floors i)
termination_by live.card
decreasing_by exact card_sdiff_low_lt weights floors ‹_›

/-- Splits `total` by weight once every floor is met. Floors that need more than `total` win, so
the table runs wider. -/
def shareWidths (weights floors : Fin n → ℚ) (total : ℚ) : Fin n → ℚ :=
  shareRounds weights floors Finset.univ total

end Xlsx

namespace Pdf

def PRINT_W : ℚ := 842 - 2 * 36

/-- The rounds of `shareWidths`, the live columns being those that are not pinned. -/
def shareRounds (weights floors : Fin n → ℚ) (total : ℚ) (pinned : Finset (Fin n)) : Fin n → ℚ :=
  let left := total - ∑ i ∈ pinned, floors i
  let under := low weights floors pinnedᶜ left
  if under = ∅ then fun i => if i ∈ pinned then floors i else share weights pinnedᶜ left i
  else shareRounds weights floors total (pinned ∪ under)
termination_by pinnedᶜ.card
decreasing_by
  rw [Finset.compl_union, ← Finset.sdiff_eq_inter_compl]
  exact card_sdiff_low_lt weights floors ‹_›

/-- Splits `total` by weight once every floor is met. Floors that cannot all be met scale down
together. -/
def shareWidths (weights floors : Fin n → ℚ) (total : ℚ) : Fin n → ℚ :=
  let floorSum := ∑ i, floors i
  if floorSum ≥ total then fun i => floors i * total / floorSum
  else shareRounds weights floors total ∅

end Pdf

def need (widths : Fin n → ℚ) (wants : Fin n → Option ℚ) (i : Fin n) : ℚ :=
  max 0 ((wants i).getD 0 - widths i)

def spare (widths keeps : Fin n → ℚ) (i : Fin n) : ℚ := max 0 (widths i - keeps i)

def asking (need : Fin n → ℚ) : List (Fin n) :=
  sortBy (fun a b => (compareNumbers (need a) (need b)).then (compare a b))
    ((List.finRange n).filter fun i => need i > 0)

def give (need : Fin n → ℚ) (given : (Fin n → ℚ) × ℚ) (i : Fin n) : (Fin n → ℚ) × ℚ :=
  let amount := min (need i) given.2
  (Function.update given.1 i amount, given.2 - amount)

/-- Moves width from columns with more than their content needs to text columns with less. The
workbook and the PDF share the function word for word. -/
def fitToContent (widths keeps : Fin n → ℚ) (wants : Fin n → Option ℚ) : Fin n → ℚ :=
  let need := need widths wants
  let spare := spare widths keeps
  let room := ∑ i, spare i
  if room ≤ 0 then widths
  else
    let given := (asking need).foldl (give need) (fun _ => 0, room)
    let moved := room - given.2
    if moved ≤ 0 then widths
    else fun i => widths i + given.1 i - spare i / room * moved

section Workbook

variable (weights floors : Fin n → ℚ)

/-- Every live column ends at or above its floor, the others stay at theirs. -/
theorem floor_le_xlsxRounds (live : Finset (Fin n)) (left : ℚ) (i : Fin n) :
    floors i ≤ Xlsx.shareRounds weights floors live left i := by
  induction live, left using Xlsx.shareRounds.induct weights floors with
  | case1 left =>
      rw [Xlsx.shareRounds, if_pos rfl]
  | case2 live left nonempty pinned empty =>
      rw [Xlsx.shareRounds, if_neg nonempty, if_pos empty]
      split
      · next member => exact floor_le_share weights floors empty member
      · exact le_rfl
  | case3 live left nonempty pinned under ih =>
      rw [Xlsx.shareRounds, if_neg nonempty, if_neg under]
      exact ih

theorem xlsxRounds_of_not_mem {live : Finset (Fin n)} {left : ℚ} {i : Fin n}
    (outside : i ∉ live) : Xlsx.shareRounds weights floors live left i = floors i := by
  induction live, left using Xlsx.shareRounds.induct weights floors with
  | case1 left =>
      rw [Xlsx.shareRounds, if_pos rfl]
  | case2 live left nonempty pinned empty =>
      rw [Xlsx.shareRounds, if_neg nonempty, if_pos empty]
      exact if_neg outside
  | case3 live left nonempty pinned under ih =>
      rw [Xlsx.shareRounds, if_neg nonempty, if_neg under]
      exact ih fun member => outside (Finset.mem_sdiff.mp member).1

/-- The live columns share all that is left, or take their floors when that is more. -/
theorem sum_xlsxRounds (live : Finset (Fin n)) (left : ℚ) (noneLeft : live = ∅ → left ≤ 0) :
    ∑ i ∈ live, Xlsx.shareRounds weights floors live left i =
      max left (∑ i ∈ live, floors i) := by
  induction live, left using Xlsx.shareRounds.induct weights floors with
  | case1 left =>
      rw [Finset.sum_empty, Finset.sum_empty, max_eq_right (noneLeft rfl)]
  | case2 live left filled pinned empty =>
      have nonempty := Finset.nonempty_iff_ne_empty.mpr filled
      rw [max_eq_left (sum_floors_le weights floors nonempty empty)]
      have each : ∀ i ∈ live,
          Xlsx.shareRounds weights floors live left i = share weights live left i := by
        intro i member
        rw [Xlsx.shareRounds, if_neg filled, if_pos empty]
        exact if_pos member
      rw [Finset.sum_congr rfl each, sum_share weights nonempty]
  | case3 live left filled pinned under ih =>
      have nonempty := Finset.nonempty_iff_ne_empty.mpr filled
      have inside : pinned ⊆ live := low_subset weights floors left
      have next := ih fun all => by
        have short := lt_sum_floors weights floors nonempty all
        have same : pinned = live :=
          Finset.Subset.antisymm inside (Finset.sdiff_eq_empty_iff_subset.mp all)
        rw [same]
        exact (sub_neg.mpr short).le
      have unfolded : Xlsx.shareRounds weights floors live left =
          Xlsx.shareRounds weights floors (live \ pinned) (left - ∑ i ∈ pinned, floors i) := by
        rw [Xlsx.shareRounds, if_neg filled, if_neg under]
      have pins : ∑ i ∈ pinned, Xlsx.shareRounds weights floors (live \ pinned)
          (left - ∑ i ∈ pinned, floors i) i = ∑ i ∈ pinned, floors i :=
        Finset.sum_congr rfl fun i member => xlsxRounds_of_not_mem weights floors
          fun stays => (Finset.mem_sdiff.mp stays).2 member
      rw [unfolded, ← Finset.sum_sdiff inside, next, pins, max_add, sub_add_cancel,
        Finset.sum_sdiff inside]

end Workbook

section Page

variable (weights floors : Fin n → ℚ) {total : ℚ}

/-- While the floors leave something over, some column stays live. -/
theorem live_of_room {pinned : Finset (Fin n)} (nonempty : (pinnedᶜ).Nonempty)
    (room : ∑ i, floors i ≤ total) :
    ((pinned ∪ low weights floors pinnedᶜ (total - ∑ i ∈ pinned, floors i))ᶜ).Nonempty := by
  rw [Finset.compl_union, ← Finset.sdiff_eq_inter_compl, Finset.nonempty_iff_ne_empty]
  intro all
  have short := lt_sum_floors weights floors nonempty all
  have parts := Finset.sum_add_sum_compl pinned floors
  linarith

theorem floor_le_pdfRounds (pinned : Finset (Fin n)) (i : Fin n) :
    floors i ≤ Pdf.shareRounds weights floors total pinned i := by
  induction pinned using Pdf.shareRounds.induct weights floors total with
  | case1 pinned left under empty =>
      rw [Pdf.shareRounds, if_pos empty]
      split
      · exact le_rfl
      · next live => exact floor_le_share weights floors empty (Finset.mem_compl.mpr live)
  | case2 pinned left under nonempty ih =>
      rw [Pdf.shareRounds, if_neg nonempty]
      exact ih

theorem sum_pdfRounds (room : ∑ i, floors i ≤ total) (pinned : Finset (Fin n))
    (nonempty : (pinnedᶜ).Nonempty) :
    ∑ i, Pdf.shareRounds weights floors total pinned i = total := by
  induction pinned using Pdf.shareRounds.induct weights floors total with
  | case1 pinned left under empty =>
      rw [Pdf.shareRounds, if_pos empty, ← Finset.sum_add_sum_compl pinned]
      have pins : ∑ i ∈ pinned, (if i ∈ pinned then floors i else share weights pinnedᶜ left i) =
          ∑ i ∈ pinned, floors i := Finset.sum_congr rfl fun i member => if_pos member
      have lives : ∑ i ∈ pinnedᶜ, (if i ∈ pinned then floors i else share weights pinnedᶜ left i) =
          ∑ i ∈ pinnedᶜ, share weights pinnedᶜ left i :=
        Finset.sum_congr rfl fun i member => if_neg (Finset.mem_compl.mp member)
      rw [pins, lives, sum_share weights nonempty]
      exact add_sub_cancel _ _
  | case2 pinned left under more ih =>
      rw [Pdf.shareRounds, if_neg more]
      exact ih (live_of_room weights floors nonempty room)

end Page

section Fit

variable {need : Fin n → ℚ} {given : (Fin n → ℚ) × ℚ}

/-- What holds while width is given out: nothing is lost, nobody gets more than it lacks. -/
structure Gives (need : Fin n → ℚ) (room : ℚ) (given : (Fin n → ℚ) × ℚ) : Prop where
  all : ∑ i, given.1 i + given.2 = room
  left : 0 ≤ given.2
  more : ∀ i, 0 ≤ given.1 i
  enough : ∀ i, given.1 i ≤ need i

theorem Gives.start (needs : ∀ i, 0 ≤ need i) {room : ℚ} (positive : 0 ≤ room) :
    Gives need room (fun _ => 0, room) where
  all := by simp
  left := positive
  more _ := le_rfl
  enough := needs

theorem Gives.give {room : ℚ} (gives : Gives need room given) {i : Fin n} (lacks : 0 ≤ need i)
    (fresh : given.1 i = 0) : Gives need room (give need given i) where
  all := by
    have total := gives.all
    rw [← Finset.add_sum_erase Finset.univ given.1 (Finset.mem_univ i), fresh, zero_add] at total
    dsimp only [Export.give]
    rw [Finset.sum_update_of_mem (Finset.mem_univ i), Finset.sdiff_singleton_eq_erase]
    linarith
  left := sub_nonneg.mpr (min_le_right _ _)
  more j := by
    dsimp only [Export.give]
    rw [Function.update_apply]
    split
    · exact le_min lacks gives.left
    · exact gives.more j
  enough j := by
    dsimp only [Export.give]
    rw [Function.update_apply]
    split
    · next same => exact same ▸ min_le_left _ _
    · exact gives.enough j

theorem Gives.foldl {room : ℚ} {columns : List (Fin n)} (gives : Gives need room given)
    (lack : ∀ i ∈ columns, 0 ≤ need i) (distinct : columns.Nodup)
    (fresh : ∀ i ∈ columns, given.1 i = 0) :
    Gives need room (columns.foldl (Export.give need) given) := by
  induction columns generalizing given with
  | nil => exact gives
  | cons i rest ih =>
      rw [List.foldl_cons]
      refine ih (gives.give (lack i List.mem_cons_self) (fresh i List.mem_cons_self))
        (fun j member => lack j (.tail _ member)) distinct.of_cons fun j member => ?_
      have other : j ≠ i := fun same => (List.nodup_cons.mp distinct).1 (same ▸ member)
      dsimp only [Export.give]
      rw [Function.update_of_ne other]
      exact fresh j (.tail _ member)

variable (widths keeps : Fin n → ℚ) (wants : Fin n → Option ℚ)

theorem nodup_asking (need : Fin n → ℚ) : (asking need).Nodup :=
  (sortBy_perm _ _).nodup_iff.mpr ((List.nodup_finRange n).filter _)

/-- Either nothing moves, or every column gives in proportion to what it can spare and some
are given what they lack. -/
theorem fitToContent_cases :
    fitToContent widths keeps wants = widths ∨
      ∃ given : Fin n → ℚ, ∃ room moved : ℚ,
        room = ∑ i, spare widths keeps i ∧ 0 < room ∧ moved ≤ room ∧ 0 ≤ moved ∧
        ∑ i, given i = moved ∧ (∀ i, 0 ≤ given i) ∧ (∀ i, given i ≤ Export.need widths wants i) ∧
        ∀ i, fitToContent widths keeps wants i =
          widths i + given i - spare widths keeps i / room * moved := by
  unfold fitToContent
  dsimp only
  split
  · exact .inl rfl
  · next positive =>
      have room := not_le.mp positive
      have gives : Gives (Export.need widths wants) _ _ :=
        (Gives.start (fun i => le_max_left 0 _) room.le).foldl
          (fun i _ => le_max_left 0 _) (nodup_asking (Export.need widths wants)) fun _ _ => rfl
      split
      · exact .inl rfl
      · next moves =>
          refine .inr ⟨_, _, _, rfl, room, ?_, (not_le.mp moves).le, ?_, gives.more,
            gives.enough, fun _ => rfl⟩
          · exact sub_le_self _ gives.left
          · exact eq_sub_of_add_eq gives.all

theorem sum_fitToContent : ∑ i, fitToContent widths keeps wants i = ∑ i, widths i := by
  rcases fitToContent_cases widths keeps wants with
    same | ⟨given, room, moved, total, positive, -, -, sum, -, -, each⟩
  · rw [same]
  · rw [Finset.sum_congr rfl fun i _ => each i, Finset.sum_sub_distrib, Finset.sum_add_distrib,
      ← Finset.sum_mul, ← Finset.sum_div, ← total, div_self positive.ne', one_mul, sum,
      add_sub_cancel_right]

/-- No column goes below what it had or what it keeps, whichever is less. -/
theorem min_le_fitToContent (i : Fin n) :
    min (widths i) (keeps i) ≤ fitToContent widths keeps wants i := by
  rcases fitToContent_cases widths keeps wants with
    same | ⟨given, room, moved, total, positive, most, least, -, more, -, each⟩
  · rw [same]
    exact min_le_left _ _
  · have nonneg : 0 ≤ spare widths keeps i := le_max_left 0 _
    have gives : spare widths keeps i / room * moved ≤ spare widths keeps i := by
      rw [div_mul_eq_mul_div, div_le_iff₀ positive]
      exact mul_le_mul_of_nonneg_left most nonneg
    have floor : min (widths i) (keeps i) = widths i - spare widths keeps i := by
      rcases le_total (widths i) (keeps i) with few | enough
      · rw [spare, max_eq_left (sub_nonpos.mpr few), min_eq_left few, sub_zero]
      · rw [spare, max_eq_right (sub_nonneg.mpr enough), min_eq_right enough, sub_sub_cancel]
    rw [each i, floor]
    linarith [more i]

/-- A column that gains width gains no more than it wants; one that wants nothing counts as
wanting none. -/
theorem fitToContent_le_want {i : Fin n} (gains : widths i < fitToContent widths keeps wants i) :
    fitToContent widths keeps wants i ≤ (wants i).getD 0 := by
  rcases fitToContent_cases widths keeps wants with
    same | ⟨given, room, moved, total, positive, -, least, -, -, enough, each⟩
  · rw [same] at gains
    exact absurd gains (lt_irrefl _)
  · have gives : 0 ≤ spare widths keeps i / room * moved :=
      mul_nonneg (div_nonneg (le_max_left 0 _) positive.le) least
    have given_le := enough i
    rw [each i] at gains ⊢
    rcases max_cases 0 ((wants i).getD 0 - widths i) with ⟨empty, _⟩ | ⟨lacks, _⟩
    · rw [Export.need, empty] at given_le
      linarith
    · rw [Export.need, lacks] at given_le
      linarith

end Fit

/-- The widths of a table's columns: the workbook's shares meet every floor and fill the total or
the floors, fitting them moves width within its bounds, and the PDF's fill the page. -/
theorem columns_keep_floors (counted : 0 < n) (weights floors : Fin n → ℚ) (total : ℚ)
    (widths keeps : Fin n → ℚ) (wants : Fin n → Option ℚ) :
    ((∀ i, floors i ≤ Xlsx.shareWidths weights floors total i) ∧
      ∑ i, Xlsx.shareWidths weights floors total i = max total (∑ i, floors i)) ∧
    (∑ i, fitToContent widths keeps wants i = ∑ i, widths i ∧
      (∀ i, min (widths i) (keeps i) ≤ fitToContent widths keeps wants i) ∧
      ∀ i, widths i < fitToContent widths keeps wants i →
        fitToContent widths keeps wants i ≤ (wants i).getD 0) ∧
    (∑ i, Pdf.shareWidths weights floors Pdf.PRINT_W i = Pdf.PRINT_W ∧
      (∑ i, floors i ≤ Pdf.PRINT_W →
        ∀ i, floors i ≤ Pdf.shareWidths weights floors Pdf.PRINT_W i)) := by
  have first : Fin n := ⟨0, counted⟩
  have page : 0 < Pdf.PRINT_W := by
    norm_num [Pdf.PRINT_W]
  refine ⟨⟨fun i => floor_le_xlsxRounds weights floors _ _ i, ?_⟩,
    ⟨sum_fitToContent widths keeps wants, min_le_fitToContent widths keeps wants,
      fun i => fitToContent_le_want widths keeps wants⟩, ?_⟩
  · refine sum_xlsxRounds weights floors Finset.univ total fun empty => ?_
    exact absurd (empty ▸ Finset.mem_univ first) (Finset.notMem_empty first)
  · unfold Pdf.shareWidths
    split
    · next much =>
        have positive : 0 < ∑ i, floors i := page.trans_le much
        refine ⟨?_, fun fits i => ?_⟩
        · rw [← Finset.sum_div, ← Finset.sum_mul, mul_div_cancel_left₀ _ positive.ne']
        · rw [le_antisymm fits much]
          exact (mul_div_cancel_right₀ _ page.ne').ge
    · next few =>
        have room := (not_le.mp few).le
        refine ⟨sum_pdfRounds weights floors room ∅ ⟨first, by simp⟩, fun _ i => ?_⟩
        exact floor_le_pdfRounds weights floors ∅ i

/-- A narrow column beside a wide one, the wide one with a long name. -/
theorem columns_keep_floors_pair :
    let weights : Fin 2 → ℚ := ![1, 3]
    let floors : Fin 2 → ℚ := ![40, 20]
    let wants : Fin 2 → Option ℚ := ![none, some 90]
    ((∀ i, floors i ≤ Xlsx.shareWidths weights floors 100 i) ∧
      ∑ i, Xlsx.shareWidths weights floors 100 i = max 100 (∑ i, floors i)) ∧
    (∑ i, fitToContent ![60, 60] floors wants i = ∑ i, (![60, 60] : Fin 2 → ℚ) i ∧
      (∀ i, min ((![60, 60] : Fin 2 → ℚ) i) (floors i) ≤ fitToContent ![60, 60] floors wants i) ∧
      ∀ i, (![60, 60] : Fin 2 → ℚ) i < fitToContent ![60, 60] floors wants i →
        fitToContent ![60, 60] floors wants i ≤ (wants i).getD 0) ∧
    (∑ i, Pdf.shareWidths weights floors Pdf.PRINT_W i = Pdf.PRINT_W ∧
      (∑ i, floors i ≤ Pdf.PRINT_W →
        ∀ i, floors i ≤ Pdf.shareWidths weights floors Pdf.PRINT_W i)) :=
  columns_keep_floors (by decide) ![1, 3] ![40, 20] 100 ![60, 60] ![40, 20] ![none, some 90]

end ZabbixPortal.Export
