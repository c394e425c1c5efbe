import Mathlib.Init
import Mathlib.Data.List.TakeWhile

/-! Text as JavaScript reads it: white space, trimming, prefixes and the order of a
plain sort. -/

set_option autoImplicit false

namespace ZabbixPortal.Foundation

def isSpace (c : Char) : Bool :=
  let code := c.toNat
  (9 ≤ code && code ≤ 13) || code == 32 || code == 0xA0 || code == 0x1680 ||
    (0x2000 ≤ code && code ≤ 0x200A) || code == 0x2028 || code == 0x2029 ||
    code == 0x202F || code == 0x205F || code == 0x3000 || code == 0xFEFF

theorem toUpper_of_isSpace (c : Char) (space : isSpace c = true) : c.toUpper = c := by
  have outside : ¬ (c.val ≥ 'a'.val ∧ c.val ≤ 'z'.val) := by
    rintro ⟨lower, upper⟩
    have atLeast : 97 ≤ c.toNat := UInt32.le_iff_toNat_le.mp lower
    have atMost : c.toNat ≤ 122 := UInt32.le_iff_toNat_le.mp upper
    simp [isSpace] at space
    omega
  exact dif_neg outside

def trim (text : List Char) : List Char :=
  ((text.dropWhile isSpace).reverse.dropWhile isSpace).reverse

private theorem dropWhile_of_none {text : List Char} (never : ∀ c ∈ text, isSpace c = false) :
    text.dropWhile isSpace = text := by
  cases text with
  | nil => rfl
  | cons c rest => rw [List.dropWhile_cons_of_neg (by simp [never c])]

theorem trim_of_none {text : List Char} (never : ∀ c ∈ text, isSpace c = false) :
    trim text = text := by
  have reversed : ∀ c ∈ text.reverse, isSpace c = false := fun c member =>
    never c (List.mem_reverse.mp member)
  rw [trim, dropWhile_of_none never, dropWhile_of_none reversed, List.reverse_reverse]

/-- A bounded check, to be evaluated item by item. -/
theorem forall_mem_of_all {α : Type} {holds : α → Prop} [DecidablePred holds] {items : List α}
    (all : (items.all fun item => holds item) = true) : ∀ item ∈ items, holds item := by
  intro item member
  exact of_decide_eq_true (List.all_eq_true.mp all item member)

def startsWith (key start : String) : Bool := start.toList.isPrefixOf key.toList

def codeUnits (c : Char) : List Nat :=
  if c.toNat < 0x10000 then [c.toNat]
  else [0xD800 + (c.toNat - 0x10000) / 0x400, 0xDC00 + (c.toNat - 0x10000) % 0x400]

def textLength (text : String) : Nat := (text.toList.flatMap codeUnits).length

@[simp] theorem textLength_append (left right : String) :
    textLength (left ++ right) = textLength left + textLength right := by
  simp [textLength]

/-- The order `sort()` puts texts in. -/
def compareCodeUnits (left right : String) : Ordering :=
  compare (left.toList.flatMap codeUnits) (right.toList.flatMap codeUnits)

/-! A list without the members of a kind at its two ends. -/

variable {α : Type} (drop : α → Bool)

def withoutEnds (s : List α) : List α := ((s.dropWhile drop).reverse.dropWhile drop).reverse

theorem withoutEnds_append (s : List α) :
    ∃ back, s.dropWhile drop = withoutEnds drop s ++ back ∧ ∀ item ∈ back, drop item = true := by
  refine ⟨((s.dropWhile drop).reverse.takeWhile drop).reverse, ?_, fun item member =>
    List.mem_takeWhile_imp (List.mem_reverse.mp member)⟩
  rw [withoutEnds, ← List.reverse_append, List.takeWhile_append_dropWhile, List.reverse_reverse]

theorem isInfix_withoutEnds (s : List α) : withoutEnds drop s <:+: s := by
  obtain ⟨back, shape, -⟩ := withoutEnds_append drop s
  refine ⟨s.takeWhile drop, back, ?_⟩
  rw [List.append_assoc, ← shape, List.takeWhile_append_dropWhile]

variable {drop}

theorem head?_withoutEnds {s : List α} {item : α} (first : (withoutEnds drop s).head? = some item) :
    drop item = false := by
  obtain ⟨back, rest, -⟩ := withoutEnds_append drop s
  have kept := List.head?_dropWhile_not drop s
  rw [rest, List.head?_append, first] at kept
  exact kept

theorem getLast?_withoutEnds {s : List α} {item : α}
    (last : (withoutEnds drop s).getLast? = some item) : drop item = false := by
  have kept := List.head?_dropWhile_not drop (s.dropWhile drop).reverse
  rw [withoutEnds, List.getLast?_reverse] at last
  rw [last] at kept
  exact kept

theorem dropWhile_of_head {s : List α} (first : ∀ item, s.head? = some item → drop item = false) :
    s.dropWhile drop = s := by
  cases s with
  | nil => rfl
  | cons item rest =>
      rw [List.dropWhile_cons_of_neg (by rw [first item rfl]; exact Bool.false_ne_true)]

/-- A list whose ends stay is left as it is. -/
theorem withoutEnds_of_kept {s : List α} (first : ∀ item, s.head? = some item → drop item = false)
    (last : ∀ item, s.getLast? = some item → drop item = false) : withoutEnds drop s = s := by
  rw [withoutEnds, dropWhile_of_head first, dropWhile_of_head, List.reverse_reverse]
  intro item isLast
  rw [List.head?_reverse] at isLast
  exact last item isLast

theorem dropWhile_of_all {front s : List α} (all : ∀ item ∈ front, drop item = true)
    (first : ∀ item, s.head? = some item → drop item = false) :
    (front ++ s).dropWhile drop = s := by
  rw [List.dropWhile_append_of_pos all, dropWhile_of_head first]

/-- A list whose ends stay, behind and before what goes. -/
theorem withoutEnds_between {front s back : List α} (nonempty : s ≠ [])
    (allFront : ∀ item ∈ front, drop item = true) (allBack : ∀ item ∈ back, drop item = true)
    (first : ∀ item, s.head? = some item → drop item = false)
    (last : ∀ item, s.getLast? = some item → drop item = false) :
    withoutEnds drop (front ++ s ++ back) = s := by
  have firstBoth : ∀ item, (s ++ back).head? = some item → drop item = false := by
    cases s with
    | nil => exact absurd rfl nonempty
    | cons own rest => exact first
  have lastReversed : ∀ item, s.reverse.head? = some item → drop item = false := by
    intro item isLast
    rw [List.head?_reverse] at isLast
    exact last item isLast
  rw [withoutEnds, List.append_assoc, dropWhile_of_all allFront firstBoth, List.reverse_append,
    dropWhile_of_all (fun item member => allBack item (List.mem_reverse.mp member)) lastReversed,
    List.reverse_reverse]

/-- Once a condition fails for good, the items up to there are those that meet it. -/
theorem takeWhile_eq_filter {keep : α → Bool} {items : List α}
    (forGood : items.Pairwise fun first second => keep second = true → keep first = true) :
    items.takeWhile keep = items.filter keep := by
  induction forGood with
  | nil => rfl
  | @cons first rest after _ ih =>
      by_cases kept : keep first = true
      · rw [List.takeWhile_cons_of_pos kept, List.filter_cons_of_pos kept, ih]
      · rw [List.takeWhile_cons_of_neg kept, List.filter_cons_of_neg kept]
        symm
        exact List.filter_eq_nil_iff.mpr fun second member held => kept (after second member held)

end ZabbixPortal.Foundation
