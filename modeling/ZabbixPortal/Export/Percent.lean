import ZabbixPortal.Foundation.Decimal
import ZabbixPortal.Services.SnapshotText
import Mathlib.Data.List.Find

/-! Percentages as the report and the page print them, over exact decimals. -/

set_option autoImplicit false

namespace ZabbixPortal.Export

open Foundation
open Services (toFixed dropZeros NO_DATA)

/-- `Number(value.toFixed(digits)) >= target` -/
def readsAtLeast (value target : ℚ) (digits : Nat) : Bool :=
  (signedDecimalValue (toFixed value digits)).any fun read => target ≤ read

/-- `(Math.trunc(value * 1e8) / 1e8).toFixed(8)` -/
def cutText (value : ℚ) : List Char :=
  let cut := ⌊|value| * 10 ^ 8⌋
  toFixed ((if value < 0 then -cut else cut) / 10 ^ 8) 8

/-- No value stands for a missing or a non-finite one. -/
def percentText (value : Option ℚ) (target : ℚ) : String :=
  match value with
  | none => NO_DATA
  | some value =>
      let met : Bool := target ≤ value
      match [2, 4, 6, 8].find? fun d => readsAtLeast value target d == met with
      | none => .ofList (cutText value ++ ['%'])
      | some digits => .ofList (dropZeros (toFixed value digits) ++ ['%'])

namespace Page

/-- `replace(new RegExp(…), '$1')`, for decimals of which the first few stay. -/
def dropZeros (digits : Nat) (text : List Char) : List Char :=
  let whole := text.takeWhile (· ≠ '.')
  let decimals := (text.dropWhile (· ≠ '.')).tail
  if decimals.length < digits then text
  else whole ++ '.' ::
    (decimals.take digits ++ ((decimals.drop digits).reverse.dropWhile (· = '0')).reverse)

/-- The page's copy; `digits` is two unless its caller says otherwise. -/
def percentText (value target : ℚ) (digits : Nat) : String :=
  let met : Bool := target ≤ value
  let steps := [digits, 4, 6, 8].filter (digits ≤ ·)
  match steps.find? fun d => readsAtLeast value target d == met with
  | none => .ofList (cutText value ++ ['%'])
  | some found =>
      let text := toFixed value found
      .ofList ((if found = digits then text else dropZeros digits text) ++ ['%'])

end Page

/-- `Number(text.replace('%', ''))`, exactly. -/
def readBack (text : String) : Option ℚ := signedDecimalValue (text.toList.erase '%')

def Prints (text : List Char) (digits : Nat) (value : ℚ) : Prop :=
  ∃ whole fraction, DecimalParts whole fraction ∧ text = whole ++ '.' :: fraction ∧
    fraction.length = digits ∧
    value = (Nat.ofDigitChars 10 (whole ++ fraction) 0 : ℚ) / 10 ^ digits

namespace Prints

variable {text : List Char} {digits : Nat} {value : ℚ}

theorem signedDecimalValue (prints : Prints text digits value) :
    Foundation.signedDecimalValue text = some value := by
  obtain ⟨whole, fraction, parts, rfl, rfl, rfl⟩ := prints
  exact parts.signedDecimalValue

theorem hasDecimals (prints : Prints text digits value) : HasDecimals digits value := by
  obtain ⟨whole, fraction, -, -, -, rfl⟩ := prints
  exact ⟨Nat.ofDigitChars 10 (whole ++ fraction) 0, by push_cast; rfl⟩

theorem readBack (prints : Prints text digits value) :
    Export.readBack (.ofList (text ++ ['%'])) = some value := by
  have number := prints.signedDecimalValue
  obtain ⟨whole, fraction, parts, rfl, -, -⟩ := prints
  have absent : '%' ∉ whole ++ '.' :: fraction := by
    intro member
    rcases List.mem_append.mp member with inWhole | inRest
    · exact absurd (parts.whole_digits _ inWhole) (by decide)
    · rcases List.mem_cons.mp inRest with point | inFraction
      · exact absurd point (by decide)
      · exact absurd (parts.fraction_digits _ inFraction) (by decide)
  rw [Export.readBack, String.toList_ofList, List.erase_append_right _ absent]
  simpa using number

/-- Dropping zeros keeps the number and at least two decimals. -/
theorem dropZeros (prints : Prints text digits value) (enough : 2 ≤ digits) :
    ∃ kept, 2 ≤ kept ∧ kept ≤ digits ∧ Prints (Services.dropZeros text) kept value := by
  obtain ⟨whole, fraction, parts, rfl, rfl, rfl⟩ := prints
  obtain ⟨zeros, split⟩ := exists_trailing_zeros (fraction.drop 2)
  have stripped : fraction = (fraction.take 2 ++
      ((fraction.drop 2).reverse.dropWhile (· = '0')).reverse) ++ List.replicate zeros '0' := by
    rw [List.append_assoc, ← split, List.take_append_drop]
  have text : Services.dropZeros (whole ++ '.' :: fraction) = whole ++ '.' :: (fraction.take 2 ++
      ((fraction.drop 2).reverse.dropWhile (· = '0')).reverse) := by
    simp only [Services.dropZeros, parts.takeWhile_point, parts.dropWhile_point, List.tail_cons]
    rw [if_neg (by omega)]
  have atLeast : 2 ≤ (fraction.take 2 ++
      ((fraction.drop 2).reverse.dropWhile (· = '0')).reverse).length := by
    rw [List.length_append, List.length_take]
    omega
  generalize fraction.take 2 ++ ((fraction.drop 2).reverse.dropWhile (· = '0')).reverse = kept
    at stripped text atLeast
  have shorter : kept.length ≤ fraction.length := by
    rw [stripped, List.length_append]
    omega
  have keptDigits : ∀ c ∈ kept, c.isDigit = true := fun c member =>
    parts.fraction_digits c (by rw [stripped]; exact List.mem_append_left _ member)
  refine ⟨kept.length, atLeast, shorter, whole, kept, ⟨parts.whole_ne, parts.whole_digits,
    keptDigits⟩, text, rfl, ?_⟩
  exact DecimalParts.value_of_zeros stripped

theorem dropZeros_two (prints : Prints text 2 value) : Services.dropZeros text = text := by
  obtain ⟨whole, fraction, parts, rfl, two, -⟩ := prints
  simp only [Services.dropZeros, parts.takeWhile_point, parts.dropWhile_point, List.tail_cons]
  rw [if_neg (by omega), List.drop_of_length_le two.le, List.take_of_length_le two.le]
  simp

end Prints

theorem toFixed_eq (value : ℚ) {digits : Nat} (nonneg : 0 ≤ value) (positive : 0 < digits) :
    toFixed value digits =
      (toString ((round (value * 10 ^ digits)).toNat / 10 ^ digits)).toList ++ '.' ::
        (List.replicate (digits - (toString ((round (value * 10 ^ digits)).toNat % 10 ^ digits)).toList.length) '0' ++
          (toString ((round (value * 10 ^ digits)).toNat % 10 ^ digits)).toList) := by
  simp only [toFixed, abs_of_nonneg nonneg, not_lt.mpr nonneg, positive.ne', ↓reduceIte,
    List.nil_append, round_eq]
  rfl

/-- What `toFixed` writes is the nearest number with that many decimals. -/
theorem toFixed_prints {value : ℚ} {digits : Nat} (nonneg : 0 ≤ value) (positive : 0 < digits) :
    Prints (toFixed value digits) digits (nearest digits value) := by
  have fits : (round (value * 10 ^ digits)).toNat % 10 ^ digits < 10 ^ digits :=
    Nat.mod_lt _ (by positivity)
  refine ⟨_, _, ⟨?_, fun c => isDigit_of_mem_toString, ?_⟩, toFixed_eq value nonneg positive,
    length_padded positive fits, ?_⟩
  · rw [Nat.toString_eq_repr, Nat.toList_repr]
    exact Nat.toDigits_ne_nil
  · intro c member
    rcases List.mem_append.mp member with padding | written
    · rw [List.eq_of_mem_replicate padding]
      rfl
    · exact isDigit_of_mem_toString written
  · have whole : Nat.ofDigitChars 10
        (toString ((round (value * 10 ^ digits)).toNat / 10 ^ digits)).toList 0 =
          (round (value * 10 ^ digits)).toNat / 10 ^ digits := by
      rw [Nat.toString_eq_repr, Nat.toList_repr, Nat.ofDigitChars_ten_toDigits]
    rw [ofDigitChars_padded positive fits, whole, Nat.div_add_mod, nearest]
    have unsigned : 0 ≤ round (value * 10 ^ digits) := by
      rw [round_eq]
      positivity
    congr 1
    exact_mod_cast (Int.toNat_of_nonneg unsigned).symm

def KeepsSide (value target : ℚ) (digits : Nat) : Prop :=
  target ≤ nearest digits value ↔ target ≤ value

instance (value target : ℚ) (digits : Nat) : Decidable (KeepsSide value target digits) :=
  inferInstanceAs (Decidable (_ ↔ _))

section Rule

variable {value target : ℚ} (nonneg : 0 ≤ value)

include nonneg

theorem readsAtLeast_eq {digits : Nat} (positive : 0 < digits) :
    readsAtLeast value target digits = decide (target ≤ nearest digits value) := by
  rw [readsAtLeast, (toFixed_prints nonneg positive).signedDecimalValue]
  rfl

theorem readsAtLeast_beq {digits : Nat} (positive : 0 < digits) :
    (readsAtLeast value target digits == decide (target ≤ value)) =
      decide (KeepsSide value target digits) := by
  rw [readsAtLeast_eq nonneg positive]
  by_cases rounded : target ≤ nearest digits value <;> by_cases met : target ≤ value <;>
    simp [KeepsSide, rounded, met]

/-- The first of the four precisions that keeps the side. -/
theorem find_steps :
    ([2, 4, 6, 8].find? fun d => readsAtLeast value target d == decide (target ≤ value)) =
      [2, 4, 6, 8].find? fun d => KeepsSide value target d := by
  apply List.find?_congr
  intro digits member
  exact readsAtLeast_beq nonneg (by simp at member; omega)

theorem cutText_prints : Prints (cutText value) 8 (⌊value * 10 ^ 8⌋ / 10 ^ 8) := by
  have unsigned : (0 : ℚ) ≤ ⌊value * 10 ^ 8⌋ / 10 ^ 8 := by positivity
  have printed := @toFixed_prints _ 8 unsigned (by decide)
  have exact' : nearest 8 ((⌊value * 10 ^ 8⌋ : ℚ) / 10 ^ 8) = ⌊value * 10 ^ 8⌋ / 10 ^ 8 :=
    nearest_eq_of_close ⟨_, rfl⟩ (by rw [sub_self, abs_zero]; positivity)
  rw [exact'] at printed
  simpa only [cutText, not_lt.mpr nonneg, ↓reduceIte, abs_of_nonneg nonneg] using printed

/-- What is printed, by the precision it took: two decimals, one of the longer ones with zeros
dropped, or eight decimals cut. -/
theorem percentText_cases :
    ∃ text digits shown, percentText (some value) target = .ofList (text ++ ['%']) ∧
      Prints text digits shown ∧
      (KeepsSide value target 2 ∧ digits = 2 ∧ shown = nearest 2 value ∨
        (∃ step ∈ [4, 6, 8], ¬ KeepsSide value target 2 ∧ KeepsSide value target step ∧
          2 ≤ digits ∧ digits ≤ step ∧ shown = nearest step value) ∨
        (∀ step ∈ [2, 4, 6, 8], ¬ KeepsSide value target step) ∧ digits = 8 ∧
          shown = ⌊value * 10 ^ 8⌋ / 10 ^ 8) := by
  have found := @find_steps value target nonneg
  cases step : [2, 4, 6, 8].find? fun d => KeepsSide value target d with
  | none =>
      rw [step] at found
      refine ⟨cutText value, 8, _, ?_, cutText_prints nonneg, .inr (.inr ⟨?_, rfl, rfl⟩)⟩
      · simp only [percentText, found]
      · intro digits member
        simpa using List.find?_eq_none.mp step digits member
  | some digits =>
      rw [step] at found
      have member := List.mem_of_find?_eq_some step
      have keeps : KeepsSide value target digits := by simpa using List.find?_some step
      have atLeast : 2 ≤ digits := by simp at member; omega
      obtain ⟨kept, two, fewer, printed⟩ :=
        (toFixed_prints nonneg (by omega : 0 < digits)).dropZeros atLeast
      refine ⟨_, kept, _, by simp only [percentText, found], printed, ?_⟩
      by_cases first : KeepsSide value target 2
      · have same : digits = 2 := by
          simp [first] at step
          exact step.symm
        subst same
        exact .inl ⟨first, by omega, rfl⟩
      · refine .inr (.inl ⟨digits, ?_, first, keeps, two, fewer, rfl⟩)
        rcases List.mem_cons.mp member with rfl | longer
        · exact absurd keeps first
        · exact longer

end Rule

/-- The page starts at two decimals, as the report does. -/
theorem page_percentText_eq {value target : ℚ} (nonneg : 0 ≤ value) :
    Page.percentText value target 2 = percentText (some value) target := by
  have steps : ([2, 4, 6, 8].filter (2 ≤ ·) : List Nat) = [2, 4, 6, 8] := by decide
  simp only [Page.percentText, percentText, steps]
  cases [2, 4, 6, 8].find? fun d => readsAtLeast value target d == decide (target ≤ value) with
  | none => rfl
  | some found =>
      by_cases two : found = 2
      · subst two
        simp only [↓reduceIte, (toFixed_prints nonneg (by decide)).dropZeros_two]
      · simp only [two, ↓reduceIte]
        rfl

/-- The snapshot's rule compares doubles; it is this one wherever they are exact. -/
theorem services_percentText_eq {value target : ℚ}
    (exactly : ∀ digits ∈ [2, 4, 6, 8], toNumber (.ofList (toFixed value digits)) =
      signedDecimalValue (toFixed value digits)) :
    Services.percentText (some value) (some target) = percentText (some value) target := by
  have percent : "%" = String.ofList ['%'] := rfl
  have floor (number : ℚ) : number.floor = ⌊number⌋ := rfl
  have cut : toFixed ((if value < 0 then -(⌊|value| * 10 ^ 8⌋ : ℚ) else ⌊|value| * 10 ^ 8⌋) /
      10 ^ 8) 8 = cutText value := by
    rw [cutText]
    split <;> push_cast <;> rfl
  unfold Services.percentText percentText
  generalize toNumber = number at exactly ⊢
  simp only [percent, ← String.ofList_append, floor, cut]
  rw [@List.find?_congr _ _ (fun d => readsAtLeast value target d == decide (target ≤ value)) _ ?_]
  · cases [2, 4, 6, 8].find? fun d => readsAtLeast value target d == decide (target ≤ value) <;> rfl
  · intro digits member
    rw [exactly digits member, readsAtLeast]
    cases signedDecimalValue (toFixed value digits) <;> rfl

/-- A printed percentage never crosses the target, and the page prints what the report does. -/
theorem percentText_keeps_side {value target : ℚ} (range : 0 ≤ value ∧ value ≤ 100)
    (few : HasDecimals 8 target) :
    (∃ shown, readBack (percentText (some value) target) = some shown ∧
      (target ≤ shown ↔ target ≤ value)) ∧
    Page.percentText value target 2 = percentText (some value) target := by
  refine ⟨?_, page_percentText_eq range.1⟩
  obtain ⟨text, digits, shown, written, printed, first | ⟨step, -, -, keeps, -, -, rfl⟩ | cut⟩ :=
    @percentText_cases value target range.1
  · obtain ⟨keeps, -, rfl⟩ := first
    exact ⟨_, by rw [written, printed.readBack], keeps⟩
  · exact ⟨_, by rw [written, printed.readBack], keeps⟩
  · obtain ⟨-, -, rfl⟩ := cut
    exact ⟨_, by rw [written, printed.readBack], le_floor_iff few⟩

theorem percentText_keeps_side_short :
    (∃ shown, readBack (percentText (some (98996 / 1000)) 99) = some shown ∧
      (99 ≤ shown ↔ (99 : ℚ) ≤ 98996 / 1000)) ∧
    Page.percentText (98996 / 1000) 99 2 = percentText (some (98996 / 1000)) 99 :=
  percentText_keeps_side (by norm_num) ⟨9900000000, by norm_num⟩

example : percentText (some (98999999999 / 1000000000)) 99 = "98.99999999%" := by decide +kernel

end ZabbixPortal.Export
