import Mathlib.Algebra.Order.Round
import Mathlib.Data.List.TakeWhile
import Mathlib.Data.Rat.Floor
import Mathlib.Tactic.Linarith
import Mathlib.Tactic.FieldSimp
import Mathlib.Tactic.Positivity

/-! Decimal texts as exact numbers, and rounding to a number of decimals. -/

set_option autoImplicit false

namespace ZabbixPortal.Foundation

/-- The exact number a text of digits and at most one point names. -/
def decimalValue (text : List Char) : Option ℚ :=
  let whole := text.takeWhile Char.isDigit
  match text.dropWhile Char.isDigit with
  | [] => if whole.isEmpty then none else some (Nat.ofDigitChars 10 whole 0)
  | '.' :: fraction =>
      if !fraction.all Char.isDigit || (whole.isEmpty && fraction.isEmpty) then none
      else some (Nat.ofDigitChars 10 (whole ++ fraction) 0 / 10 ^ fraction.length)
  | _ => none

def signedDecimalValue : List Char → Option ℚ
  | '-' :: digits => (decimalValue digits).map fun value => -value
  | digits => decimalValue digits

structure DecimalParts (whole fraction : List Char) : Prop where
  whole_ne : whole ≠ []
  whole_digits : ∀ c ∈ whole, c.isDigit = true
  fraction_digits : ∀ c ∈ fraction, c.isDigit = true

namespace DecimalParts

variable {whole fraction : List Char}

theorem takeWhile_digits (parts : DecimalParts whole fraction) (rest : List Char) :
    (whole ++ '.' :: rest).takeWhile Char.isDigit = whole := by
  rw [List.takeWhile_append_of_pos parts.whole_digits]
  simp

theorem dropWhile_digits (parts : DecimalParts whole fraction) (rest : List Char) :
    (whole ++ '.' :: rest).dropWhile Char.isDigit = '.' :: rest := by
  rw [List.dropWhile_append_of_pos parts.whole_digits]
  simp

theorem decimalValue (parts : DecimalParts whole fraction) :
    Foundation.decimalValue (whole ++ '.' :: fraction) =
      some ((Nat.ofDigitChars 10 (whole ++ fraction) 0 : ℚ) / 10 ^ fraction.length) := by
  have digits : fraction.all Char.isDigit = true := List.all_eq_true.mpr parts.fraction_digits
  simp only [Foundation.decimalValue, parts.takeWhile_digits, parts.dropWhile_digits, digits]
  simp [parts.whole_ne]

theorem signedDecimalValue (parts : DecimalParts whole fraction) :
    Foundation.signedDecimalValue (whole ++ '.' :: fraction) =
      some ((Nat.ofDigitChars 10 (whole ++ fraction) 0 : ℚ) / 10 ^ fraction.length) := by
  rw [← parts.decimalValue]
  cases whole with
  | nil => exact absurd rfl parts.whole_ne
  | cons first rest =>
      have digit := parts.whole_digits first (by simp)
      have notMinus : first ≠ '-' := by
        rintro rfl
        revert digit
        decide
      simp [Foundation.signedDecimalValue, notMinus]

private theorem ne_point (parts : DecimalParts whole fraction) :
    ∀ c ∈ whole, decide (c ≠ '.') = true := by
  intro c member
  have digit := parts.whole_digits c member
  rw [decide_eq_true_eq]
  rintro rfl
  exact absurd digit (by decide)

theorem takeWhile_point (parts : DecimalParts whole fraction) (rest : List Char) :
    (whole ++ '.' :: rest).takeWhile (· ≠ '.') = whole := by
  rw [List.takeWhile_append_of_pos parts.ne_point]
  simp

theorem dropWhile_point (parts : DecimalParts whole fraction) (rest : List Char) :
    (whole ++ '.' :: rest).dropWhile (· ≠ '.') = '.' :: rest := by
  rw [List.dropWhile_append_of_pos parts.ne_point]
  simp

/-- Zeros at the end of the decimals do not change the number. -/
theorem value_of_zeros {zeros : Nat} {kept : List Char}
    (stripped : fraction = kept ++ List.replicate zeros '0') :
    (Nat.ofDigitChars 10 (whole ++ fraction) 0 / 10 ^ fraction.length : ℚ) =
      Nat.ofDigitChars 10 (whole ++ kept) 0 / 10 ^ kept.length := by
  subst stripped
  rw [← List.append_assoc, Nat.ofDigitChars_append, Nat.ofDigitChars_replicate_zero]
  simp only [List.length_append, List.length_replicate, pow_add]
  push_cast
  field_simp

end DecimalParts

theorem exists_trailing_zeros (digits : List Char) :
    ∃ zeros, digits =
      (digits.reverse.dropWhile (· = '0')).reverse ++ List.replicate zeros '0' := by
  refine ⟨(digits.reverse.takeWhile (· = '0')).length, ?_⟩
  have zeros : digits.reverse.takeWhile (· = '0') =
      List.replicate (digits.reverse.takeWhile (· = '0')).length '0' :=
    List.eq_replicate_length.mpr fun c member => by
      simpa using List.mem_takeWhile_imp member
  rw [← List.reverse_inj, List.reverse_append, List.reverse_replicate, List.reverse_reverse,
    ← zeros, List.takeWhile_append_dropWhile]

/-- A digit text of a number, filled with zeros from the left to a width. -/
theorem ofDigitChars_padded {number width : Nat} (positive : 0 < width)
    (fits : number < 10 ^ width) (digits : List Char) :
    Nat.ofDigitChars 10 (digits ++ (List.replicate (width - (toString number).toList.length) '0' ++
        (toString number).toList)) 0 = 10 ^ width * Nat.ofDigitChars 10 digits 0 + number := by
  have written : (toString number).toList = Nat.toDigits 10 number := Nat.toList_repr
  have short : (Nat.toDigits 10 number).length ≤ width :=
    (Nat.length_toDigits_le_iff (by decide) positive).mpr fits
  rw [written, Nat.ofDigitChars_append, Nat.ofDigitChars_append, Nat.ofDigitChars_replicate_zero,
    Nat.ofDigitChars_eq_ofDigitChars_zero, Nat.ofDigitChars_ten_toDigits, ← mul_assoc, ← pow_add,
    Nat.add_sub_cancel' short]

theorem length_padded {number width : Nat} (positive : 0 < width) (fits : number < 10 ^ width) :
    (List.replicate (width - (toString number).toList.length) '0' ++
      (toString number).toList).length = width := by
  have written : (toString number).toList = Nat.toDigits 10 number := Nat.toList_repr
  have short : (Nat.toDigits 10 number).length ≤ width :=
    (Nat.length_toDigits_le_iff (by decide) positive).mpr fits
  rw [List.length_append, List.length_replicate, written, Nat.sub_add_cancel short]

theorem isDigit_of_mem_toString {number : Nat} {c : Char} (member : c ∈ (toString number).toList) :
    c.isDigit = true := by
  have written : (toString number).toList = Nat.toDigits 10 number := Nat.toList_repr
  rw [written] at member
  exact Nat.isDigit_of_mem_toDigits (by decide) (by decide) member

theorem toString_inj {number other : Nat}
    (same : (toString number).toList = (toString other).toList) : number = other := by
  have left : (toString number).toList = Nat.toDigits 10 number := Nat.toList_repr
  have right : (toString other).toList = Nat.toDigits 10 other := Nat.toList_repr
  rw [left, right] at same
  rw [← Nat.ofDigitChars_ten_toDigits (n := number), same, Nat.ofDigitChars_ten_toDigits]

/-- Rounding to a number of decimals, half up. -/
def nearest (digits : Nat) (value : ℚ) : ℚ := round (value * 10 ^ digits) / 10 ^ digits

def HasDecimals (digits : Nat) (value : ℚ) : Prop := ∃ units : ℤ, value = units / 10 ^ digits

theorem HasDecimals.mono {fewer digits : Nat} {value : ℚ} (few : HasDecimals fewer value)
    (within : fewer ≤ digits) : HasDecimals digits value := by
  obtain ⟨units, rfl⟩ := few
  obtain ⟨more, rfl⟩ := Nat.exists_eq_add_of_le within
  refine ⟨units * 10 ^ more, ?_⟩
  push_cast
  rw [pow_add]
  field_simp

theorem abs_sub_nearest_le (digits : Nat) (value : ℚ) :
    |value - nearest digits value| ≤ 1 / 2 / 10 ^ digits := by
  have positive : (0 : ℚ) < 10 ^ digits := by positivity
  have close := abs_sub_round (value * 10 ^ digits)
  have scale : (value - nearest digits value) * 10 ^ digits =
      value * 10 ^ digits - round (value * 10 ^ digits) := by
    rw [sub_mul, nearest, div_mul_cancel₀ _ positive.ne']
  rw [le_div_iff₀ positive]
  calc |value - nearest digits value| * 10 ^ digits
      = |(value - nearest digits value) * 10 ^ digits| := by
        rw [abs_mul, abs_of_pos positive]
    _ ≤ 1 / 2 := by rw [scale]; exact close

/-- A number with few decimals that stands close to a value is what the value rounds to. -/
theorem nearest_eq_of_close {digits : Nat} {value shown : ℚ} (few : HasDecimals digits shown)
    (close : |value - shown| < 1 / 2 / 10 ^ digits) : nearest digits value = shown := by
  obtain ⟨units, rfl⟩ := few
  have positive : (0 : ℚ) < 10 ^ digits := by positivity
  have scaled : |value * 10 ^ digits - units| < 1 / 2 := by
    have same : value * 10 ^ digits - units = (value - units / 10 ^ digits) * 10 ^ digits := by
      rw [sub_mul, div_mul_cancel₀ _ positive.ne']
    rw [same, abs_mul, abs_of_pos positive]
    exact (lt_div_iff₀ positive).mp close
  obtain ⟨below, above⟩ := abs_lt.mp scaled
  have rounded : round (value * 10 ^ digits) = units := by
    rw [round_eq, Int.floor_eq_iff]
    constructor <;> linarith
  rw [nearest, rounded]

/-- What rounds to few decimals rounds to the same with fewer places. -/
theorem nearest_eq_of_hasDecimals {fewer digits : Nat} {value : ℚ} (within : fewer ≤ digits)
    (few : HasDecimals fewer (nearest digits value)) :
    nearest fewer value = nearest digits value := by
  rcases within.eq_or_lt with rfl | strictly
  · rfl
  · apply nearest_eq_of_close few
    have wider : (10 : ℚ) ^ fewer < 10 ^ digits := pow_lt_pow_right₀ (by norm_num) strictly
    calc |value - nearest digits value|
        ≤ 1 / 2 / 10 ^ digits := abs_sub_nearest_le digits value
      _ < 1 / 2 / 10 ^ fewer := by
        apply div_lt_div_of_pos_left (by norm_num) (by positivity) wider

/-- Cutting does not cross a bound that has few decimals. -/
theorem le_floor_iff {digits : Nat} {target value : ℚ} (few : HasDecimals digits target) :
    target ≤ (⌊value * 10 ^ digits⌋ : ℚ) / 10 ^ digits ↔ target ≤ value := by
  obtain ⟨units, rfl⟩ := few
  have positive : (0 : ℚ) < 10 ^ digits := by positivity
  rw [div_le_div_iff_of_pos_right positive, Int.cast_le, Int.le_floor, div_le_iff₀ positive]

end ZabbixPortal.Foundation
