import ZabbixPortal.Export.Percent

/-! The figures of a workbook cell: the number it stores and the format Excel shows it in. -/

set_option autoImplicit false

namespace ZabbixPortal.Export

open Foundation
open Services (NO_DATA)

inductive Tone where
  | good | warn | bad | muted | none
deriving DecidableEq, Repr

inductive ColumnKind where
  | text | percent | duration | count | status
deriving DecidableEq, Repr

/-- What a person reads and the raw figure, where there is a finite one. -/
structure Cell where
  text : String
  n : Option ℚ
  tone : Tone
deriving DecidableEq, Repr

def toneOf (v : Option ℚ) (target : ℚ) : Tone :=
  match v with
  | none => .muted
  | some v => if target ≤ v then .good else .bad

def noData : Cell := { text := NO_DATA, n := none, tone := .muted }

def percent (v : Option ℚ) (target : ℚ) : Cell :=
  match v with
  | none => noData
  | some v => { text := percentText (some v) target, n := some v, tone := toneOf (some v) target }

def isNumeric : ColumnKind → Bool
  | .percent | .duration | .count => true
  | .text | .status => false

def usable (kind : ColumnKind) (n : Option ℚ) : Option ℚ :=
  n.filter fun n => kind = .percent || decide (0 ≤ n)

def MIN_DECIMALS : Nat := 4

def MAX_DECIMALS : Nat := 15

/-- The length of what `/\.(\d+)/` captures. -/
def capturedDecimals : List Char → Nat
  | [] => 0
  | '.' :: rest =>
      let digits := rest.takeWhile Char.isDigit
      if digits = [] then capturedDecimals rest else digits.length
  | _ :: rest => capturedDecimals rest

def percentDecimals (text : String) : Nat :=
  min MAX_DECIMALS (max MIN_DECIMALS (capturedDecimals text.toList))

structure Figure where
  n : ℚ
  decimals : Nat
deriving DecidableEq, Repr

/-- What a numeric cell stores, or nothing when it falls back to its text. -/
def stored (kind : ColumnKind) (cell : Cell) : Option Figure :=
  if isNumeric kind then
    (usable kind cell.n).map fun n =>
      { n, decimals := if kind = .percent then percentDecimals cell.text else 0 }
  else none

def percentFormat (decimals : Nat) : String :=
  .ofList ("0.".toList ++ List.replicate decimals '0' ++ "\\%".toList)

def formatDecimals (format : String) : Nat :=
  ((format.toList.dropWhile (· ≠ '.')).tail.takeWhile (· = '0')).length

/-- The number Excel shows in a format, rounded half away from zero. -/
def excelShows (format : String) (n : ℚ) : ℚ :=
  let digits := formatDecimals format
  if n < 0 then -nearest digits (-n) else nearest digits n

def percentShown (cell : Cell) : Option ℚ :=
  (stored .percent cell).map fun figure => excelShows (percentFormat figure.decimals) figure.n

theorem formatDecimals_percentFormat (decimals : Nat) :
    formatDecimals (percentFormat decimals) = decimals := by
  have point : (('0' :: '.' :: (List.replicate decimals '0' ++ ['\\', '%'])).dropWhile
      (· ≠ '.')).tail = List.replicate decimals '0' ++ ['\\', '%'] := by
    simp
  have zeros : ∀ c ∈ List.replicate decimals '0', decide (c = '0') = true := by
    intro c member
    rw [List.eq_of_mem_replicate member]
    rfl
  have text : (percentFormat decimals).toList =
      '0' :: '.' :: (List.replicate decimals '0' ++ ['\\', '%']) := by
    rw [percentFormat, String.toList_ofList]
    rfl
  rw [formatDecimals, text, point, List.takeWhile_append_of_pos zeros]
  simp

/-- The decimals of a printed number are the ones its cell asks for, from four on. -/
theorem Prints.percentDecimals {text : List Char} {digits : Nat} {value : ℚ}
    (prints : Prints text digits value) (positive : 0 < digits) (few : digits ≤ MAX_DECIMALS) :
    Export.percentDecimals (.ofList (text ++ ['%'])) = max MIN_DECIMALS digits := by
  obtain ⟨whole, fraction, parts, rfl, rfl, -⟩ := prints
  have captured : capturedDecimals (whole ++ '.' :: fraction ++ ['%']) = fraction.length := by
    have digits : (fraction ++ ['%']).takeWhile Char.isDigit = fraction := by
      rw [List.takeWhile_append_of_pos parts.fraction_digits]
      simp
    have skip : ∀ front : List Char, (∀ c ∈ front, c.isDigit = true) →
        capturedDecimals (front ++ '.' :: (fraction ++ ['%'])) = fraction.length := by
      intro front allDigits
      induction front with
      | nil =>
          rw [List.nil_append, capturedDecimals]
          simp only [digits]
          rw [if_neg (List.ne_nil_of_length_pos positive)]
      | cons first rest ih =>
          have notPoint : first ≠ '.' := by
            rintro rfl
            exact absurd (allDigits '.' (by simp)) (by decide)
          rw [List.cons_append, capturedDecimals]
          · exact ih fun c member => allDigits c (by simp [member])
          · exact notPoint
    simpa using skip whole parts.whole_digits
  rw [Export.percentDecimals, String.toList_ofList, captured]
  exact min_eq_right (max_le (by decide) few)

theorem percentShown_percent {value target shown : ℚ} {text : List Char} {digits : Nat}
    (nonneg : 0 ≤ value) (written : percentText (some value) target = .ofList (text ++ ['%']))
    (prints : Prints text digits shown) (positive : 0 < digits) (few : digits ≤ MAX_DECIMALS) :
    percentShown (percent (some value) target) = some (nearest (max MIN_DECIMALS digits) value) := by
  have decimals := prints.percentDecimals positive few
  simp only [percentShown, stored, isNumeric, usable, percent, written, decimals,
    ↓reduceIte, decide_true, Bool.true_or, Option.filter_some, Option.map_some, excelShows,
    formatDecimals_percentFormat, not_lt.mpr nonneg]

/-- Rounding again to the decimals of a rounded text changes nothing, from four decimals on. -/
theorem nearest_of_prints {value : ℚ} {text : List Char} {digits step : Nat}
    (prints : Prints text digits (nearest step value)) (fewer : digits ≤ step)
    (long : MIN_DECIMALS ≤ step) :
    nearest (max MIN_DECIMALS digits) value = nearest step value :=
  nearest_eq_of_hasDecimals (max_le long fewer)
    (prints.hasDecimals.mono (le_max_right MIN_DECIMALS digits))

/-- The workbook keeps a percentage on its side of the target exactly when four decimals do, or
when neither two nor four do but six or eight decimals do. -/
theorem percentShown_keeps_side_iff {value target : ℚ} (range : 0 ≤ value ∧ value ≤ 100) :
    (∃ shown, percentShown (percent (some value) target) = some shown ∧
      (target ≤ shown ↔ target ≤ value)) ↔
    KeepsSide value target 4 ∨
      ¬ KeepsSide value target 2 ∧ (KeepsSide value target 6 ∨ KeepsSide value target 8) := by
  obtain ⟨text, digits, shown, written, prints, two | ⟨step, member, missed, keeps, atLeast, fewer, rfl⟩ | cut⟩ :=
    @percentText_cases value target range.1
  · obtain ⟨keeps, rfl, -⟩ := two
    rw [percentShown_percent range.1 written prints (by decide) (by decide)]
    simp only [Option.some.injEq, exists_eq_left']
    constructor
    · exact .inl
    · rintro (four | ⟨missed, -⟩)
      · exact four
      · exact absurd keeps missed
  · have bounds : 4 ≤ step ∧ step ≤ 8 := by
      simp only [List.mem_cons, List.not_mem_nil, or_false] at member
      omega
    rw [percentShown_percent range.1 written prints (by omega) (fewer.trans (bounds.2.trans (by decide))),
      nearest_of_prints prints fewer bounds.1]
    simp only [Option.some.injEq, exists_eq_left']
    refine ⟨fun _ => ?_, fun _ => keeps⟩
    simp only [List.mem_cons, List.not_mem_nil, or_false] at member
    rcases member with rfl | rfl | rfl
    · exact .inl keeps
    · exact .inr ⟨missed, .inl keeps⟩
    · exact .inr ⟨missed, .inr keeps⟩
  · obtain ⟨missed, rfl, -⟩ := cut
    rw [percentShown_percent range.1 written prints (by decide) (by decide)]
    simp only [Option.some.injEq, exists_eq_left']
    constructor
    · intro keeps
      exact absurd keeps (missed 8 (by decide))
    · rintro (four | ⟨-, six | eight⟩)
      · exact absurd four (missed 4 (by decide))
      · exact absurd six (missed 6 (by decide))
      · exact absurd eight (missed 8 (by decide))

theorem percentShown_keeps_side_met :
    (∃ shown, percentShown (percent (some (98996 / 1000)) 99) = some shown ∧
      ((99 : ℚ) ≤ shown ↔ (99 : ℚ) ≤ 98996 / 1000)) ↔
    KeepsSide (98996 / 1000) 99 4 ∨
      ¬ KeepsSide (98996 / 1000) 99 2 ∧ (KeepsSide (98996 / 1000) 99 6 ∨ KeepsSide (98996 / 1000) 99 8) :=
  percentShown_keeps_side_iff (by norm_num)

/-- 99.99496 against 99.995 prints as "99.99%", and its cell shows 99.9950%. -/
theorem percentShown_crosses :
    ¬ ∃ shown, percentShown (percent (some (9999496 / 100000)) (99995 / 1000)) = some shown ∧
      ((99995 / 1000 : ℚ) ≤ shown ↔ (99995 / 1000 : ℚ) ≤ 9999496 / 100000) := by
  have shown : percentShown (percent (some (9999496 / 100000)) (99995 / 1000)) =
      some (99995 / 1000) := by decide +kernel
  rw [shown]
  norm_num

example : (percent (some (9999496 / 100000)) (99995 / 1000)).text = "99.99%" := by decide +kernel

end ZabbixPortal.Export
