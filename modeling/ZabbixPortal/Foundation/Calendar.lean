import Mathlib.Data.Int.Order.Basic
import Mathlib.Data.Fintype.Basic
import Mathlib.Tactic.Linarith

/-! Civil dates and the days since 1970-01-01, in the proleptic Gregorian calendar. -/

set_option autoImplicit false

namespace ZabbixPortal.Foundation

structure CivilDate where
  year : ℤ
  month : ℤ
  day : ℤ
deriving DecidableEq, Repr

namespace CivilDate

def isLeap (year : ℤ) : Bool := year % 4 = 0 && (year % 100 ≠ 0 || year % 400 = 0)

def dayFromYear (year : ℤ) : ℤ :=
  365 * (year - 1970) + (year - 1969) / 4 - (year - 1901) / 100 + (year - 1601) / 400

/-- The days of a year before a month; month 13 is the next year's first. -/
def daysBefore (leap : Bool) (month : ℤ) : ℤ :=
  (367 * month - 362) / 12 - if month ≤ 2 then 0 else if leap then 1 else 2

def daysIn (year month : ℤ) : ℤ := daysBefore (isLeap year) (month + 1) - daysBefore (isLeap year) month

def dayNumber (date : CivilDate) : ℤ :=
  dayFromYear date.year + daysBefore (isLeap date.year) date.month + (date.day - 1)

structure Valid (date : CivilDate) : Prop where
  month : 1 ≤ date.month ∧ date.month ≤ 12
  day : 1 ≤ date.day ∧ date.day ≤ daysIn date.year date.month

def yearOf (number : ℤ) : ℤ :=
  let guess := 1970 + 400 * number / 146097
  if number < dayFromYear guess then guess - 1
  else if dayFromYear (guess + 1) ≤ number then guess + 1
  else guess

def monthIn (leap : Bool) (dayOfYear : ℤ) : ℤ :=
  let correction := if dayOfYear < daysBefore leap 3 then 0 else if leap then 1 else 2
  (12 * (dayOfYear + correction) + 373) / 367

def dateOf (number : ℤ) : CivilDate :=
  let year := yearOf number
  let dayOfYear := number - dayFromYear year
  let month := monthIn (isLeap year) dayOfYear
  ⟨year, month, dayOfYear - daysBefore (isLeap year) month + 1⟩

section Years

theorem isLeap_iff (year : ℤ) :
    isLeap year = true ↔ year % 4 = 0 ∧ (year % 100 ≠ 0 ∨ year % 400 = 0) := by
  simp [isLeap]

theorem dayFromYear_succ (year : ℤ) :
    dayFromYear (year + 1) = dayFromYear year + daysBefore (isLeap year) 13 := by
  have leap := isLeap_iff year
  unfold dayFromYear
  cases kind : isLeap year with
  | true =>
      have long := leap.mp kind
      rw [show daysBefore true 13 = 366 by decide]
      omega
  | false =>
      have short := mt leap.mpr (by rw [kind]; decide)
      rw [show daysBefore false 13 = 365 by decide]
      omega

theorem dayFromYear_mono {left right : ℤ} (before : left < right) :
    dayFromYear (left + 1) ≤ dayFromYear right := by
  unfold dayFromYear
  omega

theorem yearOf_bounds (number : ℤ) :
    dayFromYear (yearOf number) ≤ number ∧ number < dayFromYear (yearOf number + 1) := by
  unfold yearOf
  dsimp only
  split
  · next early =>
      refine ⟨?_, by rw [Int.sub_add_cancel]; exact early⟩
      unfold dayFromYear at early ⊢
      omega
  · next reached =>
      split
      · next late =>
          refine ⟨late, ?_⟩
          unfold dayFromYear at late ⊢
          omega
      · next within =>
          exact ⟨not_lt.mp reached, not_le.mp within⟩

end Years

section Months

theorem monthIn_bounds (leap : Bool) {dayOfYear : ℤ} (lower : 0 ≤ dayOfYear)
    (upper : dayOfYear < daysBefore leap 13) :
    (1 ≤ monthIn leap dayOfYear ∧ monthIn leap dayOfYear ≤ 12) ∧
      daysBefore leap (monthIn leap dayOfYear) ≤ dayOfYear ∧
      dayOfYear < daysBefore leap (monthIn leap dayOfYear + 1) := by
  have checked : ∀ leap : Bool, ∀ day : Fin 366, (day.val : ℤ) < daysBefore leap 13 →
      (1 ≤ monthIn leap day.val ∧ monthIn leap day.val ≤ 12) ∧
        daysBefore leap (monthIn leap day.val) ≤ day.val ∧
        (day.val : ℤ) < daysBefore leap (monthIn leap day.val + 1) := by
    decide +kernel
  have longest : daysBefore leap 13 ≤ 366 := by
    cases leap <;> decide
  have counted : ((dayOfYear.toNat : ℕ) : ℤ) = dayOfYear := Int.toNat_of_nonneg lower
  have found := checked leap ⟨dayOfYear.toNat, by omega⟩
  dsimp only at found
  rw [counted] at found
  exact found upper

end Months

theorem dayNumber_dateOf (number : ℤ) : (dateOf number).dayNumber = number := by
  unfold dateOf dayNumber
  dsimp only
  omega

theorem dateOf_valid (number : ℤ) : (dateOf number).Valid := by
  obtain ⟨lower, upper⟩ := yearOf_bounds number
  rw [dayFromYear_succ] at upper
  obtain ⟨month, started, ended⟩ := monthIn_bounds (isLeap (yearOf number))
    (show 0 ≤ number - dayFromYear (yearOf number) by omega) (by omega)
  refine ⟨month, ?_⟩
  unfold dateOf daysIn
  dsimp only
  omega

/-- The day of a valid date within its year. -/
theorem Valid.within {date : CivilDate} (valid : date.Valid) :
    dayFromYear date.year ≤ date.dayNumber ∧ date.dayNumber < dayFromYear (date.year + 1) := by
  obtain ⟨⟨firstMonth, lastMonth⟩, firstDay, lastDay⟩ := valid
  rw [dayFromYear_succ]
  unfold daysIn at lastDay
  unfold dayNumber
  unfold daysBefore at *
  cases kind : isLeap date.year with
  | true => simp only [kind, if_true] at *; omega
  | false => simp only [kind, Bool.false_eq_true, if_false] at *; omega

/-- A date is of a year or later from the year's first day on. -/
theorem le_year_iff (year number : ℤ) : year ≤ (dateOf number).year ↔ dayFromYear year ≤ number := by
  obtain ⟨lower, upper⟩ := yearOf_bounds number
  have found : (dateOf number).year = yearOf number := rfl
  rw [found]
  constructor
  · intro late
    unfold dayFromYear at *
    omega
  · intro late
    by_contra early
    have before := dayFromYear_mono (not_le.mp early)
    omega

end CivilDate

end ZabbixPortal.Foundation
