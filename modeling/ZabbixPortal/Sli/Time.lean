import ZabbixPortal.Foundation.Calendar
import ZabbixPortal.Foundation.Number

/-! Calendar months in a named time zone, as Unix seconds. -/

set_option autoImplicit false

namespace ZabbixPortal.Sli

open Foundation

/-- A time zone: its UTC offset at every instant, in seconds and east positive. It changes
at most once in any two days. -/
structure Zone where
  offset : ℤ → ℤ
  bounded : ∀ t, -86400 < offset t ∧ offset t < 86400
  steady : ∀ start, ∃ change,
    (∀ t, start ≤ t → t < change → offset t = offset start) ∧
    (∀ t, change ≤ t → t ≤ start + 2 * 86400 → offset t = offset (start + 2 * 86400))

/-- `Date.UTC(year, month - 1, day) / 1000`: the years 0 to 99 stand for 1900 to 1999. -/
def dateUtc (year month day : ℤ) : ℤ :=
  let year := if 0 ≤ year ∧ year ≤ 99 then 1900 + year else year
  86400 * CivilDate.dayNumber ⟨year, month, day⟩

def Zone.clock (zone : Zone) (t : ℤ) : ℤ := t + zone.offset t

def Zone.localDate (zone : Zone) (t : ℤ) : CivilDate := CivilDate.dateOf (zone.clock t / 86400)

/-- The year as Intl writes it: counted in its era, without saying which. -/
def eraYear (year : ℤ) : ℤ := if 1 ≤ year then year else 1 - year

def zonedDate (t : ℤ) (zone : Zone) : CivilDate :=
  let date := zone.localDate t
  { date with year := eraYear date.year }

/-- UTC offset of the zone at `t`, from the date and time Intl gives of it. -/
def offsetSeconds (t : ℤ) (zone : Zone) : ℤ :=
  let date := zonedDate t zone
  let asUtc := dateUtc date.year date.month date.day + zone.clock t % 86400
  asUtc - t

def zonedDayStart (year month day : ℤ) (zone : Zone) : ℤ :=
  let guess := dateUtc year month day
  let first := guess - offsetSeconds guess zone
  -- Re-check at the corrected instant: across a DST change the offset differs.
  let second := guess - offsetSeconds first zone
  second

def zonedMonthStart (year month : ℤ) (zone : Zone) : ℤ := zonedDayStart year month 1 zone

/-- `/^(\d{4})-(0[1-9]|1[0-2])$/`, with the numbers of its groups. -/
def MONTH_RE (raw : String) : Option (ℤ × ℤ) :=
  match raw.toList with
  | [a, b, c, d, dash, e, f] =>
      if [a, b, c, d].all Char.isDigit ∧ dash = '-' ∧
          ((e = '0' ∧ f.isDigit ∧ f ≠ '0') ∨ (e = '1' ∧ f ∈ ['0', '1', '2'])) then
        some (valueIn 10 [a, b, c, d], valueIn 10 [e, f])
      else none
  | _ => none

/-- `YYYY-MM`, validated; none stands for anything but a string. -/
def parseMonth (raw : Option String) : Except String String :=
  match raw with
  | none => .error "month must be YYYY-MM, e.g. 2026-08."
  | some text =>
      if (MONTH_RE text).isSome then .ok text else .error "month must be YYYY-MM, e.g. 2026-08."

def nextMonth (year mon : ℤ) : ℤ × ℤ := if mon = 12 then (year + 1, 1) else (year, mon + 1)

def monthBounds (month : String) (zone : Zone) : Except String (ℤ × ℤ) :=
  match parseMonth (some month) with
  | .error message => .error message
  | .ok text =>
      -- `parseMonth` has matched it.
      let (year, mon) := (MONTH_RE text).getD (0, 1)
      let next := nextMonth year mon
      .ok (zonedMonthStart year mon zone, zonedMonthStart next.1 next.2 zone)

namespace Page

def offsetSeconds (t : ℤ) (zone : Zone) : ℤ :=
  let date := zonedDate t zone
  let asUtc := dateUtc date.year date.month date.day + zone.clock t % 86400
  asUtc - t

def zonedMonthStart (year month : ℤ) (zone : Zone) : ℤ :=
  let guess := dateUtc year month 1
  let first := guess - offsetSeconds guess zone
  guess - offsetSeconds first zone

def monthBounds (month : String) (zone : Zone) : Except String (ℤ × ℤ) :=
  match MONTH_RE month with
  | none => .error ("Bad month: " ++ month)
  | some (year, mon) =>
      let next := nextMonth year mon
      .ok (zonedMonthStart year mon zone, zonedMonthStart next.1 next.2 zone)

end Page

end ZabbixPortal.Sli
