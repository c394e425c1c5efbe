import ZabbixPortal.Sli.IntervalMemory
import ZabbixPortal.Sli.IntervalsProperties
import ZabbixPortal.Sli.Maintenance
import ZabbixPortal.Sli.TimeProperties

/-! Maintenance windows against the schedule: every occurrence, however early it began, inside the
time the maintenance is active and the range asked for. -/

set_option autoImplicit false

namespace ZabbixPortal.Sli

open Foundation Foundation.HalfOpen

/-! ## The schedule -/

section Schedule

variable (zone : Zone) (m : ZMaintenance) (tp : ZTimeperiod)

end Schedule

/-! ## Days -/

section Days

theorem dayNumber_dateOf {n : ℤ} (modern : 100 ≤ (CivilDate.dateOf n).year) :
    dayNumber (CivilDate.dateOf n) = n := by
  have same := CivilDate.dayNumber_dateOf n
  rw [dayNumber, dateUtc_eq (by omega), utcMidnight]
  have whole : CivilDate.dayNumber ⟨(CivilDate.dateOf n).year, (CivilDate.dateOf n).month,
      (CivilDate.dateOf n).day⟩ = n := same
  rw [whole]
  omega

variable {zone : Zone} {m : ZMaintenance} {tp : ZTimeperiod}

end Days

/-! ## A zone that keeps its offset -/

section Constant

variable {zone : Zone} {m : ZMaintenance} {tp : ZTimeperiod}
  (constant : ∀ t, zone.offset t = zone.offset 0)

include constant

theorem clock_eq (t : ℤ) : zone.clock t = t + zone.offset 0 := by
  rw [Zone.clock, constant]

end Constant

/-! ## The windows -/

section Windows

variable {zone : Zone} {m : ZMaintenance}

/-- The local dates read for a range are late enough for `Date.UTC`: that of the start of the
maintenance, and that of the first instant an occurrence may have begun at. -/
structure DatesRead (zone : Zone) (m : ZMaintenance) (windowFrom : ℤ) : Prop where
  since : 100 ≤ (zone.localDate m.active_since).year
  reach : ∀ tp ∈ m.timeperiods, tp.timeperiod_type ≠ "0" →
    101 ≤ (zone.localDate (max windowFrom m.active_since - tp.period)).year

theorem DatesRead.later (constant : ∀ t, zone.offset t = zone.offset 0) {windowFrom mid : ℤ}
    (read : DatesRead zone m windowFrom) (after : windowFrom ≤ mid) : DatesRead zone m mid := by
  refine ⟨read.since, fun tp member recurring => (localYear_iff _ _).mpr ?_⟩
  refine ((localYear_iff _ _).mp (read.reach tp member recurring)).trans ?_
  rw [clock_eq constant, clock_eq constant]
  have larger : max windowFrom m.active_since ≤ max mid m.active_since := max_le_max_right _ after
  omega

/-- From the first Monday of June 2026 on, every fourth week from Saturday 22:00, for ten days;
and the last Sunday of every month. -/
def longOutage : ZMaintenance where
  active_since := 1780246800
  active_till := 1811782800
  timeperiods := [⟨"3", 4, 0, 32, 0, 79200, 864000, 0⟩, ⟨"4", 5, 4095, 64, 0, 0, 7200, 0⟩]

def utc : Zone where
  offset _ := 0
  bounded _ := by decide
  steady start := ⟨start, fun _ _ _ => rfl, fun _ _ _ => rfl⟩

end Windows

end ZabbixPortal.Sli
