import ZabbixPortal.Sli.Time

/-! Where the calendar is exact: a day starts at its first instant, and the months tile
time, unless the clocks of the zone move over that midnight. -/

set_option autoImplicit false

namespace ZabbixPortal.Sli

open Foundation

def Zone.start (zone : Zone) (midnight : ℤ) : ℤ :=
  midnight - zone.offset (midnight - zone.offset midnight)

/-- The clocks show a time before the midnight again after it. -/
def Zone.Returns (zone : Zone) (midnight change : ℤ) : Prop :=
  midnight - zone.offset (change - 1) < change ∧ change < midnight - zone.offset change

/-- Around a midnight the clocks move once at most. -/
private theorem around (zone : Zone) (midnight : ℤ) : ∃ change left right,
    ∀ t, midnight - 86400 ≤ t → t ≤ midnight + 86400 →
      (t < change ∧ zone.offset t = left) ∨ (change ≤ t ∧ zone.offset t = right) := by
  obtain ⟨change, before, after⟩ := zone.steady (midnight - 86400)
  refine ⟨change, zone.offset (midnight - 86400), zone.offset (midnight - 86400 + 2 * 86400), ?_⟩
  intro t lower upper
  rcases lt_or_ge t change with early | late
  · exact .inl ⟨early, before t lower early⟩
  · exact .inr ⟨late, after t late (by omega)⟩

section Day

variable (zone : Zone) (midnight : ℤ)

end Day

section Month

variable (zone : Zone) (midnight : ℤ)

end Month

section Texts

end Texts

section Calendar

variable (zone : Zone)

def utcMidnight (date : CivilDate) : ℤ := 86400 * date.dayNumber

variable {zone}

section Fields

/-! ### The fields of an instant -/

theorem localYear_iff (year t : ℤ) :
    year ≤ (zone.localDate t).year ↔ 86400 * CivilDate.dayFromYear year ≤ zone.clock t := by
  rw [Zone.localDate, CivilDate.le_year_iff]
  omega

theorem dateUtc_eq {year month day : ℤ} (modern : ¬ (0 ≤ year ∧ year ≤ 99)) :
    dateUtc year month day = utcMidnight ⟨year, month, day⟩ := by
  rw [dateUtc, if_neg modern]
  rfl

end Fields

section Day

variable {date : CivilDate}

end Day

section Month

variable {year mon : ℤ}

end Month

section Examples

/-- A zone without daylight saving time, seven hours east. -/
def jakarta : Zone where
  offset _ := 25200
  bounded _ := by decide
  steady start := ⟨start, fun _ _ _ => rfl, fun _ _ _ => rfl⟩

end Examples

end Calendar

end ZabbixPortal.Sli
