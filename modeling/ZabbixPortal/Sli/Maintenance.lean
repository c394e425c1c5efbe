import ZabbixPortal.Sli.Intervals
import ZabbixPortal.Sli.Time

/-! Zabbix maintenance periods as concrete windows, by the schedule rules of the Zabbix server. -/

set_option autoImplicit false

namespace ZabbixPortal.Sli

open Foundation

/-- A period of a maintenance. The numbers are what `Number(…) || 0` makes of the fields: one
that is absent is zero. -/
structure ZTimeperiod where
  /-- 0 one-time, 2 daily, 3 weekly, 4 monthly. -/
  timeperiod_type : String
  /-- Daily: every N days. Weekly: every N weeks. Monthly by weekday: week of the month, 1 to 4,
  5 = last. -/
  every : ℤ
  /-- Monthly: bitmask of months, January = 1 to December = 2048. -/
  month : ℕ
  /-- Weekly and monthly: bitmask of weekdays, Monday = 1 to Sunday = 64. -/
  dayofweek : ℕ
  /-- Monthly: day of the month, 0 when the period is set by weekday. -/
  day : ℤ
  /-- Seconds after midnight. -/
  start_time : ℤ
  period : ℤ
  /-- One-time: the start, Unix seconds. -/
  start_date : ℤ
deriving DecidableEq, Repr

structure ZMaintenance where
  active_since : ℤ
  active_till : ℤ
  timeperiods : List ZTimeperiod
deriving DecidableEq, Repr

def dayNumber (date : CivilDate) : ℤ := dateUtc date.year date.month date.day / 86400

end ZabbixPortal.Sli
