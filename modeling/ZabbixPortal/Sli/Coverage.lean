import ZabbixPortal.Foundation.Text
import ZabbixPortal.Sli.Delay
import ZabbixPortal.Sli.Engine
import ZabbixPortal.Sli.Trends

/-! Collected time: the hours in which the ping item of each host really collected data,
from its hourly trends and, for the hours not in them yet, from its raw history. -/

set_option autoImplicit false

namespace ZabbixPortal.Sli

open Foundation

structure IcmpItem extends ZIcmpItem where
  itemid : String
  key_ : String
  delay : String
deriving DecidableEq, Repr

structure ZTrend where
  itemid : String
  clock : ℤ
  num : ℤ
deriving DecidableEq, Repr

structure ZHistory where
  itemid : String
  clock : ℤ
deriving DecidableEq, Repr

/-- What Zabbix answers to a request for trends or history, and in which order requests
that run side by side end. -/
structure CoverageApi where
  trendGet : List String → ℤ → ℤ → List ZTrend
  historyGet : List String → ℤ → ℤ → List ZHistory
  trendEnds : List TrendSlice → List TrendSlice
  historyEnds : List (List String) → List (List String)

def isPing (item : IcmpItem) : Bool :=
  item.key_ = "icmpping" || startsWith item.key_ "icmpping["

def keepPing (byHost : OrderedMap String IcmpItem) (item : IcmpItem) :
    OrderedMap String IcmpItem :=
  match byHost.get? item.hostid with
  | none => byHost.set item.hostid item
  | some prev =>
      if prev.key_ ≠ "icmpping" ∧ item.key_ = "icmpping" then byHost.set item.hostid item
      else byHost

/-- One item per host: the plain `icmpping` if present. -/
def itemByHost (icmpItems : List IcmpItem) : OrderedMap String IcmpItem :=
  (icmpItems.filter isPing).foldl keepPing .empty

def hostByItem (icmpItems : List IcmpItem) : OrderedMap String IcmpItem :=
  .ofList ((itemByHost icmpItems).values.map fun item => (item.itemid, item))

/-- Hours in which an item actually collected data, from its trend rows: an hour counts
when at least half of the expected samples arrived. -/
def coveredFromTrends (rows : List ZTrend) (delaySeconds : Nat) (windowFrom windowEnd : ℤ) :
    List Interval :=
  let expected : ℚ := 3600 / delaySeconds
  let hours := (rows.filter fun row => (row.num : ℚ) ≥ 1 / 2 * expected).map fun row =>
    (row.clock, row.clock + 3600)
  intersectIntervals hours [(windowFrom, windowEnd)]

/-- `Math.max` over the clocks of the rows; none stands for `-Infinity`. -/
def lastTrendHour (rows : List ZTrend) : Option ℤ :=
  rows.foldl (fun last row => some (max (last.getD row.clock) row.clock)) none

def tailFrom (last : Option ℤ) (windowEnd : ℤ) : ℤ :=
  match last with
  | some hour => hour + 3600
  | none => hourFloor windowEnd

def historyCounts (rows : List ZHistory) : OrderedMap String (OrderedMap ℤ Nat) :=
  foldBy (·.itemid) .empty
    (fun perHour row =>
      let hour := hourFloor row.clock
      perHour.set hour ((perHour.get? hour).getD 0 + 1))
    rows

def coveredFromHistory (perHour : OrderedMap ℤ Nat) (delay : Nat) (tailFrom windowEnd : ℤ) :
    List Interval :=
  perHour.entries.filterMap fun (hour, count) =>
    let start := max hour tailFrom
    let stop := min (hour + 3600) windowEnd
    let span := stop - start
    if span > 0 ∧ (count * delay : ℚ) ≥ 1 / 2 * span then some (start, stop) else none

def hoursOf (windowFrom windowEnd : ℤ) : List ℤ :=
  (List.range ((windowEnd - hourFloor windowFrom + 3599) / 3600).toNat).map
    fun index : Nat => hourFloor windowFrom + 3600 * index

/-- Hours in which fewer than a tenth of the items that collected anything in the window
collected data. -/
def sparseHours (byHost : OrderedMap String (List Interval)) (windowFrom windowEnd : ℤ) :
    List Interval :=
  let active := byHost.values.filter fun intervals => intervals ≠ []
  if active = [] then []
  else (hoursOf windowFrom windowEnd).filterMap fun hour =>
    let start := max hour windowFrom
    let stop := min (hour + 3600) windowEnd
    let count := (active.filter fun intervals =>
      totalSeconds (intersectIntervals intervals [(start, stop)]) > 0).length
    if (count : ℚ) < 1 / 10 * active.length then some (start, stop) else none

structure IcmpCoverage where
  byHost : OrderedMap String (List Interval)
  gaps : List Interval

namespace CoverageApi

variable (api : CoverageApi)

def trends (itemids : List String) (windowFrom windowEnd : ℤ) : List ZTrend :=
  (api.trendEnds (trendSlices itemids (hourFloor windowFrom) windowEnd TREND_MAX_ROWS)).flatMap
    fun slice => api.trendGet slice.itemids slice.first slice.last

def history (itemids : List String) (tailFrom windowEnd : ℤ) : List ZHistory :=
  (api.historyEnds (chunk 35 itemids)).flatMap fun ids => api.historyGet ids tailFrom windowEnd

/-- Collected time per host from its `icmpping` item, inside `outside`, and the hours the
estate as a whole collected nothing in. -/
def icmpCoverage (icmpItems : List IcmpItem) (windowFrom windowEnd : ℤ)
    (outside : List Interval) : IcmpCoverage :=
  let hostByItem := hostByItem icmpItems
  let rows := api.trends hostByItem.keys windowFrom windowEnd
  let rowsByItem := groupBy (·.itemid) rows
  let fromTrends := hostByItem.entries.foldl
    (fun (byHost : OrderedMap String (List Interval)) (itemid, item) =>
      byHost.set item.hostid (coveredFromTrends ((rowsByItem.get? itemid).getD [])
        (parseDelay item.delay) windowFrom windowEnd))
    .empty
  let tailFrom := tailFrom (lastTrendHour rows) windowEnd
  let byHost :=
    if tailFrom < windowEnd ∧ windowEnd - tailFrom ≤ 6 * 3600 ∧ tailFrom ≥ windowFrom then
      let counts := historyCounts (api.history hostByItem.keys tailFrom windowEnd)
      hostByItem.entries.foldl
        (fun byHost (itemid, item) =>
          let extra := coveredFromHistory ((counts.get? itemid).getD .empty)
            (parseDelay item.delay) tailFrom windowEnd
          byHost.set item.hostid
            (mergeIntervals ((byHost.get? item.hostid).getD [] ++ extra)))
        fromTrends
    else fromTrends
  let byHost := byHost.mapValues fun _ intervals => intersectIntervals intervals outside
  { byHost
    gaps := intersectIntervals (mergeIntervals (sparseHours byHost windowFrom windowEnd)) outside }

end CoverageApi

end ZabbixPortal.Sli
