import ZabbixPortal.Foundation.Text
import ZabbixPortal.Sli.Delay
import ZabbixPortal.Sli.Report
import ZabbixPortal.Sli.Trends

/-! Web checks: the availability of each scenario of the "Web Monitoring" host, from the hourly
trends of its fail item and, for the hours in which only some checks failed, from its history. -/

set_option autoImplicit false

namespace ZabbixPortal.Sli

open Foundation

structure WebItem where
  itemid : String
  name : String
  key_ : String
  delay : String
deriving DecidableEq, Repr

structure WebTrend where
  itemid : String
  clock : ℤ
  num : ℤ
  value_min : ℚ
  value_max : ℚ
deriving DecidableEq, Repr

structure WebSample where
  clock : ℤ
  value : ℚ
deriving DecidableEq, Repr

/-- What Zabbix answers: the hosts named "Web Monitoring", the fail items of one, the trends of
items, in what order requests for them end, and the history of an item. -/
structure WebApi where
  hostGet : List String
  itemGet : String → List WebItem
  trendGet : List String → ℤ → ℤ → List WebTrend
  trendEnds : List TrendSlice → List TrendSlice
  historyGet : String → ℤ → ℤ → List WebSample

def WebTrend.hour (row : WebTrend) : Interval := (row.clock, row.clock + 3600)

/-- The hours collected, those in which every check failed, and those in which only some did. -/
structure WebHours where
  covered : List Interval
  down : List Interval
  mixed : List ℤ
deriving DecidableEq

def readHour (delay : Nat) (historyFloor : ℤ) (hours : WebHours) (row : WebTrend) : WebHours :=
  if (row.num : ℚ) < 1 / 2 * (3600 / delay) then hours
  else if row.value_max = 0 then { hours with covered := hours.covered ++ [row.hour] }
  else if row.value_min > 0 then
    { hours with covered := hours.covered ++ [row.hour], down := hours.down ++ [row.hour] }
  else if row.clock ≥ historyFloor then { hours with mixed := hours.mixed ++ [row.clock] }
  else hours

def readHours (delay : Nat) (historyFloor : ℤ) (rows : List WebTrend) : WebHours :=
  rows.foldl (readHour delay historyFloor) ⟨[], [], []⟩

/-- `Math.min(...mixed)` -/
def firstHour (first : ℤ) (rest : List ℤ) : ℤ := rest.foldl min first

def lastHour (first : ℤ) (rest : List ℤ) : ℤ := rest.foldl max first

/-- The seconds the failing samples of the mixed hours stand for. -/
def mixedDown (delay : Nat) (mixed : List ℤ) (outside : List Interval) (hist : List WebSample) :
    ℤ :=
  hist.foldl (fun down row =>
    let counts := outside.any fun interval => interval.1 ≤ row.clock ∧ row.clock < interval.2
    if counts ∧ hourFloor row.clock ∈ mixed ∧ row.value > 0 then down + delay else down) 0

/-- `/\[(.*)\]$/` -/
def bracketed : List Char → Option (List Char)
  | [] => none
  | c :: rest =>
      if c = '[' ∧ rest.getLast? = some ']' ∧
          rest.dropLast.all (fun c => c ∉ ['\n', '\r', '\u2028', '\u2029']) then
        some rest.dropLast
      else bracketed rest

/-- `replace(/^"|"$/g, '')` -/
def unquote (text : List Char) : List Char :=
  let text := if text.head? = some '"' then text.tail else text
  if text.getLast? = some '"' then text.dropLast else text

/-- The scenario a fail item's key names, or the item's own name. -/
def scenarioName (item : WebItem) : String :=
  match (bracketed item.key_.toList).map unquote with
  | none | some [] => item.name
  | some name => .ofList name

section Scenario

variable (api : WebApi) (minCoverage : ℚ) (windowFrom windowEnd now estateSeconds : ℤ)
  (outside : List Interval)

/-- The history read for the mixed hours: from the first of them until the end of the last. -/
def mixedHistory (itemid : String) : List ℤ → List WebSample
  | [] => []
  | first :: rest =>
      api.historyGet itemid (firstHour first rest) (lastHour first rest + 3599)

def webScenario (trends : List WebTrend) (item : WebItem) : SliWeb :=
  let delay := parseDelay item.delay
  let hours := readHours delay (now - 31 * 86400) (trends.filter fun t => t.itemid = item.itemid)
  let hist := mixedHistory api item.itemid hours.mixed
  let covered := hours.covered ++ hours.mixed.map fun h => (h, h + 3600)
  let coveredIv := intersectIntervals covered outside
  let coveredSec := totalSeconds coveredIv
  let downtime := min coveredSec (totalSeconds (intersectIntervals hours.down coveredIv) +
    mixedDown delay hours.mixed outside hist)
  let window := windowEnd - windowFrom
  let coverage : ℚ := if window > 0 then coveredSec / window else 0
  let nodata := coveredSec = 0 ∨ coverage < minCoverage
  { itemid := item.itemid
    name := scenarioName item
    sli := if nodata then none else some (100 * (1 - (downtime : ℚ) / coveredSec))
    downtime
    coverage
    dataStatus :=
      if nodata then .nodata
      else if (coveredSec : ℚ) < 95 / 100 * estateSeconds then .incomplete
      else .ok }

/-- The trend rows of the checks, in the order the requests for them ended. -/
def webTrends (itemids : List String) : List WebTrend :=
  (api.trendEnds (trendSlices itemids (hourFloor windowFrom) windowEnd TREND_MAX_ROWS)).flatMap
    fun slice => api.trendGet slice.itemids slice.first slice.last

def webItems : List WebItem :=
  match api.hostGet with
  | [] => []
  | host :: _ => api.itemGet host

def webScenarios : List SliWeb :=
  let items := webItems api
  let trends := webTrends api windowFrom windowEnd (items.map (·.itemid))
  items.map (webScenario api minCoverage windowFrom windowEnd now estateSeconds outside trends)

end Scenario

example : (bracketed "web.test.fail[\"HR [portal]\"]".toList).map unquote =
    some "HR [portal]".toList := by
  decide +kernel

end ZabbixPortal.Sli
