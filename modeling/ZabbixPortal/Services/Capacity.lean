import ZabbixPortal.Foundation.OrderedMap
import ZabbixPortal.Foundation.Pattern
import ZabbixPortal.Services.ZabbixItems
import ZabbixPortal.Sli.Trends

/-! The capacity report: CPU, memory, disk and interface utilisation over a number of days, read
from trends. Averages are exact. -/

set_option autoImplicit false

namespace ZabbixPortal.Services

open Foundation

def HISTORY_FALLBACK_LIMIT : Nat := 10000

/-- `/^\[[A-Za-z][\w.]*\.\d+\]$/` -/
def SNMP_PARAM : Pattern :=
  .sequence [.one (· = '['), .one Char.isAlpha,
    .repeated (fun c => isWordChar c || c = '.') 0 none true, .one (· = '.'),
    .repeated Char.isDigit 1 none true, .one (· = ']'), .stop]

def hasSnmpParam (key : String) (count : Nat) : Bool :=
  (SNMP_PARAM.exec (key.toList.drop count)).isSome

structure Metric where
  key : String
  label : String
  search : String
  matches' : String → Bool
  /-- Turns a stored value into the percentage the report shows. -/
  transform : Option (ℚ → ℚ)

def METRICS : List Metric :=
  [{ key := "cpu"
     label := "CPU utilisation"
     search := "system.cpu.util"
     matches' := fun k => k = "system.cpu.util" || k = "system.cpu.util[]" || hasSnmpParam k 15
     transform := none },
   { key := "memory"
     label := "Memory utilisation"
     search := "vm.memory.util"
     matches' := fun k =>
       k = "vm.memory.util" || k = "vm.memory.utilization" || hasSnmpParam k 14
     transform := none },
   { key := "disk"
     label := "Filesystem used"
     search := "vfs.fs"
     -- `/,\s*pused\]$/`
     matches' := fun k =>
       (Pattern.sequence [.one (· = ','), .repeated isSpace 0 none true,
         .word (· = ·) "pused]".toList, .stop]).test k.toList
     transform := none },
   -- FortiGate reports free space only.
   { key := "disk"
     label := "Filesystem used"
     search := "vfs.fs.pfree"
     matches' := fun k => k = "vfs.fs.pfree"
     transform := some fun v => 100 - v }]

inductive CapacitySource where
  | trend
  | history
  | none
deriving DecidableEq, Repr

structure CapacityRow where
  metric : String
  label : String
  itemid : String
  hostid : String
  host : String
  name : String
  units : String
  avg : ℚ
  max : ℚ
  source : CapacitySource
deriving DecidableEq, Repr

structure CapacityMetric where
  key : String
  label : String
  rows : List CapacityRow
deriving DecidableEq, Repr

structure CapacityReport where
  days : ℤ
  metrics : List CapacityMetric
deriving DecidableEq, Repr

structure Aggregate where
  sum : ℚ
  n : Nat
  /-- None before the first value. -/
  max : Option ℚ
deriving DecidableEq, Repr

abbrev Aggregates := OrderedMap String Aggregate

def addSample (agg : Aggregates) (itemid : String) (avg max : ℚ) : Aggregates :=
  let a := (agg.get? itemid).getD { sum := 0, n := 0, max := none }
  agg.set itemid
    { sum := a.sum + avg
      n := a.n + 1
      max := some (match a.max with
        | none => max
        | some most => if most < max then max else most) }

def busiestFirst (rows : List CapacityRow) : List CapacityRow :=
  sortBy (fun a b => compareNumbers b.avg a.avg) rows

section Report

variable (search : ZabbixSearch) (state : ZabbixState) (now : ℤ)

def fetchTrendsSliced (itemids : List String) (start stop : ℤ) : List TrendRow :=
  (Sli.trendSlices itemids start stop Sli.TREND_MAX_ROWS).flatMap fun slice =>
    trendGet (state.trends now) slice.itemids slice.first slice.last

def metricItems (metric : Metric) : List ItemConfig :=
  (itemGet search state.items
      { searchKey := some metric.search, startSearch := true, monitored := true }).filter
    fun item => metric.matches' item.key_

/-- The raw values of the last day, of the type the first item has. -/
def recentHistory (items : List ItemConfig) (start stop : ℤ) : List (String × ℚ) :=
  let histFrom := max start (stop - 86400)
  let type := if (items.head?.map fun item => item.value_type) = some "3" then "3" else "0"
  ((items.filter fun item => item.value_type = type).flatMap fun item =>
    (historyGet (state.history now item.itemid) histFrom stop HISTORY_FALLBACK_LIMIT).map
      fun row => (item.itemid, row.value)).take HISTORY_FALLBACK_LIMIT

def metricRow (metric : Metric) (source : CapacitySource) (item : ItemConfig) (a : Aggregate) :
    CapacityRow :=
  let t := metric.transform.getD id
  let avg := if a.n = 0 then 0 else t (a.sum / a.n)
  let most := (a.max.map t).getD 0
  { metric := metric.key
    label := metric.label
    itemid := item.itemid
    hostid := item.hostid
    host := item.host
    name := item.name
    units := if item.units = "" then "%" else item.units
    avg
    -- Of free space the largest is the least used.
    max := if metric.transform.isSome then max avg most else most
    source }

def metricRows (metric : Metric) (items : List ItemConfig) (trendAgg : Aggregates)
    (start stop : ℤ) : List CapacityRow :=
  let fromTrends := items.any fun item => trendAgg.contains item.itemid
  let hist := recentHistory state now items start stop
  let agg := if fromTrends then trendAgg
    else hist.foldl (fun agg row => addSample agg row.1 row.2 row.2) .empty
  let source : CapacitySource :=
    if fromTrends then .trend else if hist.isEmpty then .none else .history
  items.filterMap fun item => (agg.get? item.itemid).map (metricRow metric source item)

def busiestOfHosts (rows : List CapacityRow) : List CapacityRow :=
  (rows.foldl (fun best row =>
    let id := if row.hostid = "" then row.itemid else row.hostid
    match best.get? id with
    | none => best.set id row
    | some prev => if row.avg > prev.avg then best.set id row else best)
    (OrderedMap.empty : OrderedMap String CapacityRow)).values

/-- `/\.(\d+)\]$/` in a key: the number of an interface. -/
def ifIndex (key : String) : Option String :=
  match key.toList.reverse with
  | ']' :: rest =>
      let digits := rest.takeWhile Char.isDigit
      if digits ≠ [] ∧ (rest.dropWhile Char.isDigit).head? = some '.' then
        some (String.ofList digits.reverse)
      else none
  | _ => none

def ifId (item : ItemConfig) : String := item.hostid ++ ":" ++ (ifIndex item.key_).getD "undefined"

/-- `/octets/i` -/
def isTraffic (key : String) : Bool :=
  (Pattern.word (fun a b => a.toUpper = b.toUpper) "octets".toList).test key.toList

/-- `/^Interface\s+([^(:]+)/` in a name, else the name. -/
def portName (name : String) : String :=
  let pattern := Pattern.sequence [.word (· = ·) "Interface".toList, .repeated isSpace 1 none true,
    .group 1 (.repeated (fun c => c ≠ '(' && c ≠ ':') 1 none true)]
  (((pattern.exec name.toList).bind fun found => found.group? 1).map fun port =>
    String.ofList (trim port)).getD name

structure IfCandidate where
  inItem : ItemConfig
  outItem : Option ItemConfig
  speed : ℚ
  latest : ℚ

/-- An interface with its speed and its latest rate as a share of it, when both are known. -/
def candidateOf (last : String → LastValue) (speedOf : OrderedMap String (Option ℚ))
    (outOf : OrderedMap String ItemConfig) (item : ItemConfig) : Option IfCandidate :=
  let rate (item : ItemConfig) := (toNumber (last item.itemid).lastvalue).getD 0
  let speed := ((speedOf.get? (ifId item)).getD (some 0)).getD 0
  let outItem := outOf.get? (ifId item)
  let latest := max (rate item) ((outItem.map rate).getD 0)
  if speed > 0 ∧ latest / speed > 0 then
    some { inItem := item, outItem, speed, latest := latest / speed }
  else none

def IF_LABEL : String := "Interface utilisation (busiest direction)"

/-- The busiest interfaces as a share of their link speed, preselected on their latest rate. -/
def interfaceUtilisation (start stop : ℤ) (top : Nat) : CapacityMetric :=
  let read (key : String) := itemGet search state.items
    { searchKey := some key, startSearch := true, monitored := true }
  let speedOf := OrderedMap.ofList ((read "net.if.speed[").map fun item =>
    (ifId item, toNumber (state.last now item.itemid).lastvalue))
  let outOf := OrderedMap.ofList ((read "net.if.out[").map fun item => (ifId item, item))
  let traffic := (read "net.if.in[").filter fun item =>
    isTraffic item.key_ && (ifIndex item.key_).isSome
  let candidates := (sortBy (fun a b => compareNumbers b.latest a.latest)
    (traffic.filterMap (candidateOf (state.last now) speedOf outOf))).take (max (top * 4) 40)
  let itemids := candidates.flatMap fun c =>
    c.inItem.itemid :: (c.outItem.map fun item => item.itemid).toList
  let trendRows := fetchTrendsSliced state now itemids start stop
  let agg := trendRows.foldl (fun agg row => addSample agg row.itemid row.value_avg row.value_max)
    .empty
  let pct (item : Option ItemConfig) (speed : ℚ) (pick : Aggregate → ℚ) : ℚ :=
    match item.bind fun item => agg.get? item.itemid with
    | none => 0
    | some a => pick a / speed * 100
  let busiest (c : IfCandidate) (pick : Aggregate → ℚ) :=
    max (pct (some c.inItem) c.speed pick) (pct c.outItem c.speed pick)
  let rows := candidates.map fun c =>
    { metric := "ifutil"
      label := IF_LABEL
      itemid := c.inItem.itemid
      hostid := c.inItem.hostid
      host := c.inItem.host
      name := portName c.inItem.name
      units := "%"
      avg := busiest c fun a => a.sum / a.n
      -- The running maximum starts at 0 here.
      max := min 100 (busiest c fun a => max 0 (a.max.getD 0))
      source := .trend }
  { key := "ifutil"
    label := IF_LABEL
    rows := if trendRows.isEmpty then [] else (busiestFirst rows).take top }

def metricTrends (days : ℤ) : List TrendRow :=
  let ids := (METRICS.flatMap fun metric =>
    (metricItems search state metric).map fun item => item.itemid).eraseDups
  fetchTrendsSliced state now ids (now - days * 86400) now

/-- The report of the `days` before now, of trend rows folded as they arrive. -/
def capacityOf (days : ℤ) (top : Nat) (arrived : List TrendRow) : CapacityReport :=
  let start := now - days * 86400
  let matched := METRICS.map fun metric => (metric, metricItems search state metric)
  let trendAgg := arrived.foldl
    (fun agg row => addSample agg row.itemid row.value_avg row.value_max) .empty
  let byMetric := matched.foldl (fun byMetric found =>
    let rows := if found.2.isEmpty then []
      else metricRows state now found.1 found.2 trendAgg start now
    let entry := (byMetric.get? found.1.key).getD (found.1.label, [])
    byMetric.set found.1.key (entry.1, entry.2 ++ rows))
    (OrderedMap.empty : OrderedMap String (String × List CapacityRow))
  let metrics := byMetric.entries.map fun entry =>
    { key := entry.1
      label := entry.2.1
      rows := (busiestFirst (busiestOfHosts entry.2.2)).take top }
  { days, metrics := metrics ++ [interfaceUtilisation search state now start now top] }

/-- The requests of the read run side by side; here the rows arrive in the order they are asked. -/
def getCapacity (days : ℤ) (top : Nat) : CapacityReport :=
  capacityOf search state now days top (metricTrends search state now days)

end Report

end ZabbixPortal.Services
