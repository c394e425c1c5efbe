import ZabbixPortal.Domain.Naming
import ZabbixPortal.Foundation.Grouping
import ZabbixPortal.Foundation.Sorting
import ZabbixPortal.Sli.Window

/-! The derived SLA report: per-host figures from interval sets, the groups made of
them, and the redundant WAN paths. Figures are exact rationals. -/

set_option autoImplicit false

namespace ZabbixPortal.Sli

open Foundation Domain

inductive DataStatus where
  | ok
  | incomplete
  | nodata
deriving DecidableEq, Repr

/-- As the API spells it; `partial` cannot be a name here. -/
def DataStatus.text : DataStatus → String
  | .ok => "ok"
  | .incomplete => "partial"
  | .nodata => "nodata"

structure SliHost where
  hostid : String
  name : String
  hostStatus : String
  site : Option SiteRef
  category : String
  deviceClass : DeviceClass
  triggerids : List String
  /-- Percent; none when there is too little collected data to say. -/
  sli : Option ℚ
  downtime : ℤ
  window : ℤ
  covered : ℤ
  maintenance : ℤ
  coverage : ℚ
  incidents : Nat
  longest : ℤ
  dataStatus : DataStatus
  measured : Bool
  meeting : Option Bool
  errorBudget : Option ℚ
deriving DecidableEq

inductive GroupKey where
  | overall
  | category (name : String)
  | site (code : Option Nat)
  | deviceClass (deviceClass : DeviceClass)
  | node (id : String)
deriving DecidableEq, Repr

structure SliGroup where
  key : GroupKey
  name : String
  hosts : Nat
  withData : Nat
  sli : Option ℚ
  downtime : ℤ
  meeting : Option Bool
  belowTarget : Nat
deriving DecidableEq

structure PathLeg where
  hostid : String
  name : String
  leg : String
  sli : Option ℚ
  dataStatus : DataStatus
deriving DecidableEq

structure SliPath where
  name : String
  site : Option SiteRef
  legs : List PathLeg
  /-- Down only while every leg is down: the point of a redundant pair. -/
  sli : Option ℚ
  downtime : ℤ
  coverage : ℚ
  dataStatus : DataStatus
deriving DecidableEq

structure SliWeb where
  itemid : String
  name : String
  sli : Option ℚ
  downtime : ℚ
  coverage : ℚ
  dataStatus : DataStatus
deriving DecidableEq

structure SliContext where
  profile : SliProfile
  windowFrom : ℤ
  windowEnd : ℤ
  target : ℚ
  minCoverage : ℚ
  /-- The configured no-data windows, in any order. -/
  noDataWindows : List Interval
  /-- Estate-wide spans in which almost nothing was collected. -/
  gaps : List Interval
  forward : windowFrom ≤ windowEnd

structure HostInput where
  hostid : String
  name : String
  hostStatus : String
  category : String
  triggerids : List String
  /-- The replayed intervals of all its triggers. -/
  down : List Interval
  incidents : Nat
  /-- Collected time; read in the strict profile only. -/
  collected : List Interval
  /-- Its planned maintenance windows. -/
  maintenance : List Interval
  measured : Bool

namespace SliContext

variable (context : SliContext)

def window : ℤ := context.windowEnd - context.windowFrom

/-- Spans declared not measured: a gap in both profiles. -/
def declared : List Interval :=
  mergeIntervals (clipIntervals context.noDataWindows context.windowFrom context.windowEnd)

def outsideDeclared : List Interval :=
  complementIntervals context.declared context.windowFrom context.windowEnd

def estateSeconds : ℤ :=
  let gapSeconds := if context.profile.strict then
    totalSeconds context.gaps + totalSeconds context.declared else 0
  max 0 (context.window - gapSeconds)

/-- Planned maintenance leaves the measurement entirely. -/
def planned (input : HostInput) : List Interval :=
  clipIntervals input.maintenance context.windowFrom context.windowEnd

def outsidePlanned (input : HostInput) : List Interval :=
  complementIntervals (context.planned input) context.windowFrom context.windowEnd

def measurable (input : HostInput) : ℤ := context.window - totalSeconds (context.planned input)

def covered (input : HostInput) : List Interval :=
  if context.profile.strict then
    intersectIntervals input.collected (context.outsidePlanned input)
  else context.outsidePlanned input

def measuredDown (input : HostInput) : List Interval :=
  intersectIntervals
    (intersectIntervals (mergeIntervals input.down) (context.covered input))
    context.outsideDeclared

def coverageShare (input : HostInput) : ℚ :=
  if context.measurable input > 0 then
    (totalSeconds (context.covered input) : ℚ) / context.measurable input
  else 0

def nodata (input : HostInput) : Bool :=
  context.profile.strict &&
    (totalSeconds (context.covered input) = 0 || context.coverageShare input < context.minCoverage)

def denominator (input : HostInput) : ℤ :=
  if context.profile.strict then totalSeconds (context.covered input)
  else context.measurable input

def figure (downtime total : ℤ) : ℚ := max 0 (100 * (1 - (downtime : ℚ) / total))

def hostSli (input : HostInput) : Option ℚ :=
  if context.nodata input ∨ context.denominator input ≤ 0 then none
  else some (figure (totalSeconds (context.measuredDown input)) (context.denominator input))

def hostRow (intl : Intl) (input : HostInput) : SliHost :=
  let downtime := totalSeconds (context.measuredDown input)
  let coveredSec := totalSeconds (context.covered input)
  let plannedSec := totalSeconds (context.planned input)
  let sli := context.hostSli input
  { hostid := input.hostid
    name := input.name
    hostStatus := input.hostStatus
    site := siteFromHostName intl input.name
    category := input.category
    deviceClass := deviceClass intl input.name input.category
    triggerids := input.triggerids
    sli
    downtime
    window := context.window
    covered := coveredSec
    maintenance := plannedSec
    coverage := context.coverageShare input
    incidents := input.incidents
    longest := longestOf (context.measuredDown input)
    dataStatus :=
      if context.nodata input then .nodata
      else if context.profile.strict ∧
          (coveredSec : ℚ) < 95 / 100 * max 0 (context.estateSeconds - plannedSec : ℤ) then .incomplete
      else .ok
    measured := input.measured
    meeting := sli.map fun value => decide (value ≥ context.target)
    errorBudget := sli.map fun _ =>
      (1 - context.target / 100) * context.denominator input - downtime }

end SliContext

/-- A group's figures from its hosts: the plain mean of those with data. -/
def aggregate (key : GroupKey) (name : String) (hosts : List SliHost) (target : ℚ) : SliGroup :=
  let figures := hosts.filterMap (·.sli)
  let sli := mean figures
  { key
    name
    hosts := hosts.length
    withData := figures.length
    sli
    downtime := (hosts.map (·.downtime)).sum
    meeting := sli.map fun value => decide (value ≥ target)
    belowTarget := (hosts.filter fun host => host.meeting = some false).length }

/-- Worst figure first, hosts without one last, then by name. -/
def compareHosts (intl : Intl) (a b : SliHost) : Ordering :=
  (compareNumbers (if a.sli.isNone then 1 else 0) (if b.sli.isNone then 1 else 0)).then
    ((compareNumbers (a.sli.getD 0) (b.sli.getD 0)).then (intl.naturalCompare a.name b.name))

/-- `computeSli`'s `group`: buckets by key, each aggregated under its first host's name. -/
def groupHosts {κ : Type} [DecidableEq κ] (keyOf : SliHost → κ) (toKey : κ → GroupKey)
    (nameOf : κ → SliHost → String) (hosts : List SliHost) (target : ℚ) : List SliGroup :=
  (groupBy keyOf hosts).entries.map fun (key, bucket) =>
    aggregate (toKey key) ((bucket.head?.map (nameOf key)).getD "") bucket target

def rank (order : List String) (key : String) : Nat := order.idxOf key

def siteRank (code : Option Nat) : Nat := code.getD 99

def siteName (site : Option SiteRef) : String :=
  match site with
  | some site => s!"{site.code} · {site.name}"
  | none => "Unassigned"

def GroupKey.siteRank : GroupKey → Nat
  | .site code => Sli.siteRank code
  | _ => 99

/-- The legs of one WAN path, in report order, with what `wanPairKey` calls each. -/
def pathLegs (intl : Intl) (hosts : List SliHost) : OrderedMap String (List (SliHost × WanPair)) :=
  groupBy (fun leg => leg.2.path) (hosts.filterMap fun host =>
    (wanPairKey intl host.name).map fun pair => (host, pair))

/-- The seconds of every leg's set, starting from the first leg's. -/
def commonIntervals (byHost : OrderedMap String (List Interval)) : List SliHost → List Interval
  | [] => []
  | first :: rest =>
      rest.foldl
        (fun common leg => intersectIntervals common ((byHost.get? leg.hostid).getD []))
        ((byHost.get? first.hostid).getD [])

def pathTotal (profile : SliProfile) (window : ℤ) (covered : List Interval) : ℤ :=
  if profile.strict then totalSeconds covered else window

def wanPath (intl : Intl) (path : String) (legs : List (SliHost × WanPair))
    (downByHost coveredByHost : OrderedMap String (List Interval)) (window : ℤ)
    (profile : SliProfile) (estateSeconds : ℤ) : SliPath :=
  let hosts := legs.map Prod.fst
  let nodata := hosts.any fun leg => leg.dataStatus = .nodata
  let coveredSec := pathTotal profile window (commonIntervals coveredByHost hosts)
  let downtime := totalSeconds (commonIntervals downByHost hosts)
  { name := path
    site := hosts.head?.bind (·.site)
    legs := sortBy (fun a b => intl.naturalCompare a.leg b.leg) (legs.map fun (host, pair) =>
      { hostid := host.hostid, name := host.name, leg := pair.leg, sli := host.sli,
        dataStatus := host.dataStatus })
    sli := if nodata ∨ coveredSec ≤ 0 then none else some (SliContext.figure downtime coveredSec)
    downtime
    coverage := if window > 0 then min 1 ((coveredSec : ℚ) / window) else 0
    dataStatus :=
      if nodata then .nodata
      else if profile.strict ∧ (coveredSec : ℚ) < 95 / 100 * estateSeconds then .incomplete
      else .ok }

def buildWanPaths (intl : Intl) (hosts : List SliHost)
    (downByHost coveredByHost : OrderedMap String (List Interval)) (window : ℤ)
    (profile : SliProfile) (estateSeconds : ℤ) : List SliPath :=
  sortBy (fun a b => intl.naturalCompare a.name b.name)
    ((pathLegs intl hosts).entries.map fun (path, legs) =>
      wanPath intl path legs downByHost coveredByHost window profile estateSeconds)

/-- The report, less its texts and its counters of Zabbix calls. -/
structure SliReport where
  profile : SliProfile
  month : Option String
  windowFrom : ℤ
  windowTo : ℤ
  windowEnd : ℤ
  closed : Bool
  target : ℚ
  overall : SliGroup
  categories : List SliGroup
  sites : List SliGroup
  classes : List SliGroup
  hosts : List SliHost
  wanPaths : List SliPath
  web : List SliWeb
  gaps : List Interval
  noDataWindows : List Interval
  generatedAt : ℤ

def categoriesOf (intl : Intl) (hosts : List SliHost) (target : ℚ) : List SliGroup :=
  sortBy (fun a b =>
      (compare (rank CATEGORY_ORDER a.name) (rank CATEGORY_ORDER b.name)).then
        (intl.naturalCompare a.name b.name))
    (groupHosts (·.category) .category (fun key _ => key) hosts target)

def sitesOf (hosts : List SliHost) (target : ℚ) : List SliGroup :=
  sortBy (fun a b => compare a.key.siteRank b.key.siteRank)
    (groupHosts (fun host => host.site.map (·.code)) .site (fun _ host => siteName host.site)
      hosts target)

def classesOf (intl : Intl) (hosts : List SliHost) (target : ℚ) : List SliGroup :=
  sortBy (fun a b => intl.naturalCompare a.name b.name)
    (groupHosts (·.deviceClass) .deviceClass (fun key _ => DEVICE_CLASS_LABELS key) hosts target)

end ZabbixPortal.Sli
