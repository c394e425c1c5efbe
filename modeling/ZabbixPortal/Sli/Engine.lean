import ZabbixPortal.Sli.Replay
import ZabbixPortal.Sli.Report

/-! The derived SLA, computed from what Zabbix answered: the triggers give the hosts,
their events the downtime, and the interval sets the figures. -/

set_option autoImplicit false

namespace ZabbixPortal.Sli

open Foundation Domain

structure ZIcmpItem where
  hostid : String
  state : Option String
  lastclock : Option String
deriving DecidableEq, Repr

/-- Whether a host's ICMP was ever collected: not when every item has no value and is
unsupported or on a disabled host. A host with no ICMP item at all is not flagged. -/
def wasMeasured (items : List ZIcmpItem) (hostDisabled : Bool) : Bool :=
  items.isEmpty ||
    !items.all fun item => item.lastclock = some "0" && (item.state = some "1" || hostDisabled)

/-- The report category is the monitoring template: a device template when the host
has one, `ICMP Ping` for hosts that are only pinged. -/
def categoryFor (intl : Intl) (parentTemplates : List String) : String :=
  let has := fun category : String =>
    parentTemplates.any fun name => sameIgnoringCase intl name.toList category.toList
  match CATEGORY_ORDER.find? fun c => c ≠ "ICMP Ping" && has c with
  | some device => device
  | none => if has "ICMP Ping" then "ICMP Ping" else categoryLabel intl parentTemplates.head?

/-- The hosts of a report with the settings their figures share. Host ids come from
the keys of a map, so no two are the same. -/
structure Estate where
  context : SliContext
  inputs : List HostInput
  distinct : (inputs.map (·.hostid)).Nodup

namespace Estate

variable (intl : Intl) (estate : Estate)

def hosts : List SliHost :=
  sortBy (compareHosts intl) (estate.inputs.map (estate.context.hostRow intl))

def downByHost : OrderedMap String (List Interval) :=
  .ofList (estate.inputs.map fun input => (input.hostid, estate.context.measuredDown input))

def coveredByHost : OrderedMap String (List Interval) :=
  .ofList (estate.inputs.map fun input => (input.hostid, estate.context.covered input))

def wanPaths : List SliPath :=
  buildWanPaths intl (estate.hosts intl) estate.downByHost estate.coveredByHost
    estate.context.window estate.context.profile estate.context.estateSeconds

end Estate

/-- The window of the example estates. -/
theorem zero_le_hundred : (0 : ℤ) ≤ 100 := by decide

structure SliSettings where
  calendar : String → ℤ × ℤ
  target : ℚ
  minCoverage : ℚ
  noDataWindows : List Interval
  slices : SliceOptions

/-- What Zabbix answers. `coverage` and `web` are what `icmpCoverage` and
`webScenarios` make of the trends; they are read in the strict profile only. -/
structure SliReads where
  triggers : List ZTrigger
  parents : OrderedMap String (List String)
  icmpItems : List ZIcmpItem
  eventGet : EventGet
  maintenance : OrderedMap String (List Interval)
  coverage : OrderedMap String (List Interval)
  coverageGaps : List Interval
  web : List SliWeb

inductive SliError where
  | badRequest (reason : BadRequest)
  | zabbix (error : ZabbixApiError)
deriving DecidableEq, Repr

def hostMeta (triggers : List ZTrigger) : OrderedMap String (List (ZTrigger × ZHost)) :=
  groupBy (fun row => row.2.hostid)
    (triggers.filterMap fun trigger => trigger.hosts.head?.map fun host => (trigger, host))

def hostInput (intl : Intl) (reads : SliReads) (history : TriggerHistory)
    (windowFrom windowEnd endClip : ℤ) (hostid : String) (rows : List (ZTrigger × ZHost)) :
    HostInput :=
  let replays := rows.map fun row => history.replay row.1 windowFrom windowEnd endClip
  let status := (rows.head?.map (·.2.status)).getD ""
  { hostid
    name := (rows.head?.map (·.2.name)).getD ""
    hostStatus := status
    category := ((reads.parents.get? hostid).map (categoryFor intl)).getD "Other"
    triggerids := rows.map (·.1.triggerid)
    down := replays.flatMap (·.intervals)
    incidents := (replays.map (·.incidents)).sum
    collected := (reads.coverage.get? hostid).getD []
    maintenance := (reads.maintenance.get? hostid).getD []
    measured := wasMeasured (reads.icmpItems.filter fun item => item.hostid = hostid)
      (status = "1") }

def estateOf (intl : Intl) (settings : SliSettings) (profile : SliProfile) (reads : SliReads)
    {now : ℤ} (window : SliWindow now) (history : TriggerHistory) : Estate where
  context := {
    profile
    windowFrom := window.windowFrom
    windowEnd := window.windowEnd
    target := settings.target
    minCoverage := settings.minCoverage
    noDataWindows := settings.noDataWindows
    gaps := if profile.strict then reads.coverageGaps else []
    forward := window.windowFrom_le_windowEnd }
  inputs := (hostMeta reads.triggers).entries.map fun entry =>
    hostInput intl reads history window.windowFrom window.windowEnd (window.endClip profile)
      entry.1 entry.2
  distinct := by
    rw [List.map_map]
    exact (hostMeta reads.triggers).distinct

def Estate.report (intl : Intl) (estate : Estate) (month : Option String) (windowTo : ℤ)
    (closed : Bool) (web : List SliWeb) (now : ℤ) : SliReport :=
  let hosts := estate.hosts intl
  let context := estate.context
  { profile := context.profile
    month
    windowFrom := context.windowFrom
    windowTo
    windowEnd := context.windowEnd
    closed
    target := context.target
    overall := aggregate .overall "HCML estate" hosts context.target
    categories := categoriesOf intl hosts context.target
    sites := sitesOf hosts context.target
    classes := classesOf intl hosts context.target
    hosts
    wanPaths := estate.wanPaths intl
    web
    gaps := context.gaps
    noDataWindows := context.declared
    generatedAt := now }

def computeSli (intl : Intl) (settings : SliSettings) (request : SliRequest) (now : ℤ)
    (reads : SliReads) : Except SliError SliReport :=
  match sliWindow settings.calendar request now with
  | .error reason => .error (.badRequest reason)
  | .ok window =>
      match readTriggerHistory reads.eventGet settings.slices reads.triggers window.windowFrom
          window.windowEnd now with
      | .error error => .error (.zabbix error)
      | .ok history =>
          let estate := estateOf intl settings request.profile reads window history
          .ok (estate.report intl request.month window.windowTo window.closed
            (if request.profile.strict then reads.web else []) now)

/-- Whatever Zabbix answers, the report is that of an estate with distinct host ids. -/
theorem computeSli_is_estate_report (intl : Intl) (settings : SliSettings) (request : SliRequest)
    (now : ℤ) (reads : SliReads) (report : SliReport)
    (computed : computeSli intl settings request now reads = .ok report) :
    ∃ (estate : Estate) (windowTo : ℤ) (closed : Bool) (web : List SliWeb),
      estate.context.profile = request.profile ∧
      report = estate.report intl request.month windowTo closed web now := by
  unfold computeSli at computed
  split at computed
  · cases computed
  · next window _ =>
      split at computed
      · cases computed
      · next history _ =>
          cases computed
          exact ⟨estateOf intl settings request.profile reads window history, _, _, _, rfl, rfl⟩

end ZabbixPortal.Sli
