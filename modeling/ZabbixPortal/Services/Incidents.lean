import ZabbixPortal.Foundation.OrderedMap
import ZabbixPortal.Sli.Events

/-! Problem occurrences over a window, read from Zabbix once for the availability and
alert-noise reports, with the lookups that find an outage which began before the window. -/

set_option autoImplicit false

namespace ZabbixPortal.Services

open Foundation Sli

structure EventHost where
  hostid : String
  name : String
deriving DecidableEq, Repr

/-- Ids are Zabbix's numbers; `r_eventid` is 0 while the problem is open. -/
structure ProblemEvent where
  eventid : Nat
  objectid : Nat
  clock : ℤ
  severity : Nat
  acknowledged : Bool
  r_eventid : Nat
  name : String
  hosts : List EventHost
deriving DecidableEq, Repr

structure RecoveryEvent where
  eventid : Nat
  objectid : Nat
  clock : ℤ
deriving DecidableEq, Repr

structure Incident where
  eventid : Nat
  objectid : Nat
  host : String
  hostid : String
  name : String
  severity : Nat
  /-- When it began, or the window's first second when it began earlier. -/
  start : ℤ
  /-- When it really began, whatever the window. -/
  began : ℤ
  stop : ℤ
  resolved : Bool
  acknowledged : Bool
deriving DecidableEq, Repr

structure ReportWindow where
  windowFrom : ℤ
  windowTo : ℤ
deriving DecidableEq, Repr

/-- The requests made of Zabbix. Problem reads take the severities asked for. -/
structure ZabbixReads where
  /-- `event.get`, PROBLEM events of a range in ascending order, up to a limit. -/
  problemEvents : List Nat → ℤ → ℤ → Nat → List ProblemEvent
  /-- `event.get`, OK events of a range in ascending order, up to a limit. -/
  recoveryEvents : ℤ → ℤ → Nat → List RecoveryEvent
  /-- `problem.get`: the ids of unresolved problems begun by then. -/
  openProblems : List Nat → ℤ → List Nat
  /-- `event.get` by event ids, PROBLEM events only. -/
  problemsById : List Nat → List Nat → List ProblemEvent
  /-- `trigger.get`: the priorities of the triggers that exist. -/
  priorities : List Nat → List (Nat × Nat)
  /-- `event.get` of one trigger, newest first, limit 1. -/
  latestProblem : List Nat → Nat → ℤ → Option ProblemEvent
  /-- `event.get` by event ids: id and clock. -/
  eventClocks : List Nat → List (Nat × ℤ)

/-- Zabbix has no "at least" filter on severity, only an explicit list. -/
def severitiesAtLeast (least : ℤ) : List Nat :=
  (List.range 6).filter fun severity => min (max least 0) 5 ≤ severity

def OPEN_AT_START_LOOKBACK : ℤ := 31 * 86400

def LONG_OUTAGE_LOOKUPS : Nat := 200

def BATCH : Nat := 2000

def stillOpenBefore (zabbix : ZabbixReads) (till minSeverity : ℤ) : List ProblemEvent :=
  let severities := severitiesAtLeast minSeverity
  (chunk BATCH (zabbix.openProblems severities till)).flatMap (zabbix.problemsById severities)

structure EndedInWindow where
  problems : List ProblemEvent
  /-- More triggers were left than may be looked up. -/
  incomplete : Bool
deriving DecidableEq, Repr

/-- Each trigger's first recovery of the window, when no problem read names it. -/
def unexplainedRecoveries (recoveries : List RecoveryEvent) (explained : List Nat) :
    List RecoveryEvent :=
  (OrderedMap.firstBy (·.objectid) recoveries).values.filter fun r => r.eventid ∉ explained

def prioritiesOf (zabbix : ZabbixReads) (triggers : List Nat) : OrderedMap Nat Nat :=
  .ofList ((chunk BATCH triggers).flatMap zabbix.priorities)

def wantedRecoveries (zabbix : ZabbixReads) (recoveries : List RecoveryEvent)
    (explained : List Nat) (minSeverity : ℤ) : List RecoveryEvent :=
  let unexplained := unexplainedRecoveries recoveries explained
  let priority := prioritiesOf zabbix (unexplained.map (·.objectid))
  unexplained.filter fun r =>
    ((priority.get? r.objectid).map fun p => (p : ℤ)).getD (-1) ≥ minSeverity

/-- The problem a recovery ends, when the trigger's last problem before the look-back
names that very recovery. -/
def endedBy (zabbix : ZabbixReads) (lookFrom minSeverity : ℤ) (r : RecoveryEvent) :
    Option ProblemEvent :=
  (zabbix.latestProblem (severitiesAtLeast minSeverity) r.objectid (lookFrom - 1)).filter
    fun latest => latest.r_eventid = r.eventid

/-- Problems that began before the look-back and were resolved inside the window. -/
def endedInWindow (zabbix : ZabbixReads) (recoveries : List RecoveryEvent)
    (explained : List Nat) (lookFrom minSeverity : ℤ) : EndedInWindow :=
  let wanted := wantedRecoveries zabbix recoveries explained minSeverity
  let asked := wanted.take LONG_OUTAGE_LOOKUPS
  { problems := asked.filterMap (endedBy zabbix lookFrom minSeverity)
    incomplete := wanted.length > asked.length }

structure IncidentReport where
  incidents : List Incident
  window : ReportWindow
  truncated : Bool
deriving DecidableEq, Repr

/-- One problem clipped to the window; none when it has no host, no recovery on record
or no time inside. -/
def toIncident (window : ReportWindow) (recoveryClock : OrderedMap Nat ℤ) (p : ProblemEvent) :
    Option Incident :=
  match p.hosts.head? with
  | none => none
  | some h =>
      let start := max p.clock window.windowFrom
      let resolved := p.r_eventid ≠ 0
      let recovered := if resolved then recoveryClock.get? p.r_eventid else none
      if p.clock < window.windowFrom ∧ resolved ∧ recovered = none then none
      else
        let stop := min (recovered.getD window.windowTo) window.windowTo
        if stop ≤ start then none
        else some {
          eventid := p.eventid
          objectid := p.objectid
          host := h.name
          hostid := h.hostid
          name := p.name
          severity := p.severity
          start
          began := p.clock
          stop
          resolved := decide resolved
          acknowledged := p.acknowledged }

/-- The recovery clocks of the qualifying problems: those of the window's recoveries,
and the others asked for by id. -/
def recoveryClocks (zabbix : ZabbixReads) (recoveries : List RecoveryEvent)
    (qualifying : List ProblemEvent) : OrderedMap Nat ℤ :=
  let known := OrderedMap.ofList (recoveries.map fun r => (r.eventid, r.clock))
  let recoveryIds := (qualifying.map (·.r_eventid)).filter fun id => id ≠ 0 && !known.contains id
  let asked := (chunk BATCH recoveryIds).flatMap zabbix.eventClocks
  asked.foldl (fun map row => map.set row.1 row.2) known

structure WindowReads where
  inWindow : List ProblemEvent
  before : List ProblemEvent
  older : List ProblemEvent
  recoveries : List RecoveryEvent

def readWindow (zabbix : ZabbixReads) (slices : SliceOptions) (window : ReportWindow)
    (minSeverity : ℤ) : Except ZabbixApiError WindowReads := do
  let severities := severitiesAtLeast minSeverity
  let lookFrom := window.windowFrom - OPEN_AT_START_LOOKBACK
  let inWindow ← fetchEventsSliced (zabbix.problemEvents severities) slices window.windowFrom
    window.windowTo
  let before ← fetchEventsSliced (zabbix.problemEvents severities) slices lookFrom
    (window.windowFrom - 1)
  let recoveries ← fetchEventsSliced zabbix.recoveryEvents slices window.windowFrom window.windowTo
  return ⟨inWindow, before, stillOpenBefore zabbix (lookFrom - 1) minSeverity, recoveries⟩

def incidentsOf (zabbix : ZabbixReads) (window : ReportWindow) (minSeverity : ℤ)
    (reads : WindowReads) : IncidentReport :=
  let lookFrom := window.windowFrom - OPEN_AT_START_LOOKBACK
  -- Keyed by id: a problem raised between the reads could come back from two.
  let read := OrderedMap.addAll (·.eventid) .empty (reads.older ++ reads.before ++ reads.inWindow)
  let explained := (read.values.map (·.r_eventid)).filter fun id => id ≠ 0
  let ended := endedInWindow zabbix reads.recoveries explained lookFrom minSeverity
  let events := OrderedMap.addAll (·.eventid) read ended.problems
  let qualifying := events.values.filter fun p => (p.severity : ℤ) ≥ minSeverity
  let clocks := recoveryClocks zabbix reads.recoveries qualifying
  { incidents := qualifying.filterMap (toIncident window clocks)
    window
    truncated := ended.incomplete }

/-- Event history replayed into incidents, clipped to the window. -/
def fetchIncidents (zabbix : ZabbixReads) (slices : SliceOptions) (window : ReportWindow)
    (minSeverity : ℤ) : Except ZabbixApiError IncidentReport := do
  let reads ← readWindow zabbix slices window minSeverity
  return incidentsOf zabbix window minSeverity reads

end ZabbixPortal.Services
