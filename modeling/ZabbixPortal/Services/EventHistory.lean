import ZabbixPortal.Services.Incidents
import ZabbixPortal.Sli.EventsProperties
import Mathlib.Data.Prod.Lex

/-! The event history behind the reports, and what Zabbix answers from it. Events are
ordered by clock, and by id within a second. -/

set_option autoImplicit false

namespace ZabbixPortal.Services

open Foundation Sli

abbrev Moment := ℤ ×ₗ ℕ

def ProblemEvent.moment (p : ProblemEvent) : Moment := toLex (p.clock, p.eventid)

def RecoveryEvent.moment (r : RecoveryEvent) : Moment := toLex (r.clock, r.eventid)

/-- A history in which a trigger has at most one problem open at a time. -/
structure EventHistory where
  problems : List ProblemEvent
  /-- The OK events. -/
  recoveries : List RecoveryEvent
  /-- The triggers that exist. -/
  priority : Nat → Option Nat
  problemsOrdered : problems.Pairwise fun p q => p.moment < q.moment
  recoveriesOrdered : recoveries.Pairwise fun r s => r.moment < s.moment
  problemIds : (problems.map (·.eventid)).Nodup
  recoveryIds : (recoveries.map (·.eventid)).Nodup
  severityBound : ∀ p ∈ problems, p.severity ≤ 5
  triggerListed : ∀ p ∈ problems, priority p.objectid = some p.severity
  oneHost : ∀ p ∈ problems, ∃ h, p.hosts = [h]
  recovered : ∀ p ∈ problems, p.r_eventid ≠ 0 → ∃ r ∈ recoveries,
    r.eventid = p.r_eventid ∧ r.objectid = p.objectid ∧ p.moment < r.moment
  oneOpen : ∀ p ∈ problems, ∀ q ∈ problems, p.objectid = q.objectid → p.moment < q.moment →
    ∃ r ∈ recoveries, r.eventid = p.r_eventid ∧ p.r_eventid ≠ 0 ∧ r.moment < q.moment

namespace EventHistory

variable (history : EventHistory)

/-- An OK event of a trigger closes its problem that is open: what looking at a trigger's
first recovery relies on. -/
def OkCloses : Prop :=
  ∀ p ∈ history.problems, ∀ ok ∈ history.recoveries, ok.objectid = p.objectid →
    p.moment < ok.moment → ∃ r ∈ history.recoveries, r.eventid = p.r_eventid ∧
      p.r_eventid ≠ 0 ∧ r.moment ≤ ok.moment

instance : Decidable history.OkCloses :=
  inferInstanceAs (Decidable (∀ p ∈ history.problems, ∀ ok ∈ history.recoveries,
    ok.objectid = p.objectid → p.moment < ok.moment → ∃ r ∈ history.recoveries,
      r.eventid = p.r_eventid ∧ p.r_eventid ≠ 0 ∧ r.moment ≤ ok.moment))

def problemsOf (severities : List Nat) : List ProblemEvent :=
  history.problems.filter fun p => p.severity ∈ severities

def zabbix : ZabbixReads where
  problemEvents severities lower upper limit :=
    (inRange (·.clock) lower upper (history.problemsOf severities)).take limit
  recoveryEvents lower upper limit := (inRange (·.clock) lower upper history.recoveries).take limit
  openProblems severities till :=
    ((history.problemsOf severities).filter fun p => p.r_eventid = 0 ∧ p.clock ≤ till).map
      (·.eventid)
  problemsById severities ids :=
    (history.problemsOf severities).filter fun p => p.eventid ∈ ids
  priorities ids := ids.filterMap fun id => (history.priority id).map fun p => (id, p)
  latestProblem severities trigger till :=
    ((history.problemsOf severities).filter fun p =>
      p.objectid = trigger ∧ p.clock ≤ till).getLast?
  eventClocks ids :=
    (history.recoveries.filter fun r => r.eventid ∈ ids).map fun r => (r.eventid, r.clock)

/-- When a problem was resolved; none while it is open. -/
def recoveryClock (p : ProblemEvent) : Option ℤ :=
  if p.r_eventid = 0 then none
  else (history.recoveries.find? fun r => r.eventid = p.r_eventid).map (·.clock)

def stop (window : ReportWindow) (p : ProblemEvent) : ℤ :=
  min ((history.recoveryClock p).getD window.windowTo) window.windowTo

/-- A problem with time inside the window, at or above the floor. -/
def Counts (window : ReportWindow) (minSeverity : ℤ) (p : ProblemEvent) : Prop :=
  p ∈ history.problems ∧ minSeverity ≤ p.severity ∧
    max p.clock window.windowFrom < history.stop window p

/-- A problem that began before the look-back and was resolved after the window. -/
def Spans (window : ReportWindow) (p : ProblemEvent) : Prop :=
  p.clock < window.windowFrom - OPEN_AT_START_LOOKBACK ∧
    ∃ clock, history.recoveryClock p = some clock ∧ window.windowTo < clock

def incident (window : ReportWindow) (p : ProblemEvent) : Incident where
  eventid := p.eventid
  objectid := p.objectid
  host := (p.hosts.head?.map (·.name)).getD ""
  hostid := (p.hosts.head?.map (·.hostid)).getD ""
  name := p.name
  severity := p.severity
  start := max p.clock window.windowFrom
  began := p.clock
  stop := history.stop window p
  resolved := p.r_eventid ≠ 0
  acknowledged := p.acknowledged

end EventHistory

end ZabbixPortal.Services
