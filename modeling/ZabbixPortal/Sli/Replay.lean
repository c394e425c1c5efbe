import ZabbixPortal.Foundation.Grouping
import ZabbixPortal.Sli.Events
import ZabbixPortal.Sli.Intervals

/-! Replaying the availability triggers: each trigger's PROBLEM/OK events across the
window, starting from the state it was in when the window opened. -/

set_option autoImplicit false

namespace ZabbixPortal.Sli

open Foundation

/-- `1` and `0` on an event or a trigger. -/
inductive TriggerValue where
  | problem
  | ok
deriving DecidableEq, Repr

structure TriggerEvent where
  clock : ℤ
  value : TriggerValue
deriving DecidableEq, Repr

structure ZEvent where
  eventid : String
  objectid : String
  clock : ℤ
  value : TriggerValue
deriving DecidableEq, Repr

structure ZHost where
  hostid : String
  name : String
  status : String
deriving DecidableEq, Repr

structure ZTrigger where
  triggerid : String
  value : TriggerValue
  lastchange : ℤ
  hosts : List ZHost
deriving DecidableEq, Repr

structure Replay where
  intervals : List Interval
  incidents : Nat
deriving DecidableEq, Repr

/-- One trigger's replay under way: where the open outage began, if one is. -/
structure ReplayState where
  opened : Option ℤ
  replay : Replay
deriving DecidableEq, Repr

def replayEvent (windowFrom endClip : ℤ) (state : ReplayState) (event : TriggerEvent) :
    ReplayState :=
  if event.clock < windowFrom ∨ event.clock > endClip then state
  else
    match event.value, state.opened with
    | .problem, none =>
        { opened := some event.clock
          replay := { state.replay with incidents := state.replay.incidents + 1 } }
    | .problem, some _ => state
    | .ok, none => state
    | .ok, some start =>
        { opened := none
          replay := if event.clock > start then
              { state.replay with intervals := state.replay.intervals ++ [(start, event.clock)] }
            else state.replay }

def ReplayState.finish (state : ReplayState) (endClip : ℤ) : Replay :=
  match state.opened with
  | some start =>
      if endClip > start then
        { state.replay with intervals := state.replay.intervals ++ [(start, endClip)] }
      else state.replay
  | none => state.replay

/-- Replay one trigger's events across `[from, endClip)`. A repeated PROBLEM while
already in problem is one outage, not two. -/
def intervalsFor (events : List TriggerEvent) (initialProblem : Bool)
    (windowFrom endClip : ℤ) : Replay :=
  let initial : ReplayState := {
    opened := if initialProblem then some windowFrom else none
    replay := { intervals := [], incidents := if initialProblem then 1 else 0 } }
  (events.foldl (replayEvent windowFrom endClip) initial).finish endClip

def initialState (eventsInWindow : List TriggerEvent) (trigger : ZTrigger) (windowEnd : ℤ)
    (firstLater : Option TriggerValue) : Bool :=
  match eventsInWindow with
  | first :: _ => first.value = .ok
  | [] =>
      if trigger.lastchange < windowEnd ∨ firstLater = none then trigger.value = .problem
      else firstLater = some .ok

abbrev EventGet := List String → ℤ → ℤ → Nat → List ZEvent

/-- What `firstEventsAfter` has so far: the first later value per trigger, the
triggers still asked about, and where the next search starts. -/
structure LaterSearch where
  found : OrderedMap String TriggerValue
  pending : List String
  start : ℤ

def noteFirst (found : OrderedMap String TriggerValue) (event : ZEvent) :
    OrderedMap String TriggerValue :=
  if found.contains event.objectid then found else found.set event.objectid event.value

def searchLater (get : EventGet) (options : SliceOptions) (now : ℤ) (search : LaterSearch) :
    List ℤ → Except ZabbixApiError (OrderedMap String TriggerValue)
  | [] => .ok search.found
  | span :: spans =>
      if search.pending.isEmpty ∨ search.start > now then .ok search.found
      else do
        let till := min now (search.start + span)
        let events ← fetchEventsSliced (get search.pending) options search.start till
        let found := events.foldl noteFirst search.found
        searchLater get options now
          { found, pending := search.pending.filter fun id => !found.contains id, start := till + 1 }
          spans

def laterSpans : List ℤ := [7 * 86400, 30 * 86400, 120 * 86400, 400 * 86400]

/-- First event at or after `end` per trigger, widening the search until found or now. -/
def firstEventsAfter (get : EventGet) (options : SliceOptions) (triggerids : List String)
    (windowEnd now : ℤ) : Except ZabbixApiError (OrderedMap String TriggerValue) :=
  searchLater get options now ⟨.empty, triggerids, windowEnd⟩ laterSpans

structure TriggerHistory where
  eventsByTrigger : OrderedMap String (List ZEvent)
  firstLater : OrderedMap String TriggerValue
deriving DecidableEq

/-- The event reads of `computeSli`: the window's events of every trigger, then the
first later event of those quiet in the window that changed afterwards. -/
def readTriggerHistory (get : EventGet) (options : SliceOptions) (triggers : List ZTrigger)
    (windowFrom windowEnd now : ℤ) : Except ZabbixApiError TriggerHistory := do
  let events ←
    if triggers.isEmpty then .ok []
    else fetchEventsSliced (get (triggers.map (·.triggerid))) options windowFrom (windowEnd - 1)
  let eventsByTrigger := groupBy (·.objectid) events
  let quietChangedLater := (triggers.filter fun trigger =>
    !eventsByTrigger.contains trigger.triggerid && trigger.lastchange ≥ windowEnd).map (·.triggerid)
  let firstLater ←
    if quietChangedLater.isEmpty then .ok .empty
    else firstEventsAfter get options quietChangedLater windowEnd now
  return ⟨eventsByTrigger, firstLater⟩

def TriggerHistory.replay (history : TriggerHistory) (trigger : ZTrigger)
    (windowFrom windowEnd endClip : ℤ) : Replay :=
  let events := ((history.eventsByTrigger.get? trigger.triggerid).getD []).map
    fun event => TriggerEvent.mk event.clock event.value
  let initial := initialState events trigger windowEnd (history.firstLater.get? trigger.triggerid)
  intervalsFor events initial windowFrom endClip

end ZabbixPortal.Sli
