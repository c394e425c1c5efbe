import ZabbixPortal.Foundation.Firsts
import ZabbixPortal.Foundation.Runs
import ZabbixPortal.Web.LiveChange

/-! The marks of problems that appeared in or cleared from the open list, on the wall. Times are
in milliseconds. -/

set_option autoImplicit false

namespace ZabbixPortal.Web.ChangeHighlight

open Foundation

def highlightMs : ℤ := 10000

/-- What the hook is called with. `opened` is none before the first list. -/
structure Props where
  opened : Option (List Problem)
  held : List String
  on : Bool
  shownOf : List Problem → List Problem

structure Gone where
  problem : Problem
  ends : ℤ
deriving DecidableEq

structure State where
  previous : Option (OrderedMap String Problem)
  previousHeld : List String
  /-- When the mark of each new problem ends. -/
  fresh : OrderedMap String ℤ
  gone : OrderedMap String Gone
  timer : Option ℤ

def State.start : State := ⟨none, [], .empty, .empty, none⟩

def byId (problems : List Problem) : OrderedMap String Problem :=
  problems.foldl (fun map p => map.set p.eventid p) .empty

def ids (problems : List Problem) : List String := problems.map (·.eventid)

def added (before : OrderedMap String Problem) (heldBefore : List String)
    (opened : List Problem) : List Problem :=
  opened.filter fun p => !before.contains p.eventid && p.eventid ∉ heldBefore

def stillPlaced (props : Props) (opened : List Problem) (p : Problem) : Bool :=
  p.eventid ∈ ids (props.shownOf (opened ++ [p]))

/-- The problems that were on screen and are gone, but for the list being full of worse ones. -/
def removed (props : Props) (before : OrderedMap String Problem) (opened : List Problem) :
    List Problem :=
  before.values.filter fun p =>
    p.eventid ∉ ids opened && p.eventid ∉ props.held &&
      p.eventid ∈ ids (props.shownOf before.values) && stillPlaced props opened p

def setFresh (fresh : OrderedMap String ℤ) (added : List Problem) (ends : ℤ) :
    OrderedMap String ℤ :=
  added.foldl (fun map p => map.set p.eventid ends) fresh

def setGone (props : Props) (opened : List Problem) (gone : OrderedMap String Gone)
    (removed : List Problem) (ends : ℤ) : OrderedMap String Gone :=
  let kept := gone.filter fun entry =>
    entry.1 ∉ ids opened && stillPlaced props opened entry.2.problem
  removed.foldl (fun map p => map.set p.eventid ⟨p, ends⟩) kept

/-- The first effect: the list against the one before it. -/
def compare (state : State) (props : Props) (now : ℤ) : State :=
  match props.opened with
  | none => state
  | some opened =>
      let baseline := { state with previous := some (byId opened), previousHeld := props.held }
      match state.previous with
      | none => baseline
      | some before =>
          if !props.on then baseline
          else
            { baseline with
              fresh := setFresh state.fresh (added before state.previousHeld opened)
                (now + highlightMs)
              gone := setGone props opened state.gone (removed props before opened)
                (now + highlightMs) }

/-- The second effect: nothing is marked while the highlight is off. -/
def unmark (state : State) (on : Bool) : State :=
  if on then state else { state with fresh := .empty, gone := .empty }

def ends (state : State) : List ℤ := state.fresh.values ++ state.gone.values.map (·.ends)

/-- The third effect: the timer for the next mark to end. -/
def arm (state : State) (now : ℤ) : State :=
  { state with timer := (ends state).min?.map fun first => now + (max 0 (first - now) + 50) }

inductive Event where
  | shown (props : Props) (now : ℤ)
  | rang (now : ℤ)

def drop (state : State) (now : ℤ) : State :=
  { state with
    fresh := state.fresh.filter fun entry => now < entry.2
    gone := state.gone.filter fun entry => now < entry.2.ends }

def step (state : State) : Event → State
  | .shown props now =>
      let next := unmark (compare state props now) props.on
      if next.fresh.entries = state.fresh.entries ∧ next.gone.entries = state.gone.entries then next
      else arm next now
  | .rang now => arm (drop state now) now

def run (events : List Event) : State := events.foldl step .start

inductive ChangeMark where
  | new
  | cleared
deriving DecidableEq, Repr

/-- The marks the page draws: a problem that cleared is not new. -/
def State.mark (state : State) (id : String) : Option ChangeMark :=
  if state.gone.contains id then some .cleared
  else if state.fresh.contains id then some .new
  else none

end ZabbixPortal.Web.ChangeHighlight
