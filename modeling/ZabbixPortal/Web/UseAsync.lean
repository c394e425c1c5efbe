import Mathlib.Algebra.Order.Ring.Rat
import Mathlib.Data.List.Basic

/-! `useAsync`: the runs a page starts, the effects of its renders, and the state it shows. -/

set_option autoImplicit false

namespace ZabbixPortal.Web

variable {τ δ : Type}

structure AsyncSnapshot (τ δ : Type) where
  /-- The data, and the deps of the run it came from. -/
  data : Option (τ × δ)
  error : Option String
  loading : Bool
  stale : Bool
  updatedAt : Option ℚ

/-- A run; `aborted` is the state of its signal. -/
structure AsyncRun (δ : Type) where
  id : Nat
  deps : δ
  aborted : Bool

/-- The latest render; its fetcher belongs to its deps. -/
structure LatestRender (δ : Type) where
  deps : δ
  intervalMs : Option ℚ

structure AsyncPage (τ δ : Type) where
  snap : AsyncSnapshot τ δ
  latest : LatestRender δ
  -- the variables of `control`
  seq : Nat
  current : Option (AsyncRun δ)
  settledAt : ℚ
  /-- When the next poll is due, while its timer is armed. -/
  timer : Option ℚ
  /-- The run the `dropping` timer is for, while it is armed. -/
  dropping : Option Nat
  mounted : Bool
  -- React: the deps and the interval the passive effects last ran for, the listener, and whether
  -- the passive effects of the latest render are still to run
  attached : Option δ
  scheduled : Option (Option ℚ)
  listening : Bool
  pending : Bool
  -- the browser: the runs whose promise is not settled
  inFlight : List (AsyncRun δ)
  hidden : Bool
  now : ℚ

def AsyncPage.first (latest : LatestRender δ) (hidden : Bool) (now : ℚ) : AsyncPage τ δ where
  snap := ⟨none, none, true, false, none⟩
  latest := latest
  seq := 0
  current := none
  settledAt := 0
  timer := none
  dropping := none
  mounted := false
  attached := none
  scheduled := none
  listening := false
  pending := true
  inFlight := []
  hidden := hidden
  now := now

section Control

/-- Arm the next poll, counted from when the last run settled. -/
def schedule (p : AsyncPage τ δ) : AsyncPage τ δ :=
  match p.latest.intervalMs with
  | none => { p with timer := none }
  | some every =>
      if every = 0 || !p.mounted || p.current.isSome || p.hidden then { p with timer := none }
      else { p with timer := some (p.now + max 0 (p.settledAt + every - p.now)) }

def abortRun (run : Option (AsyncRun δ)) (runs : List (AsyncRun δ)) : List (AsyncRun δ) :=
  runs.map fun other =>
    { other with aborted := other.aborted || run.any fun run => run.id = other.id }

def startRun (depsChanged : Bool) (deps : δ) (p : AsyncPage τ δ) : AsyncPage τ δ :=
  let run : AsyncRun δ := ⟨p.seq + 1, deps, false⟩
  { p with
    timer := none
    seq := p.seq + 1
    current := some run
    inFlight := abortRun p.current p.inFlight ++ [run]
    snap :=
      if depsChanged then
        { p.snap with loading := true, error := none, stale := p.snap.data.isSome }
      else p.snap }

def isCurrent (id : Nat) (p : AsyncPage τ δ) : Bool := p.current.any fun run => run.id = id

/-- `finally`, for the current run. -/
def finishRun (p : AsyncPage τ δ) : AsyncPage τ δ :=
  schedule { p with current := none, settledAt := p.now }

def onSuccess (run : AsyncRun δ) (data : τ) (p : AsyncPage τ δ) : AsyncPage τ δ :=
  if isCurrent run.id p then
    finishRun { p with snap := ⟨some (data, run.deps), none, false, false, some p.now⟩ }
  else p

def onFailure (run : AsyncRun δ) (message : String) (p : AsyncPage τ δ) : AsyncPage τ δ :=
  if isCurrent run.id p then
    if run.aborted then finishRun p
    else finishRun { p with snap := { p.snap with error := some message, loading := false } }
  else p

def detach (p : AsyncPage τ δ) : AsyncPage τ δ :=
  { p with
    mounted := false
    timer := none
    dropping :=
      match p.current with
      | some run => some run.id
      | none => p.dropping }

def onDropping (id : Nat) (p : AsyncPage τ δ) : AsyncPage τ δ :=
  if isCurrent id p then
    { p with dropping := none, current := none, inFlight := abortRun p.current p.inFlight }
  else { p with dropping := none }

variable [DecidableEq δ]

/-- The deps effect: fetch for these `deps`. A remount keeps the request already running for the
same deps rather than aborting it and asking again. -/
def attach (deps : δ) (p : AsyncPage τ δ) : AsyncPage τ δ :=
  let rehearsal := p.dropping.isSome
  let attached := { p with mounted := true, dropping := none, attached := some deps }
  if rehearsal && p.current.any fun run => run.deps = deps then attached
  else startRun true deps attached

end Control

section Effects

variable [DecidableEq δ]

def depsChange (p : AsyncPage τ δ) : Bool := p.attached ≠ some p.latest.deps

/-- The page the deps effect attaches to: the effect before it has cleaned up. -/
def cleanedUp (p : AsyncPage τ δ) : AsyncPage τ δ := if p.attached.isSome then detach p else p

def depsEffect (p : AsyncPage τ δ) : AsyncPage τ δ :=
  if depsChange p then attach p.latest.deps (cleanedUp p) else p

def intervalEffect (p : AsyncPage τ δ) : AsyncPage τ δ :=
  if p.scheduled ≠ some p.latest.intervalMs then
    schedule { p with scheduled := some p.latest.intervalMs }
  else p

/-- `Boolean(intervalMs)` -/
def polling (latest : LatestRender δ) : Bool :=
  match latest.intervalMs with
  | some every => every ≠ 0
  | none => false

def passiveEffects (p : AsyncPage τ δ) : AsyncPage τ δ :=
  let scheduled := intervalEffect (depsEffect p)
  { scheduled with listening := polling scheduled.latest, pending := false }

inductive AsyncEvent (τ δ : Type)
  /-- A render, with its layout effect. -/
  | render (latest : LatestRender δ)
  | passive
  | poll
  | reload
  | succeed (run : AsyncRun δ) (data : τ)
  | fail (run : AsyncRun δ) (message : String)
  | drop (id : Nat)
  | hide
  | show'
  | unmount
  | tick (now : ℚ)

/-- What can happen next. A render starts when the passive effects of the one before have run, and
so does an unmount. -/
def AsyncEvent.Legal (p : AsyncPage τ δ) : AsyncEvent τ δ → Prop
  | .render _ => p.pending = false
  | .passive => p.pending = true
  | .poll => ∃ due, p.timer = some due ∧ due ≤ p.now
  | .reload => True
  | .succeed run _ => run ∈ p.inFlight
  | .fail run _ => run ∈ p.inFlight
  | .drop id => p.dropping = some id
  | .hide => p.hidden = false
  | .show' => p.hidden = true
  | .unmount => p.attached.isSome = true ∧ p.pending = false
  | .tick now => p.now ≤ now

def settle (run : AsyncRun δ) (p : AsyncPage τ δ) : AsyncPage τ δ :=
  { p with inFlight := p.inFlight.filter (·.id ≠ run.id) }

def onVisibilityChange (p : AsyncPage τ δ) : AsyncPage τ δ := if p.listening then schedule p else p

def asyncStep (p : AsyncPage τ δ) : AsyncEvent τ δ → AsyncPage τ δ
  | .render latest => { p with latest := latest, pending := true }
  | .passive => passiveEffects p
  | .poll => startRun false p.latest.deps { p with timer := none }
  | .reload => startRun false p.latest.deps p
  | .succeed run data => onSuccess run data (settle run p)
  | .fail run message => onFailure run message (settle run p)
  | .drop id => onDropping id p
  | .hide => onVisibilityChange { p with hidden := true }
  | .show' => onVisibilityChange { p with hidden := false }
  | .unmount =>
      let detached := detach p
      { detached with attached := none, scheduled := none, listening := false }
  | .tick now => { p with now := now }

/-- The pages a first render leads to, by events that are `allowed`. -/
inductive AsyncRuns (allowed : AsyncPage τ δ → AsyncEvent τ δ → Prop) :
    List (AsyncEvent τ δ) → AsyncPage τ δ → Prop
  | first (latest : LatestRender δ) (hidden : Bool) (now : ℚ) :
      AsyncRuns allowed [] (.first latest hidden now)
  | step {events : List (AsyncEvent τ δ)} {p : AsyncPage τ δ} (event : AsyncEvent τ δ) :
      AsyncRuns allowed events p → event.Legal p → allowed p event →
      AsyncRuns allowed (events ++ [event]) (asyncStep p event)

end Effects

end ZabbixPortal.Web
