import Mathlib.Algebra.Order.Floor.Ring
import Mathlib.Data.Rat.Floor

/-! An open page keeps itself signed in: one timer, one renewal on its way at a time. Times are
in milliseconds. -/

set_option autoImplicit false

namespace ZabbixPortal.Web.SessionRenewal

def marginMs : ℚ := 60 * 60000
def checkMs : ℤ := 60000
def retryMs : ℤ := 60000
def retryMaxMs : ℤ := 10 * 60000
def minGapMs : ℤ := 30000

structure Session where
  endsAt : ℚ
  lifeMs : ℚ

/-- What the hook finds around it when it looks. -/
structure Around where
  now : ℤ
  session : Option Session
  signedOut : Bool

inductive Outcome where
  | renewed
  | failed
  | signedOut
deriving DecidableEq, Repr

structure State where
  alive : Bool
  busy : Bool
  /-- When the timer rings. -/
  timer : Option ℤ
  retry : ℤ
  notBefore : ℤ
deriving DecidableEq, Repr

inductive Entry where
  /-- The timer is set to the next look while the page is signed out. -/
  | idles (now rings : ℤ)
  /-- The timer is set to when a renewal may be due. -/
  | waits (around : Around) (rings : ℤ)
  | started (around : Around)
  | answered (now : ℤ) (outcome : Outcome)

def State.start : State := ⟨true, false, none, retryMs, 0⟩

def Session.dueAt (session : Session) : ℚ := session.endsAt - min marginMs (session.lifeMs / 4)

def Around.dueIn (around : Around) : ℚ :=
  match around.session with
  | none => 0
  | some session => session.dueAt - around.now

def wait (notBefore : ℤ) (around : Around) : ℚ := max around.dueIn (notBefore - around.now)

/-- When `arm(ms)` rings; a timer counts whole milliseconds. -/
def rings (now : ℤ) (ms : ℚ) : ℤ := now + ⌊max 0 (min (checkMs : ℚ) ms)⌋

def State.arm (state : State) (ringsAt : ℤ) : State := { state with timer := some ringsAt }

def State.idle (state : State) (now : ℤ) : State × List Entry :=
  let ringsAt := rings now checkMs
  (state.arm ringsAt, [.idles now ringsAt])

def State.await (state : State) (around : Around) : State × List Entry :=
  let ringsAt := rings around.now (wait state.notBefore around)
  (state.arm ringsAt, [.waits around ringsAt])

def tick (state : State) (around : Around) : State × List Entry :=
  if !state.alive || state.busy then (state, [])
  else if around.signedOut then state.idle around.now
  else if 0 < wait state.notBefore around then state.await around
  else ({ state with busy := true }, [.started around])

def State.heed (state : State) (around : Around) : Outcome → State × List Entry
  | .signedOut => state.idle around.now
  | .renewed =>
      State.await { state with retry := retryMs, notBefore := around.now + minGapMs } around
  | .failed =>
      State.await
        { state with
          notBefore := around.now + state.retry
          retry := min (state.retry * 2) retryMaxMs } around

/-- The rest of `tick` once `renewSession` has settled. -/
def settle (state : State) (around : Around) (outcome : Outcome) : State × List Entry :=
  let state := { state with busy := false }
  let after := if !state.alive then (state, []) else state.heed around outcome
  (after.1, .answered around.now outcome :: after.2)

inductive Event where
  /-- The timer rings, then or later: it does not run while the machine sleeps. -/
  | rang (around : Around)
  /-- The page shows, gains focus or comes back online. -/
  | woke (around : Around) (hidden : Bool)
  | answered (around : Around) (outcome : Outcome)
  | left

def step (state : State) : Event → State × List Entry
  | .rang around =>
      match state.timer with
      | none => (state, [])
      | some ringsAt =>
          if around.now < ringsAt then (state, [])
          else tick { state with timer := none } around
  | .woke around hidden => if !state.alive || hidden then (state, []) else tick state around
  | .answered around outcome => if state.busy then settle state around outcome else (state, [])
  | .left => ({ state with alive := false, timer := none }, [])

/-- The effect runs, looks for the first time, and then whatever happens happens. -/
def run (first : Around) (events : List Event) : State × List Entry :=
  events.foldl (fun run event =>
    let next := step run.1 event
    (next.1, run.2 ++ next.2)) (tick .start first)

end ZabbixPortal.Web.SessionRenewal
