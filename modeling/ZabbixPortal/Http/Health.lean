import Mathlib.Data.Int.Notation
import Mathlib.Data.Nat.Notation

/-! The cached readiness check: whether Zabbix and the model answer, asked by any number of
callers. Times are in milliseconds; the clock stands still while a callback runs. -/

set_option autoImplicit false

namespace ZabbixPortal.Http.Health

inductive ZabbixState where
  | ok
  | tokenRejected
  | timeout
  | error
deriving DecidableEq, Repr

inductive ModelState where
  | ok
  | down
  | off
  | notChecked
deriving DecidableEq, Repr

structure Readiness where
  ok : Bool
  zabbix : ZabbixState
  /-- None when Zabbix did not answer. -/
  zabbixMs : Option ℤ
  model : ModelState
  checkedAt : ℤ
deriving DecidableEq, Repr

/-- What the call to Zabbix, or the race against the limit, is rejected with. -/
inductive Failure where
  | timedOut
  | zabbixTimeoutError
  | zabbixAuthError
  | other
deriving DecidableEq, Repr

def stateOf : Failure → ZabbixState
  | .timedOut => .timeout
  | .zabbixTimeoutError => .timeout
  | .zabbixAuthError => .tokenRejected
  | .other => .error

structure ReadinessOptions where
  ttlMs : ℤ := 15000
  staleMs : ℤ := 60000
  timeoutMs : ℤ := 2000

inductive Phase where
  | checking (zabbix : Option (ZabbixState × Option ℤ)) (model : Option ModelState)
  /-- `check()` has resolved; `last` is not set yet. -/
  | checked (answer : Readiness)
  /-- `last` is set; `flight` is not cleared yet. -/
  | stored (answer : Readiness)
deriving DecidableEq, Repr

structure Flight where
  call : ℕ
  started : ℤ
  phase : Phase
deriving DecidableEq, Repr

structure Waiter where
  caller : ℕ
  asked : ℤ
  call : ℕ
deriving DecidableEq, Repr

inductive Entry where
  | began (call : ℕ) (now : ℤ) (warm : Bool)
  /-- The call is answered or fails, also after it was given up. -/
  | zabbix (call : ℕ) (now : ℤ) (failure : Option Failure)
  | rang (call : ℕ) (now : ℤ)
  | model (call : ℕ) (answer : Option ModelState)
  | read (call : ℕ) (answer : Readiness)
  | stored (call : ℕ) (answer : Readiness)
  | landed (call : ℕ)
  /-- The caller is answered at once. -/
  | served (caller : ℕ) (now : ℤ) (answer : Readiness)
  | waits (waiter : Waiter)
  | given (waiter : Waiter) (now : ℤ) (answer : Readiness)

structure State where
  now : ℤ
  /-- How many checks began. -/
  calls : ℕ
  last : Option Readiness
  flight : Option Flight
  waiting : List Waiter
  log : List Entry

def State.start (now : ℤ) : State := ⟨now, 0, none, none, [], []⟩

def State.note (state : State) (entry : Entry) : State :=
  { state with log := state.log ++ [entry] }

def refresh (warm : Bool) (state : State) : State :=
  match state.flight with
  | some _ => state
  | none =>
      { state with
        calls := state.calls + 1
        flight := some ⟨state.calls, state.now, .checking none none⟩ }.note
          (.began state.calls state.now warm)

/-- `return refresh()`: the caller is answered when the check lands. -/
def awaitRefresh (caller : ℕ) (state : State) : State :=
  let state := refresh false state
  match state.flight with
  | none => state
  | some flight =>
      let waiter : Waiter := ⟨caller, state.now, flight.call⟩
      { state with waiting := state.waiting ++ [waiter] }.note (.waits waiter)

def get (opts : ReadinessOptions) (caller : ℕ) (state : State) : State :=
  match state.last with
  | none => awaitRefresh caller state
  | some last =>
      let age := state.now - last.checkedAt
      if age < opts.ttlMs then state.note (.served caller state.now last)
      else if age < opts.staleMs then
        (refresh false state).note (.served caller state.now last)
      else awaitRefresh caller state

def Flight.race (flight : Flight) (outcome : ZabbixState × Option ℤ) : Flight :=
  match flight.phase with
  | .checking none model => { flight with phase := .checking (some outcome) model }
  | _ => flight

def Flight.hears (flight : Flight) (answer : ModelState) : Flight :=
  match flight.phase with
  | .checking zabbix none => { flight with phase := .checking zabbix (some answer) }
  | _ => flight

def State.reaches (state : State) (call : ℕ) (change : Flight → Flight) : State :=
  { state with
    flight := state.flight.map fun flight => if flight.call = call then change flight else flight }

inductive Event where
  | passes (ms : ℕ)
  | warms
  | asks (caller : ℕ)
  | zabbixSettles (call : ℕ) (failure : Option Failure)
  | limitRings
  | modelSettles (call : ℕ) (answer : Option ModelState)
  /-- Both probes are in. -/
  | resolves
  | stores
  | lands

def outcomeOf (started now : ℤ) : Option Failure → ZabbixState × Option ℤ
  | none => (.ok, some (now - started))
  | some failure => (stateOf failure, none)

def step (opts : ReadinessOptions) (state : State) : Event → State
  | .passes ms => { state with now := state.now + ms }
  | .warms => refresh true state
  | .asks caller => get opts caller state
  | .zabbixSettles call failure =>
      if call < state.calls then
        (state.reaches call fun flight =>
          flight.race (outcomeOf flight.started state.now failure)).note
            (.zabbix call state.now failure)
      else state
  | .limitRings =>
      match state.flight with
      | some ⟨call, started, .checking zabbix model⟩ =>
          if started + opts.timeoutMs ≤ state.now then
            { state with
              flight := some (Flight.race ⟨call, started, .checking zabbix model⟩
                (outcomeOf started state.now (some .timedOut))) }.note (.rang call state.now)
          else state
      | _ => state
  | .modelSettles call answer =>
      if call < state.calls then
        (state.reaches call fun flight => flight.hears (answer.getD .down)).note (.model call answer)
      else state
  | .resolves =>
      match state.flight with
      | some ⟨call, started, .checking (some (zabbix, ms)) (some model)⟩ =>
          let answer : Readiness := ⟨zabbix = .ok, zabbix, ms, model, state.now⟩
          { state with flight := some ⟨call, started, .checked answer⟩ }.note (.read call answer)
      | _ => state
  | .stores =>
      match state.flight with
      | some ⟨call, started, .checked answer⟩ =>
          { state with
            last := some answer
            flight := some ⟨call, started, .stored answer⟩ }.note (.stored call answer)
      | _ => state
  | .lands =>
      match state.flight with
      | some ⟨call, _, .stored answer⟩ =>
          { state with
            flight := none
            waiting := []
            log := state.log ++ .landed call ::
              state.waiting.map fun waiter => .given waiter state.now answer }
      | _ => state

def run (opts : ReadinessOptions) (now : ℤ) (events : List Event) : State :=
  events.foldl (step opts) (.start now)

end ZabbixPortal.Http.Health
