import ZabbixPortal.Core.Cache
import ZabbixPortal.Services.Actions

/-! Calls of `cached` as they interleave: callers wait for fetches, fetches read other
keys and settle in any order, and write-backs invalidate in between. A fetch never waits
for its own key. -/

set_option autoImplicit false

namespace ZabbixPortal.Services

open Foundation Core

/-- Where a value comes from: the step its fetch began at and the reads of the cache its
fetch was given answers to, each with its key, the step it began at and the answer's own
origin. -/
inductive Origin where
  | fetch (startedAt : Nat) (reads : List (String × Nat × Origin))

def Origin.startedAt : Origin → Nat
  | .fetch startedAt _ => startedAt

structure Fetched (α : Type) where
  content : α
  origin : Origin

structure Request where
  key : String
  ttlMs : ℤ
  options : CacheOptions
deriving DecidableEq, Repr

structure Settlement (α : Type) where
  step : Nat
  /-- None when it failed. -/
  result : Option (Fetched α)

structure Flight (α : Type) where
  key : String
  pin : Bool
  cancelled : Bool
  reads : List (String × Nat × Origin)
  settled : Option (Settlement α)

structure Call (α : Type) where
  request : Request
  /-- The fetch that makes the call, when one does. -/
  parent : Option Nat
  begunAt : Nat
  now : ℤ
  held : Bool
  hit : Option (Entry (Fetched α))

structure Waiting (α : Type) where
  call : Call α
  flight : Nat

structure Answer (α : Type) where
  call : Call α
  value : Fetched α
  /-- How the fetch the call waited for ended, when it waited for one. -/
  awaited : Option (Settlement α)
  held : Bool
  stored : Option (Entry (Fetched α))

inductive CacheEvent (α : Type) where
  | answered (answer : Answer α)
  | threw (call : Call α)
  | wroteBack (step : Nat)

/-- The cache and everything that waits on it. A fetch is known by the step it began at,
and so is a call. -/
structure CacheSystem (α : Type) where
  cache : Cache (Fetched α)
  flights : OrderedMap Nat (Flight α)
  waiting : List (Waiting α)
  steps : Nat
  /-- What has happened so far. -/
  log : List (CacheEvent α)

namespace CacheSystem

variable {α : Type}

def idle : CacheSystem α :=
  { cache := .empty, flights := .empty, waiting := [], steps := 0, log := [] }

def noteRead (flights : OrderedMap Nat (Flight α)) (parent : Option Nat)
    (read : String × Nat × Origin) : OrderedMap Nat (Flight α) :=
  flights.mapValues fun number flight =>
    if parent = some number ∧ flight.settled.isNone then
      { flight with reads := flight.reads ++ [read] }
    else flight

def answer (system : CacheSystem α) (answer : Answer α) : CacheSystem α :=
  { system with
    flights := noteRead system.flights answer.call.parent
      (answer.call.request.key, answer.call.begunAt, answer.value.origin)
    log := system.log ++ [.answered answer] }

def begin (system : CacheSystem α) (key : String) (pin : Bool) : CacheSystem α :=
  { system with
    cache := { system.cache with inflight := system.cache.inflight.set key system.steps }
    flights := system.flights.set system.steps
      { key, pin, cancelled := false, reads := [], settled := none } }

def await (system : CacheSystem α) (call : Call α) : CacheSystem α :=
  match system.cache.inflight.get? call.request.key with
  | some flight => { system with waiting := system.waiting ++ [{ call, flight }] }
  | none =>
      let begun := system.begin call.request.key call.request.options.pin
      { begun with waiting := begun.waiting ++ [{ call, flight := system.steps }] }

/-- A stale answer starts the value's one background refresh, unless a fetch is in flight. -/
def refreshBehind (system : CacheSystem α) (request : Request) (entry : Entry (Fetched α)) :
    CacheSystem α :=
  let starts := !entry.refreshing && !system.cache.inflight.contains request.key
  let entry := { entry with refreshing := entry.refreshing || starts }
  let served := { system with cache := system.cache.remember request.key entry }
  if starts then served.begin request.key request.options.pin else served

def isRunning (system : CacheSystem α) (flight : Nat) : Bool :=
  ((system.flights.get? flight).map fun flight => flight.settled.isNone).getD false

/-- `cached(key, ttlMs, fn, options)` up to its wait, called by a running fetch or by
nobody that is one. -/
def call (system : CacheSystem α) (now : ℤ) (request : Request) (parent : Option Nat) :
    CacheSystem α :=
  let held := system.cache.isHeld request.key now
  let system := { system with cache := system.cache.dropEnded now }
  let call : Call α :=
    { request, parent := parent.filter system.isRunning, begunAt := system.steps, now, held
      hit := system.cache.store.get? request.key }
  let answered (entry : Entry (Fetched α)) : Answer α :=
    { call, value := entry.v, awaited := none, held, stored := some entry }
  match system.cache.lookup request.key request.ttlMs request.options held now with
  | .fresh entry =>
      { system with cache := system.cache.remember request.key entry }.answer (answered entry)
  | .stale entry => (system.refreshBehind request entry).answer (answered entry)
  | .missing => system.await call

/-- What a fetch that is over leaves in the store: its value, unless it was cancelled. -/
def keepResult (approxBytes : α → Nat) (cache : Cache (Fetched α)) (flight : Flight α)
    (result : Option (Fetched α)) (now : ℤ) : Cache (Fetched α) :=
  match result with
  | none => cache
  | some v =>
      if flight.cancelled then cache
      else cache.keep (fun v => approxBytes v.content) flight.key v flight.pin now

/-- Only a fetch's own record goes: a newer fetch may own the key. -/
def deregister (cache : Cache (Fetched α)) (key : String) (number : Nat) : Cache (Fetched α) :=
  if cache.inflight.get? key = some number then
    { cache with inflight := cache.inflight.delete key }
  else cache

def settle (approxBytes : α → Nat) (system : CacheSystem α) (now : ℤ) (number : Nat)
    (outcome : Option α) : CacheSystem α :=
  match system.flights.get? number with
  | none => system
  | some flight =>
      if flight.settled.isSome then system
      else
        let result := outcome.map fun content =>
          { content, origin := .fetch number flight.reads }
        { system with
          cache := deregister (keepResult approxBytes system.cache flight result now) flight.key
            number
          flights := system.flights.set number
            { flight with settled := some { step := system.steps, result } } }

/-- A caller whose fetch is over goes on: with its value, or after a failure with the last
stored one where the call allows it. -/
def resume (system : CacheSystem α) (now : ℤ) (number : Nat) : CacheSystem α :=
  match system.waiting.find? fun waiting => waiting.call.begunAt = number with
  | none => system
  | some { call, flight } =>
      match (system.flights.get? flight).bind (·.settled) with
      | none => system
      | some settlement =>
          let key := call.request.key
          let system :=
            { system with
              waiting := system.waiting.filter fun other => other.call.begunAt ≠ number }
          let stored := system.cache.store.get? key
          let answered (value : Fetched α) : Answer α :=
            { call, value, awaited := some settlement, held := system.cache.isHeld key now, stored }
          match settlement.result with
          | some value => system.answer (answered value)
          | none =>
              match if call.request.options.staleIfError && !call.held then stored else none with
              | none => { system with log := system.log ++ [.threw call] }
              | some last =>
                  { system with cache := system.cache.remember key last }.answer (answered last.v)

def invalidate (system : CacheSystem α) (now : ℤ) (start : String) (holdMs : Option ℤ) :
    CacheSystem α :=
  let cancelled := system.cache.cancelledBy start
  { system with
    cache := system.cache.invalidate start holdMs now
    flights := system.flights.mapValues fun number flight =>
      if number ∈ cancelled then { flight with cancelled := true } else flight }

def invalidateAll (system : CacheSystem α) (now : ℤ) (starts : List String) : CacheSystem α :=
  starts.foldl (fun system start => system.invalidate now start (some WRITE_HOLD_MS)) system

def writeBack (system : CacheSystem α) (now : ℤ) : CacheSystem α :=
  let system := system.invalidateAll now STALE_AFTER_WRITE
  { system with log := system.log ++ [.wroteBack system.steps] }

end CacheSystem

inductive CacheAction (α : Type) where
  | call (request : Request) (parent : Option Nat)
  | settle (flight : Nat) (outcome : Option α)
  | resume (call : Nat)
  | invalidate (start : String) (holdMs : Option ℤ)
  | writeBack

namespace CacheSystem

variable {α : Type}

def act (approxBytes : α → Nat) (system : CacheSystem α) (turn : ℤ × CacheAction α) :
    CacheSystem α :=
  match turn.2 with
  | .call request parent => system.call turn.1 request parent
  | .settle flight outcome => system.settle approxBytes turn.1 flight outcome
  | .resume call => system.resume turn.1 call
  | .invalidate start holdMs => system.invalidate turn.1 start holdMs
  | .writeBack => system.writeBack turn.1

def step (approxBytes : α → Nat) (system : CacheSystem α) (turn : ℤ × CacheAction α) :
    CacheSystem α :=
  let next := system.act approxBytes turn
  { next with steps := system.steps + 1 }

def run (approxBytes : α → Nat) (turns : List (ℤ × CacheAction α)) : CacheSystem α :=
  turns.foldl (step approxBytes) idle

end CacheSystem

end ZabbixPortal.Services
