import ZabbixPortal.Services.CachedReads
import ZabbixPortal.Services.Stream

/-! The live stream on top of the cache: its reads wait for fetches of the problem list,
and a write-back invalidates the list and has it sent again. One step is one turn of the
event loop, so the reads a fetch was waited for by go on in the turn in which it settles,
in the order they were started. -/

set_option autoImplicit false

namespace ZabbixPortal.Services

open Foundation Core

/-- `cached('problems', 5_000, getProblems)` -/
def problemsRequest : Request := { key := "problems", ttlMs := 5000, options := .plain }

def SNAPSHOT_KEY : String := "chat:snapshot"

structure PendingRead where
  read : Read
  flight : Nat
  /-- The write-back whose notification is over with this read. -/
  notifies : Option Nat
deriving DecidableEq, Repr

structure Portal (α : Type) where
  cache : CacheSystem α
  hub : Hub (Fetched α)
  /-- In the order they were started. -/
  pending : List PendingRead
  /-- The write-backs whose notification is over, each with the length of the stream's
  record at that moment. -/
  notified : List (Nat × Nat)
  /-- The reads that were waiting for a fetch from before a write-back when its notification
  was over with no screen connected. -/
  outlived : List Nat

structure Turn where
  now : ℤ
  room : Nat → Nat → Bool

def Turn.instant (turn : Turn) (read : Nat) : Instant := { now := turn.now, room := turn.room read }

/-- What a read makes of the fetch it waited for: `cached` with no options passes on its
value or its failure. -/
def outcomeOf {α : Type} (known : Bool) (result : Option (Fetched α)) :
    ReadOutcome (Fetched α) :=
  match result with
  | some value => .list value
  | none => .failed known

namespace Portal

variable {α : Type}

def idle : Portal α :=
  { cache := .idle, hub := .idle, pending := [], notified := [], outlived := [] }

def notificationOver (portal : Portal α) (write : Nat) : Portal α :=
  { portal with
    notified := portal.notified ++ [(write, portal.hub.log.length)]
    outlived := portal.outlived ++
      if portal.hub.clients.isEmpty then
        (portal.pending.filter fun pending => pending.flight < write).map (·.read.number)
      else [] }

section Rows

variable (rows : Fetched α → List ProblemRow) (approxBytes : α → Nat)

/-- The stream once a read has gone on to the end of `refresh`, and of what waits for it. -/
def landedHub (portal : Portal α) (turn : Turn) (read : Read)
    (outcome : ReadOutcome (Fetched α)) : Hub (Fetched α) :=
  let instant := turn.instant read.number
  let hub := portal.hub.step rows (instant, .land read.number outcome)
  if read.ticks then hub.step rows (instant, .settled) else hub

def landed (portal : Portal α) (turn : Turn) (pending : PendingRead)
    (outcome : ReadOutcome (Fetched α)) : Portal α :=
  let left :=
    { portal with
      hub := portal.landedHub rows turn pending.read outcome
      pending := portal.pending.filter fun other => other.read.number ≠ pending.read.number }
  match pending.notifies with
  | none => left
  | some write => left.notificationOver write

/-- A read the stream has started calls `cached`: it is answered from the store and over at
once, or it waits. -/
def fetch (portal : Portal α) (turn : Turn) (read : Read) (notifies : Option Nat) : Portal α :=
  let cache := portal.cache.step approxBytes (turn.now, .call problemsRequest none)
  let wait (flight : Nat) : Portal α :=
    { portal with cache, pending := portal.pending ++ [{ read, flight, notifies }] }
  match cache.log.drop portal.cache.log.length, cache.cache.inflight.get? problemsRequest.key with
  | .answered answer :: _, _ =>
      let flight := answer.value.origin.startedAt
      (wait flight).landed rows turn { read, flight, notifies } (.list answer.value)
  | _, some flight => wait flight
  | _, none => { portal with cache }

def streamed (portal : Portal α) (turn : Turn) (input : StreamInput (Fetched α))
    (notifies : Option Nat) : Portal α :=
  let hub := portal.hub.step rows (turn.instant 0, input)
  match hub.reads.drop portal.hub.reads.length with
  | [] => { portal with hub }
  | read :: _ => { portal with hub }.fetch rows approxBytes turn read notifies

def settled (portal : Portal α) (turn : Turn) (flight : Nat) (outcome : Option α)
    (known : Bool) : Portal α :=
  let next :=
    { portal with cache := portal.cache.step approxBytes (turn.now, .settle flight outcome) }
  if !portal.cache.isRunning flight then next
  else
    let settlement := (next.cache.flights.get? flight).bind (·.settled)
    let waiting := portal.pending.filter fun pending => pending.flight = flight
    waiting.foldl
      (fun portal pending =>
        portal.landed rows turn pending (outcomeOf known (settlement.bind (·.result))))
      next

def writeBack (portal : Portal α) (turn : Turn) : Portal α :=
  let write := portal.cache.steps
  let portal := { portal with cache := portal.cache.step approxBytes (turn.now, .writeBack) }
  if portal.hub.clients.isEmpty then portal.notificationOver write
  else portal.streamed rows approxBytes turn .notifyProblemsChanged (some write)

end Rows

end Portal

inductive PortalInput (α : Type) where
  | subscribe (owner : String) (alive : Bool)
  | leave (client : Nat)
  | endStreamOf (client : Nat)
  | endStreams
  | drain (client : Nat)
  | tick
  | writeBack
  /-- A fetch of any key returns a value or fails; `known` is whether the failure is Zabbix's. -/
  | settle (flight : Nat) (outcome : Option α) (known : Bool)
  /-- Anyone else's call of `cached`. -/
  | call (request : Request) (parent : Option Nat)
  | resume (call : Nat)
  /-- The assistant drops its snapshot. -/
  | forgetSnapshot

namespace Portal

variable {α : Type}

def step (rows : Fetched α → List ProblemRow) (approxBytes : α → Nat) (portal : Portal α)
    (turn : Turn × PortalInput α) : Portal α :=
  let cached (action : CacheAction α) : Portal α :=
    { portal with cache := portal.cache.step approxBytes (turn.1.now, action) }
  match turn.2 with
  | .subscribe owner alive =>
      portal.streamed rows approxBytes turn.1 (.subscribe owner alive) none
  | .leave client => portal.streamed rows approxBytes turn.1 (.leave client) none
  | .endStreamOf client => portal.streamed rows approxBytes turn.1 (.endStreamOf client) none
  | .endStreams => portal.streamed rows approxBytes turn.1 .endStreams none
  | .drain client => portal.streamed rows approxBytes turn.1 (.drain client) none
  | .tick => portal.streamed rows approxBytes turn.1 .tick none
  | .writeBack => portal.writeBack rows approxBytes turn.1
  | .settle flight outcome known =>
      portal.settled rows approxBytes turn.1 flight outcome known
  | .call request parent => cached (.call request parent)
  | .resume call => cached (.resume call)
  | .forgetSnapshot => cached (.invalidate SNAPSHOT_KEY none)

def run (rows : Fetched α → List ProblemRow) (approxBytes : α → Nat)
    (turns : List (Turn × PortalInput α)) : Portal α :=
  turns.foldl (step rows approxBytes) idle

end Portal

end ZabbixPortal.Services
