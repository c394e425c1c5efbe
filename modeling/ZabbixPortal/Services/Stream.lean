import ZabbixPortal.Foundation.Sorting
import ZabbixPortal.Foundation.Text
import Mathlib.Data.Int.Notation

/-! The live stream of problems: the screens that are connected, the reads that feed
them, and what each screen has been sent. -/

set_option autoImplicit false

namespace ZabbixPortal.Services

open Foundation

def TICK_MS : ℤ := 5000

/-- A change in only a name or a host waits until the sent list is this old. -/
def MAX_QUIET_MS : ℤ := 30000

def KEEPALIVE_MS : ℤ := 15000

def SOURCE_DOWN : String := "The data source is not answering."

structure LiveProblem where
  eventid : String
  objectid : String
  object : String
  name : String
  severity : String
  clock : String
  r_eventid : Option String
  acknowledged : String
  suppressed : Option String
  host : Option String
  hostid : Option String
deriving DecidableEq, Repr

structure ProblemRow extends LiveProblem where
  opdata : Option String
  tags : List (String × String)
deriving DecidableEq, Repr

def liveProblem (problem : ProblemRow) : LiveProblem := problem.toLiveProblem

/-- What a screen shows of the list, whatever the order of its rows. -/
def fingerprint (problems : List ProblemRow) : String :=
  "|".intercalate <| sortBy compareCodeUnits <| problems.map fun p =>
    ":".intercalate [p.eventid, p.severity, p.acknowledged, p.suppressed.getD "",
      p.r_eventid.getD ""]

/-- The list as the screens get it. Its JSON text tells any two such lists apart, so
the list stands for the text. -/
def frameJson (problems : List ProblemRow) : List LiveProblem := problems.map liveProblem

structure Sent where
  fingerprint : String
  json : List LiveProblem
  sentAt : ℤ
deriving DecidableEq, Repr

def shouldSend (last : Option Sent) (nextFingerprint : String) (nextJson : List LiveProblem)
    (now : ℤ) : Bool :=
  match last with
  | none => true
  | some last =>
      if last.fingerprint ≠ nextFingerprint then true
      else if last.json = nextJson then false
      else now + TICK_MS - last.sentAt > MAX_QUIET_MS

/-- What a data frame says. Readings are of any type that has the rows of a list. -/
inductive FrameBody (ρ : Type) where
  /-- `event: problems` -/
  | problems (list : ρ)
  /-- `event: error` -/
  | error (message : String)
deriving DecidableEq, Repr

structure Frame (ρ : Type) where
  id : Nat
  body : FrameBody ρ
deriving DecidableEq, Repr

structure Client where
  /-- Which screen: its place in the order of joining. -/
  id : Nat
  owner : String
  /-- Neither ended nor destroyed. -/
  isOpen : Bool
  /-- A write found the buffer full, and the drain callback it left is pending. -/
  blocked : Bool
  frameId : Nat
  lastWrite : ℤ
deriving DecidableEq, Repr

structure Read where
  number : Nat
  force : Bool
  /-- Whether `ticking` is cleared once it is over. -/
  ticks : Bool
deriving DecidableEq, Repr

/-- How a read ends: a list, or a failure that is Zabbix's or is not. -/
inductive ReadOutcome (ρ : Type) where
  | list (problems : ρ)
  | failed (known : Bool)
deriving DecidableEq, Repr

inductive StreamEvent (ρ : Type) where
  | firstJoined
  | emptied
  | wrote (client : Nat) (frame : Frame ρ)
  | pinged (client : Nat) (ageMs : Option ℤ)
  | applied (read : Nat) (outcome : ReadOutcome ρ)
deriving DecidableEq, Repr

structure Hub (ρ : Type) where
  clients : List Client
  latest : Option (Frame ρ)
  lastSent : Option Sent
  lastReadAt : Option ℤ
  frameIds : Nat
  ticker : Bool
  ticking : Bool
  readsStarted : Nat
  readsApplied : Nat
  /-- The reads in flight, in the order they were started. -/
  reads : List Read
  /-- How many screens have ever joined. -/
  joined : Nat
  /-- What has happened so far. -/
  log : List (StreamEvent ρ)
deriving DecidableEq, Repr

def Hub.idle {ρ : Type} : Hub ρ :=
  { clients := [], latest := none, lastSent := none, lastReadAt := none, frameIds := 0
    ticker := false, ticking := false, readsStarted := 0, readsApplied := 0, reads := []
    joined := 0, log := [] }

/-- When a step happens and which screens' buffers have room for what it writes. -/
structure Instant where
  now : ℤ
  room : Nat → Bool

section Clients

variable {ρ : Type}

/-- A screen after a write, with what went out to it. -/
def Client.write (client : Client) (event : StreamEvent ρ) (instant : Instant) :
    Client × List (StreamEvent ρ) :=
  if !client.isOpen then (client, [])
  else
    ({ client with
        lastWrite := instant.now
        blocked := client.blocked || !instant.room client.id }, [event])

def Client.deliver (client : Client) (frame : Frame ρ) (instant : Instant) :
    Client × List (StreamEvent ρ) :=
  if client.blocked then (client, [])
  else { client with frameId := frame.id }.write (.wrote client.id frame) instant

/-- A screen with its drain callback run: unblocked, and given the frame it missed. -/
def Client.caughtUp (client : Client) (latest : Option (Frame ρ)) (instant : Instant) :
    Client × List (StreamEvent ρ) :=
  let client := { client with blocked := false }
  match latest with
  | some frame => if client.frameId ≠ frame.id then client.deliver frame instant else (client, [])
  | none => (client, [])

end Clients

namespace Hub

variable {ρ : Type}

def broadcast (hub : Hub ρ) (body : FrameBody ρ) (instant : Instant) : Hub ρ :=
  let frame : Frame ρ := { id := hub.frameIds + 1, body }
  { hub with
    frameIds := hub.frameIds + 1
    latest := some frame
    clients := hub.clients.map fun client => (client.deliver frame instant).1
    log := hub.log ++ hub.clients.flatMap fun client => (client.deliver frame instant).2 }

/-- `refresh` up to its wait for the list. -/
def startRead (hub : Hub ρ) (force ticks : Bool) : Hub ρ :=
  let number := hub.readsStarted + 1
  { hub with readsStarted := number, reads := hub.reads ++ [{ number, force, ticks }] }

def publicMessage (known : Bool) : String :=
  if known then SOURCE_DOWN
  else "The live stream hit an unexpected error. Tell an administrator."

def drops (hub : Hub ρ) (read : Nat) : Bool := read < hub.readsApplied || hub.clients.isEmpty

def apply (rows : ρ → List ProblemRow) (hub : Hub ρ) (read : Read) (outcome : ReadOutcome ρ)
    (instant : Instant) : Hub ρ :=
  let hub :=
    { hub with
      readsApplied := read.number
      log := hub.log ++ [StreamEvent.applied read.number outcome] }
  match outcome with
  | .failed known =>
      { hub with lastSent := none, lastReadAt := none }.broadcast
        (.error (publicMessage known)) instant
  | .list problems =>
      let hub := { hub with lastReadAt := some instant.now }
      let fingerprint := fingerprint (rows problems)
      let json := frameJson (rows problems)
      if !read.force && !shouldSend hub.lastSent fingerprint json instant.now then hub
      else
        { hub with lastSent := some { fingerprint, json, sentAt := instant.now } }.broadcast
          (.problems problems) instant

def land (rows : ρ → List ProblemRow) (hub : Hub ρ) (number : Nat) (outcome : ReadOutcome ρ)
    (instant : Instant) : Hub ρ :=
  match hub.reads.find? fun read => read.number = number with
  | none => hub
  | some read =>
      let hub := { hub with reads := hub.reads.filter fun other => other.number ≠ number }
      if hub.drops number then hub else hub.apply rows read outcome instant

/-- The `then` of a read the ticker or a first screen started. -/
def settled (hub : Hub ρ) : Hub ρ :=
  if hub.reads.any fun read => read.ticks then hub else { hub with ticking := false }

def pingDue (client : Client) (instant : Instant) : Bool :=
  !client.blocked && instant.now - client.lastWrite ≥ KEEPALIVE_MS

def keepAlive (hub : Hub ρ) (instant : Instant) : Hub ρ :=
  let ageMs := hub.lastReadAt.map fun readAt => max 0 (instant.now - readAt)
  let ping := fun client : Client =>
    if pingDue client instant then client.write (.pinged client.id ageMs) instant else (client, [])
  { hub with
    clients := hub.clients.map fun client => (ping client).1
    log := hub.log ++ hub.clients.flatMap fun client => (ping client).2 }

/-- Start a read for every screen unless one of the ticker's is still in flight. -/
def refreshUnlessTicking (hub : Hub ρ) : Hub ρ :=
  if hub.ticking then hub else { hub with ticking := true }.startRead false true

def tick (hub : Hub ρ) (instant : Instant) : Hub ρ :=
  if !hub.ticker then hub else (hub.keepAlive instant).refreshUnlessTicking

def remove (hub : Hub ρ) (client : Nat) : Hub ρ :=
  if hub.clients.all fun other => other.id ≠ client then hub
  else
    let hub := { hub with clients := hub.clients.filter fun other => other.id ≠ client }
    if !hub.clients.isEmpty || !hub.ticker then hub
    else
      { hub with
        ticker := false
        latest := none
        lastSent := none
        lastReadAt := none
        log := hub.log ++ [.emptied] }

/-- A screen as it joins, over a connection that may already be gone. -/
def newClient (hub : Hub ρ) (owner : String) (alive : Bool) (instant : Instant) : Client :=
  { id := hub.joined, owner, isOpen := alive, blocked := false, frameId := 0
    lastWrite := instant.now }

def add (hub : Hub ρ) (client : Client) : Hub ρ :=
  { hub with
    clients := hub.clients ++ [client]
    joined := hub.joined + 1
    ticker := true
    log := hub.log ++ if hub.ticker then [] else [.firstJoined] }

def subscribe (hub : Hub ρ) (owner : String) (alive : Bool) (instant : Instant) : Hub ρ :=
  let client := hub.newClient owner alive instant
  match hub.latest with
  | some frame =>
      let delivered := client.deliver frame instant
      let added := hub.add delivered.1
      { added with log := added.log ++ delivered.2 }
  | none => (hub.add client).refreshUnlessTicking

def endStreamOf (hub : Hub ρ) (client : Nat) : Hub ρ :=
  { hub with
    clients := hub.clients.map fun other =>
      if other.id = client then { other with isOpen := false } else other }

def endStreams (hub : Hub ρ) : Hub ρ :=
  hub.clients.foldl (fun hub client => hub.remove client.id) hub

def notifyProblemsChanged (hub : Hub ρ) : Hub ρ :=
  if hub.clients.isEmpty then hub else hub.startRead true false

/-- The callback `write` leaves for a full buffer; it finds a screen that has left gone. -/
def drain (hub : Hub ρ) (client : Nat) (instant : Instant) : Hub ρ :=
  match hub.clients.find? fun other => other.id = client && other.blocked with
  | none => hub
  | some drained =>
      let caughtUp := drained.caughtUp hub.latest instant
      { hub with
        clients := hub.clients.map fun other => if other.id = client then caughtUp.1 else other
        log := hub.log ++ caughtUp.2 }

end Hub

inductive StreamInput (ρ : Type) where
  | subscribe (owner : String) (alive : Bool)
  | leave (client : Nat)
  | endStreamOf (client : Nat)
  | endStreams
  | tick
  | notifyProblemsChanged
  | land (read : Nat) (outcome : ReadOutcome ρ)
  | settled
  | drain (client : Nat)

namespace Hub

variable {ρ : Type}

def step (rows : ρ → List ProblemRow) (hub : Hub ρ) (turn : Instant × StreamInput ρ) : Hub ρ :=
  match turn.2 with
  | .subscribe owner alive => hub.subscribe owner alive turn.1
  | .leave client => hub.remove client
  | .endStreamOf client => hub.endStreamOf client
  | .endStreams => hub.endStreams
  | .tick => hub.tick turn.1
  | .notifyProblemsChanged => hub.notifyProblemsChanged
  | .land read outcome => hub.land rows read outcome turn.1
  | .settled => hub.settled
  | .drain client => hub.drain client turn.1

def run (rows : ρ → List ProblemRow) (turns : List (Instant × StreamInput ρ)) : Hub ρ :=
  turns.foldl (step rows) idle

end Hub

end ZabbixPortal.Services
