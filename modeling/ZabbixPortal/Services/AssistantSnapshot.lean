import Mathlib.Logic.Function.Basic
import ZabbixPortal.Domain.Problems
import ZabbixPortal.Services.CacheCalls
import ZabbixPortal.Services.LiveWriteBack

/-! The snapshot the assistant answers from: builds shared and kept through the cache, and
the fingerprint a kept one is compared by. The text itself is not modelled, only what it
was built from. -/

set_option autoImplicit false

namespace ZabbixPortal.Services

open Foundation Core Domain

inductive HostState where
  | up | down | degraded | nodata | disabled
deriving DecidableEq, Repr

def HostState.text : HostState → String
  | .up => "up"
  | .down => "down"
  | .degraded => "degraded"
  | .nodata => "nodata"
  | .disabled => "disabled"

structure SiteHost where
  hostid : String
  state : HostState
deriving DecidableEq, Repr

structure SiteOfHosts where
  name : String
  hosts : List SiteHost
deriving DecidableEq, Repr

/-- What a snapshot is built from, and the steps the fetches behind it began at. No
function of the portal reads the steps. -/
structure SnapshotReads where
  problems : List ZbxProblem
  sites : List SiteOfHosts
  problemsFrom : Nat
  sitesFrom : Nat
deriving DecidableEq, Repr

structure Snapshot where
  reads : SnapshotReads
  generatedAt : ℤ
  complete : Bool
deriving DecidableEq, Repr

section Fingerprint

-- SHA-1, as hexadecimal digits.
variable (sha1 : String → List (Fin 16))

def hexDigit (digit : Fin 16) : Char := "0123456789abcdef".toList.getD digit.val '0'

def digestHex (pieces : List String) : List Char := (sha1 (String.join pieces)).map hexDigit

def snapshotFingerprint (problems : List ZbxProblem) (sites : List SiteOfHosts) : List Char :=
  let problemHash := digestHex sha1 <| problems.map fun p =>
    p.eventid ++ ":" ++ toString p.severity ++ ":" ++ (if p.acknowledged then "1" else "0") ++ "\n"
  let hostHash := digestHex sha1 <| sites.flatMap fun s => s.hosts.map fun h =>
    h.hostid ++ ":" ++ h.state.text ++ "\n"
  problemHash ++ '.' :: hostHash

def SnapshotReads.fingerprint (reads : SnapshotReads) : List Char :=
  snapshotFingerprint sha1 reads.problems reads.sites

def Snapshot.fingerprint (snapshot : Snapshot) : List Char := snapshot.reads.fingerprint sha1

/-- `fingerprint.split('.')[0]` -/
def problemPart (fingerprint : List Char) : List Char := fingerprint.takeWhile (· ≠ '.')

def hostPart (fingerprint : List Char) : List Char := (fingerprint.dropWhile (· ≠ '.')).tail

end Fingerprint

def SNAPSHOT_FREEZE_MS : ℤ := 5 * 60000

def HOST_STATE_SETTLE_MS : ℤ := 60000

def sitesRequest : Request := { key := "sites", ttlMs := 15000, options := .plain }

def snapshotRequest : Request :=
  { key := SNAPSHOT_KEY, ttlMs := SNAPSHOT_FREEZE_MS, options := .plain }

inductive PortalContent where
  | problems (rows : List ZbxProblem)
  | sites (rows : List SiteOfHosts)
  | snapshot (snapshot : Snapshot)
  | other
deriving DecidableEq, Repr

def PortalContent.problemRows : PortalContent → List ZbxProblem
  | .problems rows => rows
  | _ => []

def PortalContent.siteRows : PortalContent → List SiteOfHosts
  | .sites rows => rows
  | _ => []

/-- One call of `getSnapshot`. Its own calls of `cached` are known by number. -/
inductive GetSnapshot where
  | reading (problems sites : Nat)
  /-- It asks for the snapshot, `again` after it found one out of date; `built` as in the
  source. -/
  | asking (reads : SnapshotReads) (built again : Bool) (call : Nat) (flight : Option Nat)
  | returned (reads : SnapshotReads) (snapshot : Snapshot) (frozen : Bool) (now : ℤ)
  | failed
deriving DecidableEq, Repr

/-- A fetch of the snapshot, with the numbers of its own two reads once they are made. -/
structure SnapshotBuild where
  generatedAt : ℤ
  reads : Option (Nat × Nat)
deriving DecidableEq, Repr

structure Assistant where
  system : CacheSystem PortalContent
  /-- By the number of the call's first read. -/
  asks : Nat → Option GetSnapshot
  builds : Nat → Option SnapshotBuild
  /-- The snapshots of the `IncompleteSnapshot` errors, by the number of the build. -/
  thrown : Nat → Option Snapshot

inductive AssistantAction where
  /-- Anything else the portal does with its cache. -/
  | cache (action : CacheAction PortalContent)
  | getSnapshot
  /-- A call of `getSnapshot` goes on, if what it waits for is there. -/
  | proceed (ask : Nat)
  | startReads (build : Nat)
  | finish (build : Nat) (complete : Bool)

namespace Assistant

def idle : Assistant :=
  { system := .idle, asks := fun _ => none, builds := fun _ => none, thrown := fun _ => none }

section Step

variable (approxBytes : PortalContent → Nat) (sha1 : String → List (Fin 16))

/-- Only `getSnapshot` asks for the snapshot, and only a build's own end settles it. -/
def allows (assistant : Assistant) : CacheAction PortalContent → Bool
  | .call request _ => request.key ≠ SNAPSHOT_KEY
  | .settle flight _ => (assistant.builds flight).isNone
  | .resume _ | .invalidate _ _ | .writeBack => true

/-- `problemsChanged || settled`, when the fingerprints differ. -/
def outdated (snapshot : Snapshot) (reads : SnapshotReads) (now : ℤ) : Bool :=
  snapshot.fingerprint sha1 ≠ reads.fingerprint sha1 &&
    (problemPart (snapshot.fingerprint sha1) ≠ problemPart (reads.fingerprint sha1) ||
      now - snapshot.generatedAt ≥ HOST_STATE_SETTLE_MS)

/-- The two reads, once both are answered; `some none` once one of them threw. -/
def readsOf (system : CacheSystem PortalContent) (problems sites : Nat) :
    Option (Option SnapshotReads) :=
  match system.eventOf problems, system.eventOf sites with
  | some (.answered left), some (.answered right) =>
      some (some
        { problems := openProblems left.value.content.problemRows
          sites := right.value.content.siteRows
          problemsFrom := left.value.origin.startedAt
          sitesFrom := right.value.origin.startedAt })
  | some (.threw _), _ | _, some (.threw _) => some none
  | _, _ => none

/-- `cached('problems', …)` and `cached('sites', …)`, one after the other. -/
def read (now : ℤ) (system : CacheSystem PortalContent) (parent : Option Nat) :
    CacheSystem PortalContent :=
  (system.step approxBytes (now, .call problemsRequest parent)).step approxBytes
    (now, .call sitesRequest parent)

/-- `cached(SNAPSHOT_KEY, SNAPSHOT_FREEZE_MS, build)` -/
def ask (now : ℤ) (id : Nat) (reads : SnapshotReads) (built again : Bool)
    (assistant : Assistant) : Assistant :=
  let call := assistant.system.steps
  let next := assistant.system.step approxBytes (now, .call snapshotRequest none)
  let begins := next.isRunning call
  { assistant with
    system := next
    asks := Function.update assistant.asks id
      (some (.asking reads (built || begins) again call (next.flightOf call)))
    builds :=
      if begins then
        Function.update assistant.builds call (some ⟨now / 1000 * 1000, none⟩)
      else assistant.builds }

def endWith (id : Nat) (ending : GetSnapshot) (assistant : Assistant) : Assistant :=
  { assistant with asks := Function.update assistant.asks id (some ending) }

def proceed (now : ℤ) (id : Nat) (assistant : Assistant) : Assistant :=
  match assistant.asks id with
  | some (.reading problems sites) =>
      match readsOf assistant.system problems sites with
      | none => assistant
      | some none => assistant.endWith id .failed
      | some (some reads) => assistant.ask approxBytes now id reads false false
  | some (.asking reads built again call flight) =>
      match assistant.system.eventOf call with
      | some (.answered answer) =>
          match answer.value.content with
          | .snapshot snapshot =>
              if !again && !built && outdated sha1 snapshot reads now then
                { assistant with
                  system :=
                    assistant.system.step approxBytes (now, .invalidate SNAPSHOT_KEY none)
                }.ask approxBytes now id reads built true
              else assistant.endWith id (.returned reads snapshot (!built) now)
          | _ => assistant.endWith id .failed
      | some (.threw _) =>
          match flight.bind assistant.thrown with
          | some snapshot => assistant.endWith id (.returned reads snapshot false now)
          | none => assistant.endWith id .failed
      | _ => assistant
  | _ => assistant

def startReads (now : ℤ) (build : Nat) (assistant : Assistant) : Assistant :=
  match assistant.builds build with
  | some ⟨generatedAt, none⟩ =>
      let problems := assistant.system.steps
      { assistant with
        system := read approxBytes now assistant.system (some build)
        builds := Function.update assistant.builds build
          (some ⟨generatedAt, some (problems, problems + 1)⟩) }
  | _ => assistant

/-- The end of `build`: the snapshot, or `IncompleteSnapshot` with it, or the error of one
of the reads. -/
def finish (now : ℤ) (build : Nat) (complete : Bool) (assistant : Assistant) : Assistant :=
  match assistant.builds build with
  | some ⟨generatedAt, some (problems, sites)⟩ =>
      if assistant.system.isRunning build then
        match readsOf assistant.system problems sites with
        | none => assistant
        | some none =>
            { assistant with
              system := assistant.system.step approxBytes (now, .settle build none) }
        | some (some reads) =>
            let snapshot : Snapshot := { reads, generatedAt, complete }
            if complete then
              { assistant with
                system := assistant.system.step approxBytes
                  (now, .settle build (some (.snapshot snapshot))) }
            else
              { assistant with
                system := assistant.system.step approxBytes (now, .settle build none)
                thrown := Function.update assistant.thrown build (some snapshot) }
      else assistant
  | _ => assistant

def step (assistant : Assistant) (turn : ℤ × AssistantAction) : Assistant :=
  match turn.2 with
  | .cache action =>
      if assistant.allows action then
        { assistant with system := assistant.system.step approxBytes (turn.1, action) }
      else assistant
  | .getSnapshot =>
      let problems := assistant.system.steps
      { assistant with
        system := read approxBytes turn.1 assistant.system none
        asks := Function.update assistant.asks problems (some (.reading problems (problems + 1))) }
  | .proceed id => assistant.proceed approxBytes sha1 turn.1 id
  | .startReads build => assistant.startReads approxBytes turn.1 build
  | .finish build complete => assistant.finish approxBytes turn.1 build complete

def run (turns : List (ℤ × AssistantAction)) : Assistant :=
  turns.foldl (step approxBytes sha1) idle

end Step

end Assistant

end ZabbixPortal.Services
