import ZabbixPortal.Services.Acknowledge
import Mathlib.Algebra.Order.Ring.Rat

/-! The page's live connection: one effect, the `EventSource`s it opens and the timers it arms. -/

set_option autoImplicit false

namespace ZabbixPortal.Web

open Export (units)
open Services (Json)

abbrev RawText := List UInt16

structure Guard where
  what : String
  misfit : Json → Option String

structure SseConfig where
  /-- `JSON.parse`, none where it throws. -/
  parse : RawText → Option Json
  /-- Whether the browser has `EventSource`. -/
  supported : Bool
  silentMs : Option ℚ
  guard : Option Guard

/-- `Math.random()` -/
abbrev Random := { value : ℚ // 0 ≤ value ∧ value < 1 }

inductive SseTimer
  | retry (delay : ℚ)
  | quiet (source : Nat)
deriving DecidableEq, Repr

structure SsePage where
  -- the effect's variables
  es : Option Nat
  checkingAuth : Bool
  retry : Option Nat
  quiet : Option Nat
  attempt : Nat
  /-- A list is held and no error or drop has followed it. -/
  haveList : Bool
  -- what the hook returns
  data : Option Json
  updatedAt : Option ℚ
  connected : Bool
  error : Option Json
  -- the browser: the sources that are not closed, the timers that are pending, each with its
  -- handle, and the next of both
  alive : List Nat
  timers : List (Nat × SseTimer)
  sources : Nat
  handles : Nat
  hidden : Bool
  mounted : Bool
  now : ℚ

def SsePage.initial (hidden : Bool) (now : ℚ) : SsePage where
  es := none
  checkingAuth := false
  retry := none
  quiet := none
  attempt := 0
  haveList := false
  data := none
  updatedAt := none
  connected := false
  error := none
  alive := []
  timers := []
  sources := 0
  handles := 0
  hidden := hidden
  mounted := false
  now := now

def ageOf (parse : RawText → Option Json) (raw : Option RawText) : Option ℚ :=
  match (raw.bind parse).bind fun value => value.field? "ageMs" with
  | some (.number ms) => if 0 ≤ ms then some ms else none
  | _ => none

def STREAM_ERROR : Json := .text (units "The live stream reported an error.")

/-- `JSON.parse(raw).message ?? …`, and the same text where that throws. -/
def messageOf (parse : RawText → Option Json) (raw : RawText) : Json :=
  match (parse raw).bind fun value => value.field? "message" with
  | none => STREAM_ERROR
  | some .null => STREAM_ERROR
  | some message => message

def unreadableMessage (what : String) : String :=
  s!"The portal sent back {what} in a form this page cannot read. " ++
    "Try again in a minute, or tell the portal admin."

def clearTimeout (handle : Option Nat) (timers : List (Nat × SseTimer)) : List (Nat × SseTimer) :=
  timers.filter fun entry => some entry.1 ≠ handle

section Effect

variable (config : SseConfig)

/-- Jittered so a room of wall screens does not reconnect in step. -/
def reopenLater (random : Random) (p : SsePage) : SsePage :=
  if p.retry.isSome || p.hidden then p
  else
    let ceiling := min 60000 (2000 * 2 ^ p.attempt)
    { p with
      attempt := p.attempt + 1
      retry := some p.handles
      timers := p.timers ++ [(p.handles, .retry (ceiling / 2 + random * (ceiling / 2)))]
      handles := p.handles + 1 }

/-- Re-armed by every frame, error frames included: they prove the line is alive. -/
def watch (source : Nat) (p : SsePage) : SsePage :=
  match config.silentMs with
  | none => p
  | some silentMs =>
      if silentMs = 0 then p
      else
        { p with
          timers := clearTimeout p.quiet p.timers ++ [(p.handles, .quiet source)]
          quiet := some p.handles
          handles := p.handles + 1 }

def openSource (p : SsePage) : SsePage :=
  if config.supported then
    { p with
      es := some p.sources
      alive := p.alive ++ [p.sources]
      sources := p.sources + 1
      haveList := false }
  else p

def closeSource (p : SsePage) : SsePage :=
  { p with
    timers := clearTimeout p.quiet (clearTimeout p.retry p.timers)
    retry := none
    quiet := none
    alive := p.alive.filter fun source => some source ≠ p.es
    es := none }

def onPing (source : Nat) (raw : Option RawText) (p : SsePage) : SsePage :=
  let watched := watch config source p
  match if p.haveList then ageOf config.parse raw else none with
  | some age =>
      { watched with updatedAt := some (max (watched.updatedAt.getD 0) (watched.now - age)) }
  | none => watched

/-- Both an error frame and a dropped connection; only the frame carries data. `closed` stands where
the browser gave up. -/
def onError (source : Nat) (raw : Option RawText) (closed : Option Random) (p : SsePage) : SsePage :=
  let failed := { p with connected := false, haveList := false }
  match raw with
  | some raw => { watch config source failed with error := some (messageOf config.parse raw) }
  | none =>
      let checked := { failed with checkingAuth := true }
      match closed with
      | some random =>
          reopenLater random
            { checked with es := if checked.es = some source then none else checked.es }
      | none => checked

def misfitOf (frame : Json) : Option (Guard × String) :=
  config.guard.bind fun guard => (guard.misfit frame).map fun misfit => (guard, misfit)

def onFrame (source : Nat) (raw : RawText) (p : SsePage) : SsePage :=
  match config.parse raw with
  -- ignore malformed frame
  | none => p
  | some frame =>
      match misfitOf config frame with
      | some (guard, _) =>
          { watch config source p with
            haveList := false
            connected := false
            error := some (.text (units (unreadableMessage guard.what))) }
      | none =>
          let watched := watch config source { p with data := some frame }
          { watched with
            attempt := 0
            haveList := true
            updatedAt := some watched.now
            connected := true
            error := none }

def onTimer (timer : SseTimer) (random : Random) (p : SsePage) : SsePage :=
  match timer with
  | .retry _ =>
      let due := { p with retry := none }
      if due.es = none then openSource config due else due
  | .quiet source =>
      if p.es = some source then
        reopenLater random
          { p with
            alive := p.alive.filter (· ≠ source)
            es := none
            haveList := false
            connected := false }
      else p

def onVisibility (p : SsePage) : SsePage :=
  if p.hidden then closeSource p else if p.es = none then openSource config p else p

/-- The body of the effect, with variables of its own. -/
def mount (p : SsePage) : SsePage :=
  let fresh :=
    { p with
      es := none
      checkingAuth := false
      retry := none
      quiet := none
      attempt := 0
      haveList := false
      mounted := true }
  if fresh.hidden then fresh else openSource config fresh

end Effect

section Steps

inductive SseEvent
  | opened (source : Nat)
  | ping (source : Nat) (raw : Option RawText)
  | errorFrame (source : Nat) (raw : RawText)
  | drop (source : Nat) (closed : Option Random)
  | frame (source : Nat) (raw : RawText)
  | fire (handle : Nat) (timer : SseTimer) (random : Random)
  | authAnswered
  | hide
  | show'
  | mount
  | unmount
  | tick (now : ℚ)

variable (config : SseConfig)

/-- What the browser can deliver: no event of a closed source, no timer that was cleared. -/
def SseEvent.Legal (p : SsePage) : SseEvent → Prop
  | .opened source => source ∈ p.alive
  | .ping source _ => source ∈ p.alive
  | .errorFrame source _ => source ∈ p.alive
  | .drop source _ => source ∈ p.alive
  | .frame source _ => source ∈ p.alive
  | .fire handle timer _ => (handle, timer) ∈ p.timers
  | .authAnswered => True
  | .hide => p.hidden = false
  | .show' => p.hidden = true
  | .mount => p.mounted = false
  | .unmount => p.mounted = true
  | .tick now => p.now ≤ now

def sseStep (p : SsePage) : SseEvent → SsePage
  | .opened source => watch config source p
  | .ping source raw => onPing config source raw p
  | .errorFrame source raw => onError config source (some raw) none p
  | .drop source closed =>
      -- a source the browser gave up is closed when its event comes
      onError config source none closed
        { p with alive := if closed.isSome then p.alive.filter (· ≠ source) else p.alive }
  | .frame source raw => onFrame config source raw p
  | .fire handle timer random =>
      onTimer config timer random { p with timers := clearTimeout (some handle) p.timers }
  | .authAnswered => { p with checkingAuth := false }
  | .hide =>
      let hidden := { p with hidden := true }
      if p.mounted then onVisibility config hidden else hidden
  | .show' =>
      let shown := { p with hidden := false }
      if p.mounted then onVisibility config shown else shown
  | .mount => mount config p
  | .unmount => closeSource { p with mounted := false }
  | .tick now => { p with now := now }

inductive Note
  | good (source : Nat)
  | misfit
  | error
  | drop
  | silence
deriving DecidableEq, Repr

def noteOf : SseEvent → Option Note
  | .frame source raw =>
      match config.parse raw with
      | none => none
      | some frame => if (misfitOf config frame).isSome then some .misfit else some (.good source)
  | .errorFrame _ _ => some .error
  | .drop _ _ => some .drop
  | .fire _ (.quiet _) _ => some .silence
  | _ => none

/-- The pages events lead to, with the notes of the events, oldest first. -/
inductive SseRun : List Note → SsePage → Prop
  | start (hidden : Bool) (now : ℚ) : SseRun [] (.initial hidden now)
  | step {log : List Note} {p : SsePage} (event : SseEvent) : SseRun log p → event.Legal p →
      SseRun (log ++ (noteOf config event).toList) (sseStep config p event)

end Steps

end ZabbixPortal.Web
