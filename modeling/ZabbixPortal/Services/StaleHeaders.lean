import Mathlib.Logic.Function.Basic
import ZabbixPortal.Services.CachedReads

/-! The headers that announce an old copy. A request carries its note through the
fetches it begins; which old copies a value was built from is kept beside the note, to be
compared with it. -/

set_option autoImplicit false

namespace ZabbixPortal.Services

open Foundation Core

variable {α : Type}

/-- A stored value answered after a failed fetch: the call it was given to, and its age
then. -/
structure OldCopy where
  call : Nat
  ageMs : ℤ
deriving DecidableEq, Repr

def Answer.fellBack (answer : Answer α) : Bool :=
  (answer.awaited.map fun settlement => settlement.result.isNone).getD false

def Answer.isAwaited (answer : Answer α) : Bool :=
  (answer.awaited.map fun settlement => settlement.result.isSome).getD false

def Answer.oldCopy (answer : Answer α) (now : ℤ) : List OldCopy :=
  if answer.fellBack then
    (answer.stored.map fun last => ⟨answer.call.begunAt, now - last.t⟩).toList
  else []

def noteStale (oldestMs : Option ℤ) (copy : OldCopy) : Option ℤ :=
  some (max (oldestMs.getD 0) copy.ageMs)

def roundSeconds (ms : ℤ) : ℤ := (ms + 500) / 1000

/-- A call, by the request in whose context it is made and whether its own handler makes
it. -/
structure Caller where
  request : Option Nat
  direct : Bool
deriving DecidableEq, Repr

structure Serving (α : Type) where
  system : CacheSystem α
  /-- By the number of the call. -/
  callers : Nat → Caller
  /-- The request in whose context a fetch runs: the one that began it. -/
  contexts : Nat → Option Nat
  /-- What each request has noted in its `Served`. -/
  served : Nat → Option ℤ
  /-- The old copies each fetch was given, in answers or inside them. No function of the
  portal reads this or the next. -/
  copies : Nat → List OldCopy
  /-- The old copies a handler was given, for its body. -/
  bodies : Nat → List OldCopy
  /-- `reply.hijack()`: the handler writes the head and the body itself. -/
  hijacked : Nat → Bool
  sent : Nat → Bool

inductive ServingAction (α : Type) where
  /-- A step of the cache; a call no fetch makes is made by the request's handler, or by
  nobody's. -/
  | cache (request : Option Nat) (action : CacheAction α)
  /-- A handler takes its reply over, as the assistant's stream does. -/
  | hijack (request : Nat)
  /-- A request is answered. -/
  | respond (request : Nat)

namespace Serving

def idle : Serving α where
  system := .idle
  callers := fun _ => ⟨none, false⟩
  contexts := fun _ => none
  served := fun _ => none
  copies := fun _ => []
  bodies := fun _ => []
  hijacked := fun _ => false
  sent := fun _ => false

variable (serving : Serving α)

def context (call : Call α) : Option Nat :=
  match call.parent with
  | some fetch => serving.contexts fetch
  | none => (serving.callers call.begunAt).request

def isDirect (call : Call α) : Bool :=
  call.parent.isNone && (serving.callers call.begunAt).direct

def copiesOf (now : ℤ) (answer : Answer α) : List OldCopy :=
  serving.copies answer.value.origin.startedAt ++ answer.oldCopy now

/-- A call enters in the context of its caller, and so does the fetch it may begin. -/
def enter (request : Option Nat) : CacheAction α → Serving α
  | .call _ parent =>
      let caller : Caller := match parent with
        | some fetch => ⟨serving.contexts fetch, false⟩
        | none => ⟨request, true⟩
      { serving with
        callers := Function.update serving.callers serving.system.steps caller
        contexts := Function.update serving.contexts serving.system.steps caller.request }
  | _ => serving

/-- An answer reaches its caller: the fetch that made the call, or the handler. -/
def deliver (now : ℤ) (answer : Answer α) : Serving α :=
  let built := serving.copiesOf now answer
  let own := answer.oldCopy now
  let copies := match answer.call.parent with
    | some fetch =>
        if serving.system.isRunning fetch then
          Function.update serving.copies fetch (serving.copies fetch ++ built)
        else serving.copies
    | none => serving.copies
  match serving.context answer.call with
  | none => { serving with copies }
  | some request =>
      { serving with
        copies
        served := Function.update serving.served request
          (own.foldl noteStale (serving.served request))
        bodies :=
          if serving.isDirect answer.call then
            Function.update serving.bodies request (serving.bodies request ++ built)
          else serving.bodies }

def event (approxBytes : α → Nat) (turn : ℤ × CacheAction α) : Option (CacheEvent α) :=
  ((serving.system.step approxBytes turn).log.drop serving.system.log.length).head?

def step (approxBytes : α → Nat) (turn : ℤ × ServingAction α) : Serving α :=
  match turn.2 with
  | .hijack request =>
      { serving with hijacked := Function.update serving.hijacked request true }
  | .respond request => { serving with sent := Function.update serving.sent request true }
  | .cache request action =>
      let entered := serving.enter request action
      let told := match serving.event approxBytes (turn.1, action) with
        | some (.answered answer) => entered.deliver turn.1 answer
        | _ => entered
      { told with system := serving.system.step approxBytes (turn.1, action) }

def run (approxBytes : α → Nat) (turns : List (ℤ × ServingAction α)) : Serving α :=
  turns.foldl (fun serving turn => serving.step approxBytes turn) idle

/-- The `onSend` hook is still to run for the request. A hijacked reply never reaches it. -/
def hookRuns (request : Nat) : Bool :=
  !serving.sent request && !serving.hijacked request

/-- `X-Data-Age-Seconds` of the request's response, which comes with `X-Data-Stale`; none
without the two. -/
def ageHeader (request : Nat) : Option ℤ :=
  if serving.hijacked request then none
  else (serving.served request).map fun oldest => max 0 (roundSeconds oldest)

end Serving

end ZabbixPortal.Services
