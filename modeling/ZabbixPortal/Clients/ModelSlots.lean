import Mathlib.Data.Int.Notation
import Mathlib.Data.List.Basic

/-! Turns at the model: one slot for the local model, several for the hosted one. Calls
that find no free slot wait in a queue until they are granted one, time out or leave. -/

set_option autoImplicit false

namespace ZabbixPortal.Clients

def BUSY_MESSAGE : String :=
  "The assistant is busy answering another question. Try again in a moment."

/-- Why the promise of a call is rejected: `AiBusyError`, or the reason of its signal. -/
inductive Rejection where
  | aiBusyError (message : String)
  | reason (signal : Nat)
deriving DecidableEq, Repr

/-- The promise of a call; `null` is what `tryAcquireModelSlot` returns while the slot is held. -/
inductive Answer where
  | pending
  | granted (releaser : Nat)
  | rejected (rejection : Rejection)
  | null
deriving DecidableEq, Repr

structure Call where
  signal : Option Nat
  answer : Answer
deriving DecidableEq, Repr

structure Releaser where
  call : Nat
  released : Bool
deriving DecidableEq, Repr

/-- The variable that counts the slots in use: `slotHeld`, or `hostedActive`. -/
structure SlotCounter (κ : Type) where
  initial : κ
  free : κ → Bool
  take : κ → κ
  giveBack : κ → κ

/-- What the slots of one kind keep. Calls and release functions go by their number; the
queue holds the `grant` of each call that waits, with its timer and its abort listener. -/
structure Pool (κ : Type) where
  counter : κ
  queue : List Nat
  timers : List Nat
  listeners : List (Nat × Nat)
  calls : List Call
  releasers : List Releaser
deriving DecidableEq, Repr

namespace Pool

variable {κ : Type} (slots : SlotCounter κ) (pool : Pool κ)

def empty : Pool κ := ⟨slots.initial, [], [], [], [], []⟩

def settle (call : Nat) (answer : Answer) : Pool κ :=
  { pool with calls := pool.calls.modify call fun entry =>
      if entry.answer = .pending then { entry with answer } else entry }

def leave (call : Nat) : Pool κ :=
  { pool with
    timers := pool.timers.erase call
    listeners := pool.listeners.filter fun listener => listener.2 ≠ call
    queue := pool.queue.erase call }

def addReleaser (call : Nat) : Pool κ :=
  { pool with releasers := pool.releasers ++ [⟨call, false⟩] }

def grant (call : Nat) : Pool κ :=
  ((pool.leave call).addReleaser call).settle call (.granted pool.releasers.length)

def onAbort (signal call : Nat) : Pool κ :=
  (pool.leave call).settle call (.rejected (.reason signal))

def timeout (call : Nat) : Pool κ :=
  if call ∈ pool.timers then (pool.leave call).settle call (.rejected (.aiBusyError BUSY_MESSAGE))
  else pool

def release (index : Nat) : Pool κ :=
  match pool.releasers[index]? with
  | none => pool
  | some releaser =>
      if releaser.released then pool
      else
        let pool := { pool with releasers := pool.releasers.set index { releaser with released := true } }
        match pool.queue with
        | next :: rest => { pool with queue := rest }.grant next
        | [] => { pool with counter := slots.giveBack pool.counter }

def takeSlot (signal : Option Nat) : Pool κ :=
  { pool with
    counter := slots.take pool.counter
    calls := pool.calls ++ [⟨signal, .granted pool.releasers.length⟩]
    releasers := pool.releasers ++ [⟨pool.calls.length, false⟩] }

def acquire (aborted : List Nat) (signal : Option Nat) : Pool κ :=
  match signal.filter (· ∈ aborted) with
  | some fired =>
      { pool with calls := pool.calls ++ [⟨signal, .rejected (.reason fired)⟩] }
  | none =>
      if slots.free pool.counter then pool.takeSlot slots signal
      else
        { pool with
          calls := pool.calls ++ [⟨signal, .pending⟩]
          timers := pool.timers ++ [pool.calls.length]
          listeners := pool.listeners ++ signal.toList.map fun signal => (signal, pool.calls.length)
          queue := pool.queue ++ [pool.calls.length] }

def tryAcquire : Pool κ :=
  if slots.free pool.counter then pool.takeSlot slots none
  else { pool with calls := pool.calls ++ [⟨none, .null⟩] }

/-- Each of the listeners runs unless removed by then. -/
def dispatch (signal : Nat) (listeners : List (Nat × Nat)) : Pool κ :=
  listeners.foldl
    (fun pool listener =>
      if listener ∈ pool.listeners then pool.onAbort signal listener.2 else pool)
    pool

def abort (signal : Nat) : Pool κ :=
  pool.dispatch signal (pool.listeners.filter fun listener => listener.1 = signal)

end Pool

def modelSlot : SlotCounter Bool where
  initial := false
  free slotHeld := !slotHeld
  take _ := true
  giveBack _ := false

/-- `hostedActive`, below `AI_MAX_CONCURRENT` -/
def hostedSlots (maxConcurrent : Nat) : SlotCounter ℤ where
  initial := 0
  free hostedActive := hostedActive < maxConcurrent
  take hostedActive := hostedActive + 1
  giveBack hostedActive := hostedActive - 1

structure Slots where
  model : Pool Bool
  hosted : Pool ℤ
  aborted : List Nat
deriving DecidableEq, Repr

namespace Slots

variable (maxConcurrent : Nat) (slots : Slots)

def initial : Slots := ⟨.empty modelSlot, .empty (hostedSlots maxConcurrent), []⟩

def acquireModelSlot (signal : Option Nat) : Slots :=
  { slots with model := slots.model.acquire modelSlot slots.aborted signal }

def tryAcquireModelSlot : Slots :=
  { slots with model := slots.model.tryAcquire modelSlot }

def releaser (index : Nat) : Slots :=
  { slots with model := slots.model.release modelSlot index }

def acquireHostedSlot (signal : Option Nat) : Slots :=
  { slots with hosted := slots.hosted.acquire (hostedSlots maxConcurrent) slots.aborted signal }

def hostedReleaser (index : Nat) : Slots :=
  { slots with hosted := slots.hosted.release (hostedSlots maxConcurrent) index }

def abort (signal : Nat) : Slots :=
  if signal ∈ slots.aborted then slots
  else
    { model := slots.model.abort signal
      hosted := slots.hosted.abort signal
      aborted := signal :: slots.aborted }

end Slots

inductive SlotAction where
  | acquireModelSlot (signal : Option Nat)
  | tryAcquireModelSlot
  | releaseModel (index : Nat)
  | modelTimeout (call : Nat)
  | acquireHostedSlot (signal : Option Nat)
  | releaseHosted (index : Nat)
  | hostedTimeout (call : Nat)
  | abort (signal : Nat)
deriving DecidableEq, Repr

def Slots.step (maxConcurrent : Nat) (slots : Slots) : SlotAction → Slots
  | .acquireModelSlot signal => slots.acquireModelSlot signal
  | .tryAcquireModelSlot => slots.tryAcquireModelSlot
  | .releaseModel index => slots.releaser index
  | .modelTimeout call => { slots with model := slots.model.timeout call }
  | .acquireHostedSlot signal => slots.acquireHostedSlot maxConcurrent signal
  | .releaseHosted index => slots.hostedReleaser maxConcurrent index
  | .hostedTimeout call => { slots with hosted := slots.hosted.timeout call }
  | .abort signal => slots.abort signal

def Slots.run (maxConcurrent : Nat) (actions : List SlotAction) : Slots :=
  actions.foldl (Slots.step maxConcurrent) (.initial maxConcurrent)

end ZabbixPortal.Clients
