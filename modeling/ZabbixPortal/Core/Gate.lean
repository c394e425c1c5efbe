import ZabbixPortal.Foundation.Runs
import Mathlib.Data.Rat.Init
import Mathlib.Algebra.Order.Ring.Rat
import Mathlib.Data.List.Perm.Basic
import Mathlib.Data.List.Range

/-! The gate of the slow reports: at most so many jobs at once, the rest waiting. A call of `run` is
known by its number. A call that is woken goes on in a turn of its own, and others may come between. -/

set_option autoImplicit false

namespace ZabbixPortal.Core

inductive Outcome (Value Error : Type)
  | done (value : Value)
  | failed (error : Error)
deriving DecidableEq, Repr

inductive GateEvent (Value Error : Type)
  /-- `run` is called. -/
  | call
  /-- The call that was woken first goes on. -/
  | resume
  /-- A job settles, and the `finally` behind it runs. -/
  | settle (job : Nat) (outcome : Outcome Value Error)
deriving DecidableEq, Repr

structure Gate (Value Error : Type) where
  limit : Nat
  running : Nat
  /-- The calls that wait for a place. -/
  queue : List Nat
  /-- The calls that have been handed a place and not gone on yet. -/
  woken : List Nat
  /-- The jobs that run. -/
  jobs : List Nat
  /-- How often `run` was called. -/
  calls : Nat
  /-- The jobs that were started, in that order. -/
  started : List Nat
  /-- What the callers got. -/
  settled : List (Nat × Outcome Value Error)
deriving DecidableEq, Repr

variable {Value Error : Type}

def createGate (limit : ℚ) : Except String (Gate Value Error) :=
  if limit.isInt ∧ 1 ≤ limit then
    .ok { limit := limit.num.toNat, running := 0, queue := [], woken := [], jobs := [], calls := 0,
          started := [], settled := [] }
  else .error "A gate needs a whole limit of at least 1."

namespace Gate

variable (gate : Gate Value Error)

def start (job : Nat) : Gate Value Error :=
  { gate with jobs := gate.jobs ++ [job], started := gate.started ++ [job] }

/-- `run` up to its first turn: a place at once, or the end of the queue. -/
def call : Gate Value Error :=
  if gate.running < gate.limit then
    { gate with running := gate.running + 1, calls := gate.calls + 1 }.start gate.calls
  else { gate with queue := gate.queue ++ [gate.calls], calls := gate.calls + 1 }

/-- The `finally` of a job: its place goes to the next in line, or is free. -/
def giveBack : Gate Value Error :=
  match gate.queue with
  | next :: rest => { gate with queue := rest, woken := gate.woken ++ [next] }
  | [] => { gate with running := gate.running - 1 }

def settle (job : Nat) (outcome : Outcome Value Error) : Gate Value Error :=
  { gate with jobs := gate.jobs.erase job, settled := gate.settled ++ [(job, outcome)] }.giveBack

def step (event : GateEvent Value Error) : Option (Gate Value Error) :=
  match event with
  | .call => some gate.call
  | .resume =>
      match gate.woken with
      | [] => none
      | job :: rest => some ({ gate with woken := rest }.start job)
  | .settle job outcome => if job ∈ gate.jobs then some (gate.settle job outcome) else none

end Gate

end ZabbixPortal.Core

/-! The gate never lets too many jobs run, loses no place and no job, and starts jobs in order as
long as no newcomer takes a free place before a woken job. -/

namespace ZabbixPortal.Core

open Foundation

variable {Value Error : Type}

namespace Gate

variable {gate next : Gate Value Error} {event : GateEvent Value Error}

/-- What an event does: a call takes a place or waits, a woken job starts, a settled one hands its
place on or frees it. -/
theorem step_cases (taken : gate.step event = some next) :
    (event = .call ∧ gate.running < gate.limit ∧
        next = { gate with running := gate.running + 1, calls := gate.calls + 1,
                           jobs := gate.jobs ++ [gate.calls], started := gate.started ++ [gate.calls] }) ∨
      (event = .call ∧ gate.limit ≤ gate.running ∧
        next = { gate with queue := gate.queue ++ [gate.calls], calls := gate.calls + 1 }) ∨
      (∃ job rest, event = .resume ∧ gate.woken = job :: rest ∧
        next = { gate with woken := rest, jobs := gate.jobs ++ [job], started := gate.started ++ [job] }) ∨
      ∃ job outcome, event = .settle job outcome ∧ job ∈ gate.jobs ∧
        ((∃ first rest, gate.queue = first :: rest ∧
          next = { gate with jobs := gate.jobs.erase job, settled := gate.settled ++ [(job, outcome)],
                             queue := rest, woken := gate.woken ++ [first] }) ∨
        (gate.queue = [] ∧
          next = { gate with jobs := gate.jobs.erase job, settled := gate.settled ++ [(job, outcome)],
                             running := gate.running - 1 })) := by
  cases event with
  | call =>
      have same : gate.call = next := Option.some.inj taken
      unfold call at same
      split at same
      · next free => exact .inl ⟨rfl, free, same.symm⟩
      · next full => exact .inr (.inl ⟨rfl, not_lt.mp full, same.symm⟩)
  | resume =>
      cases woken : gate.woken with
      | nil =>
          rw [step, woken] at taken
          cases taken
      | cons job rest =>
          rw [step, woken] at taken
          exact .inr (.inr (.inl ⟨job, rest, rfl, rfl, (Option.some.inj taken).symm⟩))
  | settle job outcome =>
      rw [step] at taken
      split at taken
      · next runs =>
          have same : gate.settle job outcome = next := Option.some.inj taken
          refine .inr (.inr (.inr ⟨job, outcome, rfl, runs, ?_⟩))
          unfold settle giveBack at same
          cases queue : gate.queue with
          | nil =>
              simp only [queue] at same
              exact .inr ⟨rfl, same.symm⟩
          | cons first rest =>
              simp only [queue] at same
              exact .inl ⟨first, rest, rfl, same.symm⟩
      · cases taken

/-- What every event keeps: each place taken is a job's or a woken call's, calls wait only while all
places are taken, those that wait are the latest, and no call is lost or doubled. -/
structure Kept (gate : Gate Value Error) : Prop where
  places : gate.running = gate.jobs.length + gate.woken.length
  within : gate.running ≤ gate.limit
  full : gate.queue ≠ [] → gate.running = gate.limit
  each : (gate.started ++ gate.woken ++ gate.queue).Perm (List.range gate.calls)
  latest : gate.queue = List.range' (gate.calls - gate.queue.length) gate.queue.length
  finished : (gate.jobs ++ gate.settled.map Prod.fst).Perm gate.started

/-- A call that finds a place free: nobody waits. -/
theorem Kept.takePlace (kept : gate.Kept) (free : gate.running < gate.limit) :
    Kept { gate with running := gate.running + 1, calls := gate.calls + 1,
                     jobs := gate.jobs ++ [gate.calls], started := gate.started ++ [gate.calls] } := by
  have places := kept.places
  have nobody : gate.queue = [] := by
    by_contra nonempty
    exact absurd (kept.full nonempty) (Nat.ne_of_lt free)
  have each := kept.each
  rw [nobody, List.append_nil] at each
  refine ⟨?_, free, fun found => absurd nobody found, ?_, ?_, ?_⟩
  · show gate.running + 1 = (gate.jobs ++ [gate.calls]).length + gate.woken.length
    rw [List.length_append, List.length_singleton]
    omega
  · show (gate.started ++ [gate.calls] ++ gate.woken ++ gate.queue).Perm (List.range (gate.calls + 1))
    rw [nobody, List.append_nil, List.range_succ, List.append_assoc]
    have swapped : (gate.started ++ ([gate.calls] ++ gate.woken)).Perm
        (gate.started ++ (gate.woken ++ [gate.calls])) :=
      List.Perm.append_left gate.started List.perm_append_comm
    rw [← List.append_assoc gate.started gate.woken] at swapped
    exact swapped.trans (each.append_right [gate.calls])
  · show gate.queue = List.range' (gate.calls + 1 - gate.queue.length) gate.queue.length
    rw [nobody]
    rfl
  · show (gate.jobs ++ [gate.calls] ++ gate.settled.map Prod.fst).Perm (gate.started ++ [gate.calls])
    have swapped : (gate.jobs ++ ([gate.calls] ++ gate.settled.map Prod.fst)).Perm
        (gate.jobs ++ (gate.settled.map Prod.fst ++ [gate.calls])) :=
      List.Perm.append_left gate.jobs List.perm_append_comm
    rw [← List.append_assoc, ← List.append_assoc] at swapped
    exact swapped.trans (kept.finished.append_right [gate.calls])

/-- A call that waits: all places are taken. -/
theorem Kept.wait (kept : gate.Kept) (full : gate.limit ≤ gate.running) :
    Kept { gate with queue := gate.queue ++ [gate.calls], calls := gate.calls + 1 } := by
  have most : gate.queue.length ≤ gate.calls := by
    have count := kept.each.length_eq
    rw [List.length_append, List.length_range] at count
    omega
  refine ⟨kept.places, kept.within, fun _ => kept.within.antisymm full, ?_, ?_, kept.finished⟩
  · show (gate.started ++ gate.woken ++ (gate.queue ++ [gate.calls])).Perm
      (List.range (gate.calls + 1))
    rw [← List.append_assoc, List.range_succ]
    exact kept.each.append_right [gate.calls]
  · show gate.queue ++ [gate.calls] =
      List.range' (gate.calls + 1 - (gate.queue ++ [gate.calls]).length)
        (gate.queue ++ [gate.calls]).length
    have last : gate.calls = gate.calls - gate.queue.length + gate.queue.length :=
      (Nat.sub_add_cancel most).symm
    rw [List.length_append, List.length_singleton, Nat.add_sub_add_right, List.range'_1_concat,
      ← kept.latest, ← last]

/-- A woken job starts in the place it was handed. -/
theorem Kept.startWoken (kept : gate.Kept) {job : Nat} {rest : List Nat}
    (woken : gate.woken = job :: rest) :
    Kept { gate with woken := rest, jobs := gate.jobs ++ [job], started := gate.started ++ [job] } := by
  have places := kept.places
  have each := kept.each
  rw [woken] at places each
  refine ⟨?_, kept.within, kept.full, ?_, kept.latest, ?_⟩
  · show gate.running = (gate.jobs ++ [job]).length + rest.length
    rw [List.length_append, List.length_singleton]
    rw [List.length_cons] at places
    omega
  · show (gate.started ++ [job] ++ rest ++ gate.queue).Perm (List.range gate.calls)
    rw [List.append_assoc gate.started [job] rest, List.singleton_append]
    exact each
  · show (gate.jobs ++ [job] ++ gate.settled.map Prod.fst).Perm (gate.started ++ [job])
    have swapped : (gate.jobs ++ ([job] ++ gate.settled.map Prod.fst)).Perm
        (gate.jobs ++ (gate.settled.map Prod.fst ++ [job])) :=
      List.Perm.append_left gate.jobs List.perm_append_comm
    rw [← List.append_assoc, ← List.append_assoc] at swapped
    exact swapped.trans (kept.finished.append_right [job])

/-- The jobs that run and those that are over are those that were started. -/
theorem Kept.finished_settle (kept : gate.Kept) {job : Nat} (runs : job ∈ gate.jobs)
    (outcome : Outcome Value Error) :
    (gate.jobs.erase job ++ (gate.settled ++ [(job, outcome)]).map Prod.fst).Perm gate.started := by
  have moved : (gate.jobs.erase job ++ (gate.settled.map Prod.fst ++ [job])).Perm
      (job :: (gate.jobs.erase job ++ gate.settled.map Prod.fst)) := by
    rw [← List.append_assoc]
    exact List.perm_append_singleton job _
  have back : (job :: (gate.jobs.erase job ++ gate.settled.map Prod.fst)).Perm
      (gate.jobs ++ gate.settled.map Prod.fst) :=
    ((List.perm_cons_erase runs).append_right (gate.settled.map Prod.fst)).symm
  rw [List.map_append]
  exact (moved.trans back).trans kept.finished

/-- A job that settles hands its place to the next in line. -/
theorem Kept.handOn (kept : gate.Kept) {job first : Nat} {rest : List Nat}
    (runs : job ∈ gate.jobs) (queue : gate.queue = first :: rest) (outcome : Outcome Value Error) :
    Kept { gate with jobs := gate.jobs.erase job, settled := gate.settled ++ [(job, outcome)],
                     queue := rest, woken := gate.woken ++ [first] } := by
  have places := kept.places
  have positive := List.length_pos_of_mem runs
  have all := kept.full (by rw [queue]; exact List.cons_ne_nil first rest)
  have each := kept.each
  have latest := kept.latest
  rw [queue, List.length_cons, List.range'_succ, List.cons.injEq] at latest
  rw [queue] at each
  have most : rest.length + 1 ≤ gate.calls := by
    have count := each.length_eq
    rw [List.length_append, List.length_range, List.length_cons] at count
    omega
  refine ⟨?_, kept.within, fun _ => all, ?_, ?_, kept.finished_settle runs outcome⟩
  · show gate.running = (gate.jobs.erase job).length + (gate.woken ++ [first]).length
    rw [List.length_erase_of_mem runs, List.length_append, List.length_singleton]
    omega
  · show (gate.started ++ (gate.woken ++ [first]) ++ rest).Perm (List.range gate.calls)
    rw [← List.append_assoc, List.append_assoc _ [first], List.singleton_append]
    exact each
  · show rest = List.range' (gate.calls - rest.length) rest.length
    have start : gate.calls - (rest.length + 1) + 1 = gate.calls - rest.length := by omega
    rw [start] at latest
    exact latest.2

/-- A job that settles while nobody waits frees its place. -/
theorem Kept.free (kept : gate.Kept) {job : Nat} (runs : job ∈ gate.jobs) (queue : gate.queue = [])
    (outcome : Outcome Value Error) :
    Kept { gate with jobs := gate.jobs.erase job, settled := gate.settled ++ [(job, outcome)],
                     running := gate.running - 1 } := by
  have places := kept.places
  have within := kept.within
  have positive := List.length_pos_of_mem runs
  refine ⟨?_, (Nat.sub_le _ _).trans within, fun found => absurd queue found, kept.each, kept.latest,
    kept.finished_settle runs outcome⟩
  show gate.running - 1 = (gate.jobs.erase job).length + gate.woken.length
  rw [List.length_erase_of_mem runs]
  omega

theorem Kept.step (kept : gate.Kept) (taken : gate.step event = some next) : next.Kept := by
  rcases step_cases taken with ⟨_, free, rfl⟩ | ⟨_, full, rfl⟩ | ⟨job, rest, _, woken, rfl⟩ |
      ⟨job, outcome, _, runs, ⟨first, rest, queue, rfl⟩ | ⟨queue, rfl⟩⟩
  · exact kept.takePlace free
  · exact kept.wait full
  · exact kept.startWoken woken
  · exact kept.handOn runs queue outcome
  · exact kept.free runs queue outcome

/-- A call that finds a place free while a woken job has yet to start would start before it. -/
def Orderly (gate : Gate Value Error) (event : GateEvent Value Error) : Prop :=
  event = .call → gate.running < gate.limit → gate.woken = []

/-- Where each call comes in order, the jobs started, those woken and those that wait are the calls
one after the other. -/
theorem inOrder_step (kept : gate.Kept)
    (inOrder : gate.started ++ gate.woken ++ gate.queue = List.range gate.calls)
    (orderly : gate.Orderly event) (taken : gate.step event = some next) :
    next.started ++ next.woken ++ next.queue = List.range next.calls := by
  rcases step_cases taken with ⟨isCall, free, rfl⟩ | ⟨_, full, rfl⟩ | ⟨job, rest, _, woken, rfl⟩ |
      ⟨job, outcome, _, runs, ⟨first, rest, queue, rfl⟩ | ⟨queue, rfl⟩⟩
  · have nobody : gate.queue = [] := by
      by_contra nonempty
      exact absurd (kept.full nonempty) (Nat.ne_of_lt free)
    have empty := orderly isCall free
    rw [empty, nobody, List.append_nil, List.append_nil] at inOrder
    show gate.started ++ [gate.calls] ++ gate.woken ++ gate.queue = List.range (gate.calls + 1)
    rw [empty, nobody, List.append_nil, List.append_nil, inOrder, List.range_succ]
  · show gate.started ++ gate.woken ++ (gate.queue ++ [gate.calls]) = List.range (gate.calls + 1)
    rw [← List.append_assoc, inOrder, List.range_succ]
  · show gate.started ++ [job] ++ rest ++ gate.queue = List.range gate.calls
    rw [woken] at inOrder
    rw [List.append_assoc gate.started [job] rest, List.singleton_append]
    exact inOrder
  · show gate.started ++ (gate.woken ++ [first]) ++ rest = List.range gate.calls
    rw [queue] at inOrder
    rw [← List.append_assoc, List.append_assoc _ [first], List.singleton_append]
    exact inOrder
  · exact inOrder

/-- The calls that hold a place or held one came before those that wait. -/
theorem Kept.lt_of_waiting (kept : gate.Kept) {job waiting : Nat}
    (ahead : job ∈ gate.started ++ gate.woken) (waits : waiting ∈ gate.queue) : job < waiting := by
  have member : job ∈ List.range gate.calls :=
    kept.each.subset (List.mem_append_left gate.queue ahead)
  have nodup : (gate.started ++ gate.woken ++ gate.queue).Nodup :=
    kept.each.nodup_iff.mpr List.nodup_range
  have notWaiting : job ∉ gate.queue := fun inQueue =>
    (List.nodup_append.mp nodup).2.2 job ahead job inQueue rfl
  rw [List.mem_range] at member
  rw [kept.latest, List.mem_range'_1] at waits notWaiting
  omega

/-- Where no job runs and none is about to start, none waits. -/
theorem Kept.goesOn (kept : gate.Kept) (positive : 1 ≤ gate.limit) (waits : gate.queue ≠ []) :
    gate.jobs ≠ [] ∨ gate.woken ≠ [] := by
  by_contra idle
  rw [not_or, not_not, not_not] at idle
  have places := kept.places
  have full := kept.full waits
  rw [idle.1, idle.2, List.length_nil] at places
  omega

/-- When every call has its outcome, no place is taken and nobody waits. -/
theorem Kept.allOver (kept : gate.Kept) (all : gate.settled.length = gate.calls) :
    gate.running = 0 ∧ gate.queue = [] := by
  have finished := kept.finished.length_eq
  have each := kept.each.length_eq
  have places := kept.places
  rw [List.length_append, List.length_map] at finished
  rw [List.length_append, List.length_append, List.length_range] at each
  have noQueue : gate.queue.length = 0 := by omega
  exact ⟨by omega, List.length_eq_zero_iff.mp noQueue⟩

end Gate

section Runs

open Gate

def GateEvent.isCall : GateEvent Value Error → Bool
  | .call => true
  | _ => false

def GateEvent.outcome : GateEvent Value Error → Option (Nat × Outcome Value Error)
  | .settle job outcome => some (job, outcome)
  | _ => none

def GateStep (gate : Gate Value Error) (event : GateEvent Value Error) (next : Gate Value Error) :
    Prop := gate.step event = some next

/-- A step of a run in which newcomers take free places only when no woken job has yet to start. -/
def OrderlyStep (gate : Gate Value Error) (event : GateEvent Value Error) (next : Gate Value Error) :
    Prop := gate.step event = some next ∧ gate.Orderly event

structure KeepsPlaces (limit : ℚ) (events : List (GateEvent Value Error)) (gate : Gate Value Error) :
    Prop where
  atMost : (gate.jobs.length : ℚ) ≤ limit
  calls : gate.calls = events.countP GateEvent.isCall
  /-- Each call has started its job, is about to or waits, and is only one of these. -/
  each : (gate.started ++ gate.woken ++ gate.queue).Perm (List.range gate.calls)
  once : gate.started.Nodup
  /-- Each job that was started runs or is over. -/
  finished : (gate.jobs ++ gate.settled.map Prod.fst).Perm gate.started
  /-- The callers get what their jobs ended with, errors included. -/
  outcomes : gate.settled = events.filterMap GateEvent.outcome
  places : gate.running = gate.jobs.length + gate.woken.length
  full : gate.queue ≠ [] → (gate.running : ℚ) = limit
  ahead : ∀ job ∈ gate.started ++ gate.woken, ∀ waiting ∈ gate.queue, job < waiting
  goesOn : gate.queue ≠ [] → gate.jobs ≠ [] ∨ gate.woken ≠ []
  allOver : gate.settled.length = gate.calls → gate.running = 0 ∧ gate.queue = []

variable {limit : ℚ} {gate next last : Gate Value Error} {event : GateEvent Value Error}
  {events : List (GateEvent Value Error)}

theorem created_kept (created : createGate limit = .ok gate) :
    gate.Kept ∧ (gate.limit : ℚ) = limit ∧ gate.calls = 0 ∧ gate.started = [] ∧ gate.woken = [] ∧
      gate.queue = [] ∧ gate.settled = [] := by
  unfold createGate at created
  split at created
  · next whole =>
      cases created
      refine ⟨⟨rfl, Nat.zero_le _, fun found => absurd rfl found, .nil, rfl, .nil⟩, ?_, rfl, rfl, rfl,
        rfl, rfl⟩
      have isInt : ((limit.num : ℤ) : ℚ) = limit := Rat.den_eq_one_iff limit |>.mp
        (by simpa [Rat.isInt] using whole.1)
      have positive : 0 ≤ limit.num := Rat.num_nonneg.mpr (le_trans zero_le_one whole.2)
      show ((limit.num.toNat : ℕ) : ℚ) = limit
      rw [← isInt]
      exact_mod_cast Int.toNat_of_nonneg positive
  · cases created

/-- The limit stays, calls are counted, and what callers got is what the events say. -/
theorem step_log (taken : gate.step event = some next) : next.limit = gate.limit ∧
    next.calls = gate.calls + (if event.isCall then 1 else 0) ∧
    next.settled = gate.settled ++ event.outcome.toList := by
  rcases step_cases taken with ⟨isCall, _, rfl⟩ | ⟨isCall, _, rfl⟩ | ⟨job, rest, isResume, _, rfl⟩ |
      ⟨job, outcome, settles, _, ⟨first, rest, _, rfl⟩ | ⟨_, rfl⟩⟩
  · rw [isCall]
    exact ⟨rfl, rfl, (List.append_nil _).symm⟩
  · rw [isCall]
    exact ⟨rfl, rfl, (List.append_nil _).symm⟩
  · rw [isResume]
    exact ⟨rfl, rfl, (List.append_nil _).symm⟩
  · rw [settles]
    exact ⟨rfl, rfl, rfl⟩
  · rw [settles]
    exact ⟨rfl, rfl, rfl⟩

theorem run_log (run : Run GateStep gate events last) : last.limit = gate.limit ∧
    last.calls = gate.calls + events.countP GateEvent.isCall ∧
    last.settled = gate.settled ++ events.filterMap GateEvent.outcome := by
  induction run with
  | nil => exact ⟨rfl, rfl, (List.append_nil _).symm⟩
  | @snoc middle next labels label _ taken ih =>
      obtain ⟨limit, calls, settled⟩ := step_log taken
      refine ⟨limit.trans ih.1, ?_, ?_⟩
      · rw [calls, ih.2.1, List.countP_append, List.countP_singleton, Nat.add_assoc]
      · rw [settled, ih.2.2, List.filterMap_append, List.append_assoc]
        cases label <;> rfl

/-- A gate lets at most its limit of jobs run, runs each once, gives places back, and starts jobs in
the order of their calls in every run in which no newcomer takes a free place before a woken job. -/
theorem gate_keepsPlaces (created : createGate limit = .ok gate)
    (run : Run GateStep gate events last) :
    KeepsPlaces limit events last ∧
      (Run OrderlyStep gate events last → last.started.Pairwise (· < ·)) := by
  obtain ⟨start, sameLimit, noCalls, noStarted, noWoken, noQueue, noSettled⟩ := created_kept created
  obtain ⟨limits, calls, settled⟩ := run_log run
  have kept := run.invariant Kept (fun _ _ _ kept taken => kept.step taken) start
  have whole : (last.limit : ℚ) = limit := by rw [limits, sameLimit]
  have positive : 1 ≤ last.limit := by
    unfold createGate at created
    split at created
    · next atLeast =>
        have one : (1 : ℚ) ≤ last.limit := whole.symm ▸ atLeast.2
        exact_mod_cast one
    · cases created
  have places := kept.places
  have within := kept.within
  have nodup : (last.started ++ last.woken ++ last.queue).Nodup :=
    kept.each.nodup_iff.mpr List.nodup_range
  rw [noCalls, Nat.zero_add] at calls
  rw [noSettled, List.nil_append] at settled
  refine ⟨⟨?_, calls, kept.each, ?_, kept.finished, settled, places, ?_, ?_, kept.goesOn positive,
    kept.allOver⟩, ?_⟩
  · rw [← whole]
    exact_mod_cast (by omega : last.jobs.length ≤ last.limit)
  · exact ((List.nodup_append.mp (List.nodup_append.mp nodup).1).1)
  · intro waits
    rw [kept.full waits, whole]
  · intro job ahead waiting waits
    exact kept.lt_of_waiting ahead waits
  · intro orderly
    have inOrder := orderly.invariant
      (fun gate => gate.Kept ∧ gate.started ++ gate.woken ++ gate.queue = List.range gate.calls)
      (fun _ _ _ both taken => ⟨both.1.step taken.1, inOrder_step both.1 both.2 taken.2 taken.1⟩)
      ⟨start, by rw [noStarted, noWoken, noQueue, noCalls]; rfl⟩
    have sorted := List.pairwise_lt_range (n := last.calls)
    rw [← inOrder.2, List.append_assoc] at sorted
    exact (List.pairwise_append.mp sorted).1

/-- Two jobs end in one turn while a third call waits: it is woken, and a fourth call that comes
before it goes on finds the other place free and starts first. -/
theorem newcomer_startsFirst : ∃ gate last : Gate Nat String, createGate 2 = .ok gate ∧
    Run GateStep gate [.call, .call, .call, .settle 0 (.done 10), .settle 1 (.done 20), .call, .resume]
      last ∧ last.started = [0, 1, 3, 2] ∧ ¬ last.started.Pairwise (· < ·) := by
  refine ⟨_, _, rfl, .cons rfl (.cons rfl (.cons rfl (.cons rfl (.cons rfl (.cons rfl (.cons rfl
    (.nil _))))))), rfl, by decide⟩

/-- A job that throws gives its place to the call that waits. -/
theorem gate_keepsPlaces_failure : ∃ gate last : Gate Nat String, createGate 1 = .ok gate ∧
    KeepsPlaces 1 [.call, .call, .settle 0 (.failed "zabbix down"), .resume] last ∧
      last.started.Pairwise (· < ·) := by
  let events : List (GateEvent Nat String) := [.call, .call, .settle 0 (.failed "zabbix down"), .resume]
  have notCall : ∀ {gate : Gate Nat String} {event : GateEvent Nat String}, event ≠ .call →
      gate.Orderly event := fun other isCall => absurd isCall other
  have orderly : ∃ gate last : Gate Nat String, createGate 1 = .ok gate ∧
      Run OrderlyStep gate events last :=
    ⟨_, _, rfl, .cons ⟨rfl, fun _ _ => rfl⟩ (.cons ⟨rfl, fun _ _ => rfl⟩ (.cons ⟨rfl, notCall (by decide)⟩
      (.cons ⟨rfl, notCall (by decide)⟩ (.nil _))))⟩
  obtain ⟨gate, last, created, run⟩ := orderly
  have steps : Run GateStep gate events last := run.weaken fun _ _ _ taken => taken.1
  obtain ⟨keeps, inOrder⟩ := gate_keepsPlaces created steps
  exact ⟨gate, last, created, keeps, inOrder run⟩

end Runs

end ZabbixPortal.Core
