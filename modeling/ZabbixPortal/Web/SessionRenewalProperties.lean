import ZabbixPortal.Foundation.Runs
import ZabbixPortal.Web.SessionRenewal
import Mathlib.Algebra.Order.Group.MinMax
import Mathlib.Data.List.Induction
import Mathlib.Tactic.Linarith
import Mathlib.Tactic.Push

/-! Renewals are due, never two at once, and never closer than the gap after the last answer;
a page that is open and waits for none always has its next look within a minute. -/

set_option autoImplicit false

namespace ZabbixPortal.Web.SessionRenewal

open Foundation

def inFlight (log : List Entry) : Bool :=
  log.foldl (fun flying entry =>
    match entry with
    | .started _ => true
    | .answered _ _ => false
    | _ => flying) false

/-- How many renewals failed in a row, and the first moment another may start. -/
structure Pace where
  failures : ℕ
  earliest : ℤ

/-- The wait after a failure that some others went before. -/
def backoff (failures : ℕ) : ℤ := min (retryMs * 2 ^ failures) retryMaxMs

def Pace.after (pace : Pace) : Entry → Pace
  | .answered now .renewed => ⟨0, now + minGapMs⟩
  | .answered now .failed => ⟨pace.failures + 1, now + backoff pace.failures⟩
  | _ => pace

def paceOf (log : List Entry) : Pace := log.foldl Pace.after ⟨0, 0⟩

def Allowed (past : List Entry) : Entry → Prop
  | .started around => inFlight past = false ∧ around.signedOut = false ∧ around.dueIn ≤ 0 ∧
      (paceOf past).earliest ≤ around.now
  | .answered _ _ => inFlight past = true
  | .idles now ringsAt => inFlight past = false ∧ ringsAt = now + checkMs
  | .waits around ringsAt => inFlight past = false ∧
      ringsAt = rings around.now (wait (paceOf past).earliest around)

structure Holds (state : State) (log : List Entry) : Prop where
  busy : state.busy = inFlight log
  retry : state.alive = true → state.retry = backoff (paceOf log).failures
  notBefore : state.alive = true → state.notBefore = (paceOf log).earliest
  watching : state.alive = true → state.busy = false →
    ∃ ringsAt, state.timer = some ringsAt ∧
      ((∃ now, log.getLast? = some (.idles now ringsAt)) ∨
        ∃ around, log.getLast? = some (.waits around ringsAt))
  allowed : ∀ seen ∈ withPast [] log, Allowed seen.1 seen.2

theorem inFlight_snoc (log : List Entry) (entry : Entry) :
    inFlight (log ++ [entry]) =
      match entry with
      | .started _ => true
      | .answered _ _ => false
      | _ => inFlight log := by
  rw [inFlight, List.foldl_append]
  cases entry <;> rfl

theorem paceOf_snoc (log : List Entry) (entry : Entry) :
    paceOf (log ++ [entry]) = (paceOf log).after entry := by
  rw [paceOf, List.foldl_append]
  rfl

theorem backoff_succ (failures : ℕ) :
    backoff (failures + 1) = min (backoff failures * 2) retryMaxMs := by
  have doubled : retryMs * 2 ^ (failures + 1) = retryMs * 2 ^ failures * 2 := by
    rw [pow_succ, mul_assoc]
  rw [backoff, backoff, doubled]
  simp only [retryMaxMs]
  omega

theorem allowed_snoc {log : List Entry} {entry : Entry}
    (earlier : ∀ seen ∈ withPast [] log, Allowed seen.1 seen.2) (own : Allowed log entry) :
    ∀ seen ∈ withPast [] (log ++ [entry]), Allowed seen.1 seen.2 := by
  intro other member
  rw [withPast_snoc] at member
  cases List.mem_append.mp member with
  | inl before => exact earlier other before
  | inr last => exact List.mem_singleton.mp last ▸ own

structure Settled (state : State) (log : List Entry) : Prop where
  idle : state.busy = false
  flight : inFlight log = false
  retry : state.retry = backoff (paceOf log).failures
  notBefore : state.notBefore = (paceOf log).earliest
  allowed : ∀ seen ∈ withPast [] log, Allowed seen.1 seen.2

theorem idle_ringsAt (now : ℤ) : rings now checkMs = now + checkMs := by
  rw [rings, min_self, max_eq_right (by norm_num [checkMs]), Int.floor_intCast]

theorem rings_le (now : ℤ) (ms : ℚ) : rings now ms ≤ now + checkMs := by
  have bounded : max 0 (min (checkMs : ℚ) ms) ≤ checkMs :=
    max_le (by norm_num [checkMs]) (min_le_left _ _)
  have floored := Int.floor_le_floor bounded
  rw [Int.floor_intCast] at floored
  exact add_le_add_right floored now

theorem Settled.idles {state : State} {log : List Entry} (settled : Settled state log) (now : ℤ) :
    Holds (state.idle now).1 (log ++ (state.idle now).2) where
  busy := by rw [State.idle, inFlight_snoc]; exact settled.idle.trans settled.flight.symm
  retry := fun _ => by rw [State.idle, paceOf_snoc]; exact settled.retry
  notBefore := fun _ => by rw [State.idle, paceOf_snoc]; exact settled.notBefore
  watching := fun _ _ => ⟨_, rfl, .inl ⟨now, List.getLast?_concat⟩⟩
  allowed := by
    have own : Allowed log (.idles now (rings now checkMs)) := ⟨settled.flight, idle_ringsAt now⟩
    exact allowed_snoc settled.allowed own

theorem Settled.awaits {state : State} {log : List Entry} (settled : Settled state log)
    (around : Around) : Holds (state.await around).1 (log ++ (state.await around).2) where
  busy := by rw [State.await, inFlight_snoc]; exact settled.idle.trans settled.flight.symm
  retry := fun _ => by rw [State.await, paceOf_snoc]; exact settled.retry
  notBefore := fun _ => by rw [State.await, paceOf_snoc]; exact settled.notBefore
  watching := fun _ _ => ⟨_, rfl, .inr ⟨around, List.getLast?_concat⟩⟩
  allowed := by
    have own : Allowed log (.waits around (rings around.now (wait state.notBefore around))) :=
      ⟨settled.flight, by rw [settled.notBefore]⟩
    exact allowed_snoc settled.allowed own

theorem Settled.tick {state : State} {log : List Entry} (settled : Settled state log)
    (alive : state.alive = true) (around : Around) :
    Holds (tick state around).1 (log ++ (tick state around).2) := by
  rw [SessionRenewal.tick, alive, settled.idle]
  by_cases out : around.signedOut = true
  · simp only [out, Bool.not_true, Bool.or_self, Bool.false_eq_true, if_false, if_true]
    exact settled.idles around.now
  · simp only [out, Bool.not_true, Bool.or_self, Bool.false_eq_true, if_false]
    by_cases early : 0 < wait state.notBefore around
    · rw [if_pos early]
      exact settled.awaits around
    · rw [if_neg early]
      obtain ⟨due, late⟩ := max_le_iff.mp (not_lt.mp early)
      have started : Allowed log (.started around) := by
        refine ⟨settled.flight, by simpa using out, due, ?_⟩
        rw [← settled.notBefore]
        exact_mod_cast sub_nonpos.mp late
      exact {
        busy := by rw [inFlight_snoc]
        retry := fun _ => by rw [paceOf_snoc]; exact settled.retry
        notBefore := fun _ => by rw [paceOf_snoc]; exact settled.notBefore
        watching := fun _ idle => Bool.noConfusion idle
        allowed := allowed_snoc settled.allowed started }

theorem Holds.settled {state : State} {log : List Entry} (holds : Holds state log)
    (alive : state.alive = true) (idle : state.busy = false) : Settled state log :=
  ⟨idle, holds.busy ▸ idle, holds.retry alive, holds.notBefore alive, holds.allowed⟩

theorem Settled.heed {state : State} {log : List Entry} (flying : state.busy = true)
    (holds : Holds state log) (alive : state.alive = true) (around : Around) (outcome : Outcome) :
    Holds (State.heed { state with busy := false } around outcome).1
      (log ++ [.answered around.now outcome] ++
        (State.heed { state with busy := false } around outcome).2) := by
  have heard : Allowed log (.answered around.now outcome) := holds.busy.symm.trans flying
  have grown := allowed_snoc holds.allowed heard
  have landed : inFlight (log ++ [.answered around.now outcome]) = false := inFlight_snoc _ _
  have paced := paceOf_snoc log (.answered around.now outcome)
  have retry := holds.retry alive
  cases outcome with
  | signedOut =>
      refine Settled.idles ⟨rfl, landed, ?_, ?_, grown⟩ around.now
      · rw [paced]; exact retry
      · rw [paced]; exact holds.notBefore alive
  | renewed =>
      refine Settled.awaits ⟨rfl, landed, ?_, ?_, grown⟩ around
      · rw [paced]; rfl
      · rw [paced]; rfl
  | failed =>
      refine Settled.awaits ⟨rfl, landed, ?_, ?_, grown⟩ around
      · rw [paced, Pace.after, backoff_succ, ← retry]
      · rw [paced, Pace.after, ← retry]

theorem Holds.settle {state : State} {log : List Entry} (holds : Holds state log)
    (flying : state.busy = true) (around : Around) (outcome : Outcome) :
    Holds (settle state around outcome).1 (log ++ (settle state around outcome).2) := by
  have longer : ∀ entries : List Entry, log ++ (.answered around.now outcome :: entries) =
      log ++ [.answered around.now outcome] ++ entries := fun entries => by
    rw [List.append_assoc, List.singleton_append]
  obtain ⟨alive, busy, timer, retry, notBefore⟩ := state
  cases alive with
  | true =>
      have heeded := Settled.heed flying holds rfl around outcome
      rw [← longer] at heeded
      exact heeded
  | false =>
      have heard : Allowed log (.answered around.now outcome) := holds.busy.symm.trans flying
      exact {
        busy := (inFlight_snoc log (.answered around.now outcome)).symm
        retry := fun alive => Bool.noConfusion alive
        notBefore := fun alive => Bool.noConfusion alive
        watching := fun alive => Bool.noConfusion alive
        allowed := allowed_snoc holds.allowed heard }

/-- What does not touch what the hook holds but its timer, while a renewal is on its way or
the page has left. -/
theorem Holds.timer {state : State} {log : List Entry} (holds : Holds state log)
    (away : state.alive = true → state.busy = true) (timer : Option ℤ) :
    Holds { state with timer } (log ++ []) := by
  rw [List.append_nil]
  exact {
    busy := holds.busy
    retry := holds.retry
    notBefore := holds.notBefore
    watching := fun alive idle => Bool.noConfusion ((away alive).symm.trans idle)
    allowed := holds.allowed }

theorem Holds.same {state : State} {log : List Entry} (holds : Holds state log) :
    Holds state (log ++ []) := by
  rw [List.append_nil]
  exact holds

theorem Holds.tick {state : State} {log : List Entry} (holds : Holds state log)
    (timer : Option ℤ) (around : Around) :
    Holds (tick { state with timer } around).1 (log ++ (tick { state with timer } around).2) := by
  by_cases away : state.alive = true → state.busy = true
  · have quiet : SessionRenewal.tick { state with timer } around = ({ state with timer }, []) := by
      rw [SessionRenewal.tick]
      refine if_pos ?_
      cases alive : state.alive with
      | false => rfl
      | true => exact away alive
    rw [quiet]
    exact holds.timer away timer
  · push Not at away
    obtain ⟨alive, idle⟩ := away
    obtain ⟨idle, flight, retry, notBefore, allowed⟩ :=
      holds.settled alive (Bool.eq_false_iff.mpr idle)
    have settled : Settled { state with timer } log := ⟨idle, flight, retry, notBefore, allowed⟩
    exact settled.tick alive around

/-- Whatever happens next, what is seen of it is allowed. -/
theorem Holds.step {state : State} {log : List Entry} (holds : Holds state log) (event : Event) :
    Holds (step state event).1 (log ++ (step state event).2) := by
  cases event with
  | rang around =>
      rw [SessionRenewal.step]
      cases set : state.timer with
      | none => exact holds.same
      | some ringsAt =>
          by_cases early : around.now < ringsAt
          · simp only [if_pos early]
            exact holds.same
          · simp only [if_neg early]
            exact holds.tick none around
  | woke around hidden =>
      rw [SessionRenewal.step]
      by_cases asleep : (!state.alive || hidden) = true
      · rw [if_pos asleep]
        exact holds.same
      · rw [if_neg asleep]
        exact holds.tick state.timer around
  | answered around outcome =>
      rw [SessionRenewal.step]
      by_cases flying : state.busy = true
      · rw [if_pos flying]
        exact holds.settle flying around outcome
      · rw [if_neg flying]
        exact holds.same
  | left =>
      rw [SessionRenewal.step, List.append_nil]
      exact {
        busy := holds.busy
        retry := fun alive => Bool.noConfusion alive
        notBefore := fun alive => Bool.noConfusion alive
        watching := fun alive => Bool.noConfusion alive
        allowed := holds.allowed }

theorem holds_run (first : Around) (events : List Event) :
    Holds (run first events).1 (run first events).2 := by
  induction events using List.reverseRecOn with
  | nil =>
      have settled : Settled .start [] := ⟨rfl, rfl, rfl, rfl, fun _ member => nomatch member⟩
      exact settled.tick rfl first
  | append_singleton events event ih =>
      rw [run, List.foldl_append]
      exact ih.step event

/-! ### What a run shows -/

theorem gone_step {state : State} (gone : state.alive = false) (event : Event) :
    (step state event).1.alive = false ∧
      ∀ around, Entry.started around ∉ (step state event).2 := by
  obtain ⟨alive, busy, timer, retry, notBefore⟩ := state
  cases gone
  cases event with
  | rang around =>
      cases timer with
      | none => exact ⟨rfl, fun _ => List.not_mem_nil⟩
      | some ringsAt =>
          simp only [step]
          split
          · exact ⟨rfl, fun _ => List.not_mem_nil⟩
          · exact ⟨rfl, fun _ => List.not_mem_nil⟩
  | woke around hidden => exact ⟨rfl, fun _ => List.not_mem_nil⟩
  | answered around outcome =>
      cases busy with
      | false => exact ⟨rfl, fun _ => List.not_mem_nil⟩
      | true =>
          refine ⟨rfl, fun other member => ?_⟩
          cases List.mem_singleton.mp member
  | left => exact ⟨rfl, fun _ => List.not_mem_nil⟩

/-- Nothing is started after the page has left. -/
theorem none_after_left (first : Around) (before after : List Event) :
    (run first (before ++ .left :: after)).1.alive = false ∧
      ∀ around, .started around ∈ (run first (before ++ .left :: after)).2 →
        .started around ∈ (run first before).2 := by
  induction after using List.reverseRecOn with
  | nil =>
      rw [run, List.foldl_append]
      refine ⟨rfl, fun around member => ?_⟩
      exact (List.mem_append.mp member).elim id fun noMore => absurd noMore List.not_mem_nil
  | append_singleton after event ih =>
      obtain ⟨gone, earlier⟩ := ih
      obtain ⟨still, silent⟩ := gone_step gone event
      rw [← List.cons_append, ← List.append_assoc, run, List.foldl_append]
      refine ⟨still, fun around member => ?_⟩
      exact (List.mem_append.mp member).elim (earlier around) fun now =>
        absurd now (silent around)

/-- In any order of rings, wakes and answers: a renewal is started only when it is due, the
page is signed in, none is on its way, and the gap after the last answer is over, a gap that
doubles with each failure up to ten minutes. A page that is open and waits for no answer has
its timer set, no more than a minute ahead. One that has left starts nothing. -/
theorem renewals_paced (first : Around) (events : List Event) :
    (∀ seen ∈ withPast [] (run first events).2, Allowed seen.1 seen.2) ∧
      ((run first events).1.alive = true → inFlight (run first events).2 = false →
        ∃ now ringsAt, (run first events).1.timer = some ringsAt ∧ ringsAt ≤ now + checkMs ∧
          ((run first events).2.getLast? = some (.idles now ringsAt) ∨
            ∃ around, around.now = now ∧
              (run first events).2.getLast? = some (.waits around ringsAt))) ∧
      ∀ before after, events = before ++ .left :: after → ∀ around,
        .started around ∈ (run first events).2 → .started around ∈ (run first before).2 := by
  have holds := holds_run first events
  refine ⟨holds.allowed, fun alive idle => ?_, fun before after split around member => ?_⟩
  · obtain ⟨ringsAt, set, last⟩ := holds.watching alive (holds.busy.trans idle)
    cases last with
    | inl idles =>
        obtain ⟨now, last⟩ := idles
        obtain ⟨log, whole⟩ := List.getLast?_eq_some_iff.mp last
        have own := holds.allowed _ (whole ▸ mem_withPast [] log (.idles now ringsAt) [])
        exact ⟨now, ringsAt, set, le_of_eq own.2, .inl last⟩
    | inr waits =>
        obtain ⟨around, last⟩ := waits
        obtain ⟨log, whole⟩ := List.getLast?_eq_some_iff.mp last
        have own := holds.allowed _ (whole ▸ mem_withPast [] log (.waits around ringsAt) [])
        exact ⟨around.now, ringsAt, set, own.2 ▸ rings_le around.now _, .inr ⟨around, rfl, last⟩⟩
  · subst split
    exact (none_after_left first before after).2 around member

/-! ### On time -/

section OnTime

variable (session : Session)

def ring (state : State) : State × List Entry :=
  match state.timer with
  | none => (state, [])
  | some ringsAt => step state (.rang ⟨ringsAt, some session, false⟩)

def ringing : ℕ → State → State × List Entry
  | 0, state => (state, [])
  | times + 1, state =>
      let rung := ring session state
      let later := ringing times rung.1
      (later.1, rung.2 ++ later.2)

/-- Open, signed in, waiting for no answer, with the timer set at some moment. -/
structure Waiting (state : State) (now : ℤ) : Prop where
  alive : state.alive = true
  idle : state.busy = false
  timer : state.timer = some (rings now (wait state.notBefore ⟨now, some session, false⟩))

variable {session} {due : ℤ}

theorem wait_eq (whole : session.dueAt = due) (notBefore now : ℤ) :
    wait notBefore ⟨now, some session, false⟩ = ((max due notBefore - now : ℤ) : ℚ) := by
  have asked : wait notBefore ⟨now, some session, false⟩ =
      max (session.dueAt - now) (notBefore - now) := rfl
  rw [asked, whole]
  push_cast
  exact max_sub_sub_right _ _ _

theorem rings_eq (whole : session.dueAt = due) (notBefore now : ℤ) :
    rings now (wait notBefore ⟨now, some session, false⟩) =
      min (now + checkMs) (max (max due notBefore) now) := by
  have cast : max 0 (min (checkMs : ℚ) (wait notBefore ⟨now, some session, false⟩)) =
      ((max 0 (min checkMs (max due notBefore - now)) : ℤ) : ℚ) := by
    rw [wait_eq whole]
    push_cast
    rfl
  rw [rings, cast, Int.floor_intCast]
  have long : 0 ≤ checkMs := by decide
  omega

theorem Waiting.ring_eq {state : State} {now : ℤ} (waiting : Waiting session state now)
    {ringsAt : ℤ} (set : state.timer = some ringsAt) :
    ring session state =
      if 0 < wait state.notBefore ⟨ringsAt, some session, false⟩ then
        State.await { state with timer := none } ⟨ringsAt, some session, false⟩
      else ({ state with timer := none, busy := true },
        [.started ⟨ringsAt, some session, false⟩]) := by
  rw [ring, set]
  simp only [step, set, lt_irrefl, if_false, tick, waiting.alive, waiting.idle, Bool.not_true,
    Bool.or_self, Bool.false_eq_true]

/-- A ring on time: the renewal when it is due, or the next wait. -/
theorem Waiting.ring (whole : session.dueAt = due) {state : State} {now : ℤ}
    (waiting : Waiting session state now) :
    (ring session state).2 =
        [.started ⟨max (max due state.notBefore) now, some session, false⟩] ∨
    (now + checkMs < max due state.notBefore ∧
      Waiting session (ring session state).1 (now + checkMs) ∧
      (ring session state).1.notBefore = state.notBefore ∧
      ∃ ringsAt, (ring session state).2 =
        [.waits ⟨now + checkMs, some session, false⟩ ringsAt]) := by
  have set := waiting.timer
  rw [rings_eq whole] at set
  have rung := waiting.ring_eq set
  have long : 0 < checkMs := by decide
  by_cases soon : max (max due state.notBefore) now ≤ now + checkMs
  · left
    rw [min_eq_right soon] at rung
    have due : ¬ 0 < wait state.notBefore
        ⟨max (max due state.notBefore) now, some session, false⟩ := by
      rw [wait_eq whole, not_lt]
      exact_mod_cast sub_nonpos.mpr (le_max_left _ now)
    rw [rung, if_neg due]
  · right
    have later := lt_of_not_ge soon
    rw [min_eq_left (le_of_lt later)] at rung
    have ahead : now + checkMs < max due state.notBefore := by omega
    have early : 0 < wait state.notBefore ⟨now + checkMs, some session, false⟩ := by
      rw [wait_eq whole]
      exact_mod_cast sub_pos.mpr ahead
    rw [rung, if_pos early]
    exact ⟨ahead, ⟨waiting.alive, waiting.idle, rfl⟩, rfl, _, rfl⟩

theorem Waiting.renews (whole : session.dueAt = due) (fuel : ℕ) {state : State} {now : ℤ}
    (waiting : Waiting session state now)
    (near : max due state.notBefore ≤ now + checkMs * (fuel + 1)) :
    ∃ times ≤ fuel + 1, ∃ waits : List Entry,
      (ringing session times state).2 =
        waits ++ [.started ⟨max (max due state.notBefore) now, some session, false⟩] ∧
      ∀ entry ∈ waits, ∃ around ringsAt, entry = .waits around ringsAt := by
  induction fuel generalizing state now with
  | zero =>
      cases waiting.ring whole with
      | inl started => exact ⟨1, le_refl _, [], by rw [ringing, ringing, started]; rfl, by simp⟩
      | inr later =>
          have noMore := later.1
          norm_num at near
          omega
  | succ fuel ih =>
      cases waiting.ring whole with
      | inl started => exact ⟨1, by omega, [], by rw [ringing, ringing, started]; rfl, by simp⟩
      | inr later =>
          obtain ⟨ahead, next, kept, ringsAt, seen⟩ := later
          have closer : max due (SessionRenewal.ring session state).1.notBefore ≤
              now + checkMs + checkMs * (fuel + 1) := by
            rw [kept]
            push_cast at near
            linarith
          obtain ⟨times, few, waits, shown, only⟩ := ih next closer
          have long : 0 < checkMs := by decide
          have same : max (max due state.notBefore) (now + checkMs) =
              max (max due state.notBefore) now := by omega
          refine ⟨times + 1, by omega, .waits ⟨now + checkMs, some session, false⟩ ringsAt :: waits, ?_, ?_⟩
          · rw [ringing, seen, shown, kept, same]
            rfl
          · intro entry member
            cases List.mem_cons.mp member with
            | inl own => exact ⟨_, _, own⟩
            | inr rest => exact only entry rest

/-- In a page that stays open and signed in, from any wait a run has come to: rings on time
lead to a renewal at the very moment the session asks for it, or the gap after the last answer
is over, or the wait was set, whichever is last; and to nothing before it. -/
theorem renews_on_time (first : Around) (events : List Event) {log : List Entry} {now ringsAt : ℤ}
    (whole : session.dueAt = due) (alive : (run first events).1.alive = true)
    (last : (run first events).2 = log ++ [.waits ⟨now, some session, false⟩ ringsAt]) :
    ∃ (times : ℕ) (waits : List Entry),
      (ringing session times (run first events).1).2 =
        waits ++ [.started ⟨max (max due (paceOf log).earliest) now, some session, false⟩] ∧
      ∀ entry ∈ waits, ∃ around ringsAt, entry = .waits around ringsAt := by
  have holds := holds_run first events
  obtain ⟨flight, set⟩ := holds.allowed _
    (last ▸ mem_withPast [] log (.waits ⟨now, some session, false⟩ ringsAt) [])
  have idle : (run first events).1.busy = false := by
    rw [holds.busy, last, inFlight_snoc]
    exact flight
  have earliest : (run first events).1.notBefore = (paceOf log).earliest := by
    rw [holds.notBefore alive, last, paceOf_snoc]
    rfl
  obtain ⟨ringsNext, timer, shown⟩ := holds.watching alive idle
  have same : ringsNext = ringsAt := by
    rw [last, List.getLast?_concat] at shown
    cases shown with
    | inl idles => obtain ⟨_, impossible⟩ := idles; cases impossible
    | inr waits => obtain ⟨_, own⟩ := waits; cases own; rfl
  have waiting : Waiting session (run first events).1 now := by
    refine ⟨alive, idle, ?_⟩
    rw [timer, same, set, earliest]
    rfl
  have near : max due (run first events).1.notBefore ≤ now + checkMs *
      ((max due (run first events).1.notBefore - now).toNat + 1) := by
    have long : checkMs = 60000 := rfl
    have enough := Int.self_le_toNat (max due (run first events).1.notBefore - now)
    rw [long]
    omega
  obtain ⟨times, _, waits, found, only⟩ := waiting.renews whole _ near
  rw [earliest] at found
  exact ⟨times, waits, found, only⟩

end OnTime

def twelveHours : Session := ⟨43200000, 43200000⟩

/-- The page looks when the renewal is due, and it fails five seconds later. -/
def renewalFails : List Event := [.answered ⟨39605000, some twelveHours, false⟩ .failed]

/-- The next one goes out a minute after the failure. -/
theorem renews_on_time_renewalFails : ∃ (times : ℕ) (waits : List Entry),
    (ringing twelveHours times (run ⟨39600000, some twelveHours, false⟩ renewalFails).1).2 =
        waits ++ [.started ⟨39665000, some twelveHours, false⟩] ∧
      ∀ entry ∈ waits, ∃ around ringsAt, entry = .waits around ringsAt := by
  have due : twelveHours.dueAt = ((39600000 : ℤ) : ℚ) := by
    norm_num [Session.dueAt, twelveHours, marginMs]
  have begins : tick .start ⟨39600000, some twelveHours, false⟩ =
      ({ State.start with busy := true }, [.started ⟨39600000, some twelveHours, false⟩]) := by
    have reached : ¬ 0 < wait State.start.notBefore ⟨39600000, some twelveHours, false⟩ := by
      rw [wait_eq due]
      norm_num [State.start]
    rw [tick, if_neg (by decide), if_neg (by decide), if_neg reached]
  have ran : run ⟨39600000, some twelveHours, false⟩ renewalFails =
      (({ State.start with notBefore := 39665000, retry := 120000 }).arm
          (rings 39605000 (wait 39665000 ⟨39605000, some twelveHours, false⟩)),
        [.started ⟨39600000, some twelveHours, false⟩, .answered 39605000 .failed] ++
          [.waits ⟨39605000, some twelveHours, false⟩
            (rings 39605000 (wait 39665000 ⟨39605000, some twelveHours, false⟩))]) := by
    rw [run, begins]
    rfl
  exact renews_on_time ⟨39600000, some twelveHours, false⟩ renewalFails due
    (congrArg (fun shown => shown.1.alive) ran) (congrArg Prod.snd ran)

end ZabbixPortal.Web.SessionRenewal
