import ZabbixPortal.Http.HealthProperties

/-! How long a caller of the readiness check waits: what the timer and the probes of a check bring
about, and that the check is then over. -/

set_option autoImplicit false

namespace ZabbixPortal.Http.Health

open Foundation

def Rings (opts : ReadinessOptions) (start : ℤ) (events : List Event) (call : ℕ) (due : ℤ) : Prop :=
  ∃ past, (past, Event.limitRings) ∈ withPast [] events ∧
    call < (run opts start past).calls ∧ due ≤ (run opts start past).now

def Probed (opts : ReadinessOptions) (start : ℤ) (events : List Event) (call : ℕ) : Prop :=
  ∃ past answer, (past, Event.modelSettles call answer) ∈ withPast [] events ∧
    call < (run opts start past).calls

/-- Time passes once the callbacks are through. It passes the limit of the check on its way once the
timer has gone off and the model, whose probe gives up by then too, has answered. -/
def Prompt (opts : ReadinessOptions) (start : ℤ) (before : List Event) : Event → Prop
  | .passes ms => callbacks <:+ before ∧ ∀ flight ∈ (run opts start before).flight,
      flight.started + opts.timeoutMs < (run opts start before).now + ms →
        Rings opts start before flight.call (flight.started + opts.timeoutMs) ∧
          Probed opts start before flight.call
  | _ => True

def PromptRun (opts : ReadinessOptions) (start : ℤ) (events : List Event) : Prop :=
  ∀ seen ∈ withPast [] events, Prompt opts start seen.1 seen.2

def Phase.Raced : Phase → Prop
  | .checking none _ => False
  | _ => True

def Phase.Answered : Phase → Prop
  | .checking _ none => False
  | _ => True

/-- The check on its way after a step is a new one, or the one before it, no less far. -/
def Advances (state next : State) (later : Flight) : Prop :=
  (later.call = state.calls ∧ state.calls < next.calls) ∨ ∃ flight ∈ state.flight, flight.call = later.call ∧
    flight.started = later.started ∧ (flight.phase.Raced → later.phase.Raced) ∧
      (flight.phase.Answered → later.phase.Answered)

theorem Advances.same {state next : State} {flight : Flight} (present : flight ∈ state.flight) :
    Advances state next flight :=
  .inr ⟨flight, present, rfl, rfl, id, id⟩

theorem Advances.of_call {state next : State} {flight later : Flight}
    (flying : state.flight = some flight) (call : flight.call = later.call)
    (started : flight.started = later.started) (raced : later.phase.Raced)
    (answered : later.phase.Answered) : Advances state next later :=
  .inr ⟨flight, flying, call, started, fun _ => raced, fun _ => answered⟩

theorem Flight.race_raced (flight : Flight) (outcome : ZabbixState × Option ℤ) :
    (flight.race outcome).phase.Raced ∧
      (flight.phase.Answered → (flight.race outcome).phase.Answered) := by
  obtain ⟨call, started, phase⟩ := flight
  cases phase with
  | checking zabbix model =>
      cases zabbix with
      | none => cases model <;> exact ⟨trivial, id⟩
      | some first => exact ⟨trivial, id⟩
  | checked answer => exact ⟨trivial, id⟩
  | stored answer => exact ⟨trivial, id⟩

theorem Flight.hears_answered (flight : Flight) (said : ModelState) :
    (flight.hears said).phase.Answered ∧
      (flight.phase.Raced → (flight.hears said).phase.Raced) := by
  obtain ⟨call, started, phase⟩ := flight
  cases phase with
  | checking zabbix model =>
      cases model with
      | none => cases zabbix <;> exact ⟨trivial, id⟩
      | some first => exact ⟨trivial, id⟩
  | checked answer => exact ⟨trivial, id⟩
  | stored answer => exact ⟨trivial, id⟩

theorem refresh_advances {warm : Bool} {state : State} {later : Flight}
    (present : later ∈ (refresh warm state).flight) :
    Advances state (refresh warm state) later := by
  obtain ⟨now, calls, last, flight, waiting, log⟩ := state
  cases flight with
  | some flight => exact .same present
  | none =>
      cases present
      exact .inl ⟨rfl, Nat.lt_succ_self _⟩

theorem awaitRefresh_same (caller : ℕ) (state : State) :
    (awaitRefresh caller state).flight = (refresh false state).flight ∧
      (awaitRefresh caller state).calls = (refresh false state).calls := by
  rw [awaitRefresh]
  generalize refresh false state = next
  obtain ⟨now, calls, last, flight, waiting, log⟩ := next
  cases flight <;> exact ⟨rfl, rfl⟩

theorem awaitRefresh_advances {caller : ℕ} {state : State} {later : Flight}
    (present : later ∈ (awaitRefresh caller state).flight) :
    Advances state (awaitRefresh caller state) later := by
  obtain ⟨flight, calls⟩ := awaitRefresh_same caller state
  rw [flight] at present
  rw [Advances, calls]
  exact refresh_advances present

theorem get_advances {opts : ReadinessOptions} {caller : ℕ} {state : State} {later : Flight}
    (present : later ∈ (get opts caller state).flight) :
    Advances state (get opts caller state) later := by
  rw [get] at present ⊢
  cases known : state.last with
  | none =>
      rw [known] at present
      exact awaitRefresh_advances present
  | some last =>
      rw [known] at present
      by_cases fresh : state.now - last.checkedAt < opts.ttlMs
      · simp only [if_pos fresh] at present
        exact .same present
      · by_cases recent : state.now - last.checkedAt < opts.staleMs
        · simp only [if_neg fresh, if_pos recent] at present ⊢
          exact refresh_advances present
        · simp only [if_neg fresh, if_neg recent] at present ⊢
          exact awaitRefresh_advances present

theorem reaches_advances {state next : State} {call : ℕ} {change : Flight → Flight} {later : Flight}
    (calls : ∀ flight, (change flight).call = flight.call)
    (starts : ∀ flight, (change flight).started = flight.started)
    (further : ∀ flight, (flight.phase.Raced → (change flight).phase.Raced) ∧
      (flight.phase.Answered → (change flight).phase.Answered))
    (present : later ∈ (state.reaches call change).flight) : Advances state next later := by
  obtain ⟨flight, before, rfl⟩ := Option.mem_map.mp present
  by_cases own : flight.call = call
  · rw [if_pos own]
    exact .inr ⟨flight, before, (calls flight).symm, (starts flight).symm, further flight⟩
  · rw [if_neg own]
    exact .same before

theorem step_advances {opts : ReadinessOptions} {state : State} {event : Event} {later : Flight}
    (present : later ∈ (step opts state event).flight) :
    Advances state (step opts state event) later := by
  cases event with
  | passes ms => exact .same present
  | warms => exact refresh_advances present
  | asks caller => exact get_advances present
  | zabbixSettles call failure =>
      by_cases known : call < state.calls
      · rw [step, if_pos known] at present
        exact reaches_advances (fun flight => flight.race_call _) (fun flight => flight.race_started _)
          (fun flight => ⟨fun _ => (flight.race_raced _).1, (flight.race_raced _).2⟩) present
      · rw [step, if_neg known] at present
        exact .same present
  | modelSettles call answer =>
      by_cases known : call < state.calls
      · rw [step, if_pos known] at present
        exact reaches_advances (fun flight => flight.hears_call _)
          (fun flight => flight.hears_started _)
          (fun flight => ⟨(flight.hears_answered _).2, fun _ => (flight.hears_answered _).1⟩) present
      · rw [step, if_neg known] at present
        exact .same present
  | limitRings =>
      rw [step] at present
      split at present
      · next call started zabbix model flying =>
          by_cases due : started + opts.timeoutMs ≤ state.now
          · rw [if_pos due] at present
            cases present
            exact .inr ⟨_, flying, (Flight.race_call _ _).symm, (Flight.race_started _ _).symm,
              fun _ => (Flight.race_raced _ _).1, (Flight.race_raced _ _).2⟩
          · rw [if_neg due] at present
            exact .same present
      · exact .same present
  | resolves =>
      rw [step] at present
      split at present
      · next flying =>
          cases present
          exact .of_call flying rfl rfl trivial trivial
      · exact .same present
  | stores =>
      rw [step] at present
      split at present
      · next flying =>
          cases present
          exact .of_call flying rfl rfl trivial trivial
      · exact .same present
  | lands =>
      rw [step] at present
      split at present
      · cases present
      · exact .same present

theorem refresh_calls (warm : Bool) (state : State) : state.calls ≤ (refresh warm state).calls := by
  rw [refresh]
  cases state.flight with
  | some flight => exact le_rfl
  | none => exact Nat.le_succ _

theorem awaitRefresh_calls (caller : ℕ) (state : State) :
    state.calls ≤ (awaitRefresh caller state).calls :=
  (awaitRefresh_same caller state).2 ▸ refresh_calls false state

theorem step_calls (opts : ReadinessOptions) (state : State) (event : Event) :
    state.calls ≤ (step opts state event).calls := by
  cases event with
  | warms => exact refresh_calls true state
  | asks caller =>
      rw [step, get]
      split
      · exact awaitRefresh_calls caller state
      · dsimp only
        split
        · exact le_rfl
        · split
          · exact refresh_calls false state
          · exact awaitRefresh_calls caller state
  | _ => rw [step]; repeat (first | exact le_rfl | split)

/-- Once its timer has gone off the race of the check on its way is over, and its model's answer is
in once the model has answered. -/
structure HasHeard (opts : ReadinessOptions) (start : ℤ) (events : List Event) : Prop where
  below : ∀ flight ∈ (run opts start events).flight, flight.call < (run opts start events).calls
  known : ∀ seen ∈ withPast [] events, (run opts start seen.1).calls ≤ (run opts start events).calls
  raced : ∀ flight ∈ (run opts start events).flight,
    Rings opts start events flight.call (flight.started + opts.timeoutMs) → flight.phase.Raced
  answered : ∀ flight ∈ (run opts start events).flight,
    Probed opts start events flight.call → flight.phase.Answered

theorem Rings.snoc {opts : ReadinessOptions} {start : ℤ} {events : List Event} {event : Event}
    {call : ℕ} {due : ℤ} (rings : Rings opts start (events ++ [event]) call due) :
    Rings opts start events call due ∨ event = .limitRings ∧
      due ≤ (run opts start events).now := by
  obtain ⟨past, member, called, late⟩ := rings
  rw [withPast_snoc] at member
  cases List.mem_append.mp member with
  | inl before => exact .inl ⟨past, before, called, late⟩
  | inr last =>
      cases List.mem_singleton.mp last
      exact .inr ⟨rfl, late⟩

theorem Probed.snoc {opts : ReadinessOptions} {start : ℤ} {events : List Event} {event : Event}
    {call : ℕ} (probed : Probed opts start (events ++ [event]) call) :
    Probed opts start events call ∨ ∃ answer, event = .modelSettles call answer := by
  obtain ⟨past, answer, member, called⟩ := probed
  rw [withPast_snoc] at member
  cases List.mem_append.mp member with
  | inl before => exact .inl ⟨past, answer, before, called⟩
  | inr last =>
      cases List.mem_singleton.mp last
      exact .inr ⟨answer, rfl⟩

/-- The limit decides the race of a check that is due. -/
theorem limitRings_raced {opts : ReadinessOptions} {state : State} {later : Flight}
    (present : later ∈ (step opts state .limitRings).flight)
    (due : later.started + opts.timeoutMs ≤ state.now) : later.phase.Raced := by
  rw [step] at present
  split at present
  · next call started zabbix model flying =>
      by_cases late : started + opts.timeoutMs ≤ state.now
      · rw [if_pos late] at present
        cases present
        exact (Flight.race_raced _ _).1
      · rw [if_neg late, flying] at present
        cases present
        exact absurd due late
  · next other =>
      obtain ⟨call, started, phase⟩ := later
      cases phase with
      | checking zabbix model => exact absurd present (other call started zabbix model)
      | checked answer => trivial
      | stored answer => trivial

theorem modelSettles_answered {opts : ReadinessOptions} {state : State} {later : Flight}
    {answer : Option ModelState} (below : ∀ flight ∈ state.flight, flight.call < state.calls)
    (present : later ∈ (step opts state (.modelSettles later.call answer)).flight) :
    later.phase.Answered := by
  by_cases known : later.call < state.calls
  · rw [step, if_pos known] at present
    obtain ⟨flight, -, same⟩ := Option.mem_map.mp present
    by_cases own : flight.call = later.call
    · rw [if_pos own] at same
      rw [← same]
      exact (flight.hears_answered _).1
    · rw [if_neg own] at same
      exact absurd (congrArg Flight.call same) own
  · rw [step, if_neg known] at present
    exact absurd (below later present) known

theorem HasHeard.snoc {opts : ReadinessOptions} {start : ℤ} {events : List Event}
    (heard : HasHeard opts start events) (event : Event) :
    HasHeard opts start (events ++ [event]) := by
  have grown := step_calls opts (run opts start events) event
  have older : ∀ {past : List Event} {item : Event} {call : ℕ},
      (past, item) ∈ withPast [] events → call < (run opts start past).calls →
        call ≠ (run opts start events).calls := fun member called =>
    (called.trans_le (heard.known _ member)).ne
  refine ⟨fun later present => ?_, fun seen member => ?_, fun later present rings => ?_,
    fun later present probed => ?_⟩
  · rw [run_snoc] at present ⊢
    obtain ⟨fresh, more⟩ | ⟨flight, flying, call, -⟩ := step_advances present
    · exact fresh ▸ more
    · exact call ▸ (heard.below flight flying).trans_le grown
  · rw [run_snoc]
    rw [withPast_snoc] at member
    cases List.mem_append.mp member with
    | inl before => exact (heard.known seen before).trans grown
    | inr last =>
        cases List.mem_singleton.mp last
        exact grown
  · rw [run_snoc] at present
    cases rings.snoc with
    | inr own =>
        obtain ⟨rfl, due⟩ := own
        exact limitRings_raced present due
    | inl before =>
        obtain ⟨fresh, -⟩ | ⟨flight, flying, call, started, raced, -⟩ := step_advances present
        · obtain ⟨past, member, called, -⟩ := before
          exact absurd fresh (older member called)
        · exact raced (heard.raced flight flying (by rw [call, started]; exact before))
  · rw [run_snoc] at present
    cases probed.snoc with
    | inr own =>
        obtain ⟨answer, rfl⟩ := own
        exact modelSettles_answered heard.below present
    | inl before =>
        obtain ⟨fresh, -⟩ | ⟨flight, flying, call, -, -, answered⟩ := step_advances present
        · obtain ⟨past, said, member, called⟩ := before
          exact absurd fresh (older member called)
        · exact answered (heard.answered flight flying (by rw [call]; exact before))

theorem hasHeard (opts : ReadinessOptions) (start : ℤ) (events : List Event) :
    HasHeard opts start events := by
  induction events using List.reverseRecOn with
  | nil =>
      exact ⟨fun _ present => absurd present (Option.not_mem_none _),
        fun _ member => absurd member List.not_mem_nil,
        fun _ present => absurd present (Option.not_mem_none _),
        fun _ present => absurd present (Option.not_mem_none _)⟩
  | append_singleton events event ih => exact ih.snoc event

/-- With both probes in, the callbacks end the check. -/
theorem callbacks_end (opts : ReadinessOptions) (state : State) :
    ∀ flight ∈ (callbacks.foldl (step opts) state).flight,
      ¬(flight.phase.Raced ∧ flight.phase.Answered) := by
  obtain ⟨now, calls, last, flight, waiting, log⟩ := state
  cases flight with
  | none => exact fun _ present => absurd present (Option.not_mem_none _)
  | some flight =>
      obtain ⟨call, started, phase⟩ := flight
      intro later present
      cases phase with
      | checking zabbix model =>
          cases zabbix with
          | none =>
              cases present
              exact fun both => both.1
          | some outcome =>
              cases model with
              | none =>
                  cases present
                  exact fun both => both.2
              | some said => cases present
      | checked answer => cases present
      | stored answer => cases present

/-- Time does not pass the limit of a check: with the timer gone off and the model's answer in, the
callbacks have ended it. -/
theorem Prompt.inTime {opts : ReadinessOptions} {start : ℤ} {events : List Event} {ms : ℕ}
    (prompt : Prompt opts start events (.passes ms)) :
    ∀ flight ∈ (run opts start events).flight,
      (run opts start events).now + ms ≤ flight.started + opts.timeoutMs := by
  obtain ⟨⟨before, rfl⟩, promises⟩ := prompt
  intro flight present
  by_contra late
  obtain ⟨rings, probed⟩ := promises flight present (not_le.mp late)
  have heard := hasHeard opts start (before ++ callbacks)
  refine callbacks_end opts (run opts start before) flight ?_
    ⟨heard.raced flight present rings, heard.answered flight present probed⟩
  rw [run, List.foldl_append] at present
  exact present

/-- Nobody waits longer than a check may take. -/
structure Timely (opts : ReadinessOptions) (state : State) : Prop where
  limit : ∀ flight ∈ state.flight, flight.started ≤ state.now ∧
    state.now ≤ flight.started + opts.timeoutMs
  waiting : ∀ waiter ∈ state.waiting, ∃ flight ∈ state.flight, flight.started ≤ waiter.asked
  given : ∀ waiter now answer, .given waiter now answer ∈ state.log →
    now ≤ waiter.asked + opts.timeoutMs

theorem Timely.same {opts : ReadinessOptions} {state next : State} (timely : Timely opts state)
    (now : next.now = state.now)
    (flight : next.flight.map (fun flight => (flight.call, flight.started)) =
      state.flight.map fun flight => (flight.call, flight.started))
    (waiting : next.waiting = state.waiting)
    (given : ∀ waiter now answer, .given waiter now answer ∈ next.log →
      .given waiter now answer ∈ state.log) : Timely opts next := by
  have starts : next.flight.map (·.started) = state.flight.map (·.started) := by
    have second := congrArg (Option.map Prod.snd) flight
    simpa [Option.map_map, Function.comp_def] using second
  refine ⟨fun other present => ?_, fun waiter member => ?_, fun waiter now answer member =>
    timely.given waiter now answer (given waiter now answer member)⟩
  · have among := Option.mem_map_of_mem (·.started) present
    rw [starts] at among
    obtain ⟨before, inFlight, same⟩ := Option.mem_map.mp among
    rw [now, ← same]
    exact timely.limit before inFlight
  · rw [waiting] at member
    obtain ⟨before, inFlight, earlier⟩ := timely.waiting waiter member
    have among := Option.mem_map_of_mem (·.started) inFlight
    rw [← starts] at among
    obtain ⟨other, present, same⟩ := Option.mem_map.mp among
    exact ⟨other, present, same ▸ earlier⟩

theorem given_of_snoc {log : List Entry} {entry : Entry}
    (other : ∀ waiter now answer, entry ≠ .given waiter now answer) (waiter : Waiter) (now : ℤ)
    (answer : Readiness) (member : .given waiter now answer ∈ log ++ [entry]) :
    .given waiter now answer ∈ log := by
  cases List.mem_append.mp member with
  | inl before => exact before
  | inr last => exact absurd (List.mem_singleton.mp last).symm (other waiter now answer)

theorem Timely.refresh {opts : ReadinessOptions} {state : State} {warm : Bool}
    (limit : 0 ≤ opts.timeoutMs) (timely : Timely opts state) :
    Timely opts (refresh warm state) := by
  obtain ⟨now, calls, last, flight, waiting, log⟩ := state
  cases flight with
  | some flight => exact timely
  | none =>
      refine ⟨fun flight present => ?_, fun waiter member => ?_, fun waiter now answer member => ?_⟩
      · cases present
        exact ⟨le_rfl, le_add_of_nonneg_right limit⟩
      · obtain ⟨flight, present, -⟩ := timely.waiting waiter member
        cases present
      · exact timely.given waiter now answer
          (given_of_snoc (fun _ _ _ => Entry.noConfusion) waiter now answer member)

theorem Timely.awaitRefresh {opts : ReadinessOptions} {state : State}
    (limit : 0 ≤ opts.timeoutMs) (timely : Timely opts state) (caller : ℕ) :
    Timely opts (awaitRefresh caller state) := by
  have refreshed : Timely opts (Health.refresh false state) := timely.refresh limit
  rw [Health.awaitRefresh]
  generalize Health.refresh false state = next at refreshed
  obtain ⟨now, calls, last, flight, waiting, log⟩ := next
  cases flight with
  | none => exact refreshed
  | some flight =>
      refine ⟨refreshed.limit, fun waiter member => ?_, fun waiter now answer member => ?_⟩
      · cases List.mem_append.mp member with
        | inl before => exact refreshed.waiting waiter before
        | inr last =>
            rw [List.mem_singleton.mp last]
            exact ⟨flight, rfl, (refreshed.limit flight rfl).1⟩
      · exact refreshed.given waiter now answer
          (given_of_snoc (fun _ _ _ => Entry.noConfusion) waiter now answer member)

theorem Timely.note {opts : ReadinessOptions} {state : State} (timely : Timely opts state)
    {entry : Entry} (other : ∀ waiter now answer, entry ≠ .given waiter now answer) :
    Timely opts (state.note entry) :=
  timely.same rfl rfl rfl (given_of_snoc other)

theorem Timely.get {opts : ReadinessOptions} {state : State} (limit : 0 ≤ opts.timeoutMs)
    (timely : Timely opts state) (caller : ℕ) : Timely opts (get opts caller state) := by
  rw [Health.get]
  cases state.last with
  | none => exact timely.awaitRefresh limit caller
  | some last =>
      by_cases fresh : state.now - last.checkedAt < opts.ttlMs
      · simp only [if_pos fresh]
        exact timely.note fun _ _ _ => Entry.noConfusion
      · by_cases recent : state.now - last.checkedAt < opts.staleMs
        · simp only [if_neg fresh, if_pos recent]
          exact (timely.refresh limit).note fun _ _ _ => Entry.noConfusion
        · simp only [if_neg fresh, if_neg recent]
          exact timely.awaitRefresh limit caller

theorem Timely.step {opts : ReadinessOptions} {state : State} (limit : 0 ≤ opts.timeoutMs)
    (timely : Timely opts state) {event : Event}
    (inTime : ∀ ms, event = .passes ms → ∀ flight ∈ state.flight,
      state.now + ms ≤ flight.started + opts.timeoutMs) : Timely opts (step opts state event) := by
  cases event with
  | passes ms =>
      refine ⟨fun flight present => ⟨?_, inTime ms rfl flight present⟩, timely.waiting, timely.given⟩
      exact (timely.limit flight present).1.trans (le_add_of_nonneg_right (Int.natCast_nonneg ms))
  | warms => exact timely.refresh limit
  | asks caller => exact timely.get limit caller
  | zabbixSettles call failure =>
      by_cases known : call < state.calls
      · rw [Health.step, if_pos known]
        exact timely.same rfl (reaches_calls _ _ (fun flight => flight.race_call _)
          fun flight => flight.race_started _) rfl (given_of_snoc fun _ _ _ => Entry.noConfusion)
      · rw [Health.step, if_neg known]
        exact timely
  | modelSettles call answer =>
      by_cases known : call < state.calls
      · rw [Health.step, if_pos known]
        exact timely.same rfl (reaches_calls _ _ (fun flight => flight.hears_call _)
          fun flight => flight.hears_started _) rfl (given_of_snoc fun _ _ _ => Entry.noConfusion)
      · rw [Health.step, if_neg known]
        exact timely
  | limitRings =>
      rw [Health.step]
      split
      · next call started zabbix model flying =>
          by_cases due : started + opts.timeoutMs ≤ state.now
          · rw [if_pos due]
            refine timely.same rfl ?_ rfl (given_of_snoc fun _ _ _ => Entry.noConfusion)
            rw [flying, State.note, Option.map_some, Flight.race_call, Flight.race_started]
            rfl
          · rw [if_neg due]
            exact timely
      · exact timely
  | resolves =>
      rw [Health.step]
      split
      · next call started zabbix ms model flying =>
          exact timely.same rfl (by rw [flying]; rfl) rfl
            (given_of_snoc fun _ _ _ => Entry.noConfusion)
      · exact timely
  | stores =>
      rw [Health.step]
      split
      · next call started answer flying =>
          exact timely.same rfl (by rw [flying]; rfl) rfl
            (given_of_snoc fun _ _ _ => Entry.noConfusion)
      · exact timely
  | lands =>
      rw [Health.step]
      split
      · next call started answer flying =>
          refine ⟨fun flight present => absurd present (Option.not_mem_none _),
            fun waiter member => absurd member List.not_mem_nil, fun waiter now told member => ?_⟩
          cases List.mem_append.mp member with
          | inl before => exact timely.given waiter now told before
          | inr last =>
              cases List.mem_cons.mp last with
              | inl first => cases first
              | inr later =>
                  obtain ⟨other, waited, same⟩ := List.mem_map.mp later
                  cases same
                  obtain ⟨flight, present, earlier⟩ := timely.waiting waiter waited
                  have inTime := (timely.limit flight present).2
                  linarith
      · exact timely

theorem timely_run {opts : ReadinessOptions} (limit : 0 ≤ opts.timeoutMs) (start : ℤ)
    (events : List Event) (prompt : PromptRun opts start events) :
    Timely opts (run opts start events) := by
  induction events using List.reverseRecOn with
  | nil =>
      exact ⟨fun _ present => absurd present (Option.not_mem_none _),
        fun _ member => absurd member List.not_mem_nil,
        fun _ _ _ member => absurd member List.not_mem_nil⟩
  | append_singleton events event ih =>
      rw [PromptRun, withPast_snoc] at prompt
      rw [run_snoc]
      have own : Prompt opts start events event :=
        prompt _ (List.mem_append_right _ (List.mem_singleton_self _))
      have earlier : Timely opts (run opts start events) :=
        ih fun seen member => prompt seen (List.mem_append_left _ member)
      exact earlier.step limit fun ms passes => (passes ▸ own : Prompt _ _ _ (.passes ms)).inTime

/-- However long Zabbix is stuck, a caller is answered within the limit of a check. -/
theorem readiness_prompt {opts : ReadinessOptions} (limit : 0 ≤ opts.timeoutMs) (start : ℤ)
    (events : List Event) (prompt : PromptRun opts start events) :
    (∀ waiter now answer, .given waiter now answer ∈ (run opts start events).log →
      now ≤ waiter.asked + opts.timeoutMs) ∧
    ∀ waiter ∈ (run opts start events).waiting,
      (run opts start events).now ≤ waiter.asked + opts.timeoutMs := by
  have timely := timely_run limit start events prompt
  refine ⟨timely.given, fun waiter member => ?_⟩
  obtain ⟨flight, present, earlier⟩ := timely.waiting waiter member
  have inTime := (timely.limit flight present).2
  linarith

theorem readiness_prompt_stuckZabbix :
    (∀ waiter now answer, .given waiter now answer ∈ (run {} 0 stuckZabbix).log →
      now ≤ waiter.asked + 2000) ∧
    ∀ waiter ∈ (run {} 0 stuckZabbix).waiting,
      (run {} 0 stuckZabbix).now ≤ waiter.asked + 2000 := by
  refine @readiness_prompt {} (by decide) 0 stuckZabbix ?_
  intro seen member
  simp only [stuckZabbix, callbacks, withPast, List.nil_append, List.cons_append, List.mem_cons,
    List.not_mem_nil, or_false] at member
  rcases member with rfl | rfl | rfl | rfl | rfl | rfl | rfl | rfl | rfl | rfl | rfl | rfl | rfl |
    rfl | rfl | rfl | rfl | rfl | rfl | rfl | rfl
  all_goals first | trivial | skip
  · refine ⟨⟨[.asks 1, .modelSettles 0 (some .off)], rfl⟩, fun flight present late => ?_⟩
    cases present
    exact absurd late (by decide)
  · refine ⟨⟨[.asks 1, .modelSettles 0 (some .off)] ++ callbacks ++ [.passes 1500, .asks 2], rfl⟩,
      fun flight present late => ?_⟩
    cases present
    exact absurd late (by decide)
  · refine ⟨⟨[.asks 1, .modelSettles 0 (some .off)] ++ callbacks ++ [.passes 1500, .asks 2] ++
      callbacks ++ [.passes 500, .limitRings] ++ callbacks ++ [.zabbixSettles 0 none], rfl⟩,
      fun flight present => ?_⟩
    cases present

end ZabbixPortal.Http.Health
