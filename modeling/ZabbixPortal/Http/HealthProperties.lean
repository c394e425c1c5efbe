import ZabbixPortal.Foundation.Runs
import ZabbixPortal.Http.Health
import Mathlib.Data.List.Induction
import Mathlib.Tactic.Linarith
import Mathlib.Tactic.Ring

/-! One check at a time, and none before the last answer has gone stale; what a check reads is what
its own probes said first; and nobody who asks is forgotten, or told what an earlier check read once
that is too old. -/

set_option autoImplicit false

namespace ZabbixPortal.Http.Health

open Foundation

/-! ### What a log says -/

def inFlight (log : List Entry) : Option ℕ :=
  log.foldl (fun flying entry =>
    match entry with
    | .began call _ _ => some call
    | .landed _ => none
    | _ => flying) none

def latest (log : List Entry) : Option Readiness :=
  log.foldl (fun last entry =>
    match entry with
    | .stored _ answer => some answer
    | _ => last) none

def Entry.race (call : ℕ) (started : ℤ) : Entry → Option (ZabbixState × Option ℤ)
  | .zabbix other now failure => if other = call then some (outcomeOf started now failure) else none
  | .rang other _ => if other = call then some (.timeout, none) else none
  | _ => none

def Entry.modelOf (call : ℕ) : Entry → Option ModelState
  | .model other answer => if other = call then some (answer.getD .down) else none
  | _ => none

/-- The call an entry is about, if it is about the probes. -/
def Entry.probed : Entry → Option ℕ
  | .began call _ _ => some call
  | .zabbix call _ _ => some call
  | .rang call _ => some call
  | .model call _ => some call
  | .read call _ => some call
  | _ => none

def waits (log : List Entry) : List Waiter :=
  log.filterMap fun entry =>
    match entry with
    | .waits waiter => some waiter
    | _ => none

def givens (log : List Entry) : List Waiter :=
  log.filterMap fun entry =>
    match entry with
    | .given waiter _ _ => some waiter
    | _ => none

/-- A check reads what settled its race first, and what the model answered first. -/
structure Reads (past : List Entry) (call : ℕ) (answer : Readiness) : Prop where
  ok : answer.ok = true ↔ answer.zabbix = .ok
  zabbix : ∃ started warm, Entry.began call started warm ∈ past ∧
    past.findSome? (Entry.race call started) = some (answer.zabbix, answer.zabbixMs)
  model : past.findSome? (Entry.modelOf call) = some answer.model

def Allowed (opts : ReadinessOptions) (past : List Entry) : Entry → Prop
  | .began call now warm => inFlight past = none ∧
      (∀ entry ∈ past, ∀ other ∈ entry.probed, other < call) ∧
      (warm = false → ∀ last ∈ latest past, opts.ttlMs ≤ now - last.checkedAt)
  | .zabbix call _ _ => ∃ started warm, .began call started warm ∈ past
  | .rang call now => ∃ started warm, .began call started warm ∈ past ∧
      started + opts.timeoutMs ≤ now
  | .model call _ => ∃ started warm, .began call started warm ∈ past
  | .read call answer => inFlight past = some call ∧ Reads past call answer
  | .stored call answer => inFlight past = some call ∧ .read call answer ∈ past
  | .landed call => inFlight past = some call ∧ ∃ answer, .stored call answer ∈ past
  | .served _ now answer => latest past = some answer ∧ now - answer.checkedAt < opts.staleMs ∧
      (now - answer.checkedAt < opts.ttlMs ∨ inFlight past ≠ none)
  | .waits waiter => inFlight past = some waiter.call ∧
      ∀ last ∈ latest past, opts.staleMs ≤ waiter.asked - last.checkedAt
  | .given waiter _ answer => .waits waiter ∈ past ∧ .stored waiter.call answer ∈ past

theorem inFlight_snoc (log : List Entry) (entry : Entry) :
    inFlight (log ++ [entry]) =
      match entry with
      | .began call _ _ => some call
      | .landed _ => none
      | _ => inFlight log := by
  rw [inFlight, List.foldl_append]
  cases entry <;> rfl

theorem latest_snoc (log : List Entry) (entry : Entry) :
    latest (log ++ [entry]) =
      match entry with
      | .stored _ answer => some answer
      | _ => latest log := by
  rw [latest, List.foldl_append]
  cases entry <;> rfl

theorem mem_waits {log : List Entry} {waiter : Waiter} :
    waiter ∈ waits log ↔ .waits waiter ∈ log := by
  rw [waits, List.mem_filterMap]
  constructor
  · rintro ⟨entry, member, found⟩
    cases entry with
    | waits other =>
        cases found
        exact member
    | _ => cases found
  · exact fun member => ⟨_, member, rfl⟩

/-! ### What every step keeps -/

def Phase.Tracks (log : List Entry) (call : ℕ) (started : ℤ) : Phase → Prop
  | .checking zabbix model => log.findSome? (Entry.race call started) = zabbix ∧
      log.findSome? (Entry.modelOf call) = model
  | .checked answer => .read call answer ∈ log
  | .stored answer => .stored call answer ∈ log

structure Holds (opts : ReadinessOptions) (state : State) : Prop where
  flying : inFlight state.log = state.flight.map (·.call)
  newest : latest state.log = state.last
  probed : ∀ entry ∈ state.log, ∀ call ∈ entry.probed, call < state.calls
  began : ∀ call < state.calls, ∃ started warm, .began call started warm ∈ state.log
  started : ∀ flight ∈ state.flight, ∃ warm, .began flight.call flight.started warm ∈ state.log
  tracks : ∀ flight ∈ state.flight, flight.phase.Tracks state.log flight.call flight.started
  answered : waits state.log = givens state.log ++ state.waiting
  waiting : ∀ waiter ∈ state.waiting, ∃ flight ∈ state.flight, waiter.call = flight.call
  allowed : ∀ seen ∈ withPast [] state.log, Allowed opts seen.1 seen.2

theorem allowed_snoc {opts : ReadinessOptions} {log : List Entry} {entry : Entry}
    (earlier : ∀ seen ∈ withPast [] log, Allowed opts seen.1 seen.2)
    (own : Allowed opts log entry) :
    ∀ seen ∈ withPast [] (log ++ [entry]), Allowed opts seen.1 seen.2 := by
  intro other member
  rw [withPast_snoc] at member
  cases List.mem_append.mp member with
  | inl before => exact earlier other before
  | inr last => exact List.mem_singleton.mp last ▸ own

theorem Phase.Tracks.snoc {phase : Phase} {log : List Entry} {call : ℕ} {started : ℤ}
    (tracks : phase.Tracks log call started) {entry : Entry}
    (race : entry.race call started = none) (model : entry.modelOf call = none) :
    phase.Tracks (log ++ [entry]) call started := by
  cases phase with
  | checking zabbix answer =>
      refine ⟨?_, ?_⟩
      · rw [List.findSome?_append, tracks.1, List.findSome?_singleton, race, Option.or_none]
      · rw [List.findSome?_append, tracks.2, List.findSome?_singleton, model, Option.or_none]
  | checked answer => exact List.mem_append_left _ tracks
  | stored answer => exact List.mem_append_left _ tracks

@[simp] theorem Flight.race_call (flight : Flight) (outcome : ZabbixState × Option ℤ) :
    (flight.race outcome).call = flight.call := by
  rw [Flight.race]
  split <;> rfl

@[simp] theorem Flight.race_started (flight : Flight) (outcome : ZabbixState × Option ℤ) :
    (flight.race outcome).started = flight.started := by
  rw [Flight.race]
  split <;> rfl

@[simp] theorem Flight.hears_call (flight : Flight) (answer : ModelState) :
    (flight.hears answer).call = flight.call := by
  rw [Flight.hears]
  split <;> rfl

@[simp] theorem Flight.hears_started (flight : Flight) (answer : ModelState) :
    (flight.hears answer).started = flight.started := by
  rw [Flight.hears]
  split <;> rfl

/-- Only the first to settle decides. -/
theorem Flight.tracks_race {flight : Flight} {log : List Entry}
    (tracks : flight.phase.Tracks log flight.call flight.started) {entry : Entry}
    {outcome : ZabbixState × Option ℤ}
    (race : entry.race flight.call flight.started = some outcome)
    (model : entry.modelOf flight.call = none) :
    (flight.race outcome).phase.Tracks (log ++ [entry]) flight.call flight.started := by
  obtain ⟨call, started, phase⟩ := flight
  cases phase with
  | checking zabbix answer =>
      have heard : (log ++ [entry]).findSome? (Entry.modelOf call) = answer := by
        rw [List.findSome?_append, tracks.2, List.findSome?_singleton, model, Option.or_none]
      have settled : (log ++ [entry]).findSome? (Entry.race call started) =
          zabbix.or (some outcome) := by
        rw [List.findSome?_append, tracks.1, List.findSome?_singleton, race]
      cases zabbix with
      | none => exact ⟨settled, heard⟩
      | some first => exact ⟨settled, heard⟩
  | checked answer => exact List.mem_append_left _ tracks
  | stored answer => exact List.mem_append_left _ tracks

theorem Flight.tracks_hears {flight : Flight} {log : List Entry}
    (tracks : flight.phase.Tracks log flight.call flight.started) {entry : Entry}
    {said : ModelState} (race : entry.race flight.call flight.started = none)
    (model : entry.modelOf flight.call = some said) :
    (flight.hears said).phase.Tracks (log ++ [entry]) flight.call flight.started := by
  obtain ⟨call, started, phase⟩ := flight
  cases phase with
  | checking zabbix answer =>
      have settled : (log ++ [entry]).findSome? (Entry.race call started) = zabbix := by
        rw [List.findSome?_append, tracks.1, List.findSome?_singleton, race, Option.or_none]
      have heard : (log ++ [entry]).findSome? (Entry.modelOf call) = answer.or (some said) := by
        rw [List.findSome?_append, tracks.2, List.findSome?_singleton, model]
      cases answer with
      | none => exact ⟨settled, heard⟩
      | some first => exact ⟨settled, heard⟩
  | checked answer => exact List.mem_append_left _ tracks
  | stored answer => exact List.mem_append_left _ tracks

/-- Entries that neither begin nor end a check, store nothing, and keep nobody waiting. -/
def Entry.Quiet : Entry → Prop
  | .zabbix .. | .rang .. | .model .. | .read .. | .served .. => True
  | _ => False

/-- The check on its way has come further. -/
theorem Holds.quiet {opts : ReadinessOptions} {state : State} (holds : Holds opts state)
    {entry : Entry} (quiet : entry.Quiet) (own : Allowed opts state.log entry)
    (known : ∀ call ∈ entry.probed, call < state.calls) (flight : Option Flight)
    (same : flight.map (fun flight => (flight.call, flight.started)) =
      state.flight.map fun flight => (flight.call, flight.started))
    (tracks : ∀ flight' ∈ flight, flight'.phase.Tracks (state.log ++ [entry]) flight'.call
      flight'.started) : Holds opts ({ state with flight }.note entry) := by
  have calls : flight.map (·.call) = state.flight.map (·.call) := by
    have first := congrArg (Option.map Prod.fst) same
    simpa [Option.map_map, Function.comp_def] using first
  have among : ∀ flight' ∈ flight, ∃ other ∈ state.flight, other.call = flight'.call ∧
      other.started = flight'.started := by
    intro flight' member
    cases flight with
    | none => cases member
    | some _ =>
        cases member
        cases before : state.flight with
        | none => rw [before] at same; cases same
        | some other =>
            rw [before] at same
            simp only [Option.map_some, Option.some.injEq, Prod.mk.injEq] at same
            exact ⟨other, rfl, same.1.symm, same.2.symm⟩
  exact {
    flying := by
      have kept : inFlight (state.log ++ [entry]) = inFlight state.log := by
        rw [inFlight_snoc]
        cases entry <;> first | rfl | exact quiet.elim
      exact kept.trans (holds.flying.trans calls.symm)
    newest := by
      have kept : latest (state.log ++ [entry]) = latest state.log := by
        rw [latest_snoc]
        cases entry <;> first | rfl | exact quiet.elim
      exact kept.trans holds.newest
    probed := by
      intro other member
      cases List.mem_append.mp member with
      | inl before => exact holds.probed other before
      | inr last => exact List.mem_singleton.mp last ▸ known
    began := fun call below =>
      have ⟨started, warm, member⟩ := holds.began call below
      ⟨started, warm, List.mem_append_left _ member⟩
    started := by
      intro flight' member
      obtain ⟨other, before, call, started⟩ := among flight' member
      obtain ⟨warm, began⟩ := holds.started other before
      rw [call, started] at began
      exact ⟨warm, List.mem_append_left _ began⟩
    tracks := tracks
    answered := by
      have kept : waits [entry] = [] ∧ givens [entry] = [] := by
        cases entry <;> first | exact ⟨rfl, rfl⟩ | exact quiet.elim
      have both := holds.answered
      rw [waits, givens] at both kept
      change waits (state.log ++ [entry]) = givens (state.log ++ [entry]) ++ state.waiting
      rw [waits, givens, List.filterMap_append, List.filterMap_append, kept.1, kept.2, both]
      simp
    waiting := by
      intro waiter member
      obtain ⟨other, before, call⟩ := holds.waiting waiter member
      have present : waiter.call ∈ state.flight.map (·.call) :=
        call ▸ Option.mem_map_of_mem _ before
      rw [← calls] at present
      obtain ⟨flight', inFlight, eq⟩ := Option.mem_map.mp present
      exact ⟨flight', inFlight, eq.symm⟩
    allowed := allowed_snoc holds.allowed own }

theorem Holds.refresh {opts : ReadinessOptions} {state : State} (holds : Holds opts state)
    {warm : Bool}
    (due : warm = false → ∀ last ∈ state.last, opts.ttlMs ≤ state.now - last.checkedAt) :
    Holds opts (refresh warm state) := by
  rw [Health.refresh]
  cases flight : state.flight with
  | some _ => exact holds
  | none =>
      have idle : inFlight state.log = none := by rw [holds.flying, flight]; rfl
      have alone : state.waiting = [] := by
        rw [List.eq_nil_iff_forall_not_mem]
        intro waiter member
        obtain ⟨other, present, -⟩ := holds.waiting waiter member
        rw [flight] at present
        cases present
      have fresh : ∀ entry ∈ state.log, state.calls ∉ entry.probed := fun entry member present =>
        (lt_irrefl _) (holds.probed entry member _ present)
      have own : Allowed opts state.log (.began state.calls state.now warm) := by
        refine ⟨idle, holds.probed, fun asked last present => ?_⟩
        rw [holds.newest] at present
        exact due asked last present
      exact {
        flying := inFlight_snoc _ _
        newest := (latest_snoc _ _).trans holds.newest
        probed := by
          intro other member call present
          cases List.mem_append.mp member with
          | inl before => exact (holds.probed other before call present).trans (Nat.lt_succ_self _)
          | inr last =>
              cases List.mem_singleton.mp last
              cases present
              exact Nat.lt_succ_self _
        began := by
          intro call below
          cases Nat.lt_succ_iff_lt_or_eq.mp below with
          | inl earlier =>
              obtain ⟨started, warm, member⟩ := holds.began call earlier
              exact ⟨started, warm, List.mem_append_left _ member⟩
          | inr last =>
              subst last
              exact ⟨state.now, warm, List.mem_append_right _ (List.mem_singleton_self _)⟩
        started := by
          intro flight present
          cases present
          exact ⟨warm, List.mem_append_right _ (List.mem_singleton_self _)⟩
        tracks := by
          intro flight present
          cases present
          have unheard : (∀ entry ∈ state.log ++ [.began state.calls state.now warm],
              entry.race state.calls state.now = none) ∧
              ∀ entry ∈ state.log ++ [.began state.calls state.now warm],
                entry.modelOf state.calls = none := by
            constructor
            all_goals
              intro entry member
              cases List.mem_append.mp member with
              | inr last => rw [List.mem_singleton.mp last]; rfl
              | inl before =>
                  have other := fresh entry before
                  cases entry <;> first | rfl | exact if_neg fun same => other (congrArg some same)
          exact ⟨List.findSome?_eq_none_iff.mpr unheard.1, List.findSome?_eq_none_iff.mpr unheard.2⟩
        answered := by
          have both := holds.answered
          rw [waits, givens] at both
          change waits (state.log ++ [.began state.calls state.now warm]) =
            givens (state.log ++ [.began state.calls state.now warm]) ++ state.waiting
          rw [waits, givens, List.filterMap_append, List.filterMap_append, both]
          simp
        waiting := by
          change ∀ waiter ∈ state.waiting, _
          rw [alone]
          exact fun waiter member => absurd member List.not_mem_nil
        allowed := allowed_snoc holds.allowed own }

theorem refresh_flight (warm : Bool) (state : State) :
    ∃ flight, (refresh warm state).flight = some flight := by
  rw [refresh]
  cases flight : state.flight with
  | some other => exact ⟨other, flight⟩
  | none => exact ⟨_, rfl⟩

theorem refresh_now (warm : Bool) (state : State) : (refresh warm state).now = state.now := by
  rw [refresh]
  cases state.flight <;> rfl

theorem refresh_last (warm : Bool) (state : State) : (refresh warm state).last = state.last := by
  rw [refresh]
  cases state.flight <;> rfl

theorem Holds.waits {opts : ReadinessOptions} {state : State} (holds : Holds opts state)
    {flight : Flight} (flying : state.flight = some flight) (caller : ℕ)
    (old : ∀ last ∈ state.last, opts.staleMs ≤ state.now - last.checkedAt) :
    Holds opts ({ state with
      waiting := state.waiting ++ [(⟨caller, state.now, flight.call⟩ : Waiter)] }.note
        (.waits ⟨caller, state.now, flight.call⟩)) := by
  have own : Allowed opts state.log (.waits ⟨caller, state.now, flight.call⟩) := by
    refine ⟨by rw [holds.flying, flying]; rfl, fun last present => ?_⟩
    rw [holds.newest] at present
    exact old last present
  exact {
    flying := (inFlight_snoc _ _).trans holds.flying
    newest := (latest_snoc _ _).trans holds.newest
    probed := by
      intro other member
      cases List.mem_append.mp member with
      | inl before => exact holds.probed other before
      | inr last =>
          cases List.mem_singleton.mp last
          exact fun _ present => absurd present (Option.not_mem_none _)
    began := fun call below =>
      have ⟨started, warm, member⟩ := holds.began call below
      ⟨started, warm, List.mem_append_left _ member⟩
    started := fun other present =>
      have ⟨warm, member⟩ := holds.started other present
      ⟨warm, List.mem_append_left _ member⟩
    tracks := fun other present => (holds.tracks other present).snoc rfl rfl
    answered := by
      have both := holds.answered
      rw [Health.waits, givens] at both
      change Health.waits (state.log ++ [_]) = givens (state.log ++ [_]) ++ (state.waiting ++ [_])
      rw [Health.waits, givens, List.filterMap_append, List.filterMap_append, both]
      simp
    waiting := by
      intro waiter member
      cases List.mem_append.mp member with
      | inl before => exact holds.waiting waiter before
      | inr last => exact ⟨flight, flying, by rw [List.mem_singleton.mp last]⟩
    allowed := allowed_snoc holds.allowed own }

theorem Holds.awaitRefresh {opts : ReadinessOptions} {state : State} (holds : Holds opts state)
    (caller : ℕ) (ordered : opts.ttlMs ≤ opts.staleMs)
    (old : ∀ last ∈ state.last, opts.staleMs ≤ state.now - last.checkedAt) :
    Holds opts (awaitRefresh caller state) := by
  have refreshed : Holds opts (Health.refresh false state) :=
    holds.refresh fun _ last present => ordered.trans (old last present)
  have still : ∀ last ∈ (Health.refresh false state).last,
      opts.staleMs ≤ (Health.refresh false state).now - last.checkedAt := by
    rw [refresh_last, refresh_now]
    exact old
  obtain ⟨flight, flying⟩ := refresh_flight false state
  rw [Health.awaitRefresh]
  generalize Health.refresh false state = next at refreshed still flying
  obtain ⟨now, calls, last, _, waiting, log⟩ := next
  cases flying
  exact refreshed.waits rfl caller still

theorem Holds.served {opts : ReadinessOptions} {state : State} (holds : Holds opts state)
    (caller : ℕ) {last : Readiness} (known : state.last = some last)
    (recent : state.now - last.checkedAt < opts.staleMs)
    (checked : state.now - last.checkedAt < opts.ttlMs ∨ state.flight ≠ none) :
    Holds opts (state.note (.served caller state.now last)) := by
  have own : Allowed opts state.log (.served caller state.now last) := by
    refine ⟨holds.newest.trans known, recent, checked.imp_right fun flying => ?_⟩
    rw [holds.flying]
    simpa using flying
  have quiet : (Entry.served caller state.now last).Quiet := trivial
  exact holds.quiet quiet own (fun _ present => absurd present (Option.not_mem_none _))
    state.flight rfl fun flight present => (holds.tracks flight present).snoc rfl rfl

theorem Holds.get {opts : ReadinessOptions} {state : State} (holds : Holds opts state)
    (ordered : opts.ttlMs ≤ opts.staleMs) (caller : ℕ) : Holds opts (get opts caller state) := by
  rw [Health.get]
  cases known : state.last with
  | none =>
      refine holds.awaitRefresh caller ordered fun last present => ?_
      rw [known] at present
      cases present
  | some last =>
      by_cases fresh : state.now - last.checkedAt < opts.ttlMs
      · simp only [if_pos fresh]
        exact holds.served caller known (fresh.trans_le ordered) (.inl fresh)
      · by_cases recent : state.now - last.checkedAt < opts.staleMs
        · simp only [if_neg fresh, if_pos recent]
          have refreshed : Holds opts (Health.refresh false state) := by
            refine holds.refresh fun _ other present => ?_
            rw [known] at present
            cases present
            exact not_lt.mp fresh
          obtain ⟨flight, flying⟩ := refresh_flight false state
          have answered := refreshed.served caller ((refresh_last false state).trans known)
            (by rw [refresh_now]; exact recent) (.inr (by rw [flying]; exact Option.some_ne_none _))
          rw [refresh_now] at answered
          exact answered
        · simp only [if_neg fresh, if_neg recent]
          refine holds.awaitRefresh caller ordered fun other present => ?_
          rw [known] at present
          cases present
          exact not_lt.mp recent

theorem reaches_calls (flight : Option Flight) (call : ℕ) {change : Flight → Flight}
    (calls : ∀ flight, (change flight).call = flight.call)
    (starts : ∀ flight, (change flight).started = flight.started) :
    (flight.map fun flight => if flight.call = call then change flight else flight).map
        (fun flight => (flight.call, flight.started)) =
      flight.map fun flight => (flight.call, flight.started) := by
  cases flight with
  | none => rfl
  | some flight =>
      by_cases own : flight.call = call
      · simp only [Option.map_some, if_pos own, calls, starts]
      · simp only [Option.map_some, if_neg own]

theorem Holds.zabbixSettles {opts : ReadinessOptions} {state : State} (holds : Holds opts state)
    (call : ℕ) (failure : Option Failure) :
    Holds opts (step opts state (.zabbixSettles call failure)) := by
  by_cases known : call < state.calls
  · rw [step, if_pos known]
    have quiet : (Entry.zabbix call state.now failure).Quiet := trivial
    refine holds.quiet quiet (holds.began call known) (fun other present => ?_) _
      (reaches_calls state.flight call (fun flight => flight.race_call _)
        fun flight => flight.race_started _) fun flight present => ?_
    · cases present
      exact known
    · obtain ⟨before, inFlight, rfl⟩ := Option.mem_map.mp present
      have tracks := holds.tracks before inFlight
      by_cases own : before.call = call
      · simp only [if_pos own, before.race_call, before.race_started]
        exact before.tracks_race tracks (if_pos own.symm) rfl
      · simp only [if_neg own]
        exact tracks.snoc (if_neg (Ne.symm own)) rfl
  · rw [step, if_neg known]
    exact holds

theorem Holds.modelSettles {opts : ReadinessOptions} {state : State} (holds : Holds opts state)
    (call : ℕ) (answer : Option ModelState) :
    Holds opts (step opts state (.modelSettles call answer)) := by
  by_cases known : call < state.calls
  · rw [step, if_pos known]
    have quiet : (Entry.model call answer).Quiet := trivial
    refine holds.quiet quiet (holds.began call known) (fun other present => ?_) _
      (reaches_calls state.flight call (fun flight => flight.hears_call _)
        fun flight => flight.hears_started _) fun flight present => ?_
    · cases present
      exact known
    · obtain ⟨before, inFlight, rfl⟩ := Option.mem_map.mp present
      have tracks := holds.tracks before inFlight
      by_cases own : before.call = call
      · simp only [if_pos own, before.hears_call, before.hears_started]
        exact before.tracks_hears tracks rfl (if_pos own.symm)
      · simp only [if_neg own]
        exact tracks.snoc rfl (if_neg (Ne.symm own))
  · rw [step, if_neg known]
    exact holds

theorem Holds.limitRings {opts : ReadinessOptions} {state : State} (holds : Holds opts state) :
    Holds opts (step opts state .limitRings) := by
  rw [step]
  split
  · next call started zabbix model flying =>
      by_cases due : started + opts.timeoutMs ≤ state.now
      · rw [if_pos due]
        obtain ⟨warm, began⟩ := holds.started _ flying
        have quiet : (Entry.rang call state.now).Quiet := trivial
        refine holds.quiet quiet ⟨started, warm, began, due⟩ (fun other present => ?_) _ ?_ ?_
        · cases present
          exact holds.probed _ began call rfl
        · rw [flying, Option.map_some, Flight.race_call, Flight.race_started]
          rfl
        · intro flight present
          cases present
          rw [Flight.race_call, Flight.race_started]
          exact Flight.tracks_race (holds.tracks _ flying) (if_pos rfl) rfl
      · rw [if_neg due]
        exact holds
  · exact holds

theorem Holds.resolves {opts : ReadinessOptions} {state : State} (holds : Holds opts state) :
    Holds opts (step opts state .resolves) := by
  rw [step]
  split
  · next call started zabbix ms model flying =>
      obtain ⟨warm, began⟩ := holds.started _ flying
      obtain ⟨race, heard⟩ := holds.tracks _ flying
      have quiet : (Entry.read call ⟨zabbix = .ok, zabbix, ms, model, state.now⟩).Quiet := trivial
      have own : Allowed opts state.log
          (.read call ⟨zabbix = .ok, zabbix, ms, model, state.now⟩) := by
        refine ⟨by rw [holds.flying, flying]; rfl, ?_⟩
        exact {
          ok := decide_eq_true_iff
          zabbix := ⟨started, warm, began, race⟩
          model := heard }
      refine holds.quiet quiet own (fun other present => ?_) _ ?_ ?_
      · cases present
        exact holds.probed _ began call rfl
      · rw [flying]
        rfl
      · intro flight present
        cases present
        exact List.mem_append_right _ (List.mem_singleton_self _)
  · exact holds

theorem Holds.stores {opts : ReadinessOptions} {state : State} (holds : Holds opts state) :
    Holds opts (step opts state .stores) := by
  rw [step]
  split
  · next call started answer flying =>
      have read : .read call answer ∈ state.log := holds.tracks _ flying
      have own : Allowed opts state.log (.stored call answer) :=
        ⟨by rw [holds.flying, flying]; rfl, read⟩
      exact {
        flying := by
          rw [State.note, inFlight_snoc, holds.flying, flying]
          rfl
        newest := latest_snoc _ _
        probed := by
          intro other member
          cases List.mem_append.mp member with
          | inl before => exact holds.probed other before
          | inr last =>
              cases List.mem_singleton.mp last
              exact fun _ present => absurd present (Option.not_mem_none _)
        began := fun call below =>
          have ⟨started, warm, member⟩ := holds.began call below
          ⟨started, warm, List.mem_append_left _ member⟩
        started := by
          intro flight present
          cases present
          obtain ⟨warm, began⟩ := holds.started _ flying
          exact ⟨warm, List.mem_append_left _ began⟩
        tracks := by
          intro flight present
          cases present
          exact List.mem_append_right _ (List.mem_singleton_self _)
        answered := by
          have both := holds.answered
          rw [Health.waits, givens] at both
          change Health.waits (state.log ++ [_]) = givens (state.log ++ [_]) ++ state.waiting
          rw [Health.waits, givens, List.filterMap_append, List.filterMap_append, both]
          simp
        waiting := by
          intro waiter member
          obtain ⟨flight, present, same⟩ := holds.waiting waiter member
          rw [flying] at present
          cases present
          exact ⟨_, rfl, same⟩
        allowed := allowed_snoc holds.allowed own }
  · exact holds

theorem allowed_append {opts : ReadinessOptions} {log : List Entry}
    (earlier : ∀ seen ∈ withPast [] log, Allowed opts seen.1 seen.2) (more : List Entry)
    (own : ∀ before entry after, more = before ++ entry :: after →
      Allowed opts (log ++ before) entry) :
    ∀ seen ∈ withPast [] (log ++ more), Allowed opts seen.1 seen.2 := by
  induction more using List.reverseRecOn with
  | nil =>
      rw [List.append_nil]
      exact earlier
  | append_singleton more entry ih =>
      rw [← List.append_assoc]
      refine allowed_snoc (ih fun before other after split => ?_) (own more entry [] rfl)
      exact own before other (after ++ [entry]) (by rw [split]; simp)

/-- Answers given change nothing else. -/
theorem given_kept {log more : List Entry}
    (given : ∀ entry ∈ more, ∃ waiter now answer, entry = .given waiter now answer) :
    inFlight (log ++ more) = inFlight log ∧ latest (log ++ more) = latest log := by
  induction more using List.reverseRecOn with
  | nil => rw [List.append_nil]; exact ⟨rfl, rfl⟩
  | append_singleton more entry ih =>
      obtain ⟨flying, newest⟩ := ih fun other member => given other (List.mem_append_left _ member)
      obtain ⟨waiter, now, answer, rfl⟩ :=
        given entry (List.mem_append_right _ (List.mem_singleton_self _))
      rw [← List.append_assoc, inFlight_snoc, latest_snoc]
      exact ⟨flying, newest⟩

theorem Holds.lands {opts : ReadinessOptions} {state : State} (holds : Holds opts state) :
    Holds opts (step opts state .lands) := by
  rw [step]
  split
  · next call started answer flying =>
      have stored : .stored call answer ∈ state.log := holds.tracks _ flying
      have given : ∀ entry ∈ state.waiting.map fun waiter => Entry.given waiter state.now answer,
          ∃ waiter now answer, entry = .given waiter now answer := by
        intro entry member
        obtain ⟨waiter, -, rfl⟩ := List.mem_map.mp member
        exact ⟨waiter, _, _, rfl⟩
      have longer : ∀ rest : List Entry,
          state.log ++ .landed call :: rest = state.log ++ [.landed call] ++ rest := fun rest => by
        rw [List.append_assoc, List.singleton_append]
      obtain ⟨flown, newest⟩ := @given_kept (state.log ++ [.landed call]) _ given
      have landed : Allowed opts state.log (.landed call) :=
        ⟨by rw [holds.flying, flying]; rfl, answer, stored⟩
      have inLog : ∀ waiter ∈ state.waiting,
          .waits waiter ∈ state.log ∧ waiter.call = call := by
        intro waiter member
        obtain ⟨flight, present, same⟩ := holds.waiting waiter member
        rw [flying] at present
        cases present
        refine ⟨mem_waits.mp ?_, same⟩
        rw [holds.answered]
        exact List.mem_append_right _ member
      exact {
        flying := by
          change inFlight (state.log ++ _) = none
          rw [longer, flown, inFlight_snoc]
        newest := by
          change latest (state.log ++ _) = state.last
          rw [longer, newest, latest_snoc]
          exact holds.newest
        probed := by
          intro other member
          cases List.mem_append.mp member with
          | inl before => exact holds.probed other before
          | inr last =>
              cases List.mem_cons.mp last with
              | inl first =>
                  subst other
                  exact fun _ present => absurd present (Option.not_mem_none _)
              | inr later =>
                  obtain ⟨waiter, now, told, rfl⟩ := given other later
                  exact fun _ present => absurd present (Option.not_mem_none _)
        began := fun call below =>
          have ⟨started, warm, member⟩ := holds.began call below
          ⟨started, warm, List.mem_append_left _ member⟩
        started := fun _ present => absurd present (Option.not_mem_none _)
        tracks := fun _ present => absurd present (Option.not_mem_none _)
        answered := by
          have both := holds.answered
          rw [Health.waits, givens] at both
          change Health.waits (state.log ++ _) = givens (state.log ++ _) ++ []
          rw [Health.waits, givens, List.filterMap_append, List.filterMap_append, both,
            List.filterMap_cons, List.filterMap_cons, List.filterMap_map, List.filterMap_map]
          simp
        waiting := fun waiter member => absurd member List.not_mem_nil
        allowed := by
          refine allowed_append holds.allowed _ fun before entry after split => ?_
          cases before with
          | nil =>
              cases split
              rw [List.append_nil]
              exact landed
          | cons first before =>
              have member : entry ∈ state.waiting.map fun waiter =>
                  Entry.given waiter state.now answer := by
                rw [List.cons_append, List.cons.injEq] at split
                rw [split.2]
                exact List.mem_append_right _ List.mem_cons_self
              obtain ⟨waiter, waited, rfl⟩ := List.mem_map.mp member
              obtain ⟨asked, same⟩ := inLog waiter waited
              exact ⟨List.mem_append_left _ asked, List.mem_append_left _ (same ▸ stored)⟩ }
  · exact holds

theorem Holds.passes {opts : ReadinessOptions} {state : State} (holds : Holds opts state) (ms : ℕ) :
    Holds opts (step opts state (.passes ms)) :=
  ⟨holds.flying, holds.newest, holds.probed, holds.began, holds.started, holds.tracks,
    holds.answered, holds.waiting, holds.allowed⟩

/-- Whatever happens next, what is seen of it is allowed. -/
theorem Holds.step {opts : ReadinessOptions} {state : State} (ordered : opts.ttlMs ≤ opts.staleMs)
    (holds : Holds opts state) (event : Event) : Holds opts (step opts state event) := by
  cases event with
  | passes ms => exact holds.passes ms
  | warms => exact holds.refresh fun asked => Bool.noConfusion asked
  | asks caller => exact holds.get ordered caller
  | zabbixSettles call failure => exact holds.zabbixSettles call failure
  | limitRings => exact holds.limitRings
  | modelSettles call answer => exact holds.modelSettles call answer
  | resolves => exact holds.resolves
  | stores => exact holds.stores
  | lands => exact holds.lands

theorem Holds.start (opts : ReadinessOptions) (now : ℤ) : Holds opts (.start now) where
  flying := rfl
  newest := rfl
  probed := fun _ member => absurd member List.not_mem_nil
  began := fun call below => absurd below (Nat.not_lt_zero call)
  started := fun _ present => absurd present (Option.not_mem_none _)
  tracks := fun _ present => absurd present (Option.not_mem_none _)
  answered := rfl
  waiting := fun _ member => absurd member List.not_mem_nil
  allowed := fun _ member => absurd member List.not_mem_nil

theorem holds_run {opts : ReadinessOptions} (ordered : opts.ttlMs ≤ opts.staleMs) (now : ℤ)
    (events : List Event) : Holds opts (run opts now events) := by
  induction events using List.reverseRecOn with
  | nil => exact .start opts now
  | append_singleton events event ih =>
      rw [run, List.foldl_append]
      exact ih.step ordered event

/-! ### How often Zabbix is asked -/

def Entry.isAsked : Entry → Bool
  | .began _ _ warm => !warm
  | _ => false

def asked (log : List Entry) : ℕ := log.countP Entry.isAsked

def ReadAfter (last : Option Readiness) (moment : ℤ) : Option Phase → Prop
  | none => ∃ answer, last = some answer ∧ moment ≤ answer.checkedAt
  | some (.checking _ _) => True
  | some (.checked answer) => moment ≤ answer.checkedAt
  | some (.stored answer) => last = some answer ∧ moment ≤ answer.checkedAt

def State.Beyond (state : State) (moment : ℤ) : Prop :=
  ReadAfter state.last moment (state.flight.map (·.phase))

/-- After the last check began, a span has gone by for every other one. -/
structure Paced (opts : ReadinessOptions) (start : ℤ) (state : State) : Prop where
  forward : start ≤ state.now
  spaced : asked state.log ≠ 0 → ∃ moment,
    opts.ttlMs * ((asked state.log : ℤ) - 1) ≤ moment - start ∧ moment ≤ state.now ∧
      state.Beyond moment

theorem asked_snoc (log : List Entry) (entry : Entry) :
    asked (log ++ [entry]) = asked log + if entry.isAsked then 1 else 0 := by
  rw [asked, List.countP_append, List.countP_singleton]
  rfl

theorem Paced.same {opts : ReadinessOptions} {start : ℤ} {state next : State}
    (paced : Paced opts start state) (now : state.now ≤ next.now)
    (count : asked next.log = asked state.log)
    (beyond : ∀ moment, moment ≤ state.now → state.Beyond moment → next.Beyond moment) :
    Paced opts start next := by
  refine ⟨paced.forward.trans now, fun positive => ?_⟩
  rw [count] at positive ⊢
  obtain ⟨moment, spaced, past, later⟩ := paced.spaced positive
  exact ⟨moment, spaced, past.trans now, beyond moment past later⟩

theorem Paced.refresh {opts : ReadinessOptions} {start : ℤ} {state : State} {warm : Bool}
    (paced : Paced opts start state)
    (due : warm = false → ∀ last ∈ state.last, opts.ttlMs ≤ state.now - last.checkedAt) :
    Paced opts start (refresh warm state) := by
  obtain ⟨now, calls, last, flight, waiting, log⟩ := state
  cases flight with
  | some flight => exact paced
  | none =>
      have count : asked (log ++ [.began calls now warm]) = asked log + if warm then 0 else 1 := by
        rw [asked_snoc]
        cases warm <;> rfl
      refine ⟨paced.forward, fun counted => ?_⟩
      change asked (log ++ [.began calls now warm]) ≠ 0 at counted
      change ∃ moment, opts.ttlMs * ((asked (log ++ [.began calls now warm]) : ℤ) - 1) ≤
        moment - start ∧ moment ≤ now ∧ True
      have forward : start ≤ now := paced.forward
      rw [count] at counted ⊢
      by_cases first : asked log = 0
      · cases warm with
        | true => exact absurd first counted
        | false =>
            refine ⟨now, ?_, le_rfl, trivial⟩
            rw [first]
            simp only [Bool.false_eq_true, if_false, Nat.zero_add, Nat.cast_one, sub_self, mul_zero]
            linarith
      · obtain ⟨moment, spaced, past, answer, known, later⟩ := paced.spaced first
        cases warm with
        | true => exact ⟨moment, spaced, past, trivial⟩
        | false =>
            have gone : opts.ttlMs ≤ now - answer.checkedAt := due rfl answer known
            have grown : opts.ttlMs * (((asked log + 1 : ℕ) : ℤ) - 1) =
                opts.ttlMs * ((asked log : ℤ) - 1) + opts.ttlMs := by
              push_cast
              ring
            refine ⟨now, ?_, le_rfl, trivial⟩
            simp only [Bool.false_eq_true, if_false]
            rw [grown]
            linarith

theorem Paced.awaitRefresh {opts : ReadinessOptions} {start : ℤ} {state : State}
    (paced : Paced opts start state) (caller : ℕ)
    (due : ∀ last ∈ state.last, opts.ttlMs ≤ state.now - last.checkedAt) :
    Paced opts start (awaitRefresh caller state) := by
  have refreshed : Paced opts start (Health.refresh false state) := paced.refresh fun _ => due
  rw [Health.awaitRefresh]
  generalize Health.refresh false state = next at refreshed
  obtain ⟨now, calls, last, flight, waiting, log⟩ := next
  cases flight with
  | none => exact refreshed
  | some flight => exact refreshed.same le_rfl (asked_snoc _ _) fun _ _ beyond => beyond

theorem Paced.get {opts : ReadinessOptions} {start : ℤ} {state : State}
    (paced : Paced opts start state) (ordered : opts.ttlMs ≤ opts.staleMs) (caller : ℕ) :
    Paced opts start (get opts caller state) := by
  rw [Health.get]
  cases known : state.last with
  | none =>
      exact paced.awaitRefresh caller fun last present => by rw [known] at present; cases present
  | some last =>
      have late : ¬ state.now - last.checkedAt < opts.ttlMs →
          ∀ other ∈ state.last, opts.ttlMs ≤ state.now - other.checkedAt := by
        intro old other present
        rw [known] at present
        cases present
        exact not_lt.mp old
      by_cases fresh : state.now - last.checkedAt < opts.ttlMs
      · simp only [if_pos fresh]
        exact paced.same le_rfl (asked_snoc _ _) fun _ _ beyond => beyond
      · by_cases recent : state.now - last.checkedAt < opts.staleMs
        · simp only [if_neg fresh, if_pos recent]
          exact (paced.refresh fun _ => late fresh).same le_rfl (asked_snoc _ _)
            fun _ _ beyond => beyond
        · simp only [if_neg fresh, if_neg recent]
          exact paced.awaitRefresh caller (late fresh)

theorem readAfter_change {last : Option Readiness} {moment : ℤ} {flight : Flight}
    {change : Flight → Flight}
    (stays : ∀ answer, flight.phase = .checked answer ∨ flight.phase = .stored answer →
      change flight = flight)
    (checks : ∀ zabbix model, flight.phase = .checking zabbix model →
      ∃ zabbix model, (change flight).phase = .checking zabbix model)
    (after : ReadAfter last moment (some flight.phase)) :
    ReadAfter last moment (some (change flight).phase) := by
  cases phase : flight.phase with
  | checking zabbix model =>
      obtain ⟨zabbix, model, still⟩ := checks zabbix model phase
      rw [still]
      trivial
  | checked answer => rwa [stays answer (.inl phase)]
  | stored answer => rwa [stays answer (.inr phase)]

theorem Flight.race_stays (flight : Flight) (outcome : ZabbixState × Option ℤ) :
    (∀ answer, flight.phase = .checked answer ∨ flight.phase = .stored answer →
      flight.race outcome = flight) ∧
    ∀ zabbix model, flight.phase = .checking zabbix model →
      ∃ zabbix model, (flight.race outcome).phase = .checking zabbix model := by
  obtain ⟨call, started, phase⟩ := flight
  cases phase with
  | checking zabbix model => cases zabbix <;> simp [Flight.race]
  | checked answer => simp [Flight.race]
  | stored answer => simp [Flight.race]

theorem Flight.hears_stays (flight : Flight) (said : ModelState) :
    (∀ answer, flight.phase = .checked answer ∨ flight.phase = .stored answer →
      flight.hears said = flight) ∧
    ∀ zabbix model, flight.phase = .checking zabbix model →
      ∃ zabbix model, (flight.hears said).phase = .checking zabbix model := by
  obtain ⟨call, started, phase⟩ := flight
  cases phase with
  | checking zabbix model => cases model <;> simp [Flight.hears]
  | checked answer => simp [Flight.hears]
  | stored answer => simp [Flight.hears]

theorem readAfter_reaches {last : Option Readiness} {moment : ℤ} {flight : Option Flight} {call : ℕ}
    {change : Flight → Flight}
    (stays : ∀ flight : Flight, (∀ answer, flight.phase = .checked answer ∨
      flight.phase = .stored answer → change flight = flight) ∧
        ∀ zabbix model, flight.phase = .checking zabbix model →
          ∃ zabbix model, (change flight).phase = .checking zabbix model)
    (after : ReadAfter last moment (flight.map (·.phase))) :
    ReadAfter last moment ((flight.map fun flight =>
      if flight.call = call then change flight else flight).map (·.phase)) := by
  cases flight with
  | none => exact after
  | some flight =>
      by_cases own : flight.call = call
      · simp only [Option.map_some, if_pos own]
        exact readAfter_change (stays flight).1 (stays flight).2 after
      · simp only [Option.map_some, if_neg own]
        exact after

theorem Paced.step {opts : ReadinessOptions} {start : ℤ} {state : State}
    (ordered : opts.ttlMs ≤ opts.staleMs) (paced : Paced opts start state) (event : Event) :
    Paced opts start (step opts state event) := by
  cases event with
  | passes ms =>
      exact paced.same (by simp [Health.step]) rfl fun _ _ beyond => beyond
  | warms => exact paced.refresh fun asked => Bool.noConfusion asked
  | asks caller => exact paced.get ordered caller
  | zabbixSettles call failure =>
      by_cases known : call < state.calls
      · rw [Health.step, if_pos known]
        exact paced.same le_rfl (asked_snoc _ _) fun _ _ beyond =>
          readAfter_reaches (fun flight => flight.race_stays _) beyond
      · rw [Health.step, if_neg known]
        exact paced
  | modelSettles call answer =>
      by_cases known : call < state.calls
      · rw [Health.step, if_pos known]
        exact paced.same le_rfl (asked_snoc _ _) fun _ _ beyond =>
          readAfter_reaches (fun flight => flight.hears_stays _) beyond
      · rw [Health.step, if_neg known]
        exact paced
  | limitRings =>
      rw [Health.step]
      split
      · next call started zabbix model flying =>
          by_cases due : started + opts.timeoutMs ≤ state.now
          · rw [if_pos due]
            refine paced.same le_rfl (asked_snoc _ _) fun _ _ _ => ?_
            cases zabbix <;> trivial
          · rw [if_neg due]
            exact paced
      · exact paced
  | resolves =>
      rw [Health.step]
      split
      · exact paced.same le_rfl (asked_snoc _ _) fun _ past _ => past
      · exact paced
  | stores =>
      rw [Health.step]
      split
      · next call started answer flying =>
          refine paced.same le_rfl (asked_snoc _ _) fun moment _ beyond => ⟨rfl, ?_⟩
          rw [State.Beyond, flying] at beyond
          exact beyond
      · exact paced
  | lands =>
      rw [Health.step]
      split
      · next call started answer flying =>
          refine paced.same le_rfl ?_ fun moment _ beyond => ?_
          · change asked (state.log ++ _) = asked state.log
            rw [asked, List.countP_append, List.countP_cons, List.countP_map]
            simp [Entry.isAsked, Function.comp_def, asked]
          · rw [State.Beyond, flying] at beyond
            exact ⟨answer, beyond.1, beyond.2⟩
      · exact paced

def Entry.asker : Entry → Option ℕ
  | .served caller _ _ => some caller
  | .waits waiter => some waiter.caller
  | _ => none

def Event.asker : Event → Option ℕ
  | .asks caller => some caller
  | _ => none

theorem run_snoc (opts : ReadinessOptions) (start : ℤ) (events : List Event) (event : Event) :
    run opts start (events ++ [event]) = step opts (run opts start events) event := by
  rw [run, List.foldl_append]
  rfl

structure Kept (opts : ReadinessOptions) (start : ℤ) (events : List Event) (state : State) :
    Prop where
  allowed : ∀ seen ∈ withPast [] state.log, Allowed opts seen.1 seen.2
  /-- Everyone who asks is served at once or waits, in the order they ask. -/
  heard : state.log.filterMap Entry.asker = events.filterMap Event.asker
  /-- While no check is on its way, every caller that waited has been given an answer, in turn. -/
  answered : inFlight state.log = none → waits state.log = givens state.log
  /-- And at any time those who still wait are the last that asked. -/
  inTurn : givens state.log <+: waits state.log
  /-- However often it is polled, Zabbix is asked once in a span. -/
  few : asked state.log ≠ 0 → opts.ttlMs * ((asked state.log : ℤ) - 1) ≤ state.now - start

/-- What the promises of a check run; with nothing left to run they do nothing. -/
def callbacks : List Event := [.resolves, .stores, .lands]

/-- Two callers wait for the first check, whose call never comes back in time; a third is served. -/
def stuckZabbix : List Event :=
  [.asks 1, .modelSettles 0 (some .off)] ++ callbacks ++ [.passes 1500, .asks 2] ++ callbacks ++
    [.passes 500, .limitRings] ++ callbacks ++ [.zabbixSettles 0 none] ++ callbacks ++
    [.passes 20000, .asks 3]

end ZabbixPortal.Http.Health
