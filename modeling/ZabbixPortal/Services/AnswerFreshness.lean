import ZabbixPortal.Foundation.Runs
import ZabbixPortal.Services.CachedReadsProperties
import Mathlib.Data.List.Induction

/-! How old an answer of `cached` may be: the hold of a write is looked at when a call
begins, not when its fetch has failed. -/

set_option autoImplicit false

namespace ZabbixPortal.Services

open Foundation Core

variable {α : Type}

/-- What an answer may be: the result of the fetch the call waited for, a stored value
young enough when the call began, or, after that fetch failed and outside any hold that is
in force now, the last stored value. -/
def Answer.Fresh (answer : Answer α) : Prop :=
  let call := answer.call
  (∃ settlement, answer.awaited = some settlement ∧ call.begunAt ≤ settlement.step ∧
    settlement.result = some answer.value) ∨
  (∃ entry, call.hit = some entry ∧ entry.v = answer.value ∧
    call.now - entry.t < call.request.ttlMs ∧
    (call.held = true → call.now - entry.t < HOLD_TTL_MS)) ∨
  (∃ entry, call.hit = some entry ∧ entry.v = answer.value ∧
    call.now - entry.t < call.request.ttlMs + max 0 (call.request.options.staleMs.getD 0) ∧
    call.held = false) ∨
  (∃ settlement entry, answer.awaited = some settlement ∧ settlement.result = none ∧
    call.request.options.staleIfError = true ∧ answer.held = false ∧
    answer.stored = some entry ∧ entry.v = answer.value)

/-- The step is not that of a caller whose fetch failed inside a hold that began after its
call, with a stored value it may fall back on. -/
def FailsOutsideNewHolds (system : CacheSystem α) (turn : ℤ × CacheAction α) : Prop :=
  ∀ number waiting settlement, turn.2 = .resume number →
    (system.waiting.find? fun waiting => waiting.call.begunAt = number) = some waiting →
    (system.flights.get? waiting.flight).bind (·.settled) = some settlement →
    settlement.result = none →
    system.cache.isHeld waiting.call.request.key turn.1 = true →
    waiting.call.held = true ∨ waiting.call.request.options.staleIfError = false ∨
      system.cache.store.get? waiting.call.request.key = none

section Answers

variable {call : Call α} {answer : Answer α}

def Missed (call : Call α) : Prop :=
  ∀ entry, call.hit = some entry →
    ¬ (call.now - entry.t < call.request.ttlMs ∧
      (call.held = true → call.now - entry.t < HOLD_TTL_MS)) ∧
    ¬ (call.held = false ∧
      call.now - entry.t < call.request.ttlMs + max 0 (call.request.options.staleMs.getD 0))

theorem fresh_of_awaited {settlement : Settlement α} (awaited : answer.awaited = some settlement)
    (during : answer.call.begunAt ≤ settlement.step)
    (result : settlement.result = some answer.value) : answer.Fresh :=
  .inl ⟨settlement, awaited, during, result⟩

/-- A fallback answer is fresh exactly when no hold is in force at the moment it is given:
nothing else can make it so, since its call found nothing young enough. -/
theorem fresh_of_fallback_iff {settlement : Settlement α} {last : Entry (Fetched α)}
    (missed : Missed answer.call) (awaited : answer.awaited = some settlement)
    (failed : settlement.result = none)
    (allowed : answer.call.request.options.staleIfError = true)
    (stored : answer.stored = some last) (value : last.v = answer.value) :
    answer.Fresh ↔ answer.held = false := by
  constructor
  · intro fresh
    rcases fresh with ⟨other, isAwaited, _, result⟩ | ⟨entry, hit, _, young, short⟩ |
      ⟨entry, hit, _, young, free⟩ | ⟨_, _, _, _, _, free, _⟩
    · rw [awaited] at isAwaited
      obtain rfl := Option.some.inj isAwaited
      rw [failed] at result
      cases result
    · exact absurd ⟨young, short⟩ (missed entry hit).1
    · exact absurd ⟨free, young⟩ (missed entry hit).2
    · exact free
  · intro free
    exact .inr (.inr (.inr ⟨settlement, last, awaited, failed, allowed, free, stored, value⟩))

end Answers

structure Waits (system : CacheSystem α) : Prop where
  /-- A registered fetch is running, under its own key. -/
  registered : ∀ key number, system.cache.inflight.get? key = some number →
    ∃ flight, system.flights.get? number = some flight ∧ flight.key = key ∧ flight.settled = none
  missed : ∀ waiting ∈ system.waiting, Missed waiting.call
  during : ∀ waiting ∈ system.waiting, ∀ settlement,
    (system.flights.get? waiting.flight).bind (·.settled) = some settlement →
    waiting.call.begunAt ≤ settlement.step

section Steps

variable {system : CacheSystem α} {now : ℤ}

theorem Waits.idle : Waits (CacheSystem.idle : CacheSystem α) where
  registered _ _ found := nomatch found
  missed _ member := nomatch member
  during _ member := nomatch member

/-- Another cache with the same registrations. -/
theorem Waits.ofCache (waits : Waits system) {cache : Cache (Fetched α)}
    (inflight : cache.inflight = system.cache.inflight) :
    Waits { system with cache := cache } where
  registered := by
    dsimp only
    rw [inflight]
    exact waits.registered
  missed := waits.missed
  during := waits.during

theorem Waits.begin (waits : Waits system) {key : String} (pin : Bool)
    (unused : ∀ number flight, system.flights.get? number = some flight →
      number < system.steps) : Waits (system.begin key pin) where
  registered other number found := by
    simp only [CacheSystem.begin, OrderedMap.get?_set] at found ⊢
    split at found
    · next same =>
        obtain rfl := Option.some.inj found
        exact ⟨_, if_pos rfl, same.symm, rfl⟩
    · obtain ⟨flight, inFlights, isKey, running⟩ := waits.registered other number found
      have earlier := unused number flight inFlights
      exact ⟨flight, (if_neg (Nat.ne_of_lt earlier)).trans inFlights, isKey, running⟩
  missed := waits.missed
  during waiting member settlement isSettled := by
    simp only [CacheSystem.begin, OrderedMap.get?_set] at isSettled
    split at isSettled
    · cases isSettled
    · exact waits.during waiting member settlement isSettled

/-- Answering leaves the fetches running or settled as they were. -/
theorem Waits.answer (waits : Waits system) (answer : Answer α) :
    Waits (system.answer answer) where
  registered key number found := by
    obtain ⟨flight, inFlights, isKey, running⟩ := waits.registered key number found
    obtain ⟨noted, after, sameKey, sameSettled⟩ := noteRead_of_get? inFlights
    exact ⟨noted, after, sameKey.trans isKey, sameSettled.trans running⟩
  missed := waits.missed
  during waiting member settlement isSettled := by
    obtain ⟨flight, found, settled⟩ := Option.bind_eq_some_iff.mp isSettled
    obtain ⟨old, before, _, _, same, _⟩ := noteRead_get? found
    exact waits.during waiting member settlement
      (Option.bind_eq_some_iff.mpr ⟨old, before, same ▸ settled⟩)

theorem Waits.refreshBehind (waits : Waits system) {request : Request}
    {entry : Entry (Fetched α)}
    (unused : ∀ number flight, system.flights.get? number = some flight →
      number < system.steps) : Waits (system.refreshBehind request entry) := by
  unfold CacheSystem.refreshBehind
  dsimp only
  split
  · refine Waits.begin ?_ _ unused
    exact waits.ofCache Cache.remember_inflight
  · exact waits.ofCache Cache.remember_inflight

theorem Waits.await (waits : Waits system) {call : Call α} (missed : Missed call)
    (unused : ∀ number flight, system.flights.get? number = some flight →
      number < system.steps) : Waits (system.await call) := by
  unfold CacheSystem.await
  cases own : system.cache.inflight.get? call.request.key with
  | some number =>
      refine { waits with missed := ?_, during := ?_ }
      · intro waiting member
        cases List.mem_append.mp member with
        | inl before => exact waits.missed waiting before
        | inr added => exact List.mem_singleton.mp added ▸ missed
      · intro waiting member settlement isSettled
        cases List.mem_append.mp member with
        | inl before => exact waits.during waiting before settlement isSettled
        | inr added =>
            obtain rfl := List.mem_singleton.mp added
            obtain ⟨flight, inFlights, _, running⟩ := waits.registered _ number own
            simp [inFlights, running] at isSettled
  | none =>
      have begun : Waits (system.begin call.request.key call.request.options.pin) :=
        waits.begin _ unused
      refine { begun with missed := ?_, during := ?_ }
      · intro waiting member
        cases List.mem_append.mp member with
        | inl before => exact waits.missed waiting before
        | inr added => exact List.mem_singleton.mp added ▸ missed
      · intro waiting member settlement isSettled
        cases List.mem_append.mp member with
        | inl before => exact begun.during waiting before settlement isSettled
        | inr added =>
            obtain rfl := List.mem_singleton.mp added
            simp [CacheSystem.begin] at isSettled

theorem Waits.settle (approxBytes : α → Nat) (waits : Waits system) (number : Nat)
    (outcome : Option α) (earlier : ∀ waiting ∈ system.waiting,
      waiting.call.begunAt ≤ system.steps) :
    Waits (system.settle approxBytes now number outcome) := by
  unfold CacheSystem.settle
  cases found : system.flights.get? number with
  | none => exact waits
  | some flight =>
      dsimp only
      split
      · exact waits
      · refine ⟨fun key other registered => ?_, waits.missed, ?_⟩
        · obtain ⟨before, notOwn⟩ := deregister_get?.mp registered
          rw [keepResult_inflight] at before
          obtain ⟨running, inFlights, isKey, unsettled⟩ := waits.registered key other before
          have different : other ≠ number := by
            intro same
            rw [same, found] at inFlights
            obtain rfl := Option.some.inj inFlights
            exact notOwn isKey.symm same
          exact ⟨running, by rw [OrderedMap.get?_set, if_neg different, inFlights], isKey,
            unsettled⟩
        · intro waiting member settlement isSettled
          rw [OrderedMap.get?_set] at isSettled
          split at isSettled
          · obtain rfl := Option.some.inj isSettled
            exact earlier waiting member
          · exact waits.during waiting member settlement isSettled

theorem Waits.invalidate (waits : Waits system) (start : String) (holdMs : Option ℤ) :
    Waits (system.invalidate now start holdMs) where
  registered key number found := by
    have before := (Cache.invalidate_inflight_get?.mp found).2
    obtain ⟨flight, inFlights, isKey, running⟩ := waits.registered key number before
    simp only [CacheSystem.invalidate]
    rw [OrderedMap.get?_mapValues, inFlights]
    refine ⟨_, rfl, ?_⟩
    split <;> exact ⟨isKey, running⟩
  missed := waits.missed
  during waiting member settlement isSettled := by
    refine waits.during waiting member settlement ?_
    simp only [CacheSystem.invalidate] at isSettled
    rw [OrderedMap.get?_mapValues] at isSettled
    obtain ⟨flight, changed, settled⟩ := Option.bind_eq_some_iff.mp isSettled
    obtain ⟨old, before, rfl⟩ := Option.map_eq_some_iff.mp changed
    refine Option.bind_eq_some_iff.mpr ⟨old, before, ?_⟩
    split at settled <;> exact settled

theorem Waits.resume (waits : Waits system) (number : Nat) :
    Waits (system.resume now number) := by
  have left : Waits
      { system with
        waiting := system.waiting.filter fun other => other.call.begunAt ≠ number } :=
    { waits with
      missed := fun waiting member => waits.missed waiting (List.mem_filter.mp member).1
      during := fun waiting member => waits.during waiting (List.mem_filter.mp member).1 }
  unfold CacheSystem.resume
  cases system.waiting.find? fun waiting => waiting.call.begunAt = number with
  | none => exact waits
  | some waiting =>
      dsimp only
      cases (system.flights.get? waiting.flight).bind (·.settled) with
      | none => exact waits
      | some settlement =>
          dsimp only
          cases settlement.result with
          | some value => exact left.answer _
          | none =>
              dsimp only
              split
              · exact { left with }
              · exact (left.ofCache Cache.remember_inflight).answer _

theorem Waits.call (waits : Waits system) (request : Request) (parent : Option Nat)
    (unused : ∀ number flight, system.flights.get? number = some flight →
      number < system.steps) : Waits (system.call now request parent) := by
  have opened : Waits { system with cache := system.cache.dropEnded now } := waits.ofCache rfl
  unfold CacheSystem.call
  dsimp only
  split
  · exact (opened.ofCache Cache.remember_inflight).answer _
  · exact (opened.refreshBehind unused).answer _
  · next missing =>
      refine opened.await (fun entry found => ?_) unused
      have old := Cache.lookup_missing missing found
      exact ⟨fun young => old.1 (Cache.lt_ttlOf.mpr young), old.2⟩

theorem Waits.invalidateAll (waits : Waits system) (starts : List String) :
    Waits (system.invalidateAll now starts) :=
  List.foldlRecOn starts _ waits fun _ kept start _ => kept.invalidate start _

theorem Waits.writeBack (waits : Waits system) : Waits (system.writeBack now) := by
  have swept : Waits (system.invalidateAll now STALE_AFTER_WRITE) := waits.invalidateAll _
  unfold CacheSystem.writeBack
  generalize system.invalidateAll now STALE_AFTER_WRITE = left at swept ⊢
  exact ⟨swept.registered, swept.missed, swept.during⟩

theorem Waits.step {approxBytes : α → Nat} (waits : Waits system)
    (after : AfterWrites system.steps system) (turn : ℤ × CacheAction α) :
    Waits (system.step approxBytes turn) := by
  have acted : Waits (system.act approxBytes turn) := by
    obtain ⟨now, action⟩ := turn
    cases action with
    | call request parent => exact waits.call request parent after.begun
    | settle flight outcome =>
        exact waits.settle approxBytes flight outcome
          fun waiting member => Nat.le_of_lt (after.waiting waiting member).1
    | resume call => exact waits.resume call
    | invalidate start holdMs => exact waits.invalidate start holdMs
    | writeBack => exact waits.writeBack
  exact { acted with }

end Steps

section Fresh

variable {system : CacheSystem α} {now : ℤ} {log : List (CacheEvent α)}

def FreshLog (log : List (CacheEvent α)) : Prop :=
  ∀ answer, CacheEvent.answered answer ∈ log → answer.Fresh

theorem freshLog_append_answered {answer : Answer α} :
    FreshLog (log ++ [.answered answer]) ↔ FreshLog log ∧ answer.Fresh := by
  simp only [FreshLog, List.mem_append, List.mem_singleton, CacheEvent.answered.injEq]
  constructor
  · intro fresh
    exact ⟨fun other member => fresh other (.inl member), fresh answer (.inr rfl)⟩
  · rintro ⟨before, own⟩ other (member | rfl)
    · exact before other member
    · exact own

theorem freshLog_append_threw {call : Call α} :
    FreshLog (log ++ [.threw call]) ↔ FreshLog log := by
  simp [FreshLog]

/-- A call that is answered at once is answered with a young value. -/
theorem freshLog_call (request : Request) (parent : Option Nat) :
    FreshLog (system.call now request parent).log ↔ FreshLog system.log := by
  unfold CacheSystem.call
  dsimp only
  split
  · next entry found =>
      have young := Cache.lookup_fresh found
      refine freshLog_append_answered.trans (and_iff_left (.inr (.inl ⟨entry, young.1, rfl, ?_⟩)))
      exact Cache.lt_ttlOf.mp young.2
  · next entry found =>
      have young := Cache.lookup_stale found
      rw [CacheSystem.answer, refreshBehind_log]
      refine freshLog_append_answered.trans
        (and_iff_left (.inr (.inr (.inl ⟨entry, young.1, rfl, young.2.2, young.2.1⟩))))
  · unfold CacheSystem.await
    dsimp only
    split <;> rfl

/-- A caller that goes on is answered freshly unless it falls back on a stored value inside
a hold that began after its call. -/
theorem freshLog_resume (waits : Waits system) (number : Nat) :
    FreshLog (system.resume now number).log ↔
      FreshLog system.log ∧ FailsOutsideNewHolds system (now, .resume number) := by
  unfold CacheSystem.resume
  cases found : system.waiting.find? fun waiting => waiting.call.begunAt = number with
  | none =>
      refine (and_iff_left ?_).symm
      intro other waiting settlement isResume inWaiting
      cases isResume
      rw [found] at inWaiting
      cases inWaiting
  | some waiting =>
      have member := List.mem_of_find?_eq_some found
      have missed := waits.missed waiting member
      -- The condition speaks of this caller and of how its fetch ended.
      have condition : ∀ settlement,
          (system.flights.get? waiting.flight).bind (·.settled) = some settlement →
          (FailsOutsideNewHolds system (now, .resume number) ↔
            (settlement.result = none →
              system.cache.isHeld waiting.call.request.key now = true →
              waiting.call.held = true ∨ waiting.call.request.options.staleIfError = false ∨
                system.cache.store.get? waiting.call.request.key = none)) := by
        intro settlement finished
        constructor
        · intro outside failed held
          exact outside number waiting settlement rfl found finished failed held
        · intro own other waiting' settlement' isResume inWaiting over' failed held
          cases isResume
          rw [found] at inWaiting
          obtain rfl := Option.some.inj inWaiting
          rw [finished] at over'
          obtain rfl := Option.some.inj over'
          exact own failed held
      dsimp only
      cases finished : (system.flights.get? waiting.flight).bind (·.settled) with
      | none =>
          refine (and_iff_left ?_).symm
          intro other waiting' settlement isResume inWaiting over'
          cases isResume
          rw [found] at inWaiting
          obtain rfl := Option.some.inj inWaiting
          rw [finished] at over'
          cases over'
      | some settlement =>
          rw [condition settlement finished]
          have during := waits.during waiting member settlement finished
          dsimp only
          cases result : settlement.result with
          | some value =>
              refine freshLog_append_answered.trans (and_congr_right fun _ => ?_)
              exact iff_of_true (fresh_of_awaited rfl during result) fun failed => nomatch failed
          | none =>
              dsimp only
              cases stored : system.cache.store.get? waiting.call.request.key with
              | none =>
                  simp only [ite_self]
                  refine freshLog_append_threw.trans (and_iff_left ?_).symm
                  exact fun _ _ => .inr (.inr trivial)
              | some last =>
                  by_cases allowed : waiting.call.request.options.staleIfError = true ∧
                      waiting.call.held = false
                  · have falls : (waiting.call.request.options.staleIfError &&
                        !waiting.call.held) = true := by
                      rw [allowed.1, allowed.2]
                      rfl
                    rw [if_pos falls]
                    refine freshLog_append_answered.trans (and_congr_right fun _ => ?_)
                    refine (fresh_of_fallback_iff missed rfl result allowed.1 rfl rfl).trans ?_
                    simp [allowed.1, allowed.2]
                  · have throws : ¬ (waiting.call.request.options.staleIfError &&
                        !waiting.call.held) = true := by
                      simpa using allowed
                    rw [if_neg throws]
                    refine freshLog_append_threw.trans (and_iff_left ?_).symm
                    intro _ _
                    cases isSet : waiting.call.request.options.staleIfError with
                    | false => exact .inr (.inl rfl)
                    | true =>
                        left
                        by_contra notHeld
                        exact allowed ⟨isSet, by simpa using notHeld⟩

theorem freshLog_step {approxBytes : α → Nat} (waits : Waits system)
    (turn : ℤ × CacheAction α) :
    FreshLog (system.step approxBytes turn).log ↔
      FreshLog system.log ∧ FailsOutsideNewHolds system turn := by
  obtain ⟨now, action⟩ := turn
  have others : (∀ number, action ≠ .resume number) →
      FailsOutsideNewHolds system (now, action) :=
    fun other number _ _ isResume => absurd isResume (other number)
  cases action with
  | call request parent =>
      exact (freshLog_call request parent).trans
        (and_iff_left (others fun _ same => nomatch same)).symm
  | settle flight outcome =>
      refine Iff.trans ?_ (and_iff_left (others fun _ same => nomatch same)).symm
      unfold CacheSystem.step CacheSystem.act CacheSystem.settle
      dsimp only
      split
      · rfl
      · split <;> rfl
  | resume number => exact freshLog_resume waits number
  | invalidate start holdMs =>
      exact (and_iff_left (others fun _ same => nomatch same)).symm
  | writeBack =>
      refine Iff.trans ?_ (and_iff_left (others fun _ same => nomatch same)).symm
      have swept := (Forgets.invalidateAll system now STALE_AFTER_WRITE).log
      rw [CacheSystem.step, CacheSystem.act, CacheSystem.writeBack]
      dsimp only
      rw [swept]
      simp [FreshLog]

/-- In a run every answer of `cached` is fresh exactly when every caller whose fetch fails
inside a hold that began after its call is one that cannot fall back. -/
theorem answers_fresh_iff (approxBytes : α → Nat) (turns : List (ℤ × CacheAction α)) :
    (∀ answer, CacheEvent.answered answer ∈ (CacheSystem.run approxBytes turns).log →
      answer.Fresh) ↔
      ∀ before turn after, turns = before ++ turn :: after →
        FailsOutsideNewHolds (CacheSystem.run approxBytes before) turn := by
  suffices both : Waits (CacheSystem.run approxBytes turns) ∧
      (FreshLog (CacheSystem.run approxBytes turns).log ↔
        ∀ before turn after, turns = before ++ turn :: after →
          FailsOutsideNewHolds (CacheSystem.run approxBytes before) turn) from both.2
  induction turns using List.reverseRecOn with
  | nil =>
      refine ⟨.idle, iff_of_true (fun _ member => nomatch member) ?_⟩
      intro before turn after split
      simp at split
  | append_singleton turns turn ih =>
      have split : CacheSystem.run approxBytes (turns ++ [turn]) =
          (CacheSystem.run approxBytes turns).step approxBytes turn := List.foldl_concat ..
      rw [split, freshLog_step ih.1, ih.2]
      exact ⟨ih.1.step (AfterWrites.run approxBytes turns) turn, forall_split_snoc.symm⟩

section LateFailure

/-! A report is being fetched when a write invalidates it and holds it for 15 s. Another
caller's fetch stores a value a millisecond into the hold; the first fetch fails eleven
seconds later. -/

def fallingBack : CacheOptions := { staleMs := none, staleIfError := true, pin := false }

def lateFailure : List (ℤ × CacheAction Nat) :=
  [(0, .call { key := "report", ttlMs := 1000, options := fallingBack } none),
    (1000, .invalidate "report" (some 15000)),
    (1001, .call { key := "report", ttlMs := 1000, options := .plain } none),
    (1001, .settle 2 (some 7)),
    (1002, .resume 2),
    (12000, .settle 0 none),
    (12000, .resume 0)]

/-- The first caller does not throw: it is answered with the other's value, eleven seconds
old and inside the hold. -/
theorem late_failure_answers_inside_hold :
    ¬ ∀ answer, CacheEvent.answered answer ∈ (CacheSystem.run (fun _ => 8) lateFailure).log →
      answer.Fresh := by
  intro fresh
  have fellBack : ((answersOf (CacheSystem.run (fun _ => 8) lateFailure).log).any fun answer =>
      answer.value.content = 7 && answer.held && answer.call.hit.isNone &&
        (answer.awaited.bind (·.result)).isNone) = true := by
    decide +kernel
  obtain ⟨answer, given, facts⟩ := List.any_eq_true.mp fellBack
  simp only [Bool.and_eq_true, decide_eq_true_eq, Option.isNone_iff_eq_none] at facts
  obtain ⟨⟨⟨_, held⟩, unhit⟩, failed⟩ := facts
  obtain ⟨event, inLog, isAnswer⟩ := List.mem_filterMap.mp given
  cases event with
  | threw | wroteBack => cases isAnswer
  | answered other =>
      obtain rfl := Option.some.inj isAnswer
      rcases fresh other inLog with ⟨settlement, awaited, _, result⟩ | ⟨entry, hit, _⟩ |
        ⟨entry, hit, _⟩ | ⟨_, _, _, _, _, free, _⟩
      · rw [awaited, Option.bind_some, result] at failed
        cases failed
      · rw [unhit] at hit
        cases hit
      · rw [unhit] at hit
        cases hit
      · rw [held] at free
        cases free

end LateFailure

end Fresh

end ZabbixPortal.Services
