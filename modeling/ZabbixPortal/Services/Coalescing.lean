import ZabbixPortal.Services.AnswerFreshness

/-! Callers of one key share its fetch: what each step does to the calls that wait. -/

set_option autoImplicit false

namespace ZabbixPortal.Services

open Foundation Core

variable {α : Type}

def CacheEvent.callOf : CacheEvent α → Option (Call α)
  | .answered answer => some answer.call
  | .threw call => some call
  | .wroteBack _ => none

def CacheSystem.settlementOf (system : CacheSystem α) (number : Nat) : Option (Settlement α) :=
  (system.flights.get? number).bind (·.settled)

/-- The event gives its caller the outcome of the fetch that settled so: its value, or
after its failure the error or the last stored value. -/
def CacheEvent.Reports (settlement : Settlement α) : CacheEvent α → Prop
  | .answered answer =>
      answer.awaited = some settlement ∧
        (∀ value, settlement.result = some value → answer.value = value) ∧
        (settlement.result = none → answer.call.request.options.staleIfError = true ∧
          ∃ last, answer.stored = some last ∧ answer.value = last.v)
  | .threw _ => settlement.result = none
  | .wroteBack _ => True

/-- The call that began at step `id` waits for this fetch or was given its outcome. -/
structure Serves (id number : Nat) (system : CacheSystem α) : Prop where
  past : id < system.steps
  waits : ∀ waiting ∈ system.waiting, waiting.call.begunAt = id → waiting.flight = number
  ended : ∀ event ∈ system.log, ∀ call, event.callOf = some call → call.begunAt = id →
    ∃ settlement, system.settlementOf number = some settlement ∧ event.Reports settlement
  owed : (∃ waiting ∈ system.waiting, waiting.call.begunAt = id) ∨
    ∃ event ∈ system.log, ∃ call, event.callOf = some call ∧ call.begunAt = id

/-- Resumed once that fetch has settled, a call that waits for it is over, with its outcome. -/
def Resumes (id number : Nat) (system : CacheSystem α) : Prop :=
  ∀ now settlement, system.settlementOf number = some settlement →
    (∃ waiting ∈ system.waiting, waiting.call.begunAt = id) →
      (∀ waiting ∈ (system.resume now id).waiting, waiting.call.begunAt ≠ id) ∧
        ∃ event call, (system.resume now id).log = system.log ++ [event] ∧
          event.callOf = some call ∧ call.begunAt = id ∧ event.Reports settlement

section Effects

variable {approxBytes : α → Nat} {system : CacheSystem α} {now : ℤ}

inductive Effect (before after : CacheSystem α) : Prop where
  | none (waiting : after.waiting = before.waiting)
      (log : after.log = before.log ∨ ∃ step, after.log = before.log ++ [.wroteBack step])
  | waits (call : Call α) (flight : Nat) (begun : call.begunAt = before.steps)
      (waiting : after.waiting = before.waiting ++ [⟨call, flight⟩])
      (log : after.log = before.log)
  | answered (answer : Answer α) (begun : answer.call.begunAt = before.steps)
      (waiting : after.waiting = before.waiting) (log : after.log = before.log ++ [.answered answer])
  | resumed (first : Waiting α) (settlement : Settlement α) (event : CacheEvent α)
      (member : first ∈ before.waiting) (settled : before.settlementOf first.flight = some settlement)
      (ends : event.callOf = some first.call) (reports : event.Reports settlement)
      (waiting : after.waiting =
        before.waiting.filter fun other => other.call.begunAt ≠ first.call.begunAt)
      (log : after.log = before.log ++ [event])

theorem call_effect (system : CacheSystem α) (request : Request) (parent : Option Nat) :
    Effect system (system.call now request parent) := by
  unfold CacheSystem.call
  dsimp only
  split
  · exact .answered _ rfl rfl rfl
  · refine .answered _ ?begun ?waiting (refreshBehind_answer_log _ _ _ _)
    case begun => rfl
    case waiting =>
      unfold CacheSystem.answer CacheSystem.refreshBehind
      dsimp only
      split <;> rfl
  · unfold CacheSystem.await
    split
    · exact .waits _ _ rfl rfl rfl
    · exact .waits _ _ rfl rfl rfl

theorem settle_effect (system : CacheSystem α) (number : Nat) (outcome : Option α) :
    Effect system (system.settle approxBytes now number outcome) := by
  unfold CacheSystem.settle
  cases system.flights.get? number with
  | none => exact .none rfl (.inl rfl)
  | some flight =>
      dsimp only
      split <;> exact .none rfl (.inl rfl)

/-- A call whose fetch is over ends when it is resumed. -/
theorem resume_over {number : Nat} {first : Waiting α} {settlement : Settlement α}
    (found : (system.waiting.find? fun waiting => waiting.call.begunAt = number) = some first)
    (settled : system.settlementOf first.flight = some settlement) :
    ∃ event, event.callOf = some first.call ∧ event.Reports settlement ∧
      (system.resume now number).waiting =
        (system.waiting.filter fun other => other.call.begunAt ≠ number) ∧
      (system.resume now number).log = system.log ++ [event] := by
  unfold CacheSystem.settlementOf at settled
  unfold CacheSystem.resume
  rw [found]
  dsimp only
  rw [settled]
  dsimp only
  cases result : settlement.result with
  | some value =>
      refine ⟨.answered _, rfl, ⟨rfl, fun other same => ?_, fun failed => ?_⟩, rfl, rfl⟩
      · exact Option.some.inj (result.symm.trans same)
      · exact nomatch result.symm.trans failed
  | none =>
      dsimp only
      split
      · exact ⟨.threw first.call, rfl, result, rfl, rfl⟩
      · next last isLast =>
          refine ⟨.answered _, rfl, ⟨rfl, fun other same => ?_, fun _ => ?_⟩, rfl, rfl⟩
          · exact nomatch result.symm.trans same
          · split at isLast
            · next allowed => exact ⟨(Bool.and_eq_true_iff.mp allowed).1, last, isLast, rfl⟩
            · cases isLast

theorem resume_effect (system : CacheSystem α) (number : Nat) :
    Effect system (system.resume now number) := by
  cases found : system.waiting.find? fun waiting => waiting.call.begunAt = number with
  | none =>
      unfold CacheSystem.resume
      rw [found]
      exact .none rfl (.inl rfl)
  | some first =>
      have member := List.mem_of_find?_eq_some found
      have begun : first.call.begunAt = number := by simpa using List.find?_some found
      cases settled : system.settlementOf first.flight with
      | none =>
          unfold CacheSystem.settlementOf at settled
          unfold CacheSystem.resume
          rw [found]
          dsimp only
          rw [settled]
          exact .none rfl (.inl rfl)
      | some settlement =>
          obtain ⟨event, ends, reports, waiting, log⟩ := resume_over found settled
          subst begun
          exact .resumed first settlement event member settled ends reports waiting log

theorem step_effect (approxBytes : α → Nat) (system : CacheSystem α) (turn : ℤ × CacheAction α) :
    Effect system (system.step approxBytes turn) := by
  have acted : Effect system (system.act approxBytes turn) := by
    obtain ⟨now, action⟩ := turn
    cases action with
    | call request parent => exact call_effect system request parent
    | settle flight outcome => exact settle_effect system flight outcome
    | resume call => exact resume_effect system call
    | invalidate start holdMs => exact .none rfl (.inl rfl)
    | writeBack =>
        have swept := Forgets.invalidateAll system now STALE_AFTER_WRITE
        have waiting : (system.invalidateAll now STALE_AFTER_WRITE).waiting = system.waiting :=
          List.foldlRecOn (motive := fun left : CacheSystem α => left.waiting = system.waiting)
            STALE_AFTER_WRITE _ rfl fun _ same _ _ => same
        unfold CacheSystem.act CacheSystem.writeBack
        dsimp only
        generalize system.invalidateAll now STALE_AFTER_WRITE = left at swept waiting ⊢
        exact .none waiting (.inr ⟨left.steps, by rw [swept.log]⟩)
  cases acted with
  | none waiting log => exact .none waiting log
  | waits call flight begun waiting log => exact .waits call flight begun waiting log
  | answered answer begun waiting log => exact .answered answer begun waiting log
  | resumed first settlement event member settled ends reports waiting log =>
      exact .resumed first settlement event member settled ends reports waiting log

end Effects

section Ends

variable {approxBytes : α → Nat} {system : CacheSystem α} {now : ℤ} {number : Nat}
  {ended : String × Settlement α}

def CacheSystem.endOf (system : CacheSystem α) (number : Nat) : Option (String × Settlement α) :=
  (system.flights.get? number).bind fun flight => flight.settled.map fun ended => (flight.key, ended)

theorem settlementOf_iff {settlement : Settlement α} :
    system.settlementOf number = some settlement ↔
      ∃ key, system.endOf number = some (key, settlement) := by
  unfold CacheSystem.settlementOf CacheSystem.endOf
  cases system.flights.get? number with
  | none => simp
  | some flight => simp

theorem endOf_answer (system : CacheSystem α) (answer : Answer α) (number : Nat) :
    (system.answer answer).endOf number = system.endOf number := by
  unfold CacheSystem.endOf CacheSystem.answer CacheSystem.noteRead
  dsimp only
  rw [OrderedMap.get?_mapValues]
  cases system.flights.get? number with
  | none => rfl
  | some flight =>
      dsimp only [Option.map_some, Option.bind_some]
      split <;> rfl

theorem endOf_begin {key : String} {pin : Bool}
    (unused : ∀ number flight, system.flights.get? number = some flight → number < system.steps)
    (finished : system.endOf number = some ended) :
    (system.begin key pin).endOf number = some ended := by
  obtain ⟨flight, found, _⟩ := Option.bind_eq_some_iff.mp finished
  unfold CacheSystem.endOf CacheSystem.begin
  dsimp only
  rw [OrderedMap.get?_set, if_neg (Nat.ne_of_lt (unused number flight found))]
  exact finished

theorem endOf_invalidate (now : ℤ) (system : CacheSystem α) (start : String) (holdMs : Option ℤ)
    (number : Nat) : (system.invalidate now start holdMs).endOf number = system.endOf number := by
  unfold CacheSystem.endOf CacheSystem.invalidate
  dsimp only
  rw [OrderedMap.get?_mapValues]
  cases system.flights.get? number with
  | none => rfl
  | some flight =>
      dsimp only [Option.map_some, Option.bind_some]
      split <;> rfl

theorem endOf_call (request : Request) (parent : Option Nat)
    (unused : ∀ number flight, system.flights.get? number = some flight → number < system.steps)
    (finished : system.endOf number = some ended) :
    (system.call now request parent).endOf number = some ended := by
  unfold CacheSystem.call
  dsimp only
  split
  · rw [endOf_answer]
    exact finished
  · rw [endOf_answer]
    unfold CacheSystem.refreshBehind
    dsimp only
    split
    · exact endOf_begin unused finished
    · exact finished
  · unfold CacheSystem.await
    split
    · exact finished
    · exact endOf_begin unused finished

theorem endOf_settle {other : Nat} (outcome : Option α) (finished : system.endOf number = some ended) :
    (system.settle approxBytes now other outcome).endOf number = some ended := by
  unfold CacheSystem.settle
  cases found : system.flights.get? other with
  | none => exact finished
  | some flight =>
      dsimp only
      split
      · exact finished
      · next running =>
          have different : number ≠ other := by
            rintro rfl
            obtain ⟨record, inFlights, settled⟩ := Option.bind_eq_some_iff.mp finished
            cases found.symm.trans inFlights
            obtain ⟨settlement, isSettled, _⟩ := Option.map_eq_some_iff.mp settled
            exact running (Option.isSome_of_eq_some isSettled)
          unfold CacheSystem.endOf
          dsimp only
          rw [OrderedMap.get?_set, if_neg different]
          exact finished

theorem endOf_resume (system : CacheSystem α) (call number : Nat) :
    (system.resume now call).endOf number = system.endOf number := by
  unfold CacheSystem.resume
  cases system.waiting.find? fun waiting => waiting.call.begunAt = call with
  | none => rfl
  | some first =>
      dsimp only
      cases (system.flights.get? first.flight).bind (·.settled) with
      | none => rfl
      | some settlement =>
          dsimp only
          cases settlement.result with
          | some value => exact endOf_answer _ _ _
          | none =>
              dsimp only
              split
              · rfl
              · exact endOf_answer _ _ _

/-- How a fetch ended is never revised. -/
theorem endOf_step (turn : ℤ × CacheAction α)
    (unused : ∀ number flight, system.flights.get? number = some flight → number < system.steps)
    (finished : system.endOf number = some ended) :
    (system.step approxBytes turn).endOf number = some ended := by
  obtain ⟨now, action⟩ := turn
  cases action with
  | call request parent => exact endOf_call request parent unused finished
  | settle flight outcome => exact endOf_settle outcome finished
  | resume call => exact (endOf_resume system call number).trans finished
  | invalidate start holdMs => exact (endOf_invalidate now system start holdMs number).trans finished
  | writeBack =>
      have swept : (system.invalidateAll now STALE_AFTER_WRITE).endOf number = some ended :=
        List.foldlRecOn (motive := fun left : CacheSystem α => left.endOf number = some ended)
          STALE_AFTER_WRITE _ finished fun left kept start _ =>
            (endOf_invalidate now left start _ number).trans kept
      unfold CacheSystem.step CacheSystem.act CacheSystem.writeBack
      dsimp only
      generalize system.invalidateAll now STALE_AFTER_WRITE = left at swept ⊢
      exact swept

theorem settlementOf_step {settlement : Settlement α} (turn : ℤ × CacheAction α)
    (unused : ∀ number flight, system.flights.get? number = some flight → number < system.steps)
    (settled : system.settlementOf number = some settlement) :
    (system.step approxBytes turn).settlementOf number = some settlement := by
  obtain ⟨key, finished⟩ := settlementOf_iff.mp settled
  exact settlementOf_iff.mpr ⟨key, endOf_step turn unused finished⟩

end Ends

section Serves

variable {approxBytes : α → Nat} {system : CacheSystem α} {id number : Nat}

def Dated (system : CacheSystem α) : Prop :=
  ∀ event ∈ system.log, ∀ call, event.callOf = some call → call.begunAt < system.steps

theorem Dated.step (dated : Dated system) (after : AfterWrites system.steps system)
    (turn : ℤ × CacheAction α) : Dated (system.step approxBytes turn) := by
  have old : ∀ event ∈ system.log, ∀ call, event.callOf = some call →
      call.begunAt < system.steps + 1 :=
    fun event member call ends => Nat.lt_succ_of_lt (dated event member call ends)
  intro event member call ends
  change call.begunAt < system.steps + 1
  cases step_effect approxBytes system turn with
  | none waiting log =>
      rcases log with same | ⟨step, wrote⟩
      · exact old event (same ▸ member) call ends
      · rw [wrote] at member
        cases List.mem_append.mp member with
        | inl before => exact old event before call ends
        | inr added =>
            cases List.mem_singleton.mp added
            cases ends
  | waits begun flight isNow waiting log => exact old event (log ▸ member) call ends
  | answered answer begun waiting log =>
      rw [log] at member
      cases List.mem_append.mp member with
      | inl before => exact old event before call ends
      | inr added =>
          cases List.mem_singleton.mp added
          cases ends
          exact Nat.lt_succ_of_le (Nat.le_of_eq begun)
  | resumed first settlement own inWaiting settled endsFirst reports waiting log =>
      rw [log] at member
      cases List.mem_append.mp member with
      | inl before => exact old event before call ends
      | inr added =>
          cases List.mem_singleton.mp added
          cases endsFirst.symm.trans ends
          exact Nat.lt_succ_of_lt (after.waiting first inWaiting).1

theorem Serves.step (serves : Serves id number system) (after : AfterWrites system.steps system)
    (turn : ℤ × CacheAction α) : Serves id number (system.step approxBytes turn) := by
  have past : id < (system.step approxBytes turn).steps := Nat.lt_succ_of_lt serves.past
  have stays : ∀ {event}, event ∈ system.log → ∀ call, event.callOf = some call →
      call.begunAt = id → ∃ settlement,
        (system.step approxBytes turn).settlementOf number = some settlement ∧
          event.Reports settlement := by
    intro event member call ends isOwn
    obtain ⟨settlement, settled, reports⟩ := serves.ended event member call ends isOwn
    exact ⟨settlement, settlementOf_step turn after.begun settled, reports⟩
  cases step_effect approxBytes system turn with
  | none waiting log =>
      have same : ∀ event ∈ (system.step approxBytes turn).log, ∀ call,
          event.callOf = some call → event ∈ system.log := by
        intro event member call ends
        rcases log with same | ⟨step, wrote⟩
        · exact same ▸ member
        · rw [wrote] at member
          cases List.mem_append.mp member with
          | inl before => exact before
          | inr added =>
              cases List.mem_singleton.mp added
              cases ends
      have kept : ∀ event ∈ system.log, event ∈ (system.step approxBytes turn).log := by
        intro event member
        rcases log with same | ⟨step, wrote⟩
        · exact same ▸ member
        · exact wrote ▸ List.mem_append_left _ member
      refine ⟨past, waiting ▸ serves.waits, fun event member call ends isOwn =>
        stays (same event member call ends) call ends isOwn, ?_⟩
      exact waiting ▸ serves.owed.imp_right fun ⟨event, member, rest⟩ =>
        ⟨event, kept event member, rest⟩
  | waits call flight begun waiting log =>
      refine ⟨past, fun other member isOwn => ?_, fun event member => stays (log ▸ member), ?_⟩
      · rw [waiting] at member
        cases List.mem_append.mp member with
        | inl before => exact serves.waits other before isOwn
        | inr added =>
            cases List.mem_singleton.mp added
            exact absurd (isOwn.symm.trans begun) (Nat.ne_of_lt serves.past)
      · rw [log, waiting]
        exact serves.owed.imp_left fun ⟨other, member, isOwn⟩ =>
          ⟨other, List.mem_append_left _ member, isOwn⟩
  | answered answer begun waiting log =>
      refine ⟨past, waiting ▸ serves.waits, fun event member call ends isOwn => ?_, ?_⟩
      · rw [log] at member
        cases List.mem_append.mp member with
        | inl before => exact stays before call ends isOwn
        | inr added =>
            cases List.mem_singleton.mp added
            cases ends
            exact absurd (isOwn.symm.trans begun) (Nat.ne_of_lt serves.past)
      · rw [log, waiting]
        exact serves.owed.imp_right fun ⟨event, member, rest⟩ =>
          ⟨event, List.mem_append_left _ member, rest⟩
  | resumed first settlement event member settled ends reports waiting log =>
      refine ⟨past, fun other inWaiting isOwn => ?_, fun other inLog call otherEnds isOwn => ?_, ?_⟩
      · rw [waiting] at inWaiting
        exact serves.waits other (List.mem_filter.mp inWaiting).1 isOwn
      · rw [log] at inLog
        cases List.mem_append.mp inLog with
        | inl before => exact stays before call otherEnds isOwn
        | inr added =>
            cases List.mem_singleton.mp added
            cases ends.symm.trans otherEnds
            have flight := serves.waits first member isOwn
            exact ⟨settlement, settlementOf_step turn after.begun (flight ▸ settled), reports⟩
      · rw [log, waiting]
        rcases serves.owed with ⟨other, inWaiting, isOwn⟩ | ⟨other, inLog, rest⟩
        · by_cases isFirst : other.call.begunAt = first.call.begunAt
          · exact .inr ⟨event, List.mem_append_right _ List.mem_cons_self, first.call, ends,
              isFirst ▸ isOwn⟩
          · exact .inl ⟨other, List.mem_filter.mpr ⟨inWaiting, decide_eq_true isFirst⟩, isOwn⟩
        · exact .inr ⟨other, List.mem_append_left _ inLog, rest⟩

theorem Serves.run (serves : Serves id number system) (after : AfterWrites system.steps system)
    (turns : List (ℤ × CacheAction α)) :
    Serves id number (turns.foldl (CacheSystem.step approxBytes) system) := by
  induction turns generalizing system with
  | nil => exact serves
  | cons turn rest ih => exact ih (serves.step after turn) (after.step approxBytes turn)

theorem Serves.resumes (serves : Serves id number system) : Resumes id number system := by
  intro now settlement settled ⟨waiting, member, isOwn⟩
  have isSome : (system.waiting.find? fun waiting => waiting.call.begunAt = id).isSome :=
    List.find?_isSome.mpr ⟨waiting, member, decide_eq_true isOwn⟩
  obtain ⟨first, found⟩ := Option.isSome_iff_exists.mp isSome
  have begun : first.call.begunAt = id := by simpa using List.find?_some found
  have flight := serves.waits first (List.mem_of_find?_eq_some found) begun
  obtain ⟨event, ends, reports, left, log⟩ := @resume_over _ _ now _ _ _ found (flight ▸ settled)
  refine ⟨fun other still => ?_, event, first.call, log, ends, begun, reports⟩
  rw [left] at still
  exact of_decide_eq_true (List.mem_filter.mp still).2

/-- A call that finds nothing to answer with while its key's fetch runs waits for it. -/
theorem serves_of_missing (after : AfterWrites system.steps system) (dated : Dated system)
    {now : ℤ} {request : Request} (parent : Option Nat)
    (registered : system.cache.inflight.get? request.key = some number)
    (missing : system.cache.lookup request.key request.ttlMs request.options
      (system.cache.isHeld request.key now) now = .missing) :
    Serves system.steps number (system.step approxBytes (now, .call request parent)) := by
  have looked : (system.cache.dropEnded now).lookup request.key = system.cache.lookup request.key :=
    rfl
  unfold CacheSystem.step CacheSystem.act CacheSystem.call
  dsimp only
  rw [looked, missing]
  unfold CacheSystem.await
  dsimp only
  have inflight : (system.cache.dropEnded now).inflight.get? request.key = some number := registered
  rw [inflight]
  dsimp only
  refine ⟨Nat.lt_succ_self _, fun waiting member isOwn => ?_, fun event member call ends isOwn => ?_,
    .inl ⟨_, List.mem_append_right _ List.mem_cons_self, rfl⟩⟩
  · cases List.mem_append.mp member with
    | inl before => exact absurd isOwn (Nat.ne_of_lt (after.waiting waiting before).1)
    | inr added =>
        cases List.mem_singleton.mp added
        rfl
  · exact absurd isOwn (Nat.ne_of_lt (dated event member call ends))

end Serves

end ZabbixPortal.Services
