import ZabbixPortal.Services.CacheOrder

/-! One call of the cache, known by the step it began at: how it ended, the fetch it waits
for and what stays true of both. -/

set_option autoImplicit false

namespace ZabbixPortal.Services

open Foundation Core

variable {α : Type}

def CacheSystem.eventOf (system : CacheSystem α) (call : Nat) : Option (CacheEvent α) :=
  system.log.find? fun event => event.callOf.map (·.begunAt) = some call

def CacheSystem.flightOf (system : CacheSystem α) (call : Nat) : Option Nat :=
  (system.waiting.find? fun waiting => waiting.call.begunAt = call).map (·.flight)

structure Made (number : Nat) (request : Request) (system : CacheSystem α) : Prop where
  past : number < system.steps
  waiting : ∀ waiting ∈ system.waiting, waiting.call.begunAt = number →
    waiting.call.request = request
  answered : ∀ answer ∈ answersOf system.log, answer.call.begunAt = number →
    answer.call.request = request

section Calls

variable {approxBytes : α → Nat} {system : CacheSystem α} {now : ℤ} {number : Nat}
  {request : Request}

theorem eventOf_some {event : CacheEvent α} (found : system.eventOf number = some event) :
    event ∈ system.log ∧ ∃ call, event.callOf = some call ∧ call.begunAt = number := by
  have ends := List.find?_some found
  rw [decide_eq_true_eq] at ends
  exact ⟨List.mem_of_find?_eq_some found, Option.map_eq_some_iff.mp ends⟩

theorem eventOf_answered {answer : Answer α} (found : system.eventOf number = some (.answered answer)) :
    answer ∈ answersOf system.log ∧ answer.call.begunAt = number := by
  obtain ⟨member, call, ends, began⟩ := eventOf_some found
  obtain rfl := Option.some.inj ends
  exact ⟨List.mem_filterMap.mpr ⟨_, member, rfl⟩, began⟩

/-- What is in the log stays there, and a step adds one event at most. -/
theorem step_log (approxBytes : α → Nat) (system : CacheSystem α) (turn : ℤ × CacheAction α) :
    ∃ added, (system.step approxBytes turn).log = system.log ++ added := by
  cases step_effect approxBytes system turn with
  | none waiting log =>
      rcases log with same | ⟨step, wrote⟩
      · exact ⟨[], same.trans (List.append_nil _).symm⟩
      · exact ⟨_, wrote⟩
  | waits call flight begun waiting log => exact ⟨[], log.trans (List.append_nil _).symm⟩
  | answered answer begun waiting log => exact ⟨_, log⟩
  | resumed first settlement event member settled ends reports waiting log => exact ⟨_, log⟩

theorem answersOf_step {answer : Answer α} (turn : ℤ × CacheAction α)
    (given : answer ∈ answersOf system.log) :
    answer ∈ answersOf (system.step approxBytes turn).log := by
  obtain ⟨added, log⟩ := step_log approxBytes system turn
  rw [log]
  unfold answersOf at given ⊢
  rw [List.filterMap_append]
  exact List.mem_append_left _ given

theorem Made.step (made : Made number request system) (turn : ℤ × CacheAction α) :
    Made number request (system.step approxBytes turn) := by
  have past : number < (system.step approxBytes turn).steps := Nat.lt_succ_of_lt made.past
  cases step_effect approxBytes system turn with
  | none waiting log =>
      refine ⟨past, waiting ▸ made.waiting, fun answer member => made.answered answer ?_⟩
      rcases log with same | ⟨step, wrote⟩
      · exact same ▸ member
      · rw [wrote] at member
        unfold answersOf at member ⊢
        rw [List.filterMap_append] at member
        simpa using member
  | waits call flight begun waiting log =>
      refine ⟨past, fun other member isOwn => ?_, log ▸ made.answered⟩
      rw [waiting] at member
      rcases List.mem_append.mp member with before | added
      · exact made.waiting other before isOwn
      · cases List.mem_singleton.mp added
        exact absurd (isOwn.symm.trans begun) (Nat.ne_of_lt made.past)
  | answered answer begun waiting log =>
      refine ⟨past, waiting ▸ made.waiting, fun other member isOwn => ?_⟩
      rw [log] at member
      rcases mem_answersOf_append_answered member with before | rfl
      · exact made.answered other before isOwn
      · exact absurd (isOwn.symm.trans begun) (Nat.ne_of_lt made.past)
  | resumed first settlement event inWaiting settled ends reports waiting log =>
      refine ⟨past, fun other member => ?_, fun other member isOwn => ?_⟩
      · rw [waiting] at member
        exact made.waiting other (List.mem_filter.mp member).1
      · rw [log] at member
        cases event with
        | answered answer =>
            rcases mem_answersOf_append_answered member with before | rfl
            · exact made.answered other before isOwn
            · obtain own := Option.some.inj ends
              rw [own] at isOwn ⊢
              exact made.waiting first inWaiting isOwn
        | threw call =>
            refine made.answered other ?_ isOwn
            unfold answersOf at member ⊢
            rw [List.filterMap_append] at member
            simpa using member
        | wroteBack step => cases ends

/-- Whatever a call adds to those that wait or are answered asks for its request. -/
theorem call_asks (system : CacheSystem α) (request : Request) (parent : Option Nat) :
    (∀ waiting ∈ (system.call now request parent).waiting,
      waiting ∈ system.waiting ∨ waiting.call.request = request) ∧
    ∀ answer ∈ answersOf (system.call now request parent).log,
      answer ∈ answersOf system.log ∨ answer.call.request = request := by
  unfold CacheSystem.call
  dsimp only
  split
  · refine ⟨fun _ member => .inl member, fun answer member => ?_⟩
    rcases mem_answersOf_append_answered member with before | rfl
    · exact .inl before
    · exact .inr rfl
  · next entry found =>
      constructor
      · unfold CacheSystem.refreshBehind
        dsimp only
        split <;> exact fun _ member => .inl member
      · intro answer member
        rw [refreshBehind_answer_log] at member
        rcases mem_answersOf_append_answered member with before | rfl
        · exact .inl before
        · exact .inr rfl
  · unfold CacheSystem.await
    dsimp only
    constructor
    · intro waiting member
      split at member
      all_goals
        rcases List.mem_append.mp member with before | added
        · exact .inl before
        · exact .inr (List.mem_singleton.mp added ▸ rfl)
    · split <;> exact fun _ member => .inl member

theorem made_of_call (after : AfterWrites system.steps system) (request : Request)
    (parent : Option Nat) :
    Made system.steps request (system.step approxBytes (now, .call request parent)) where
  past := Nat.lt_succ_self _
  waiting waiting member began := by
    rcases (call_asks system request parent).1 waiting member with before | own
    · exact absurd began (Nat.ne_of_lt (after.waiting waiting before).1)
    · exact own
  answered answer member began := by
    rcases (call_asks system request parent).2 answer member with before | own
    · exact absurd began (Nat.ne_of_lt (after.answered answer before).1)
    · exact own

theorem endOf_begin_inv {key : String} {pin : Bool} {ended : String × Settlement α}
    (finished : (system.begin key pin).endOf number = some ended) :
    system.endOf number = some ended := by
  unfold CacheSystem.endOf CacheSystem.begin at finished
  dsimp only at finished
  rw [OrderedMap.get?_set] at finished
  split at finished
  · cases finished
  · exact finished

theorem endOf_call_inv {request : Request} {parent : Option Nat} {ended : String × Settlement α}
    (finished : (system.call now request parent).endOf number = some ended) :
    system.endOf number = some ended := by
  unfold CacheSystem.call at finished
  dsimp only at finished
  split at finished
  · rw [endOf_answer] at finished
    exact finished
  · rw [endOf_answer] at finished
    unfold CacheSystem.refreshBehind at finished
    dsimp only at finished
    split at finished
    · have before := endOf_begin_inv finished
      exact before
    · exact finished
  · unfold CacheSystem.await at finished
    split at finished
    · exact finished
    · have before := endOf_begin_inv finished
      exact before

theorem endOf_settle_inv {other : Nat} {outcome : Option α} {ended : String × Settlement α}
    (finished : (system.settle approxBytes now other outcome).endOf number = some ended) :
    system.endOf number = some ended ∨ number = other ∧
      ∀ value, ended.2.result = some value → outcome = some value.content := by
  unfold CacheSystem.settle at finished
  cases found : system.flights.get? other with
  | none =>
      rw [found] at finished
      exact .inl finished
  | some flight =>
      simp only [found] at finished
      split at finished
      · exact .inl finished
      · unfold CacheSystem.endOf at finished
        dsimp only at finished
        rw [OrderedMap.get?_set] at finished
        split at finished
        · next same =>
            cases finished
            refine .inr ⟨same, fun value result => ?_⟩
            obtain ⟨content, isContent, rfl⟩ := Option.map_eq_some_iff.mp result
            exact isContent
        · exact .inl finished

theorem endOf_step_inv {ended : String × Settlement α} (turn : ℤ × CacheAction α)
    (finished : (system.step approxBytes turn).endOf number = some ended) :
    system.endOf number = some ended ∨ ∃ outcome, turn.2 = .settle number outcome ∧
      ∀ value, ended.2.result = some value → outcome = some value.content := by
  obtain ⟨now, action⟩ := turn
  cases action with
  | call request parent => exact .inl (endOf_call_inv finished)
  | settle flight outcome =>
      rcases endOf_settle_inv finished with before | ⟨rfl, result⟩
      · exact .inl before
      · exact .inr ⟨outcome, rfl, result⟩
  | resume call => exact .inl ((endOf_resume system call number).symm.trans finished)
  | invalidate start holdMs =>
      exact .inl ((endOf_invalidate now system start holdMs number).symm.trans finished)
  | writeBack =>
      have swept : (system.invalidateAll now STALE_AFTER_WRITE).endOf number =
          system.endOf number :=
        List.foldlRecOn (motive := fun left : CacheSystem α => left.endOf number = system.endOf number)
          STALE_AFTER_WRITE _ rfl fun left kept start _ =>
            (endOf_invalidate now left start _ number).trans kept
      unfold CacheSystem.step CacheSystem.act CacheSystem.writeBack at finished
      dsimp only at finished
      generalize system.invalidateAll now STALE_AFTER_WRITE = left at swept finished
      exact .inl (swept.symm.trans finished)

/-- A fetch is over only once it settles. -/
theorem settlementOf_step_inv {settlement : Settlement α} (turn : ℤ × CacheAction α)
    (settled : (system.step approxBytes turn).settlementOf number = some settlement) :
    system.settlementOf number = some settlement ∨
      ∃ outcome, turn.2 = .settle number outcome ∧
        ∀ value, settlement.result = some value → outcome = some value.content := by
  obtain ⟨key, finished⟩ := settlementOf_iff.mp settled
  rcases endOf_step_inv turn finished with before | settles
  · exact .inl (settlementOf_iff.mpr ⟨key, before⟩)
  · exact .inr settles

theorem lookup_plain_ne_stale {cache : Cache (Fetched α)} {key : String} {ttlMs : ℤ} {held : Bool}
    {entry : Entry (Fetched α)} : cache.lookup key ttlMs .plain held now ≠ .stale entry := by
  intro found
  unfold Cache.lookup at found
  split at found
  · cases found
  · split at found
    · cases found
    · next old =>
        have window : Cache.staleWindow .plain held = 0 := by
          cases held <;> rfl
        rw [window, Int.add_zero, if_neg old] at found
        cases found

theorem get?_steps_of_unused
    (unused : ∀ number flight, system.flights.get? number = some flight → number < system.steps) :
    system.flights.get? system.steps = none := by
  cases found : system.flights.get? system.steps with
  | none => rfl
  | some flight => exact absurd (unused _ flight found) (Nat.lt_irrefl _)

/-- A call with no options that begins a fetch waits for it. -/
theorem call_begins {parent : Option Nat} (plain : request.options = .plain)
    (unused : ∀ number flight, system.flights.get? number = some flight → number < system.steps)
    (begins : (system.call now request parent).isRunning system.steps = true) :
    ∃ call : Call α, call.begunAt = system.steps ∧
      (system.call now request parent).waiting = system.waiting ++ [⟨call, system.steps⟩] ∧
      (system.call now request parent).log = system.log := by
  have free := get?_steps_of_unused unused
  unfold CacheSystem.call at begins ⊢
  dsimp only at begins ⊢
  rw [plain] at begins ⊢
  split at begins
  · unfold CacheSystem.isRunning CacheSystem.answer CacheSystem.noteRead at begins
    dsimp only at begins
    rw [OrderedMap.get?_mapValues, free] at begins
    cases begins
  · next stale => exact absurd stale lookup_plain_ne_stale
  · unfold CacheSystem.await at begins ⊢
    dsimp only at begins ⊢
    split at begins
    · unfold CacheSystem.isRunning at begins
      dsimp only at begins
      rw [free] at begins
      cases begins
    · exact ⟨_, rfl, rfl, rfl⟩

/-- A call under a key with nothing stored or registered begins a fetch. -/
theorem begins_of_absent {parent : Option Nat}
    (unstored : system.cache.store.get? request.key = none)
    (unregistered : system.cache.inflight.get? request.key = none) :
    (system.call now request parent).isRunning system.steps = true := by
  have missing : (system.cache.dropEnded now).lookup request.key request.ttlMs request.options
      (system.cache.isHeld request.key now) now = .missing := by
    have absent : (system.cache.dropEnded now).store.get? request.key = none := unstored
    unfold Cache.lookup
    rw [absent]
  have free : (system.cache.dropEnded now).inflight.get? request.key = none := unregistered
  unfold CacheSystem.call
  dsimp only
  rw [missing]
  unfold CacheSystem.await
  dsimp only
  rw [free]
  unfold CacheSystem.isRunning CacheSystem.begin
  dsimp only
  rw [OrderedMap.get?_set_self]
  rfl

end Calls

end ZabbixPortal.Services
