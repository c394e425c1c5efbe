import ZabbixPortal.Services.Coalescing

/-! The values of one key go forward: what a step can leave stored, registered and
answered, and from it that no call is answered with a value older than one that was given
under its key before the call began. -/

set_option autoImplicit false

namespace ZabbixPortal.Services

open Foundation Core

variable {α : Type}

def Flight.Superseded (flight : Flight α) : Prop :=
  flight.cancelled = true ∨ ∃ settlement, flight.settled = some settlement ∧
    ∃ value, settlement.result = some value

/-- What an answer under a key can be: a stored value, or that of the fetch its call
waited for. -/
def Source (system : CacheSystem α) (answer : Answer α) : Prop :=
  (∃ entry, system.cache.store.get? answer.call.request.key = some entry ∧
    answer.value = entry.v) ∨
  ∃ waiting ∈ system.waiting, waiting.call = answer.call ∧
    ∃ settlement, system.settlementOf waiting.flight = some settlement ∧
      settlement.result = some answer.value

structure Advances (system next : CacheSystem α) : Prop where
  /-- A value is stored by the fetch registered under its key, which is over with it. -/
  stored : ∀ key entry, next.cache.store.get? key = some entry →
    (∃ old, system.cache.store.get? key = some old ∧ entry.v = old.v) ∨
      system.cache.inflight.get? key = some entry.v.origin.startedAt ∧
        next.cache.inflight.get? key = none
  registered : ∀ key number, next.cache.inflight.get? key = some number →
    system.cache.inflight.get? key = some number ∨ number = system.steps
  begun : ∀ number flight, next.flights.get? number = some flight →
    (∃ old, system.flights.get? number = some old ∧ old.key = flight.key) ∨
      number = system.steps ∧ next.cache.inflight.get? flight.key = some number
  /-- Nothing else is stored under the key of a fetch that a step supersedes. -/
  superseded : ∀ number flight, next.flights.get? number = some flight → flight.Superseded →
    (∃ old, system.flights.get? number = some old ∧ old.key = flight.key ∧ old.Superseded) ∨
      ∀ entry, next.cache.store.get? flight.key = some entry → entry.v.origin.startedAt = number
  persists : ∀ number flight, system.flights.get? number = some flight →
    ∃ kept, next.flights.get? number = some kept ∧ kept.key = flight.key
  waiting : ∀ waiting ∈ next.waiting, waiting ∈ system.waiting ∨
    waiting.call.begunAt = system.steps ∧
      next.cache.inflight.get? waiting.call.request.key = some waiting.flight
  answered : ∀ answer ∈ answersOf next.log,
    answer ∈ answersOf system.log ∨ Source system answer

structure InOrder (system : CacheSystem α) : Prop where
  behind : ∀ key entry number, system.cache.store.get? key = some entry →
    system.cache.inflight.get? key = some number → entry.v.origin.startedAt ≤ number
  superseded : ∀ number flight entry, system.flights.get? number = some flight →
    flight.Superseded → system.cache.store.get? flight.key = some entry →
    number ≤ entry.v.origin.startedAt
  registered : ∀ number flight own, system.flights.get? number = some flight →
    system.cache.inflight.get? flight.key = some own → number ≤ own
  waits : ∀ waiting ∈ system.waiting, ∃ flight,
    system.flights.get? waiting.flight = some flight ∧ flight.key = waiting.call.request.key

/-- No value from before `least` is given under the key to a call that begins at `since`
or later. -/
structure Forward (key : String) (least since : Nat) (system : CacheSystem α) : Prop where
  counted : least ≤ system.steps
  stored : ∀ entry, system.cache.store.get? key = some entry → least ≤ entry.v.origin.startedAt
  registered : ∀ number, system.cache.inflight.get? key = some number → least ≤ number
  waiting : ∀ waiting ∈ system.waiting, waiting.call.request.key = key →
    since ≤ waiting.call.begunAt → least ≤ waiting.flight
  answered : ∀ answer ∈ answersOf system.log, answer.call.request.key = key →
    since ≤ answer.call.begunAt → least ≤ answer.value.origin.startedAt

section Advances

variable {system next : CacheSystem α} {key : String} {least since : Nat}

theorem InOrder.idle : InOrder (CacheSystem.idle : CacheSystem α) where
  behind _ _ _ found := nomatch found
  superseded _ _ _ found := nomatch found
  registered _ _ _ found := nomatch found
  waits _ member := nomatch member

theorem InOrder.advances (ordered : InOrder system) (after : AfterWrites system.steps system)
    (advances : Advances system next) (waits : Waits next) : InOrder next where
  behind key entry number found registered := by
    rcases advances.stored key entry found with ⟨old, before, same⟩ | ⟨_, absent⟩
    · rw [same]
      rcases advances.registered key number registered with own | rfl
      · exact ordered.behind key old number before own
      · exact Nat.le_of_lt (after.stored key old before).1
    · rw [registered] at absent
      cases absent
  superseded number flight entry found isOver inStore := by
    rcases advances.superseded number flight found isOver with ⟨old, before, same, wasOver⟩ | own
    · rcases advances.stored flight.key entry inStore with ⟨last, wasStored, value⟩ | ⟨own, _⟩
      · rw [value]
        rw [← same] at wasStored
        exact ordered.superseded number old last before wasOver wasStored
      · rw [← same] at own
        exact ordered.registered number old _ before own
    · exact Nat.le_of_eq (own entry inStore).symm
  registered number flight own found registered := by
    rcases advances.begun number flight found with ⟨old, before, same⟩ | ⟨_, isOwn⟩
    · rcases advances.registered flight.key own registered with earlier | rfl
      · rw [← same] at earlier
        exact ordered.registered number old own before earlier
      · exact Nat.le_of_lt (after.begun number old before)
    · exact Nat.le_of_eq (Option.some.inj (isOwn.symm.trans registered))
  waits waiting member := by
    rcases advances.waiting waiting member with before | ⟨_, registered⟩
    · obtain ⟨flight, found, same⟩ := ordered.waits waiting before
      obtain ⟨kept, persists, isKey⟩ := advances.persists waiting.flight flight found
      exact ⟨kept, persists, isKey.trans same⟩
    · obtain ⟨flight, found, isKey, _⟩ := waits.registered _ _ registered
      exact ⟨flight, found, isKey⟩

theorem startedAt_of_settlementOf {number : Nat} {settlement : Settlement α} {value : Fetched α}
    (after : AfterWrites system.steps system)
    (settled : system.settlementOf number = some settlement)
    (result : settlement.result = some value) : value.origin.startedAt = number := by
  obtain ⟨flight, found, finished⟩ := Option.bind_eq_some_iff.mp settled
  exact (after.settled number flight settlement value found finished result).1

theorem Forward.advances (forward : Forward key least since system)
    (after : AfterWrites system.steps system) (advances : Advances system next)
    (later : system.steps ≤ next.steps) : Forward key least since next := by
  have registered : ∀ number, next.cache.inflight.get? key = some number → least ≤ number := by
    intro number found
    rcases advances.registered key number found with before | rfl
    · exact forward.registered number before
    · exact forward.counted
  refine ⟨Nat.le_trans forward.counted later, ?_, registered, ?_, ?_⟩
  · intro entry found
    rcases advances.stored key entry found with ⟨old, before, same⟩ | ⟨own, _⟩
    · rw [same]
      exact forward.stored old before
    · exact forward.registered _ own
  · intro waiting member isKey began
    rcases advances.waiting waiting member with before | ⟨_, own⟩
    · exact forward.waiting waiting before isKey began
    · rw [isKey] at own
      exact registered _ own
  · intro answer member isKey began
    rcases advances.answered answer member with before | stored | waited
    · exact forward.answered answer before isKey began
    · obtain ⟨entry, found, same⟩ := stored
      rw [isKey] at found
      rw [same]
      exact forward.stored entry found
    · obtain ⟨waiting, inWaiting, own, settlement, settled, result⟩ := waited
      rw [startedAt_of_settlementOf after settled result]
      rw [← own] at isKey began
      exact forward.waiting waiting inWaiting isKey began

/-- From an answer on, its key goes forward. -/
theorem forward_of_source {answer : Answer α} (source : Source system answer)
    (ordered : InOrder system) (after : AfterWrites system.steps system) :
    Forward answer.call.request.key answer.value.origin.startedAt (system.steps + 1) system := by
  have waiting : ∀ waiting ∈ system.waiting,
      waiting.call.request.key = answer.call.request.key →
      system.steps + 1 ≤ waiting.call.begunAt →
      answer.value.origin.startedAt ≤ waiting.flight := by
    intro waiting member _ began
    exact absurd (after.waiting waiting member).1 (Nat.not_lt.mpr (Nat.le_of_succ_le began))
  have answered : ∀ other ∈ answersOf system.log,
      other.call.request.key = answer.call.request.key →
      system.steps + 1 ≤ other.call.begunAt →
      answer.value.origin.startedAt ≤ other.value.origin.startedAt := by
    intro other member _ began
    exact absurd (after.answered other member).1 (Nat.not_lt.mpr (Nat.le_of_succ_le began))
  rcases source with ⟨entry, found, same⟩ | ⟨first, member, own, settlement, settled, result⟩
  · refine ⟨?_, ?_, ?_, waiting, answered⟩
    · rw [same]
      exact Nat.le_of_lt (after.stored _ entry found).1
    · intro other isStored
      cases found.symm.trans isStored
      exact Nat.le_of_eq (congrArg (·.origin.startedAt) same)
    · intro number registered
      rw [same]
      exact ordered.behind _ entry number found registered
  · have origin := startedAt_of_settlementOf after settled result
    obtain ⟨flight, found, isKey⟩ := ordered.waits first member
    obtain ⟨record, inFlights, finished⟩ := Option.bind_eq_some_iff.mp settled
    cases found.symm.trans inFlights
    rw [own] at isKey
    refine ⟨?_, ?_, ?_, waiting, answered⟩
    · rw [origin]
      exact Nat.le_of_lt (after.begun _ flight found)
    · intro entry isStored
      rw [origin]
      rw [← isKey] at isStored
      exact ordered.superseded _ flight entry found (.inr ⟨settlement, finished, _, result⟩) isStored
    · intro number registered
      rw [origin]
      rw [← isKey] at registered
      exact ordered.registered _ flight number found registered

end Advances

section Operations

variable {system next : CacheSystem α} {now : ℤ}

def Flight.core (flight : Flight α) : String × Bool × Option (Settlement α) :=
  (flight.key, flight.cancelled, flight.settled)

theorem Flight.key_of_core {flight old : Flight α} (same : old.core = flight.core) :
    old.key = flight.key :=
  congrArg Prod.fst same

theorem Flight.Superseded.ofCore {flight old : Flight α} (isOver : flight.Superseded)
    (same : old.core = flight.core) : old.Superseded := by
  have cancelled : old.cancelled = flight.cancelled := congrArg (fun core => core.2.1) same
  have settled : old.settled = flight.settled := congrArg (fun core => core.2.2) same
  unfold Flight.Superseded
  rw [cancelled, settled]
  exact isOver

theorem noteRead_core (flights : OrderedMap Nat (Flight α)) (parent : Option Nat)
    (read : String × Nat × Origin) (number : Nat) :
    ((CacheSystem.noteRead flights parent read).get? number).map Flight.core =
      (flights.get? number).map Flight.core := by
  unfold CacheSystem.noteRead
  rw [OrderedMap.get?_mapValues, Option.map_map]
  congr 1
  funext flight
  dsimp only [Function.comp]
  split <;> rfl

theorem core_get? {flights others : OrderedMap Nat (Flight α)} {number : Nat} {flight : Flight α}
    (same : (others.get? number).map Flight.core = (flights.get? number).map Flight.core)
    (found : others.get? number = some flight) :
    ∃ old, flights.get? number = some old ∧ old.core = flight.core := by
  rw [found, Option.map_some] at same
  exact Option.map_eq_some_iff.mp same.symm

/-- A step that begins and ends no fetch. -/
theorem Advances.ofQuiet
    (stored : ∀ key entry, next.cache.store.get? key = some entry →
      ∃ old, system.cache.store.get? key = some old ∧ entry.v = old.v)
    (inflight : next.cache.inflight = system.cache.inflight)
    (flights : ∀ number, (next.flights.get? number).map Flight.core =
      (system.flights.get? number).map Flight.core)
    (waiting : ∀ waiting ∈ next.waiting, waiting ∈ system.waiting ∨
      waiting.call.begunAt = system.steps ∧
        next.cache.inflight.get? waiting.call.request.key = some waiting.flight)
    (answered : ∀ answer ∈ answersOf next.log,
      answer ∈ answersOf system.log ∨ Source system answer) : Advances system next where
  stored key entry found := .inl (stored key entry found)
  registered key number found := .inl (inflight ▸ found)
  begun number flight found := by
    obtain ⟨old, before, same⟩ := core_get? (flights number) found
    exact .inl ⟨old, before, Flight.key_of_core same⟩
  superseded number flight found isOver := by
    obtain ⟨old, before, same⟩ := core_get? (flights number) found
    exact .inl ⟨old, before, Flight.key_of_core same, isOver.ofCore same⟩
  persists number flight found := by
    obtain ⟨kept, after, same⟩ := core_get? (flights number).symm found
    exact ⟨kept, after, Flight.key_of_core same⟩
  waiting := waiting
  answered := answered

/-- A step that begins a fetch for a key that has none. -/
theorem Advances.ofBegin {key : String}
    (unused : ∀ number flight, system.flights.get? number = some flight → number < system.steps)
    (stored : ∀ key entry, next.cache.store.get? key = some entry →
      ∃ old, system.cache.store.get? key = some old ∧ entry.v = old.v)
    (inflight : next.cache.inflight = system.cache.inflight.set key system.steps)
    (flights : ∀ number, (next.flights.get? number).map Flight.core =
      if number = system.steps then some (key, false, none)
      else (system.flights.get? number).map Flight.core)
    (waiting : ∀ waiting ∈ next.waiting, waiting ∈ system.waiting ∨
      waiting.call.begunAt = system.steps ∧
        next.cache.inflight.get? waiting.call.request.key = some waiting.flight)
    (answered : ∀ answer ∈ answersOf next.log,
      answer ∈ answersOf system.log ∨ Source system answer) : Advances system next where
  stored key entry found := .inl (stored key entry found)
  registered other number found := by
    rw [inflight, OrderedMap.get?_set] at found
    split at found
    · exact .inr (Option.some.inj found).symm
    · exact .inl found
  begun number flight found := by
    have same := flights number
    rw [found, Option.map_some] at same
    split at same
    · next own =>
        have isKey : flight.key = key := congrArg Prod.fst (Option.some.inj same)
        rw [inflight, isKey, OrderedMap.get?_set_self, own]
        exact .inr ⟨rfl, rfl⟩
    · obtain ⟨old, before, core⟩ := Option.map_eq_some_iff.mp same.symm
      exact .inl ⟨old, before, Flight.key_of_core core⟩
  superseded number flight found isOver := by
    have same := flights number
    rw [found, Option.map_some] at same
    split at same
    · have core : flight.core = (key, false, none) := Option.some.inj same
      rcases isOver with cancelled | ⟨settlement, settled, _⟩
      · cases cancelled.symm.trans (congrArg (fun core => core.2.1) core)
      · cases settled.symm.trans (congrArg (fun core => core.2.2) core)
    · obtain ⟨old, before, core⟩ := Option.map_eq_some_iff.mp same.symm
      exact .inl ⟨old, before, Flight.key_of_core core, isOver.ofCore core⟩
  persists number flight found := by
    have same := flights number
    rw [if_neg (Nat.ne_of_lt (unused number flight found)), found, Option.map_some] at same
    obtain ⟨kept, after, core⟩ := Option.map_eq_some_iff.mp same
    exact ⟨kept, after, Flight.key_of_core core⟩
  waiting := waiting
  answered := answered

theorem mem_answersOf_append_answered {log : List (CacheEvent α)} {answer other : Answer α}
    (member : other ∈ answersOf (log ++ [.answered answer])) :
    other ∈ answersOf log ∨ other = answer := by
  unfold answersOf at member ⊢
  rw [List.filterMap_append] at member
  rcases List.mem_append.mp member with before | added
  · exact .inl before
  · exact .inr (by simpa using added)

theorem value_of_remember {cache : Cache (Fetched α)} {key other : String}
    {last entry found : Entry (Fetched α)}
    (after : (cache.remember key entry).store.get? other = some found)
    (inStore : cache.store.get? key = some last) (same : entry.v = last.v) :
    ∃ old, cache.store.get? other = some old ∧ found.v = old.v := by
  rcases Cache.remember_get? after with ⟨rfl, rfl⟩ | ⟨_, before⟩
  · exact ⟨last, inStore, same⟩
  · exact ⟨found, before, rfl⟩

/-- Answering changes the fetches in what they were given only. -/
theorem Advances.answer (advances : Advances system next) {answer : Answer α}
    (source : Source system answer) :
    Advances system (next.answer answer) where
  stored := advances.stored
  registered := advances.registered
  begun number flight found := by
    obtain ⟨old, before, same⟩ := core_get? (noteRead_core _ _ _ number) found
    have begun := advances.begun number old before
    rw [Flight.key_of_core same] at begun
    exact begun
  superseded number flight found isOver := by
    obtain ⟨old, before, same⟩ := core_get? (noteRead_core _ _ _ number) found
    have superseded := advances.superseded number old before (isOver.ofCore same)
    rw [Flight.key_of_core same] at superseded
    exact superseded
  persists number flight found := by
    obtain ⟨kept, inNext, isKey⟩ := advances.persists number flight found
    obtain ⟨noted, after, same⟩ := core_get? (noteRead_core _ _ _ number).symm inNext
    exact ⟨noted, after, (Flight.key_of_core same).trans isKey⟩
  waiting := advances.waiting
  answered other member := by
    rcases mem_answersOf_append_answered member with before | rfl
    · exact advances.answered other before
    · exact .inr source

/-- Another cache with the same registrations and no new value. -/
theorem Advances.ofCache {cache : Cache (Fetched α)}
    (stored : ∀ key entry, cache.store.get? key = some entry →
      ∃ old, system.cache.store.get? key = some old ∧ entry.v = old.v)
    (inflight : cache.inflight = system.cache.inflight) :
    Advances system { system with cache } :=
  .ofQuiet stored inflight (fun _ => rfl) (fun _ member => .inl member) fun _ member => .inl member

theorem begin_core {flights : OrderedMap Nat (Flight α)} {key : String} {pin : Bool}
    {number begun : Nat} :
    ((flights.set begun { key, pin, cancelled := false, reads := [], settled := none }).get?
        number).map Flight.core =
      if number = begun then some (key, false, none)
      else (flights.get? number).map Flight.core := by
  rw [OrderedMap.get?_set]
  split <;> rfl

theorem Advances.refreshBehind {request : Request} {entry : Entry (Fetched α)}
    (unused : ∀ number flight, system.flights.get? number = some flight → number < system.steps)
    (inStore : system.cache.store.get? request.key = some entry) :
    Advances system (system.refreshBehind request entry) := by
  unfold CacheSystem.refreshBehind
  dsimp only
  split
  · refine .ofBegin unused ?_ ?_ (fun _ => begin_core) (fun _ member => .inl member)
      fun _ member => .inl member
    · exact fun key other after => value_of_remember after inStore rfl
    · dsimp only [CacheSystem.begin]
      rw [Cache.remember_inflight]
  · exact .ofCache (fun key other after => value_of_remember after inStore rfl)
      Cache.remember_inflight

theorem Advances.await {call : Call α} (began : call.begunAt = system.steps)
    (unused : ∀ number flight, system.flights.get? number = some flight → number < system.steps) :
    Advances system (system.await call) := by
  have kept : ∀ key entry, system.cache.store.get? key = some entry →
      ∃ old, system.cache.store.get? key = some old ∧ entry.v = old.v :=
    fun key entry found => ⟨entry, found, rfl⟩
  unfold CacheSystem.await
  cases own : system.cache.inflight.get? call.request.key with
  | some flight =>
      refine .ofQuiet kept rfl (fun _ => rfl) ?_ fun _ member => .inl member
      intro waiting member
      rcases List.mem_append.mp member with before | added
      · exact .inl before
      · obtain rfl := List.mem_singleton.mp added
        exact .inr ⟨began, own⟩
  | none =>
      refine .ofBegin unused kept rfl (fun _ => begin_core) ?_ fun _ member => .inl member
      intro waiting member
      rcases List.mem_append.mp member with before | added
      · exact .inl before
      · obtain rfl := List.mem_singleton.mp added
        exact .inr ⟨began, OrderedMap.get?_set_self _ _ _⟩

/-- Ended holds are dropped first; no value and no registration goes with them. -/
theorem Advances.ofOpened (opened : Advances { system with cache := system.cache.dropEnded now } next) :
    Advances system next where
  stored := opened.stored
  registered := opened.registered
  begun := opened.begun
  superseded := opened.superseded
  persists := opened.persists
  waiting := opened.waiting
  answered := opened.answered

theorem Advances.call (unused : ∀ number flight, system.flights.get? number = some flight →
      number < system.steps) (request : Request) (parent : Option Nat) :
    Advances system (system.call now request parent) := by
  have opened : Advances { system with cache := system.cache.dropEnded now }
      (system.call now request parent) → Advances system (system.call now request parent) :=
    Advances.ofOpened
  apply opened
  unfold CacheSystem.call
  dsimp only
  split
  · next entry found =>
      have inStore := (Cache.lookup_fresh found).1
      refine Advances.answer (.ofCache ?_ Cache.remember_inflight) ?_
      · exact fun key other after => value_of_remember after inStore rfl
      · exact .inl ⟨entry, inStore, rfl⟩
  · next entry found =>
      have inStore := (Cache.lookup_stale found).1
      refine Advances.answer ?_ ?_
      · exact .refreshBehind unused inStore
      · exact .inl ⟨entry, inStore, rfl⟩
  · exact .await rfl unused

theorem Advances.refl (system : CacheSystem α) : Advances system system :=
  .ofCache (fun _ entry found => ⟨entry, found, rfl⟩) rfl

theorem Advances.resume (system : CacheSystem α) (call : Nat) :
    Advances system (system.resume now call) := by
  have left : Advances system { system with
      waiting := system.waiting.filter fun other => other.call.begunAt ≠ call } :=
    .ofQuiet (fun _ entry found => ⟨entry, found, rfl⟩) rfl (fun _ => rfl)
      (fun _ member => .inl (List.mem_filter.mp member).1) fun _ member => .inl member
  unfold CacheSystem.resume
  cases found : system.waiting.find? fun waiting => waiting.call.begunAt = call with
  | none => exact .refl system
  | some first =>
      have member := List.mem_of_find?_eq_some found
      dsimp only
      cases settled : (system.flights.get? first.flight).bind (·.settled) with
      | none => exact .refl system
      | some settlement =>
          dsimp only
          cases result : settlement.result with
          | some value =>
              exact left.answer (.inr ⟨first, member, rfl, settlement, settled, result⟩)
          | none =>
              dsimp only
              split
              · refine { left with answered := fun answer inLog => .inl ?_ }
                have same : answersOf (system.log ++ [.threw first.call]) = answersOf system.log := by
                  unfold answersOf
                  rw [List.filterMap_append]
                  exact List.append_nil _
                rw [← same]
                exact inLog
              · next last isLast =>
                  have inStore : system.cache.store.get? first.call.request.key = some last := by
                    split at isLast
                    · exact isLast
                    · cases isLast
                  refine Advances.answer ?_ ?_
                  · exact .ofQuiet (fun key other after => value_of_remember after inStore rfl)
                      Cache.remember_inflight (fun _ => rfl)
                      (fun _ member => .inl (List.mem_filter.mp member).1) fun _ member => .inl member
                  · exact .inl ⟨last, inStore, rfl⟩

theorem startedAt_of_result {outcome : Option α} {number : Nat}
    {reads : List (String × Nat × Origin)} {value : Fetched α}
    (result : (outcome.map fun content => (⟨content, .fetch number reads⟩ : Fetched α)) =
      some value) : value.origin.startedAt = number := by
  obtain ⟨content, _, same⟩ := Option.map_eq_some_iff.mp result
  rw [← same]
  rfl

/-- Only the fetch registered under its key stores a value when it settles. -/
theorem Advances.settle (approxBytes : α → Nat) (after : AfterWrites system.steps system)
    (number : Nat) (outcome : Option α) :
    Advances system (system.settle approxBytes now number outcome) := by
  unfold CacheSystem.settle
  cases found : system.flights.get? number with
  | none => exact .refl system
  | some flight =>
      dsimp only
      split
      · exact .refl system
      · next running =>
          have unsettled : flight.settled = none := by simpa using running
          refine ⟨?_, ?_, ?_, ?_, ?_, fun _ member => .inl member, fun _ member => .inl member⟩
          · intro key entry inStore
            dsimp only at inStore ⊢
            rw [deregister_store] at inStore
            rcases keepResult_get? inStore with ⟨rfl, uncancelled, result⟩ | ⟨before, _⟩
            · have own := after.running number flight found uncancelled unsettled
              rw [startedAt_of_result result]
              refine .inr ⟨own, ?_⟩
              unfold CacheSystem.deregister
              rw [keepResult_inflight, if_pos own]
              exact OrderedMap.get?_delete_self _ _
            · exact .inl ⟨entry, before, rfl⟩
          · intro key other registered
            have before := (deregister_get?.mp registered).1
            rw [keepResult_inflight] at before
            exact .inl before
          · intro other changed inFlights
            dsimp only at inFlights
            rw [OrderedMap.get?_set] at inFlights
            split at inFlights
            · next same =>
                obtain rfl := Option.some.inj inFlights
                exact .inl ⟨flight, same ▸ found, rfl⟩
            · exact .inl ⟨changed, inFlights, rfl⟩
          · intro other changed inFlights isOver
            dsimp only at inFlights
            rw [OrderedMap.get?_set] at inFlights
            split at inFlights
            · next same =>
                obtain rfl := Option.some.inj inFlights
                cases cancelled : flight.cancelled with
                | true => exact .inl ⟨flight, same ▸ found, rfl, .inl cancelled⟩
                | false =>
                    right
                    intro entry inStore
                    dsimp only at inStore
                    rw [deregister_store] at inStore
                    rcases isOver with isCancelled | ⟨settlement, settled, value, result⟩
                    · cases cancelled.symm.trans isCancelled
                    · obtain rfl := Option.some.inj settled
                      rcases keepResult_get? inStore with ⟨_, _, isEntry⟩ | ⟨_, unkept⟩
                      · exact (startedAt_of_result isEntry).trans same.symm
                      · rcases unkept rfl with absent | isCancelled
                        · cases absent.symm.trans result
                        · cases cancelled.symm.trans isCancelled
            · exact .inl ⟨changed, inFlights, rfl, isOver⟩
          · intro other kept before
            dsimp only
            rw [OrderedMap.get?_set]
            split
            · next same =>
                rw [same, found] at before
                obtain rfl := Option.some.inj before
                exact ⟨_, rfl, rfl⟩
            · exact ⟨kept, before, rfl⟩

/-- What invalidations leave: nothing is added, and nothing stays stored under the key of a
fetch they cancel. -/
structure Sweeps (system next : CacheSystem α) : Prop where
  stored : ∀ key entry, next.cache.store.get? key = some entry →
    system.cache.store.get? key = some entry
  registered : ∀ key number, next.cache.inflight.get? key = some number →
    system.cache.inflight.get? key = some number
  flights : ∀ number flight, next.flights.get? number = some flight →
    ∃ old, system.flights.get? number = some old ∧ old.key = flight.key ∧
      old.settled = flight.settled ∧
        (old.cancelled = flight.cancelled ∨ next.cache.store.get? flight.key = none)
  persists : ∀ number flight, system.flights.get? number = some flight →
    ∃ kept, next.flights.get? number = some kept ∧ kept.key = flight.key
  waiting : next.waiting = system.waiting
  log : next.log = system.log

theorem Sweeps.refl (system : CacheSystem α) : Sweeps system system where
  stored _ _ found := found
  registered _ _ found := found
  flights _ flight found := ⟨flight, found, rfl, rfl, .inl rfl⟩
  persists _ flight found := ⟨flight, found, rfl⟩
  waiting := rfl
  log := rfl

theorem Sweeps.trans {last : CacheSystem α} (first : Sweeps system next)
    (second : Sweeps next last) : Sweeps system last where
  stored key entry found := first.stored key entry (second.stored key entry found)
  registered key number found := first.registered key number (second.registered key number found)
  flights number flight found := by
    obtain ⟨mid, between, sameKey, sameSettled, cancelled⟩ := second.flights number flight found
    obtain ⟨old, before, isKey, isSettled, wasCancelled⟩ := first.flights number mid between
    refine ⟨old, before, isKey.trans sameKey, isSettled.trans sameSettled, ?_⟩
    rcases cancelled with same | absent
    · rcases wasCancelled with wasSame | absent
      · exact .inl (wasSame.trans same)
      · right
        cases inLast : last.cache.store.get? flight.key with
        | none => rfl
        | some entry =>
            rw [sameKey] at absent
            cases absent.symm.trans (second.stored _ entry inLast)
    · exact .inr absent
  persists number flight found := by
    obtain ⟨mid, between, sameKey⟩ := first.persists number flight found
    obtain ⟨kept, after, isKey⟩ := second.persists number mid between
    exact ⟨kept, after, isKey.trans sameKey⟩
  waiting := second.waiting.trans first.waiting
  log := second.log.trans first.log

theorem Sweeps.invalidate (waits : Waits system) (start : String) (holdMs : Option ℤ) :
    Sweeps system (system.invalidate now start holdMs) where
  stored _ _ found := (Cache.invalidate_get? found).2
  registered _ _ found := (Cache.invalidate_inflight_get?.mp found).2
  flights number flight found := by
    unfold CacheSystem.invalidate at found
    dsimp only at found
    rw [OrderedMap.get?_mapValues] at found
    obtain ⟨old, before, rfl⟩ := Option.map_eq_some_iff.mp found
    refine ⟨old, before, ?_⟩
    split
    · next cancelled =>
        obtain ⟨key, registered, matched⟩ := Cache.mem_cancelledBy.mp cancelled
        obtain ⟨own, inFlights, isKey, _⟩ := waits.registered key number registered
        cases before.symm.trans inFlights
        refine ⟨rfl, rfl, .inr ?_⟩
        dsimp only
        cases inStore : (system.invalidate now start holdMs).cache.store.get? old.key with
        | none => rfl
        | some entry =>
            rw [isKey] at inStore
            cases matched.symm.trans (Cache.invalidate_get? inStore).1
    · exact ⟨rfl, rfl, .inl rfl⟩
  persists number flight found := by
    unfold CacheSystem.invalidate
    dsimp only
    rw [OrderedMap.get?_mapValues, found]
    refine ⟨_, rfl, ?_⟩
    split <;> rfl
  waiting := rfl
  log := rfl

theorem Sweeps.invalidateAll (waits : Waits system) (starts : List String) :
    Sweeps system (system.invalidateAll now starts) := by
  have swept : Sweeps system (system.invalidateAll now starts) ∧
      Waits (system.invalidateAll now starts) :=
    List.foldlRecOn (motive := fun left : CacheSystem α => Sweeps system left ∧ Waits left)
      starts _ ⟨.refl system, waits⟩ fun left kept start _ =>
        ⟨kept.1.trans (.invalidate kept.2 start _), kept.2.invalidate start _⟩
  exact swept.1

theorem Advances.ofSweeps (sweeps : Sweeps system next) : Advances system next where
  stored key entry found := .inl ⟨entry, sweeps.stored key entry found, rfl⟩
  registered key number found := .inl (sweeps.registered key number found)
  begun number flight found := by
    obtain ⟨old, before, same, _⟩ := sweeps.flights number flight found
    exact .inl ⟨old, before, same⟩
  superseded number flight found isOver := by
    obtain ⟨old, before, same, settled, cancelled | absent⟩ := sweeps.flights number flight found
    · refine .inl ⟨old, before, same, ?_⟩
      unfold Flight.Superseded
      rw [settled, cancelled]
      exact isOver
    · right
      intro entry found
      rw [absent] at found
      cases found
  persists := sweeps.persists
  waiting waiting member := .inl (sweeps.waiting ▸ member)
  answered answer member := .inl (sweeps.log ▸ member)

theorem Advances.step (approxBytes : α → Nat) (after : AfterWrites system.steps system)
    (waits : Waits system) (turn : ℤ × CacheAction α) :
    Advances system (system.step approxBytes turn) := by
  have acted : Advances system (system.act approxBytes turn) := by
    obtain ⟨now, action⟩ := turn
    cases action with
    | call request parent => exact .call after.begun request parent
    | settle flight outcome => exact .settle approxBytes after flight outcome
    | resume call => exact .resume system call
    | invalidate start holdMs => exact .ofSweeps (.invalidate waits start holdMs)
    | writeBack =>
        have swept : Advances system (system.invalidateAll now STALE_AFTER_WRITE) :=
          .ofSweeps (.invalidateAll waits STALE_AFTER_WRITE)
        unfold CacheSystem.act CacheSystem.writeBack
        dsimp only
        generalize system.invalidateAll now STALE_AFTER_WRITE = left at swept ⊢
        refine { swept with answered := fun answer member => ?_ }
        have same : answersOf (left.log ++ [.wroteBack left.steps]) = answersOf left.log := by
          unfold answersOf
          rw [List.filterMap_append]
          exact List.append_nil _
        rw [same] at member
        exact swept.answered answer member
  exact ⟨acted.stored, acted.registered, acted.begun, acted.superseded, acted.persists,
    acted.waiting, acted.answered⟩

end Operations

section Run

variable {approxBytes : α → Nat} {system : CacheSystem α}

structure Sequenced (system : CacheSystem α) : Prop where
  after : AfterWrites system.steps system
  waits : Waits system
  order : InOrder system
  forward : ∀ answer ∈ answersOf system.log, ∃ since ≤ system.steps,
    Forward answer.call.request.key answer.value.origin.startedAt since system

theorem Sequenced.idle : Sequenced (CacheSystem.idle : CacheSystem α) where
  after := .idle
  waits := .idle
  order := .idle
  forward _ member := nomatch member

theorem Forward.step {key : String} {least since : Nat} (forward : Forward key least since system)
    (sequenced : Sequenced system) (turn : ℤ × CacheAction α) :
    Forward key least since (system.step approxBytes turn) :=
  forward.advances sequenced.after
    (.step approxBytes sequenced.after sequenced.waits turn) (Nat.le_succ _)

theorem Sequenced.step (sequenced : Sequenced system) (turn : ℤ × CacheAction α) :
    Sequenced (system.step approxBytes turn) where
  after := sequenced.after.step approxBytes turn
  waits := sequenced.waits.step sequenced.after turn
  order := sequenced.order.advances sequenced.after
    (.step approxBytes sequenced.after sequenced.waits turn)
    (sequenced.waits.step sequenced.after turn)
  forward answer member := by
    have advances := Advances.step approxBytes sequenced.after sequenced.waits turn
    rcases advances.answered answer member with before | source
    · obtain ⟨since, past, forward⟩ := sequenced.forward answer before
      exact ⟨since, Nat.le_succ_of_le past, forward.step sequenced turn⟩
    · exact ⟨system.steps + 1, Nat.le_refl _,
        (forward_of_source source sequenced.order sequenced.after).step sequenced turn⟩

theorem Sequenced.run (approxBytes : α → Nat) (turns : List (ℤ × CacheAction α)) :
    Sequenced (CacheSystem.run approxBytes turns) :=
  List.foldlRecOn (motive := Sequenced) turns _ .idle fun _ sequenced turn _ => sequenced.step turn

theorem Forward.foldl {key : String} {least since : Nat} (forward : Forward key least since system)
    (sequenced : Sequenced system) (turns : List (ℤ × CacheAction α)) :
    Forward key least since (turns.foldl (CacheSystem.step approxBytes) system) := by
  induction turns generalizing system with
  | nil => exact forward
  | cons turn rest ih => exact ih (forward.step sequenced turn) (sequenced.step turn)

/-- A call that begins after an answer was given under its key gets no older value. -/
theorem answers_go_forward (approxBytes : α → Nat) (turns rest : List (ℤ × CacheAction α))
    (given later : Answer α)
    (first : given ∈ answersOf (CacheSystem.run approxBytes turns).log)
    (second : later ∈ answersOf (CacheSystem.run approxBytes (turns ++ rest)).log)
    (same : later.call.request.key = given.call.request.key)
    (began : (CacheSystem.run approxBytes turns).steps ≤ later.call.begunAt) :
    given.value.origin.startedAt ≤ later.value.origin.startedAt := by
  have sequenced := Sequenced.run approxBytes turns
  obtain ⟨since, past, forward⟩ := sequenced.forward given first
  unfold CacheSystem.run at second
  rw [List.foldl_append] at second
  exact (forward.foldl sequenced rest).answered later second same (Nat.le_trans past began)

end Run

end ZabbixPortal.Services
