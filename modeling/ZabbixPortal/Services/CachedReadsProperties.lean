import ZabbixPortal.Core.CacheProperties
import ZabbixPortal.Services.CachedReads

/-! After a write-back no answer and no stored value comes from before it. -/

set_option autoImplicit false

namespace ZabbixPortal.Services

open Foundation Core

/-- Nothing of the value is from before step `n`: its fetch began at or after it, so did
the reads of the cache inside that fetch, and the answers those reads were given under
keys a write-back invalidates are from after it in the same way. -/
inductive Origin.FreshSince (n : Nat) : Origin → Prop where
  | fetch {startedAt : Nat} {reads : List (String × Nat × Origin)} (began : n ≤ startedAt)
      (readsBegan : ∀ read ∈ reads, n ≤ read.2.1)
      (nested : ∀ read ∈ reads, isStaleAfterWrite read.1 = true ∨ n ≤ read.2.2.startedAt →
        FreshSince n read.2.2) :
      FreshSince n (.fetch startedAt reads)

variable {α : Type}

def writeBacks (log : List (CacheEvent α)) : List Nat :=
  log.filterMap fun
    | .wroteBack step => some step
    | _ => none

def answersOf (log : List (CacheEvent α)) : List (Answer α) :=
  log.filterMap fun
    | .answered answer => some answer
    | _ => none

def Known (writes : List Nat) (origin : Origin) : Prop :=
  ∀ n ∈ writes, n ≤ origin.startedAt → origin.FreshSince n

/-- What holds of a cache in which every number given out so far is below `limit`. -/
structure AfterWrites (limit : Nat) (system : CacheSystem α) : Prop where
  past : ∀ n ∈ writeBacks system.log, n < limit
  begun : ∀ number flight, system.flights.get? number = some flight → number < limit
  /-- No fetch from before a write-back is still registered under its keys. -/
  registered : ∀ n ∈ writeBacks system.log, ∀ key number, isStaleAfterWrite key = true →
    system.cache.inflight.get? key = some number → n ≤ number
  /-- A running fetch that was not cancelled is its key's own. -/
  running : ∀ number flight, system.flights.get? number = some flight →
    flight.cancelled = false → flight.settled = none →
    system.cache.inflight.get? flight.key = some number
  stored : ∀ key entry, system.cache.store.get? key = some entry →
    entry.v.origin.startedAt < limit ∧ Known (writeBacks system.log) entry.v.origin ∧
      ∀ n ∈ writeBacks system.log, isStaleAfterWrite key = true → n ≤ entry.v.origin.startedAt
  settled : ∀ number flight settlement value, system.flights.get? number = some flight →
    flight.settled = some settlement → settlement.result = some value →
    value.origin.startedAt = number ∧ Known (writeBacks system.log) value.origin
  reads : ∀ number flight, system.flights.get? number = some flight →
    ∀ read ∈ flight.reads, ∀ n ∈ writeBacks system.log, n ≤ number →
      n ≤ read.2.1 ∧
        (isStaleAfterWrite read.1 = true ∨ n ≤ read.2.2.startedAt → read.2.2.FreshSince n)
  waiting : ∀ waiting ∈ system.waiting, waiting.call.begunAt < limit ∧
    (∀ parent, waiting.call.parent = some parent → parent ≤ waiting.call.begunAt) ∧
    ∀ n ∈ writeBacks system.log, isStaleAfterWrite waiting.call.request.key = true →
      n ≤ waiting.call.begunAt → n ≤ waiting.flight
  answered : ∀ answer ∈ answersOf system.log, answer.call.begunAt < limit ∧
    ∀ n ∈ writeBacks system.log, isStaleAfterWrite answer.call.request.key = true →
      n ≤ answer.call.begunAt → answer.value.origin.FreshSince n

section Steps

variable {system : CacheSystem α} {limit : Nat} {now : ℤ}

theorem AfterWrites.idle : AfterWrites 0 (CacheSystem.idle : CacheSystem α) where
  past _ member := nomatch member
  begun _ _ found := nomatch found
  registered _ member := nomatch member
  running _ _ found := nomatch found
  stored _ _ found := nomatch found
  settled _ _ _ _ found := nomatch found
  reads _ _ found := nomatch found
  waiting _ member := nomatch member
  answered _ member := nomatch member

theorem AfterWrites.later (after : AfterWrites limit system) :
    AfterWrites (limit + 1) system where
  past n member := Nat.lt_succ_of_lt (after.past n member)
  begun number flight found := Nat.lt_succ_of_lt (after.begun number flight found)
  registered := after.registered
  running := after.running
  stored key entry found :=
    ⟨Nat.lt_succ_of_lt (after.stored key entry found).1, (after.stored key entry found).2⟩
  settled := after.settled
  reads := after.reads
  waiting waiting member :=
    ⟨Nat.lt_succ_of_lt (after.waiting waiting member).1, (after.waiting waiting member).2⟩
  answered answer member :=
    ⟨Nat.lt_succ_of_lt (after.answered answer member).1, (after.answered answer member).2⟩

/-- Another cache with the same registrations and no value that was not stored under the
same key before. -/
theorem AfterWrites.ofCache (after : AfterWrites limit system) {cache : Cache (Fetched α)}
    (inflight : cache.inflight = system.cache.inflight)
    (stored : ∀ key entry, cache.store.get? key = some entry →
      ∃ old, system.cache.store.get? key = some old ∧ entry.v = old.v) :
    AfterWrites limit { system with cache := cache } where
  past := after.past
  begun := after.begun
  registered := by
    dsimp only
    rw [inflight]
    exact after.registered
  running := by
    dsimp only
    rw [inflight]
    exact after.running
  stored key entry found := by
    obtain ⟨old, before, same⟩ := stored key entry found
    rw [same]
    exact after.stored key old before
  settled := after.settled
  reads := after.reads
  waiting := after.waiting
  answered := after.answered

/-- Remembering a value that is stored under the key. -/
theorem AfterWrites.remember (after : AfterWrites limit system) {key : String}
    {old entry : Entry (Fetched α)} (inStore : system.cache.store.get? key = some old)
    (same : entry.v = old.v) :
    AfterWrites limit { system with cache := system.cache.remember key entry } := by
  refine after.ofCache Cache.remember_inflight fun other found inRemembered => ?_
  cases Cache.remember_get? inRemembered with
  | inl added => exact ⟨old, added.1 ▸ inStore, (congrArg Entry.v added.2).trans same⟩
  | inr before => exact ⟨found, before.2, rfl⟩

/-- A fetch that begins after every write-back, for a key that has none. -/
theorem AfterWrites.begin (after : AfterWrites limit system) {key : String} (pin : Bool)
    (free : system.cache.inflight.get? key = none) (counted : system.steps < limit)
    (past : ∀ n ∈ writeBacks system.log, n ≤ system.steps) :
    AfterWrites limit (system.begin key pin) where
  past := after.past
  begun number flight found := by
    simp only [CacheSystem.begin, OrderedMap.get?_set] at found
    split at found
    · next same => exact same ▸ counted
    · exact after.begun number flight found
  registered n member other number stale found := by
    simp only [CacheSystem.begin, OrderedMap.get?_set] at found
    split at found
    · exact Option.some.inj found ▸ past n member
    · exact after.registered n member other number stale found
  running number flight found uncancelled unsettled := by
    simp only [CacheSystem.begin, OrderedMap.get?_set] at found ⊢
    split at found
    · next same =>
        obtain rfl := Option.some.inj found
        rw [if_pos rfl, same]
    · have registered := after.running number flight found uncancelled unsettled
      rw [if_neg, registered]
      intro same
      rw [same, free] at registered
      cases registered
  stored := after.stored
  settled number flight settlement value found isSettled := by
    simp only [CacheSystem.begin, OrderedMap.get?_set] at found
    split at found
    · obtain rfl := Option.some.inj found
      cases isSettled
    · exact after.settled number flight settlement value found isSettled
  reads number flight found := by
    simp only [CacheSystem.begin, OrderedMap.get?_set] at found
    split at found
    · obtain rfl := Option.some.inj found
      intro _ member
      cases member
    · exact after.reads number flight found
  waiting := after.waiting
  answered := after.answered

structure GoodAnswer (limit : Nat) (log : List (CacheEvent α)) (answer : Answer α) : Prop where
  counted : answer.call.begunAt < limit
  parent : ∀ parent, answer.call.parent = some parent → parent ≤ answer.call.begunAt
  known : Known (writeBacks log) answer.value.origin
  recent : ∀ n ∈ writeBacks log, isStaleAfterWrite answer.call.request.key = true →
    n ≤ answer.call.begunAt → n ≤ answer.value.origin.startedAt

section NoteRead

variable {flights : OrderedMap Nat (Flight α)} {parent : Option Nat}
  {read : String × Nat × Origin} {number : Nat} {flight : Flight α}

/-- Taking note of an answer changes only the reads of one running fetch. -/
theorem noteRead_get? (found : (CacheSystem.noteRead flights parent read).get? number =
      some flight) :
    ∃ old, flights.get? number = some old ∧ flight.key = old.key ∧
      flight.cancelled = old.cancelled ∧ flight.settled = old.settled ∧
      ∀ noted ∈ flight.reads, noted ∈ old.reads ∨ (noted = read ∧ parent = some number) := by
  rw [CacheSystem.noteRead, OrderedMap.get?_mapValues] at found
  obtain ⟨old, before, rfl⟩ := Option.map_eq_some_iff.mp found
  refine ⟨old, before, ?_⟩
  split
  · next asked =>
      refine ⟨rfl, rfl, rfl, fun noted member => ?_⟩
      cases List.mem_append.mp member with
      | inl earlier => exact .inl earlier
      | inr added => exact .inr ⟨List.mem_singleton.mp added, asked.1⟩
  · exact ⟨rfl, rfl, rfl, fun _ member => .inl member⟩

theorem noteRead_of_get? (found : flights.get? number = some flight) :
    ∃ noted, (CacheSystem.noteRead flights parent read).get? number = some noted ∧
      noted.key = flight.key ∧ noted.settled = flight.settled := by
  rw [CacheSystem.noteRead, OrderedMap.get?_mapValues, found]
  refine ⟨_, rfl, ?_⟩
  dsimp only
  split <;> exact ⟨rfl, rfl⟩

end NoteRead

theorem AfterWrites.answer (after : AfterWrites limit system) {answer : Answer α}
    (good : GoodAnswer limit system.log answer) : AfterWrites limit (system.answer answer) := by
  have sameWrites : writeBacks (system.answer answer).log = writeBacks system.log := by
    rw [CacheSystem.answer, writeBacks, List.filterMap_append]
    exact List.append_nil _
  have fresh : ∀ n ∈ writeBacks system.log, isStaleAfterWrite answer.call.request.key = true →
      n ≤ answer.call.begunAt → answer.value.origin.FreshSince n :=
    fun n member stale began => good.known n member (good.recent n member stale began)
  constructor
  case past => exact sameWrites.symm ▸ after.past
  case begun =>
    intro number flight found
    obtain ⟨old, before, _⟩ := noteRead_get? found
    exact after.begun number old before
  case registered => exact sameWrites.symm ▸ after.registered
  case running =>
    intro number flight found uncancelled unsettled
    obtain ⟨old, before, key, cancelled, settled, _⟩ := noteRead_get? found
    rw [key]
    exact after.running number old before (cancelled ▸ uncancelled) (settled ▸ unsettled)
  case stored => exact sameWrites.symm ▸ after.stored
  case settled =>
    intro number flight settlement value found isSettled result
    obtain ⟨old, before, _, _, settled, _⟩ := noteRead_get? found
    rw [sameWrites]
    exact after.settled number old settlement value before (settled ▸ isSettled) result
  case reads =>
    intro number flight found read member n write began
    rw [sameWrites] at write
    obtain ⟨old, before, _, _, _, noted⟩ := noteRead_get? found
    cases noted read member with
    | inl earlier => exact after.reads number old before read earlier n write began
    | inr own =>
        obtain ⟨rfl, asked⟩ := own
        have reached := Nat.le_trans began (good.parent number asked)
        refine ⟨reached, fun shown => ?_⟩
        cases shown with
        | inl stale => exact fresh n write stale reached
        | inr later => exact good.known n write later
  case waiting => exact sameWrites.symm ▸ after.waiting
  case answered =>
    intro given member
    rw [sameWrites]
    rw [CacheSystem.answer, answersOf, List.filterMap_append] at member
    cases List.mem_append.mp member with
    | inl before => exact after.answered given before
    | inr added =>
        obtain rfl : given = answer := by simpa using added
        exact ⟨good.counted, fresh⟩

/-- A value that a running fetch would settle with is from after every write-back its
fetch began after. -/
theorem AfterWrites.known_result (after : AfterWrites limit system) {number : Nat}
    {flight : Flight α} (found : system.flights.get? number = some flight) :
    Known (writeBacks system.log) (.fetch number flight.reads) := fun n write began =>
  .fetch began (fun read member => (after.reads number flight found read member n write began).1)
    fun read member => (after.reads number flight found read member n write began).2

theorem deregister_store (cache : Cache (Fetched α)) (key : String) (number : Nat) :
    (CacheSystem.deregister cache key number).store = cache.store := by
  unfold CacheSystem.deregister
  split <;> rfl

theorem deregister_get? {cache : Cache (Fetched α)} {key other : String} {number found : Nat} :
    (CacheSystem.deregister cache key number).inflight.get? other = some found ↔
      cache.inflight.get? other = some found ∧ (other = key → found ≠ number) := by
  unfold CacheSystem.deregister
  by_cases own : cache.inflight.get? key = some number
  · rw [if_pos own, OrderedMap.get?_delete]
    split
    · next same => simp [same, own, eq_comm]
    · next different => simp [different]
  · rw [if_neg own]
    constructor
    · intro registered
      refine ⟨registered, ?_⟩
      rintro rfl rfl
      exact own registered
    · exact And.left

theorem keepResult_inflight {approxBytes : α → Nat} {cache : Cache (Fetched α)}
    {flight : Flight α} {result : Option (Fetched α)} :
    (CacheSystem.keepResult approxBytes cache flight result now).inflight = cache.inflight := by
  unfold CacheSystem.keepResult
  split
  · rfl
  · split
    · rfl
    · exact Cache.keep_inflight

theorem keepResult_get? {approxBytes : α → Nat} {cache : Cache (Fetched α)} {flight : Flight α}
    {result : Option (Fetched α)} {key : String} {entry : Entry (Fetched α)}
    (found : (CacheSystem.keepResult approxBytes cache flight result now).store.get? key =
      some entry) :
    (key = flight.key ∧ flight.cancelled = false ∧ result = some entry.v) ∨
      (cache.store.get? key = some entry ∧
        (key = flight.key → result = none ∨ flight.cancelled = true)) := by
  unfold CacheSystem.keepResult at found
  cases result with
  | none => exact .inr ⟨found, fun _ => .inl rfl⟩
  | some value =>
      dsimp only at found
      split at found
      · next cancelled => exact .inr ⟨found, fun _ => .inr cancelled⟩
      · next uncancelled =>
          cases Cache.keep_get? found with
          | inl added =>
              exact .inl ⟨added.1, by simpa using uncancelled, congrArg some added.2.symm⟩
          | inr before => exact .inr ⟨before.2, fun same => absurd same before.1⟩

/-- A fetch that settles stores its value only while it is its key's own, and such a
fetch began after every write-back. -/
theorem AfterWrites.settle (approxBytes : α → Nat) (after : AfterWrites limit system)
    (number : Nat) (outcome : Option α) :
    AfterWrites limit (system.settle approxBytes now number outcome) := by
  unfold CacheSystem.settle
  cases found : system.flights.get? number with
  | none => exact after
  | some flight =>
      dsimp only
      split
      · exact after
      · next unsettled =>
          have pending : flight.settled = none := by simpa using unsettled
          have counted := after.begun number flight found
          have known := after.known_result found
          have origin : ∀ {value : Fetched α},
              (outcome.map fun content => (⟨content, .fetch number flight.reads⟩ : Fetched α)) =
                some value → value.origin = .fetch number flight.reads := by
            intro value isValue
            obtain ⟨content, _, rfl⟩ := Option.map_eq_some_iff.mp isValue
            rfl
          constructor
          case past => exact after.past
          case begun =>
            intro other changed inFlights
            dsimp only at inFlights
            rw [OrderedMap.get?_set] at inFlights
            split at inFlights
            · next same => exact same ▸ counted
            · exact after.begun other changed inFlights
          case registered =>
            intro n write key other stale isRegistered
            have before := (deregister_get?.mp isRegistered).1
            rw [keepResult_inflight] at before
            exact after.registered n write key other stale before
          case running =>
            intro other changed inFlights uncancelled unsettled'
            dsimp only at inFlights
            rw [OrderedMap.get?_set] at inFlights
            split at inFlights
            · obtain rfl := Option.some.inj inFlights
              cases unsettled'
            · next different =>
                refine deregister_get?.mpr ⟨?_, fun _ => different⟩
                rw [keepResult_inflight]
                exact after.running other changed inFlights uncancelled unsettled'
          case stored =>
            intro key entry inStore
            dsimp only at inStore
            rw [deregister_store] at inStore
            cases keepResult_get? inStore with
            | inr before => exact after.stored key entry before.1
            | inl added =>
                obtain ⟨rfl, uncancelled, isResult⟩ := added
                rw [origin isResult]
                refine ⟨counted, known, fun n write stale => ?_⟩
                have own := after.running number flight found uncancelled pending
                exact after.registered n write flight.key number stale own
          case settled =>
            intro other changed settlement value inFlights isSettled isResult
            dsimp only at inFlights
            rw [OrderedMap.get?_set] at inFlights
            split at inFlights
            · next same =>
                obtain rfl := Option.some.inj inFlights
                obtain rfl := Option.some.inj isSettled
                rw [origin isResult]
                exact ⟨same.symm, known⟩
            · exact after.settled other changed settlement value inFlights isSettled isResult
          case reads =>
            intro other changed inFlights
            dsimp only at inFlights
            rw [OrderedMap.get?_set] at inFlights
            split at inFlights
            · next same =>
                obtain rfl := Option.some.inj inFlights
                rw [same]
                exact after.reads number flight found
            · exact after.reads other changed inFlights
          case waiting => exact after.waiting
          case answered => exact after.answered

theorem AfterWrites.threw (after : AfterWrites limit system) (call : Call α) :
    AfterWrites limit { system with log := system.log ++ [.threw call] } := by
  have writes : writeBacks (system.log ++ [.threw call]) = writeBacks system.log := by
    rw [writeBacks, List.filterMap_append]
    exact List.append_nil _
  have answers : answersOf (system.log ++ [.threw call]) = answersOf system.log := by
    rw [answersOf, List.filterMap_append]
    exact List.append_nil _
  exact ⟨writes.symm ▸ after.past, after.begun, writes.symm ▸ after.registered, after.running,
    writes.symm ▸ after.stored, writes.symm ▸ after.settled, writes.symm ▸ after.reads,
    writes.symm ▸ after.waiting, answers.symm ▸ writes.symm ▸ after.answered⟩

/-- A caller goes on with the value of the fetch it waited for, or with a stored one;
both are from after every write-back its call began after. -/
theorem AfterWrites.resume (after : AfterWrites limit system) (number : Nat) :
    AfterWrites limit (system.resume now number) := by
  unfold CacheSystem.resume
  cases found : system.waiting.find? fun waiting => waiting.call.begunAt = number with
  | none => exact after
  | some waiting =>
      obtain ⟨call, flight⟩ := waiting
      have waits := after.waiting _ (List.mem_of_find?_eq_some found)
      dsimp only
      cases finished : (system.flights.get? flight).bind (·.settled) with
      | none => exact after
      | some settlement =>
          obtain ⟨own, inFlights, isSettled⟩ := Option.bind_eq_some_iff.mp finished
          have left : AfterWrites limit
              { system with
                waiting := system.waiting.filter fun other => other.call.begunAt ≠ number } :=
            { after with
              waiting := fun other member => after.waiting other (List.mem_filter.mp member).1 }
          dsimp only
          cases isResult : settlement.result with
          | some value =>
              have known := after.settled flight own settlement value inFlights isSettled isResult
              refine left.answer ⟨waits.1, waits.2.1, known.2, fun n write stale began => ?_⟩
              rw [known.1]
              exact waits.2.2 n write stale began
          | none =>
              dsimp only
              split
              · exact left.threw call
              · next last isLast =>
                  have inStore : system.cache.store.get? call.request.key = some last := by
                    split at isLast
                    · exact isLast
                    · cases isLast
                  have stored := after.stored _ last inStore
                  exact (left.remember inStore rfl).answer ⟨waits.1, waits.2.1, stored.2.1,
                    fun n write stale _ => stored.2.2 n write stale⟩

theorem AfterWrites.invalidate (after : AfterWrites limit system) (start : String)
    (holdMs : Option ℤ) : AfterWrites limit (system.invalidate now start holdMs) := by
  have old : ∀ {number flight},
      (system.invalidate now start holdMs).flights.get? number = some flight →
      ∃ before, system.flights.get? number = some before ∧ flight.key = before.key ∧
        flight.settled = before.settled ∧ flight.reads = before.reads ∧
        (flight.cancelled = false →
          before.cancelled = false ∧ number ∉ system.cache.cancelledBy start) := by
    intro number flight found
    rw [CacheSystem.invalidate] at found
    dsimp only at found
    rw [OrderedMap.get?_mapValues] at found
    obtain ⟨before, inFlights, rfl⟩ := Option.map_eq_some_iff.mp found
    refine ⟨before, inFlights, ?_⟩
    split
    · exact ⟨rfl, rfl, rfl, fun absent => nomatch absent⟩
    · next other => exact ⟨rfl, rfl, rfl, fun uncancelled => ⟨uncancelled, other⟩⟩
  constructor
  case past => exact after.past
  case begun =>
    intro number flight found
    obtain ⟨before, inFlights, _⟩ := old found
    exact after.begun number before inFlights
  case registered =>
    intro n write key number stale registered
    exact after.registered n write key number stale
      (Cache.invalidate_inflight_get?.mp registered).2
  case running =>
    intro number flight found uncancelled unsettled
    obtain ⟨before, inFlights, key, settled, _, kept⟩ := old found
    have own := after.running number before inFlights (kept uncancelled).1 (settled ▸ unsettled)
    rw [key]
    refine Cache.invalidate_inflight_get?.mpr ⟨?_, own⟩
    cases matched : startsWith before.key start with
    | false => rfl
    | true => exact absurd (Cache.mem_cancelledBy.mpr ⟨_, own, matched⟩) (kept uncancelled).2
  case stored =>
    intro key entry found
    exact after.stored key entry (Cache.invalidate_get? found).2
  case settled =>
    intro number flight settlement value found isSettled
    obtain ⟨before, inFlights, _, settled, _⟩ := old found
    exact after.settled number before settlement value inFlights (settled ▸ isSettled)
  case reads =>
    intro number flight found
    obtain ⟨before, inFlights, _, _, reads, _⟩ := old found
    rw [reads]
    exact after.reads number before inFlights
  case waiting => exact after.waiting
  case answered => exact after.answered

theorem refreshBehind_log (system : CacheSystem α) (request : Request)
    (entry : Entry (Fetched α)) : (system.refreshBehind request entry).log = system.log := by
  unfold CacheSystem.refreshBehind
  dsimp only
  split <;> rfl

theorem refreshBehind_answer_log (system : CacheSystem α) (request : Request)
    (entry : Entry (Fetched α)) (answer : Answer α) :
    ((system.refreshBehind request entry).answer answer).log =
      system.log ++ [.answered answer] := by
  rw [CacheSystem.answer, refreshBehind_log]

theorem AfterWrites.refreshBehind (after : AfterWrites limit system) {request : Request}
    {entry : Entry (Fetched α)} (inStore : system.cache.store.get? request.key = some entry)
    (counted : system.steps < limit) (past : ∀ n ∈ writeBacks system.log, n ≤ system.steps) :
    AfterWrites limit (system.refreshBehind request entry) := by
  unfold CacheSystem.refreshBehind
  dsimp only
  split
  · next starts =>
      refine AfterWrites.begin (after.remember inStore ?_) _ ?_ counted past
      · rfl
      · dsimp only
        rw [Cache.remember_inflight]
        have nothing := (Bool.and_eq_true_iff.mp starts).2
        simpa [OrderedMap.contains] using nothing
  · exact after.remember inStore rfl

/-- A call that finds no answer waits for the fetch registered under its key, or for one
that begins now. -/
theorem AfterWrites.await (after : AfterWrites limit system) {call : Call α}
    (began : call.begunAt = system.steps) (counted : system.steps < limit)
    (past : ∀ n ∈ writeBacks system.log, n ≤ system.steps)
    (parent : ∀ parent, call.parent = some parent → parent ≤ system.steps) :
    AfterWrites limit (system.await call) := by
  unfold CacheSystem.await
  cases own : system.cache.inflight.get? call.request.key with
  | some flight =>
      refine { after with waiting := ?_ }
      intro waiting member
      cases List.mem_append.mp member with
      | inl before => exact after.waiting waiting before
      | inr added =>
          obtain rfl := List.mem_singleton.mp added
          exact ⟨began ▸ counted, began ▸ parent, fun n write stale _ =>
            after.registered n write call.request.key flight stale own⟩
  | none =>
      refine { after.begin call.request.options.pin own counted past with waiting := ?_ }
      intro waiting member
      cases List.mem_append.mp member with
      | inl before => exact after.waiting waiting before
      | inr added =>
          obtain rfl := List.mem_singleton.mp added
          exact ⟨began ▸ counted, began ▸ parent, fun n write _ _ => past n write⟩

theorem AfterWrites.call (after : AfterWrites limit system) (request : Request)
    (parent : Option Nat) (counted : system.steps < limit)
    (past : ∀ n ∈ writeBacks system.log, n ≤ system.steps)
    (begun : ∀ number flight, system.flights.get? number = some flight →
      number ≤ system.steps) :
    AfterWrites limit (system.call now request parent) := by
  have asking : ∀ asking, parent.filter system.isRunning = some asking →
      asking ≤ system.steps := by
    intro asking isParent
    have running := (Option.filter_eq_some_iff.mp isParent).2
    unfold CacheSystem.isRunning at running
    cases found : system.flights.get? asking with
    | none =>
        rw [found] at running
        cases running
    | some flight => exact begun asking flight found
  have opened : AfterWrites limit { system with cache := system.cache.dropEnded now } :=
    after.ofCache rfl fun key entry found => ⟨entry, found, rfl⟩
  have good : ∀ {entry : Entry (Fetched α)} {answer : Answer α},
      system.cache.store.get? request.key = some entry → answer.value = entry.v →
      answer.call.begunAt = system.steps → answer.call.request = request →
      answer.call.parent = parent.filter system.isRunning →
      GoodAnswer limit system.log answer := by
    intro entry answer inStore value began asked isParent
    have stored := after.stored request.key entry inStore
    refine ⟨began ▸ counted, fun other same => ?_, value ▸ stored.2.1, fun n write stale _ => ?_⟩
    · rw [began]
      exact asking other (isParent ▸ same)
    · rw [value]
      rw [asked] at stale
      exact stored.2.2 n write stale
  unfold CacheSystem.call
  dsimp only
  split
  · next entry found =>
      have inStore := (Cache.lookup_fresh found).1
      exact (opened.remember inStore rfl).answer (good inStore rfl rfl rfl rfl)
  · next entry found =>
      have inStore := (Cache.lookup_stale found).1
      refine (opened.refreshBehind inStore counted past).answer ?_
      rw [refreshBehind_log]
      exact good inStore rfl rfl rfl rfl
  · exact opened.await rfl counted past asking

end Steps

section WriteBack

variable {system : CacheSystem α} {now : ℤ}

structure Forgets (starts : List String) (before after : CacheSystem α) : Prop where
  stored : ∀ key entry, after.cache.store.get? key = some entry →
    before.cache.store.get? key = some entry ∧ ∀ start ∈ starts, startsWith key start = false
  registered : ∀ key number, after.cache.inflight.get? key = some number →
    before.cache.inflight.get? key = some number ∧ ∀ start ∈ starts, startsWith key start = false
  steps : after.steps = before.steps
  log : after.log = before.log

theorem Forgets.invalidateAll (system : CacheSystem α) (now : ℤ) (starts : List String) :
    Forgets starts system (system.invalidateAll now starts) := by
  induction starts generalizing system with
  | nil =>
      exact ⟨fun _ _ found => ⟨found, List.forall_mem_nil _⟩,
        fun _ _ found => ⟨found, List.forall_mem_nil _⟩, rfl, rfl⟩
  | cons start rest ih =>
      have others := ih (system.invalidate now start (some WRITE_HOLD_MS))
      refine ⟨fun key entry found => ?_, fun key number found => ?_, others.steps, others.log⟩
      · have later := others.stored key entry found
        have first := Cache.invalidate_get? later.1
        exact ⟨first.2, List.forall_mem_cons.mpr ⟨first.1, later.2⟩⟩
      · have later := others.registered key number found
        have first := Cache.invalidate_inflight_get?.mp later.1
        exact ⟨first.2, List.forall_mem_cons.mpr ⟨first.1, later.2⟩⟩

theorem AfterWrites.invalidateAll {limit : Nat} (after : AfterWrites limit system)
    (starts : List String) : AfterWrites limit (system.invalidateAll now starts) :=
  List.foldlRecOn starts _ after fun _ kept start _ => kept.invalidate start (some WRITE_HOLD_MS)

/-- A write-back that finds nothing stored or registered under its keys: every number so
far is from before it, and what comes is from after it. -/
theorem AfterWrites.wroteBack (after : AfterWrites system.steps system)
    (noneStored : ∀ key entry, system.cache.store.get? key = some entry →
      isStaleAfterWrite key = false)
    (noneRegistered : ∀ key number, system.cache.inflight.get? key = some number →
      isStaleAfterWrite key = false) :
    AfterWrites (system.steps + 1)
      { system with log := system.log ++ [.wroteBack system.steps] } := by
  have writes : ∀ {n : Nat}, n ∈ writeBacks (system.log ++ [.wroteBack system.steps]) →
      n ∈ writeBacks system.log ∨ n = system.steps := by
    intro n member
    rw [writeBacks, List.filterMap_append] at member
    simpa [writeBacks] using member
  have answers : answersOf (system.log ++ [.wroteBack system.steps]) = answersOf system.log := by
    rw [answersOf, List.filterMap_append]
    exact List.append_nil _
  have known : ∀ {origin : Origin}, origin.startedAt < system.steps →
      Known (writeBacks system.log) origin →
      Known (writeBacks (system.log ++ [.wroteBack system.steps])) origin := by
    intro origin before known n member began
    cases writes member with
    | inl earlier => exact known n earlier began
    | inr this => omega
  have all := after.later
  constructor
  case past =>
    intro n member
    cases writes member with
    | inl earlier => exact all.past n earlier
    | inr this => omega
  case begun => exact all.begun
  case registered =>
    intro n member key number stale registered
    rw [noneRegistered key number registered] at stale
    cases stale
  case running => exact after.running
  case stored =>
    intro key entry found
    have stored := after.stored key entry found
    refine ⟨Nat.lt_succ_of_lt stored.1, known stored.1 stored.2.1, fun n member stale => ?_⟩
    rw [noneStored key entry found] at stale
    cases stale
  case settled =>
    intro number flight settlement value found isSettled isResult
    have settled := after.settled number flight settlement value found isSettled isResult
    have before := after.begun number flight found
    exact ⟨settled.1, known (settled.1 ▸ before) settled.2⟩
  case reads =>
    intro number flight found read inReads n member began
    have before := after.begun number flight found
    cases writes member with
    | inl earlier => exact after.reads number flight found read inReads n earlier began
    | inr this => omega
  case waiting =>
    intro waiting inWaiting
    have before := after.waiting waiting inWaiting
    refine ⟨Nat.lt_succ_of_lt before.1, before.2.1, fun n member stale began => ?_⟩
    cases writes member with
    | inl earlier => exact before.2.2 n earlier stale began
    | inr this => omega
  case answered =>
    intro answer inAnswers
    have before := after.answered answer (answers ▸ inAnswers)
    refine ⟨Nat.lt_succ_of_lt before.1, fun n member stale began => ?_⟩
    cases writes member with
    | inl earlier => exact before.2 n earlier stale began
    | inr this => omega

theorem AfterWrites.writeBack (after : AfterWrites system.steps system) :
    AfterWrites (system.steps + 1) (system.writeBack now) := by
  have swept := Forgets.invalidateAll system now STALE_AFTER_WRITE
  have kept : AfterWrites (system.invalidateAll now STALE_AFTER_WRITE).steps
      (system.invalidateAll now STALE_AFTER_WRITE) := by
    rw [swept.steps]
    exact after.invalidateAll STALE_AFTER_WRITE
  have unmatched : ∀ key, (∀ start ∈ STALE_AFTER_WRITE, startsWith key start = false) →
      isStaleAfterWrite key = false := by
    intro key never
    rw [isStaleAfterWrite, List.any_eq_false]
    intro start member
    rw [never start member]
    exact Bool.false_ne_true
  have wrote := kept.wroteBack
    (fun key entry found => unmatched key (swept.stored key entry found).2)
    fun key number found => unmatched key (swept.registered key number found).2
  rw [swept.steps] at wrote
  unfold CacheSystem.writeBack
  dsimp only
  rw [swept.steps]
  exact wrote

end WriteBack

section Run

variable {approxBytes : α → Nat} {system : CacheSystem α}

/-- What one turn keeps, whichever it is. -/
theorem AfterWrites.step (approxBytes : α → Nat) (after : AfterWrites system.steps system) (turn : ℤ × CacheAction α) :
    AfterWrites (system.step approxBytes turn).steps (system.step approxBytes turn) := by
  have acted : AfterWrites (system.steps + 1) (system.act approxBytes turn) := by
    obtain ⟨now, action⟩ := turn
    have later := after.later
    cases action with
    | call request parent =>
        exact later.call request parent (Nat.lt_succ_self _)
          (fun n member => Nat.le_of_lt (after.past n member))
          fun number flight found => Nat.le_of_lt (after.begun number flight found)
    | settle flight outcome => exact later.settle approxBytes flight outcome
    | resume call => exact later.resume call
    | invalidate start holdMs => exact later.invalidate start holdMs
    | writeBack => exact after.writeBack
  exact { acted with }

theorem AfterWrites.run (approxBytes : α → Nat) (turns : List (ℤ × CacheAction α)) :
    AfterWrites (CacheSystem.run approxBytes turns).steps (CacheSystem.run approxBytes turns) :=
  List.foldlRecOn (motive := fun system => AfterWrites system.steps system) turns _ .idle
    fun _ after turn _ => after.step approxBytes turn

/-- After a write-back's loop at step `n`, whatever ran before, meanwhile or since: a call
that begins later under one of its keys is answered with a value from after the loop, and
so is every value stored under one of them. -/
theorem no_pre_write_answer (approxBytes : α → Nat) (turns : List (ℤ × CacheAction α)) :
    let system := CacheSystem.run approxBytes turns
    ∀ n, CacheEvent.wroteBack n ∈ system.log →
      (∀ answer, CacheEvent.answered answer ∈ system.log →
        isStaleAfterWrite answer.call.request.key = true → n < answer.call.begunAt →
        answer.value.origin.FreshSince n) ∧
      ∀ key entry, isStaleAfterWrite key = true → system.cache.store.get? key = some entry →
        entry.v.origin.FreshSince n := by
  intro system n wrote
  have after : AfterWrites system.steps system := AfterWrites.run approxBytes turns
  have write : n ∈ writeBacks system.log := List.mem_filterMap.mpr ⟨_, wrote, rfl⟩
  refine ⟨fun answer answered stale began => ?_, fun key entry stale found => ?_⟩
  · have given : answer ∈ answersOf system.log := List.mem_filterMap.mpr ⟨_, answered, rfl⟩
    exact (after.answered answer given).2 n write stale (Nat.le_of_lt began)
  · have stored := after.stored key entry found
    exact stored.2.1 n write (stored.2.2 n write stale)

end Run

end ZabbixPortal.Services
