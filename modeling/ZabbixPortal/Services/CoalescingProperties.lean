import ZabbixPortal.Services.Coalescing

/-! A stored value is refreshed once, and everything a run keeps of the shared fetches. -/

set_option autoImplicit false

namespace ZabbixPortal.Services

open Foundation Core

variable {α : Type}

section Refreshes

variable {approxBytes : α → Nat} {system : CacheSystem α} {now : ℤ} {refreshed : List Nat}

def refreshedBy (system : CacheSystem α) (turn : ℤ × CacheAction α) : Option Nat :=
  match turn.2 with
  | .call { key, ttlMs, options } parent =>
      match system.cache.lookup key ttlMs options (system.cache.isHeld key turn.1) turn.1 with
      | .stale entry =>
          if (system.call turn.1 { key, ttlMs, options } parent).flights.contains system.steps then
            some entry.v.origin.startedAt
          else none
      | .fresh _ | .missing => none
  | .settle _ _ | .resume _ | .invalidate _ _ | .writeBack => none

def refreshesFrom (approxBytes : α → Nat) (system : CacheSystem α) :
    List (ℤ × CacheAction α) → List Nat
  | [] => []
  | turn :: rest =>
      (refreshedBy system turn).toList ++
        refreshesFrom approxBytes (system.step approxBytes turn) rest

theorem refreshesFrom_concat (approxBytes : α → Nat) (system : CacheSystem α)
    (turns : List (ℤ × CacheAction α)) (turn : ℤ × CacheAction α) :
    refreshesFrom approxBytes system (turns ++ [turn]) =
      refreshesFrom approxBytes system turns ++
        (refreshedBy (turns.foldl (CacheSystem.step approxBytes) system) turn).toList := by
  induction turns generalizing system with
  | nil => simp [refreshesFrom]
  | cons first rest ih =>
      rw [List.cons_append, refreshesFrom, ih, refreshesFrom, List.append_assoc]
      rfl

structure RefreshedOnce (refreshed : List Nat) (system : CacheSystem α) : Prop where
  once : refreshed.Nodup
  /-- A stored value is the result of its key's fetch. -/
  fetched : ∀ key entry, system.cache.store.get? key = some entry →
    ∃ settlement, system.endOf entry.v.origin.startedAt = some (key, settlement)
  finished : ∀ number ∈ refreshed, (system.endOf number).isSome
  marked : ∀ key entry, system.cache.store.get? key = some entry →
    entry.v.origin.startedAt ∈ refreshed → entry.refreshing = true

theorem RefreshedOnce.idle : RefreshedOnce [] (CacheSystem.idle : CacheSystem α) where
  once := List.nodup_nil
  fetched _ _ found := nomatch found
  finished _ member := nomatch member
  marked _ _ found := nomatch found

/-- A step that starts no refresh: what it stores was stored under its key before, or is
the result of a fetch that was not over. -/
theorem RefreshedOnce.keeps (once : RefreshedOnce refreshed system) {after : CacheSystem α}
    (ends : ∀ number ended, system.endOf number = some ended → after.endOf number = some ended)
    (stored : ∀ key entry, after.cache.store.get? key = some entry →
      (∃ old, system.cache.store.get? key = some old ∧ entry.v = old.v ∧
        (old.refreshing = true → entry.refreshing = true)) ∨
      system.endOf entry.v.origin.startedAt = none ∧
        ∃ settlement, after.endOf entry.v.origin.startedAt = some (key, settlement)) :
    RefreshedOnce refreshed after where
  once := once.once
  fetched key entry found := by
    rcases stored key entry found with ⟨old, before, same, _⟩ | ⟨_, finished⟩
    · obtain ⟨settlement, finished⟩ := once.fetched key old before
      exact ⟨settlement, ends _ _ (same ▸ finished)⟩
    · exact finished
  finished number member := by
    obtain ⟨ended, finished⟩ := Option.isSome_iff_exists.mp (once.finished number member)
    exact Option.isSome_of_eq_some (ends number ended finished)
  marked key entry found member := by
    rcases stored key entry found with ⟨old, before, same, marks⟩ | ⟨running, _⟩
    · exact marks (once.marked key old before (same ▸ member))
    · have finished := once.finished _ member
      rw [running] at finished
      cases finished

/-- Starting the refresh of a value that had none marks what is stored under its key. -/
theorem RefreshedOnce.add (once : RefreshedOnce refreshed system) {key : String} {number : Nat}
    (first : number ∉ refreshed)
    (finished : ∃ settlement, system.endOf number = some (key, settlement))
    (marks : ∀ entry, system.cache.store.get? key = some entry → entry.refreshing = true) :
    RefreshedOnce (refreshed ++ [number]) system where
  once := List.nodup_append.mpr ⟨once.once, List.nodup_singleton _, fun other member last isLast =>
    List.mem_singleton.mp isLast ▸ fun same => first (same ▸ member)⟩
  fetched := once.fetched
  finished other member := by
    cases List.mem_append.mp member with
    | inl before => exact once.finished other before
    | inr added =>
        obtain ⟨settlement, finished⟩ := finished
        exact List.mem_singleton.mp added ▸ Option.isSome_of_eq_some finished
  marked other entry found member := by
    cases List.mem_append.mp member with
    | inl before => exact once.marked other entry found before
    | inr added =>
        obtain ⟨settlement, finished⟩ := finished
        obtain ⟨own, isOver⟩ := once.fetched other entry found
        rw [List.mem_singleton.mp added, finished] at isOver
        cases isOver
        exact marks entry found

theorem stored_of_remember {cache : Cache (Fetched α)} {key other : String}
    {last marked entry : Entry (Fetched α)}
    (found : (cache.remember key marked).store.get? other = some entry)
    (inStore : cache.store.get? key = some last) (value : marked.v = last.v)
    (marks : last.refreshing = true → marked.refreshing = true) :
    ∃ old, cache.store.get? other = some old ∧ entry.v = old.v ∧
      (old.refreshing = true → entry.refreshing = true) := by
  rcases Cache.remember_get? found with ⟨rfl, rfl⟩ | ⟨_, before⟩
  · exact ⟨last, inStore, value, marks⟩
  · exact ⟨entry, before, rfl, id⟩

theorem noteRead_contains (flights : OrderedMap Nat (Flight α)) (parent : Option Nat)
    (read : String × Nat × Origin) (number : Nat) :
    (CacheSystem.noteRead flights parent read).contains number = flights.contains number := by
  unfold CacheSystem.noteRead OrderedMap.contains
  rw [OrderedMap.get?_mapValues, Option.isSome_map]

/-- A stale answer begins a fetch when its value has had none and none is in flight. -/
theorem refreshBehind_contains {request : Request} {entry : Entry (Fetched α)}
    (unused : ∀ number flight, system.flights.get? number = some flight → number < system.steps) :
    (system.refreshBehind request entry).flights.contains system.steps =
      (!entry.refreshing && !system.cache.inflight.contains request.key) := by
  unfold CacheSystem.refreshBehind
  dsimp only
  split
  · next starts =>
      rw [starts, OrderedMap.contains_iff]
      exact ⟨_, OrderedMap.get?_set_self _ _ _⟩
  · next quiet =>
      rw [Bool.not_eq_true] at quiet
      rw [quiet]
      refine Bool.eq_false_iff.mpr fun used => ?_
      obtain ⟨flight, found⟩ := (OrderedMap.contains_iff _ _).mp used
      exact Nat.lt_irrefl _ (unused _ flight found)

theorem refreshBehind_store (system : CacheSystem α) (request : Request)
    (entry : Entry (Fetched α)) :
    (system.refreshBehind request entry).cache.store =
      (system.cache.remember request.key { entry with
        refreshing := entry.refreshing ||
          (!entry.refreshing && !system.cache.inflight.contains request.key) }).store := by
  unfold CacheSystem.refreshBehind
  dsimp only
  split <;> rfl

/-- What a call does to the store, by what it finds there. -/
theorem call_store (system : CacheSystem α) (now : ℤ) (request : Request) (parent : Option Nat) :
    (system.call now request parent).cache.store =
      match system.cache.lookup request.key request.ttlMs request.options
        (system.cache.isHeld request.key now) now with
      | .fresh entry => ((system.cache.dropEnded now).remember request.key entry).store
      | .stale entry =>
          ({ system with cache := system.cache.dropEnded now }.refreshBehind request
            entry).cache.store
      | .missing => system.cache.store := by
  have looked : (system.cache.dropEnded now).lookup request.key = system.cache.lookup request.key :=
    rfl
  unfold CacheSystem.call
  dsimp only
  rw [looked]
  cases system.cache.lookup request.key request.ttlMs request.options
      (system.cache.isHeld request.key now) now with
  | fresh entry => rfl
  | stale entry => rfl
  | missing =>
      dsimp only
      unfold CacheSystem.await
      split <;> rfl

theorem call_contains_of_stale {request : Request} {entry : Entry (Fetched α)}
    (parent : Option Nat)
    (unused : ∀ number flight, system.flights.get? number = some flight → number < system.steps)
    (stale : system.cache.lookup request.key request.ttlMs request.options
      (system.cache.isHeld request.key now) now = .stale entry) :
    (system.call now request parent).flights.contains system.steps =
      (!entry.refreshing && !system.cache.inflight.contains request.key) := by
  have looked : (system.cache.dropEnded now).lookup request.key = system.cache.lookup request.key :=
    rfl
  unfold CacheSystem.call
  dsimp only
  rw [looked, stale]
  dsimp only [CacheSystem.answer]
  rw [noteRead_contains]
  let opened : CacheSystem α := { system with cache := system.cache.dropEnded now }
  have begun : (opened.refreshBehind request entry).flights.contains opened.steps =
      (!entry.refreshing && !opened.cache.inflight.contains request.key) :=
    refreshBehind_contains unused
  exact begun

theorem RefreshedOnce.call (once : RefreshedOnce refreshed system)
    (after : AfterWrites system.steps system) (request : Request) (parent : Option Nat) :
    RefreshedOnce (refreshed ++ (refreshedBy system (now, .call request parent)).toList)
      (system.call now request parent) := by
  have ends : ∀ number ended, system.endOf number = some ended →
      (system.call now request parent).endOf number = some ended :=
    fun _ _ finished => endOf_call request parent after.begun finished
  have store := call_store system now request parent
  unfold refreshedBy
  dsimp only
  cases found : system.cache.lookup request.key request.ttlMs request.options
      (system.cache.isHeld request.key now) now with
  | fresh entry =>
      rw [found] at store
      refine (List.append_nil refreshed).symm ▸ once.keeps ends fun key other inStore => .inl ?_
      rw [store] at inStore
      have old := stored_of_remember inStore (Cache.lookup_fresh found).1 rfl id
      exact old
  | missing =>
      rw [found] at store
      refine (List.append_nil refreshed).symm ▸ once.keeps ends fun key other inStore => .inl ?_
      rw [store] at inStore
      exact ⟨other, inStore, rfl, id⟩
  | stale entry =>
      rw [found] at store
      have inStore := (Cache.lookup_stale found).1
      dsimp only at store ⊢
      rw [call_contains_of_stale parent after.begun found]
      rw [refreshBehind_store] at store
      have kept : RefreshedOnce refreshed (system.call now request parent) := by
        refine once.keeps ends fun key other isStored => .inl ?_
        rw [store] at isStored
        have old := stored_of_remember isStored inStore rfl fun marked =>
          Bool.or_eq_true_iff.mpr (.inl marked)
        exact old
      split
      · next starts =>
          obtain ⟨unmarked, _⟩ := Bool.and_eq_true_iff.mp starts
          rw [Bool.not_eq_true'] at unmarked
          obtain ⟨settlement, finished⟩ := once.fetched request.key entry inStore
          refine kept.add ?_ ⟨settlement, ends _ _ finished⟩ fun other isStored => ?_
          · intro again
            cases unmarked.symm.trans (once.marked request.key entry inStore again)
          · rw [store] at isStored
            rcases Cache.remember_get? isStored with ⟨_, rfl⟩ | ⟨different, _⟩
            · exact Bool.or_eq_true_iff.mpr (.inr starts)
            · exact absurd rfl different
      · exact (List.append_nil refreshed).symm ▸ kept

theorem RefreshedOnce.settle {approxBytes : α → Nat} (once : RefreshedOnce refreshed system)
    (number : Nat) (outcome : Option α) :
    RefreshedOnce refreshed (system.settle approxBytes now number outcome) := by
  refine once.keeps (fun _ _ finished => endOf_settle outcome finished) fun key entry inStore => ?_
  unfold CacheSystem.settle at inStore ⊢
  cases found : system.flights.get? number with
  | none =>
      rw [found] at inStore
      exact .inl ⟨entry, inStore, rfl, id⟩
  | some flight =>
      simp only [found] at inStore ⊢
      split at inStore
      · exact .inl ⟨entry, inStore, rfl, id⟩
      · next running =>
          rw [if_neg running]
          dsimp only at inStore ⊢
          rw [deregister_store] at inStore
          rcases keepResult_get? inStore with ⟨rfl, _, result⟩ | ⟨before, _⟩
          · obtain ⟨content, _, same⟩ := Option.map_eq_some_iff.mp result
            have origin : entry.v.origin.startedAt = number := same ▸ rfl
            have unsettled : flight.settled = none := by simpa using running
            rw [origin]
            refine .inr ⟨?_, ?_⟩
            · unfold CacheSystem.endOf
              rw [found, Option.bind_some, unsettled, Option.map_none]
            · unfold CacheSystem.endOf
              dsimp only
              rw [OrderedMap.get?_set_self, Option.bind_some, Option.map_some]
              exact ⟨_, rfl⟩
          · exact .inl ⟨entry, before, rfl, id⟩

theorem RefreshedOnce.resume (once : RefreshedOnce refreshed system) (call : Nat) :
    RefreshedOnce refreshed (system.resume now call) := by
  refine once.keeps (fun number _ finished => (endOf_resume system call number).trans finished)
    fun key entry inStore => .inl ?_
  unfold CacheSystem.resume at inStore
  cases found : system.waiting.find? fun waiting => waiting.call.begunAt = call with
  | none =>
      rw [found] at inStore
      exact ⟨entry, inStore, rfl, id⟩
  | some first =>
      simp only [found] at inStore
      cases settled : (system.flights.get? first.flight).bind (·.settled) with
      | none =>
          rw [settled] at inStore
          exact ⟨entry, inStore, rfl, id⟩
      | some settlement =>
          simp only [settled] at inStore
          cases result : settlement.result with
          | some value =>
              simp only [result] at inStore
              exact ⟨entry, inStore, rfl, id⟩
          | none =>
              simp only [result] at inStore
              split at inStore
              · exact ⟨entry, inStore, rfl, id⟩
              · next last isLast =>
                  have last : system.cache.store.get? first.call.request.key = some last := by
                    split at isLast
                    · exact isLast
                    · cases isLast
                  exact stored_of_remember inStore last rfl id

theorem RefreshedOnce.invalidate (once : RefreshedOnce refreshed system) (start : String)
    (holdMs : Option ℤ) : RefreshedOnce refreshed (system.invalidate now start holdMs) :=
  once.keeps (fun number _ finished => (endOf_invalidate now system start holdMs number).trans finished)
    fun _ entry inStore => .inl ⟨entry, (Cache.invalidate_get? inStore).2, rfl, id⟩

theorem RefreshedOnce.step {approxBytes : α → Nat} (once : RefreshedOnce refreshed system)
    (after : AfterWrites system.steps system) (turn : ℤ × CacheAction α) :
    RefreshedOnce (refreshed ++ (refreshedBy system turn).toList)
      (system.step approxBytes turn) := by
  have same : ∀ {next : CacheSystem α}, RefreshedOnce (refreshed ++ (refreshedBy system turn).toList)
      next → RefreshedOnce (refreshed ++ (refreshedBy system turn).toList)
        { next with steps := system.steps + 1 } :=
    fun kept => ⟨kept.once, kept.fetched, kept.finished, kept.marked⟩
  refine same ?_
  obtain ⟨now, action⟩ := turn
  cases action with
  | call request parent => exact once.call after request parent
  | settle flight outcome => exact (List.append_nil refreshed).symm ▸ once.settle flight outcome
  | resume call => exact (List.append_nil refreshed).symm ▸ once.resume call
  | invalidate start holdMs => exact (List.append_nil refreshed).symm ▸ once.invalidate start holdMs
  | writeBack =>
      have swept : RefreshedOnce refreshed (system.invalidateAll now STALE_AFTER_WRITE) :=
        List.foldlRecOn (motive := fun left : CacheSystem α => RefreshedOnce refreshed left)
          STALE_AFTER_WRITE _ once fun _ kept start _ => kept.invalidate start _
      unfold CacheSystem.act CacheSystem.writeBack
      dsimp only
      generalize system.invalidateAll now STALE_AFTER_WRITE = left at swept ⊢
      exact (List.append_nil refreshed).symm ▸
        ⟨swept.once, swept.fetched, swept.finished, swept.marked⟩

end Refreshes

section Run

variable {approxBytes : α → Nat}

theorem Waits.run (approxBytes : α → Nat) (turns : List (ℤ × CacheAction α)) :
    Waits (CacheSystem.run approxBytes turns) := by
  induction turns using List.reverseRecOn with
  | nil => exact .idle
  | append_singleton turns turn ih =>
      have split : CacheSystem.run approxBytes (turns ++ [turn]) =
          (CacheSystem.run approxBytes turns).step approxBytes turn := List.foldl_concat ..
      exact split ▸ ih.step (AfterWrites.run approxBytes turns) turn

theorem Dated.run (approxBytes : α → Nat) (turns : List (ℤ × CacheAction α)) :
    Dated (CacheSystem.run approxBytes turns) := by
  induction turns using List.reverseRecOn with
  | nil => exact fun _ member => nomatch member
  | append_singleton turns turn ih =>
      have split : CacheSystem.run approxBytes (turns ++ [turn]) =
          (CacheSystem.run approxBytes turns).step approxBytes turn := List.foldl_concat ..
      exact split ▸ ih.step (AfterWrites.run approxBytes turns) turn

theorem RefreshedOnce.run (approxBytes : α → Nat) (turns : List (ℤ × CacheAction α)) :
    RefreshedOnce (refreshesFrom approxBytes .idle turns) (CacheSystem.run approxBytes turns) := by
  induction turns using List.reverseRecOn with
  | nil => exact .idle
  | append_singleton turns turn ih =>
      have split : CacheSystem.run approxBytes (turns ++ [turn]) =
          (CacheSystem.run approxBytes turns).step approxBytes turn := List.foldl_concat ..
      rw [refreshesFrom_concat, split]
      exact ih.step (AfterWrites.run approxBytes turns) turn

end Run

structure Coalesces (approxBytes : α → Nat) (system : CacheSystem α) : Prop where
  /-- One uncancelled fetch runs for a key, and it is the registered one. -/
  one : ∀ number flight, system.flights.get? number = some flight → flight.cancelled = false →
    flight.settled = none →
    system.cache.inflight.get? flight.key = some number ∧
      ∀ other record, system.flights.get? other = some record → record.key = flight.key →
        record.cancelled = false → record.settled = none → other = number
  /-- While it runs a call of its key starts no fetch, and one that is not answered from the
  store is served by it, whatever happens next; once it has settled, as soon as it is resumed. -/
  joins : ∀ number flight, system.flights.get? number = some flight → flight.cancelled = false →
    flight.settled = none → ∀ now request parent, request.key = flight.key →
    let called := system.step approxBytes (now, .call request parent)
    (∀ other, called.flights.contains other = system.flights.contains other) ∧
      (system.cache.lookup request.key request.ttlMs request.options
          (system.cache.isHeld request.key now) now = .missing →
        ∀ turns : List (ℤ × CacheAction α),
          let after := turns.foldl (CacheSystem.step approxBytes) called
          Serves system.steps number after ∧ Resumes system.steps number after)
  /-- A failed fetch leaves what is stored. -/
  stays : ∀ now number,
    (system.step approxBytes (now, .settle number none)).cache.store = system.cache.store
  /-- A fetch that settles removes its own registration and no other. -/
  removes : ∀ now number outcome key other,
    (system.step approxBytes (now, .settle number outcome)).cache.inflight.get? key = some other ↔
      system.cache.inflight.get? key = some other ∧ other ≠ number

section Coalesces

variable {approxBytes : α → Nat} {system : CacheSystem α}

theorem call_starts_none {number : Nat} {request : Request} (now : ℤ) (parent : Option Nat)
    (registered : system.cache.inflight.get? request.key = some number) (other : Nat) :
    (system.call now request parent).flights.contains other = system.flights.contains other := by
  unfold CacheSystem.call
  dsimp only
  split
  · exact noteRead_contains _ _ _ _
  · refine (noteRead_contains _ _ _ _).trans ?_
    unfold CacheSystem.refreshBehind
    dsimp only
    have taken : (system.cache.dropEnded now).inflight.contains request.key = true :=
      (OrderedMap.contains_iff _ _).mpr ⟨number, registered⟩
    rw [taken, Bool.not_true, Bool.and_false, if_neg (by decide)]
  · unfold CacheSystem.await
    have inflight : (system.cache.dropEnded now).inflight.get? request.key = some number :=
      registered
    dsimp only
    rw [inflight]

theorem settle_failed_store (now : ℤ) (number : Nat) :
    (system.settle approxBytes now number none).cache.store = system.cache.store := by
  unfold CacheSystem.settle
  cases system.flights.get? number with
  | none => rfl
  | some flight =>
      dsimp only
      split
      · rfl
      · exact deregister_store _ _ _

theorem settle_removes (waits : Waits system) (now : ℤ) (number : Nat) (outcome : Option α)
    (key : String) (other : Nat) :
    (system.settle approxBytes now number outcome).cache.inflight.get? key = some other ↔
      system.cache.inflight.get? key = some other ∧ other ≠ number := by
  have unsettled : ∀ flight, system.flights.get? number = some flight →
      flight.settled.isSome = true → system.cache.inflight.get? key ≠ some number := by
    intro flight found settled registered
    obtain ⟨running, inFlights, _, absent⟩ := waits.registered key number registered
    cases found.symm.trans inFlights
    rw [absent] at settled
    cases settled
  unfold CacheSystem.settle
  cases found : system.flights.get? number with
  | none =>
      refine (and_iff_left_of_imp fun registered => ?_).symm
      rintro rfl
      obtain ⟨running, inFlights, _⟩ := waits.registered key other registered
      exact nomatch found.symm.trans inFlights
  | some flight =>
      dsimp only
      split
      · next settled =>
          refine (and_iff_left_of_imp fun registered => ?_).symm
          rintro rfl
          exact unsettled flight found settled registered
      · dsimp only
        rw [deregister_get?, keepResult_inflight]
        constructor
        · rintro ⟨registered, notOwn⟩
          refine ⟨registered, fun same => notOwn ?_ same⟩
          obtain ⟨running, inFlights, isKey, _⟩ := waits.registered key other registered
          cases (same ▸ found).symm.trans inFlights
          exact isKey.symm
        · rintro ⟨registered, different⟩
          exact ⟨registered, fun _ => different⟩

end Coalesces

/-- In every run: fetches of one key are shared, their callers are served, failures leave
the stored values, and each stored value is refreshed in the background at most once. -/
theorem fetches_coalesce (approxBytes : α → Nat) (turns : List (ℤ × CacheAction α)) :
    Coalesces approxBytes (CacheSystem.run approxBytes turns) ∧
      (refreshesFrom approxBytes .idle turns).Nodup := by
  have after := AfterWrites.run approxBytes turns
  have waits := Waits.run approxBytes turns
  have dated := Dated.run approxBytes turns
  refine ⟨⟨?one, ?joins, ?stays, ?removes⟩, (RefreshedOnce.run approxBytes turns).once⟩
  case one =>
    intro number flight found uncancelled running
    have registered := after.running number flight found uncancelled running
    refine ⟨registered, fun other record inFlights key own unsettled => ?_⟩
    have others := after.running other record inFlights own unsettled
    rw [key, registered] at others
    exact (Option.some.inj others).symm
  case joins =>
    intro number flight found uncancelled running now request parent key
    have registered := after.running number flight found uncancelled running
    rw [← key] at registered
    refine ⟨call_starts_none now parent registered, fun missing rest => ?_⟩
    have serves : Serves _ number (rest.foldl (CacheSystem.step approxBytes) _) :=
      (serves_of_missing after dated parent registered missing).run (after.step approxBytes _) rest
    exact ⟨serves, serves.resumes⟩
  case stays => exact fun now number => settle_failed_store now number
  case removes => exact fun now number outcome => settle_removes waits now number outcome

end ZabbixPortal.Services
