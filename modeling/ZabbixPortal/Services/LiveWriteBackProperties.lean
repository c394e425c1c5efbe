import ZabbixPortal.Foundation.Runs
import ZabbixPortal.Services.CachedReadsProperties
import ZabbixPortal.Services.LiveWriteBack
import ZabbixPortal.Services.StreamEffects

/-! When the live stream never goes back behind a write-back: a read that outlives its
last screen must not find another one before it lands. -/

set_option autoImplicit false

namespace ZabbixPortal.Services

open Foundation Core

variable {α : Type}

section Cache

variable {system : CacheSystem α} {now : ℤ}

/-- What a step of the cache other than a write-back leaves of the problem list's store and
fetches; `settles` is the fetch the step settles. -/
structure Continues (settles : Option Nat) (before after : CacheSystem α) : Prop where
  stored : ∀ entry, after.cache.store.get? problemsRequest.key = some entry →
    (∃ old, before.cache.store.get? problemsRequest.key = some old) ∨
      ∃ number flight, settles = some number ∧ before.flights.get? number = some flight ∧
        flight.key = problemsRequest.key ∧ flight.cancelled = false ∧ flight.settled = none
  registered : ∀ number, before.cache.inflight.get? problemsRequest.key = some number →
    settles ≠ some number → after.cache.inflight.get? problemsRequest.key = some number
  writes : writeBacks after.log = writeBacks before.log

theorem Continues.refl (settles : Option Nat) (system : CacheSystem α) :
    Continues settles system system :=
  ⟨fun entry found => .inl ⟨entry, found⟩, fun _ found _ => found, rfl⟩

theorem Continues.trans {first second third : CacheSystem α}
    (left : Continues none first second) (right : Continues none second third) :
    Continues none first third where
  stored entry found := by
    cases right.stored entry found with
    | inl old =>
        obtain ⟨old, before⟩ := old
        exact left.stored old before
    | inr settled =>
        obtain ⟨_, _, absent, _⟩ := settled
        cases absent
  registered number found other :=
    right.registered number (left.registered number found other) other
  writes := right.writes.trans left.writes

/-- Another cache with the same registrations and nothing new stored. -/
theorem Continues.ofCache {cache : Cache (Fetched α)}
    (inflight : cache.inflight = system.cache.inflight)
    (stored : ∀ entry, cache.store.get? problemsRequest.key = some entry →
      ∃ old, system.cache.store.get? problemsRequest.key = some old) :
    Continues none system { system with cache := cache } where
  stored entry found := .inl (stored entry found)
  registered number found _ := by
    dsimp only
    rw [inflight, found]
  writes := rfl

theorem Continues.remember {key : String} {entry : Entry (Fetched α)}
    (inStore : ∃ old, system.cache.store.get? key = some old) :
    Continues none system { system with cache := system.cache.remember key entry } := by
  refine .ofCache Cache.remember_inflight fun found inRemembered => ?_
  cases Cache.remember_get? inRemembered with
  | inl added => exact added.1 ▸ inStore
  | inr before => exact ⟨found, before.2⟩

theorem Continues.begin {key : String} (pin : Bool)
    (free : system.cache.inflight.get? key = none) :
    Continues none system (system.begin key pin) where
  stored entry found := .inl ⟨entry, found⟩
  registered number found _ := by
    simp only [CacheSystem.begin, OrderedMap.get?_set]
    rw [if_neg, found]
    intro same
    rw [same, free] at found
    cases found
  writes := rfl

theorem Continues.answer (system : CacheSystem α) (answer : Answer α) :
    Continues none system (system.answer answer) where
  stored entry found := .inl ⟨entry, found⟩
  registered number found _ := found
  writes := by
    rw [CacheSystem.answer, writeBacks, List.filterMap_append]
    exact List.append_nil _

theorem Continues.refreshBehind {request : Request} {entry : Entry (Fetched α)}
    (inStore : system.cache.store.get? request.key = some entry) :
    Continues none system (system.refreshBehind request entry) := by
  unfold CacheSystem.refreshBehind
  dsimp only
  split
  · next starts =>
      refine (Continues.remember ⟨_, inStore⟩).trans (.begin _ ?_)
      dsimp only
      rw [Cache.remember_inflight]
      have nothing := (Bool.and_eq_true_iff.mp starts).2
      simpa [OrderedMap.contains] using nothing
  · exact .remember ⟨_, inStore⟩

theorem Continues.await (system : CacheSystem α) (call : Call α) :
    Continues none system (system.await call) := by
  unfold CacheSystem.await
  cases own : system.cache.inflight.get? call.request.key with
  | some number => exact { Continues.refl none system with }
  | none => exact { Continues.begin call.request.options.pin own with }

theorem Continues.call (now : ℤ) (system : CacheSystem α) (request : Request) (parent : Option Nat) :
    Continues none system (system.call now request parent) := by
  have opened : Continues none system { system with cache := system.cache.dropEnded now } :=
    .ofCache rfl fun entry found => ⟨entry, found⟩
  unfold CacheSystem.call
  dsimp only
  split
  · next entry found =>
      have young := (Cache.lookup_fresh found).1
      exact (opened.trans (.remember ⟨entry, young⟩)).trans (.answer _ _)
  · next entry found =>
      exact (opened.trans (.refreshBehind (Cache.lookup_stale found).1)).trans (.answer _ _)
  · exact opened.trans (.await _ _)

theorem Continues.settle (now : ℤ) (approxBytes : α → Nat) (system : CacheSystem α) (number : Nat)
    (outcome : Option α) :
    Continues (some number) system (system.settle approxBytes now number outcome) := by
  unfold CacheSystem.settle
  cases found : system.flights.get? number with
  | none => exact .refl _ _
  | some flight =>
      dsimp only
      split
      · exact .refl _ _
      · next unsettled =>
          refine ⟨fun entry inStore => ?_, fun other registered different => ?_, rfl⟩
          · dsimp only at inStore
            rw [deregister_store] at inStore
            cases keepResult_get? inStore with
            | inl added =>
                exact .inr ⟨number, flight, rfl, found, added.1.symm, added.2.1,
                  by simpa using unsettled⟩
            | inr before => exact .inl ⟨entry, before.1⟩
          · refine deregister_get?.mpr ⟨?_, fun _ same => different (congrArg some same.symm)⟩
            rw [keepResult_inflight]
            exact registered

theorem Continues.resume (system : CacheSystem α) (number : Nat) :
    Continues none system (system.resume now number) := by
  have left : Continues none system
      { system with
        waiting := system.waiting.filter fun other => other.call.begunAt ≠ number } :=
    { Continues.refl none system with }
  unfold CacheSystem.resume
  cases system.waiting.find? fun waiting => waiting.call.begunAt = number with
  | none => exact .refl _ _
  | some waiting =>
      dsimp only
      cases (system.flights.get? waiting.flight).bind (·.settled) with
      | none => exact .refl _ _
      | some settlement =>
          dsimp only
          cases settlement.result with
          | some value => exact left.trans (.answer _ _)
          | none =>
              dsimp only
              split
              · refine { left with writes := ?_ }
                dsimp only
                rw [writeBacks, List.filterMap_append]
                exact List.append_nil _
              · next last isLast =>
                  have inStore : system.cache.store.get? waiting.call.request.key = some last := by
                    split at isLast
                    · exact isLast
                    · cases isLast
                  exact (left.trans (.remember ⟨last, inStore⟩)).trans (.answer _ _)

/-- Dropping the assistant's snapshot leaves the problem list alone. -/
theorem Continues.forgetSnapshot (system : CacheSystem α) :
    Continues none system (system.invalidate now SNAPSHOT_KEY none) where
  stored entry found := .inl ⟨entry, (Cache.invalidate_get? found).2⟩
  registered number found _ := Cache.invalidate_inflight_get?.mpr ⟨by decide, found⟩
  writes := rfl

/-- A call for the problem list is answered with a stored list, or waits for the fetch that
is registered once it has been made. -/
theorem problems_call (now : ℤ) (approxBytes : α → Nat) (system : CacheSystem α) :
    let after := system.step approxBytes (now, .call problemsRequest none)
    (∃ answer entry, after.log = system.log ++ [.answered answer] ∧
      system.cache.store.get? problemsRequest.key = some entry ∧ answer.value = entry.v) ∨
    (after.log = system.log ∧
      ∃ flight, after.cache.inflight.get? problemsRequest.key = some flight) := by
  unfold CacheSystem.step CacheSystem.act CacheSystem.call
  dsimp only
  split
  · next entry found =>
      exact .inl ⟨_, entry, rfl, (Cache.lookup_fresh found).1, rfl⟩
  · next entry found =>
      exact .inl ⟨_, entry, refreshBehind_answer_log _ _ _ _, (Cache.lookup_stale found).1, rfl⟩
  · right
    unfold CacheSystem.await
    dsimp only
    split
    · next flight own => exact ⟨rfl, flight, own⟩
    · exact ⟨rfl, system.steps, OrderedMap.get?_set_self _ _ _⟩

/-- A write-back leaves no problem list stored or being fetched. -/
theorem problems_writeBack (now : ℤ) (approxBytes : α → Nat) (system : CacheSystem α) :
    let after := system.step approxBytes (now, .writeBack)
    after.cache.store.get? problemsRequest.key = none ∧
      writeBacks after.log = writeBacks system.log ++ [system.steps] := by
  have swept := Forgets.invalidateAll system now STALE_AFTER_WRITE
  have matched : ¬ ∀ start ∈ STALE_AFTER_WRITE,
      startsWith problemsRequest.key start = false := by decide
  unfold CacheSystem.step CacheSystem.act CacheSystem.writeBack
  dsimp only
  refine ⟨?_, ?_⟩
  · refine Option.eq_none_iff_forall_ne_some.mpr fun entry found => ?_
    exact matched (swept.stored _ entry found).2
  · rw [swept.log, swept.steps, writeBacks, List.filterMap_append]
    rfl

end Cache

section Level

variable {rows : Fetched α → List ProblemRow} {portal : Portal α}

def Frame.FromAfter (write : Nat) (frame : Frame (Fetched α)) : Prop :=
  ∀ list, frame.body = .problems list → write ≤ list.origin.startedAt

def FramesFromAfter (write : Nat) (events : List (StreamEvent (Fetched α))) : Prop :=
  ∀ client frame, StreamEvent.wrote client frame ∈ events → frame.FromAfter write

def Portal.Notified (portal : Portal α) (write : Nat) : Prop :=
  ∃ later length, (later, length) ∈ portal.notified ∧ write ≤ later

structure Level (rows : Fetched α → List ProblemRow) (portal : Portal α) : Prop where
  after : AfterWrites portal.cache.steps portal.cache
  delivers : Delivers rows portal.hub
  reads : portal.hub.reads = portal.pending.map PendingRead.read
  numbered : portal.pending.Pairwise fun one other => one.read.number < other.read.number
  counted : ∀ read ∈ portal.pending, read.read.number ≤ portal.hub.readsStarted
  applied : portal.hub.readsApplied ≤ portal.hub.readsStarted
  /-- A write-back's own read goes out whatever its list, which is from after the write. -/
  forced : ∀ read ∈ portal.pending, ∀ write, read.notifies = some write →
    read.read.force = true ∧ write ∈ writeBacks portal.cache.log ∧ write ≤ read.flight
  known : ∀ write length, (write, length) ∈ portal.notified →
    write ∈ writeBacks portal.cache.log ∧ length ≤ portal.hub.log.length
  /-- A read started after a write-back's own waits behind one whose notification says as
  much, or that notification is over. -/
  behind : ∀ read ∈ portal.pending, ∀ own ∈ portal.pending, ∀ write,
    own.notifies = some write → own.read.number < read.read.number →
    portal.Notified write ∨ ∃ first ∈ portal.pending, first.flight = read.flight ∧
      first.read.number ≤ read.read.number ∧
      ∃ later, first.notifies = some later ∧ write ≤ later
  older : ∀ read ∈ portal.pending, ∀ own ∈ portal.pending, ∀ write,
    own.notifies = some write → read.flight < write → read.read.number < own.read.number
  /-- A read whose fetch is from before a notified write-back will be dropped, unless it
  outlived its screens. -/
  lapsed : ∀ read ∈ portal.pending, ∀ write length, (write, length) ∈ portal.notified →
    write ≤ read.flight ∨ read.read.number ∈ portal.outlived ∨
      read.read.number < portal.hub.readsApplied
  overtaken : ∀ own ∈ portal.pending, ∀ write, own.notifies = some write →
    own.read.number < portal.hub.readsApplied → portal.Notified write
  level : ∀ write length, (write, length) ∈ portal.notified →
    FramesFromAfter write (portal.hub.log.drop length) ∧
      ∀ frame, portal.hub.latest = some frame → frame.FromAfter write

/-- Every write-back's notification is over, or a read of it or of a later one waits for the
list that is being fetched, or for the fetch that has just been settled. -/
def Current (settles : Option Nat) (portal : Portal α) : Prop :=
  ∀ write ∈ writeBacks portal.cache.log, portal.Notified write ∨
    ∃ own ∈ portal.pending, ∃ later, own.notifies = some later ∧ write ≤ later ∧
      (settles = some own.flight ∨ (portal.cache.cache.store.get? problemsRequest.key = none ∧
        portal.cache.cache.inflight.get? problemsRequest.key = some own.flight))

theorem Level.idle : Level rows (Portal.idle : Portal α) where
  after := .idle
  delivers := ⟨.idle, .idle⟩
  reads := rfl
  numbered := List.Pairwise.nil
  counted _ member := nomatch member
  applied := Nat.le_refl _
  forced _ member := nomatch member
  known _ _ member := nomatch member
  behind _ member := nomatch member
  older _ member := nomatch member
  lapsed _ member := nomatch member
  overtaken _ member := nomatch member
  level _ _ member := nomatch member

theorem FramesFromAfter.append {write : Nat} {left right : List (StreamEvent (Fetched α))}
    (early : FramesFromAfter write left) (late : FramesFromAfter write right) :
    FramesFromAfter write (left ++ right) := by
  intro client frame member
  cases List.mem_append.mp member with
  | inl before => exact early client frame before
  | inr added => exact late client frame added

theorem Frame.FromAfter.earlier {write later : Nat} {frame : Frame (Fetched α)}
    (after : frame.FromAfter later) (before : write ≤ later) : frame.FromAfter write :=
  fun list body => Nat.le_trans before (after list body)

/-- A step of the stream that only relays its latest frame. -/
theorem level_of_relays {hub after : Hub (Fetched α)} {write length : Nat}
    (relays : Relays hub after) (kept : length ≤ hub.log.length)
    (level : FramesFromAfter write (hub.log.drop length) ∧
      ∀ frame, hub.latest = some frame → frame.FromAfter write) :
    FramesFromAfter write (after.log.drop length) ∧
      ∀ frame, after.latest = some frame → frame.FromAfter write := by
  obtain ⟨events, log, latest⟩ := relays.log
  refine ⟨?_, fun frame same => level.2 frame (relays.latest frame same)⟩
  rw [log, List.drop_append_of_le_length kept]
  exact level.1.append fun client frame member => level.2 frame (latest client frame member)

/-- The latest frame of a stream without screens is none. -/
theorem Level.unattended (level : Level rows portal) (empty : portal.hub.clients.isEmpty = true) :
    portal.hub.latest = none :=
  (level.delivers.reads.unattended (List.isEmpty_iff.mp empty)).1

theorem Level.ofCache (level : Level rows portal) {cache : CacheSystem α}
    (after : AfterWrites cache.steps cache)
    (writes : ∀ write ∈ writeBacks portal.cache.log, write ∈ writeBacks cache.log) :
    Level rows { portal with cache := cache } :=
  { level with
    after
    forced := fun read member write notifies => by
      have forced := level.forced read member write notifies
      exact ⟨forced.1, writes write forced.2.1, forced.2.2⟩
    known := fun write length member => by
      have known := level.known write length member
      exact ⟨writes write known.1, known.2⟩ }

/-- A step of the stream that starts no read. -/
theorem Level.ofHub (level : Level rows portal) {hub : Hub (Fetched α)}
    (delivers : Delivers rows hub) (relays : Relays portal.hub hub)
    (reads : hub.reads = portal.hub.reads) (started : hub.readsStarted = portal.hub.readsStarted) :
    Level rows { portal with hub := hub } := by
  obtain ⟨events, log, _⟩ := relays.log
  exact {
    level with
    delivers
    reads := reads.trans level.reads
    counted := started.symm ▸ level.counted
    applied := relays.readsApplied.symm ▸ started.symm ▸ level.applied
    known := fun write length member => by
      refine ⟨(level.known write length member).1, ?_⟩
      have before := (level.known write length member).2
      simp only [log, List.length_append]
      omega
    lapsed := relays.readsApplied.symm ▸ level.lapsed
    overtaken := relays.readsApplied.symm ▸ level.overtaken
    level := fun write length member =>
      level_of_relays relays (level.known write length member).2
        (level.level write length member) }

end Level

section Landing

variable {rows : Fetched α → List ProblemRow} {before after portal : Portal α} {turn : Turn}
  {read : PendingRead} {outcome : ReadOutcome (Fetched α)}

structure Finishes (before after : Portal α) (read : PendingRead) : Prop where
  cache : after.cache = before.cache
  pending : after.pending = before.pending.filter fun other =>
    other.read.number ≠ read.read.number
  notified : ∀ write length, (write, length) ∈ after.notified →
    (write, length) ∈ before.notified ∨
      read.notifies = some write ∧ length = after.hub.log.length
  kept : ∀ entry ∈ before.notified, entry ∈ after.notified
  finished : ∀ write, read.notifies = some write → after.Notified write
  outlived : ∀ number ∈ before.outlived, number ∈ after.outlived
  unattended : ∀ write, read.notifies = some write → after.hub.clients.isEmpty = true →
    ∀ other ∈ after.pending, other.flight < write → other.read.number ∈ after.outlived
  attended : after.hub.clients.isEmpty = false → after.outlived = before.outlived

theorem landed_finishes (rows : Fetched α → List ProblemRow) (portal : Portal α) (turn : Turn) (read : PendingRead)
    (outcome : ReadOutcome (Fetched α)) :
    Finishes portal (portal.landed rows turn read outcome) read := by
  unfold Portal.landed
  generalize portal.landedHub rows turn read.read outcome = hub
  cases notifies : read.notifies with
  | none =>
      refine ⟨rfl, rfl, fun _ _ member => .inl member, fun _ member => member, ?_,
        fun _ member => member, ?_, fun _ => rfl⟩
      · intro write same
        cases notifies ▸ same
      · intro write same
        cases notifies ▸ same
  | some own =>
      dsimp only [Portal.notificationOver]
      refine ⟨rfl, rfl, ?_, fun _ member => List.mem_append_left _ member, ?_,
        fun _ member => List.mem_append_left _ member, ?_, ?_⟩
      · intro write length member
        cases List.mem_append.mp member with
        | inl old => exact .inl old
        | inr added =>
            cases List.mem_singleton.mp added
            exact .inr ⟨notifies, rfl⟩
      · intro write same
        cases notifies.symm.trans same
        exact ⟨own, _, List.mem_append_right _ List.mem_cons_self, Nat.le_refl _⟩
      · intro write same empty other member early
        cases notifies.symm.trans same
        refine List.mem_append_right _ ?_
        rw [if_pos empty]
        exact List.mem_map_of_mem (List.mem_filter.mpr ⟨member, decide_eq_true early⟩)
      · intro attended
        rw [if_neg (by simp_all)]
        exact List.append_nil _

theorem Finishes.notifiedKept (finishes : Finishes before after read) {write : Nat}
    (notified : before.Notified write) : after.Notified write := by
  obtain ⟨later, length, member, le⟩ := notified
  exact ⟨later, length, finishes.kept _ member, le⟩

theorem Finishes.mem_pending (finishes : Finishes before after read) {other : PendingRead} :
    other ∈ after.pending ↔ other ∈ before.pending ∧ other.read.number ≠ read.read.number := by
  rw [finishes.pending, List.mem_filter, decide_eq_true_eq]

/-- Clearing `ticking` changes nothing a landing is about. -/
theorem Landing.settled {hub next : Hub (Fetched α)} {landing : Read}
    (lands : Landing hub next landing outcome) : Landing hub next.settled landing outcome := by
  unfold Hub.settled
  split
  · exact lands
  · cases lands with
    | dropped drops relays => exact .dropped drops ⟨relays.log, relays.latest, relays.readsApplied⟩
    | quiet taken unforced latest log applied => exact .quiet taken unforced latest log applied
    | sent taken frame body latest log applied => exact .sent taken frame body latest log applied

theorem same_of_number {pending : List PendingRead} {one other : PendingRead}
    (numbered : pending.Pairwise fun one other => one.read.number < other.read.number)
    (oneIn : one ∈ pending) (otherIn : other ∈ pending)
    (same : one.read.number = other.read.number) : one = other := by
  have nodup : (pending.map fun read => read.read.number).Nodup :=
    List.pairwise_map.mpr (numbered.imp Nat.ne_of_lt)
  exact List.inj_on_of_nodup_map nodup oneIn otherIn same

theorem find_read {pending : List PendingRead} (member : read ∈ pending)
    (numbered : pending.Pairwise fun one other => one.read.number < other.read.number) :
    (pending.map PendingRead.read).find? (fun other => other.number = read.read.number) =
      some read.read := by
  induction pending with
  | nil => cases member
  | cons first rest ih =>
      obtain ⟨above, others⟩ := List.pairwise_cons.mp numbered
      rw [List.map_cons, List.find?_cons]
      cases List.mem_cons.mp member with
      | inl same =>
          subst same
          simp
      | inr later =>
          have different : first.read.number ≠ read.read.number := Nat.ne_of_lt (above read later)
          simp only [different, decide_false]
          exact ih later others

structure LandsHub (rows : Fetched α → List ProblemRow) (before after : Portal α)
    (read : PendingRead) (outcome : ReadOutcome (Fetched α)) : Prop where
  lands : Landing before.hub after.hub read.read outcome
  delivers : Delivers rows after.hub
  reads : after.hub.reads = after.pending.map PendingRead.read
  started : after.hub.readsStarted = before.hub.readsStarted
  clients : after.hub.clients.isEmpty = before.hub.clients.isEmpty

theorem settled_keeps (hub : Hub (Fetched α)) :
    hub.settled.reads = hub.reads ∧ hub.settled.readsStarted = hub.readsStarted ∧
      hub.settled.clients = hub.clients := by
  unfold Hub.settled
  split <;> exact ⟨rfl, rfl, rfl⟩

theorem landed_hub (rows : Fetched α → List ProblemRow) (portal : Portal α) (turn : Turn) (read : PendingRead)
    (outcome : ReadOutcome (Fetched α)) :
    (portal.landed rows turn read outcome).hub = portal.landedHub rows turn read.read outcome := by
  unfold Portal.landed
  cases read.notifies <;> rfl

theorem landed_landsHub (level : Level rows portal) (member : read ∈ portal.pending) (turn : Turn)
    (outcome : ReadOutcome (Fetched α)) :
    LandsHub rows portal (portal.landed rows turn read outcome) read outcome := by
  have found : (portal.hub.reads.find? fun other => other.number = read.read.number) =
      some read.read := by
    rw [level.reads]
    exact find_read member level.numbered
  let instant := turn.instant read.read.number
  have lands := land_landing rows instant outcome found
  have stays := land_reads rows instant outcome found
  have delivers := level.delivers.step (instant, .land read.read.number outcome)
  have reads : (portal.hub.reads.filter fun other => other.number ≠ read.read.number) =
      (portal.landed rows turn read outcome).pending.map PendingRead.read := by
    rw [(landed_finishes rows portal turn read outcome).pending, level.reads,
      List.filter_map]
    rfl
  have hub := landed_hub rows portal turn read outcome
  unfold Portal.landedHub at hub
  dsimp only at stays hub
  split at hub
  · have cleared := settled_keeps
      (portal.hub.step rows (instant, .land read.read.number outcome))
    refine ⟨hub ▸ lands.settled, hub ▸ delivers.step (instant, .settled), ?_, ?_, ?_⟩
    · rw [hub, ← reads]
      exact cleared.1.trans stays.1
    · rw [hub]
      exact cleared.2.1.trans stays.2.1
    · rw [hub]
      exact (congrArg List.isEmpty cleared.2.2).trans stays.2.2
  · exact ⟨hub ▸ lands, hub ▸ delivers, hub ▸ stays.1.trans reads, hub ▸ stays.2.1,
      hub ▸ stays.2.2⟩

/-- The reads applied so far only grow, and a read that lands on screens ends at or below
them. -/
theorem readsApplied_of_landing {hub next : Hub (Fetched α)} {landing : Read}
    (lands : Landing hub next landing outcome) :
    hub.readsApplied ≤ next.readsApplied ∧
      (hub.clients.isEmpty = false → landing.number ≤ next.readsApplied) := by
  have above : hub.drops landing.number = false → hub.readsApplied ≤ landing.number := by
    intro taken
    unfold Hub.drops at taken
    simp only [Bool.or_eq_false_iff, decide_eq_false_iff_not, not_lt] at taken
    exact taken.1
  cases lands with
  | dropped drops relays =>
      rw [relays.readsApplied]
      refine ⟨Nat.le_refl _, fun attended => ?_⟩
      unfold Hub.drops at drops
      simp only [attended, Bool.or_false, decide_eq_true_eq] at drops
      exact Nat.le_of_lt drops
  | quiet taken _ _ _ applied => exact ⟨applied ▸ above taken, fun _ => Nat.le_of_eq applied.symm⟩
  | sent taken _ _ _ _ applied => exact ⟨applied ▸ above taken, fun _ => Nat.le_of_eq applied.symm⟩

/-- A write-back's own read leaves the screens a frame from after the write-back, or the
notification of one at least as late is over already, or there are no screens. -/
theorem latest_of_notifying (level : Level rows portal) (member : read ∈ portal.pending)
    {write : Nat} (notifies : read.notifies = some write)
    (lands : LandsHub rows portal after read outcome)
    (from_flight : ∀ list, outcome = .list list → list.origin.startedAt = read.flight)
    (frame : Frame (Fetched α)) (latest : after.hub.latest = some frame) :
    frame.FromAfter write := by
  have forced := level.forced read member write notifies
  cases lands.lands with
  | dropped drops relays =>
      have before := relays.latest frame latest
      cases empty : portal.hub.clients.isEmpty with
      | true =>
          rw [level.unattended empty] at before
          cases before
      | false =>
          unfold Hub.drops at drops
          simp only [empty, Bool.or_false, decide_eq_true_eq] at drops
          obtain ⟨later, length, notified, le⟩ := level.overtaken read member write notifies drops
          exact ((level.level later length notified).2 frame before).earlier le
  | quiet _ unforced => exact nomatch forced.1.symm.trans unforced
  | sent _ sent body isLatest =>
      cases isLatest.symm.trans latest
      intro list same
      rw [from_flight list (body list same)]
      exact forced.2.2

/-- What a landing read writes is from after every write-back whose notification is over. -/
theorem level_of_landing {hub next : Hub (Fetched α)} {write length : Nat}
    (lands : Landing hub next read.read outcome) (kept : length ≤ hub.log.length)
    (fresh : ∀ list, outcome = .list list → hub.drops read.read.number = false →
      write ≤ list.origin.startedAt)
    (level : FramesFromAfter write (hub.log.drop length) ∧
      ∀ frame, hub.latest = some frame → frame.FromAfter write) :
    FramesFromAfter write (next.log.drop length) ∧
      ∀ frame, next.latest = some frame → frame.FromAfter write := by
  cases lands with
  | dropped _ relays => exact level_of_relays relays kept level
  | quiet _ _ latest log =>
      refine ⟨?_, latest.symm ▸ level.2⟩
      rw [log, List.drop_append_of_le_length kept]
      refine level.1.append fun client frame member => ?_
      cases List.mem_singleton.mp member
  | sent taken frame body latest log =>
      have own : frame.FromAfter write := fun list same => fresh list (body list same) taken
      obtain ⟨events, appended, frames⟩ := log
      refine ⟨?_, fun found same => ?_⟩
      · rw [appended, List.drop_append_of_le_length kept]
        exact level.1.append fun client found member => frames client found member ▸ own
      · cases latest.symm.trans same
        exact own

theorem log_length_of_landing {hub next : Hub (Fetched α)} {landing : Read}
    (lands : Landing hub next landing outcome) : hub.log.length ≤ next.log.length := by
  cases lands with
  | dropped _ relays =>
      obtain ⟨events, log, _⟩ := relays.log
      simp [log]
  | quiet _ _ _ log => simp [log]
  | sent _ _ _ _ log =>
      obtain ⟨events, log, _⟩ := log
      simp [log]

/-- A waiting read goes on: no later read of a write-back is left behind it, and its list,
if it is not dropped, is from after every notified write-back. -/
theorem Level.landed (level : Level rows portal) (member : read ∈ portal.pending)
    (first : ∀ own ∈ portal.pending, ∀ write, own.notifies = some write →
      own.read.number < read.read.number →
      portal.Notified write ∨ ∃ later, read.notifies = some later ∧ write ≤ later)
    (from_flight : ∀ list, outcome = .list list → list.origin.startedAt = read.flight)
    (fresh : ∀ list, outcome = .list list → portal.hub.drops read.read.number = false →
      ∀ write length, (write, length) ∈ portal.notified → write ≤ read.flight) :
    Level rows (portal.landed rows turn read outcome) := by
  have finishes := landed_finishes rows portal turn read outcome
  have lands := landed_landsHub level member turn outcome
  generalize portal.landed rows turn read outcome = after at finishes lands
  have applied := readsApplied_of_landing lands.lands
  have stays : ∀ other ∈ after.pending, other ∈ portal.pending := fun other inAfter =>
    (finishes.mem_pending.mp inAfter).1
  refine {
    after := finishes.cache ▸ level.after
    delivers := lands.delivers
    reads := lands.reads
    numbered := finishes.pending ▸ level.numbered.filter _
    counted := fun other inAfter => lands.started.symm ▸ level.counted other (stays other inAfter)
    applied := ?applied
    forced := fun other inAfter write notifies =>
      finishes.cache ▸ level.forced other (stays other inAfter) write notifies
    known := ?known
    behind := ?behind
    older := fun other otherIn own ownIn => level.older other (stays other otherIn) own (stays own ownIn)
    lapsed := ?lapsed
    overtaken := ?overtaken
    level := ?level }
  case applied =>
    rw [lands.started]
    cases lands.lands with
    | dropped _ relays => exact relays.readsApplied ▸ level.applied
    | quiet _ _ _ _ same => exact same ▸ level.counted read member
    | sent _ _ _ _ _ same => exact same ▸ level.counted read member
  case known =>
    intro write length inAfter
    cases finishes.notified write length inAfter with
    | inl old =>
        have known := level.known write length old
        exact ⟨finishes.cache ▸ known.1,
          Nat.le_trans known.2 (log_length_of_landing lands.lands)⟩
    | inr own =>
        exact ⟨finishes.cache ▸ (level.forced read member write own.1).2.1, Nat.le_of_eq own.2⟩
  case behind =>
    intro other otherIn own ownIn write notifies earlier
    cases level.behind other (stays other otherIn) own (stays own ownIn) write notifies earlier with
    | inl notified => exact .inl (finishes.notifiedKept notified)
    | inr waits =>
        obtain ⟨front, inPending, same, le, later, frontNotifies, above⟩ := waits
        by_cases isRead : front.read.number = read.read.number
        · cases same_of_number level.numbered inPending member isRead
          obtain ⟨last, length, found, reaches⟩ := finishes.finished later frontNotifies
          exact .inl ⟨last, length, found, Nat.le_trans above reaches⟩
        · exact .inr ⟨front, finishes.mem_pending.mpr ⟨inPending, isRead⟩, same, le, later,
            frontNotifies, above⟩
  case lapsed =>
    intro other otherIn write length inAfter
    cases finishes.notified write length inAfter with
    | inl old =>
        rcases level.lapsed other (stays other otherIn) write length old with late | out | past
        · exact .inl late
        · exact .inr (.inl (finishes.outlived _ out))
        · exact .inr (.inr (Nat.lt_of_lt_of_le past applied.1))
    | inr own =>
        by_cases early : other.flight < write
        · cases empty : after.hub.clients.isEmpty with
          | true => exact .inr (.inl (finishes.unattended write own.1 empty other otherIn early))
          | false =>
              have attended := lands.clients.symm.trans empty
              have below := level.older other (stays other otherIn) read member write own.1 early
              exact .inr (.inr (Nat.lt_of_lt_of_le below (applied.2 attended)))
        · exact .inl (Nat.le_of_not_lt early)
  case overtaken =>
    intro own ownIn write notifies past
    have reached : ∀ {number}, after.hub.readsApplied = number → number = read.read.number →
        after.Notified write := by
      intro number same isRead
      cases first own (stays own ownIn) write notifies (isRead ▸ same ▸ past) with
      | inl notified => exact finishes.notifiedKept notified
      | inr later =>
          obtain ⟨later, readNotifies, above⟩ := later
          obtain ⟨last, length, found, reaches⟩ := finishes.finished later readNotifies
          exact ⟨last, length, found, Nat.le_trans above reaches⟩
    cases lands.lands with
    | dropped _ relays =>
        exact finishes.notifiedKept
          (level.overtaken own (stays own ownIn) write notifies (relays.readsApplied ▸ past))
    | quiet _ _ _ _ same => exact reached same rfl
    | sent _ _ _ _ _ same => exact reached same rfl
  case level =>
    intro write length inAfter
    cases finishes.notified write length inAfter with
    | inl old =>
        refine level_of_landing lands.lands (level.known write length old).2 ?_
          (level.level write length old)
        intro list landed taken
        rw [from_flight list landed]
        exact fresh list landed taken write length old
    | inr own =>
        refine ⟨?_, latest_of_notifying level member own.1 lands from_flight⟩
        rw [own.2, List.drop_length]
        exact fun _ _ absent => nomatch absent

end Landing

end ZabbixPortal.Services
