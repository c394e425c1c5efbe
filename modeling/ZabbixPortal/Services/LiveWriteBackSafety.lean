import ZabbixPortal.Services.LiveWriteBackProperties

/-! The stream keeps level with the write-backs in every run whose outlived reads are
dropped when they land, and a run in which one is not. -/

set_option autoImplicit false

namespace ZabbixPortal.Services

open Foundation Core

variable {α : Type} {rows : Fetched α → List ProblemRow} {approxBytes : α → Nat}
  {portal : Portal α} {turn : Turn} {read : PendingRead} {settles : Option Nat}

theorem Current.landed (current : Current settles portal) (level : Level rows portal)
    (waiting : read ∈ portal.pending) (outcome : ReadOutcome (Fetched α)) :
    Current settles (portal.landed rows turn read outcome) := by
  have finishes := landed_finishes rows portal turn read outcome
  generalize portal.landed rows turn read outcome = after at finishes
  intro write member
  cases current write (finishes.cache ▸ member) with
  | inl notified => exact .inl (finishes.notifiedKept notified)
  | inr waits =>
      obtain ⟨own, inPending, later, notifies, above, fetch⟩ := waits
      by_cases isRead : own.read.number = read.read.number
      · cases same_of_number level.numbered inPending waiting isRead
        obtain ⟨last, length, found, reaches⟩ := finishes.finished later notifies
        exact .inl ⟨last, length, found, Nat.le_trans above reaches⟩
      · exact .inr ⟨own, finishes.mem_pending.mpr ⟨inPending, isRead⟩, later, notifies, above,
          finishes.cache ▸ fetch⟩

section Fetch

/-- A read that has just been started waits for a fetch from after every write-back. -/
theorem Level.enlist (level : Level rows portal) {hub : Hub (Fetched α)}
    (delivers : Delivers rows hub) (relays : Relays portal.hub hub)
    (reads : hub.reads = portal.hub.reads ++ [read.read])
    (number : read.read.number = portal.hub.readsStarted + 1)
    (started : hub.readsStarted = portal.hub.readsStarted + 1)
    (fresh : ∀ write ∈ writeBacks portal.cache.log, write ≤ read.flight)
    (forced : ∀ write, read.notifies = some write →
      read.read.force = true ∧ write ∈ writeBacks portal.cache.log)
    (joined : ∀ own ∈ portal.pending, ∀ write, own.notifies = some write →
      portal.Notified write ∨ ∃ first ∈ portal.pending ++ [read], first.flight = read.flight ∧
        ∃ later, first.notifies = some later ∧ write ≤ later) :
    Level rows { portal with hub := hub, pending := portal.pending ++ [read] } := by
  obtain ⟨events, log, _⟩ := relays.log
  have either : ∀ {other}, other ∈ portal.pending ++ [read] →
      other ∈ portal.pending ∨ other = read := by
    intro other member
    exact (List.mem_append.mp member).imp_right List.mem_singleton.mp
  have below : ∀ other ∈ portal.pending ++ [read], other.read.number ≤ read.read.number := by
    intro other member
    cases either member with
    | inl old => exact number ▸ Nat.le_succ_of_le (level.counted other old)
    | inr own => exact own ▸ Nat.le_refl _
  refine {
    after := level.after
    delivers
    reads := ?reads
    numbered := ?numbered
    counted := fun other member => started.symm ▸ number ▸ below other member
    applied := ?applied
    forced := ?forced
    known := ?known
    behind := ?behind
    older := ?older
    lapsed := ?lapsed
    overtaken := ?overtaken
    level := fun write length member =>
      level_of_relays relays (level.known write length member).2
        (level.level write length member) }
  case reads => rw [reads, level.reads, List.map_append, List.map_singleton]
  case numbered =>
    refine List.pairwise_append.mpr ⟨level.numbered, List.pairwise_singleton _ _, ?_⟩
    intro other old last isLast
    cases List.mem_singleton.mp isLast
    exact number ▸ Nat.lt_succ_of_le (level.counted other old)
  case applied => exact relays.readsApplied ▸ started.symm ▸ Nat.le_succ_of_le level.applied
  case forced =>
    intro other member write notifies
    cases either member with
    | inl old => exact level.forced other old write notifies
    | inr own =>
        subst own
        have own := forced write notifies
        exact ⟨own.1, own.2, fresh write own.2⟩
  case known =>
    intro write length member
    have known := level.known write length member
    refine ⟨known.1, ?_⟩
    rw [log, List.length_append]
    exact Nat.le_add_right_of_le known.2
  case behind =>
    intro other member own ownIn write notifies earlier
    have ownOld : own ∈ portal.pending := by
      cases either ownIn with
      | inl old => exact old
      | inr same =>
          exact absurd (below other member) (Nat.not_le_of_lt (same ▸ earlier))
    cases either member with
    | inl old =>
        cases level.behind other old own ownOld write notifies earlier with
        | inl notified => exact .inl notified
        | inr waits =>
            obtain ⟨first, inPending, rest⟩ := waits
            exact .inr ⟨first, List.mem_append_left _ inPending, rest⟩
    | inr same =>
        subst same
        cases joined own ownOld write notifies with
        | inl notified => exact .inl notified
        | inr waits =>
            obtain ⟨first, inPending, flight, later⟩ := waits
            exact .inr ⟨first, inPending, flight, below first inPending, later⟩
  case older =>
    intro other member own ownIn write notifies early
    cases either member with
    | inl old =>
        cases either ownIn with
        | inl ownOld => exact level.older other old own ownOld write notifies early
        | inr same => exact same ▸ number ▸ Nat.lt_succ_of_le (level.counted other old)
    | inr same =>
        subst same
        have known : write ∈ writeBacks portal.cache.log := by
          cases either ownIn with
          | inl ownOld => exact (level.forced own ownOld write notifies).2.1
          | inr same => exact (forced write (same ▸ notifies)).2
        exact absurd early (Nat.not_lt_of_le (fresh write known))
  case lapsed =>
    intro other member write length notified
    cases either member with
    | inl old => exact relays.readsApplied ▸ level.lapsed other old write length notified
    | inr same => exact .inl (same ▸ fresh write (level.known write length notified).1)
  case overtaken =>
    intro own member write notifies past
    rw [relays.readsApplied] at past
    cases either member with
    | inl old => exact level.overtaken own old write notifies past
    | inr same =>
        subst same
        have above := level.applied
        omega

def Portal.waitFor (portal : Portal α) (cache : CacheSystem α) (read : PendingRead) : Portal α :=
  { portal with cache := cache, pending := portal.pending ++ [read] }

theorem fetch_cases (rows : Fetched α → List ProblemRow) (approxBytes : α → Nat) (portal : Portal α) (turn : Turn) (read : Read) (notifies : Option Nat) :
    let cache := portal.cache.step approxBytes (turn.now, .call problemsRequest none)
    (∃ list entry, portal.cache.cache.store.get? problemsRequest.key = some entry ∧
      list = entry.v ∧
      portal.fetch rows approxBytes turn read notifies =
        (portal.waitFor cache { read, flight := list.origin.startedAt, notifies }).landed rows turn
          { read, flight := list.origin.startedAt, notifies } (.list list)) ∨
    ∃ flight, cache.cache.inflight.get? problemsRequest.key = some flight ∧
      portal.fetch rows approxBytes turn read notifies =
        portal.waitFor cache { read, flight, notifies } := by
  intro cache
  unfold Portal.fetch
  cases problems_call turn.now approxBytes portal.cache with
  | inl answered =>
      obtain ⟨answer, entry, log, stored, value⟩ := answered
      refine .inl ⟨answer.value, entry, stored, value, ?_⟩
      dsimp only
      rw [log, List.drop_left]
      rfl
  | inr waits =>
      obtain ⟨log, flight, registered⟩ := waits
      refine .inr ⟨flight, registered, ?_⟩
      dsimp only
      rw [log, List.drop_length, registered]
      rfl

structure StartsRead (rows : Fetched α → List ProblemRow) (portal : Portal α)
    (hub : Hub (Fetched α)) (read : Read) : Prop where
  delivers : Delivers rows hub
  relays : Relays portal.hub hub
  reads : hub.reads = portal.hub.reads ++ [read]
  number : read.number = portal.hub.readsStarted + 1
  started : hub.readsStarted = portal.hub.readsStarted + 1

/-- Every write-back's notification is over, or waits for the list being fetched, or will be
over with the read that is about to fetch. -/
def Owed (notifies : Option Nat) (portal : Portal α) : Prop :=
  ∀ write ∈ writeBacks portal.cache.log, portal.Notified write ∨
    portal.cache.cache.store.get? problemsRequest.key = none ∧
      ((∃ own ∈ portal.pending, ∃ later, own.notifies = some later ∧ write ≤ later ∧
        portal.cache.cache.inflight.get? problemsRequest.key = some own.flight) ∨
        ∃ later, notifies = some later ∧ write ≤ later)

theorem Current.owed (current : Current none portal) (notifies : Option Nat) :
    Owed notifies portal := by
  intro write member
  cases current write member with
  | inl notified => exact .inl notified
  | inr waits =>
      obtain ⟨own, inPending, later, ownNotifies, above, fetch⟩ := waits
      cases fetch with
      | inl settled => cases settled
      | inr registered =>
          exact .inr ⟨registered.1, .inl ⟨own, inPending, later, ownNotifies, above, registered.2⟩⟩

/-- A stored list is from after every write-back. -/
theorem stored_list_fresh (after : AfterWrites portal.cache.steps portal.cache)
    {entry : Entry (Fetched α)}
    (stored : portal.cache.cache.store.get? problemsRequest.key = some entry) :
    ∀ write ∈ writeBacks portal.cache.log, write ≤ entry.v.origin.startedAt :=
  fun write member => (after.stored _ entry stored).2.2 write member (by decide)

/-- A fetch that is registered for the list began after every write-back. -/
theorem registered_fresh {system : CacheSystem α} (after : AfterWrites system.steps system)
    {flight : Nat} (registered : system.cache.inflight.get? problemsRequest.key = some flight) :
    ∀ write ∈ writeBacks system.log, write ≤ flight :=
  fun write member => after.registered write member _ flight (by decide) registered

theorem fetch_keeps (level : Level rows portal) {hub : Hub (Fetched α)} {read : Read}
    (starts : StartsRead rows portal hub read) {notifies : Option Nat}
    (forced : ∀ write, notifies = some write →
      read.force = true ∧ write ∈ writeBacks portal.cache.log)
    (owed : Owed notifies portal) :
    let next := { portal with hub := hub }.fetch rows approxBytes turn read notifies
    Level rows next ∧ Current none next := by
  have continues : Continues none portal.cache
      (portal.cache.step approxBytes (turn.now, .call problemsRequest none)) := by
    have called := Continues.call turn.now portal.cache problemsRequest none
    exact ⟨called.stored, called.registered, called.writes⟩
  have after := level.after.step approxBytes (turn.now, .call problemsRequest none)
  have fetched := fetch_cases rows approxBytes { portal with hub := hub }
    turn read notifies
  dsimp only at fetched ⊢
  generalize portal.cache.step approxBytes (turn.now, .call problemsRequest none) = cache
    at continues after fetched
  have writes : ∀ write, write ∈ writeBacks cache.log ↔ write ∈ writeBacks portal.cache.log :=
    fun write => continues.writes ▸ Iff.rfl
  have called : Level rows { portal with cache := cache } :=
    level.ofCache after fun write member => (writes write).mpr member
  have enlisted : ∀ flight, (∀ write ∈ writeBacks cache.log, write ≤ flight) →
      (∀ own ∈ portal.pending, ∀ write, own.notifies = some write →
        portal.Notified write ∨ ∃ first ∈ portal.pending ++ [PendingRead.mk read flight notifies],
          first.flight = flight ∧ ∃ later, first.notifies = some later ∧ write ≤ later) →
      Level rows (Portal.waitFor { portal with hub := hub } cache { read, flight, notifies }) :=
    fun flight fresh joined =>
      called.enlist starts.delivers starts.relays starts.reads starts.number starts.started fresh
        (fun write same => ⟨(forced write same).1, (writes write).mpr (forced write same).2⟩) joined
  rcases fetched with ⟨list, entry, stored, rfl, landed⟩ | ⟨flight, registered, waits⟩
  · have notified : ∀ write ∈ writeBacks portal.cache.log, portal.Notified write := by
      intro write member
      cases owed write member with
      | inl notified => exact notified
      | inr missing => exact nomatch missing.1.symm.trans stored
    have fresh : ∀ write ∈ writeBacks cache.log, write ≤ entry.v.origin.startedAt :=
      fun write member => stored_list_fresh level.after stored write ((writes write).mp member)
    have joins := enlisted entry.v.origin.startedAt fresh fun own member write same =>
      .inl (notified write (level.forced own member write same).2.1)
    have last : ({ read, flight := entry.v.origin.startedAt, notifies } : PendingRead) ∈
        portal.pending ++ [{ read, flight := entry.v.origin.startedAt, notifies }] :=
      List.mem_append_right _ List.mem_cons_self
    rw [landed]
    refine ⟨joins.landed last ?first ?same ?fresh, Current.landed ?current joins last _⟩
    case first =>
      intro own member write same _
      exact .inl (notified write ((writes write).mp (joins.forced own member write same).2.1))
    case same =>
      intro list same
      cases same
      rfl
    case fresh =>
      intro _ _ _ write length member
      exact fresh write (joins.known write length member).1
    case current => exact fun write member => .inl (notified write ((writes write).mp member))
  · have missing : portal.cache.cache.store.get? problemsRequest.key = none →
        cache.cache.store.get? problemsRequest.key = none := by
      intro absent
      refine Option.eq_none_iff_forall_ne_some.mpr fun entry found => ?_
      rcases continues.stored entry found with ⟨old, before⟩ | ⟨_, _, settled, _⟩
      · exact nomatch absent.symm.trans before
      · cases settled
    have joins := enlisted flight (registered_fresh after registered) fun own member write same => by
      rcases owed write (level.forced own member write same).2.1 with
        notified | ⟨_, ⟨first, inPending, later, firstNotifies, above, fetch⟩ | own⟩
      · exact .inl notified
      · have same := (continues.registered _ fetch (by simp)).symm.trans registered
        exact .inr ⟨first, List.mem_append_left _ inPending, Option.some.inj same, later,
          firstNotifies, above⟩
      · exact .inr ⟨⟨read, flight, notifies⟩, List.mem_append_right _ List.mem_cons_self, rfl, own⟩
    rw [waits]
    refine ⟨joins, fun write member => ?_⟩
    rcases owed write ((writes write).mp member) with
      notified | ⟨absent, ⟨first, inPending, later, firstNotifies, above, fetch⟩ | own⟩
    · exact .inl notified
    · exact .inr ⟨first, List.mem_append_left _ inPending, later, firstNotifies, above,
        .inr ⟨missing absent, continues.registered _ fetch (by simp)⟩⟩
    · obtain ⟨later, same, above⟩ := own
      exact .inr ⟨⟨read, flight, notifies⟩, List.mem_append_right _ List.mem_cons_self, later, same,
        above, .inr ⟨missing absent, registered⟩⟩

end Fetch

section Steps

/-- A step of the stream that starts no read leaves it at that. -/
theorem streamed_none (portal : Portal α) {input : StreamInput (Fetched α)} (notifies : Option Nat)
    (reads : (portal.hub.step rows (turn.instant 0, input)).reads = portal.hub.reads) :
    portal.streamed rows approxBytes turn input notifies =
      { portal with hub := portal.hub.step rows (turn.instant 0, input) } := by
  unfold Portal.streamed
  dsimp only
  rw [reads, List.drop_length]

theorem streamed_one (portal : Portal α) {input : StreamInput (Fetched α)} (notifies : Option Nat) {read : Read}
    (reads : (portal.hub.step rows (turn.instant 0, input)).reads =
      portal.hub.reads ++ [read]) :
    portal.streamed rows approxBytes turn input notifies =
      { portal with hub := portal.hub.step rows (turn.instant 0, input) }.fetch rows approxBytes
        turn read notifies := by
  unfold Portal.streamed
  dsimp only
  rw [reads, List.drop_left]

/-- A step of the stream that no write-back waits for. -/
theorem streamed_keeps (level : Level rows portal) (current : Current none portal)
    {input : StreamInput (Fetched α)} (other : input.isLanding = false) :
    Level rows (portal.streamed rows approxBytes turn input none) ∧
      Current none (portal.streamed rows approxBytes turn input none) := by
  have relays := step_relays rows portal.hub (turn.instant 0) input other
  have delivers := level.delivers.step (turn.instant 0, input)
  cases step_starts rows portal.hub (turn.instant 0) input other with
  | none reads started =>
      rw [streamed_none portal none reads]
      exact ⟨level.ofHub delivers relays reads started, current⟩
  | one force ticks reads started =>
      rw [streamed_one portal none reads]
      exact fetch_keeps level ⟨delivers, relays, reads, rfl, started⟩ (fun _ same => nomatch same)
        (current.owed none)

/-- A step of the cache that is not a write-back. -/
theorem cached_keeps (level : Level rows portal) (current : Current none portal)
    {now : ℤ} {action : CacheAction α}
    (continues : Continues none portal.cache (portal.cache.act approxBytes (now, action))) :
    let next := { portal with cache := portal.cache.step approxBytes (now, action) }
    Level rows next ∧ Current none next := by
  refine ⟨level.ofCache (level.after.step approxBytes (now, action)) fun write member =>
    continues.writes.symm ▸ member, fun write member => ?_⟩
  cases current write (continues.writes ▸ member) with
  | inl notified => exact .inl notified
  | inr waits =>
      obtain ⟨own, inPending, later, notifies, above, fetch⟩ := waits
      refine .inr ⟨own, inPending, later, notifies, above, .inr ?_⟩
      rcases fetch with absent | ⟨missing, registered⟩
      · cases absent
      · refine ⟨?_, continues.registered _ registered (by simp)⟩
        refine Option.eq_none_iff_forall_ne_some.mpr fun entry found => ?_
        rcases continues.stored entry found with ⟨old, before⟩ | ⟨_, _, absent, _⟩
        · exact nomatch missing.symm.trans before
        · cases absent

theorem Level.notificationOver (level : Level rows portal) {write : Nat}
    (empty : portal.hub.clients.isEmpty = true) (member : write ∈ writeBacks portal.cache.log) :
    Level rows (portal.notificationOver write) := by
  have grows : ∀ {earlier}, portal.Notified earlier →
      (portal.notificationOver write).Notified earlier := by
    rintro earlier ⟨later, length, notified, above⟩
    exact ⟨later, length, List.mem_append_left _ notified, above⟩
  refine {
    level with
    known := ?known
    behind := ?behind
    lapsed := ?lapsed
    overtaken := fun own inPending write notifies past =>
      grows (level.overtaken own inPending write notifies past)
    level := ?level }
  case known =>
    intro other length notified
    cases List.mem_append.mp notified with
    | inl old => exact level.known other length old
    | inr added =>
        cases List.mem_singleton.mp added
        exact ⟨member, Nat.le_refl _⟩
  case behind =>
    intro read inPending own ownIn earlier notifies before
    exact (level.behind read inPending own ownIn earlier notifies before).imp_left grows
  case lapsed =>
    intro read inPending other length notified
    unfold Portal.notificationOver
    dsimp only
    cases List.mem_append.mp notified with
    | inl old =>
        exact (level.lapsed read inPending other length old).imp_right
          (Or.imp_left (List.mem_append_left _))
    | inr added =>
        cases List.mem_singleton.mp added
        by_cases early : read.flight < write
        · refine .inr (.inl (List.mem_append_right _ ?_))
          rw [if_pos empty]
          exact List.mem_map_of_mem (List.mem_filter.mpr ⟨inPending, decide_eq_true early⟩)
        · exact .inl (Nat.le_of_not_lt early)
  case level =>
    intro other length notified
    cases List.mem_append.mp notified with
    | inl old => exact level.level other length old
    | inr added =>
        cases List.mem_singleton.mp added
        refine ⟨?_, fun frame latest => nomatch (level.unattended empty).symm.trans latest⟩
        show FramesFromAfter write (portal.hub.log.drop portal.hub.log.length)
        rw [List.drop_length]
        exact fun _ _ absent => nomatch absent

/-- A write-back is noted at once where no screen is connected; otherwise its read waits
for a list fetched after it. -/
theorem writeBack_keeps (level : Level rows portal) :
    Level rows (portal.writeBack rows approxBytes turn) ∧
      Current none (portal.writeBack rows approxBytes turn) := by
  have invalidates := problems_writeBack turn.now approxBytes portal.cache
  have after := level.after.step approxBytes (turn.now, .writeBack)
  have delivers := level.delivers.step (turn.instant 0, .notifyProblemsChanged)
  have relays := step_relays rows portal.hub (turn.instant 0) .notifyProblemsChanged rfl
  unfold Portal.writeBack
  dsimp only at invalidates ⊢
  generalize portal.cache.step approxBytes (turn.now, .writeBack) = cache at invalidates after ⊢
  obtain ⟨missing, writes⟩ := invalidates
  have newest : portal.cache.steps ∈ writeBacks cache.log := by
    rw [writes]
    exact List.mem_append_right _ List.mem_cons_self
  have last : ∀ write ∈ writeBacks cache.log, write ≤ portal.cache.steps := by
    intro write member
    rw [writes] at member
    cases List.mem_append.mp member with
    | inl old => exact Nat.le_of_lt (level.after.past write old)
    | inr own => exact Nat.le_of_eq (List.mem_singleton.mp own)
  have invalidated : Level rows { portal with cache := cache } :=
    level.ofCache after fun write member => writes.symm ▸ List.mem_append_left _ member
  split
  · next empty =>
      exact ⟨invalidated.notificationOver empty newest, fun write member =>
        .inl ⟨_, _, List.mem_append_right _ List.mem_cons_self, last write member⟩⟩
  · next attended =>
      have starts : portal.hub.step rows (turn.instant 0, .notifyProblemsChanged) =
          portal.hub.startRead true false := by
        unfold Hub.step Hub.notifyProblemsChanged
        exact if_neg attended
      rw [streamed_one { portal with cache := cache } _ (congrArg Hub.reads starts), starts]
      rw [starts] at delivers relays
      refine fetch_keeps invalidated ⟨delivers, relays, rfl, rfl, rfl⟩ ?_ fun write member =>
        .inr ⟨missing, .inr ⟨_, rfl, last write member⟩⟩
      intro write same
      cases same
      exact ⟨rfl, newest⟩

/-- No read that outlived its screens goes out when this fetch settles. -/
def DropsOutlived (portal : Portal α) (flight : Nat) : Prop :=
  ∀ read ∈ portal.pending, read.flight = flight → read.read.number ∈ portal.outlived →
    portal.hub.drops read.read.number = true

theorem DropsOutlived.landed {flight : Nat} (drops : DropsOutlived portal flight)
    (level : Level rows portal) (waiting : read ∈ portal.pending)
    (outcome : ReadOutcome (Fetched α)) :
    DropsOutlived (portal.landed rows turn read outcome) flight := by
  have finishes := landed_finishes rows portal turn read outcome
  have lands := landed_landsHub level waiting turn outcome
  generalize portal.landed rows turn read outcome = after at finishes lands
  intro other inAfter onFlight out
  unfold Hub.drops
  cases empty : after.hub.clients.isEmpty with
  | true => exact Bool.or_true _
  | false =>
      have dropped := drops other (finishes.mem_pending.mp inAfter).1 onFlight
        (finishes.attended empty ▸ out)
      unfold Hub.drops at dropped
      simp only [lands.clients.symm.trans empty, Bool.or_false, decide_eq_true_eq] at dropped
      have past := Nat.lt_of_lt_of_le dropped (readsApplied_of_landing lands.lands).1
      rw [Bool.or_false]
      exact decide_eq_true past

/-- The reads of a fetch that is over go on, one after another. -/
theorem landed_all_keeps {flight : Nat} {known : Bool} {result : Option (Fetched α)}
    (origin : ∀ value, result = some value → value.origin.startedAt = flight)
    (waiting : List PendingRead) (level : Level rows portal)
    (current : Current (some flight) portal)
    (drops : ∀ value, result = some value → DropsOutlived portal flight)
    (all : (portal.pending.filter fun read => read.flight = flight) = waiting) :
    let next := waiting.foldl
      (fun portal read => portal.landed rows turn read (outcomeOf known result)) portal
    Level rows next ∧ Current none next := by
  induction waiting generalizing portal with
  | nil =>
      refine ⟨level, fun write member => ?_⟩
      rcases current write member with notified | ⟨own, inPending, later, same, above, fetch⟩
      · exact .inl notified
      · refine .inr ⟨own, inPending, later, same, above, .inr (fetch.resolve_left ?_)⟩
        intro onFlight
        have left : own ∈ portal.pending.filter fun read => read.flight = flight :=
          List.mem_filter.mpr ⟨inPending, decide_eq_true (Option.some.inj onFlight).symm⟩
        exact nomatch all ▸ left
  | cons read rest ih =>
      have here : read ∈ portal.pending ∧ read.flight = flight := by
        have front : read ∈ portal.pending.filter fun read => read.flight = flight :=
          all ▸ List.mem_cons_self
        exact ⟨(List.mem_filter.mp front).1, of_decide_eq_true (List.mem_filter.mp front).2⟩
      have order := level.numbered.filter fun read => decide (read.flight = flight)
      rw [all] at order
      obtain ⟨above, _⟩ := List.pairwise_cons.mp order
      refine ih (level.landed here.1 ?first ?same ?fresh) (current.landed level here.1 _)
        (fun found same => (drops found same).landed level here.1 _) ?rest
      case first =>
        intro own ownIn write notifies earlier
        rcases level.behind read here.1 own ownIn write notifies earlier with
          notified | ⟨front, inPending, onFlight, before, later⟩
        · exact .inl notified
        · have inFront : front ∈ portal.pending.filter fun read => read.flight = flight :=
            List.mem_filter.mpr ⟨inPending, decide_eq_true (onFlight.trans here.2)⟩
          rw [all] at inFront
          cases List.mem_cons.mp inFront with
          | inl isRead => exact .inr (isRead ▸ later)
          | inr behind => exact absurd (above front behind) (Nat.not_lt_of_le before)
      case same =>
        intro list landed
        cases result with
        | none => cases landed
        | some value =>
            cases landed
            exact (origin _ rfl).trans here.2.symm
      case fresh =>
        intro list landed taken write length notified
        rcases level.lapsed read here.1 write length notified with late | out | past
        · exact late
        · cases result with
          | none => cases landed
          | some value =>
              exact nomatch taken.symm.trans (drops value rfl read here.1 here.2 out)
        · unfold Hub.drops at taken
          simp only [decide_eq_true past, Bool.true_or] at taken
          cases taken
      case rest =>
        rw [(landed_finishes rows portal turn read _).pending, List.filter_comm, all,
          List.filter_cons_of_neg (by simp)]
        refine List.filter_eq_self.mpr fun other later => decide_eq_true ?_
        exact Nat.ne_of_gt (above other later)

theorem settle_of_not_running {system : CacheSystem α} {flight : Nat}
    (idle : system.isRunning flight = false) (now : ℤ) (outcome : Option α) :
    system.settle approxBytes now flight outcome = system := by
  unfold CacheSystem.isRunning at idle
  unfold CacheSystem.settle
  cases found : system.flights.get? flight with
  | none => rfl
  | some record =>
      rw [found] at idle
      refine if_pos ?_
      cases ended : record.settled with
      | none => simp [ended] at idle
      | some settlement => rfl

theorem settle_of_running (approxBytes : α → Nat) {system : CacheSystem α} {flight : Nat}
    (running : system.isRunning flight = true) (now : ℤ) (outcome : Option α) :
    ∃ record settlement,
      (system.settle approxBytes now flight outcome).flights.get? flight = some record ∧
        record.settled = some settlement ∧ (settlement.result.isSome → outcome.isSome) := by
  unfold CacheSystem.isRunning at running
  unfold CacheSystem.settle
  cases found : system.flights.get? flight with
  | none =>
      rw [found] at running
      cases running
  | some record =>
      rw [found] at running
      have unsettled : record.settled.isSome = false := by
        cases ended : record.settled with
        | none => rfl
        | some settlement => simp [ended] at running
      dsimp only
      rw [if_neg (by rw [unsettled]; decide)]
      refine ⟨_, _, OrderedMap.get?_set_self _ _ _, rfl, fun present => ?_⟩
      simpa using present

theorem settled_keeps_level (level : Level rows portal) (current : Current none portal)
    {flight : Nat} {outcome : Option α}
    (drops : ∀ content, outcome = some content → DropsOutlived portal flight) (known : Bool) :
    Level rows (portal.settled rows approxBytes turn flight outcome known) ∧
      Current none (portal.settled rows approxBytes turn flight outcome known) := by
  have continues := Continues.settle turn.now approxBytes portal.cache flight outcome
  have after := level.after.step approxBytes (turn.now, .settle flight outcome)
  unfold Portal.settled
  dsimp only
  cases running : portal.cache.isRunning flight with
  | false =>
      refine cached_keeps level current ?_
      have idle : portal.cache.act approxBytes (turn.now, .settle flight outcome) = portal.cache :=
        settle_of_not_running running turn.now outcome
      rw [idle]
      exact .refl none portal.cache
  | true =>
      obtain ⟨record, settlement, found, ended, present⟩ :=
        settle_of_running approxBytes running turn.now outcome
      have isSettled : ((portal.cache.step approxBytes (turn.now, .settle flight outcome)).flights.get?
          flight).bind (·.settled) = some settlement := by
        rw [← ended]
        exact congrArg (Option.bind · Flight.settled) found
      rw [isSettled]
      refine landed_all_keeps (fun value same => (after.settled _ record settlement value found ended
        same).1) _ (level.ofCache after fun write member => continues.writes.symm ▸ member)
        (fun write member => ?_) (fun value same => ?_) rfl
      · rcases current write (continues.writes ▸ member) with
          notified | ⟨own, inPending, later, notifies, above, fetch⟩
        · exact .inl notified
        · refine .inr ⟨own, inPending, later, notifies, above, ?_⟩
          by_cases onFlight : some flight = some own.flight
          · exact .inl onFlight
          · obtain ⟨missing, registered⟩ := fetch.resolve_left (by simp)
            refine .inr ⟨?_, continues.registered _ registered onFlight⟩
            refine Option.eq_none_iff_forall_ne_some.mpr fun entry stored => ?_
            rcases continues.stored entry stored with ⟨old, before⟩ |
              ⟨number, fetching, same, inFlights, key, kept, running⟩
            · exact nomatch missing.symm.trans before
            · cases same
              have own := level.after.running _ fetching inFlights kept running
              rw [key, registered] at own
              exact onFlight own.symm
      · obtain ⟨content, same⟩ := Option.isSome_iff_exists.mp (present (Option.isSome_of_eq_some same))
        exact drops content same

/-- What one turn keeps, whichever it is. -/
theorem step_keeps (level : Level rows portal) (current : Current none portal)
    (turn : Turn × PortalInput α)
    (drops : ∀ flight content known, turn.2 = .settle flight (some content) known →
      DropsOutlived portal flight) :
    Level rows (portal.step rows approxBytes turn) ∧
      Current none (portal.step rows approxBytes turn) := by
  obtain ⟨turn, input⟩ := turn
  cases input with
  | subscribe owner alive => exact streamed_keeps level current rfl
  | leave client => exact streamed_keeps level current rfl
  | endStreamOf client => exact streamed_keeps level current rfl
  | endStreams => exact streamed_keeps level current rfl
  | drain client => exact streamed_keeps level current rfl
  | tick => exact streamed_keeps level current rfl
  | writeBack => exact writeBack_keeps level
  | settle flight outcome known =>
      exact settled_keeps_level level current
        (fun content same => drops flight content known (same ▸ rfl)) known
  | call request parent => exact cached_keeps level current (.call _ _ _ _)
  | resume call => exact cached_keeps level current (.resume _ _)
  | forgetSnapshot => exact cached_keeps level current (.forgetSnapshot _)

theorem run_keeps (turns : List (Turn × PortalInput α))
    (drops : ∀ before turn after, turns = before ++ turn :: after →
      ∀ flight content known, turn.2 = .settle flight (some content) known →
        DropsOutlived (Portal.run rows approxBytes before) flight) :
    Level rows (Portal.run rows approxBytes turns) ∧
      Current none (Portal.run rows approxBytes turns) := by
  induction turns using List.reverseRecOn with
  | nil => exact ⟨.idle, fun _ member => nomatch member⟩
  | append_singleton turns turn ih =>
      have split : Portal.run rows approxBytes (turns ++ [turn]) =
          (Portal.run rows approxBytes turns).step rows approxBytes turn := List.foldl_concat ..
      obtain ⟨earlier, last⟩ := forall_split_snoc.mp drops
      obtain ⟨level, current⟩ := ih earlier
      rw [split]
      exact step_keeps level current turn last

end Steps

/-- In a run in which every read that outlived its screens is dropped when its list lands,
no frame goes out after a write-back's notification with a list from before it. -/
theorem stream_stays_after_writes (rows : Fetched α → List ProblemRow) (approxBytes : α → Nat)
    (turns : List (Turn × PortalInput α))
    (drops : ∀ before turn after, turns = before ++ turn :: after →
      ∀ flight content known, turn.2 = .settle flight (some content) known →
        DropsOutlived (Portal.run rows approxBytes before) flight) :
    let portal := Portal.run rows approxBytes turns
    ∀ write length, (write, length) ∈ portal.notified →
      FramesFromAfter write (portal.hub.log.drop length) := by
  intro portal write length notified
  exact ((run_keeps turns drops).1.level write length notified).1

section OutlivedRead

/-! A screen leaves while its read is on its way, somebody acknowledges a problem, and the
list lands: with no screen, and with one that has joined meanwhile. -/

def atOnce : Turn := { now := 0, room := fun _ _ => true }

def screenLeaves : List (Turn × PortalInput (List ProblemRow)) :=
  [(atOnce, .subscribe "operator" true), (atOnce, .leave 0), (atOnce, .writeBack)]

def screenReturns : List (Turn × PortalInput (List ProblemRow)) :=
  screenLeaves ++ [(atOnce, .subscribe "operator" true)]

def listLands : Turn × PortalInput (List ProblemRow) := (atOnce, .settle 0 (some []) true)

theorem stream_stays_after_writes_unwatched :
    let portal := Portal.run Fetched.content List.length (screenLeaves ++ [listLands])
    ∀ write length, (write, length) ∈ portal.notified →
      FramesFromAfter write (portal.hub.log.drop length) := by
  refine stream_stays_after_writes Fetched.content List.length (screenLeaves ++ [listLands]) ?_
  refine forall_split_snoc.mpr ⟨fun before turn after split flight content known same => ?_, ?_⟩
  · have quiet : ∀ turn ∈ screenLeaves, ∀ flight content known,
        turn.2 ≠ .settle flight (some content) known := by
      simp [screenLeaves]
    refine absurd same (quiet turn ?_ flight content known)
    exact split ▸ List.mem_append_right before List.mem_cons_self
  · intro flight content known _ read _ _ _
    have empty : (Portal.run Fetched.content List.length screenLeaves).hub.clients.isEmpty =
        true := by decide +kernel
    unfold Hub.drops
    rw [empty, Bool.or_true]

def sendsListOf (step : Nat) : StreamEvent (Fetched (List ProblemRow)) → Bool
  | .wrote _ { body := .problems list, .. } => list.origin.startedAt = step
  | _ => false

/-- The screen that has joined is sent a list from before the write-back. -/
theorem outlived_read_goes_out :
    ¬ ∀ write length,
      (write, length) ∈
        (Portal.run Fetched.content List.length (screenReturns ++ [listLands])).notified →
      FramesFromAfter write
        ((Portal.run Fetched.content List.length (screenReturns ++ [listLands])).hub.log.drop
          length) := by
  intro level
  have notified : (1, 2) ∈
      (Portal.run Fetched.content List.length (screenReturns ++ [listLands])).notified := by
    decide +kernel
  have goesOut : (((Portal.run Fetched.content List.length
      (screenReturns ++ [listLands])).hub.log.drop 2).any (sendsListOf 0)) = true := by
    decide +kernel
  obtain ⟨event, inLog, old⟩ := List.any_eq_true.mp goesOut
  unfold sendsListOf at old
  split at old
  · next list =>
      have late := level 1 2 notified _ _ inLog list rfl
      rw [of_decide_eq_true old] at late
      exact absurd late (by decide)
  · cases old

end OutlivedRead

end ZabbixPortal.Services
