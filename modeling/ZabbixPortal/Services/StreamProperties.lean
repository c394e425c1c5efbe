import ZabbixPortal.Services.Stream
import Mathlib.Data.List.Basic

/-! What every run of the live stream keeps: the screens have the latest frame, frames
and reads only go forward, and `lastSent` says what the last applied read was. -/

set_option autoImplicit false

namespace ZabbixPortal.Services

open Foundation

variable {ρ : Type}

def framesOf (log : List (StreamEvent ρ)) (client : Nat) : List (Frame ρ) :=
  log.filterMap fun
    | .wrote other frame => if other = client then some frame else none
    | _ => none

def appliedReads (log : List (StreamEvent ρ)) : List Nat :=
  log.filterMap fun
    | .applied read _ => some read
    | _ => none

/-- The last read applied since the first of the connected screens joined. -/
def lastOutcome (log : List (StreamEvent ρ)) : Option (ReadOutcome ρ) :=
  log.foldl
    (fun known event =>
      match event with
      | .firstJoined | .emptied => none
      | .applied _ outcome => some outcome
      | .wrote _ _ | .pinged _ _ => known)
    none

section Log

theorem framesOf_append (left right : List (StreamEvent ρ)) (client : Nat) :
    framesOf (left ++ right) client = framesOf left client ++ framesOf right client :=
  List.filterMap_append

theorem appliedReads_append (left right : List (StreamEvent ρ)) :
    appliedReads (left ++ right) = appliedReads left ++ appliedReads right :=
  List.filterMap_append

def Client.receives (client : Client) : Bool := !client.blocked && client.isOpen

theorem deliver_written (client : Client) (frame : Frame ρ) (instant : Instant) :
    (client.deliver frame instant).2 = if client.receives then [.wrote client.id frame] else [] := by
  unfold Client.deliver Client.write Client.receives
  cases client.blocked <;> cases client.isOpen <;> rfl

theorem framesOf_deliver (other : Client) (frame : Frame ρ) (instant : Instant) (client : Nat) :
    framesOf (other.deliver frame instant).2 client =
      if other.id = client ∧ other.receives = true then [frame] else [] := by
  rw [deliver_written]
  by_cases takes : other.receives = true
  · by_cases same : other.id = client <;> simp [takes, same, framesOf]
  · simp [takes, framesOf]

/-- A frame delivered to screens with distinct ids is written once to each that takes it. -/
theorem framesOf_delivered {clients : List Client} (frame : Frame ρ) (instant : Instant)
    (client : Nat) (distinct : (clients.map Client.id).Nodup) :
    framesOf (clients.flatMap fun other => (other.deliver frame instant).2) client =
      if ∃ other ∈ clients, other.id = client ∧ other.receives = true then [frame] else [] := by
  induction clients with
  | nil => simp [framesOf]
  | cons first rest ih =>
      have parts := List.nodup_cons.mp distinct
      rw [List.flatMap_cons, framesOf_append, framesOf_deliver, ih parts.2]
      by_cases own : first.id = client ∧ first.receives = true
      · have others : ¬ ∃ other ∈ rest, other.id = client ∧ other.receives = true := by
          rintro ⟨other, member, otherId, _⟩
          exact parts.1 (List.mem_map.mpr ⟨other, member, otherId.trans own.1.symm⟩)
        rw [if_pos own, if_neg others, if_pos ⟨first, List.mem_cons_self, own⟩, List.append_nil]
      · rw [if_neg own, List.nil_append]
        refine if_congr ?_ rfl rfl
        simp [own]

theorem wrote_of_deliver {other : Client} {frame : Frame ρ} {instant : Instant}
    {event : StreamEvent ρ} (member : event ∈ (other.deliver frame instant).2) :
    event = .wrote other.id frame := by
  rw [deliver_written] at member
  split at member
  · exact List.mem_singleton.mp member
  · cases member

def StreamEvent.isDelivery : StreamEvent ρ → Bool
  | .wrote _ _ | .pinged _ _ => true
  | .firstJoined | .emptied | .applied _ _ => false

theorem isDelivery_of_deliver {client : Client} {frame : Frame ρ} {instant : Instant}
    {event : StreamEvent ρ} (member : event ∈ (client.deliver frame instant).2) :
    event.isDelivery = true := by
  rw [wrote_of_deliver member]
  rfl

theorem isDelivery_of_delivered {clients : List Client} {frame : Frame ρ} {instant : Instant}
    {event : StreamEvent ρ}
    (member : event ∈ clients.flatMap fun other => (other.deliver frame instant).2) :
    event.isDelivery = true := by
  obtain ⟨client, _, inside⟩ := List.mem_flatMap.mp member
  exact isDelivery_of_deliver inside

/-- What the drain callback writes is the latest frame, and only if the screen missed it. -/
theorem wrote_of_caughtUp {client : Client} {latest : Option (Frame ρ)} {instant : Instant}
    {event : StreamEvent ρ} (member : event ∈ (client.caughtUp latest instant).2) :
    ∃ frame, latest = some frame ∧ client.frameId ≠ frame.id ∧ event = .wrote client.id frame := by
  unfold Client.caughtUp at member
  cases latest with
  | none => cases member
  | some frame =>
      dsimp only at member
      split at member
      · next missed =>
          have wrote := wrote_of_deliver member
          exact ⟨frame, rfl, missed, wrote⟩
      · cases member

theorem isDelivery_of_caughtUp {client : Client} {latest : Option (Frame ρ)} {instant : Instant}
    {event : StreamEvent ρ} (member : event ∈ (client.caughtUp latest instant).2) :
    event.isDelivery = true := by
  obtain ⟨_, _, _, rfl⟩ := wrote_of_caughtUp member
  rfl

theorem appliedReads_append_deliveries (log : List (StreamEvent ρ)) {events : List (StreamEvent ρ)}
    (deliveries : ∀ event ∈ events, event.isDelivery = true) :
    appliedReads (log ++ events) = appliedReads log := by
  have empty : appliedReads events = [] := by
    refine List.filterMap_eq_nil_iff.mpr fun event member => ?_
    have delivery := deliveries event member
    cases event with
    | wrote | pinged => rfl
    | firstJoined | emptied | applied => cases delivery
  rw [appliedReads_append, empty, List.append_nil]

theorem lastOutcome_append_deliveries (log : List (StreamEvent ρ)) {events : List (StreamEvent ρ)}
    (deliveries : ∀ event ∈ events, event.isDelivery = true) :
    lastOutcome (log ++ events) = lastOutcome log := by
  rw [lastOutcome, List.foldl_append, ← lastOutcome]
  generalize lastOutcome log = known
  induction events with
  | nil => rfl
  | cons event rest ih =>
      have delivery := deliveries event List.mem_cons_self
      have others := ih fun other member => deliveries other (.tail _ member)
      cases event with
      | wrote | pinged => exact others
      | firstJoined | emptied | applied => cases delivery

end Log

section Clients

variable {client : Client} {frame : Frame ρ} {latest : Option (Frame ρ)} {frameIds : Nat}
  {frames : List (Frame ρ)} {instant : Instant}

@[simp] theorem write_id {event : StreamEvent ρ} :
    (client.write event instant).1.id = client.id := by
  unfold Client.write; split <;> rfl

@[simp] theorem write_isOpen {event : StreamEvent ρ} :
    (client.write event instant).1.isOpen = client.isOpen := by
  unfold Client.write; split <;> rfl

@[simp] theorem write_frameId {event : StreamEvent ρ} :
    (client.write event instant).1.frameId = client.frameId := by
  unfold Client.write; split <;> rfl

theorem write_blocked {event : StreamEvent ρ}
    (free : (client.write event instant).1.blocked = false) : client.blocked = false := by
  unfold Client.write at free
  split at free
  · exact free
  · exact (Bool.or_eq_false_iff.mp free).1

@[simp] theorem deliver_id : (client.deliver frame instant).1.id = client.id := by
  unfold Client.deliver; split <;> simp

@[simp] theorem deliver_isOpen : (client.deliver frame instant).1.isOpen = client.isOpen := by
  unfold Client.deliver; split <;> simp

theorem deliver_frameId : (client.deliver frame instant).1.frameId =
    if client.blocked then client.frameId else frame.id := by
  unfold Client.deliver; split <;> simp

theorem deliver_blocked (free : (client.deliver frame instant).1.blocked = false) :
    client.blocked = false := by
  unfold Client.deliver at free
  split at free
  · exact free
  · have kept := write_blocked free
    exact kept

@[simp] theorem caughtUp_id : (client.caughtUp latest instant).1.id = client.id := by
  unfold Client.caughtUp
  cases latest with
  | none => rfl
  | some frame => dsimp only; split <;> simp

structure Follows (latest : Option (Frame ρ)) (frameIds : Nat) (frames : List (Frame ρ))
    (client : Client) : Prop where
  behind : client.frameId ≤ frameIds
  reached : ∀ frame ∈ frames, frame.id ≤ client.frameId
  current : client.blocked = false → ∀ frame, latest = some frame → client.frameId = frame.id
  received : client.isOpen = true → ∀ frame, latest = some frame → client.frameId = frame.id →
    frames.getLast? = some frame

/-- A new frame: an open screen that is not blocked gets it, a blocked one keeps to its
older frame. -/
theorem Follows.deliver (follows : Follows latest frameIds frames client)
    (fresh : frame.id = frameIds + 1) :
    Follows (some frame) (frameIds + 1)
      (frames ++ if client.receives then [frame] else []) (client.deliver frame instant).1 := by
  have older := follows.behind
  refine ⟨?_, ?_, ?_, ?_⟩
  · rw [deliver_frameId]
    split <;> omega
  · intro written member
    rw [deliver_frameId]
    rcases List.mem_append.mp member with before | new
    · have reached := follows.reached written before
      split <;> omega
    · split at new
      · next takes =>
          have free : client.blocked = false := by
            simpa using (Bool.and_eq_true_iff.mp takes).1
          simp_all
      · cases new
  · intro free latestFrame same
    obtain rfl := Option.some.inj same
    rw [deliver_frameId, deliver_blocked free]
    rfl
  · intro isOpen latestFrame same reached
    obtain rfl := Option.some.inj same
    rw [deliver_frameId] at reached
    rw [deliver_isOpen] at isOpen
    cases free : client.blocked with
    | true =>
        rw [free] at reached
        simp at reached
        omega
    | false => simp [Client.receives, free, isOpen]

/-- A keep-alive changes nothing about frames. -/
theorem Follows.write {event : StreamEvent ρ} (follows : Follows latest frameIds frames client) :
    Follows latest frameIds frames (client.write event instant).1 where
  behind := by simpa using follows.behind
  reached := by simpa using follows.reached
  current free := by simpa using follows.current (write_blocked free)
  received isOpen := by simpa using follows.received (by simpa using isOpen)

theorem Follows.close (follows : Follows latest frameIds frames client) :
    Follows latest frameIds frames { client with isOpen := false } where
  behind := follows.behind
  reached := follows.reached
  current := follows.current
  received isOpen := nomatch isOpen

/-- The drain callback brings a screen level: what it missed is the latest frame only. -/
theorem Follows.caughtUp (follows : Follows latest frameIds frames client)
    (newest : ∀ frame, latest = some frame → frame.id = frameIds) :
    Follows latest frameIds (frames ++ framesOf (client.caughtUp latest instant).2 client.id)
      (client.caughtUp latest instant).1 := by
  cases latest with
  | none =>
      simp only [Client.caughtUp, framesOf, List.filterMap_nil, List.append_nil]
      exact ⟨follows.behind, follows.reached, fun _ _ same => (nomatch same),
        fun _ _ same => (nomatch same)⟩
  | some frame =>
      have last := newest frame rfl
      have behind := follows.behind
      unfold Client.caughtUp
      dsimp only
      by_cases level : client.frameId = frame.id
      · have reached : ¬ client.frameId ≠ frame.id := not_not.mpr level
        rw [if_neg reached, framesOf, List.filterMap_nil, List.append_nil]
        refine ⟨follows.behind, follows.reached, ?_, follows.received⟩
        intro _ latestFrame same
        obtain rfl := Option.some.inj same
        exact level
      · rw [if_pos level, framesOf_deliver]
        refine ⟨?_, ?_, ?_, ?_⟩
        · simp only [deliver_frameId, Bool.false_eq_true, ↓reduceIte]
          omega
        · intro written member
          simp only [deliver_frameId, Bool.false_eq_true, ↓reduceIte]
          rcases List.mem_append.mp member with before | new
          · have reached := follows.reached written before
            omega
          · split at new
            · rw [List.mem_singleton.mp new]
            · cases new
        · intro _ latestFrame same
          obtain rfl := Option.some.inj same
          simp [deliver_frameId]
        · intro isOpen latestFrame same _
          obtain rfl := Option.some.inj same
          have opened : client.isOpen = true := by simpa using isOpen
          simp [Client.receives, opened]

theorem mem_framesOf_caughtUp {id : Nat}
    (member : frame ∈ framesOf (client.caughtUp latest instant).2 id) :
    id = client.id ∧ latest = some frame ∧ client.frameId ≠ frame.id := by
  obtain ⟨event, inside, selected⟩ := List.mem_filterMap.mp member
  obtain ⟨newest, isLatest, missed, rfl⟩ := wrote_of_caughtUp inside
  by_cases same : client.id = id
  · simp only [if_pos same, Option.some.injEq] at selected
    exact selected ▸ ⟨same.symm, isLatest, missed⟩
  · simp only [if_neg same, reduceCtorEq] at selected

theorem framesOf_caughtUp_pairwise (id : Nat) :
    ((framesOf (client.caughtUp latest instant).2 id).map Frame.id).Pairwise (· < ·) := by
  unfold Client.caughtUp
  cases latest with
  | none => exact List.Pairwise.nil
  | some newest =>
      dsimp only
      split
      · rw [framesOf_deliver]
        split <;> simp
      · exact List.Pairwise.nil

end Clients

section Screens

variable {hub : Hub ρ} {instant : Instant}

structure Screens (hub : Hub ρ) : Prop where
  distinct : (hub.clients.map Client.id).Nodup
  known : ∀ client ∈ hub.clients, client.id < hub.joined
  unwritten : ∀ id, hub.joined ≤ id → framesOf hub.log id = []
  newest : ∀ frame, hub.latest = some frame → frame.id = hub.frameIds
  bounded : ∀ id, ∀ frame ∈ framesOf hub.log id, frame.id ≤ hub.frameIds
  follows : ∀ client ∈ hub.clients,
    Follows hub.latest hub.frameIds (framesOf hub.log client.id) client
  increasing : ∀ id, ((framesOf hub.log id).map Frame.id).Pairwise (· < ·)

theorem Screens.idle : Screens (Hub.idle : Hub ρ) where
  distinct := by simp [Hub.idle]
  known := by simp [Hub.idle]
  unwritten _ _ := rfl
  newest _ same := nomatch same
  bounded _ _ member := nomatch member
  follows := by simp [Hub.idle]
  increasing _ := List.Pairwise.nil

/-- A step that writes no frame and leaves the frames and the screens' ids alone. -/
theorem Screens.unwrittenStep {next : Hub ρ} (screens : Screens hub)
    (update : Client → Client) (sameId : ∀ client, (update client).id = client.id)
    (clients : next.clients = hub.clients.map update)
    (kept : ∀ client frames, Follows hub.latest hub.frameIds frames client →
      Follows next.latest next.frameIds frames (update client))
    (joined : next.joined = hub.joined) (latest : next.latest = hub.latest)
    (frameIds : next.frameIds = hub.frameIds)
    (log : ∀ id, framesOf next.log id = framesOf hub.log id) : Screens next := by
  have ids : next.clients.map Client.id = hub.clients.map Client.id := by
    rw [clients, List.map_map]
    exact List.map_congr_left fun client _ => sameId client
  refine ⟨?_, ?_, ?_, ?_, ?_, ?_, ?_⟩
  · rw [ids]
    exact screens.distinct
  · intro client member
    rw [joined]
    have inIds : client.id ∈ hub.clients.map Client.id := ids ▸ List.mem_map_of_mem member
    obtain ⟨before, beforeMember, same⟩ := List.mem_map.mp inIds
    exact same ▸ screens.known before beforeMember
  · intro id fresh
    rw [log]
    exact screens.unwritten id (joined ▸ fresh)
  · rw [latest, frameIds]
    exact screens.newest
  · intro id
    rw [log, frameIds]
    exact screens.bounded id
  · intro client member
    rw [clients] at member
    obtain ⟨before, beforeMember, rfl⟩ := List.mem_map.mp member
    rw [sameId, log]
    exact kept before _ (screens.follows before beforeMember)
  · intro id
    rw [log]
    exact screens.increasing id

/-- Every open screen that is not blocked gets a new frame, and it is the newest of all. -/
theorem Screens.broadcast (screens : Screens hub) (body : FrameBody ρ) :
    Screens (hub.broadcast body instant) := by
  have ids : (hub.broadcast body instant).clients.map Client.id =
      hub.clients.map Client.id := by
    simp only [Hub.broadcast, List.map_map]
    exact List.map_congr_left fun client _ => deliver_id
  have frames : ∀ id, framesOf (hub.broadcast body instant).log id =
      framesOf hub.log id ++
        if ∃ client ∈ hub.clients, client.id = id ∧ client.receives = true then
          [{ id := hub.frameIds + 1, body }] else [] := by
    intro id
    simp only [Hub.broadcast, framesOf_append]
    rw [framesOf_delivered _ _ _ screens.distinct]
  refine ⟨ids ▸ screens.distinct, ?_, ?_, ?_, ?_, ?_, ?_⟩
  · intro client member
    obtain ⟨before, inside, rfl⟩ := List.mem_map.mp member
    rw [deliver_id]
    exact screens.known before inside
  · intro id fresh
    rw [frames, screens.unwritten id fresh, if_neg]
    · rfl
    · rintro ⟨client, member, rfl, _⟩
      exact absurd (screens.known client member) (Nat.not_lt.mpr fresh)
  · intro frame same
    obtain rfl := Option.some.inj same
    rfl
  · intro id frame member
    rw [frames] at member
    change frame.id ≤ hub.frameIds + 1
    rcases List.mem_append.mp member with before | new
    · exact Nat.le_succ_of_le (screens.bounded id frame before)
    · split at new
      · exact Nat.le_of_eq (congrArg Frame.id (List.mem_singleton.mp new))
      · cases new
  · intro client member
    obtain ⟨before, inside, rfl⟩ := List.mem_map.mp member
    have taken : (∃ other ∈ hub.clients, other.id = before.id ∧ other.receives = true) ↔
        before.receives = true := by
      constructor
      · rintro ⟨other, otherInside, sameId, takes⟩
        rwa [← List.inj_on_of_nodup_map screens.distinct otherInside inside sameId]
      · exact fun takes => ⟨before, inside, rfl, takes⟩
    rw [frames, deliver_id, if_congr taken rfl rfl]
    exact (screens.follows before inside).deliver rfl
  · intro id
    rw [frames, List.map_append, List.pairwise_append]
    refine ⟨screens.increasing id, ?_, ?_⟩
    · split <;> simp
    · intro older olderMember newer newerMember
      obtain ⟨frame, inside, rfl⟩ := List.mem_map.mp olderMember
      obtain ⟨new, newInside, rfl⟩ := List.mem_map.mp newerMember
      have bounded := screens.bounded id frame inside
      split at newInside
      · rw [List.mem_singleton.mp newInside]
        exact Nat.lt_succ_of_le bounded
      · cases newInside

/-- The drain callback writes one screen the latest frame, and only if it missed it. -/
theorem Screens.drain (screens : Screens hub) (id : Nat) : Screens (hub.drain id instant) := by
  unfold Hub.drain
  split
  · exact screens
  · next drained found =>
      have inside := List.mem_of_find?_eq_some found
      have matched : drained.id = id ∧ drained.blocked = true := by
        simpa using List.find?_some found
      obtain rfl := matched.1
      have follows := screens.follows drained inside
      have ids : ∀ client : Client, (if client.id = drained.id then
          (drained.caughtUp hub.latest instant).1 else client).id = client.id := by
        intro client
        split
        · next same => rw [caughtUp_id, same]
        · rfl
      refine ⟨?_, ?_, ?_, screens.newest, ?_, ?_, ?_⟩
      · simp only [List.map_map, Function.comp_def, ids]
        exact screens.distinct
      · intro client member
        obtain ⟨before, beforeInside, rfl⟩ := List.mem_map.mp member
        rw [ids]
        exact screens.known before beforeInside
      · intro other fresh
        rw [framesOf_append, screens.unwritten other fresh, List.nil_append]
        refine List.eq_nil_iff_forall_not_mem.mpr fun frame member => ?_
        obtain ⟨rfl, _⟩ := mem_framesOf_caughtUp member
        exact absurd (screens.known drained inside) (Nat.not_lt.mpr fresh)
      · intro other frame member
        rw [framesOf_append] at member
        rcases List.mem_append.mp member with before | caught
        · exact screens.bounded other frame before
        · obtain ⟨_, isLatest, _⟩ := mem_framesOf_caughtUp caught
          exact (screens.newest frame isLatest).le
      · intro client member
        obtain ⟨before, beforeInside, rfl⟩ := List.mem_map.mp member
        rw [ids, framesOf_append]
        split
        · next same =>
            rw [same]
            exact follows.caughtUp screens.newest
        · next different =>
            have empty : framesOf (drained.caughtUp hub.latest instant).2 before.id = [] :=
              List.eq_nil_iff_forall_not_mem.mpr fun frame caught =>
                different (mem_framesOf_caughtUp caught).1
            rw [empty, List.append_nil]
            exact screens.follows before beforeInside
      · intro other
        rw [framesOf_append, List.map_append, List.pairwise_append]
        refine ⟨screens.increasing other, framesOf_caughtUp_pairwise other, ?_⟩
        intro older olderMember newer newerMember
        obtain ⟨frame, inLog, rfl⟩ := List.mem_map.mp olderMember
        obtain ⟨caught, inCatchUp, rfl⟩ := List.mem_map.mp newerMember
        obtain ⟨rfl, isLatest, missed⟩ := mem_framesOf_caughtUp inCatchUp
        -- What was written reaches no further than the screen, which is behind the latest.
        have reached := follows.reached frame inLog
        have behind := follows.behind
        have newest := screens.newest caught isLatest
        omega

/-- A screen that leaves takes nothing from the others; the last one takes the frame. -/
theorem Screens.remove (screens : Screens hub) (id : Nat) : Screens (hub.remove id) := by
  have kept : ∀ client ∈ hub.clients.filter (fun other => other.id ≠ id), client ∈ hub.clients :=
    fun client member => (List.mem_filter.mp member).1
  have distinct : ((hub.clients.filter fun other => other.id ≠ id).map Client.id).Nodup :=
    screens.distinct.sublist (List.filter_sublist.map Client.id)
  unfold Hub.remove
  split
  · exact screens
  · dsimp only
    split
    · exact ⟨distinct, fun client member => screens.known client (kept client member),
        screens.unwritten, screens.newest, screens.bounded,
        fun client member => screens.follows client (kept client member), screens.increasing⟩
    · next last =>
        have emptied : ∀ id, framesOf (hub.log ++ [StreamEvent.emptied]) id =
            framesOf hub.log id := by
          intro other
          rw [framesOf_append]
          exact List.append_nil _
        refine ⟨distinct, fun client member => screens.known client (kept client member), ?_,
          (fun _ same => nomatch same), ?_, ?_, ?_⟩
        · exact fun other fresh => (emptied other).trans (screens.unwritten other fresh)
        · exact fun other frame member => screens.bounded other frame (emptied other ▸ member)
        · intro client member
          have follows := screens.follows client (kept client member)
          refine ⟨follows.behind, ?_, fun _ _ same => (nomatch same),
            fun _ _ same => (nomatch same)⟩
          exact fun frame written => follows.reached frame (emptied client.id ▸ written)
        · intro other
          exact (emptied other).symm ▸ screens.increasing other

/-- A screen that has just joined, with the frames written to it. -/
theorem Screens.add (screens : Screens hub) (client : Client) (frames : List (StreamEvent ρ))
    {next : Hub ρ} (isNew : client.id = hub.joined)
    (clients : next.clients = hub.clients ++ [client]) (joined : next.joined = hub.joined + 1)
    (latest : next.latest = hub.latest) (frameIds : next.frameIds = hub.frameIds)
    (log : ∀ id, framesOf next.log id = framesOf hub.log id ++ framesOf frames id)
    (own : ∀ id, id ≠ client.id → framesOf frames id = [])
    (follows : Follows hub.latest hub.frameIds (framesOf frames client.id) client)
    (increasing : ((framesOf frames client.id).map Frame.id).Pairwise (· < ·)) :
    Screens next := by
  have ownLog : framesOf next.log client.id = framesOf frames client.id := by
    rw [log, screens.unwritten client.id isNew.ge, List.nil_append]
  have otherLog : ∀ id, id ≠ client.id → framesOf next.log id = framesOf hub.log id := by
    intro id different
    rw [log, own id different, List.append_nil]
  have members : ∀ other ∈ next.clients, other ∈ hub.clients ∨ other = client := by
    intro other member
    rw [clients] at member
    simpa using member
  refine ⟨?_, ?_, ?_, ?_, ?_, ?_, ?_⟩
  · rw [clients, List.map_append, List.nodup_append]
    refine ⟨screens.distinct, by simp, ?_⟩
    intro old oldMember new newMember same
    obtain ⟨other, inside, rfl⟩ := List.mem_map.mp oldMember
    have added : new = client.id := by simpa using newMember
    have known := screens.known other inside
    omega
  · intro other member
    rcases members other member with before | rfl
    · have known := screens.known other before
      omega
    · omega
  · intro id fresh
    rw [otherLog id (by omega)]
    exact screens.unwritten id (by omega)
  · rw [latest, frameIds]
    exact screens.newest
  · intro id frame member
    rw [frameIds]
    by_cases same : id = client.id
    · subst same
      exact (follows.reached frame (ownLog ▸ member)).trans follows.behind
    · exact screens.bounded id frame (otherLog id same ▸ member)
  · intro other member
    rw [latest, frameIds]
    rcases members other member with before | rfl
    · have known := screens.known other before
      rw [otherLog other.id (by omega)]
      exact screens.follows other before
    · rw [ownLog]
      exact follows
  · intro id
    by_cases same : id = client.id
    · rw [same, ownLog]
      exact increasing
    · rw [otherLog id same]
      exact screens.increasing id

private theorem framesOf_joining (ticker : Bool) (id : Nat) :
    framesOf (if ticker then [] else [StreamEvent.firstJoined] : List (StreamEvent ρ)) id = [] := by
  cases ticker <;> rfl

theorem Screens.refreshUnlessTicking (screens : Screens hub) :
    Screens hub.refreshUnlessTicking := by
  unfold Hub.refreshUnlessTicking
  split
  · exact screens
  · exact ⟨screens.distinct, screens.known, screens.unwritten, screens.newest, screens.bounded,
      screens.follows, screens.increasing⟩

theorem Screens.subscribe (screens : Screens hub) (owner : String) (alive : Bool) :
    Screens (hub.subscribe owner alive instant) := by
  unfold Hub.subscribe
  dsimp only
  split
  · next frame isLatest =>
      have newest := screens.newest frame isLatest
      have alone : ∀ id, framesOf ((hub.newClient owner alive instant).deliver frame instant).2 id =
          if hub.joined = id ∧ alive = true then [frame] else [] := by
        intro id
        rw [framesOf_deliver]
        exact if_congr (by simp [Hub.newClient, Client.receives]) rfl rfl
      refine screens.add ((hub.newClient owner alive instant).deliver frame instant).1
        ((hub.newClient owner alive instant).deliver frame instant).2 ?_ rfl rfl rfl rfl ?_ ?_ ?_ ?_
      · rw [deliver_id]
        rfl
      · intro id
        simp only [Hub.add, framesOf_append, framesOf_joining, List.append_nil]
      · intro id different
        rw [deliver_id] at different
        rw [alone, if_neg]
        rintro ⟨same, _⟩
        exact different same.symm
      · rw [alone, deliver_id, isLatest]
        have free : (hub.newClient owner alive instant).blocked = false := rfl
        refine ⟨?_, ?_, ?_, ?_⟩
        · rw [deliver_frameId, free]
          exact newest.le
        · intro other member
          split at member
          · rw [List.mem_singleton.mp member, deliver_frameId, free]
            rfl
          · cases member
        · intro _ other same
          obtain rfl := Option.some.inj same
          rw [deliver_frameId, free]
          rfl
        · intro isOpen other same _
          obtain rfl := Option.some.inj same
          have opened : alive = true := by simpa [Hub.newClient] using isOpen
          simp [Hub.newClient, opened]
      · rw [alone]
        split <;> simp
  · next absent =>
      refine Screens.refreshUnlessTicking (screens.add
        (hub.newClient owner alive instant) [] rfl rfl rfl rfl rfl ?_ ?_ ?_ ?_)
      · intro id
        simp only [Hub.add, framesOf_append, framesOf_joining]
        rfl
      · exact fun _ _ => rfl
      · rw [absent]
        exact ⟨Nat.zero_le _, fun _ member => (nomatch member), fun _ _ same => (nomatch same),
          fun _ _ same => (nomatch same)⟩
      · exact List.Pairwise.nil

theorem isPing_of_keepAlive {clients : List Client} {ageMs : Option ℤ} {event : StreamEvent ρ}
    (member : event ∈ clients.flatMap fun client => (if Hub.pingDue client instant then
      client.write (.pinged client.id ageMs) instant else (client, [])).2) :
    ∃ client, event = .pinged client ageMs := by
  obtain ⟨client, _, inside⟩ := List.mem_flatMap.mp member
  unfold Client.write at inside
  split at inside
  · split at inside
    · cases inside
    · exact ⟨client.id, List.mem_singleton.mp inside⟩
  · cases inside

theorem Screens.keepAlive (screens : Screens hub) : Screens (hub.keepAlive instant) := by
  let ageMs := hub.lastReadAt.map fun readAt => max 0 (instant.now - readAt)
  refine screens.unwrittenStep
    (fun client => (if Hub.pingDue client instant then
      client.write (.pinged client.id ageMs : StreamEvent ρ) instant else (client, [])).1)
    ?_ rfl ?_ rfl rfl rfl ?_
  · intro client
    split <;> simp
  · intro client frames follows
    split
    · exact follows.write
    · exact follows
  · intro id
    simp only [Hub.keepAlive, framesOf_append]
    refine (congrArg (_ ++ ·) (List.filterMap_eq_nil_iff.mpr ?_)).trans (List.append_nil _)
    intro event member
    obtain ⟨client, rfl⟩ := isPing_of_keepAlive member
    rfl

theorem Screens.endStreamOf (screens : Screens hub) (id : Nat) :
    Screens (hub.endStreamOf id) := by
  refine screens.unwrittenStep
    (fun client => if client.id = id then { client with isOpen := false } else client)
    ?_ rfl ?_ rfl rfl rfl (fun _ => rfl)
  · intro client
    split <;> rfl
  · intro client frames follows
    split
    · exact follows.close
    · exact follows

end Screens

section Reads

variable {rows : ρ → List ProblemRow} {hub : Hub ρ} {instant : Instant}

def outcomeFingerprint (rows : ρ → List ProblemRow) : Option (ReadOutcome ρ) → Option String
  | some (.list problems) => some (fingerprint (rows problems))
  | some (.failed _) | none => none

structure ReadsInOrder (rows : ρ → List ProblemRow) (hub : Hub ρ) : Prop where
  inOrder : (appliedReads hub.log).Pairwise (· ≤ ·)
  applied : ∀ read ∈ appliedReads hub.log, read ≤ hub.readsApplied
  sent : hub.lastSent.map Sent.fingerprint = outcomeFingerprint rows (lastOutcome hub.log)
  ticking : hub.ticker = false → hub.clients = []
  unattended : hub.clients = [] → hub.latest = none ∧ hub.lastSent = none

/-- A list that is not worth a frame has the fingerprint of the last one sent. -/
theorem fingerprint_of_not_sent {last : Option Sent} {text : String} {json : List LiveProblem}
    {now : ℤ} (unsent : shouldSend last text json now = false) :
    last.map Sent.fingerprint = some text := by
  cases last with
  | none => cases unsent
  | some last =>
      unfold shouldSend at unsent
      dsimp only at unsent
      split at unsent
      · cases unsent
      · next same => exact congrArg some (not_not.mp same)

theorem ReadsInOrder.idle : ReadsInOrder rows (Hub.idle : Hub ρ) where
  inOrder := List.Pairwise.nil
  applied _ member := nomatch member
  sent := rfl
  ticking _ := rfl
  unattended _ := ⟨rfl, rfl⟩

/-- A step that applies no read and keeps what was sent. -/
theorem ReadsInOrder.unappliedStep {next : Hub ρ} (reads : ReadsInOrder rows hub)
    (applied : appliedReads next.log = appliedReads hub.log)
    (readsApplied : next.readsApplied = hub.readsApplied)
    (sent : next.lastSent.map Sent.fingerprint = outcomeFingerprint rows (lastOutcome next.log))
    (ticking : next.ticker = false → next.clients = [])
    (unattended : next.clients = [] → next.latest = none ∧ next.lastSent = none) :
    ReadsInOrder rows next where
  inOrder := applied ▸ reads.inOrder
  applied := by
    rw [applied, readsApplied]
    exact reads.applied
  sent := sent
  ticking := ticking
  unattended := unattended

theorem ReadsInOrder.broadcast (reads : ReadsInOrder rows hub) (attended : hub.clients ≠ [])
    (body : FrameBody ρ) : ReadsInOrder rows (hub.broadcast body instant) := by
  refine reads.unappliedStep ?_ rfl ?_ ?_ ?_
  · simp only [Hub.broadcast]
    exact appliedReads_append_deliveries _ fun _ member => isDelivery_of_delivered member
  · simp only [Hub.broadcast]
    rw [lastOutcome_append_deliveries _ fun _ member => isDelivery_of_delivered member]
    exact reads.sent
  · intro stopped
    exact absurd (reads.ticking stopped) attended
  · intro empty
    exact absurd (List.map_eq_nil_iff.mp empty) attended

theorem lastOutcome_applied (log : List (StreamEvent ρ)) (read : Nat) (outcome : ReadOutcome ρ) :
    lastOutcome (log ++ [.applied read outcome]) = some outcome := by
  rw [lastOutcome, List.foldl_append]
  rfl

/-- Applying a read notes its outcome, whether or not a frame goes out. -/
theorem ReadsInOrder.apply (reads : ReadsInOrder rows hub) {read : Read}
    (attended : hub.clients ≠ []) (newer : hub.readsApplied ≤ read.number)
    (outcome : ReadOutcome ρ) : ReadsInOrder rows (hub.apply rows read outcome instant) := by
  have noted : ∀ next : Hub ρ, next.log = hub.log ++ [.applied read.number outcome] →
      next.readsApplied = read.number → next.clients = hub.clients →
      next.ticker = hub.ticker →
      next.lastSent.map Sent.fingerprint = outcomeFingerprint rows (some outcome) →
      ReadsInOrder rows next := by
    intro next log number clients ticker sent
    have applied : appliedReads next.log = appliedReads hub.log ++ [read.number] := by
      rw [log, appliedReads_append]
      rfl
    refine ⟨?_, ?_, ?_, ?_, ?_⟩
    · rw [applied, List.pairwise_append]
      refine ⟨reads.inOrder, List.pairwise_singleton _ _, ?_⟩
      intro older inOlder last isLast
      rw [List.mem_singleton.mp isLast]
      exact (reads.applied older inOlder).trans newer
    · intro other member
      rw [applied] at member
      rw [number]
      rcases List.mem_append.mp member with older | last
      · exact (reads.applied other older).trans newer
      · exact (List.mem_singleton.mp last).le
    · rw [sent, log, lastOutcome_applied]
    · intro stopped
      exact absurd (reads.ticking (ticker ▸ stopped)) attended
    · intro empty
      exact absurd (clients ▸ empty) attended
  cases outcome with
  | failed known =>
      refine ReadsInOrder.broadcast ?_ ?_ _
      · exact noted _ rfl rfl rfl rfl rfl
      · exact attended
  | list problems =>
      unfold Hub.apply
      dsimp only
      split
      · next unsent =>
          refine noted _ rfl rfl rfl rfl ?_
          exact fingerprint_of_not_sent
            (Bool.not_eq_true' _ ▸ (Bool.and_eq_true_iff.mp unsent).2)
      · refine ReadsInOrder.broadcast ?_ ?_ _
        · exact noted _ rfl rfl rfl rfl rfl
        · exact attended

/-- A step that only writes to screens and changes what is known of them. -/
theorem ReadsInOrder.delivery {next : Hub ρ} (reads : ReadsInOrder rows hub)
    {events : List (StreamEvent ρ)} (deliveries : ∀ event ∈ events, event.isDelivery = true)
    (log : next.log = hub.log ++ events) (readsApplied : next.readsApplied = hub.readsApplied)
    (lastSent : next.lastSent = hub.lastSent) (latest : next.latest = hub.latest)
    (ticker : next.ticker = hub.ticker) (clients : next.clients = [] ↔ hub.clients = []) :
    ReadsInOrder rows next := by
  refine reads.unappliedStep ?_ readsApplied ?_ ?_ ?_
  · rw [log, appliedReads_append_deliveries _ deliveries]
  · rw [log, lastOutcome_append_deliveries _ deliveries, lastSent]
    exact reads.sent
  · rw [ticker, clients]
    exact reads.ticking
  · rw [clients, latest, lastSent]
    exact reads.unattended

theorem ReadsInOrder.refreshUnlessTicking (reads : ReadsInOrder rows hub) :
    ReadsInOrder rows hub.refreshUnlessTicking := by
  unfold Hub.refreshUnlessTicking
  split
  · exact reads
  · exact ⟨reads.inOrder, reads.applied, reads.sent, reads.ticking, reads.unattended⟩

theorem ReadsInOrder.add (reads : ReadsInOrder rows hub) (client : Client) :
    ReadsInOrder rows (hub.add client) := by
  refine reads.unappliedStep ?_ rfl ?_ (fun stopped => nomatch stopped) ?_
  · simp only [Hub.add, appliedReads_append]
    cases hub.ticker <;> exact List.append_nil _
  · simp only [Hub.add]
    cases running : hub.ticker with
    | true =>
        rw [if_pos rfl, List.append_nil]
        exact reads.sent
    | false =>
        have unattended := reads.unattended (reads.ticking running)
        rw [unattended.2, if_neg Bool.false_ne_true, lastOutcome, List.foldl_append]
        rfl
  · intro empty
    simp [Hub.add] at empty

theorem ReadsInOrder.subscribe (reads : ReadsInOrder rows hub) (owner : String) (alive : Bool) :
    ReadsInOrder rows (hub.subscribe owner alive instant) := by
  unfold Hub.subscribe
  dsimp only
  split
  · next frame _ =>
      have added := reads.add ((hub.newClient owner alive instant).deliver frame instant).1
      exact added.delivery (fun _ member => isDelivery_of_deliver member) rfl rfl rfl rfl rfl
        Iff.rfl
  · exact (reads.add _).refreshUnlessTicking

/-- When the last screen leaves, what was sent is forgotten with it. -/
theorem ReadsInOrder.remove (reads : ReadsInOrder rows hub) (id : Nat) :
    ReadsInOrder rows (hub.remove id) := by
  have stopped : hub.ticker = false → hub.clients.filter (fun other => other.id ≠ id) = [] := by
    intro stopped
    rw [reads.ticking stopped]
    rfl
  unfold Hub.remove
  split
  · exact reads
  · dsimp only
    split
    · next attended =>
        refine reads.unappliedStep rfl rfl reads.sent stopped fun nothing => ?_
        dsimp only at nothing
        rw [nothing] at attended
        exact reads.unattended (reads.ticking (by simpa using attended))
    · next last =>
        refine reads.unappliedStep ?_ rfl ?_ ?_ (fun _ => ⟨rfl, rfl⟩)
        · rw [appliedReads_append]
          exact List.append_nil _
        · rw [lastOutcome, List.foldl_append]
          rfl
        · intro _
          have nothing := (Bool.or_eq_false_iff.mp (Bool.not_eq_true _ ▸ last)).1
          exact List.isEmpty_iff.mp (by simpa using nothing)

theorem ReadsInOrder.endStreamOf (reads : ReadsInOrder rows hub) (id : Nat) :
    ReadsInOrder rows (hub.endStreamOf id) :=
  reads.delivery (List.forall_mem_nil _) (List.append_nil _).symm rfl rfl rfl rfl
    List.map_eq_nil_iff

theorem ReadsInOrder.keepAlive (reads : ReadsInOrder rows hub) :
    ReadsInOrder rows (hub.keepAlive instant) := by
  refine reads.delivery ?_ rfl rfl rfl rfl rfl List.map_eq_nil_iff
  intro event member
  obtain ⟨client, rfl⟩ := isPing_of_keepAlive member
  rfl

theorem ReadsInOrder.drain (reads : ReadsInOrder rows hub) (id : Nat) :
    ReadsInOrder rows (hub.drain id instant) := by
  unfold Hub.drain
  split
  · exact reads
  · exact reads.delivery (fun _ member => isDelivery_of_caughtUp member) rfl rfl rfl rfl rfl
      List.map_eq_nil_iff

theorem ReadsInOrder.land (reads : ReadsInOrder rows hub) (number : Nat)
    (outcome : ReadOutcome ρ) : ReadsInOrder rows (hub.land rows number outcome instant) := by
  unfold Hub.land
  cases found : hub.reads.find? fun read => read.number = number with
  | none => exact reads
  | some read =>
      have same : read.number = number := by simpa using List.find?_some found
      have kept : ReadsInOrder rows
          { hub with reads := hub.reads.filter fun other => other.number ≠ number } :=
        ⟨reads.inOrder, reads.applied, reads.sent, reads.ticking, reads.unattended⟩
      dsimp only
      split
      · exact kept
      · next taken =>
          have undropped := Bool.or_eq_false_iff.mp (Bool.not_eq_true _ ▸ taken)
          refine kept.apply ?_ ?_ outcome
          · simpa using undropped.2
          · have newer := undropped.1
            simp only [decide_eq_false_iff_not] at newer
            dsimp only at newer ⊢
            omega

end Reads

section Run

variable {rows : ρ → List ProblemRow} {hub : Hub ρ} {instant : Instant}

theorem Screens.apply (screens : Screens hub) (read : Read) (outcome : ReadOutcome ρ) :
    Screens (hub.apply rows read outcome instant) := by
  have noted : ∀ next : Hub ρ, next.log = hub.log ++ [.applied read.number outcome] →
      next.clients = hub.clients → next.joined = hub.joined → next.latest = hub.latest →
      next.frameIds = hub.frameIds → Screens next := by
    intro next log clients joined latest frameIds
    refine screens.unwrittenStep id (fun _ => rfl) ?_ ?_ joined latest frameIds ?_
    · rw [clients, List.map_id]
    · intro client frames follows
      rw [latest, frameIds]
      exact follows
    · intro client
      rw [log, framesOf_append]
      exact List.append_nil _
  cases outcome with
  | failed known =>
      refine Screens.broadcast ?_ _
      exact noted _ rfl rfl rfl rfl rfl
  | list problems =>
      unfold Hub.apply
      dsimp only
      split
      · exact noted _ rfl rfl rfl rfl rfl
      · refine Screens.broadcast ?_ _
        exact noted _ rfl rfl rfl rfl rfl

theorem Screens.land (screens : Screens hub) (number : Nat) (outcome : ReadOutcome ρ) :
    Screens (hub.land rows number outcome instant) := by
  unfold Hub.land
  cases hub.reads.find? fun read => read.number = number with
  | none => exact screens
  | some read =>
      have kept : Screens
          { hub with reads := hub.reads.filter fun other => other.number ≠ number } :=
        ⟨screens.distinct, screens.known, screens.unwritten, screens.newest, screens.bounded,
          screens.follows, screens.increasing⟩
      dsimp only
      split
      · exact kept
      · exact kept.apply read outcome

structure Delivers (rows : ρ → List ProblemRow) (hub : Hub ρ) : Prop where
  screens : Screens hub
  reads : ReadsInOrder rows hub

theorem Delivers.endStreams (delivers : Delivers rows hub) : Delivers rows hub.endStreams := by
  refine List.foldlRecOn hub.clients _ delivers fun left kept client _ => ?_
  exact ⟨kept.screens.remove client.id, kept.reads.remove client.id⟩

/-- What one turn keeps, whichever it is. -/
theorem Delivers.step (delivers : Delivers rows hub) (turn : Instant × StreamInput ρ) :
    Delivers rows (hub.step rows turn) := by
  obtain ⟨instant, input⟩ := turn
  have screens := delivers.screens
  have reads := delivers.reads
  cases input with
  | subscribe owner alive => exact ⟨screens.subscribe owner alive, reads.subscribe owner alive⟩
  | leave client => exact ⟨screens.remove client, reads.remove client⟩
  | endStreamOf client => exact ⟨screens.endStreamOf client, reads.endStreamOf client⟩
  | endStreams => exact delivers.endStreams
  | tick =>
      unfold Hub.step Hub.tick
      dsimp only
      split
      · exact delivers
      · exact ⟨screens.keepAlive.refreshUnlessTicking, reads.keepAlive.refreshUnlessTicking⟩
  | notifyProblemsChanged =>
      unfold Hub.step Hub.notifyProblemsChanged
      dsimp only
      split
      · exact delivers
      · exact ⟨⟨screens.distinct, screens.known, screens.unwritten, screens.newest,
          screens.bounded, screens.follows, screens.increasing⟩,
          ⟨reads.inOrder, reads.applied, reads.sent, reads.ticking, reads.unattended⟩⟩
  | land read outcome => exact ⟨screens.land read outcome, reads.land read outcome⟩
  | settled =>
      unfold Hub.step Hub.settled
      dsimp only
      split
      · exact delivers
      · exact ⟨⟨screens.distinct, screens.known, screens.unwritten, screens.newest,
          screens.bounded, screens.follows, screens.increasing⟩,
          ⟨reads.inOrder, reads.applied, reads.sent, reads.ticking, reads.unattended⟩⟩
  | drain client => exact ⟨screens.drain client, reads.drain client⟩

theorem Delivers.run (rows : ρ → List ProblemRow) (turns : List (Instant × StreamInput ρ)) :
    Delivers rows (Hub.run rows turns) :=
  List.foldlRecOn turns _ ⟨.idle, .idle⟩ fun _ delivers turn _ => delivers.step turn

/-- After a failure every good read that is not dropped goes out, to every open screen
that is not blocked. -/
theorem land_after_failure (delivers : Delivers rows hub) {number : Nat} {known : Bool}
    (failed : lastOutcome hub.log = some (.failed known))
    (inFlight : ∃ read ∈ hub.reads, read.number = number) (kept : hub.drops number = false)
    (problems : ρ) :
    let next := hub.land rows number (.list problems) instant
    let frame : Frame ρ := { id := hub.frameIds + 1, body := .problems problems }
    next.latest = some frame ∧ ∀ client ∈ hub.clients, client.receives = true →
      framesOf next.log client.id = framesOf hub.log client.id ++ [frame] := by
  have forgotten : hub.lastSent = none := by
    have sent := delivers.reads.sent
    rw [failed] at sent
    exact Option.map_eq_none_iff.mp sent
  unfold Hub.land
  cases found : hub.reads.find? fun read => read.number = number with
  | none =>
      obtain ⟨read, member, same⟩ := inFlight
      have missed := List.find?_eq_none.mp found read member
      simp [same] at missed
  | some read =>
      have undropped : ({ hub with
          reads := hub.reads.filter fun other => other.number ≠ number } : Hub ρ).drops number =
          false := kept
      dsimp only
      rw [undropped, if_neg Bool.false_ne_true]
      unfold Hub.apply
      dsimp only
      rw [forgotten, if_neg (by simp [shouldSend])]
      refine ⟨rfl, fun client member takes => ?_⟩
      simp only [Hub.broadcast, framesOf_append]
      rw [framesOf_delivered _ _ _ delivers.screens.distinct,
        if_pos ⟨client, member, rfl, takes⟩]
      exact congrArg (· ++ _) (List.append_nil _)

/-- The live stream, after any turns: the screens are level, frames and reads only go
forward, and an outage is over for the screens with the next good read. -/
theorem live_stream_delivers (rows : ρ → List ProblemRow)
    (turns : List (Instant × StreamInput ρ)) :
    let hub := Hub.run rows turns
    (∀ client ∈ hub.clients, client.blocked = false → client.isOpen = true →
      ∀ frame, hub.latest = some frame → (framesOf hub.log client.id).getLast? = some frame) ∧
    (∀ client, ((framesOf hub.log client).map Frame.id).Pairwise (· < ·)) ∧
    (appliedReads hub.log).Pairwise (· ≤ ·) ∧
    (hub.lastSent = none ↔
      lastOutcome hub.log = none ∨ ∃ known, lastOutcome hub.log = some (.failed known)) ∧
    (∀ problems, lastOutcome hub.log = some (.list problems) →
      hub.lastSent.map Sent.fingerprint = some (fingerprint (rows problems))) ∧
    (∀ known, lastOutcome hub.log = some (.failed known) →
      ∀ instant number problems, (∃ read ∈ hub.reads, read.number = number) →
        hub.drops number = false →
        let next := hub.step rows (instant, .land number (.list problems))
        let frame := { id := hub.frameIds + 1, body := .problems problems }
        next.latest = some frame ∧ ∀ client ∈ hub.clients, client.receives = true →
          framesOf next.log client.id = framesOf hub.log client.id ++ [frame]) := by
  intro hub
  have delivers : Delivers rows hub := Delivers.run rows turns
  have sent := delivers.reads.sent
  refine ⟨?_, delivers.screens.increasing, delivers.reads.inOrder, ?_, ?_, ?_⟩
  · intro client member free isOpen frame isLatest
    have follows := delivers.screens.follows client member
    exact follows.received isOpen frame isLatest (follows.current free frame isLatest)
  · cases outcome : lastOutcome hub.log with
    | none =>
        rw [outcome] at sent
        simpa [outcomeFingerprint] using sent
    | some outcome' =>
        rw [outcome] at sent
        cases outcome' with
        | failed known => simpa [outcomeFingerprint] using sent
        | list problems =>
            have isSome : hub.lastSent ≠ none := by
              intro absent
              rw [absent] at sent
              cases sent
            simp [isSome]
  · intro problems last
    rw [sent, last]
    rfl
  · intro known failed instant number problems inFlight kept
    exact land_after_failure delivers failed inFlight kept problems

end Run

end ZabbixPortal.Services
