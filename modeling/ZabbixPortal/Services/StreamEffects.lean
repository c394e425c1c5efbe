import ZabbixPortal.Services.StreamProperties

/-! What one step of the live stream does to its latest frame, its record and its reads. -/

set_option autoImplicit false

namespace ZabbixPortal.Services

open Foundation

variable {ρ : Type} {rows : ρ → List ProblemRow} {hub : Hub ρ} {instant : Instant}

/-- A step that makes no frame: it may write the latest one, or forget it. -/
structure Relays (before after : Hub ρ) : Prop where
  log : ∃ events, after.log = before.log ++ events ∧
    ∀ client frame, StreamEvent.wrote client frame ∈ events → before.latest = some frame
  latest : ∀ frame, after.latest = some frame → before.latest = some frame
  readsApplied : after.readsApplied = before.readsApplied

theorem Relays.of_log {after : Hub ρ} (log : after.log = hub.log)
    (latest : after.latest = hub.latest) (readsApplied : after.readsApplied = hub.readsApplied) :
    Relays hub after :=
  ⟨⟨[], by simp [log], fun _ _ member => nomatch member⟩, fun _ same => latest ▸ same,
    readsApplied⟩

theorem Relays.trans {first second third : Hub ρ} (left : Relays first second)
    (right : Relays second third) : Relays first third := by
  obtain ⟨early, earlyLog, earlyFrames⟩ := left.log
  obtain ⟨late, lateLog, lateFrames⟩ := right.log
  refine ⟨⟨early ++ late, ?_, fun client frame member => ?_⟩,
    fun frame same => left.latest frame (right.latest frame same),
    right.readsApplied.trans left.readsApplied⟩
  · rw [lateLog, earlyLog, List.append_assoc]
  · cases List.mem_append.mp member with
    | inl earlier => exact earlyFrames client frame earlier
    | inr later => exact left.latest frame (lateFrames client frame later)

inductive Starts (before after : Hub ρ) : Prop where
  | none (reads : after.reads = before.reads)
      (started : after.readsStarted = before.readsStarted)
  | one (force ticks : Bool)
      (reads : after.reads =
        before.reads ++ [{ number := before.readsStarted + 1, force, ticks }])
      (started : after.readsStarted = before.readsStarted + 1)

theorem refreshUnlessTicking_relays (hub : Hub ρ) : Relays hub hub.refreshUnlessTicking := by
  unfold Hub.refreshUnlessTicking
  split <;> exact .of_log rfl rfl rfl

theorem refreshUnlessTicking_starts {before : Hub ρ} (reads : hub.reads = before.reads)
    (started : hub.readsStarted = before.readsStarted) :
    Starts before hub.refreshUnlessTicking := by
  unfold Hub.refreshUnlessTicking
  split
  · exact .none reads started
  · refine .one false true ?_ ?_
    · rw [← reads, ← started]
      rfl
    · rw [← started]
      rfl

theorem remove_relays (hub : Hub ρ) (id : Nat) : Relays hub (hub.remove id) := by
  unfold Hub.remove
  split
  · exact .of_log rfl rfl rfl
  · dsimp only
    split
    · exact .of_log rfl rfl rfl
    · refine ⟨⟨[.emptied], rfl, fun _ _ member => ?_⟩, fun _ same => (nomatch same), rfl⟩
      simp at member

theorem remove_reads (hub : Hub ρ) (id : Nat) :
    (hub.remove id).reads = hub.reads ∧ (hub.remove id).readsStarted = hub.readsStarted := by
  unfold Hub.remove
  split
  · exact ⟨rfl, rfl⟩
  · dsimp only
    split <;> exact ⟨rfl, rfl⟩

theorem keepAlive_relays (hub : Hub ρ) (instant : Instant) :
    Relays hub (hub.keepAlive instant) := by
  refine ⟨⟨_, rfl, fun client frame member => ?_⟩, fun _ same => same, rfl⟩
  obtain ⟨_, same⟩ := isPing_of_keepAlive member
  cases same

theorem subscribe_relays (hub : Hub ρ) (owner : String) (alive : Bool) (instant : Instant) :
    Relays hub (hub.subscribe owner alive instant) := by
  have added : ∀ client, Relays hub (hub.add client) := by
    intro client
    refine ⟨⟨_, rfl, fun _ _ member => ?_⟩, fun _ same => same, rfl⟩
    split at member <;> simp at member
  unfold Hub.subscribe
  dsimp only
  split
  · next frame isLatest =>
      refine (added _).trans ⟨⟨_, rfl, fun _ found member => ?_⟩, fun _ same => same, rfl⟩
      cases wrote_of_deliver member
      exact isLatest
  · exact (added _).trans (refreshUnlessTicking_relays _)

theorem drain_relays (hub : Hub ρ) (id : Nat) (instant : Instant) :
    Relays hub (hub.drain id instant) := by
  unfold Hub.drain
  split
  · exact .of_log rfl rfl rfl
  · refine ⟨⟨_, rfl, fun _ frame member => ?_⟩, fun _ same => same, rfl⟩
    obtain ⟨_, isLatest, -, same⟩ := wrote_of_caughtUp member
    cases same
    exact isLatest

theorem endStreams_relays (hub : Hub ρ) : Relays hub hub.endStreams :=
  List.foldlRecOn (motive := fun after => Relays hub after) hub.clients _ (.of_log rfl rfl rfl)
    fun after relays client _ => relays.trans (remove_relays after client.id)

theorem endStreams_reads (hub : Hub ρ) :
    hub.endStreams.reads = hub.reads ∧ hub.endStreams.readsStarted = hub.readsStarted :=
  List.foldlRecOn
    (motive := fun after : Hub ρ =>
      after.reads = hub.reads ∧ after.readsStarted = hub.readsStarted)
    hub.clients _ ⟨rfl, rfl⟩ fun after kept client _ =>
      ⟨(remove_reads after client.id).1.trans kept.1, (remove_reads after client.id).2.trans kept.2⟩

def StreamInput.isLanding : StreamInput ρ → Bool
  | .land _ _ => true
  | _ => false

/-- Only a read that lands makes a frame. -/
theorem step_relays (rows : ρ → List ProblemRow) (hub : Hub ρ) (instant : Instant) (input : StreamInput ρ)
    (other : input.isLanding = false) : Relays hub (hub.step rows (instant, input)) := by
  cases input with
  | subscribe owner alive => exact subscribe_relays hub owner alive instant
  | leave client => exact remove_relays hub client
  | endStreamOf client => exact .of_log rfl rfl rfl
  | endStreams => exact endStreams_relays hub
  | tick =>
      unfold Hub.step Hub.tick
      dsimp only
      split
      · exact .of_log rfl rfl rfl
      · exact (keepAlive_relays hub instant).trans (refreshUnlessTicking_relays _)
  | notifyProblemsChanged =>
      unfold Hub.step Hub.notifyProblemsChanged
      dsimp only
      split <;> exact .of_log rfl rfl rfl
  | land => cases other
  | settled =>
      unfold Hub.step Hub.settled
      dsimp only
      split <;> exact .of_log rfl rfl rfl
  | drain client => exact drain_relays hub client instant

/-- A step starts at most one read. -/
theorem step_starts (rows : ρ → List ProblemRow) (hub : Hub ρ) (instant : Instant) (input : StreamInput ρ)
    (other : input.isLanding = false) : Starts hub (hub.step rows (instant, input)) := by
  cases input with
  | subscribe owner alive =>
      unfold Hub.step Hub.subscribe
      dsimp only
      split
      · exact .none rfl rfl
      · exact refreshUnlessTicking_starts rfl rfl
  | leave client => exact .none (remove_reads hub client).1 (remove_reads hub client).2
  | endStreamOf client => exact .none rfl rfl
  | endStreams => exact .none (endStreams_reads hub).1 (endStreams_reads hub).2
  | tick =>
      unfold Hub.step Hub.tick
      dsimp only
      split
      · exact .none rfl rfl
      · exact refreshUnlessTicking_starts rfl rfl
  | notifyProblemsChanged =>
      unfold Hub.step Hub.notifyProblemsChanged
      dsimp only
      split
      · exact .none rfl rfl
      · exact .one true false rfl rfl
  | land => cases other
  | settled =>
      unfold Hub.step Hub.settled
      dsimp only
      split <;> exact .none rfl rfl
  | drain client =>
      unfold Hub.step Hub.drain
      dsimp only
      split <;> exact .none rfl rfl

/-- What a read that lands does: it is dropped, it leaves the screens as they are, or it
goes out to them as the latest frame. -/
inductive Landing (before after : Hub ρ) (read : Read) (outcome : ReadOutcome ρ) : Prop where
  | dropped (drops : before.drops read.number = true) (relays : Relays before after)
  | quiet (taken : before.drops read.number = false) (unforced : read.force = false)
      (latest : after.latest = before.latest)
      (log : after.log = before.log ++ [.applied read.number outcome])
      (applied : after.readsApplied = read.number)
  | sent (taken : before.drops read.number = false) (frame : Frame ρ)
      (body : ∀ list, frame.body = .problems list → outcome = .list list)
      (latest : after.latest = some frame)
      (log : ∃ events, after.log = before.log ++ events ∧
        ∀ client found, StreamEvent.wrote client found ∈ events → found = frame)
      (applied : after.readsApplied = read.number)

theorem apply_landing (rows : ρ → List ProblemRow) (hub : Hub ρ) (instant : Instant) (read : Read)
    (outcome : ReadOutcome ρ) (taken : hub.drops read.number = false) :
    Landing hub (hub.apply rows read outcome instant) read outcome := by
  have events : ∀ (clients : List Client) (frame : Frame ρ) client found,
      StreamEvent.wrote client found ∈
        [StreamEvent.applied read.number outcome] ++
          clients.flatMap (fun other => (other.deliver frame instant).2) → found = frame := by
    intro clients frame client found member
    cases List.mem_append.mp member with
    | inl noted => simp at noted
    | inr wrote =>
        obtain ⟨_, _, inside⟩ := List.mem_flatMap.mp wrote
        cases wrote_of_deliver inside
        rfl
  cases outcome with
  | failed known =>
      refine .sent taken _ ?_ rfl ⟨_, List.append_assoc _ _ _, events _ _⟩ rfl
      exact fun _ same => nomatch same
  | list problems =>
      unfold Hub.apply
      dsimp only
      split
      · next unsent =>
          have unforced := (Bool.and_eq_true_iff.mp unsent).1
          exact .quiet taken (by simpa using unforced) rfl rfl rfl
      · refine .sent taken _ ?_ rfl ⟨_, List.append_assoc _ _ _, events _ _⟩ rfl
        intro list same
        cases same
        rfl

/-- A read that lands leaves the reads in flight, whatever becomes of its list. -/
theorem land_landing (rows : ρ → List ProblemRow) (instant : Instant) {read : Read} (outcome : ReadOutcome ρ)
    (found : (hub.reads.find? fun other => other.number = read.number) = some read) :
    Landing hub (hub.step rows (instant, .land read.number outcome)) read outcome := by
  unfold Hub.step Hub.land
  dsimp only
  rw [found]
  dsimp only
  split
  · next drops => exact .dropped drops (.of_log rfl rfl rfl)
  · next taken =>
      have kept := Bool.not_eq_true _ ▸ taken
      cases apply_landing rows { hub with
          reads := hub.reads.filter fun other => other.number ≠ read.number } instant read outcome
          kept with
      | dropped drops relays => exact .dropped drops ⟨relays.log, relays.latest, relays.readsApplied⟩
      | quiet taken unforced latest log applied => exact .quiet taken unforced latest log applied
      | sent taken frame body latest log applied => exact .sent taken frame body latest log applied

/-- Landing changes no screen's place and starts no read. -/
theorem land_reads (rows : ρ → List ProblemRow) (instant : Instant) {read : Read} (outcome : ReadOutcome ρ)
    (found : (hub.reads.find? fun other => other.number = read.number) = some read) :
    let after := hub.step rows (instant, .land read.number outcome)
    after.reads = (hub.reads.filter fun other => other.number ≠ read.number) ∧
      after.readsStarted = hub.readsStarted ∧ after.clients.isEmpty = hub.clients.isEmpty := by
  unfold Hub.step Hub.land
  dsimp only
  rw [found]
  dsimp only
  split
  · exact ⟨rfl, rfl, rfl⟩
  · cases outcome with
    | failed known => exact ⟨rfl, rfl, List.isEmpty_map⟩
    | list problems =>
        unfold Hub.apply
        dsimp only
        split
        · exact ⟨rfl, rfl, rfl⟩
        · exact ⟨rfl, rfl, List.isEmpty_map⟩

end ZabbixPortal.Services
