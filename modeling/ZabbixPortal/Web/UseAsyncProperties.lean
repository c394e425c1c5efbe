import ZabbixPortal.Web.UseAsync

/-! What `useAsync` keeps whatever happens in whatever order, and exactly when the data a page shows
as its own belongs to its deps. -/

set_option autoImplicit false

namespace ZabbixPortal.Web

variable {τ δ : Type}

def liveRuns (runs : List (AsyncRun δ)) : List (AsyncRun δ) := runs.filter fun run => !run.aborted

/-- The current run is the newest, and the only one in flight that is not aborted. -/
structure Tracked (p : AsyncPage τ δ) : Prop where
  newest : ∀ {run : AsyncRun δ}, p.current = some run → run.id = p.seq
  live : (liveRuns p.inFlight).map AsyncRun.id = p.current.toList.map AsyncRun.id
  known : ∀ run ∈ p.inFlight, run.id ≤ p.seq
  same : ∀ run ∈ p.inFlight, ∀ {current : AsyncRun δ}, p.current = some current →
    run.id = current.id → run.deps = current.deps

section Parts

variable {p : AsyncPage τ δ}

theorem schedule_eq (p : AsyncPage τ δ) : ∃ timer, schedule p = { p with timer := timer } := by
  unfold schedule
  split
  · exact ⟨_, rfl⟩
  · split
    · exact ⟨_, rfl⟩
    · exact ⟨_, rfl⟩

theorem isCurrent_iff {id : Nat} : isCurrent id p = true ↔
    ∃ run, p.current = some run ∧ run.id = id := by
  unfold isCurrent
  cases p.current with
  | none => simp
  | some run => simp

theorem mem_abortRun {run : Option (AsyncRun δ)} {runs : List (AsyncRun δ)} {aborted : AsyncRun δ}
    (member : aborted ∈ abortRun run runs) :
    ∃ other ∈ runs, other.id = aborted.id ∧ other.deps = aborted.deps := by
  obtain ⟨other, inRuns, rfl⟩ := List.mem_map.mp member
  exact ⟨other, inRuns, rfl, rfl⟩

/-- Once the current run is aborted, no run is live. -/
theorem Tracked.liveRuns_abortRun (tracked : Tracked p) : liveRuns (abortRun p.current p.inFlight) = [] := by
  apply List.eq_nil_iff_forall_not_mem.mpr
  intro run member
  obtain ⟨inAborted, alive⟩ := List.mem_filter.mp member
  obtain ⟨other, inFlight, rfl⟩ := List.mem_map.mp inAborted
  simp only [Bool.not_or, Bool.and_eq_true, Bool.not_eq_true'] at alive
  have isLive : other.id ∈ (liveRuns p.inFlight).map AsyncRun.id :=
    List.mem_map_of_mem (List.mem_filter.mpr ⟨inFlight, by rw [alive.1]; rfl⟩)
  rw [tracked.live] at isLive
  obtain ⟨current, isCurrent, sameId⟩ := List.mem_map.mp isLive
  rw [Option.mem_toList] at isCurrent
  have notCurrent := alive.2
  rw [isCurrent, Option.any_some, sameId] at notCurrent
  simp at notCurrent

theorem Tracked.startRun (tracked : Tracked p) (depsChanged : Bool) (deps : δ) :
    Tracked (startRun depsChanged deps p) := by
  constructor
  case newest =>
    intro run isCurrent
    cases isCurrent
    rfl
  case live =>
    show (liveRuns (abortRun p.current p.inFlight ++ [⟨p.seq + 1, deps, false⟩])).map AsyncRun.id = _
    rw [liveRuns, List.filter_append, ← liveRuns, tracked.liveRuns_abortRun]
    rfl
  case known =>
    intro run member
    show run.id ≤ p.seq + 1
    cases List.mem_append.mp member with
    | inl earlier =>
        obtain ⟨other, inFlight, sameId, _⟩ := mem_abortRun earlier
        rw [← sameId]
        exact Nat.le_succ_of_le (tracked.known other inFlight)
    | inr new =>
        cases List.mem_singleton.mp new
        exact Nat.le_refl _
  case same =>
    intro run member current isCurrent sameId
    cases isCurrent
    cases List.mem_append.mp member with
    | inl earlier =>
        obtain ⟨other, inFlight, otherId, _⟩ := mem_abortRun earlier
        have older := tracked.known other inFlight
        rw [otherId, sameId] at older
        exact absurd older (Nat.not_succ_le_self p.seq)
    | inr new => cases List.mem_singleton.mp new; rfl

/-- Nothing about the runs changes. -/
theorem Tracked.congr {q : AsyncPage τ δ} (tracked : Tracked p) (current : q.current = p.current)
    (seq : q.seq = p.seq) (inFlight : q.inFlight = p.inFlight) : Tracked q := by
  constructor
  case newest => rw [current, seq]; exact tracked.newest
  case live => rw [current, inFlight]; exact tracked.live
  case known => rw [seq, inFlight]; exact tracked.known
  case same => rw [current, inFlight]; exact tracked.same

theorem Tracked.schedule (tracked : Tracked p) : Tracked (schedule p) := by
  obtain ⟨timer, armed⟩ := schedule_eq p
  rw [armed]
  exact tracked.congr rfl rfl rfl

theorem liveRuns_settle (run : AsyncRun δ) (p : AsyncPage τ δ) :
    (liveRuns (settle run p).inFlight).map AsyncRun.id =
      ((liveRuns p.inFlight).map AsyncRun.id).filter (· ≠ run.id) := by
  show (liveRuns (p.inFlight.filter (·.id ≠ run.id))).map AsyncRun.id = _
  rw [liveRuns, List.filter_filter, liveRuns, List.filter_map, List.filter_filter]
  congr 1
  apply List.filter_congr
  intro other _
  exact Bool.and_comm _ _

theorem mem_settle {run other : AsyncRun δ} (member : other ∈ (settle run p).inFlight) :
    other ∈ p.inFlight := (List.mem_filter.mp member).1

/-- A run that is not the current one goes without a trace. -/
theorem Tracked.settle (tracked : Tracked p) {run : AsyncRun δ}
    (replaced : ¬ isCurrent run.id p = true) : Tracked (settle run p) := by
  constructor
  case newest => exact tracked.newest
  case live =>
    rw [liveRuns_settle, tracked.live]
    show (p.current.toList.map AsyncRun.id).filter (· ≠ run.id) = p.current.toList.map AsyncRun.id
    apply List.filter_eq_self.mpr
    intro id member
    obtain ⟨current, isCurrent, rfl⟩ := List.mem_map.mp member
    rw [Option.mem_toList] at isCurrent
    exact decide_eq_true fun sameId => replaced (isCurrent_iff.mpr ⟨current, isCurrent, sameId⟩)
  case known => exact fun other member => tracked.known other (mem_settle member)
  case same => exact fun other member => tracked.same other (mem_settle member)

/-- The current run settles, and none is left. -/
theorem Tracked.finishRun (tracked : Tracked p) {run : AsyncRun δ} (isLast : isCurrent run.id p = true)
    (snap : AsyncSnapshot τ δ) : Tracked (finishRun { Web.settle run p with snap := snap }) := by
  obtain ⟨current, isCurrent, sameId⟩ := isCurrent_iff.mp isLast
  unfold Web.finishRun
  apply Tracked.schedule
  constructor
  case newest =>
    intro other isOther
    cases isOther
  case live =>
    show (liveRuns (Web.settle run p).inFlight).map AsyncRun.id = []
    rw [liveRuns_settle, tracked.live, isCurrent, Option.toList_some, List.map_singleton, sameId,
      List.filter_cons_of_neg, List.filter_nil]
    simp only [ne_eq, not_true, decide_false, Bool.false_eq_true, not_false_iff]
  case known => exact fun other member => tracked.known other (mem_settle member)
  case same =>
    intro other _ current isOther
    cases isOther

theorem isCurrent_settle {run : AsyncRun δ} {id : Nat} : isCurrent id (settle run p) = isCurrent id p :=
  rfl

theorem Tracked.onSuccess (tracked : Tracked p) (run : AsyncRun δ) (data : τ) :
    Tracked (onSuccess run data (Web.settle run p)) := by
  unfold Web.onSuccess
  split
  · next isLast => exact tracked.finishRun isLast _
  · next replaced => exact tracked.settle replaced

theorem Tracked.onFailure (tracked : Tracked p) (run : AsyncRun δ) (message : String) :
    Tracked (onFailure run message (Web.settle run p)) := by
  unfold Web.onFailure
  split
  · next isLast =>
      split
      · exact tracked.finishRun isLast p.snap
      · exact tracked.finishRun isLast _
  · next replaced => exact tracked.settle replaced

theorem Tracked.onDropping (tracked : Tracked p) (id : Nat) : Tracked (onDropping id p) := by
  unfold Web.onDropping
  split
  · constructor
    case newest =>
      intro run isCurrent
      cases isCurrent
    case live =>
      show (liveRuns (abortRun p.current p.inFlight)).map AsyncRun.id = []
      rw [tracked.liveRuns_abortRun]
      rfl
    case known =>
      intro run member
      obtain ⟨other, inFlight, sameId, _⟩ := mem_abortRun member
      rw [← sameId]
      exact tracked.known other inFlight
    case same =>
      intro run _ current isCurrent
      cases isCurrent
  · exact tracked.congr rfl rfl rfl

theorem Tracked.onVisibilityChange (tracked : Tracked p) : Tracked (onVisibilityChange p) := by
  unfold Web.onVisibilityChange
  split
  · exact tracked.schedule
  · exact tracked

theorem cleanedUp_current (p : AsyncPage τ δ) : (cleanedUp p).current = p.current := by
  unfold cleanedUp
  split
  · rfl
  · rfl

theorem cleanedUp_snap (p : AsyncPage τ δ) : (cleanedUp p).snap = p.snap := by
  unfold cleanedUp
  split
  · rfl
  · rfl

theorem Tracked.cleanedUp (tracked : Tracked p) : Tracked (cleanedUp p) := by
  unfold Web.cleanedUp
  split
  · exact tracked.congr rfl rfl rfl
  · exact tracked

variable [DecidableEq δ]

def Keeps (p : AsyncPage τ δ) : Prop :=
  (cleanedUp p).dropping.isSome = true ∧
    ((cleanedUp p).current.any fun run => run.deps = p.latest.deps) = true

theorem Tracked.attach (tracked : Tracked p) (deps : δ) : Tracked (attach deps p) := by
  have attached : Tracked { p with mounted := true, dropping := none, attached := some deps } :=
    tracked.congr rfl rfl rfl
  unfold Web.attach
  simp only
  split
  · exact attached
  · exact attached.startRun true deps

theorem Tracked.passiveEffects (tracked : Tracked p) : Tracked (passiveEffects p) := by
  have afterDeps : Tracked (depsEffect p) := by
    unfold depsEffect
    split
    · exact tracked.cleanedUp.attach _
    · exact tracked
  have afterInterval : Tracked (intervalEffect (depsEffect p)) := by
    unfold intervalEffect
    split
    · exact Tracked.schedule (afterDeps.congr rfl rfl rfl)
    · exact afterDeps
  exact afterInterval.congr rfl rfl rfl

end Parts

section Runs

variable [DecidableEq δ] {p : AsyncPage τ δ}

theorem Tracked.step (tracked : Tracked p) (event : AsyncEvent τ δ) : Tracked (asyncStep p event) := by
  cases event with
  | render latest => exact tracked.congr rfl rfl rfl
  | passive => exact tracked.passiveEffects
  | poll =>
      have due : Tracked { p with timer := none } := tracked.congr rfl rfl rfl
      exact due.startRun false _
  | reload => exact tracked.startRun false _
  | succeed run data => exact tracked.onSuccess run data
  | fail run message => exact tracked.onFailure run message
  | drop id => exact tracked.onDropping id
  | hide =>
      have hidden : Tracked { p with hidden := true } := tracked.congr rfl rfl rfl
      exact hidden.onVisibilityChange
  | show' =>
      have shown : Tracked { p with hidden := false } := tracked.congr rfl rfl rfl
      exact shown.onVisibilityChange
  | unmount => exact tracked.congr rfl rfl rfl
  | tick now => exact tracked.congr rfl rfl rfl

theorem tracked_of_run {allowed : AsyncPage τ δ → AsyncEvent τ δ → Prop}
    {events : List (AsyncEvent τ δ)} (run : AsyncRuns allowed events p) : Tracked p := by
  induction run with
  | first latest hidden now =>
      constructor
      case newest =>
        intro run isCurrent
        cases isCurrent
      case live => rfl
      case known => exact fun run member => absurd member List.not_mem_nil
      case same => exact fun run member => absurd member List.not_mem_nil
  | step event _ _ _ ih => exact ih.step event

end Runs

section Shown

variable {p : AsyncPage τ δ}

/-- Once the passive effects of the last render have run, data that is not marked stale came from a
run started for the current deps. -/
def Shown (p : AsyncPage τ δ) : Prop :=
  p.pending = false → ∀ data deps, p.snap.data = some (data, deps) → p.snap.stale = false →
    deps = p.latest.deps

/-- Deps of the last render, or of one before it whose deps effect is about to be replaced. -/
def Belongs (p : AsyncPage τ δ) (deps : δ) : Prop :=
  deps = p.latest.deps ∨ p.attached ≠ some p.latest.deps ∧ p.pending = true

structure Fresh (p : AsyncPage τ δ) : Prop where
  run : ∀ {run : AsyncRun δ}, p.current = some run → Belongs p run.deps
  data : ∀ {data : τ} {deps : δ}, p.snap.data = some (data, deps) → p.snap.stale = false →
    Belongs p deps
  ran : p.pending = false → ∀ {deps : δ}, p.attached = some deps → deps = p.latest.deps

theorem Fresh.shown (fresh : Fresh p) : Shown p := by
  intro ran data deps isData notStale
  obtain same | ⟨_, isPending⟩ := fresh.data isData notStale
  · exact same
  · rw [ran] at isPending
    cases isPending

theorem finishRun_eq (p : AsyncPage τ δ) : ∃ timer, finishRun p =
    { p with current := none, settledAt := p.now, timer := timer } := by
  obtain ⟨timer, armed⟩ := schedule_eq { p with current := none, settledAt := p.now }
  exact ⟨timer, armed⟩

theorem Fresh.startRun (fresh : Fresh p) : Fresh (startRun false p.latest.deps p) := by
  constructor
  case run =>
    intro run isRun
    cases isRun
    exact .inl rfl
  case data => exact fresh.data
  case ran => exact fresh.ran

theorem Fresh.finishRun {snap : AsyncSnapshot τ δ} {runs : List (AsyncRun δ)} (fresh : Fresh p)
    (data : ∀ {data : τ} {deps : δ}, snap.data = some (data, deps) → snap.stale = false →
      Belongs p deps) : Fresh (finishRun { p with snap := snap, inFlight := runs }) := by
  obtain ⟨timer, armed⟩ := finishRun_eq { p with snap := snap, inFlight := runs }
  rw [armed]
  constructor
  case run =>
    intro run isRun
    cases isRun
  case data => exact data
  case ran => exact fresh.ran

theorem Fresh.onSuccess (fresh : Fresh p) (tracked : Tracked p) {run : AsyncRun δ}
    (inFlight : run ∈ p.inFlight) (data : τ) : Fresh (onSuccess run data (settle run p)) := by
  unfold Web.onSuccess
  split
  · next isLast =>
      obtain ⟨current, isCurrent, sameId⟩ := isCurrent_iff.mp isLast
      refine fresh.finishRun ?_
      intro _ deps isData _
      cases isData
      rw [tracked.same run inFlight isCurrent sameId.symm]
      exact fresh.run isCurrent
  · exact ⟨fresh.run, fresh.data, fresh.ran⟩

theorem Fresh.onFailure (fresh : Fresh p) (run : AsyncRun δ) (message : String) :
    Fresh (onFailure run message (settle run p)) := by
  unfold Web.onFailure
  split
  · split
    · exact fresh.finishRun fresh.data
    · exact fresh.finishRun fresh.data
  · exact ⟨fresh.run, fresh.data, fresh.ran⟩

theorem Fresh.onDropping (fresh : Fresh p) (id : Nat) : Fresh (onDropping id p) := by
  unfold Web.onDropping
  split
  · constructor
    case run =>
      intro run isRun
      cases isRun
    case data => exact fresh.data
    case ran => exact fresh.ran
  · exact ⟨fresh.run, fresh.data, fresh.ran⟩

theorem Fresh.onVisibilityChange (fresh : Fresh p) : Fresh (onVisibilityChange p) := by
  unfold Web.onVisibilityChange
  split
  · obtain ⟨timer, armed⟩ := schedule_eq p
    rw [armed]
    exact ⟨fresh.run, fresh.data, fresh.ran⟩
  · exact fresh

/-- A render of other deps leaves the deps effect of those before to be replaced. -/
theorem Fresh.render (fresh : Fresh p) (settled : p.pending = false) (latest : LatestRender δ) :
    Fresh { p with latest := latest, pending := true } := by
  have belongs {deps : δ} (before : Belongs p deps) :
      Belongs { p with latest := latest, pending := true } deps := by
    obtain rfl | ⟨_, isPending⟩ := before
    · by_cases same : p.latest.deps = latest.deps
      · exact .inl same
      · refine .inr ⟨fun isAttached => ?_, rfl⟩
        exact same (fresh.ran settled isAttached).symm
    · rw [settled] at isPending
      cases isPending
  constructor
  case run => exact fun isRun => belongs (fresh.run isRun)
  case data => exact fun isData notStale => belongs (fresh.data isData notStale)
  case ran =>
    intro ran
    cases ran

theorem Fresh.unmount (fresh : Fresh p) (settled : p.pending = false) :
    Fresh { detach p with attached := none, scheduled := none, listening := false } := by
  have belongs {deps : δ} (before : Belongs p deps) : deps = p.latest.deps := by
    obtain same | ⟨_, isPending⟩ := before
    · exact same
    · rw [settled] at isPending
      cases isPending
  constructor
  case run => exact fun isRun => .inl (belongs (fresh.run isRun))
  case data => exact fun isData notStale => .inl (belongs (fresh.data isData notStale))
  case ran =>
    intro _ deps isAttached
    cases isAttached

theorem intervalEffect_eq (p : AsyncPage τ δ) : ∃ timer scheduled,
    intervalEffect p = { p with timer := timer, scheduled := scheduled } := by
  unfold intervalEffect
  split
  · obtain ⟨timer, armed⟩ := schedule_eq { p with scheduled := some p.latest.intervalMs }
    exact ⟨timer, _, armed⟩
  · exact ⟨_, _, rfl⟩

variable [DecidableEq δ]

/-- The passive effects keep a run for the new deps while data of other deps is on show, not marked
stale. -/
def Misses (p : AsyncPage τ δ) : Prop :=
  depsChange p = true ∧ Keeps p ∧ ∃ data deps, p.snap.data = some (data, deps) ∧
    p.snap.stale = false ∧ deps ≠ p.latest.deps

def Meets (p : AsyncPage τ δ) : AsyncEvent τ δ → Prop
  | .passive => ¬ Misses p
  | _ => True

theorem depsChange_iff : depsChange p = true ↔ p.attached ≠ some p.latest.deps := decide_eq_true_iff

/-- What the passive effects do: nothing for unchanged deps, and for others they keep the run that
is in flight for them or start one and mark the data as stale. -/
theorem passive_cases (p : AsyncPage τ δ) :
    (passiveEffects p).latest = p.latest ∧ (passiveEffects p).pending = false ∧
      (passiveEffects p).attached = some p.latest.deps ∧
      ((p.attached = some p.latest.deps ∨ depsChange p = true ∧ Keeps p) ∧
          (passiveEffects p).snap = p.snap ∧ (passiveEffects p).current = p.current ∨
        ¬ (depsChange p = true ∧ Keeps p) ∧
          (passiveEffects p).snap.stale = (passiveEffects p).snap.data.isSome ∧
          ∃ run, (passiveEffects p).current = some run ∧ run.deps = p.latest.deps) := by
  obtain ⟨timer, scheduled, interval⟩ := intervalEffect_eq (depsEffect p)
  unfold passiveEffects
  rw [interval]
  unfold depsEffect
  by_cases changed : depsChange p = true
  · rw [if_pos changed]
    have cleanedLatest : (cleanedUp p).latest = p.latest := by
      unfold cleanedUp
      split
      · rfl
      · rfl
    unfold attach
    simp only
    by_cases keeps : Keeps p
    · have kept : ((cleanedUp p).dropping.isSome &&
          (cleanedUp p).current.any fun run => run.deps = p.latest.deps) = true := by
        rw [keeps.1, keeps.2]
        rfl
      rw [if_pos kept]
      exact ⟨cleanedLatest, trivial, rfl,
        .inl ⟨.inr ⟨changed, keeps⟩, cleanedUp_snap p, cleanedUp_current p⟩⟩
    · have started : ¬ ((cleanedUp p).dropping.isSome &&
          (cleanedUp p).current.any fun run => run.deps = p.latest.deps) = true := by
        rw [Bool.and_eq_true]
        exact keeps
      rw [if_neg started]
      exact ⟨cleanedLatest, trivial, rfl, .inr ⟨fun both => keeps both.2, rfl, _, rfl, rfl⟩⟩
  · rw [if_neg changed]
    have same : p.attached = some p.latest.deps := by
      rw [depsChange_iff, not_not] at changed
      exact changed
    exact ⟨rfl, rfl, same, .inl ⟨.inl same, rfl, rfl⟩⟩

theorem Fresh.passive (fresh : Fresh p) (meets : ¬ Misses p) : Fresh (passiveEffects p) := by
  obtain ⟨latest, ran, attached, ⟨isSame, snap, current⟩ | ⟨_, stale, run, isRun, deps⟩⟩ :=
    passive_cases p
  · have belongs {deps : δ} (belongs : Belongs p deps) (same : p.attached = some p.latest.deps) :
        Belongs (passiveEffects p) deps := by
      obtain isLatest | ⟨other, _⟩ := belongs
      · exact .inl (isLatest.trans (congrArg LatestRender.deps latest).symm)
      · exact absurd same other
    constructor
    case run =>
      intro run isRun
      rw [current] at isRun
      obtain same | ⟨_, _, keeps⟩ := isSame
      · exact belongs (fresh.run isRun) same
      · rw [cleanedUp_current, isRun, Option.any_some, decide_eq_true_iff] at keeps
        exact .inl (keeps.trans (congrArg LatestRender.deps latest).symm)
    case data =>
      intro data deps isData notStale
      rw [snap] at isData notStale
      obtain same | keeps := isSame
      · exact belongs (fresh.data isData notStale) same
      · by_contra other
        refine meets ⟨keeps.1, keeps.2, data, deps, isData, notStale, fun isLatest => other ?_⟩
        exact .inl (isLatest.trans (congrArg LatestRender.deps latest).symm)
    case ran =>
      intro _ deps isAttached
      rw [attached] at isAttached
      cases isAttached
      exact congrArg LatestRender.deps latest.symm
  · constructor
    case run =>
      intro other isOther
      rw [isRun] at isOther
      cases isOther
      exact .inl (deps.trans (congrArg LatestRender.deps latest).symm)
    case data =>
      intro data deps isData notStale
      rw [isData, notStale] at stale
      cases stale
    case ran =>
      intro _ deps isAttached
      rw [attached] at isAttached
      cases isAttached
      exact congrArg LatestRender.deps latest.symm

theorem Fresh.step (fresh : Fresh p) (tracked : Tracked p) {event : AsyncEvent τ δ}
    (legal : event.Legal p) (meets : Meets p event) : Fresh (asyncStep p event) := by
  cases event with
  | render latest => exact fresh.render legal latest
  | passive => exact fresh.passive meets
  | poll =>
      have due : Fresh { p with timer := none } := ⟨fresh.run, fresh.data, fresh.ran⟩
      exact due.startRun
  | reload => exact fresh.startRun
  | succeed run data => exact fresh.onSuccess tracked legal data
  | fail run message => exact fresh.onFailure run message
  | drop id => exact fresh.onDropping id
  | hide =>
      have hidden : Fresh { p with hidden := true } := ⟨fresh.run, fresh.data, fresh.ran⟩
      exact hidden.onVisibilityChange
  | show' =>
      have shown : Fresh { p with hidden := false } := ⟨fresh.run, fresh.data, fresh.ran⟩
      exact shown.onVisibilityChange
  | unmount => exact fresh.unmount legal.2
  | tick now => exact ⟨fresh.run, fresh.data, fresh.ran⟩

theorem fresh_of_run {events : List (AsyncEvent τ δ)} (run : AsyncRuns Meets events p) : Fresh p := by
  induction run with
  | first latest hidden now =>
      constructor
      case run =>
        intro run isRun
        cases isRun
      case data =>
        intro data deps isData
        cases isData
      case ran =>
        intro ran
        cases ran
  | step event earlier legal meets ih => exact ih.step (tracked_of_run earlier) legal meets

/-- What misses that the data is of other deps shows it as the page's own. -/
theorem not_shown_of_misses (misses : Misses p) : ¬ Shown (passiveEffects p) := by
  obtain ⟨changed, keeps, data, deps, isData, notStale, other⟩ := misses
  obtain ⟨latest, ran, _, ⟨_, snap, _⟩ | ⟨notKept, _⟩⟩ := passive_cases p
  · intro shown
    rw [← snap] at isData notStale
    have isLatest := shown ran data deps isData notStale
    exact other (isLatest.trans (congrArg LatestRender.deps latest))
  · exact absurd ⟨changed, keeps⟩ notKept

/-- Only the newest run writes state and at most one is live, in every run of the hook; the data a
page shows as its own is of its deps in every run whose passive effects meet what they have to,
and the step that does not breaks it. -/
theorem shown_iff_meets :
    (∀ (events : List (AsyncEvent τ δ)) (p : AsyncPage τ δ), AsyncRuns (fun _ _ => True) events p →
      (liveRuns p.inFlight).length ≤ 1 ∧
      (∀ run ∈ p.inFlight, ∀ data, (asyncStep p (.succeed run data)).snap ≠ p.snap →
        run.id = p.seq) ∧
      ∀ run ∈ p.inFlight, ∀ message, (asyncStep p (.fail run message)).snap ≠ p.snap →
        run.id = p.seq) ∧
    ∀ (events : List (AsyncEvent τ δ)) (p : AsyncPage τ δ), AsyncRuns Meets events p →
      Shown p ∧ ∀ event : AsyncEvent τ δ, event.Legal p →
        (Shown (asyncStep p event) ↔ Meets p event) := by
  constructor
  · intro events p run
    have tracked := tracked_of_run run
    have newest {id : Nat} (isLast : isCurrent id p = true) : id = p.seq := by
      obtain ⟨current, isCurrent, rfl⟩ := isCurrent_iff.mp isLast
      exact tracked.newest isCurrent
    refine ⟨?_, ?_, ?_⟩
    · have count := congrArg List.length tracked.live
      rw [List.length_map, List.length_map] at count
      rw [count]
      cases p.current with
      | none => exact Nat.zero_le 1
      | some current => exact Nat.le_refl 1
    · intro run _ data writes
      by_contra older
      have replaced : ¬ isCurrent run.id p = true := fun isLast => older (newest isLast)
      apply writes
      show (onSuccess run data (settle run p)).snap = p.snap
      unfold onSuccess
      rw [isCurrent_settle, if_neg replaced]
      rfl
    · intro run _ message writes
      by_contra older
      have replaced : ¬ isCurrent run.id p = true := fun isLast => older (newest isLast)
      apply writes
      show (onFailure run message (settle run p)).snap = p.snap
      unfold onFailure
      rw [isCurrent_settle, if_neg replaced]
      rfl
  · intro events p run
    have fresh := fresh_of_run run
    refine ⟨fresh.shown, fun event legal => ⟨fun shown => ?_, fun meets => ?_⟩⟩
    · cases event with
      | passive => exact fun misses => not_shown_of_misses misses shown
      | _ => trivial
    · exact (fresh.step (tracked_of_run run) legal meets).shown

end Shown

section Reload

/-- A reload between the two effect phases of a render for other deps. -/
def reloadBetween : List (AsyncEvent String Nat) :=
  [.passive, .succeed ⟨1, 0, false⟩ "A", .render ⟨1, none⟩, .reload, .passive]

def reloadedPage : AsyncPage String Nat := reloadBetween.foldl asyncStep (.first ⟨0, none⟩ false 0)

/-- The page then shows the data of the deps before. -/
theorem reloadBetween_isNotStale :
    AsyncRuns (fun _ _ => True) reloadBetween reloadedPage ∧
      reloadedPage.snap.data = some ("A", 0) ∧ reloadedPage.latest.deps = 1 ∧
      ¬ Shown reloadedPage := by
  have start : AsyncRuns (fun _ _ => True) [] (AsyncPage.first ⟨0, none⟩ false 0 : AsyncPage String Nat) :=
    .first ⟨0, none⟩ false 0
  have attached := AsyncRuns.step .passive start rfl trivial
  have loaded := AsyncRuns.step (.succeed ⟨1, 0, false⟩ "A") attached (List.mem_singleton_self _) trivial
  have rendered := AsyncRuns.step (.render ⟨1, none⟩) loaded rfl trivial
  have reloaded := AsyncRuns.step .reload rendered trivial trivial
  have kept := AsyncRuns.step .passive reloaded rfl trivial
  refine ⟨kept, rfl, rfl, fun shown => ?_⟩
  have same : (0 : Nat) = 1 := shown rfl "A" 0 rfl rfl
  cases same

end Reload

end ZabbixPortal.Web
