import ZabbixPortal.Sli.ReplaySchedule

/-! When a report replays a trigger exactly. The row of a trigger quiet in the window is
believed unless a later event contradicts it, and the search for one stops at `now`: a
change between `now` and the read of the row is taken for the state of the whole window. -/

set_option autoImplicit false

namespace ZabbixPortal.Sli

open Foundation Foundation.HalfOpen

/-- The replay covers exactly the seconds of the window the trigger spent in problem. -/
def ReplayExact (history : List ZEvent) {now : ℤ} (window : SliWindow now) (profile : SliProfile)
    (found : TriggerHistory) (trigger : ZTrigger) : Prop :=
  ∀ instant, Covers
      (found.replay trigger window.windowFrom window.windowEnd (window.endClip profile)).intervals
      instant ↔
    (window.windowFrom ≤ instant ∧ instant < window.endClip profile) ∧
      problemAt history trigger.triggerid instant = true

/-- The window is empty, or the trigger has an event from its start to now, or its row
still showed the state it was in at `now`. -/
def RowTellsWindow (history : List ZEvent) {now : ℤ} (window : SliWindow now)
    (profile : SliProfile) (trigger : ZTrigger) : Prop :=
  window.endClip profile ≤ window.windowFrom ∨
    (∃ event ∈ eventsOf trigger.triggerid history,
      window.windowFrom ≤ event.clock ∧ event.clock ≤ now) ∨
    (trigger.value = .problem ↔ problemAt history trigger.triggerid now = true)

section

variable {history : List ZEvent} {now : ℤ} {schedule : Schedule history now}
  {window : SliWindow now} {options : SliceOptions} {triggers : List ZTrigger}
  {found : TriggerHistory} {trigger : ZTrigger}

private def windowEvents (history : List ZEvent) (window : SliWindow now) (trigger : ZTrigger) :
    List ZEvent :=
  inRange ZEvent.clock window.windowFrom (window.windowEnd - 1)
    (eventsOf trigger.triggerid history)

private theorem readTriggerHistory_spec (ordered : InClockOrder ZEvent.clock history)
    (member : trigger ∈ triggers)
    (read : readTriggerHistory schedule.eventGet options triggers window.windowFrom
      window.windowEnd now = .ok found) :
    (found.eventsByTrigger.get? trigger.triggerid).getD [] = windowEvents history window trigger ∧
      (windowEvents history window trigger = [] → window.windowEnd ≤ trigger.lastchange →
        SearchAnswer schedule trigger.triggerid window.windowEnd found.firstLater) := by
  have ended := window.windowEnd_le_now
  have filled : triggers.isEmpty = false := by
    cases triggers with
    | nil => exact absurd member List.not_mem_nil
    | cons => rfl
  have asked : trigger.triggerid ∈ triggers.map (·.triggerid) := List.mem_map_of_mem member
  simp only [readTriggerHistory, filled, Bool.false_eq_true, ↓reduceIte] at read
  obtain ⟨rows, read, next⟩ := except_bind_ok read
  have rowsAre := windowRows_of_read schedule ordered (by omega) read
  have bucket : ((groupBy (·.objectid) rows).get? trigger.triggerid).getD [] =
      windowEvents history window trigger := by
    rw [groupBy_get?, rowsAre]
    exact eventsOf_inRange asked _ _ history
  have parts : ∃ later, found = ⟨groupBy (·.objectid) rows, later⟩ ∧
      ((triggers.filter fun other => !(groupBy (·.objectid) rows).contains other.triggerid &&
          other.lastchange ≥ window.windowEnd).map (·.triggerid) ≠ [] →
        firstEventsAfter schedule.eventGet options ((triggers.filter fun other =>
          !(groupBy (·.objectid) rows).contains other.triggerid &&
            other.lastchange ≥ window.windowEnd).map (·.triggerid)) window.windowEnd now =
          .ok later) := by
    split at next
    · next nothing =>
        cases next
        exact ⟨_, rfl, fun reached => absurd (List.isEmpty_iff.mp nothing) reached⟩
    · obtain ⟨later, searched, result⟩ := except_bind_ok next
      cases result
      exact ⟨later, rfl, fun _ => searched⟩
  obtain ⟨later, rfl, searched⟩ := parts
  refine ⟨bucket, fun quiet changed => ?_⟩
  have uncontained : (groupBy (·.objectid) rows).contains trigger.triggerid = false := by
    cases bucketed : (groupBy (·.objectid) rows).get? trigger.triggerid with
    | none => simp [OrderedMap.contains, bucketed]
    | some events =>
        have nonempty := groupBy_bucket_ne_nil
          ((OrderedMap.get?_eq_some_iff _ _ _).mp bucketed)
        rw [bucketed, quiet] at bucket
        exact absurd bucket nonempty
  have pending : trigger.triggerid ∈ (triggers.filter fun other =>
      !(groupBy (·.objectid) rows).contains other.triggerid &&
        other.lastchange ≥ window.windowEnd).map (·.triggerid) := by
    refine List.mem_map_of_mem (List.mem_filter.mpr ⟨member, ?_⟩)
    simp [uncontained, changed]
  have positive : ∀ span ∈ laterSpans, 0 ≤ span := by decide
  have recent := window.recent
  have inOrder := window.windowFrom_le_windowEnd
  refine searchAnswer_of_run schedule ordered laterSpans _ le_rfl positive ?_ ?_
    (searched (List.ne_nil_of_mem pending))
  · have total : (laterSpans.map (· + 1)).sum = 557 * 86400 + 4 := by decide
    rw [total]
    dsimp only
    omega
  · refine .inr ⟨rfl, pending, ?_, ?_⟩
    · intro _ event _ bounds
      dsimp only at bounds
      omega
    · intro event _ bounds
      dsimp only at bounds
      omega

/-- A row that showed no event from the window's end on shows the window's last state. -/
private theorem shown_of_seen_before (shows : schedule.Shows trigger)
    (before : ∀ event ∈ eventsOf trigger.triggerid (history.take schedule.triggerSeen),
      event.clock < window.windowEnd) :
    decide (trigger.value = .problem) =
      problemAt history trigger.triggerid (window.windowEnd - 1) := by
  have ended := window.windowEnd_le_now
  have unseen : (eventsOf trigger.triggerid (history.drop schedule.triggerSeen)).filter
      (fun event => decide (event.clock ≤ window.windowEnd - 1)) = [] := by
    refine List.filter_eq_nil_iff.mpr fun event member => ?_
    have late := schedule.triggerRecorded.future event (List.mem_of_mem_filter member)
    have after := schedule.triggerAfterNow
    simp only [decide_eq_true_eq]
    omega
  have seen : (eventsOf trigger.triggerid (history.take schedule.triggerSeen)).filter
      (fun event => decide (event.clock ≤ window.windowEnd - 1)) =
      eventsOf trigger.triggerid (history.take schedule.triggerSeen) := by
    refine List.filter_eq_self.mpr fun event member => ?_
    have early := before event member
    simp only [decide_eq_true_eq]
    omega
  have split : eventsOf trigger.triggerid history =
      eventsOf trigger.triggerid (history.take schedule.triggerSeen) ++
        eventsOf trigger.triggerid (history.drop schedule.triggerSeen) := by
    rw [eventsOf, eventsOf, eventsOf, ← List.filter_append, List.take_append_drop]
  rw [problemAt_eq, split, List.filter_append, unseen, seen, List.append_nil, shows.value]

/-- The state before the window, carried over a window without events. -/
private theorem problemAt_windowEnd_of_quiet
    (quiet : windowEvents history window trigger = []) :
    problemAt history trigger.triggerid (window.windowEnd - 1) =
      problemAt history trigger.triggerid (window.windowFrom - 1) := by
  have inOrder := window.windowFrom_le_windowEnd
  refine problemAt_eq_of_quiet (by omega) fun event member bounds => ?_
  have inside : event ∈ windowEvents history window trigger :=
    (mem_inRange ZEvent.clock _ _ _ event).mpr ⟨member, by omega⟩
  rw [quiet] at inside
  exact List.not_mem_nil inside

/-- The initial state the report settles on is the true one exactly when the row tells. -/
private theorem initialState_eq_iff (ordered : InClockOrder ZEvent.clock history)
    (alternates : Alternates .ok (eventsOf trigger.triggerid history))
    (shows : schedule.Shows trigger) (member : trigger ∈ triggers)
    (read : readTriggerHistory schedule.eventGet options triggers window.windowFrom
      window.windowEnd now = .ok found) :
    initialState ((windowEvents history window trigger).map ZEvent.toTriggerEvent) trigger
        window.windowEnd (found.firstLater.get? trigger.triggerid) =
      problemAt history trigger.triggerid (window.windowFrom - 1) ↔
    (∃ event ∈ eventsOf trigger.triggerid history,
      window.windowFrom ≤ event.clock ∧ event.clock ≤ now) ∨
      (trigger.value = .problem ↔ problemAt history trigger.triggerid now = true) := by
  have ended := window.windowEnd_le_now
  have inOrder := window.windowFrom_le_windowEnd
  have ownOrdered := eventsOf_ordered ordered trigger.triggerid
  cases events : windowEvents history window trigger with
  | cons first rest =>
      -- The first event of the window tells what it changed from.
      have head : (windowEvents history window trigger).head? = some first := by rw [events]; rfl
      have before := problemAt_before_first ordered alternates head
      have bounds := (mem_inRange ZEvent.clock _ _ _ first).mp (List.mem_of_head? head)
      have happened : ∃ event ∈ eventsOf trigger.triggerid history,
          window.windowFrom ≤ event.clock ∧ event.clock ≤ now :=
        ⟨first, bounds.1, by omega⟩
      rw [before]
      simp [initialState, ZEvent.toTriggerEvent, happened]
  | nil =>
      have carried := problemAt_windowEnd_of_quiet events
      have later : ∀ event ∈ eventsOf trigger.triggerid history,
          window.windowFrom ≤ event.clock → window.windowEnd ≤ event.clock := by
        intro event inHistory after
        by_contra early
        have inside : event ∈ windowEvents history window trigger :=
          (mem_inRange ZEvent.clock _ _ _ event).mpr ⟨inHistory, by omega⟩
        rw [events] at inside
        exact List.not_mem_nil inside
      -- Believing the row is right when it showed nothing from the window's end on.
      have believed : ∀ initial : Bool, initial = decide (trigger.value = .problem) →
          (∀ event ∈ eventsOf trigger.triggerid (history.take schedule.triggerSeen),
            event.clock < window.windowEnd) →
          initial = problemAt history trigger.triggerid (window.windowFrom - 1) := by
        rintro initial rfl before
        rw [shown_of_seen_before shows before, carried]
      have unchanged : (∀ event ∈ eventsOf trigger.triggerid history,
            ¬ (window.windowFrom ≤ event.clock ∧ event.clock ≤ now)) →
          problemAt history trigger.triggerid now =
            problemAt history trigger.triggerid (window.windowFrom - 1) := fun never =>
        problemAt_eq_of_quiet (by omega) fun event inHistory bounds =>
          never event inHistory (by omega)
      by_cases early : trigger.lastchange < window.windowEnd
      · have before : ∀ event ∈ eventsOf trigger.triggerid (history.take schedule.triggerSeen),
            event.clock < window.windowEnd := by
          intro event inSeen
          obtain ⟨last, isLast⟩ : ∃ last, (eventsOf trigger.triggerid
              (history.take schedule.triggerSeen)).getLast? = some last :=
            ⟨_, List.getLast?_eq_some_getLast (List.ne_nil_of_mem inSeen)⟩
          have seenOrdered : InClockOrder ZEvent.clock
              (eventsOf trigger.triggerid (history.take schedule.triggerSeen)) :=
            ownOrdered.sublist ((List.take_sublist _ _).filter _)
          have changed := shows.lastchange
          rw [isLast, Option.map_some, Option.getD_some] at changed
          obtain ⟨initial, split⟩ := List.getLast?_eq_some_iff.mp isLast
          rw [split] at inSeen seenOrdered
          rcases List.mem_append.mp inSeen with inInitial | isLast'
          · have ordered' := (List.pairwise_append.mp seenOrdered).2.2 event inInitial last (by simp)
            omega
          · rw [List.mem_singleton.mp isLast']
            omega
        have right := believed (initialState ([].map ZEvent.toTriggerEvent) trigger
          window.windowEnd (found.firstLater.get? trigger.triggerid))
          (by simp [initialState, early]) before
        refine iff_of_true right ?_
        by_cases happened : ∃ event ∈ eventsOf trigger.triggerid history,
            window.windowFrom ≤ event.clock ∧ event.clock ≤ now
        · exact .inl happened
        · refine .inr ?_
          have same := unchanged fun event inHistory bounds => happened ⟨event, inHistory, bounds⟩
          rw [same, ← carried, ← shown_of_seen_before shows before, decide_eq_true_eq]
      · rcases (readTriggerHistory_spec ordered member read).2 events (not_lt.mp early) with
          ⟨first, head, answered⟩ | ⟨unanswered, unseen⟩
        · -- A later event up to now tells what it changed from.
          have bounds := (mem_inRange ZEvent.clock _ _ _ first).mp (List.mem_of_head? head)
          have before := problemAt_before_first ordered alternates head
          refine iff_of_true ?_ (.inl ⟨first, bounds.1, by omega⟩)
          rw [← carried, before]
          simp [initialState, early, answered]
        · have initial : initialState ([].map ZEvent.toTriggerEvent) trigger window.windowEnd
              (found.firstLater.get? trigger.triggerid) = decide (trigger.value = .problem) := by
            simp [initialState, unanswered]
          by_cases happened : ∃ event ∈ eventsOf trigger.triggerid history,
              window.windowFrom ≤ event.clock ∧ event.clock ≤ now
          · -- An event of this very second, not yet recorded when the row was read.
            obtain ⟨event, inHistory, bounds⟩ := happened
            refine iff_of_true (believed _ initial ?_) (.inl ⟨event, inHistory, bounds⟩)
            intro other inSeen
            by_contra late
            have after : now < other.clock := by
              by_contra notAfter
              exact unseen other inSeen (by omega)
            have shown := inHistory
            rw [eventsOf, ← List.take_append_drop schedule.triggerSeen history,
              List.filter_append, List.mem_append] at shown
            rcases shown with taken | dropped
            · exact unseen event taken ⟨later event inHistory bounds.1, bounds.2⟩
            · have split : InClockOrder ZEvent.clock
                  (eventsOf trigger.triggerid (history.take schedule.triggerSeen) ++
                    eventsOf trigger.triggerid (history.drop schedule.triggerSeen)) := by
                rw [eventsOf, eventsOf, ← List.filter_append, List.take_append_drop]
                exact ownOrdered
              have inOrder' := (List.pairwise_append.mp split).2.2 other inSeen event dropped
              omega
          · have same := unchanged fun event inHistory bounds => happened ⟨event, inHistory, bounds⟩
            rw [initial, ← same]
            simp only [happened, false_or]
            cases problemAt history trigger.triggerid now <;> simp

/-- A report replays a trigger exactly if and only if the trigger's row tells the window:
whatever the schedule, only a change after `now` that the row already shows, with no event
from the window's start to now, gives the window the wrong state. -/
theorem replay_exact_iff (history : List ZEvent) (now : ℤ) (schedule : Schedule history now)
    (window : SliWindow now) (profile : SliProfile) (options : SliceOptions)
    (triggers : List ZTrigger) (trigger : ZTrigger) (found : TriggerHistory)
    (ordered : InClockOrder ZEvent.clock history)
    (alternates : Alternates .ok (eventsOf trigger.triggerid history))
    (shows : schedule.Shows trigger) (member : trigger ∈ triggers)
    (read : readTriggerHistory schedule.eventGet options triggers window.windowFrom
      window.windowEnd now = .ok found) :
    ReplayExact history window profile found trigger ↔
      RowTellsWindow history window profile trigger := by
  have clip := window.windowEnd_bounds profile
  have bucket := (readTriggerHistory_spec ordered member read).1
  have replayed : ∀ instant, Covers (found.replay trigger window.windowFrom window.windowEnd
        (window.endClip profile)).intervals instant ↔
      (window.windowFrom ≤ instant ∧ instant < window.endClip profile) ∧
        downAt (initialState ((windowEvents history window trigger).map ZEvent.toTriggerEvent)
            trigger window.windowEnd (found.firstLater.get? trigger.triggerid))
          ((windowEvents history window trigger).map ZEvent.toTriggerEvent) instant = true := by
    intro instant
    unfold TriggerHistory.replay
    rw [bucket]
    refine covers_intervalsFor _ _ _ _ ?_ ?_ instant
    · exact ((eventsOf_ordered ordered trigger.triggerid).sublist
        List.filter_sublist).map_toTriggerEvent
    · intro event inWindow
      obtain ⟨source, inside, rfl⟩ := List.mem_map.mp inWindow
      have bounds := ((mem_inRange ZEvent.clock _ _ _ source).mp inside).2
      show window.windowFrom ≤ source.clock ∧ source.clock ≤ window.endClip profile
      omega
  have inWindow : ∀ instant, window.windowFrom ≤ instant ∧ instant < window.endClip profile →
      problemAt history trigger.triggerid instant =
        downAt (problemAt history trigger.triggerid (window.windowFrom - 1))
          ((windowEvents history window trigger).map ZEvent.toTriggerEvent) instant :=
    fun instant inside => problemAt_eq_downAt ordered (by omega)
  have tells := initialState_eq_iff ordered alternates shows member read
  constructor
  · intro exact'
    by_cases empty : window.endClip profile ≤ window.windowFrom
    · exact .inl empty
    · refine .inr (tells.mp ?_)
      -- At the window's first second the replay shows the initial state or the same event.
      cases events : windowEvents history window trigger with
      | cons first rest =>
          have head : (windowEvents history window trigger).head? = some first := by rw [events]; rfl
          rw [problemAt_before_first ordered alternates head]
          rfl
      | nil =>
          have same := (replayed window.windowFrom).symm.trans (exact' window.windowFrom)
          have inside : window.windowFrom ≤ window.windowFrom ∧
              window.windowFrom < window.endClip profile := ⟨le_rfl, not_le.mp empty⟩
          rw [inWindow _ inside] at same
          simp only [inside, and_self, true_and, events, List.map_nil, downAt_nil] at same
          rw [List.map_nil]
          exact Bool.eq_iff_iff.mpr same
  · intro told instant
    rw [replayed]
    refine and_congr_right fun inside => ?_
    have started : ¬ window.endClip profile ≤ window.windowFrom := by omega
    rw [inWindow instant inside, tells.mpr (told.resolve_left started)]

end

section LateChange

/-! A trigger that was OK for the whole window and goes into problem one second after
`now`, just before its row is read. -/

def lateHistory : List ZEvent := [⟨"1", "100", 3001, .problem⟩]

def lateWindow : SliWindow 3000 := ⟨1000, 2000, by decide, by decide, by decide⟩

def lateTrigger : ZTrigger := ⟨"100", .problem, 3001, [⟨"10", "1.2.1 CORESWITCH", "0"⟩]⟩

def lateSchedule : Schedule lateHistory 3000 where
  triggerTime := 3001
  triggerSeen := 1
  readTime _ _ _ := 3001
  readSeen _ _ _ := 1
  triggerAfterNow := by decide
  readAfterTrigger _ _ _ := le_rfl
  seenGrows _ _ _ := le_rfl
  triggerRecorded := ⟨by decide, by decide⟩
  readRecorded _ _ _ := ⟨by decide, by decide⟩

def lateFound : TriggerHistory := ⟨.empty, .empty⟩

private theorem lateSchedule_shows : lateSchedule.Shows lateTrigger := ⟨by decide, by decide⟩

private theorem lateSchedule_read :
    readTriggerHistory lateSchedule.eventGet .standard [lateTrigger] lateWindow.windowFrom
      lateWindow.windowEnd 3000 = .ok lateFound := by
  decide +kernel

/-- The healthy window is replayed as one outage. -/
theorem late_change_misread :
    InClockOrder ZEvent.clock lateHistory ∧ Alternates .ok (eventsOf "100" lateHistory) ∧
      lateSchedule.Shows lateTrigger ∧
      readTriggerHistory lateSchedule.eventGet .standard [lateTrigger] lateWindow.windowFrom
        lateWindow.windowEnd 3000 = .ok lateFound ∧
      (lateFound.replay lateTrigger 1000 2000 1999).intervals = [(1000, 1999)] ∧
      ¬ ReplayExact lateHistory lateWindow .hcmlReport lateFound lateTrigger := by
  refine ⟨by decide, by simp [lateHistory, eventsOf, Alternates], lateSchedule_shows,
    lateSchedule_read, by decide, ?_⟩
  intro exact'
  have healthy := ((exact' 1000).mp (by decide)).2
  revert healthy
  decide

/-- The characterisation at that input. -/
theorem replay_exact_iff_late :
    ReplayExact lateHistory lateWindow .hcmlReport lateFound lateTrigger ↔
      RowTellsWindow lateHistory lateWindow .hcmlReport lateTrigger :=
  replay_exact_iff lateHistory 3000 lateSchedule lateWindow .hcmlReport .standard [lateTrigger]
    lateTrigger lateFound (by decide) (by simp [lateHistory, eventsOf, lateTrigger, Alternates])
    lateSchedule_shows (by simp) lateSchedule_read

end LateChange

end ZabbixPortal.Sli
