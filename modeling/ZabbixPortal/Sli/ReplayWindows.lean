import ZabbixPortal.Sli.ReplaySchedule

/-! Replaying a window of a history that is over: exact, whichever of the three clues
tells the state at its start, and so for both halves of a window that is cut. -/

set_option autoImplicit false

namespace ZabbixPortal.Sli

open Foundation Foundation.HalfOpen

structure ShowsWhole (history : List ZEvent) (trigger : ZTrigger) : Prop where
  value : trigger.value = stateAfter (eventsOf trigger.triggerid history)
  lastchange : trigger.lastchange =
    ((eventsOf trigger.triggerid history).getLast?.map (·.clock)).getD 0

def eventsBetween (history : List ZEvent) (triggerid : String) (first last : ℤ) : List ZEvent :=
  inRange ZEvent.clock first last (eventsOf triggerid history)

def firstFrom (history : List ZEvent) (triggerid : String) (instant : ℤ) : Option ZEvent :=
  (eventsOf triggerid history).find? fun event => instant ≤ event.clock

def windowReplay (history : List ZEvent) (trigger : ZTrigger) (windowFrom endClip windowEnd : ℤ) :
    Replay :=
  let events := (eventsBetween history trigger.triggerid windowFrom endClip).map
    ZEvent.toTriggerEvent
  let firstLater := (firstFrom history trigger.triggerid windowEnd).map (·.value)
  intervalsFor events (initialState events trigger windowEnd firstLater) windowFrom endClip

/-- A replay under way: what it recorded ended before the outage that is open, or else
before the events still to come. -/
structure ReplayState.Settled (state : ReplayState) (bound : ℤ) : Prop where
  recorded : Ordered state.replay.intervals
  ended : ∀ interval ∈ state.replay.intervals, interval.2 ≤ state.opened.getD bound
  opened : state.opened.getD bound ≤ bound

theorem ordered_concat {intervals : List Interval} {added : Interval}
    (ordered : Ordered intervals) (proper : added.1 < added.2)
    (before : ∀ interval ∈ intervals, interval.2 ≤ added.1) : Ordered (intervals ++ [added]) := by
  constructor
  · intro interval member
    rcases List.mem_append.mp member with old | new
    · exact ordered.proper interval old
    · obtain rfl := List.mem_singleton.mp new
      exact proper
  · refine List.pairwise_append.mpr ⟨ordered.apart, List.pairwise_singleton _ _, ?_⟩
    intro interval old other new
    obtain rfl := List.mem_singleton.mp new
    exact before interval old

theorem ReplayState.Settled.replayEvent {state : ReplayState} {bound : ℤ} {event : TriggerEvent}
    (settled : state.Settled bound) (later : bound ≤ event.clock) (windowFrom endClip : ℤ) :
    (Sli.replayEvent windowFrom endClip state event).Settled event.clock := by
  obtain ⟨opened, replay⟩ := state
  obtain ⟨recorded, ended, begun⟩ := settled
  have carried : ReplayState.Settled ⟨opened, replay⟩ event.clock := by
    cases opened with
    | none => exact ⟨recorded, fun interval old => (ended interval old).trans later, le_rfl⟩
    | some start => exact ⟨recorded, ended, begun.trans later⟩
  unfold Sli.replayEvent
  split
  · exact carried
  · cases event.value with
    | problem =>
        cases opened with
        | none => exact ⟨recorded, fun interval old => (ended interval old).trans later, le_rfl⟩
        | some start => exact carried
    | ok =>
        cases opened with
        | none => exact carried
        | some start =>
            have starts : start ≤ event.clock := begun.trans later
            have before : ∀ interval ∈ replay.intervals, interval.2 ≤ event.clock :=
              fun interval old => (ended interval old).trans starts
            dsimp only
            split
            · next lasted =>
                refine ⟨ordered_concat recorded lasted ended, ?_, le_rfl⟩
                intro interval member
                rcases List.mem_append.mp member with old | new
                · exact before interval old
                · obtain rfl := List.mem_singleton.mp new
                  exact le_rfl
            · exact ⟨recorded, before, le_rfl⟩

theorem ReplayState.Settled.foldl {events : List TriggerEvent} {state : ReplayState} {bound : ℤ}
    (settled : state.Settled bound) (ordered : InClockOrder TriggerEvent.clock events)
    (later : ∀ event ∈ events, bound ≤ event.clock) (windowFrom endClip : ℤ) :
    ∃ last, (events.foldl (Sli.replayEvent windowFrom endClip) state).Settled last := by
  induction events generalizing state bound with
  | nil => exact ⟨bound, settled⟩
  | cons event rest ih =>
      have next := settled.replayEvent (later event List.mem_cons_self) windowFrom endClip
      exact ih next ordered.of_cons (List.pairwise_cons.mp ordered).1

/-- Replayed outages are proper, in order and apart. -/
theorem intervalsFor_ordered {events : List TriggerEvent} (initialProblem : Bool)
    {windowFrom : ℤ} (endClip : ℤ) (ordered : InClockOrder TriggerEvent.clock events)
    (within : ∀ event ∈ events, windowFrom ≤ event.clock) :
    Ordered (intervalsFor events initialProblem windowFrom endClip).intervals := by
  unfold intervalsFor
  dsimp only
  have started : ReplayState.Settled
      { opened := if initialProblem then some windowFrom else none
        replay := { intervals := [], incidents := if initialProblem then 1 else 0 } } windowFrom := by
    cases initialProblem with
    | true => exact ⟨Ordered.nil, by simp, le_rfl⟩
    | false => exact ⟨Ordered.nil, by simp, le_rfl⟩
  obtain ⟨last, settled⟩ := started.foldl ordered within windowFrom endClip
  revert settled
  generalize events.foldl _ _ = state
  intro settled
  obtain ⟨opened, replay⟩ := state
  cases opened with
  | none => exact settled.recorded
  | some start =>
      unfold ReplayState.finish
      dsimp only
      split
      · next lasted => exact ordered_concat settled.recorded lasted settled.ended
      · exact settled.recorded

section Exact

variable {history : List ZEvent} {trigger : ZTrigger} {windowFrom endClip windowEnd : ℤ}

/-- Nothing happened from an instant on: the row still shows the state before it. -/
private theorem value_of_quiet (shows : ShowsWhole history trigger) {instant : ℤ}
    (quiet : ∀ event ∈ eventsOf trigger.triggerid history, event.clock < instant) :
    decide (trigger.value = .problem) = problemAt history trigger.triggerid (instant - 1) := by
  have all : (eventsOf trigger.triggerid history).filter (fun event => event.clock ≤ instant - 1) =
      eventsOf trigger.triggerid history := by
    rw [List.filter_eq_self]
    intro event member
    have before := quiet event member
    simp only [decide_eq_true_eq]
    omega
  rw [problemAt_eq, all, shows.value]

private theorem clock_le_lastchange (ordered : InClockOrder ZEvent.clock history)
    (shows : ShowsWhole history trigger) :
    ∀ event ∈ eventsOf trigger.triggerid history, event.clock ≤ trigger.lastchange := by
  intro event member
  have own := eventsOf_ordered ordered trigger.triggerid
  have changed := shows.lastchange
  cases last : (eventsOf trigger.triggerid history).getLast? with
  | none =>
      rw [List.getLast?_eq_none_iff.mp last] at member
      cases member
  | some final =>
      obtain ⟨initial, split⟩ := List.getLast?_eq_some_iff.mp last
      rw [last] at changed
      rw [split] at member own
      rcases List.mem_append.mp member with inInitial | isLast
      · have before := (List.pairwise_append.mp own).2.2 event inInitial final (by simp)
        exact before.trans changed.ge
      · obtain rfl := List.mem_singleton.mp isLast
        exact changed.ge

private theorem head?_of_firstFrom {instant : ℤ} {event : ZEvent}
    (first : firstFrom history trigger.triggerid instant = some event) :
    (inRange ZEvent.clock instant event.clock (eventsOf trigger.triggerid history)).head? =
      some event := by
  obtain ⟨reached, before, after, split, early⟩ := List.find?_eq_some_iff_append.mp first
  have empty : inRange ZEvent.clock instant event.clock before = [] := by
    rw [inRange, List.filter_eq_nil_iff]
    intro other member
    have notYet := early other member
    simp only [Bool.not_eq_true', decide_eq_false_iff_not] at notYet
    simp only [decide_eq_true_eq]
    omega
  have inside : instant ≤ event.clock ∧ event.clock ≤ event.clock :=
    ⟨by simpa using reached, le_rfl⟩
  rw [split, inRange, List.filter_append, List.filter_cons_of_pos (by simpa using inside)]
  rw [inRange] at empty
  rw [empty]
  rfl

/-- The state at the window's start, from the window's first event, from the row, or
from the first event after the window. -/
theorem initialState_exact (ordered : InClockOrder ZEvent.clock history)
    (alternates : Alternates .ok (eventsOf trigger.triggerid history))
    (shows : ShowsWhole history trigger) (forward : windowFrom ≤ endClip)
    (clipped : endClip ≤ windowEnd ∧ windowEnd ≤ endClip + 1) :
    initialState ((eventsBetween history trigger.triggerid windowFrom endClip).map
        ZEvent.toTriggerEvent) trigger windowEnd
        ((firstFrom history trigger.triggerid windowEnd).map (·.value)) =
      problemAt history trigger.triggerid (windowFrom - 1) := by
  cases events : eventsBetween history trigger.triggerid windowFrom endClip with
  | cons first rest =>
      have head : (eventsBetween history trigger.triggerid windowFrom endClip).head? =
          some first := by
        rw [events]
        rfl
      rw [problemAt_before_first ordered alternates head]
      rfl
  | nil =>
      have outside : ∀ event ∈ eventsOf trigger.triggerid history,
          ¬ (windowFrom ≤ event.clock ∧ event.clock ≤ endClip) := by
        intro event member inside
        have listed : event ∈ eventsBetween history trigger.triggerid windowFrom endClip :=
          (mem_inRange _ _ _ _ _).mpr ⟨member, inside⟩
        rw [events] at listed
        cases listed
      rw [List.map_nil, initialState]
      split
      · next settled =>
          apply value_of_quiet shows
          intro event member
          have apart := outside event member
          rcases settled with changed | unanswered
          · have shown := clock_le_lastchange ordered shows event member
            omega
          · have ended := List.find?_eq_none.mp (Option.map_eq_none_iff.mp unanswered) event member
            simp only [decide_eq_true_eq] at ended
            omega
      · next unsettled =>
          obtain ⟨_, answered⟩ := not_or.mp unsettled
          cases first : firstFrom history trigger.triggerid windowEnd with
          | none =>
              rw [first] at answered
              exact absurd rfl answered
          | some event =>
              have told := problemAt_before_first ordered alternates
                (head?_of_firstFrom first)
              have carried : problemAt history trigger.triggerid (windowEnd - 1) =
                  problemAt history trigger.triggerid (windowFrom - 1) := by
                apply problemAt_eq_of_quiet (by omega)
                intro other member between
                exact outside other member ⟨by omega, by omega⟩
              rw [← carried, told]
              simp

theorem covers_windowReplay (ordered : InClockOrder ZEvent.clock history)
    (alternates : Alternates .ok (eventsOf trigger.triggerid history))
    (shows : ShowsWhole history trigger) (forward : windowFrom ≤ endClip)
    (clipped : endClip ≤ windowEnd ∧ windowEnd ≤ endClip + 1) (instant : ℤ) :
    Covers (windowReplay history trigger windowFrom endClip windowEnd).intervals instant ↔
      (windowFrom ≤ instant ∧ instant < endClip) ∧
        problemAt history trigger.triggerid instant = true := by
  have own := eventsOf_ordered ordered trigger.triggerid
  have inOrder : InClockOrder TriggerEvent.clock
      ((eventsBetween history trigger.triggerid windowFrom endClip).map ZEvent.toTriggerEvent) :=
    (own.sublist List.filter_sublist).map_toTriggerEvent
  have within : ∀ event ∈
      (eventsBetween history trigger.triggerid windowFrom endClip).map ZEvent.toTriggerEvent,
      windowFrom ≤ event.clock ∧ event.clock ≤ endClip := by
    intro event member
    obtain ⟨row, inRows, rfl⟩ := List.mem_map.mp member
    exact ((mem_inRange _ _ _ _ _).mp inRows).2
  rw [windowReplay, covers_intervalsFor _ _ _ _ inOrder within,
    initialState_exact ordered alternates shows forward clipped]
  constructor
  · rintro ⟨inside, down⟩
    rw [problemAt_eq_downAt ordered ⟨inside.1, inside.2.le⟩]
    exact ⟨inside, down⟩
  · rintro ⟨inside, down⟩
    rw [problemAt_eq_downAt ordered ⟨inside.1, inside.2.le⟩] at down
    exact ⟨inside, down⟩

end Exact

/-- What a window's replay is, and what two replays of its parts are together. -/
structure WindowExact (history : List ZEvent) (trigger : ZTrigger)
    (windowFrom endClip windowEnd : ℤ) : Prop where
  ordered : Ordered (windowReplay history trigger windowFrom endClip windowEnd).intervals
  covers : ∀ instant,
    Covers (windowReplay history trigger windowFrom endClip windowEnd).intervals instant ↔
      (windowFrom ≤ instant ∧ instant < endClip) ∧
        problemAt history trigger.triggerid instant = true
  splits : ∀ cut cutEnd, windowFrom ≤ cut → cut ≤ endClip → cut ≤ cutEnd → cutEnd ≤ cut + 1 →
    mergeIntervals ((windowReplay history trigger windowFrom cut cutEnd).intervals ++
        (windowReplay history trigger cut endClip windowEnd).intervals) =
      mergeIntervals (windowReplay history trigger windowFrom endClip windowEnd).intervals

/-- Replays are exact and split, with the window's end at the clip or a second later. -/
theorem replay_exact_and_splits (history : List ZEvent) (trigger : ZTrigger)
    (ordered : InClockOrder ZEvent.clock history)
    (alternates : Alternates .ok (eventsOf trigger.triggerid history))
    (shows : ShowsWhole history trigger) (windowFrom endClip windowEnd : ℤ)
    (forward : windowFrom ≤ endClip) (clipped : endClip ≤ windowEnd ∧ windowEnd ≤ endClip + 1) :
    WindowExact history trigger windowFrom endClip windowEnd where
  ordered := by
    have own := eventsOf_ordered ordered trigger.triggerid
    apply intervalsFor_ordered
    · exact (own.sublist List.filter_sublist).map_toTriggerEvent
    · intro event member
      obtain ⟨row, inRows, rfl⟩ := List.mem_map.mp member
      exact ((mem_inRange _ _ _ _ _).mp inRows).2.1
  covers := covers_windowReplay ordered alternates shows forward clipped
  splits := by
    intro cut cutEnd lower upper ends near
    apply mergeIntervals_congr
    intro instant
    rw [covers_append, covers_windowReplay ordered alternates shows lower ⟨ends, near⟩,
      covers_windowReplay ordered alternates shows upper clipped,
      covers_windowReplay ordered alternates shows forward clipped]
    constructor
    · rintro (⟨inside, down⟩ | ⟨inside, down⟩)
      · exact ⟨⟨inside.1, inside.2.trans_le upper⟩, down⟩
      · exact ⟨⟨lower.trans inside.1, inside.2⟩, down⟩
    · rintro ⟨inside, down⟩
      rcases lt_or_ge instant cut with early | late
      · exact .inl ⟨⟨inside.1, early⟩, down⟩
      · exact .inr ⟨⟨late, inside.2⟩, down⟩

section Outage

def outageHistory : List ZEvent := [⟨"1", "t", 50, .problem⟩, ⟨"2", "t", 200, .ok⟩]

def recoveredTrigger : ZTrigger := ⟨"t", .ok, 200, []⟩

theorem replay_exact_and_splits_outage :
    WindowExact outageHistory recoveredTrigger 100 199 200 :=
  replay_exact_and_splits outageHistory recoveredTrigger (by decide)
    ⟨by decide, by decide, trivial⟩ ⟨by decide, by decide⟩ 100 199 200 (by decide)
    ⟨by decide, by decide⟩

end Outage

end ZabbixPortal.Sli
