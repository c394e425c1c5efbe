import ZabbixPortal.Sli.Replay
import ZabbixPortal.Sli.EventsProperties
import ZabbixPortal.Sli.IntervalsProperties

/-! The replay against the trigger's own history. A trigger starts OK and each of its
events changes its state; the seconds it is in problem are what a replay should find. -/

set_option autoImplicit false

namespace ZabbixPortal.Sli

open Foundation Foundation.HalfOpen

section Down

/-- Whether the last of some events at or before an instant is a PROBLEM; `before` is
the state when there is none. -/
def downAt (before : Bool) (events : List TriggerEvent) (instant : ℤ) : Bool :=
  (((events.filter fun event => event.clock ≤ instant).getLast?).map
    fun event => decide (event.value = .problem)).getD before

@[simp] theorem downAt_nil (before : Bool) (instant : ℤ) : downAt before [] instant = before := rfl

theorem downAt_cons_of_le (before : Bool) {event : TriggerEvent} (rest : List TriggerEvent)
    {instant : ℤ} (past : event.clock ≤ instant) :
    downAt before (event :: rest) instant =
      downAt (decide (event.value = .problem)) rest instant := by
  unfold downAt
  rw [List.filter_cons, if_pos (by simpa using past), List.getLast?_cons]
  cases (rest.filter fun other => other.clock ≤ instant).getLast? <;> simp

/-- Before the first event nothing has changed. -/
theorem downAt_of_lt (before : Bool) (events : List TriggerEvent) (instant : ℤ)
    (future : ∀ event ∈ events, instant < event.clock) : downAt before events instant = before := by
  have empty : events.filter (fun event => event.clock ≤ instant) = [] := by
    refine List.filter_eq_nil_iff.mpr fun event member => ?_
    simpa using future event member
  simp [downAt, empty]

theorem downAt_append (before : Bool) (earlier later : List TriggerEvent) (instant : ℤ) :
    downAt before (earlier ++ later) instant =
      downAt (downAt before earlier instant) later instant := by
  unfold downAt
  rw [List.filter_append, List.getLast?_append]
  cases (later.filter fun event => event.clock ≤ instant).getLast? <;> simp

end Down

section Intervals

/-- A replay in progress covers what it has recorded, and from its open outage or its
next PROBLEM on what the events left to replay leave in problem. -/
private theorem covers_replay (windowFrom endClip : ℤ) (events : List TriggerEvent)
    (ordered : InClockOrder TriggerEvent.clock events)
    (within : ∀ event ∈ events, windowFrom ≤ event.clock ∧ event.clock ≤ endClip)
    (state : ReplayState)
    (opened : ∀ start, state.opened = some start → ∀ event ∈ events, start ≤ event.clock)
    (instant : ℤ) :
    Covers ((events.foldl (replayEvent windowFrom endClip) state).finish endClip).intervals
        instant ↔
      Covers state.replay.intervals instant ∨
        ((∀ start, state.opened = some start → start ≤ instant) ∧ instant < endClip ∧
          downAt state.opened.isSome events instant = true) := by
  induction events generalizing state with
  | nil =>
      rcases state with ⟨_ | start, replay⟩
      · simp [ReplayState.finish]
      · by_cases proper : endClip > start
        · simp [ReplayState.finish, proper]
        · simp [ReplayState.finish, proper]
          omega
  | cons event rest ih =>
      have inside := within event (by simp)
      have later := (List.pairwise_cons.mp ordered).1
      have restWithin := fun other member => within other (List.mem_cons_of_mem event member)
      have kept : ¬ (event.clock < windowFrom ∨ event.clock > endClip) := by omega
      have untouched : ∀ before, instant < event.clock → downAt before rest instant = before :=
        fun before early => downAt_of_lt before rest instant fun other member =>
          early.trans_le (later other member)
      have unchanged : ∀ before, instant < event.clock →
          downAt before (event :: rest) instant = before := by
        intro before early
        refine downAt_of_lt before _ instant fun other member => ?_
        rcases List.mem_cons.mp member with rfl | inRest
        · exact early
        · exact early.trans_le (later other inRest)
      rw [List.foldl_cons, ih ordered.of_cons restWithin]
      · rcases state with ⟨_ | start, replay⟩
        · cases value : event.value with
          | problem =>
              simp only [replayEvent, kept, ↓reduceIte, value]
              by_cases past : event.clock ≤ instant
              · simp [downAt_cons_of_le _ rest past, value, past]
              · simp [unchanged _ (not_le.mp past), past]
          | ok =>
              simp only [replayEvent, kept, ↓reduceIte, value]
              by_cases past : event.clock ≤ instant
              · simp [downAt_cons_of_le _ rest past, value]
              · simp [unchanged _ (not_le.mp past), untouched _ (not_le.mp past)]
        · have begun : start ≤ event.clock := opened start rfl event (by simp)
          cases value : event.value with
          | problem =>
              simp only [replayEvent, kept, ↓reduceIte, value]
              by_cases past : event.clock ≤ instant
              · simp [downAt_cons_of_le _ rest past, value]
              · simp [unchanged _ (not_le.mp past), untouched _ (not_le.mp past)]
          | ok =>
              simp only [replayEvent, kept, ↓reduceIte, value]
              have recorded : ∀ added : Replay,
                  added = (if event.clock > start then
                    { replay with intervals := replay.intervals ++ [(start, event.clock)] }
                    else replay) →
                  (Covers added.intervals instant ↔
                    Covers replay.intervals instant ∨ (start ≤ instant ∧ instant < event.clock)) := by
                rintro added rfl
                split
                · simp
                · constructor
                  · exact .inl
                  · rintro (old | empty)
                    · exact old
                    · omega
              rw [recorded _ rfl]
              by_cases past : event.clock ≤ instant
              · have started : start ≤ instant := begun.trans past
                simp [downAt_cons_of_le _ rest past, value, not_lt.mpr past, started]
              · have early := not_le.mp past
                have clipped : instant < endClip := early.trans_le inside.2
                simp [unchanged _ early, untouched _ early, early, clipped]
      · -- The outage open after this event began no later than the events still to come.
        intro start isOpen other member
        have after := later other member
        rcases state with ⟨_ | begun, replay⟩
        · cases value : event.value <;> simp only [replayEvent, kept, ↓reduceIte, value] at isOpen
          · cases isOpen
            exact after
          · cases isOpen
        · have earlier := opened begun rfl event (by simp)
          cases value : event.value <;> simp only [replayEvent, kept, ↓reduceIte, value] at isOpen
          · cases isOpen
            exact earlier.trans after
          · cases isOpen

/-- Replaying ordered events of the window finds the seconds they leave in problem. -/
theorem covers_intervalsFor (events : List TriggerEvent) (initialProblem : Bool)
    (windowFrom endClip : ℤ) (ordered : InClockOrder TriggerEvent.clock events)
    (within : ∀ event ∈ events, windowFrom ≤ event.clock ∧ event.clock ≤ endClip) (instant : ℤ) :
    Covers (intervalsFor events initialProblem windowFrom endClip).intervals instant ↔
      (windowFrom ≤ instant ∧ instant < endClip) ∧ downAt initialProblem events instant = true := by
  have startsInside : ∀ start,
      (if initialProblem then some windowFrom else none) = some start →
      ∀ event ∈ events, start ≤ event.clock := by
    intro start isOpen event member
    cases initialProblem
    · cases isOpen
    · cases isOpen
      exact (within event member).1
  rw [intervalsFor, covers_replay windowFrom endClip events ordered within _ startsInside]
  cases initialProblem
  · -- In problem without starting so: an event of the window came first.
    have inWindow : downAt false events instant = true → windowFrom ≤ instant := by
      intro down
      by_contra early
      rw [downAt_of_lt] at down
      · cases down
      · intro event member
        exact (not_le.mp early).trans_le (within event member).1
    simp only [covers_nil, Bool.false_eq_true, ↓reduceIte, reduceCtorEq, false_implies,
      implies_true, true_and, false_or, Option.isSome_none]
    constructor
    · rintro ⟨clipped, down⟩
      exact ⟨⟨inWindow down, clipped⟩, down⟩
    · rintro ⟨⟨_, clipped⟩, down⟩
      exact ⟨clipped, down⟩
  · simp [and_assoc]

end Intervals

end ZabbixPortal.Sli
