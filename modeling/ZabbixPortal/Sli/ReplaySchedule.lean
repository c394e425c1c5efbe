import ZabbixPortal.Sli.Window
import ZabbixPortal.Sli.ReplayProperties
import Mathlib.Algebra.Order.BigOperators.Group.List

/-! A report's reads against an estate that changes while they run. A schedule says how
much of the estate's history each read found recorded; the replay is exact unless the
trigger changed between `now` and the read of its row, with nothing in between to show it. -/

set_option autoImplicit false

namespace ZabbixPortal.Sli

open Foundation Foundation.HalfOpen

def eventsOf (triggerid : String) (history : List ZEvent) : List ZEvent :=
  history.filter fun event => event.objectid = triggerid

def ZEvent.toTriggerEvent (event : ZEvent) : TriggerEvent := ⟨event.clock, event.value⟩

def Alternates : TriggerValue → List ZEvent → Prop
  | _, [] => True
  | state, event :: rest => event.value ≠ state ∧ Alternates event.value rest

/-- The state some events leave a trigger in; a trigger starts OK. -/
def stateAfter (events : List ZEvent) : TriggerValue := (events.getLast?.map (·.value)).getD .ok

def problemAt (history : List ZEvent) (triggerid : String) (instant : ℤ) : Bool :=
  downAt false ((eventsOf triggerid history).map ZEvent.toTriggerEvent) instant

/-- The first `count` events of the history are what was recorded at an instant. Those of
the very second may or may not be among them. -/
structure Recorded (history : List ZEvent) (instant : ℤ) (count : Nat) : Prop where
  past : ∀ event ∈ history.take count, event.clock ≤ instant
  future : ∀ event ∈ history.drop count, instant ≤ event.clock

/-- When each read of a report ran, and how much history it found: `now` is taken first,
then the triggers are read, then events, each read at an instant of its own. -/
structure Schedule (history : List ZEvent) (now : ℤ) where
  triggerTime : ℤ
  triggerSeen : Nat
  readTime : List String → ℤ → ℤ → ℤ
  readSeen : List String → ℤ → ℤ → Nat
  triggerAfterNow : now ≤ triggerTime
  readAfterTrigger : ∀ ids first last, triggerTime ≤ readTime ids first last
  seenGrows : ∀ ids first last, triggerSeen ≤ readSeen ids first last
  triggerRecorded : Recorded history triggerTime triggerSeen
  readRecorded : ∀ ids first last,
    Recorded history (readTime ids first last) (readSeen ids first last)

namespace Schedule

variable {history : List ZEvent} {now : ℤ}

/-- An event read: the recorded events of its triggers and range, up to its limit. -/
def eventGet (schedule : Schedule history now) : EventGet := fun ids first last limit =>
  (inRange ZEvent.clock first last
    ((history.take (schedule.readSeen ids first last)).filter fun event =>
      ids.contains event.objectid)).take limit

structure Shows (schedule : Schedule history now) (trigger : ZTrigger) : Prop where
  value : trigger.value =
    stateAfter (eventsOf trigger.triggerid (history.take schedule.triggerSeen))
  lastchange : trigger.lastchange =
    ((eventsOf trigger.triggerid (history.take schedule.triggerSeen)).getLast?.map (·.clock)).getD 0

end Schedule

section Histories

theorem InClockOrder.sublist {α : Type} {clock : α → ℤ} {inner outer : List α}
    (ordered : InClockOrder clock outer) (part : inner.Sublist outer) :
    InClockOrder clock inner :=
  List.Pairwise.sublist part ordered

theorem InClockOrder.map_toTriggerEvent {events : List ZEvent}
    (ordered : InClockOrder ZEvent.clock events) :
    InClockOrder TriggerEvent.clock (events.map ZEvent.toTriggerEvent) :=
  List.pairwise_map.mpr ordered

/-- The state before an alternating history's later part, told by that part's first event. -/
theorem stateAfter_of_alternates {state : TriggerValue} {earlier later : List ZEvent}
    {event : ZEvent} (alternates : Alternates state (earlier ++ event :: later)) :
    event.value ≠ ((earlier.getLast?.map (·.value)).getD state) := by
  induction earlier generalizing state with
  | nil => simpa using alternates.1
  | cons first rest ih =>
      have recursive := ih alternates.2
      rw [List.getLast?_cons]
      cases last : rest.getLast? with
      | none => simpa [last] using recursive
      | some value => simpa [last] using recursive

theorem downAt_map (before : Bool) (events : List ZEvent) (instant : ℤ) :
    downAt before (events.map ZEvent.toTriggerEvent) instant =
      (((events.filter fun event => event.clock ≤ instant).getLast?).map
        fun event => decide (event.value = .problem)).getD before := by
  unfold downAt
  rw [List.filter_map, List.getLast?_map]
  have same : ((fun event : TriggerEvent => decide (event.clock ≤ instant)) ∘ ZEvent.toTriggerEvent) =
      fun event : ZEvent => decide (event.clock ≤ instant) := rfl
  rw [same]
  cases (events.filter fun event => event.clock ≤ instant).getLast? <;>
    simp [ZEvent.toTriggerEvent]

/-- The state at an instant is the state the events up to it leave. -/
theorem problemAt_eq (history : List ZEvent) (triggerid : String) (instant : ℤ) :
    problemAt history triggerid instant =
      decide (stateAfter ((eventsOf triggerid history).filter fun event => event.clock ≤ instant) =
        .problem) := by
  rw [problemAt, downAt_map, stateAfter]
  cases ((eventsOf triggerid history).filter fun event => event.clock ≤ instant).getLast? <;> simp

/-- An ordered list splits at an instant. -/
theorem filter_le_append_filter_gt {events : List ZEvent}
    (ordered : InClockOrder ZEvent.clock events) (instant : ℤ) :
    events.filter (fun event => event.clock ≤ instant) ++
      events.filter (fun event => ¬ event.clock ≤ instant) = events := by
  induction events with
  | nil => rfl
  | cons event rest ih =>
      have recursive := ih ordered.of_cons
      by_cases past : event.clock ≤ instant
      · simpa [past] using recursive
      · have later : ∀ other ∈ rest, ¬ other.clock ≤ instant := by
          intro other member
          have after := (List.pairwise_cons.mp ordered).1 other member
          omega
        have empty : rest.filter (fun other => decide (other.clock ≤ instant)) = [] := by
          refine List.filter_eq_nil_iff.mpr fun other member => ?_
          simpa using later other member
        have all : rest.filter (fun other => decide (¬ other.clock ≤ instant)) = rest := by
          refine List.filter_eq_self.mpr fun other member => ?_
          simpa using later other member
        rw [List.filter_cons, List.filter_cons, if_neg (by simpa using past),
          if_pos (by simpa using past), empty, all, List.nil_append]

end Histories

section Reads

variable {history : List ZEvent} {now : ℤ} (schedule : Schedule history now)

def RecordedRows (ids : List String) (first last : ℤ) (rows : List ZEvent) : Prop :=
  ∃ count, schedule.triggerSeen ≤ count ∧ (∀ event ∈ history.drop count, now ≤ event.clock) ∧
    rows = inRange ZEvent.clock first last
      ((history.take count).filter fun event => ids.contains event.objectid)

private theorem filter_take_drop (keep : ZEvent → Bool) (events : List ZEvent) (count : Nat) :
    events.filter keep = (events.take count).filter keep ++ (events.drop count).filter keep := by
  rw [← List.filter_append, List.take_append_drop]

private theorem inRange_of_append (first last : ℤ) (earlier later : List ZEvent) :
    inRange ZEvent.clock first last (earlier ++ later) =
      inRange ZEvent.clock first last earlier ++ inRange ZEvent.clock first last later :=
  List.filter_append _ _

/-- A range that ends before `now` is recorded in full by then. -/
private theorem inRange_take_eq (keep : ZEvent → Bool) {count : Nat} {first last : ℤ}
    (recorded : ∀ event ∈ history.drop count, now ≤ event.clock) (past : last < now) :
    inRange ZEvent.clock first last ((history.take count).filter keep) =
      inRange ZEvent.clock first last (history.filter keep) := by
  have unseen : inRange ZEvent.clock first last ((history.drop count).filter keep) = [] := by
    refine List.filter_eq_nil_iff.mpr fun event member => ?_
    have late := recorded event (List.mem_of_mem_filter member)
    simp; omega
  rw [filter_take_drop keep history count, inRange_of_append, unseen, List.append_nil]

/-- Every sliced read up to `now` returns the recorded rows of its range. -/
theorem recordedRows_of_read (ordered : InClockOrder ZEvent.clock history)
    {options : SliceOptions} {ids : List String} {first last : ℤ} (forward : first ≤ last)
    (past : last ≤ now) {rows : List ZEvent}
    (read : fetchEventsSliced (schedule.eventGet ids) options first last = .ok rows) :
    RecordedRows schedule ids first last rows := by
  refine fetchEventsSliced_induction (RecordedRows schedule ids) ?_ ?_ forward read
  · intro lower upper _ _ _ short
    refine ⟨schedule.readSeen ids lower upper, schedule.seenGrows ids lower upper, ?_, ?_⟩
    · intro event member
      exact (schedule.triggerAfterNow.trans (schedule.readAfterTrigger ids lower upper)).trans
        ((schedule.readRecorded ids lower upper).future event member)
    · rw [Schedule.eventGet, List.length_take] at short
      exact List.take_of_length_le (by omega)
  · rintro lower middle upper left right _ inOrder before below
      ⟨leftCount, _, leftRecorded, rfl⟩ ⟨rightCount, rightSeen, rightRecorded, rfl⟩
    refine ⟨rightCount, rightSeen, rightRecorded, ?_⟩
    have early : middle < now := by omega
    rw [inRange_take_eq _ leftRecorded early, ← inRange_take_eq _ rightRecorded early]
    refine inRange_append ZEvent.clock ?_ _ _ _ (by omega) before.le
    exact ordered.sublist (List.filter_sublist.trans (List.take_sublist _ _))

/-- The window's rows are the window's events. -/
theorem windowRows_of_read (ordered : InClockOrder ZEvent.clock history)
    {options : SliceOptions} {ids : List String} {first last : ℤ} (past : last < now)
    {rows : List ZEvent}
    (read : fetchEventsSliced (schedule.eventGet ids) options first last = .ok rows) :
    rows = inRange ZEvent.clock first last (history.filter fun event => ids.contains event.objectid) := by
  by_cases forward : first ≤ last
  · obtain ⟨count, _, recorded, rfl⟩ := recordedRows_of_read schedule ordered forward past.le read
    exact inRange_take_eq _ recorded past
  · rw [fetchEventsSliced_backward (not_le.mp forward)] at read
    cases read
    refine (List.filter_eq_nil_iff.mpr fun event _ => ?_).symm
    simp; omega

/-- A trigger's own rows among those of a read that asked for it. -/
theorem eventsOf_inRange {ids : List String} {triggerid : String} (asked : triggerid ∈ ids)
    (first last : ℤ) (events : List ZEvent) :
    eventsOf triggerid (inRange ZEvent.clock first last
        (events.filter fun event => ids.contains event.objectid)) =
      inRange ZEvent.clock first last (eventsOf triggerid events) := by
  unfold eventsOf inRange
  rw [List.filter_filter, List.filter_filter, List.filter_filter]
  refine List.filter_congr fun event _ => ?_
  by_cases own : event.objectid = triggerid
  · simp [own, asked]
  · simp [own]

end Reads

section Later

private theorem get?_noteFirst (found : OrderedMap String TriggerValue) (event : ZEvent)
    (triggerid : String) :
    (noteFirst found event).get? triggerid =
      (found.get? triggerid).or (if event.objectid = triggerid then some event.value else none) := by
  unfold noteFirst
  split
  · next known =>
      obtain ⟨value, present⟩ := (OrderedMap.contains_iff found event.objectid).mp known
      by_cases own : event.objectid = triggerid
      · rw [← own, present]
        simp
      · simp [own]
  · next unknown =>
      have absent : found.get? event.objectid = none := by
        simpa [OrderedMap.contains] using unknown
      rw [OrderedMap.get?_set]
      by_cases own : event.objectid = triggerid
      · rw [← own, absent]
        simp
      · simp [own, Ne.symm own]

/-- Noting a read's rows keeps what was found and adds each trigger's first row. -/
theorem get?_foldl_noteFirst (rows : List ZEvent) (found : OrderedMap String TriggerValue)
    (triggerid : String) :
    (rows.foldl noteFirst found).get? triggerid =
      (found.get? triggerid).or ((eventsOf triggerid rows).head?.map (·.value)) := by
  induction rows generalizing found with
  | nil => simp [eventsOf]
  | cons event rest ih =>
      rw [List.foldl_cons, ih, get?_noteFirst]
      by_cases own : event.objectid = triggerid
      · cases found.get? triggerid <;> simp [eventsOf, own]
      · cases found.get? triggerid <;> simp [eventsOf, own]

variable {history : List ZEvent} {now : ℤ} (schedule : Schedule history now)

private theorem head?_inRange_of_slice (ordered : InClockOrder ZEvent.clock history)
    {triggerid : String} {windowEnd start till : ℤ} {count : Nat}
    (after : windowEnd ≤ start) (past : till ≤ now)
    (skipped : ∀ event ∈ eventsOf triggerid history,
      ¬ (windowEnd ≤ event.clock ∧ event.clock < start))
    {event : ZEvent}
    (first : (inRange ZEvent.clock start till (eventsOf triggerid (history.take count))).head? =
      some event) :
    (inRange ZEvent.clock windowEnd now (eventsOf triggerid history)).head? = some event := by
  have own : InClockOrder ZEvent.clock (eventsOf triggerid history) :=
    ordered.sublist List.filter_sublist
  have whole : inRange ZEvent.clock windowEnd now (eventsOf triggerid history) =
      inRange ZEvent.clock start now (eventsOf triggerid history) := by
    refine List.filter_congr fun other member => ?_
    have outside := skipped other member
    have same : (windowEnd ≤ other.clock ∧ other.clock ≤ now) ↔
        (start ≤ other.clock ∧ other.clock ≤ now) := by omega
    simp only [same]
  have inOrder : start ≤ till := by
    have bounds := ((mem_inRange _ _ _ _ _).mp (List.mem_of_head? first)).2
    omega
  have parts := inRange_append ZEvent.clock own start till now (by omega) past
  have shown : eventsOf triggerid history =
      eventsOf triggerid (history.take count) ++ eventsOf triggerid (history.drop count) :=
    filter_take_drop _ history count
  rw [whole, ← parts, shown, inRange_of_append, List.append_assoc, List.head?_append, first]
  rfl

/-- The trigger's first event from the window's end to now, as the map holds it. -/
def FoundLater (history : List ZEvent) (now : ℤ) (triggerid : String) (windowEnd : ℤ)
    (found : OrderedMap String TriggerValue) : Prop :=
  ∃ event, (inRange ZEvent.clock windowEnd now (eventsOf triggerid history)).head? = some event ∧
    found.get? triggerid = some event.value

/-- Where a search stands for one trigger it was asked about: its first later event is
found, or it is still asked about and nothing before `start` was missed. -/
def Searched (triggerid : String) (windowEnd : ℤ) (search : LaterSearch) : Prop :=
  FoundLater history now triggerid windowEnd search.found ∨
    (search.found.get? triggerid = none ∧ triggerid ∈ search.pending ∧
      (search.start ≤ now → ∀ event ∈ eventsOf triggerid history,
        ¬ (windowEnd ≤ event.clock ∧ event.clock < search.start)) ∧
      ∀ event ∈ eventsOf triggerid (history.take schedule.triggerSeen),
        ¬ (windowEnd ≤ event.clock ∧ event.clock < search.start ∧ event.clock ≤ now))

/-- One span of the search keeps its standing. -/
private theorem searched_step (ordered : InClockOrder ZEvent.clock history) {options : SliceOptions}
    {triggerid : String} {windowEnd span : ℤ} {search : LaterSearch}
    (after : windowEnd ≤ search.start) (due : search.start ≤ now) (forward : 0 ≤ span)
    (searched : Searched schedule triggerid windowEnd search) {rows : List ZEvent}
    (read : fetchEventsSliced (schedule.eventGet search.pending) options search.start
      (min now (search.start + span)) = .ok rows) :
    let found := rows.foldl noteFirst search.found
    Searched schedule triggerid windowEnd
      ⟨found, search.pending.filter fun id => !found.contains id,
        min now (search.start + span) + 1⟩ := by
  intro found
  have noted := get?_foldl_noteFirst rows search.found triggerid
  rcases searched with ⟨event, first, known⟩ | ⟨unknown, asked, skipped, shown⟩
  · exact .inl ⟨event, first, by rw [noted, known]; rfl⟩
  · have inOrder : search.start ≤ min now (search.start + span) := by omega
    have past : min now (search.start + span) ≤ now := min_le_left _ _
    obtain ⟨count, seen, recorded, rfl⟩ :=
      recordedRows_of_read schedule ordered inOrder past read
    rw [unknown, Option.none_or, eventsOf_inRange asked] at noted
    cases own : (inRange ZEvent.clock search.start (min now (search.start + span))
        (eventsOf triggerid (history.take count))).head? with
    | some event =>
        refine .inl ⟨event, ?_, by rw [noted, own]; rfl⟩
        exact head?_inRange_of_slice ordered after past (skipped due) own
    | none =>
        have empty := List.head?_eq_none_iff.mp own
        have unseen : ∀ event ∈ eventsOf triggerid (history.take count),
            ¬ (search.start ≤ event.clock ∧ event.clock ≤ min now (search.start + span)) :=
          fun event member bounds => by
            have inside := (mem_inRange ZEvent.clock _ _ _ event).mpr ⟨member, bounds⟩
            rw [empty] at inside
            exact List.not_mem_nil inside
        rw [own] at noted
        refine .inr ⟨noted, ?_, ?_, ?_⟩
        · refine List.mem_filter.mpr ⟨asked, ?_⟩
          simp only [OrderedMap.contains, found, noted]
          rfl
        · -- A span that ends before now was recorded in full, so it held no event at all.
          intro more event member bounds
          dsimp only at more bounds
          have early := skipped due event member
          have member' := member
          rw [eventsOf, filter_take_drop _ history count, List.mem_append] at member'
          rcases member' with taken | dropped
          · exact unseen event taken (by omega)
          · have late := recorded event (List.mem_of_mem_filter dropped)
            omega
        · intro event member bounds
          dsimp only at bounds
          have inHistory : event ∈ eventsOf triggerid history :=
            ((List.take_sublist _ _).filter _).subset member
          have taken : event ∈ eventsOf triggerid (history.take count) :=
            ((List.take_sublist_take_left seen).filter _).subset member
          have early := skipped due event inHistory
          exact unseen event taken (by omega)

def SearchAnswer (triggerid : String) (windowEnd : ℤ) (found : OrderedMap String TriggerValue) :
    Prop :=
  FoundLater history now triggerid windowEnd found ∨
    (found.get? triggerid = none ∧
      ∀ event ∈ eventsOf triggerid (history.take schedule.triggerSeen),
        ¬ (windowEnd ≤ event.clock ∧ event.clock ≤ now))

private theorem searched_stop {triggerid : String} {windowEnd : ℤ} {search : LaterSearch}
    (searched : Searched schedule triggerid windowEnd search)
    (stopped : triggerid ∈ search.pending → now < search.start) :
    SearchAnswer schedule triggerid windowEnd search.found := by
  refine searched.imp_right fun ⟨unknown, asked, _, shown⟩ => ⟨unknown, ?_⟩
  intro event member bounds
  have late := stopped asked
  exact shown event member (by omega)

/-- A search whose spans reach now finds a trigger's first later event, or there is none
that the trigger's row already showed. -/
theorem searchAnswer_of_run (ordered : InClockOrder ZEvent.clock history) {options : SliceOptions}
    {triggerid : String} {windowEnd : ℤ} (spans : List ℤ) (search : LaterSearch)
    (after : windowEnd ≤ search.start)
    (forward : ∀ span ∈ spans, 0 ≤ span)
    (reaches : now < search.start + (spans.map (· + 1)).sum)
    (searched : Searched schedule triggerid windowEnd search)
    {found : OrderedMap String TriggerValue}
    (run : searchLater schedule.eventGet options now search spans = .ok found) :
    SearchAnswer schedule triggerid windowEnd found := by
  induction spans generalizing search with
  | nil =>
      cases run
      exact searched_stop schedule searched fun _ => by simpa using reaches
  | cons span spans ih =>
      have spanForward := forward span (by simp)
      rw [searchLater] at run
      split at run
      · next stopped =>
          cases run
          refine searched_stop schedule searched fun asked => stopped.resolve_left fun empty => ?_
          rw [List.isEmpty_iff.mp empty] at asked
          exact List.not_mem_nil asked
      · next going =>
          have due : search.start ≤ now := not_lt.mp fun late => going (.inr late)
          obtain ⟨rows, read, run⟩ := except_bind_ok run
          have rest : 0 ≤ (spans.map (· + 1)).sum := by
            refine List.sum_nonneg fun value member => ?_
            obtain ⟨other, inside, rfl⟩ := List.mem_map.mp member
            have otherForward := forward other (.tail _ inside)
            omega
          simp only [List.map_cons, List.sum_cons] at reaches
          refine ih _ ?_ (fun other member => forward other (.tail _ member)) ?_
            (searched_step schedule ordered after due spanForward searched read) run
          · dsimp only
            omega
          · dsimp only
            omega

end Later

section States

variable {history : List ZEvent}

theorem eventsOf_ordered (ordered : InClockOrder ZEvent.clock history) (triggerid : String) :
    InClockOrder ZEvent.clock (eventsOf triggerid history) :=
  ordered.sublist List.filter_sublist

/-- The first event of a range splits the trigger's history where the range begins. -/
private theorem split_at_first {events : List ZEvent} (ordered : InClockOrder ZEvent.clock events)
    {lower upper : ℤ} {event : ZEvent}
    (first : (inRange ZEvent.clock lower upper events).head? = some event) :
    ∃ later, events = events.filter (fun other => other.clock ≤ lower - 1) ++ event :: later := by
  have parts := filter_le_append_filter_gt ordered (lower - 1)
  have bounds := (mem_inRange ZEvent.clock _ _ _ event).mp (List.mem_of_head? first)
  cases shape : events.filter fun other => ¬ other.clock ≤ lower - 1 with
  | nil =>
      have inside : event ∈ events.filter fun other => ¬ other.clock ≤ lower - 1 :=
        List.mem_filter.mpr ⟨bounds.1, by simp; omega⟩
      rw [shape] at inside
      exact absurd inside List.not_mem_nil
  | cons head later =>
      rw [shape] at parts
      have earliest : head.clock ≤ event.clock := by
        have inside : event ∈ head :: later :=
          shape ▸ List.mem_filter.mpr ⟨bounds.1, by simp; omega⟩
        rcases List.mem_cons.mp inside with rfl | inLater
        · exact le_rfl
        · have part : (head :: later).Sublist events := shape ▸ List.filter_sublist
          exact (List.pairwise_cons.mp (ordered.sublist part)).1 event inLater
      have headAfter : ¬ head.clock ≤ lower - 1 := by
        have inside : head ∈ events.filter fun other => ¬ other.clock ≤ lower - 1 := by
          rw [shape]
          exact .head _
        simpa using (List.mem_filter.mp inside).2
      have before : inRange ZEvent.clock lower upper
          (events.filter fun other => other.clock ≤ lower - 1) = [] := by
        refine List.filter_eq_nil_iff.mpr fun other member => ?_
        have early := (List.mem_filter.mp member).2
        simp only [decide_eq_true_eq] at early ⊢
        omega
      have same : event = head := by
        rw [← parts, inRange_of_append, before, List.nil_append, inRange, List.filter_cons,
          if_pos (by simp; omega)] at first
        simpa using first.symm
      exact ⟨later, by rw [same]; exact parts.symm⟩

variable {triggerid : String}

/-- Alternation tells the state before a range from the range's first event. -/
theorem problemAt_before_first (ordered : InClockOrder ZEvent.clock history)
    (alternates : Alternates .ok (eventsOf triggerid history)) {lower upper : ℤ} {event : ZEvent}
    (first : (inRange ZEvent.clock lower upper (eventsOf triggerid history)).head? = some event) :
    problemAt history triggerid (lower - 1) = decide (event.value = .ok) := by
  obtain ⟨later, split⟩ := split_at_first (eventsOf_ordered ordered triggerid) first
  rw [split] at alternates
  have flips := stateAfter_of_alternates alternates
  rw [problemAt_eq, stateAfter]
  revert flips
  generalize (((eventsOf triggerid history).filter fun other =>
    decide (other.clock ≤ lower - 1)).getLast?.map (·.value)).getD .ok = state
  cases event.value <;> cases state <;> simp

/-- With no event in between, the state stays. -/
theorem problemAt_eq_of_quiet {earlier later : ℤ} (inOrder : earlier ≤ later)
    (quiet : ∀ event ∈ eventsOf triggerid history,
      ¬ (earlier < event.clock ∧ event.clock ≤ later)) :
    problemAt history triggerid later = problemAt history triggerid earlier := by
  rw [problemAt_eq, problemAt_eq]
  have same : (eventsOf triggerid history).filter (fun event => decide (event.clock ≤ later)) =
      (eventsOf triggerid history).filter (fun event => decide (event.clock ≤ earlier)) := by
    refine List.filter_congr fun event member => ?_
    have ended := quiet event member
    have agree : event.clock ≤ later ↔ event.clock ≤ earlier := by omega
    simp only [agree]
  rw [same]

/-- Inside a range the state is what the range's events make of the state before it. -/
theorem problemAt_eq_downAt (ordered : InClockOrder ZEvent.clock history) {lower upper instant : ℤ}
    (inside : lower ≤ instant ∧ instant ≤ upper) :
    problemAt history triggerid instant =
      downAt (problemAt history triggerid (lower - 1))
        ((inRange ZEvent.clock lower upper (eventsOf triggerid history)).map
          ZEvent.toTriggerEvent) instant := by
  have parts := filter_le_append_filter_gt (eventsOf_ordered ordered triggerid) (lower - 1)
  have before : problemAt history triggerid (lower - 1) =
      downAt false (((eventsOf triggerid history).filter fun event =>
        event.clock ≤ lower - 1).map ZEvent.toTriggerEvent) instant := by
    rw [problemAt, downAt_map, downAt_map, List.filter_filter]
    have same : (eventsOf triggerid history).filter (fun event => decide (event.clock ≤ lower - 1)) =
        (eventsOf triggerid history).filter fun event =>
          decide (event.clock ≤ instant) && decide (event.clock ≤ lower - 1) := by
      refine List.filter_congr fun event _ => ?_
      rw [← Bool.decide_and, decide_eq_decide]
      omega
    rw [same]
  have after : ∀ state, downAt state (((eventsOf triggerid history).filter fun event =>
        ¬ event.clock ≤ lower - 1).map ZEvent.toTriggerEvent) instant =
      downAt state ((inRange ZEvent.clock lower upper (eventsOf triggerid history)).map
        ZEvent.toTriggerEvent) instant := by
    intro state
    rw [downAt_map, downAt_map, inRange, List.filter_filter, List.filter_filter]
    have same : (eventsOf triggerid history).filter (fun event =>
          decide (event.clock ≤ instant) && decide (¬ event.clock ≤ lower - 1)) =
        (eventsOf triggerid history).filter (fun event =>
          decide (event.clock ≤ instant) && decide (lower ≤ event.clock ∧ event.clock ≤ upper)) := by
      refine List.filter_congr fun event _ => ?_
      rw [← Bool.decide_and, ← Bool.decide_and, decide_eq_decide]
      omega
    rw [same]
  have whole : problemAt history triggerid instant =
      downAt false ((eventsOf triggerid history).map ZEvent.toTriggerEvent) instant := rfl
  rw [whole, ← parts, List.map_append, downAt_append, ← before, parts, after]

end States

end ZabbixPortal.Sli
