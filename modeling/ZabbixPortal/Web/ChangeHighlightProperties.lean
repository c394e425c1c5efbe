import ZabbixPortal.Web.ChangeHighlight

/-! A mark says what happened: the problem appeared, or cleared, in a list shown less than the
highlight's time ago, and nothing since has taken it back. -/

set_option autoImplicit false

namespace ZabbixPortal.Web.ChangeHighlight

open Foundation

/-- When the mark of a problem that appears with an event ends. -/
def appears (id : String) (state : State) : Event → Option ℤ
  | .shown ⟨some opened, _, true, _⟩ now =>
      state.previous.bind fun before =>
        (lastOf (fun p => p.eventid = id) (added before state.previousHeld opened)).map
          fun _ => now + highlightMs
  | _ => none

def keepsFresh (_ : State) (event : Event) (ends : ℤ) : Bool :=
  match event with
  | .shown props _ => props.on
  | .rang now => now < ends

def clears (id : String) (state : State) : Event → Option Gone
  | .shown ⟨some opened, held, true, shownOf⟩ now =>
      state.previous.bind fun before =>
        (lastOf (fun p => p.eventid = id)
          (removed ⟨some opened, held, true, shownOf⟩ before opened)).map
          fun p => ⟨p, now + highlightMs⟩
  | _ => none

/-- What leaves a cleared problem on the list: it is not open again, and still has a place. -/
def keepsGone (id : String) (state : State) (event : Event) (gone : Gone) : Bool :=
  match event with
  | .shown props _ =>
      props.on &&
        match props.opened, state.previous with
        | some opened, some _ => id ∉ ids opened && stillPlaced props opened gone.problem
        | _, _ => true
  | .rang now => now < gone.ends

theorem get?_setFresh (fresh : OrderedMap String ℤ) (added : List Problem) (ends : ℤ)
    (id : String) : (setFresh fresh added ends).get? id =
      ((lastOf (fun p => p.eventid = id) added).map fun _ => ends).or (fresh.get? id) := by
  rw [setFresh, get?_foldl_set_last (fun p : Problem => p.eventid) fun _ => ends]
  cases lastOf (fun p => p.eventid = id) added <;> rfl

theorem get?_setGone (props : Props) (opened : List Problem) (gone : OrderedMap String Gone)
    (removed : List Problem) (ends : ℤ) (id : String) :
    (setGone props opened gone removed ends).get? id =
      ((lastOf (fun p => p.eventid = id) removed).map fun p => (⟨p, ends⟩ : Gone)).or
        ((gone.get? id).filter fun held =>
          id ∉ ids opened && stillPlaced props opened held.problem) := by
  rw [setGone, get?_foldl_set_last (fun p : Problem => p.eventid) fun p => (⟨p, ends⟩ : Gone),
    OrderedMap.get?_filter]
  cases lastOf (fun p => p.eventid = id) removed <;> rfl

theorem fresh_step_shown (state : State) (props : Props) (now : ℤ) :
    (step state (.shown props now)).fresh = (unmark (compare state props now) props.on).fresh := by
  rw [step]
  split <;> rfl

theorem gone_step_shown (state : State) (props : Props) (now : ℤ) :
    (step state (.shown props now)).gone = (unmark (compare state props now) props.on).gone := by
  rw [step]
  split <;> rfl

theorem filter_true {β : Type} (slot : Option β) : (slot.filter fun _ => true) = slot := by
  cases slot <;> rfl

theorem filter_false {β : Type} (slot : Option β) : (slot.filter fun _ => false) = none := by
  cases slot <;> rfl

theorem fresh_law (id : String) :
    SlotLaw step (fun state => state.fresh.get? id) (appears id) keepsFresh := by
  intro state event
  cases event with
  | rang now => exact OrderedMap.get?_filter _ _ _
  | shown props now =>
      obtain ⟨opened, held, on, shownOf⟩ := props
      change (step state (.shown _ now)).fresh.get? id = _
      rw [fresh_step_shown]
      cases on with
      | false =>
          have never : appears id state (.shown ⟨opened, held, false, shownOf⟩ now) = none := by
            cases opened <;> rfl
          rw [never, Option.none_or]
          exact (filter_false (state.fresh.get? id)).symm
      | true =>
          have kept : ((state.fresh.get? id).filter
              (keepsFresh state (.shown ⟨opened, held, true, shownOf⟩ now))) =
              state.fresh.get? id := filter_true _
          rw [kept]
          cases opened with
          | none => rfl
          | some opened =>
              cases before : state.previous with
              | none => simp [appears, unmark, compare, before]
              | some before' =>
                  simp only [appears, unmark, compare, before, Bool.not_true, Bool.false_eq_true,
                    if_false, if_true, Option.bind_some]
                  exact get?_setFresh _ _ _ id

theorem gone_law (id : String) :
    SlotLaw step (fun state => state.gone.get? id) (clears id) (keepsGone id) := by
  intro state event
  cases event with
  | rang now => exact OrderedMap.get?_filter _ _ _
  | shown props now =>
      obtain ⟨opened, held, on, shownOf⟩ := props
      change (step state (.shown _ now)).gone.get? id = _
      rw [gone_step_shown]
      cases on with
      | false =>
          have never : clears id state (.shown ⟨opened, held, false, shownOf⟩ now) = none := by
            cases opened <;> rfl
          rw [never, Option.none_or]
          exact (filter_false (state.gone.get? id)).symm
      | true =>
          cases opened with
          | none => exact (filter_true _).symm
          | some opened =>
              cases before : state.previous with
              | none =>
                  simp only [clears, unmark, compare, before, if_true, Option.bind_none,
                    Option.none_or]
                  have kept : keepsGone id state
                      (.shown ⟨some opened, held, true, shownOf⟩ now) = fun _ => true := by
                    funext gone
                    rw [keepsGone, before]
                    rfl
                  rw [kept, filter_true]
              | some before' =>
                  simp only [clears, unmark, compare, before, Bool.not_true, Bool.false_eq_true,
                    if_false, if_true, Option.bind_some]
                  rw [get?_setGone]
                  have kept : keepsGone id state
                      (.shown ⟨some opened, held, true, shownOf⟩ now) = fun gone =>
                        id ∉ ids opened && stillPlaced ⟨some opened, held, true, shownOf⟩ opened
                          gone.problem := by
                    funext gone
                    rw [keepsGone, before]
                    rfl
                  rw [kept]

theorem contains_byId (opened : List Problem) (id : String) :
    (byId opened).contains id = true ↔ id ∈ ids opened := by
  rw [OrderedMap.contains, byId, get?_foldl_set_last (fun p : Problem => p.eventid) fun p => p]
  cases last : lastOf (fun p : Problem => p.eventid = id) opened with
  | none =>
      have other := lastOf_eq_none_iff.mp last
      refine iff_of_false Bool.false_ne_true fun member => ?_
      obtain ⟨p, inside, same⟩ := List.mem_map.mp member
      exact other p inside (decide_eq_true same)
  | some p =>
      obtain ⟨inside, same⟩ := mem_of_lastOf last
      exact iff_of_true rfl (List.mem_map.mpr ⟨p, inside, of_decide_eq_true same⟩)

/-- The problems that clear with a list: on screen in the one before, neither open nor held in
this one, and with a place on it. -/
theorem mem_removed {props : Props} {before : OrderedMap String Problem} {opened : List Problem}
    {p : Problem} : p ∈ removed props before opened ↔
      p ∈ before.values ∧ p.eventid ∈ ids (props.shownOf before.values) ∧
        p.eventid ∉ ids opened ∧ p.eventid ∉ props.held ∧
        p.eventid ∈ ids (props.shownOf (opened ++ [p])) := by
  simp only [removed, stillPlaced, List.mem_filter, Bool.and_eq_true, decide_eq_true_eq]
  tauto

/-- The problems that appear with a list: neither in the one before nor held then. -/
theorem mem_added {before : OrderedMap String Problem} {heldBefore : List String}
    {opened : List Problem} {p : Problem} : p ∈ added before heldBefore opened ↔
      p ∈ opened ∧ before.contains p.eventid = false ∧ p.eventid ∉ heldBefore := by
  simp [added]

structure Sound (state : State) : Prop where
  baseline : state.previous = none → state.fresh.entries = [] ∧ state.gone.entries = []
  closed : ∀ before, state.previous = some before → ∀ id, state.gone.contains id = true →
    before.contains id = false
  named : ∀ id gone, state.gone.get? id = some gone → gone.problem.eventid = id

theorem Sound.start : Sound .start where
  baseline := fun _ => ⟨rfl, rfl⟩
  closed := fun before impossible => nomatch impossible
  named := fun id gone found => nomatch found

theorem clears_some {id : String} {state : State} {event : Event} {gone : Gone}
    (found : clears id state event = some gone) :
    ∃ opened held shownOf now before,
      event = .shown ⟨some opened, held, true, shownOf⟩ now ∧ state.previous = some before ∧
      gone.problem ∈ removed ⟨some opened, held, true, shownOf⟩ before opened ∧
      gone.problem.eventid = id ∧ gone.ends = now + highlightMs := by
  match event with
  | .rang now => cases found
  | .shown ⟨none, held, on, shownOf⟩ now => cases on <;> cases found
  | .shown ⟨some opened, held, false, shownOf⟩ now => cases found
  | .shown ⟨some opened, held, true, shownOf⟩ now =>
      obtain ⟨before, previous, cleared⟩ := Option.bind_eq_some_iff.mp found
      obtain ⟨p, last, rfl⟩ := Option.map_eq_some_iff.mp cleared
      obtain ⟨member, same⟩ := mem_of_lastOf last
      exact ⟨opened, held, shownOf, now, before, rfl, previous, member, of_decide_eq_true same, rfl⟩

theorem previous_shown (state : State) (props : Props) (now : ℤ) :
    (step state (.shown props now)).previous =
      (props.opened.map byId).or state.previous := by
  have armed : (step state (.shown props now)).previous =
      (unmark (compare state props now) props.on).previous := by
    rw [step]
    split <;> rfl
  rw [armed]
  obtain ⟨opened, held, on, shownOf⟩ := props
  cases opened with
  | none => cases on <;> rfl
  | some opened => cases before : state.previous <;> cases on <;> simp [unmark, compare, before]

theorem previousHeld_shown (state : State) (props : Props) (now : ℤ) :
    (step state (.shown props now)).previousHeld =
      (props.opened.map fun _ => props.held).getD state.previousHeld := by
  have armed : (step state (.shown props now)).previousHeld =
      (unmark (compare state props now) props.on).previousHeld := by
    rw [step]
    split <;> rfl
  rw [armed]
  obtain ⟨opened, held, on, shownOf⟩ := props
  cases opened with
  | none => cases on <;> rfl
  | some opened => cases before : state.previous <;> cases on <;> simp [unmark, compare, before]

theorem sound_step {state : State} (sound : Sound state) (event : Event) :
    Sound (step state event) := by
  have law := fun id => gone_law id state event
  constructor
  · intro unseen
    cases event with
    | rang now =>
        obtain ⟨fresh, gone⟩ := sound.baseline unseen
        exact ⟨by rw [step, arm, drop]; simp [fresh], by rw [step, arm, drop]; simp [gone]⟩
    | shown props now =>
        rw [previous_shown, Option.or_eq_none_iff, Option.map_eq_none_iff] at unseen
        obtain ⟨fresh, gone⟩ := sound.baseline unseen.2
        rw [fresh_step_shown, gone_step_shown, unmark, compare, unseen.1]
        cases props.on with
        | false => exact ⟨rfl, rfl⟩
        | true => exact ⟨fresh, gone⟩
  · intro before previous id marked
    obtain ⟨gone, found⟩ := Option.isSome_iff_exists.mp marked
    have slot := law id
    simp only [found] at slot
    cases Option.or_eq_some_iff.mp slot.symm with
    | inl cleared =>
        obtain ⟨opened, held, shownOf, now, _, rfl, _, member, same, _⟩ := clears_some cleared
        rw [previous_shown] at previous
        cases previous
        rw [Bool.eq_false_iff, ne_eq, contains_byId, ← same]
        exact (mem_removed.mp member).2.2.1
    | inr kept =>
        obtain ⟨old, keep⟩ := Option.filter_eq_some_iff.mp kept.2
        have was : state.gone.contains id = true := Option.isSome_iff_exists.mpr ⟨gone, old⟩
        cases event with
        | rang now => exact sound.closed before previous id was
        | shown props now =>
            rw [previous_shown] at previous
            obtain ⟨opened, held, on, shownOf⟩ := props
            cases opened with
            | none => exact sound.closed before previous id was
            | some opened =>
                cases previous
                cases seen : state.previous with
                | none =>
                    have empty := (sound.baseline seen).2
                    rw [OrderedMap.get?, empty] at old
                    cases old
                | some earlier =>
                    simp only [keepsGone, seen, Bool.and_eq_true, decide_eq_true_eq] at keep
                    rw [Bool.eq_false_iff, ne_eq, contains_byId]
                    exact keep.2.1
  · intro id gone found
    have slot := law id
    simp only [found] at slot
    cases Option.or_eq_some_iff.mp slot.symm with
    | inl cleared =>
        obtain ⟨_, _, _, _, _, _, _, _, same, _⟩ := clears_some cleared
        exact same
    | inr kept => exact sound.named id gone (Option.filter_eq_some_iff.mp kept.2).1

theorem sound_run (events : List Event) : Sound (run events) := by
  induction events using List.reverseRecOn with
  | nil => exact .start
  | append_singleton events event ih =>
      rw [run, List.foldl_append]
      exact sound_step ih event

/-! ### The timer -/

def Event.now : Event → ℤ
  | .shown _ now => now
  | .rang now => now

/-- While something is marked the timer is set, to 50 ms after the first mark to end, or after
its own setting where that was later. -/
def Timed (state : State) (times : List ℤ) : Prop :=
  ends state = [] ∨ ∃ first ∈ ends state, ∃ armed ∈ times,
    (∀ other ∈ ends state, first ≤ other) ∧ state.timer = some (max first armed + 50)

theorem timed_arm (state : State) {now : ℤ} {times : List ℤ} (listed : now ∈ times) :
    Timed (arm state now) times := by
  cases least : (ends state).min? with
  | none => exact .inl (List.min?_eq_none_iff.mp least)
  | some first =>
      obtain ⟨member, below⟩ := List.min?_eq_some_iff.mp least
      refine .inr ⟨first, member, now, listed, below, ?_⟩
      rw [arm, least]
      simp only [Option.map_some, Option.some.injEq]
      omega

theorem Timed.later {state : State} {times : List ℤ} (timed : Timed state times) (now : ℤ) :
    Timed state (times ++ [now]) := by
  refine timed.imp_right ?_
  rintro ⟨first, member, armed, listed, rest⟩
  exact ⟨first, member, armed, List.mem_append_left _ listed, rest⟩

theorem timer_unmark_compare (state : State) (props : Props) (now : ℤ) :
    (unmark (compare state props now) props.on).timer = state.timer := by
  obtain ⟨opened, held, on, shownOf⟩ := props
  cases opened with
  | none => cases on <;> rfl
  | some opened => cases before : state.previous <;> cases on <;> simp [unmark, compare, before]

theorem timed_step {state : State} {times : List ℤ} (timed : Timed state times) (event : Event) :
    Timed (step state event) (times ++ [event.now]) := by
  have listed : event.now ∈ times ++ [event.now] :=
    List.mem_append_right _ (List.mem_singleton_self _)
  cases event with
  | rang now => exact timed_arm _ listed
  | shown props now =>
      rw [step]
      split
      case isFalse => exact timed_arm _ listed
      case isTrue same =>
        have ends_same : ends (unmark (compare state props now) props.on) = ends state := by
          rw [ends, ends, OrderedMap.values, OrderedMap.values, same.1, same.2]
          rfl
        have later := timed.later (Event.shown props now).now
        rw [Timed, ends_same, timer_unmark_compare]
        exact later

theorem timed_run (events : List Event) : Timed (run events) (events.map Event.now) := by
  induction events using List.reverseRecOn with
  | nil => exact .inl rfl
  | append_singleton events event ih =>
      rw [run, List.foldl_append, List.map_append]
      exact timed_step ih event

/-! ### What a mark means -/

/-- The list shown last, with what was held then. -/
def lastShown (events : List Event) : Option (List Problem × List String) :=
  events.foldl (fun last event =>
    match event with
    | .shown ⟨some opened, held, _, _⟩ _ => some (opened, held)
    | _ => last) none

/-- The problem clears: it was on screen in the list before, and is neither open nor held in
this one, with a place on it. -/
def Clears (id : String) (past : List Event) (gone : Gone) : Event → Prop
  | .shown ⟨some opened, held, true, shownOf⟩ now =>
      ∃ last ∈ lastShown past, (byId last.1).get? id = some gone.problem ∧
        id ∈ ids (shownOf (byId last.1).values) ∧ id ∉ ids opened ∧ id ∉ held ∧
        id ∈ ids (shownOf (opened ++ [gone.problem])) ∧ gone.ends = now + highlightMs
  | _ => False

/-- The problem appears: it is open, and in the list before it was neither open nor held. -/
def Appears (id : String) (past : List Event) (ends : ℤ) : Event → Prop
  | .shown ⟨some opened, _, true, _⟩ now =>
      ∃ last ∈ lastShown past, id ∈ ids opened ∧ id ∉ ids last.1 ∧ id ∉ last.2 ∧
        ends = now + highlightMs
  | _ => False

/-- A cleared problem stays marked: its time is not up, the highlight is on, it is not open
again, and it still has a place. -/
def StaysGone (id : String) (gone : Gone) : Event → Prop
  | .shown props _ => props.on = true ∧ ∀ opened ∈ props.opened,
      id ∉ ids opened ∧ gone.problem.eventid ∈ ids (props.shownOf (opened ++ [gone.problem]))
  | .rang now => now < gone.ends

def StaysNew (ends : ℤ) : Event → Prop
  | .shown props _ => props.on = true
  | .rang now => now < ends

/-- An event set the mark, and none since has set it anew or ended it. Each is judged with what
came before it. -/
def MarkedSince {β : Type} (sets : List Event → β → Event → Prop) (stays : β → Event → Prop)
    (events : List Event) (value : β) : Prop :=
  ∃ before event after, events = before ++ event :: after ∧ sets before value event ∧
    ∀ between later rest, after = between ++ later :: rest →
      (∀ other, ¬ sets (before ++ event :: between) other later) ∧ stays value later

theorem lastShown_snoc (events : List Event) (props : Props) (now : ℤ) :
    lastShown (events ++ [.shown props now]) =
      (props.opened.map fun opened => (opened, props.held)).or (lastShown events) := by
  rw [lastShown, List.foldl_append]
  obtain ⟨opened, held, on, shownOf⟩ := props
  cases opened <;> rfl

theorem lastShown_append {before : List Event} (shown : (lastShown before).isSome = true)
    (after : List Event) : (lastShown (before ++ after)).isSome = true := by
  induction after using List.reverseRecOn with
  | nil => rwa [List.append_nil]
  | append_singleton after event ih =>
      rw [← List.append_assoc]
      cases event with
      | rang now => rwa [lastShown, List.foldl_append]
      | shown props now =>
          rw [lastShown_snoc]
          cases props.opened with
          | none => exact ih
          | some opened => rfl

/-- The baseline is the list shown last. -/
theorem baseline_run (events : List Event) :
    (run events).previous = (lastShown events).map (fun last => byId last.1) ∧
      (run events).previousHeld = ((lastShown events).map Prod.snd).getD [] := by
  induction events using List.reverseRecOn with
  | nil => exact ⟨rfl, rfl⟩
  | append_singleton events event ih =>
      rw [run, List.foldl_append]
      change (step (run events) event).previous = _ ∧ (step (run events) event).previousHeld = _
      cases event with
      | rang now =>
          rw [lastShown, List.foldl_append]
          exact ih
      | shown props now =>
          rw [previous_shown, previousHeld_shown, lastShown_snoc, ih.1, ih.2]
          cases props.opened with
          | none => exact ⟨rfl, rfl⟩
          | some opened => exact ⟨rfl, rfl⟩

theorem eventid_of_byId {list : List Problem} {id : String} {p : Problem}
    (found : (byId list).get? id = some p) : p.eventid = id := by
  rw [byId, get?_foldl_set_last (fun p : Problem => p.eventid) fun p => p] at found
  cases last : lastOf (fun p : Problem => p.eventid = id) list with
  | none =>
      rw [last] at found
      cases found
  | some other =>
      rw [last] at found
      cases found
      exact of_decide_eq_true (mem_of_lastOf last).2

theorem mem_values_byId {list : List Problem} {p : Problem} :
    p ∈ (byId list).values ↔ (byId list).get? p.eventid = some p := by
  constructor
  · intro member
    obtain ⟨⟨key, _⟩, inside, rfl⟩ := List.mem_map.mp member
    have found := (OrderedMap.get?_eq_some_iff _ _ _).mpr inside
    rwa [eventid_of_byId found]
  · intro found
    exact List.mem_map_of_mem ((OrderedMap.get?_eq_some_iff _ _ _).mp found)

/-- What a list removes of an id is the problem of that id in the one before. -/
theorem lastOf_removed {props : Props} {list opened : List Problem} {id : String} {p : Problem} :
    lastOf (fun p => p.eventid = id) (removed props (byId list) opened) = some p ↔
      (byId list).get? id = some p ∧ id ∈ ids (props.shownOf (byId list).values) ∧
        id ∉ ids opened ∧ id ∉ props.held ∧ id ∈ ids (props.shownOf (opened ++ [p])) := by
  have named : ∀ q, q ∈ removed props (byId list) opened ∧ q.eventid = id ↔
      (byId list).get? id = some q ∧ id ∈ ids (props.shownOf (byId list).values) ∧
        id ∉ ids opened ∧ id ∉ props.held ∧ id ∈ ids (props.shownOf (opened ++ [q])) := by
    intro q
    rw [mem_removed, mem_values_byId]
    constructor
    · rintro ⟨conditions, rfl⟩
      exact conditions
    · intro conditions
      obtain rfl := eventid_of_byId conditions.1
      exact ⟨conditions, rfl⟩
  constructor
  · intro last
    obtain ⟨member, same⟩ := mem_of_lastOf last
    exact (named p).mp ⟨member, of_decide_eq_true same⟩
  · intro conditions
    obtain ⟨member, same⟩ := (named p).mpr conditions
    cases last : lastOf (fun p : Problem => p.eventid = id) (removed props (byId list) opened) with
    | none => exact absurd (decide_eq_true same) (lastOf_eq_none_iff.mp last p member)
    | some q =>
        obtain ⟨inside, own⟩ := mem_of_lastOf last
        have both := ((named q).mp ⟨inside, of_decide_eq_true own⟩).1
        rw [conditions.1] at both
        exact both.symm

theorem clears_iff {id : String} {past : List Event} {event : Event} {gone : Gone} :
    clears id (run past) event = some gone ↔ Clears id past gone event := by
  match event with
  | .rang now => exact iff_of_false nofun not_false
  | .shown ⟨none, held, on, shownOf⟩ now => cases on <;> exact iff_of_false nofun not_false
  | .shown ⟨some opened, held, false, shownOf⟩ now => exact iff_of_false nofun not_false
  | .shown ⟨some opened, held, true, shownOf⟩ now =>
      rw [clears, (baseline_run past).1, Clears]
      cases lastShown past with
      | none => simp
      | some last =>
          simp only [Option.map_some, Option.bind_some, Option.map_eq_some_iff, Option.mem_def,
            Option.some.injEq, exists_eq_left']
          constructor
          · rintro ⟨p, cleared, rfl⟩
            obtain ⟨own, conditions⟩ := lastOf_removed.mp cleared
            exact ⟨own, conditions.1, conditions.2.1, conditions.2.2.1, conditions.2.2.2, rfl⟩
          · rintro ⟨own, onScreen, closed, free, placed, ends⟩
            obtain ⟨problem, _⟩ := gone
            cases ends
            exact ⟨problem, lastOf_removed.mpr ⟨own, onScreen, closed, free, placed⟩, rfl⟩

theorem appears_iff {id : String} {past : List Event} {event : Event} {ends : ℤ} :
    appears id (run past) event = some ends ↔ Appears id past ends event := by
  match event with
  | .rang now => exact iff_of_false nofun not_false
  | .shown ⟨none, held, on, shownOf⟩ now => cases on <;> exact iff_of_false nofun not_false
  | .shown ⟨some opened, held, false, shownOf⟩ now => exact iff_of_false nofun not_false
  | .shown ⟨some opened, held, true, shownOf⟩ now =>
      rw [appears, (baseline_run past).1, (baseline_run past).2, Appears]
      cases lastShown past with
      | none => simp
      | some last =>
          simp only [Option.map_some, Option.bind_some, Option.map_eq_some_iff, Option.mem_def,
            Option.some.injEq, exists_eq_left', Option.getD_some]
          constructor
          · rintro ⟨p, found, rfl⟩
            obtain ⟨member, same⟩ := mem_of_lastOf found
            obtain rfl := of_decide_eq_true same
            obtain ⟨isOpen, before, free⟩ := mem_added.mp member
            rw [Bool.eq_false_iff, ne_eq, contains_byId] at before
            exact ⟨List.mem_map_of_mem isOpen, before, free, rfl⟩
          · rintro ⟨isOpen, before, free, rfl⟩
            obtain ⟨p, member, rfl⟩ := List.mem_map.mp isOpen
            rw [← contains_byId, ← ne_eq, ← Bool.eq_false_iff] at before
            have new := mem_added.mpr ⟨member, before, free⟩
            cases found : lastOf (fun q => q.eventid = p.eventid)
                (added (byId last.1) last.2 opened) with
            | none => exact absurd (decide_eq_true rfl) (lastOf_eq_none_iff.mp found p new)
            | some q => exact ⟨q, rfl, rfl⟩

theorem Clears.shown {id : String} {past : List Event} {gone : Gone} {event : Event}
    (cleared : Clears id past gone event) : (lastShown past).isSome = true := by
  match event with
  | .shown ⟨none, held, on, shownOf⟩ now => cases on <;> exact cleared.elim
  | .shown ⟨some opened, held, true, shownOf⟩ now =>
      obtain ⟨last, found, _⟩ := cleared
      exact Option.isSome_iff_exists.mpr ⟨last, found⟩

theorem Appears.shown {id : String} {past : List Event} {ends : ℤ} {event : Event}
    (appeared : Appears id past ends event) : (lastShown past).isSome = true := by
  match event with
  | .shown ⟨none, held, on, shownOf⟩ now => cases on <;> exact appeared.elim
  | .shown ⟨some opened, held, true, shownOf⟩ now =>
      obtain ⟨last, found, _⟩ := appeared
      exact Option.isSome_iff_exists.mpr ⟨last, found⟩

theorem keepsGone_iff {id : String} {past : List Event} {later : Event} {gone : Gone}
    (shown : (lastShown past).isSome = true) :
    keepsGone id (run past) later gone = true ↔ StaysGone id gone later := by
  obtain ⟨last, found⟩ := Option.isSome_iff_exists.mp shown
  have before : (run past).previous = some (byId last.1) := by
    rw [(baseline_run past).1, found]
    rfl
  cases later with
  | rang now => exact decide_eq_true_iff
  | shown props now =>
      obtain ⟨opened, held, on, shownOf⟩ := props
      cases opened with
      | none => simp [keepsGone, StaysGone]
      | some opened => simp [keepsGone, StaysGone, before, stillPlaced]

theorem keepsFresh_iff {past : List Event} {later : Event} {ends : ℤ} :
    keepsFresh (run past) later ends = true ↔ StaysNew ends later := by
  cases later with
  | rang now => exact decide_eq_true_iff
  | shown props now => exact Iff.rfl

theorem setBefore_iff {β : Type} {set : State → Event → Option β}
    {kept : State → Event → β → Bool} {sets : List Event → β → Event → Prop}
    {stays : β → Event → Prop}
    (setting : ∀ past event value, set (run past) event = some value ↔ sets past value event)
    (shown : ∀ past event value, sets past value event → (lastShown past).isSome = true)
    (keeping : ∀ past later value, (lastShown past).isSome = true →
      (kept (run past) later value = true ↔ stays value later))
    (events : List Event) (value : β) :
    SetBefore step set kept .start events value ↔ MarkedSince sets stays events value := by
  refine exists_congr fun before => exists_congr fun event => exists_congr fun after =>
    and_congr_right fun _ => ?_
  change set (run before) event = some value ∧ _ ↔ _
  rw [setting]
  refine and_congr_right fun own => forall_congr' fun between => forall_congr' fun later =>
    forall_congr' fun rest => forall_congr' fun _ => ?_
  have reached : between.foldl step (step (before.foldl step .start) event) =
      run (before ++ event :: between) := by
    rw [run, List.foldl_append, List.foldl_cons]
  have since : (lastShown (before ++ event :: between)).isSome = true :=
    lastShown_append (shown before event value own) _
  rw [reached, keeping _ _ _ since, Option.eq_none_iff_forall_ne_some]
  exact and_congr_left fun _ => forall_congr' fun other => not_congr (setting _ _ _)

/-- A problem is marked as cleared when it cleared in some list and its mark has stayed since;
as new when it appeared likewise and is not marked as cleared. What is open is never marked as
cleared, and while anything is marked the timer for its end is set. -/
theorem marks_mean (events : List Event) (id : String) :
    ((run events).mark id = some .cleared ↔
        ∃ gone, MarkedSince (Clears id) (StaysGone id) events gone) ∧
      ((run events).mark id = some .new ↔
        (∃ ends, MarkedSince (Appears id) StaysNew events ends) ∧
          ¬ ∃ gone, MarkedSince (Clears id) (StaysGone id) events gone) ∧
      (∀ last ∈ lastShown events, id ∈ ids last.1 → (run events).mark id ≠ some .cleared) ∧
      Timed (run events) (events.map Event.now) := by
  have gone_iff : (run events).gone.contains id = true ↔
      ∃ gone, MarkedSince (Clears id) (StaysGone id) events gone := by
    rw [OrderedMap.contains, Option.isSome_iff_exists]
    refine exists_congr fun gone => (slot_iff (gone_law id) rfl events gone).trans ?_
    exact setBefore_iff (fun _ _ _ => clears_iff) (fun _ _ _ => Clears.shown)
      (fun _ _ _ => keepsGone_iff) events gone
  have fresh_iff : (run events).fresh.contains id = true ↔
      ∃ ends, MarkedSince (Appears id) StaysNew events ends := by
    rw [OrderedMap.contains, Option.isSome_iff_exists]
    refine exists_congr fun ends => (slot_iff (fresh_law id) rfl events ends).trans ?_
    exact setBefore_iff (fun _ _ _ => appears_iff) (fun _ _ _ => Appears.shown)
      (fun _ _ _ _ => keepsFresh_iff) events ends
  rw [← gone_iff, ← fresh_iff]
  refine ⟨?_, ?_, fun last found isOpen => ?_, timed_run events⟩
  · rw [State.mark]
    cases (run events).gone.contains id <;> cases (run events).fresh.contains id <;> simp
  · rw [State.mark]
    cases (run events).gone.contains id <;> cases (run events).fresh.contains id <;> simp
  · intro marked
    have gone : (run events).gone.contains id = true := by
      rw [State.mark] at marked
      by_contra other
      rw [if_neg other] at marked
      split at marked <;> cases marked
    have previous : (run events).previous = some (byId last.1) := by
      rw [(baseline_run events).1, found]
      rfl
    have closed := (sound_run events).closed _ previous id gone
    rw [(contains_byId last.1 id).mpr isOpen] at closed
    cases closed

end ZabbixPortal.Web.ChangeHighlight
