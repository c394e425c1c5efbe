import ZabbixPortal.Sli.Events

/-! What a sliced read returns. The rule below carries any property of a range's rows
that a full request has and that joins across two halves. -/

set_option autoImplicit false

namespace ZabbixPortal.Sli

theorem except_bind_ok {ε α β : Type} {source : Except ε α} {next : α → Except ε β} {result : β}
    (success : (source >>= next) = .ok result) :
    ∃ value, source = .ok value ∧ next value = .ok result := by
  cases source with
  | error error => cases success
  | ok value => exact ⟨value, rfl, success⟩

section

variable {α : Type} {get : ℤ → ℤ → Nat → List α} {options : SliceOptions}

theorem fetchEventsSliced_backward {first last : ℤ} (backward : last < first) :
    fetchEventsSliced get options first last = .ok [] := by
  rw [fetchEventsSliced, if_pos backward]

/-- A range whose rows fit in one page is one request. -/
theorem fetchEventsSliced_short {first last : ℤ} (forward : first ≤ last)
    (short : (get first last options.pageLimit).length < options.pageLimit) :
    fetchEventsSliced get options first last = .ok (get first last options.pageLimit) := by
  rw [fetchEventsSliced, if_neg (not_lt.mpr forward)]
  simp only [short, ↓reduceIte]

/-- A property of whole requests that joins over adjacent ranges holds of the rows of
every sliced read that succeeds. -/
theorem fetchEventsSliced_induction (Answer : ℤ → ℤ → List α → Prop) {first last : ℤ}
    (whole : ∀ lower upper, first ≤ lower → lower ≤ upper → upper ≤ last →
      (get lower upper options.pageLimit).length < options.pageLimit →
      Answer lower upper (get lower upper options.pageLimit))
    (join : ∀ lower middle upper left right, first ≤ lower → lower ≤ middle → middle < upper →
      upper ≤ last → Answer lower middle left → Answer (middle + 1) upper right →
      Answer lower upper (left ++ right))
    (forward : first ≤ last) {rows : List α}
    (read : fetchEventsSliced get options first last = .ok rows) : Answer first last rows := by
  have sliced : ∀ lower upper, first ≤ lower → lower ≤ upper → upper ≤ last → ∀ found,
      fetchEventsSliced get options lower upper = .ok found → Answer lower upper found := by
    intro lower upper
    induction lower, upper using fetchEventsSliced.induct get options with
    | case1 lower upper backward =>
        intro _ inOrder
        omega
    | case2 lower upper _ rows short =>
        intro above inOrder below found fetched
        rw [fetchEventsSliced_short inOrder short] at fetched
        cases fetched
        exact whole lower upper above inOrder below short
    | case3 lower upper backward rows full dense =>
        intro _ _ _ found fetched
        rw [fetchEventsSliced, if_neg backward] at fetched
        simp only [show ¬ (get lower upper options.pageLimit).length < options.pageLimit from full,
          ↓reduceIte, dense] at fetched
        cases fetched
    | case4 lower upper backward rows full splits middle leftIH rightIH =>
        intro above inOrder below found fetched
        have positive := options.positive
        rw [fetchEventsSliced, if_neg backward] at fetched
        simp only [show ¬ (get lower upper options.pageLimit).length < options.pageLimit from full,
          ↓reduceIte, splits] at fetched
        obtain ⟨left, leftRead, fetched⟩ := except_bind_ok fetched
        obtain ⟨right, rightRead, fetched⟩ := except_bind_ok fetched
        cases fetched
        have middleBelow : middle < upper := by omega
        have middleAbove : lower ≤ middle := by omega
        exact join lower middle upper left right above middleAbove middleBelow below
          (leftIH above middleAbove (by omega) left leftRead)
          (rightIH (by omega) (by omega) below right rightRead)
  exact sliced first last le_rfl forward le_rfl rows read

end

section Ranges

variable {α : Type} (clock : α → ℤ)

def InClockOrder (rows : List α) : Prop :=
  rows.Pairwise fun earlier later => clock earlier ≤ clock later

instance (rows : List α) : Decidable (InClockOrder clock rows) :=
  inferInstanceAs (Decidable (rows.Pairwise fun earlier later => clock earlier ≤ clock later))

def inRange (lower upper : ℤ) (rows : List α) : List α :=
  rows.filter fun row => lower ≤ clock row ∧ clock row ≤ upper

@[simp] theorem mem_inRange (lower upper : ℤ) (rows : List α) (row : α) :
    row ∈ inRange clock lower upper rows ↔ row ∈ rows ∧ lower ≤ clock row ∧ clock row ≤ upper := by
  simp [inRange]

/-- Two adjacent ranges of ordered rows join into one. -/
theorem inRange_append {rows : List α} (ordered : InClockOrder clock rows)
    (lower middle upper : ℤ) (left : lower ≤ middle + 1) (right : middle ≤ upper) :
    inRange clock lower middle rows ++ inRange clock (middle + 1) upper rows =
      inRange clock lower upper rows := by
  induction rows with
  | nil => rfl
  | cons row rest ih =>
      have recursive := ih ordered.of_cons
      have after := (List.pairwise_cons.mp ordered).1
      by_cases first : clock row ≤ middle
      · have excluded : ¬ (middle + 1 ≤ clock row ∧ clock row ≤ upper) := by omega
        have same : (lower ≤ clock row ∧ clock row ≤ middle) ↔
            (lower ≤ clock row ∧ clock row ≤ upper) := by omega
        simp only [inRange, List.filter_cons, decide_eq_true_eq] at recursive ⊢
        rw [if_neg excluded, if_congr same rfl rfl]
        split
        · rw [List.cons_append, recursive]
        · exact recursive
      · -- Every later row lies after `middle` too, so the left range is empty.
        have bare : inRange clock lower middle (row :: rest) = [] := by
          refine List.filter_eq_nil_iff.mpr fun other member => ?_
          rcases List.mem_cons.mp member with rfl | inRest
          · simp; omega
          · have later := after other inRest
            simp; omega
        rw [bare, List.nil_append]
        refine List.filter_congr fun other member => ?_
        rcases List.mem_cons.mp member with rfl | inRest
        · have same : (middle + 1 ≤ clock other ∧ clock other ≤ upper) ↔
              (lower ≤ clock other ∧ clock other ≤ upper) := by omega
          simp only [same]
        · have later := after other inRest
          have same : (middle + 1 ≤ clock other ∧ clock other ≤ upper) ↔
              (lower ≤ clock other ∧ clock other ≤ upper) := by omega
          simp only [same]

/-- A sliced read of ordered rows returns the rows of its range, or fails. -/
theorem fetchEventsSliced_inRange {rows : List α} (ordered : InClockOrder clock rows)
    {get : ℤ → ℤ → Nat → List α} {options : SliceOptions}
    (answers : ∀ lower upper limit, get lower upper limit = (inRange clock lower upper rows).take limit)
    {first last : ℤ} {found : List α}
    (read : fetchEventsSliced get options first last = .ok found) :
    found = inRange clock first last rows := by
  by_cases forward : first ≤ last
  · refine fetchEventsSliced_induction
      (fun lower upper part => part = inRange clock lower upper rows) ?_ ?_ forward read
    · intro lower upper _ _ _ short
      rw [answers] at short ⊢
      rw [List.length_take] at short
      exact List.take_of_length_le (by omega)
    · rintro lower middle upper left right _ _ _ _ rfl rfl
      exact inRange_append clock ordered _ _ _ (by omega) (by omega)
  · rw [fetchEventsSliced_backward (not_le.mp forward)] at read
    cases read
    refine (List.filter_eq_nil_iff.mpr fun row _ => ?_).symm
    simp; omega

end Ranges

/-- A read that fails met a range shorter than the least slice that fills a page. -/
theorem fetchEventsSliced_dense {α : Type} {get : ℤ → ℤ → Nat → List α} {options : SliceOptions}
    (first last : ℤ) (failed : ∀ rows, fetchEventsSliced get options first last ≠ .ok rows) :
    ∃ lower upper, first ≤ lower ∧ lower ≤ upper ∧ upper ≤ last ∧
      upper - lower < options.minSliceSeconds ∧
      options.pageLimit ≤ (get lower upper options.pageLimit).length := by
  induction first, last using fetchEventsSliced.induct get options with
  | case1 lower upper backward => exact absurd (fetchEventsSliced_backward backward) (failed _)
  | case2 lower upper backward rows short =>
      exact absurd (fetchEventsSliced_short (not_lt.mp backward) short) (failed _)
  | case3 lower upper backward rows full dense =>
      exact ⟨lower, upper, le_rfl, not_lt.mp backward, le_rfl, dense, not_lt.mp full⟩
  | case4 lower upper backward rows full splits middle leftIH rightIH =>
      have positive := options.positive
      cases left : fetchEventsSliced get options lower middle with
      | error dense =>
          obtain ⟨low, high, above, inOrder, below, rest⟩ := leftIH fun rows read => by
            rw [left] at read
            cases read
          exact ⟨low, high, above, inOrder, by omega, rest⟩
      | ok earlier =>
          cases right : fetchEventsSliced get options (middle + 1) upper with
          | error dense =>
              obtain ⟨low, high, above, rest⟩ := rightIH fun rows read => by
                rw [right] at read
                cases read
              exact ⟨low, high, by omega, rest⟩
          | ok later =>
              refine absurd ?_ (failed (earlier ++ later))
              rw [fetchEventsSliced, if_neg backward]
              simp only [show ¬ (get lower upper options.pageLimit).length < options.pageLimit
                from full, ↓reduceIte, splits]
              change (fetchEventsSliced get options lower middle >>= _) = _
              rw [left]
              change (fetchEventsSliced get options (middle + 1) upper >>= _) = _
              rw [right]
              rfl

theorem chunk_flatten {α : Type} (size : Nat) (positive : size ≠ 0) (items : List α) :
    (chunk size items).flatten = items := by
  induction items using chunk.induct size with
  | case1 items absent =>
      rw [chunk, if_pos absent, List.flatten_nil, absent.resolve_left positive]
  | case2 items proper ih =>
      rw [chunk, if_neg proper, List.flatten_cons, ih, List.take_append_drop]

section Store

variable {α : Type} (clock : α → ℤ) (eventid : α → Nat)

def Before (left right : α) : Prop :=
  clock left < clock right ∨ clock left = clock right ∧ eventid left < eventid right

structure EventStore where
  events : List α
  ordered : events.Pairwise (Before clock eventid)

namespace EventStore

variable {clock eventid} (store : EventStore clock eventid)

def eventGet (lower upper : ℤ) (limit : Nat) : List α :=
  (inRange clock lower upper store.events).take limit

/-- A sliced read returns the events of its range, each once and in their order, and
fails only over a dense range. -/
theorem events_read_exactly (options : SliceOptions) (first last : ℤ) :
    match fetchEventsSliced store.eventGet options first last with
    | .ok rows => rows.Pairwise (Before clock eventid) ∧
        ∀ event, event ∈ rows ↔ event ∈ store.events ∧ first ≤ clock event ∧ clock event ≤ last
    | .error _ => ∃ lower upper, first ≤ lower ∧ lower ≤ upper ∧ upper ≤ last ∧
        upper - lower < options.minSliceSeconds ∧
        options.pageLimit ≤ (inRange clock lower upper store.events).length := by
  have inOrder : InClockOrder clock store.events := by
    apply store.ordered.imp
    intro earlier later before
    rcases before with strictly | ⟨together, _⟩
    · exact strictly.le
    · exact together.le
  cases read : fetchEventsSliced store.eventGet options first last with
  | ok rows =>
      have exactly := fetchEventsSliced_inRange clock inOrder (fun _ _ _ => rfl) read
      dsimp only
      rw [exactly]
      exact ⟨store.ordered.sublist List.filter_sublist, fun event => mem_inRange _ _ _ _ _⟩
  | error error =>
      obtain ⟨lower, upper, above, forward, below, short, full⟩ :=
        fetchEventsSliced_dense first last fun rows succeeded => by
          rw [read] at succeeded
          cases succeeded
      rw [eventGet, List.length_take] at full
      exact ⟨lower, upper, above, forward, below, short, full.trans (min_le_right _ _)⟩

end EventStore

end Store

end ZabbixPortal.Sli
