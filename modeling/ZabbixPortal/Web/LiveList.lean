import ZabbixPortal.Foundation.Number
import ZabbixPortal.Foundation.TopOf
import ZabbixPortal.Web.ChangeHighlight
import ZabbixPortal.Web.ChangeHighlightProperties
import ZabbixPortal.Web.MapLabelsProperties

/-! The wall's list: the worst open problems, and those that just cleared in their places. -/

set_option autoImplicit false

namespace ZabbixPortal.Web

open Foundation ChangeHighlight

def LIVE_ROWS : ℕ := 12

/-- The sign of `Number(left) - Number(right)`; a difference that is no number is none. -/
def difference (left right : String) : Ordering :=
  match toNumber left, toNumber right with
  | some left, some right => compareNumbers left right
  | _, _ => .eq

/-- Worst first: severity, then newest. -/
def worstFirst (a b : Problem) : Ordering :=
  (difference b.severity a.severity).then
    ((difference b.clock a.clock).then (difference b.eventid a.eventid))

def topRows (opened : List Problem) : List Problem := (sortBy worstFirst opened).take LIVE_ROWS

/-- The loop of `liveRows`: it breaks at the first open problem too many. -/
def rowsUpTo (isOpen : Problem → Bool) : ℕ → List Problem → List Problem
  | _, [] => []
  | shown, p :: rest =>
      if isOpen p then
        if shown = LIVE_ROWS then [] else p :: rowsUpTo isOpen (shown + 1) rest
      else p :: rowsUpTo isOpen shown rest

def liveRows (opened cleared : List Problem) : List Problem :=
  let isOpen := fun p : Problem => decide (p.eventid ∈ ids opened)
  let gone := cleared.filter fun p => !isOpen p
  rowsUpTo isOpen 0 (sortBy worstFirst (opened ++ gone))

/-- The cleared problems the hook hands to the page. -/
def ChangeHighlight.State.cleared (state : State) : List Problem :=
  state.gone.values.map (·.problem)

/-! The list on the wall shows the worst open problems and no other open one, in order, and
every problem that is marked as cleared has its place on it. -/

/-- A problem whose severity, time and id are numbers, as Zabbix gives them. -/
structure Numeric (p : Problem) : Prop where
  severity : (toNumber p.severity).isSome
  clock : (toNumber p.clock).isSome
  eventid : (toNumber p.eventid).isSome

def numberOr (text : String) : ℚ := (toNumber text).getD 0

/-- The same order with every text read as a number. -/
def worstNumber : Problem → Problem → Ordering :=
  compareLex (fun a b => compareNumbers (numberOr b.severity) (numberOr a.severity))
    (compareLex (fun a b => compareNumbers (numberOr b.clock) (numberOr a.clock))
      fun a b => compareNumbers (numberOr b.eventid) (numberOr a.eventid))

instance transCmp_number (number : Problem → ℚ) :
    Std.TransCmp fun a b => compareNumbers (number b) (number a) where
  eq_swap := Std.OrientedCmp.eq_swap
  isLE_trans first second := Std.TransCmp.isLE_trans second first

instance transCmp_worstNumber : Std.TransCmp worstNumber :=
  inferInstanceAs (Std.TransCmp (compareLex _ (compareLex _ _)))

theorem difference_eq {left right : String} (one : (toNumber left).isSome)
    (two : (toNumber right).isSome) :
    difference left right = compareNumbers (numberOr left) (numberOr right) := by
  obtain ⟨first, isFirst⟩ := Option.isSome_iff_exists.mp one
  obtain ⟨second, isSecond⟩ := Option.isSome_iff_exists.mp two
  rw [difference, numberOr, numberOr, isFirst, isSecond]
  rfl

theorem worstFirst_eq {a b : Problem} (first : Numeric a) (second : Numeric b) :
    worstFirst a b = worstNumber a b := by
  rw [worstFirst, difference_eq second.severity first.severity,
    difference_eq second.clock first.clock, difference_eq second.eventid first.eventid]
  rfl

theorem sortBy_worstFirst {problems : List Problem} (numeric : ∀ p ∈ problems, Numeric p) :
    sortBy worstFirst problems = sortBy worstNumber problems :=
  sortBy_congr fun a first b second => worstFirst_eq (numeric a first) (numeric b second)

section Rows

variable (isOpen : Problem → Bool)

theorem rowsUpTo_isPrefix (shown : ℕ) (sorted : List Problem) :
    rowsUpTo isOpen shown sorted <+: sorted := by
  induction sorted generalizing shown with
  | nil => exact List.nil_prefix
  | cons p rest ih =>
      rw [rowsUpTo]
      split
      · split
        · exact List.nil_prefix
        · exact (List.prefix_cons_inj p).mpr (ih _)
      · exact (List.prefix_cons_inj p).mpr (ih _)

theorem filter_rowsUpTo (shown : ℕ) (sorted : List Problem) (few : shown ≤ LIVE_ROWS) :
    (rowsUpTo isOpen shown sorted).filter isOpen =
      (sorted.filter isOpen).take (LIVE_ROWS - shown) := by
  induction sorted generalizing shown with
  | nil => rw [rowsUpTo, List.filter_nil, List.take_nil]
  | cons p rest ih =>
      rw [rowsUpTo]
      by_cases opened : isOpen p = true
      · rw [if_pos opened, List.filter_cons_of_pos opened]
        by_cases full : shown = LIVE_ROWS
        · rw [if_pos full, full, Nat.sub_self, List.take_zero, List.filter_nil]
        · have more : LIVE_ROWS - shown = LIVE_ROWS - (shown + 1) + 1 := by omega
          rw [if_neg full, List.filter_cons_of_pos opened, ih (shown + 1) (by omega), more,
            List.take_succ_cons]
      · rw [if_neg opened, List.filter_cons_of_neg opened, List.filter_cons_of_neg opened,
          ih shown few]

/-- A row stays as long as the open ones before it are not too many. -/
theorem mem_rowsUpTo {shown : ℕ} {before after : List Problem} {p : Problem}
    (few : shown + (before.filter isOpen).length < LIVE_ROWS) :
    p ∈ rowsUpTo isOpen shown (before ++ p :: after) := by
  induction before generalizing shown with
  | nil =>
      have notFull : shown ≠ LIVE_ROWS := by
        rw [List.filter_nil, List.length_nil] at few
        omega
      rw [List.nil_append, rowsUpTo, if_neg notFull]
      by_cases opened : isOpen p = true
      · rw [if_pos opened]
        exact List.mem_cons_self
      · rw [if_neg opened]
        exact List.mem_cons_self
  | cons first before ih =>
      rw [List.cons_append, rowsUpTo]
      by_cases opened : isOpen first = true
      · rw [List.filter_cons_of_pos opened, List.length_cons] at few
        rw [if_pos opened, if_neg (by omega)]
        exact List.mem_cons_of_mem _ (ih (by omega))
      · rw [List.filter_cons_of_neg opened] at few
        rw [if_neg opened]
        exact List.mem_cons_of_mem _ (ih few)

end Rows

section Lists

variable {opened cleared : List Problem}

theorem filter_open_all : (opened ++ cleared.filter fun p => !decide (p.eventid ∈ ids opened)).filter
    (fun p => decide (p.eventid ∈ ids opened)) = opened := by
  rw [List.filter_append, List.filter_filter]
  have all : opened.filter (fun p => decide (p.eventid ∈ ids opened)) = opened :=
    List.filter_eq_self.mpr fun p member => decide_eq_true (List.mem_map_of_mem member)
  have empty : cleared.filter (fun p => decide (p.eventid ∈ ids opened) &&
      !decide (p.eventid ∈ ids opened)) = [] := by
    simp
  rw [all, empty, List.append_nil]

theorem liveRows_open (numeric : ∀ p ∈ opened ++ cleared, Numeric p) :
    (liveRows opened cleared).filter (fun p => decide (p.eventid ∈ ids opened)) =
      topRows opened := by
  have listed : ∀ p ∈ opened ++ cleared.filter fun p => !decide (p.eventid ∈ ids opened),
      Numeric p := fun p member => numeric p (List.mem_append.mpr
        ((List.mem_append.mp member).imp_right fun gone => (List.mem_filter.mp gone).1))
  rw [liveRows, filter_rowsUpTo _ _ _ (Nat.zero_le _), sortBy_worstFirst listed, filter_sortBy,
    filter_open_all, topRows,
    sortBy_worstFirst fun p member => numeric p (List.mem_append_left _ member)]
  rfl

theorem filter_same_id {problems : List Problem} (distinct : (ids problems).Nodup) {p : Problem}
    (member : p ∈ problems) :
    problems.filter (fun q => decide (q.eventid = p.eventid)) = [p] := by
  induction problems with
  | nil => exact absurd member List.not_mem_nil
  | cons first rest ih =>
      obtain ⟨absent, later⟩ := List.nodup_cons.mp distinct
      have unnamed : ∀ q ∈ rest, q.eventid ≠ first.eventid := fun q inside same =>
        absent (List.mem_map.mpr ⟨q, inside, same⟩)
      rw [List.filter_cons]
      cases List.mem_cons.mp member with
      | inl same =>
          subst same
          have empty : rest.filter (fun q => decide (q.eventid = p.eventid)) = [] :=
            List.filter_eq_nil_iff.mpr fun q inside equal =>
              unnamed q inside (of_decide_eq_true equal)
          rw [if_pos (decide_eq_true rfl), empty]
      | inr inside =>
          have other : ¬ decide (first.eventid = p.eventid) = true := fun equal =>
            unnamed p inside (of_decide_eq_true equal).symm
          rw [if_neg other, ih later inside]

/-- A cleared problem that would be among the worst, were it still open, is on the list. -/
theorem mem_liveRows (numeric : ∀ p ∈ opened ++ cleared, Numeric p)
    (distinct : (ids cleared).Nodup) {p : Problem} (gone : p ∈ cleared)
    (closed : p.eventid ∉ ids opened) (placed : p.eventid ∈ ids (topRows (opened ++ [p]))) :
    p ∈ liveRows opened cleared := by
  have listed : ∀ q ∈ opened ++ cleared.filter fun q => !decide (q.eventid ∈ ids opened),
      Numeric q := fun q member => numeric q (List.mem_append.mpr
        ((List.mem_append.mp member).imp_right fun gone => (List.mem_filter.mp gone).1))
  have own : p ∈ cleared.filter fun q => !decide (q.eventid ∈ ids opened) :=
    List.mem_filter.mpr ⟨gone, by simp [closed]⟩
  rw [liveRows, sortBy_worstFirst listed]
  obtain ⟨before, after, split, first⟩ := List.eq_append_cons_of_mem
    ((mem_sortBy worstNumber _ p).mpr (List.mem_append_right opened own))
  rw [split]
  refine mem_rowsUpTo _ ?_
  rw [Nat.zero_add]
  -- the list the hook looks at, `opened` with the problem, is what these rows keep of it
  let keep := fun q : Problem =>
    decide (q.eventid ∈ ids opened) || decide (q.eventid = p.eventid)
  have kept : (opened ++ cleared.filter fun q => !decide (q.eventid ∈ ids opened)).filter keep =
      opened ++ [p] := by
    rw [List.filter_append]
    congr 1
    · exact List.filter_eq_self.mpr fun q member =>
        Bool.or_eq_true_iff.mpr (.inl (decide_eq_true (List.mem_map_of_mem member)))
    · rw [List.filter_filter, ← filter_same_id distinct gone]
      refine List.filter_congr fun q _ => ?_
      by_cases same : q.eventid = p.eventid
      · simp [keep, same, closed]
      · by_cases opened' : q.eventid ∈ ids opened <;> simp [keep, same, opened']
  have asked : sortBy worstFirst (opened ++ [p]) =
      before.filter keep ++ p :: after.filter keep := by
    have numbers : ∀ q ∈ opened ++ [p], Numeric q := fun q member =>
      numeric q (List.mem_append.mpr ((List.mem_append.mp member).imp_right fun one => by
        rwa [List.mem_singleton.mp one]))
    rw [sortBy_worstFirst numbers, ← kept, ← filter_sortBy, split, List.filter_append,
      List.filter_cons_of_pos (by simp [keep])]
  have unnamed : ∀ q ∈ before, q.eventid ≠ p.eventid := by
    intro q member same
    have inside : q ∈ opened ++ cleared.filter fun q => !decide (q.eventid ∈ ids opened) :=
      (mem_sortBy worstNumber _ q).mp (split ▸ List.mem_append_left _ member)
    cases List.mem_append.mp inside with
    | inl isOpen => exact closed (same ▸ List.mem_map_of_mem isOpen)
    | inr isGone =>
        have equal : q = p := List.inj_on_of_nodup_map distinct (List.mem_filter.mp isGone).1 gone same
        exact first (equal ▸ member)
  have openBefore : before.filter keep =
      before.filter fun q => decide (q.eventid ∈ ids opened) :=
    List.filter_congr fun q member => by simp [keep, unnamed q member]
  by_contra many
  rw [topRows, asked, openBefore, List.take_append_of_le_length (not_lt.mp many)] at placed
  obtain ⟨q, shown, same⟩ := List.mem_map.mp placed
  exact unnamed q (List.mem_filter.mp (List.mem_of_mem_take shown)).1 same

end Lists

/-! ### With the marks -/

theorem ids_cleared {state : State} (sound : ChangeHighlight.Sound state) :
    ids state.cleared = state.gone.keys := by
  rw [ids, State.cleared, List.map_map, OrderedMap.values, OrderedMap.keys, List.map_map]
  refine List.map_congr_left fun entry member => ?_
  exact sound.named entry.1 entry.2 ((OrderedMap.get?_eq_some_iff _ _ _).mpr member)

/-- After a list is shown, what is marked as cleared is not open and has its place. -/
theorem placed_after_shown {state : State} (sound : ChangeHighlight.Sound state)
    {opened : List Problem} {held : List String} {on : Bool}
    {shownOf : List Problem → List Problem} {now : ℤ} {id : String} {gone : Gone}
    (found : (step state (.shown ⟨some opened, held, on, shownOf⟩ now)).gone.get? id = some gone) :
    id ∉ ids opened ∧ gone.problem.eventid = id ∧
      id ∈ ids (shownOf (opened ++ [gone.problem])) := by
  have next := sound_step sound (.shown ⟨some opened, held, on, shownOf⟩ now)
  have named := next.named id gone found
  have slot := gone_law id state (.shown ⟨some opened, held, on, shownOf⟩ now)
  simp only [found] at slot
  cases Option.or_eq_some_iff.mp slot.symm with
  | inl cleared =>
      obtain ⟨_, _, _, _, before, same, _, member, own, _⟩ := clears_some cleared
      cases same
      have conditions := (mem_removed.mp member).2.2
      exact ⟨own ▸ conditions.1, named, own ▸ conditions.2.2⟩
  | inr kept =>
      obtain ⟨old, keep⟩ := Option.filter_eq_some_iff.mp kept.2
      cases seen : state.previous with
      | none =>
          have empty := (sound.baseline seen).2
          rw [OrderedMap.get?, empty] at old
          cases old
      | some earlier =>
          simp only [keepsGone, seen, Bool.and_eq_true, decide_eq_true_eq, stillPlaced] at keep
          exact ⟨keep.2.1, named, named ▸ keep.2.2⟩

/-- Whatever lists the wall has been shown, with the last one: the rows are in order, the open
ones among them are the worst, and every problem marked as cleared is one of the rows. -/
theorem rows_shown (events : List Event) (opened : List Problem) (held : List String) (on : Bool)
    (now : ℤ) {state : State}
    (reached : state = run (events ++ [.shown ⟨some opened, held, on, topRows⟩ now]))
    (numeric : ∀ p ∈ opened ++ state.cleared, Numeric p) :
    (liveRows opened state.cleared).Pairwise (fun a b => worstFirst a b ≠ .gt) ∧
      (liveRows opened state.cleared).filter (fun p => decide (p.eventid ∈ ids opened)) =
        topRows opened ∧
      ∀ id, state.mark id = some .cleared →
        ∃ p ∈ liveRows opened state.cleared, p.eventid = id ∧ id ∉ ids opened := by
  have sound : ChangeHighlight.Sound state := reached ▸ sound_run _
  refine ⟨?_, liveRows_open numeric, fun id marked => ?_⟩
  · have listed : ∀ p ∈ opened ++ state.cleared.filter fun p => !decide (p.eventid ∈ ids opened),
        Numeric p := fun p member => numeric p (List.mem_append.mpr
          ((List.mem_append.mp member).imp_right fun gone => (List.mem_filter.mp gone).1))
    have sorted := (pairwise_sortBy worstNumber (opened ++ state.cleared.filter fun p =>
      !decide (p.eventid ∈ ids opened)))
    have inside := rowsUpTo_isPrefix (fun p : Problem => decide (p.eventid ∈ ids opened)) 0
      (sortBy worstNumber (opened ++ state.cleared.filter fun p =>
        !decide (p.eventid ∈ ids opened)))
    rw [liveRows, sortBy_worstFirst listed]
    refine (sorted.sublist inside.sublist).imp_of_mem fun first second ordered => ?_
    have numbered := fun q member => listed q ((mem_sortBy worstNumber _ q).mp
      (inside.subset member))
    rw [worstFirst_eq (numbered _ first) (numbered _ second)]
    exact ordered
  · have contained : state.gone.contains id = true := by
      rw [State.mark] at marked
      by_contra other
      rw [if_neg other] at marked
      split at marked <;> cases marked
    obtain ⟨gone, found⟩ := Option.isSome_iff_exists.mp contained
    have last : (step (run events) (.shown ⟨some opened, held, on, topRows⟩ now)).gone.get? id =
        some gone := by
      rw [reached, run, List.foldl_append] at found
      exact found
    obtain ⟨closed, named, placed⟩ := placed_after_shown (sound_run events) last
    have member : gone.problem ∈ state.cleared := by
      have entry := (OrderedMap.get?_eq_some_iff _ _ _).mp found
      exact List.mem_map.mpr ⟨gone, List.mem_map.mpr ⟨(id, gone), entry, rfl⟩, rfl⟩
    have distinct : (ids state.cleared).Nodup := ids_cleared sound ▸ state.gone.keys_nodup
    refine ⟨gone.problem, mem_liveRows numeric distinct member (named ▸ closed) (named ▸ placed),
      named, closed⟩

def numbered (eventid : ℕ) : Problem :=
  ⟨toString eventid, "3", "0", "Down", "5", "100", none, "0", none, none, none⟩

def fourteen : List Problem := (List.range' 1 14).map numbered

def lessSeven : List Problem := fourteen.filter fun p => p.eventid ≠ "7"

def oneCleared : State :=
  run ([.shown ⟨some fourteen, [], true, topRows⟩ 0] ++
    [.shown ⟨some lessSeven, [], true, topRows⟩ 5000])

/-- It stands between the twelve worst of the thirteen that are still open. -/
theorem rows_shown_oneCleared :
    (liveRows lessSeven oneCleared.cleared).filter (fun p => decide (p.eventid ∈ ids lessSeven)) =
        topRows lessSeven ∧
      ∃ p ∈ liveRows lessSeven oneCleared.cleared, p.eventid = "7" ∧ "7" ∉ ids lessSeven := by
  have cleared : oneCleared.cleared = [numbered 7] := by decide +kernel
  have numbers : ((lessSeven ++ [numbered 7]).all fun p => (toNumber p.severity).isSome &&
      (toNumber p.clock).isSome && (toNumber p.eventid).isSome) = true := by decide +kernel
  have numeric : ∀ p ∈ lessSeven ++ oneCleared.cleared, Numeric p := by
    rw [cleared]
    intro p member
    have told := List.all_eq_true.mp numbers p member
    rw [Bool.and_eq_true, Bool.and_eq_true] at told
    exact ⟨told.1.1, told.1.2, told.2⟩
  obtain ⟨-, worst, marked⟩ := rows_shown _ lessSeven [] true 5000 rfl numeric
  exact ⟨worst, marked "7" (by decide +kernel)⟩

end ZabbixPortal.Web
