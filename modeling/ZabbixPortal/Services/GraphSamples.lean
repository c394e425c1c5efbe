import ZabbixPortal.Services.GraphSeries
import ZabbixPortal.Services.ItemReads
import ZabbixPortal.Services.UpdateIntervals
import ZabbixPortal.Foundation.Firsts
import ZabbixPortal.Foundation.TopOf
import ZabbixPortal.Services.GraphSeriesProperties
import ZabbixPortal.Sli.MaintenanceProperties
import ZabbixPortal.Sli.Trends

/-! A graph from the rows that were read for it: their samples, the interval they are expected
at, and what the page is told of each series. -/

set_option autoImplicit false

namespace ZabbixPortal.Services

open Foundation

def historySample (row : HistoryRow) : Sample :=
  { clock := row.clock
    num := 1
    sum := row.value
    min := row.value
    max := row.value
    trend := false }

def trendSample (row : TrendRow) : Sample :=
  -- `Number(r.num) || 1`
  let num : ℚ := if row.num = 0 then 1 else row.num
  { clock := row.clock
    num
    sum := row.value_avg * num
    min := row.value_min
    max := row.value_max
    trend := true }

/-- The trends, and the history of the span they miss. -/
def SeriesRead.samples (read : SeriesRead) : List Sample :=
  read.trends.map trendSample ++ read.history.map historySample

/-- `/^(icmpping\b|icmpping\[|net\.if\.status|web\.test\.fail)/` -/
def isStepKey (key : String) : Bool :=
  (startsWith key "icmpping" && !(key.toList.drop 8).head?.any isWordChar) ||
    startsWith key "net.if.status" || startsWith key "web.test.fail"

structure GraphedSeries where
  itemid : String
  name : String
  host : String
  units : String
  value_type : String
  delaySeconds : ℚ
  /-- Drawn as steps: a state, not a quantity. -/
  step : Bool
  points : List GraphPoint
  stats : Option SeriesStats
  coverage : SeriesCoverage
deriving DecidableEq, Repr

inductive GraphSource where
  | history
  | trend
  | trendAndHistory
deriving DecidableEq, Repr

structure Graph where
  start : ℤ
  stop : ℤ
  source : GraphSource
  series : List GraphedSeries
  latestClock : Option ℤ
  downsampled : Bool
deriving DecidableEq, Repr

/-- The update interval, or the spacing of the raw history where the item has none of its own. -/
def effectiveDelay (delay : String) (samples : List Sample) : ℚ :=
  let own : ℚ := parseDelay (some delay)
  if own ≠ 0 then own else median (spacings (samples.filter fun s => !s.trend))

def isStep (item : ItemConfig) (samples : List Sample) : Bool :=
  isStepKey item.key_ ||
    (item.value_type = "3" && !samples.isEmpty &&
      (samples.flatMap fun s => [s.min, s.max]).all fun v => v = 0 || v = 1)

def shapeOptions (start stop points : ℤ) (item : ItemConfig) (samples : List Sample) :
    ShapeOptions :=
  { start
    stop
    points := points.toNat
    delay := effectiveDelay item.delay samples
    withBand := stop - start > DAY }

def drawSeries (start stop points : ℤ) (item : ItemConfig) (samples : List Sample) :
    GraphedSeries × Bool :=
  let delay := effectiveDelay item.delay samples
  let shaped := shapeSeries samples (shapeOptions start stop points item samples)
  ({ itemid := item.itemid
     name := item.name
     host := item.host
     units := item.units
     value_type := item.value_type
     delaySeconds := if delay ≠ 0 then delay else if stop - start > DAY then 3600 else 60
     step := isStep item samples
     points := shaped.points
     stats := seriesStats samples
     coverage := seriesCoverage samples start stop delay }, shaped.downsampled)

def drawGraph (read : GraphRead) : Graph :=
  let useTrends : Bool := read.stop - read.start > DAY
  let usedHistoryFill := read.series.any fun series => !series.history.isEmpty
  let drawn := read.series.map fun series =>
    drawSeries read.start read.stop read.points series.item series.samples
  { start := read.start
    stop := read.stop
    source := if !useTrends then .history else if usedHistoryFill then .trendAndHistory else .trend
    series := drawn.map Prod.fst
    latestClock := (drawn.filterMap fun entry => entry.1.stats.map (·.lastClock)).max?
    downsampled := drawn.any Prod.snd }

/-! A graph is drawn from every stored value once, also across the seam between trends and
history. -/

open Sli

/-- How Zabbix keeps values: history by clock, fewer rows in two seconds than a page has, and
one trend row an item and hour. -/
structure KeepsValues (state : ZabbixState) (now : ℤ) : Prop where
  ordered : ∀ id, InClockOrder HistoryRow.clock (state.history now id)
  sparse : ∀ id t,
    (inRange HistoryRow.clock t (t + 1) (state.history now id)).length < HISTORY_PAGE
  own : ∀ id, ∀ row ∈ state.trends now id, row.itemid = id
  hourly : ∀ id, ((state.trends now id).map TrendRow.clock).Nodup

section Reads

/-! ### Reads -/

variable {rows : List HistoryRow} {start stop : ℤ}

theorem historyGet_eq (limit : Nat) :
    historyGet rows start stop limit = (inRange HistoryRow.clock start stop rows).take limit :=
  rfl

/-- A page that is not full is the whole range. -/
theorem historyGet_of_short {limit : Nat}
    (short : (historyGet rows start stop limit).length < limit) :
    historyGet rows start stop limit = inRange HistoryRow.clock start stop rows := by
  rw [historyGet_eq] at short ⊢
  rw [List.length_take] at short
  exact List.take_of_length_le (by omega)

theorem inRange_length_mono {first last : ℤ} (lower : first ≤ start) (upper : stop ≤ last) :
    (inRange HistoryRow.clock start stop rows).length ≤
      (inRange HistoryRow.clock first last rows).length := by
  refine (List.monotone_filter_right rows fun row inside => ?_).length_le
  simp only [decide_eq_true_eq] at inside ⊢
  exact ⟨lower.trans inside.1, inside.2.trans upper⟩

/-- Halving reads every row of the range once. -/
theorem fetchHistory_eq (ordered : InClockOrder HistoryRow.clock rows)
    (sparse : ∀ t, (inRange HistoryRow.clock t (t + 1) rows).length < HISTORY_PAGE) :
    fetchHistory rows start stop = inRange HistoryRow.clock start stop rows := by
  induction start, stop using fetchHistory.induct rows with
  | case1 start stop page ended =>
      rw [fetchHistory, if_pos ended]
      cases ended with
      | inl short => exact historyGet_of_short short
      | inr narrow =>
          -- A page of two seconds is never full.
          have inTwo : (inRange HistoryRow.clock start stop rows).length ≤
              (inRange HistoryRow.clock start (start + 1) rows).length :=
            inRange_length_mono le_rfl (by omega)
          exact List.take_of_length_le (inTwo.trans (sparse start).le)
  | case2 start stop page goesOn mid left right =>
      rw [fetchHistory, if_neg goesOn]
      dsimp only
      rw [left, right]
      have wide : ¬ stop - start < 2 := fun narrow => goesOn (.inr narrow)
      exact inRange_append HistoryRow.clock ordered start ((start + stop) / 2) stop (by omega)
        (by omega)

/-- Windows that tile a range read its rows once. -/
theorem flatMap_inRange_perm {α : Type} (clock : α → ℤ) (rows : List α) {first last : ℤ}
    {windows : List (ℤ × ℤ)} (tiles : Tiles last first windows) :
    (windows.flatMap fun window => inRange clock window.1 window.2 rows).Perm
      (inRange clock first last rows) := by
  induction tiles with
  | done =>
      have empty : inRange clock (last + 1) last rows = [] :=
        List.filter_eq_nil_iff.mpr fun row _ => by
          simp only [decide_eq_true_eq]
          omega
      rw [empty]
      exact .refl _
  | @next first stop windows forward rest ih =>
      have below := rest.within.1
      have parted := List.filter_append_perm (fun row => decide (clock row ≤ stop))
        (inRange clock first last rows)
      have left : (inRange clock first last rows).filter (fun row => decide (clock row ≤ stop)) =
          inRange clock first stop rows := by
        rw [inRange, List.filter_filter]
        refine List.filter_congr fun row _ => ?_
        rw [Bool.eq_iff_iff, Bool.and_eq_true, decide_eq_true_iff, decide_eq_true_iff,
          decide_eq_true_iff]
        omega
      have right : (inRange clock first last rows).filter
          (fun row => !decide (clock row ≤ stop)) = inRange clock (stop + 1) last rows := by
        rw [inRange, List.filter_filter]
        refine List.filter_congr fun row _ => ?_
        rw [Bool.eq_iff_iff, Bool.and_eq_true, Bool.not_eq_true', decide_eq_false_iff_not,
          decide_eq_true_iff, decide_eq_true_iff]
        omega
      rw [left, right] at parted
      rw [List.flatMap_cons]
      exact (ih.append_left _).trans parted

/-- What is read of an item's trends is what is kept of them in the range, row by row. -/
theorem fetchTrendsSliced_perm {state : ZabbixState} {now : ℤ}
    (ownRows : ∀ id, ∀ row ∈ state.trends now id, row.itemid = id) {ids : List String}
    (distinct : ids.Nodup) {id : String} (asked : id ∈ ids) {first last : ℤ}
    (forward : first ≤ last) :
    ((fetchTrendsSliced state now ids first last).filter fun row => row.itemid = id).Perm
      (inRange TrendRow.clock first last (state.trends now id)) := by
  have ofSlice : ∀ slice : TrendSlice,
      (trendGet (state.trends now) slice.itemids slice.first slice.last).filter
          (fun row => decide (row.itemid = id)) =
        if id ∈ slice.itemids then
          inRange TrendRow.clock slice.first slice.last (state.trends now id)
        else [] := by
    intro slice
    have ofItem : ∀ other, (state.trends now other).filter (fun row => decide (row.itemid = id)) =
        if other = id then state.trends now id else [] := by
      intro other
      split
      · next same =>
          subst same
          exact List.filter_eq_self.mpr fun row member => decide_eq_true (ownRows _ row member)
      · next differs =>
          refine List.filter_eq_nil_iff.mpr fun row member => ?_
          rw [ownRows other row member, decide_eq_true_iff]
          exact differs
    have whole : ∀ names : List String, names.Nodup →
        (names.flatMap (state.trends now)).filter (fun row => decide (row.itemid = id)) =
          if id ∈ names then state.trends now id else [] := by
      intro names once
      induction names with
      | nil => rfl
      | cons name names ih =>
          obtain ⟨fresh, others⟩ := List.nodup_cons.mp once
          rw [List.flatMap_cons, List.filter_append, ofItem, ih others]
          by_cases same : name = id
          · subst same
            rw [if_pos rfl, if_neg fresh, if_pos List.mem_cons_self, List.append_nil]
          · rw [if_neg same, List.nil_append]
            simp only [List.mem_cons, Ne.symm same, false_or]
    have parts := whole slice.itemids.eraseDups (nodup_eraseDups _)
    unfold trendGet
    rw [List.filter_comm, parts]
    simp only [List.mem_eraseDups]
    split
    · rfl
    · rfl
  have rowsOf : (fetchTrendsSliced state now ids first last).filter
      (fun row => decide (row.itemid = id)) =
      (((trendSlices ids first last TREND_MAX_ROWS).filter fun slice => id ∈ slice.itemids).map
        TrendSlice.window).flatMap fun window =>
          inRange TrendRow.clock window.1 window.2 (state.trends now id) := by
    rw [fetchTrendsSliced, List.filter_flatMap, List.flatMap_map]
    induction trendSlices ids first last TREND_MAX_ROWS with
    | nil => rfl
    | cons slice slices ih =>
        rw [List.flatMap_cons, ofSlice, ih, List.filter_cons]
        by_cases inSlice : id ∈ slice.itemids
        · rw [if_pos inSlice, if_pos (decide_eq_true inSlice), List.flatMap_cons]
          rfl
        · rw [if_neg inSlice, if_neg (by simp [inSlice]), List.nil_append]
  rw [rowsOf]
  exact flatMap_inRange_perm TrendRow.clock _ (trendSlices_consecutive distinct forward asked)

end Reads

section Series

/-! ### The rows of a series -/

variable {state : ZabbixState} {now start stop : ℤ}

def fillFrom (now start : ℤ) (trends : List TrendRow) : ℤ :=
  max (max start ((trends.getLast?.map fun row => row.clock + 3600).getD start))
    (now - HISTORY_FILL_WINDOW)

/-- The samples of an item: by clock, and every value kept of the window once, as the hours
told by trends and the history behind them. -/
structure DrawnOnce (state : ZabbixState) (now start stop : ℤ) (id : String)
    (samples : List Sample) : Prop where
  ordered : samples.Pairwise fun a b => a.clock ≤ b.clock
  within : ∀ s ∈ samples, start ≤ s.clock ∧ s.clock < stop
  short : stop - start ≤ DAY →
    samples = (inRange HistoryRow.clock start (stop - 1) (state.history now id)).map historySample
  long : DAY < stop - start → ∃ trends : List TrendRow,
    trends.Perm (inRange TrendRow.clock start (stop - 1) (state.trends now id)) ∧
    trends.Pairwise (fun a b => a.clock < b.clock) ∧
    samples = trends.map trendSample ++ (inRange HistoryRow.clock (fillFrom now start trends)
      (stop - 1) (state.history now id)).map historySample
  /-- No value of the history lies in the hour of a trend row. -/
  apart : ∀ s ∈ samples, ∀ t ∈ samples, t.trend = true → s.trend = false → t.clock + 3600 ≤ s.clock

theorem sorted_by_clock {rows : List TrendRow} (hourly : (rows.map TrendRow.clock).Nodup) :
    (sortBy (fun a b : TrendRow => compare a.clock b.clock) rows).Pairwise
      fun a b => a.clock < b.clock := by
  have : Std.TransCmp fun a b : TrendRow => compare a.clock b.clock :=
    inferInstanceAs (Std.TransCmp (compareOn TrendRow.clock))
  have sorted := pairwise_sortBy (fun a b : TrendRow => compare a.clock b.clock) rows
  have distinct := (sortBy_perm (fun a b : TrendRow => compare a.clock b.clock) rows).symm.pairwise
    (List.pairwise_map.mp hourly) fun differs => Ne.symm differs
  refine (sorted.and distinct).imp fun both => ?_
  exact lt_of_le_of_ne (Int.compare_ne_gt.mp both.1) both.2

/-- The last trend row is the newest. -/
theorem le_last {trends : List TrendRow} (sorted : trends.Pairwise fun a b => a.clock < b.clock)
    {row : TrendRow} (member : row ∈ trends) :
    row.clock + 3600 ≤ ((trends.getLast?.map fun row => row.clock + 3600).getD start) := by
  obtain ⟨front, last, rfl⟩ : ∃ front last, trends = front ++ [last] :=
    (List.eq_nil_or_concat trends).resolve_left (List.ne_nil_of_mem member) |>.imp fun front =>
      Exists.imp fun last shape => by rw [shape, List.concat_eq_append]
  rw [List.getLast?_concat, Option.map_some, Option.getD_some]
  cases List.mem_append.mp member with
  | inl earlier =>
      have before := (List.pairwise_append.mp sorted).2.2 row earlier last List.mem_cons_self
      omega
  | inr own => rw [List.mem_singleton.mp own]

theorem fillFrom_ge (trends : List TrendRow) : start ≤ fillFrom now start trends :=
  (le_max_left _ _).trans (le_max_left _ _)

theorem history_ordered (keeps : KeepsValues state now) (id : String) (lower upper : ℤ) :
    ((inRange HistoryRow.clock lower upper (state.history now id)).map historySample).Pairwise
      fun a b => a.clock ≤ b.clock :=
  List.pairwise_map.mpr ((keeps.ordered id).filter _)

/-- The history behind the trends, which is nothing where they reach the end of the window. -/
theorem filled_eq (keeps : KeepsValues state now) (id : String) (lower : ℤ) :
    (if lower < stop then fetchHistory (state.history now id) lower (stop - 1) else []) =
      inRange HistoryRow.clock lower (stop - 1) (state.history now id) := by
  split
  · exact fetchHistory_eq (keeps.ordered id) (keeps.sparse id)
  · next reached =>
      refine (List.filter_eq_nil_iff.mpr fun row _ => ?_).symm
      simp only [decide_eq_true_eq]
      omega

theorem readSeries_item (trendRows : List TrendRow) (item : ItemConfig) :
    (readSeries state now trendRows start stop item).item = item := by
  unfold readSeries
  dsimp only
  split
  · rfl
  · rfl

/-- What is read for an item is drawn from once. -/
theorem drawn_once (keeps : KeepsValues state now) {ids : List String} (distinct : ids.Nodup)
    (window : start < stop) {item : ItemConfig} (asked : item.itemid ∈ ids) :
    DrawnOnce state now start stop item.itemid
      (readSeries state now
        (if stop - start > DAY then fetchTrendsSliced state now ids start (stop - 1) else [])
        start stop item).samples := by
  by_cases long : stop - start > DAY
  · have trendRows := fetchTrendsSliced_perm keeps.own distinct asked
      (show start ≤ stop - 1 by omega)
    rw [if_pos long]
    generalize fetchTrendsSliced state now ids start (stop - 1) = rows at trendRows
    have sorting := sortBy_perm (fun a b : TrendRow => compare a.clock b.clock)
      (rows.filter fun row => decide (row.itemid = item.itemid))
    have hourly : ((rows.filter fun row => decide (row.itemid = item.itemid)).map
        TrendRow.clock).Nodup :=
      (trendRows.map TrendRow.clock).nodup_iff.mpr
        (((keeps.hourly item.itemid).sublist (List.filter_sublist.map _)))
    have sorted := sorted_by_clock hourly
    have whole := sorting.trans trendRows
    rw [readSeries, if_pos long]
    dsimp only
    generalize sortBy (fun a b : TrendRow => compare a.clock b.clock)
      (rows.filter fun row => decide (row.itemid = item.itemid)) = trends at sorted whole
    have filled : (if max (max start ((trends.getLast?.map fun row => row.clock + 3600).getD start))
        (now - HISTORY_FILL_WINDOW) < stop then
          fetchHistory (state.history now item.itemid)
            (max (max start ((trends.getLast?.map fun row => row.clock + 3600).getD start))
              (now - HISTORY_FILL_WINDOW)) (stop - 1) else []) =
        inRange HistoryRow.clock (fillFrom now start trends) (stop - 1)
          (state.history now item.itemid) :=
      filled_eq keeps item.itemid (fillFrom now start trends)
    rw [filled]
    -- Every trend row of the window ends before the history that is read.
    have seam : ∀ row ∈ trends, row.clock + 3600 ≤ fillFrom now start trends := by
      intro row member
      exact (le_last sorted member).trans ((le_max_right start _).trans (le_max_left _ _))
    have early : ∀ row ∈ trends, start ≤ row.clock ∧ row.clock ≤ stop - 1 := fun row member =>
      ((mem_inRange TrendRow.clock _ _ _ row).mp (whole.mem_iff.mp member)).2
    have late : ∀ row ∈ inRange HistoryRow.clock (fillFrom now start trends) (stop - 1)
        (state.history now item.itemid),
        fillFrom now start trends ≤ row.clock ∧ row.clock ≤ stop - 1 := fun row member =>
      ((mem_inRange HistoryRow.clock _ _ _ row).mp member).2
    refine ⟨?_, ?_, fun short => absurd long (not_lt.mpr short), fun _ =>
      ⟨trends, whole, sorted, rfl⟩, ?_⟩
    · refine List.pairwise_append.mpr ⟨List.pairwise_map.mpr (sorted.imp le_of_lt),
        history_ordered keeps _ _ _, ?_⟩
      intro s trend t value
      obtain ⟨row, inTrends, rfl⟩ := List.mem_map.mp trend
      obtain ⟨other, inHistory, rfl⟩ := List.mem_map.mp value
      have before := seam row inTrends
      have behind := (late other inHistory).1
      change row.clock ≤ other.clock
      omega
    · intro s member
      cases List.mem_append.mp member with
      | inl trend =>
          obtain ⟨row, inTrends, rfl⟩ := List.mem_map.mp trend
          have bounds := early row inTrends
          exact ⟨bounds.1, by change row.clock < stop; omega⟩
      | inr value =>
          obtain ⟨row, inHistory, rfl⟩ := List.mem_map.mp value
          have bounds := late row inHistory
          have above : start ≤ fillFrom now start trends := fillFrom_ge trends
          exact ⟨above.trans bounds.1, by change row.clock < stop; omega⟩
    · intro s value t trend isTrend isValue
      cases List.mem_append.mp trend with
      | inr other =>
          obtain ⟨row, _, rfl⟩ := List.mem_map.mp other
          cases isTrend
      | inl hour =>
          cases List.mem_append.mp value with
          | inl other =>
              obtain ⟨row, _, rfl⟩ := List.mem_map.mp other
              cases isValue
          | inr kept =>
              obtain ⟨row, inTrends, rfl⟩ := List.mem_map.mp hour
              obtain ⟨other, inHistory, rfl⟩ := List.mem_map.mp kept
              exact (seam row inTrends).trans (late other inHistory).1
  · have read : (readSeries state now [] start stop item).samples =
        (inRange HistoryRow.clock start (stop - 1) (state.history now item.itemid)).map
          historySample := by
      rw [readSeries, if_neg long]
      exact congrArg (List.map historySample)
        (fetchHistory_eq (keeps.ordered item.itemid) (keeps.sparse item.itemid))
    rw [if_neg long, read]
    refine ⟨history_ordered keeps _ _ _, fun s member => ?_, fun _ => rfl,
      fun longer => absurd longer long, fun s _ t trend isTrend => ?_⟩
    · obtain ⟨row, kept, rfl⟩ := List.mem_map.mp member
      have bounds := ((mem_inRange HistoryRow.clock _ _ _ row).mp kept).2
      exact ⟨bounds.1, by change row.clock < stop; omega⟩
    · obtain ⟨row, _, rfl⟩ := List.mem_map.mp trend
      cases isTrend

end Series

section Graphs

/-! ### The graph -/

variable {β : Type} {around : Surroundings Graph β} {state : ZabbixState} {ids : List String}
  {now start stop points : ℤ}

theorem coveredBy_nonneg (stop : ℤ) (expected : Sample → ℚ) (samples : List Sample) :
    0 ≤ coveredBy stop expected samples := by
  induction samples using coveredBy.induct with
  | case1 => exact le_rfl
  | case2 s => exact le_max_left _ _
  | case3 s next rest ih =>
      rw [coveredBy]
      exact add_nonneg (le_max_left _ _) ih

theorem coveredSeconds_bounds (samples : List Sample) (forward : start ≤ stop) (delay : ℚ) :
    0 ≤ (seriesCoverage samples start stop delay).coveredSeconds ∧
      (seriesCoverage samples start stop delay).coveredSeconds ≤ stop - start := by
  unfold seriesCoverage
  dsimp only
  split
  · exact ⟨le_rfl, by dsimp only; omega⟩
  · refine ⟨le_min (le_jsRound ?_) (by omega), min_le_right _ _⟩
    rw [Int.cast_zero]
    exact coveredBy_nonneg _ _ _

/-- Samples by clock end with the newest. -/
theorem lastClock_iff {samples : List Sample}
    (ordered : samples.Pairwise fun a b => a.clock ≤ b.clock) (clock : ℤ) :
    (seriesStats samples).map (·.lastClock) = some clock ↔
      IsGreatest {c | ∃ s ∈ samples, s.clock = c} clock := by
  cases List.eq_nil_or_concat samples with
  | inl empty =>
      subst empty
      refine iff_of_false (by simp [seriesStats]) fun greatest => ?_
      obtain ⟨s, member, _⟩ := greatest.1
      cases member
  | inr shape =>
      obtain ⟨front, last, rfl⟩ := shape
      rw [List.concat_eq_append] at ordered ⊢
      have newest : IsGreatest {c | ∃ s ∈ front ++ [last], s.clock = c} last.clock := by
        refine ⟨⟨last, List.mem_append_right _ List.mem_cons_self, rfl⟩, ?_⟩
        rintro c ⟨s, member, rfl⟩
        cases List.mem_append.mp member with
        | inl earlier => exact (List.pairwise_append.mp ordered).2.2 s earlier last List.mem_cons_self
        | inr own => rw [List.mem_singleton.mp own]
      rw [seriesStats, List.getLast?_concat, Option.map_some, Option.map_some, Option.some_inj]
      constructor
      · rintro rfl
        exact newest
      · exact newest.unique

structure DrawnFrom (state : ZabbixState) (now start stop : ℤ) (id : String)
    (drawn : ItemConfig × List Sample) : Prop where
  known : drawn.1 ∈ state.items
  own : drawn.1.itemid = id
  numeric : drawn.1.value_type = "0" ∨ drawn.1.value_type = "3"
  once : DrawnOnce state now start stop id drawn.2

structure GraphDrawn (state : ZabbixState) (now : ℤ) (ids : List String) (start stop points : ℤ)
    (drawn : List (ItemConfig × List Sample)) (graph : Graph) : Prop where
  once : List.Forall₂ (DrawnFrom state now start stop) ids drawn
  series : graph.series = drawn.map fun entry => (drawSeries start stop points entry.1 entry.2).1
  covered : ∀ series ∈ graph.series,
    0 ≤ series.coverage.coveredSeconds ∧ series.coverage.coveredSeconds ≤ stop - start
  latest : ∀ clock, graph.latestClock = some clock ↔
    IsGreatest {c | ∃ entry ∈ drawn, ∃ s ∈ entry.2, s.clock = c} clock

theorem latest_iff {drawn : List (ItemConfig × List Sample)}
    (ordered : ∀ entry ∈ drawn, entry.2.Pairwise fun a b => a.clock ≤ b.clock) (clock : ℤ) :
    (drawn.filterMap fun entry => (seriesStats entry.2).map (·.lastClock)).max? = some clock ↔
      IsGreatest {c | ∃ entry ∈ drawn, ∃ s ∈ entry.2, s.clock = c} clock := by
  rw [List.max?_eq_some_iff]
  constructor
  · rintro ⟨member, most⟩
    obtain ⟨entry, inDrawn, own⟩ := List.mem_filterMap.mp member
    obtain ⟨⟨s, inSamples, same⟩, _⟩ := (lastClock_iff (ordered entry inDrawn) clock).mp own
    refine ⟨⟨entry, inDrawn, s, inSamples, same⟩, ?_⟩
    rintro c ⟨other, inDrawn', t, inSamples', rfl⟩
    cases last : (seriesStats other.2).map (·.lastClock) with
    | none =>
        rw [seriesStats, Option.map_map, Option.map_eq_none_iff, List.getLast?_eq_none_iff] at last
        rw [last] at inSamples'
        cases inSamples'
    | some newest =>
        have above := ((lastClock_iff (ordered other inDrawn') newest).mp last).2
          ⟨t, inSamples', rfl⟩
        exact above.trans (most newest (List.mem_filterMap.mpr ⟨other, inDrawn', last⟩))
  · rintro ⟨⟨entry, inDrawn, s, inSamples, rfl⟩, most⟩
    have ofEntry : IsGreatest {c | ∃ t ∈ entry.2, t.clock = c} s.clock :=
      ⟨⟨s, inSamples, rfl⟩, fun c ⟨t, inSamples', same⟩ => most ⟨entry, inDrawn, t, inSamples', same⟩⟩
    refine ⟨List.mem_filterMap.mpr
      ⟨entry, inDrawn, (lastClock_iff (ordered entry inDrawn) _).mpr ofEntry⟩, ?_⟩
    intro newest member
    obtain ⟨other, inDrawn', own⟩ := List.mem_filterMap.mp member
    obtain ⟨⟨t, inSamples', same⟩, _⟩ := (lastClock_iff (ordered other inDrawn') newest).mp own
    exact most ⟨other, inDrawn', t, inSamples', same⟩

/-- A lookup that finds every key finds one value for each, in their order. -/
theorem forall₂_filterMap {α κ : Type} {relates : κ → α → Prop} {find : κ → Option α}
    {keys : List κ} (found : ∀ key ∈ keys, ∃ value, find key = some value ∧ relates key value) :
    List.Forall₂ relates keys (keys.filterMap find) := by
  induction keys with
  | nil => exact .nil
  | cons key keys ih =>
      obtain ⟨value, own, related⟩ := found key List.mem_cons_self
      rw [List.filterMap_cons_some own]
      exact .cons related (ih fun other member => found other (List.mem_cons_of_mem _ member))

theorem item_of_get? {id : String} {item : ItemConfig}
    (found : (OrderedMap.ofList ((itemGet around.search state.items
      { itemids := some ids, webitems := true }).map fun item => (item.itemid, item))).get? id =
        some item) : item ∈ state.items ∧ item.itemid = id ∧ item.itemid ∈ ids := by
  have entry := OrderedMap.mem_of_mem_ofList ((OrderedMap.get?_eq_some_iff _ _ _).mp found)
  obtain ⟨other, member, same⟩ := List.mem_map.mp entry
  cases same
  have wanted := mem_itemGet_itemids.mp member
  exact ⟨wanted.1, rfl, wanted.2⟩

/-- A map of some pairs holds each of their keys. -/
theorem isSome_get?_ofList {α : Type} {pairs : List (String × α)} {pair : String × α}
    (member : pair ∈ pairs) : ((OrderedMap.ofList pairs).get? pair.1).isSome = true := by
  have last := get?_foldl_set_last Prod.fst Prod.snd pairs OrderedMap.empty pair.1
  rw [OrderedMap.ofList, last]
  cases found : lastOf (fun item => decide (item.1 = pair.1)) pairs with
  | none =>
      have others := lastOf_eq_none_iff.mp found pair member
      simp at others
  | some _ => rfl

/-- Every graph that is answered draws what is kept of its items once; one that is refused asks
for an id that is of no item, or of one that is not numeric. -/
theorem getGraph_drawsOnce (drawing : around.draw = drawGraph) (keeps : KeepsValues state now)
    (distinct : ids.Nodup) (window : start < stop) :
    (∀ graph, getGraph around state now ids start stop points = .ok graph →
      ∃ drawn, GraphDrawn state now ids start stop points drawn graph) ∧
    ∀ refusal, getGraph around state now ids start stop points = .error refusal →
      ∃ id ∈ ids, (∀ item ∈ state.items, item.itemid ≠ id) ∨
        ∃ item ∈ state.items, item.itemid = id ∧
          ¬ (item.value_type = "0" ∨ item.value_type = "3") := by
  unfold getGraph
  dsimp only
  generalize byIdOf : OrderedMap.ofList ((itemGet around.search state.items
    { itemids := some ids, webitems := true }).map fun item => (item.itemid, item)) = byId
  have ofId : ∀ {id : String} {item : ItemConfig}, byId.get? id = some item →
      item ∈ state.items ∧ item.itemid = id ∧ item.itemid ∈ ids := fun found =>
    item_of_get? (byIdOf ▸ found)
  by_cases missing : (ids.filter fun id => !byId.contains id) = []
  · rw [if_neg (not_not.mpr missing)]
    have found : ∀ id ∈ ids, (byId.get? id).isSome = true := fun id member => by
      have known := List.filter_eq_nil_iff.mp missing id member
      rwa [Bool.not_eq_true', Bool.not_eq_false] at known
    by_cases plain : ((ids.filterMap byId.get?).filter fun item =>
        decide (item.value_type ≠ "0") && decide (item.value_type ≠ "3")) = []
    · rw [if_neg (not_not.mpr plain)]
      refine ⟨fun graph answered => ?_, fun refusal refused => by cases refused⟩
      cases answered
      rw [drawing]
      have numeric : ∀ item ∈ ids.filterMap byId.get?,
          item.value_type = "0" ∨ item.value_type = "3" := by
        intro item member
        have own := List.filter_eq_nil_iff.mp plain item member
        by_contra neither
        rw [not_or] at neither
        exact own (by simp [neither.1, neither.2])
      have onceOf : ∀ item ∈ ids.filterMap byId.get?, DrawnOnce state now start stop item.itemid
          (readSeries state now
            (if stop - start > DAY then fetchTrendsSliced state now ids start (stop - 1) else [])
            start stop item).samples := by
        intro item member
        obtain ⟨id, _, inMap⟩ := List.mem_filterMap.mp member
        exact drawn_once keeps distinct window (ofId inMap).2.2
      generalize (if stop - start > DAY then fetchTrendsSliced state now ids start (stop - 1)
        else []) = trendRows at onceOf
      have drawnSeries : ∀ item, drawSeries start stop points
          (readSeries state now trendRows start stop item).item
          (readSeries state now trendRows start stop item).samples =
          drawSeries start stop points item
            (readSeries state now trendRows start stop item).samples := fun item => by
        rw [readSeries_item]
      refine ⟨(ids.filterMap byId.get?).map fun item =>
        (item, (readSeries state now trendRows start stop item).samples), ?_, ?_, ?_, ?_⟩
      · rw [List.forall₂_map_right_iff]
        refine forall₂_filterMap fun id member => ?_
        obtain ⟨item, inMap⟩ := Option.isSome_iff_exists.mp (found id member)
        obtain ⟨known, rfl, _⟩ := ofId inMap
        have inOrdered := List.mem_filterMap.mpr ⟨_, member, inMap⟩
        exact ⟨item, inMap, known, rfl, numeric item inOrdered, onceOf item inOrdered⟩
      · simp only [drawGraph, List.map_map]
        exact List.map_congr_left fun item _ => congrArg Prod.fst (drawnSeries item)
      · intro series member
        simp only [drawGraph, List.map_map] at member
        obtain ⟨item, _, rfl⟩ := List.mem_map.mp member
        exact coveredSeconds_bounds _ window.le _
      · intro clock
        have ordered : ∀ entry ∈ (ids.filterMap byId.get?).map fun item =>
            (item, (readSeries state now trendRows start stop item).samples),
            entry.2.Pairwise fun a b => a.clock ≤ b.clock := by
          intro entry member
          obtain ⟨item, inOrdered, rfl⟩ := List.mem_map.mp member
          exact (onceOf item inOrdered).ordered
        rw [← latest_iff ordered]
        simp only [drawGraph, List.map_map, List.filterMap_map]
        rfl
    · rw [if_pos plain]
      refine ⟨fun graph answered => (by cases answered), fun _ _ => ?_⟩
      obtain ⟨item, member⟩ := List.exists_mem_of_ne_nil _ plain
      obtain ⟨inOrdered, other⟩ := List.mem_filter.mp member
      obtain ⟨id, asked, inMap⟩ := List.mem_filterMap.mp inOrdered
      obtain ⟨known, own, _⟩ := ofId inMap
      refine ⟨id, asked, .inr ⟨item, known, own, ?_⟩⟩
      rw [not_or]
      simpa using other
  · rw [if_pos missing]
    refine ⟨fun graph answered => (by cases answered), fun _ _ => ?_⟩
    obtain ⟨id, member⟩ := List.exists_mem_of_ne_nil _ missing
    obtain ⟨asked, absent⟩ := List.mem_filter.mp member
    refine ⟨id, asked, .inl fun item known same => ?_⟩
    have held := isSome_get?_ofList (List.mem_map.mpr ⟨item,
      mem_itemGet_itemids.mpr ⟨known, same ▸ asked⟩, rfl⟩ : (item.itemid, item) ∈
        (itemGet around.search state.items { itemids := some ids, webitems := true }).map
          fun item => (item.itemid, item))
    rw [byIdOf, same] at held
    rw [OrderedMap.contains, held] at absent
    cases absent

def stalledTrends : ZabbixState where
  items := [{ itemid := "7", name := "ICMP ping", key_ := "icmpping", value_type := "3", units := ""
              state := "0", status := "0", delay := "1m", flags := "0", tags := [], hostid := "10"
              host := "Core switch", groupids := ["4"], monitored := true, web := false }]
  reachable _ := true
  last _ _ := { lastvalue := "1", lastclock := "7260", prevvalue := "1" }
  history _ id := if id = "7" then [⟨3600, 1⟩, ⟨7200, 1⟩, ⟨7260, 0⟩] else []
  trends _ id := if id = "7" then [⟨"7", 3600, 60, 1, 1, 1⟩, ⟨"7", 0, 60, 0, 1 / 2, 1⟩] else []

def drawingSurroundings : Surroundings Graph Unit where
  search :=
    { contains := fun text needle => (Pattern.word (· = ·) needle.toList).test text.toList
      starts := startsWith
      byName := fun a b => compareCodeUnits a.name b.name }
  naturalCompare := compareCodeUnits
  zone := utc
  draw := drawGraph
  approxBytes _ := 1000

theorem stalledTrends_keepsValues (now : ℤ) : KeepsValues stalledTrends now where
  ordered id := by
    change InClockOrder HistoryRow.clock (if id = "7" then _ else _)
    split
    · decide
    · exact .nil
  sparse id t := by
    have few : (stalledTrends.history now id).length ≤ 3 := by
      change (if id = "7" then _ else _ : List HistoryRow).length ≤ 3
      split
      · exact le_rfl
      · exact Nat.zero_le _
    exact ((List.length_filter_le _ _).trans few).trans_lt (by decide)
  own id row member := by
    change row ∈ (if id = "7" then _ else _ : List TrendRow) at member
    split at member
    · next same =>
        subst same
        obtain rfl | rfl : row = ⟨"7", 3600, 60, 1, 1, 1⟩ ∨ row = ⟨"7", 0, 60, 0, 1 / 2, 1⟩ := by
          simpa using member
        · rfl
        · rfl
    · cases member
  hourly id := by
    change ((if id = "7" then _ else _ : List TrendRow).map TrendRow.clock).Nodup
    split
    · decide
    · exact .nil

/-- Two days of a ping: two hours told by trends, and the history behind them. -/
theorem getGraph_drawsOnce_stalledTrends :
    ∃ graph drawn,
      getGraph drawingSurroundings stalledTrends 172800 ["7"] 0 172800 1500 = .ok graph ∧
      GraphDrawn stalledTrends 172800 ["7"] 0 172800 1500 drawn graph := by
  have told : (∀ graph, getGraph drawingSurroundings stalledTrends 172800 ["7"] 0 172800 1500 =
      .ok graph → ∃ drawn, GraphDrawn stalledTrends 172800 ["7"] 0 172800 1500 drawn graph) ∧ _ :=
    getGraph_drawsOnce rfl (stalledTrends_keepsValues 172800) (List.nodup_singleton "7") (by decide)
  cases answer : getGraph drawingSurroundings stalledTrends 172800 ["7"] 0 172800 1500 with
  | ok graph =>
      obtain ⟨drawn, draws⟩ := told.1 graph answer
      exact ⟨graph, drawn, rfl, draws⟩
  | error refusal =>
      obtain ⟨id, asked, wrong⟩ := told.2 refusal answer
      cases List.mem_singleton.mp asked
      cases wrong with
      | inl unknown => exact absurd rfl (unknown _ List.mem_cons_self)
      | inr textual =>
          obtain ⟨item, known, _, other⟩ := textual
          cases List.mem_singleton.mp known
          exact absurd (.inr rfl) other

end Graphs

end ZabbixPortal.Services
