import ZabbixPortal.Sli.CoverageReads
import ZabbixPortal.Sli.IntervalMemory

/-! Which hours count as collected. Trend rows and the history tail are stitched at the
latest trend hour; where the code and the intended stitch agree, the intervals cover
exactly the hours that were collected, and the gaps exactly the sparse ones. -/

set_option autoImplicit false

namespace ZabbixPortal.Sli

open Foundation Foundation.HalfOpen

structure CollectedWindow where
  store : CoverageStore
  icmpItems : List IcmpItem
  noDataWindows : List Interval
  windowFrom : ℤ
  windowEnd : ℤ
  forward : windowFrom < windowEnd
  distinct : (icmpItems.map (·.itemid)).Nodup

namespace CollectedWindow

variable (window : CollectedWindow)

/-- The window less its declared spans, as `computeSli` hands it to `icmpCoverage`. -/
def outside : List Interval :=
  complementIntervals
    (mergeIntervals (clipIntervals window.noDataWindows window.windowFrom window.windowEnd))
    window.windowFrom window.windowEnd

def items : List IcmpItem := chosenItems window.icmpItems

def Measured (t : ℤ) : Prop :=
  (window.windowFrom ≤ t ∧ t < window.windowEnd) ∧ ¬ Covers window.noDataWindows t

def TrendCounts (item : IcmpItem) (hour : ℤ) : Prop :=
  ∃ row ∈ window.store.trends, row.itemid = item.itemid ∧ row.clock = hour ∧
    (row.num : ℚ) ≥ 1 / 2 * (3600 / parseDelay item.delay)

def samples (item : IcmpItem) (hour : ℤ) : Nat :=
  (window.store.history.filter fun row =>
    row.itemid = item.itemid ∧ hourFloor row.clock = hour ∧ row.clock ≤ window.windowEnd).length

def HistoryCounts (item : IcmpItem) (hour : ℤ) : Prop :=
  (window.samples item hour * parseDelay item.delay : ℚ) ≥
    1 / 2 * (min (hour + 3600) window.windowEnd - hour : ℤ)

def windowTrends : List ZTrend :=
  window.store.trends.filter fun row => row.itemid ∈ window.items.map (·.itemid) ∧
    hourFloor window.windowFrom ≤ row.clock ∧ row.clock < window.windowEnd

/-- Where the latest trend hour of the window ends; its start when there is none yet. -/
def trendsEnd : ℤ :=
  match lastTrendHour window.windowTrends with
  | some hour => hour + 3600
  | none => window.windowFrom

def InTail (hour : ℤ) : Prop :=
  window.trendsEnd ≤ hour ∧ window.windowEnd - window.trendsEnd ≤ 6 * 3600

def Collected (item : IcmpItem) (t : ℤ) : Prop :=
  window.Measured t ∧ (window.TrendCounts item (hourFloor t) ∨
    window.InTail (hourFloor t) ∧ window.HistoryCounts item (hourFloor t))

open Classical in
/-- Fewer than a tenth of the items with any collected time have some in the hour. -/
def Sparse (hour : ℤ) : Prop :=
  10 * (window.items.filter fun item => ∃ t, hourFloor t = hour ∧ window.Collected item t).length <
    (window.items.filter fun item => ∃ t, window.Collected item t).length

structure CoversExactly (coverage : IcmpCoverage) : Prop where
  hosts : ∀ hostid, hostid ∈ coverage.byHost.keys ↔ ∃ item ∈ window.items, item.hostid = hostid
  once : ∀ entry ∈ coverage.byHost.entries, Separated entry.2
  collected : ∀ item ∈ window.items, ∀ t,
    Covers ((coverage.byHost.get? item.hostid).getD []) t ↔ window.Collected item t
  gapsOnce : Separated coverage.gaps
  gaps : ∀ t, Covers coverage.gaps t ↔ window.Measured t ∧ window.Sparse (hourFloor t)

/-- Some item has a trend row of the hour that begins when the window ends. -/
def RowAtEnd : Prop :=
  ∃ row ∈ window.store.trends, row.itemid ∈ window.items.map (·.itemid) ∧
    row.clock = window.windowEnd

/-- The code fills the hour from history exactly when it lies in the tail: no trend row is
clocked at the end of an hour of the tail, and without any trend row the hour is the last
one just when the whole window is short. -/
def Stitched (hour : ℤ) : Prop :=
  (window.RowAtEnd → ¬ window.InTail hour) ∧
    (¬ window.RowAtEnd → window.windowTrends = [] → window.windowFrom ≤ hour →
      (hour = hourFloor window.windowEnd ↔ window.windowEnd - window.windowFrom ≤ 6 * 3600))

def TailsStitched : Prop :=
  ∀ item ∈ window.items, ∀ t, window.Measured t → ¬ window.TrendCounts item (hourFloor t) →
    window.HistoryCounts item (hourFloor t) → window.Stitched (hourFloor t)

theorem covers_outside (t : ℤ) : Covers window.outside t ↔ window.Measured t := by
  rw [outside, covers_complementIntervals, covers_mergeIntervals, covers_clipIntervals, Measured]
  constructor
  · intro measured
    exact ⟨measured.1, fun declared => measured.2 ⟨declared, measured.1⟩⟩
  · intro measured
    exact ⟨measured.1, fun declared => measured.2 declared.1⟩

end CollectedWindow

section Parts

variable {windowFrom windowEnd : ℤ}

theorem covers_coveredFromTrends (rows : List ZTrend) (delay : Nat) (t : ℤ) :
    Covers (coveredFromTrends rows delay windowFrom windowEnd) t ↔
      (∃ row ∈ rows, (row.num : ℚ) ≥ 1 / 2 * (3600 / delay) ∧
        row.clock ≤ t ∧ t < row.clock + 3600) ∧ windowFrom ≤ t ∧ t < windowEnd := by
  have single : Covers [(windowFrom, windowEnd)] t ↔ windowFrom ≤ t ∧ t < windowEnd := by
    simp
  unfold coveredFromTrends
  rw [covers_intersectIntervals, single]
  apply and_congr_left'
  constructor
  · intro covered
    obtain ⟨interval, member, bounds⟩ := covered
    obtain ⟨row, counted, same⟩ := List.mem_map.mp member
    obtain ⟨inRows, enough⟩ := List.mem_filter.mp counted
    subst same
    exact ⟨row, inRows, of_decide_eq_true enough, bounds⟩
  · intro counted
    obtain ⟨row, inRows, enough, bounds⟩ := counted
    exact ⟨_, List.mem_map.mpr ⟨row, List.mem_filter.mpr ⟨inRows, decide_eq_true enough⟩, rfl⟩,
      bounds⟩

/-- Past an aligned `tailFrom` each counted hour is filled whole, up to the end. -/
theorem covers_coveredFromHistory {rows : List ZHistory} (delay : Nat) {start : ℤ}
    (aligned : hourFloor start = start) (late : ∀ row ∈ rows, start ≤ row.clock)
    (t : ℤ) :
    Covers (coveredFromHistory (countBy (fun row : ZHistory => hourFloor row.clock) rows) delay
        start windowEnd) t ↔
      start ≤ t ∧ t < windowEnd ∧
        0 < (rows.filter fun row => hourFloor row.clock = hourFloor t).length ∧
        ((rows.filter fun row => hourFloor row.clock = hourFloor t).length * delay : ℚ) ≥
          1 / 2 * (min (hourFloor t + 3600) windowEnd - hourFloor t : ℤ) := by
  have within : ∀ row ∈ rows, max (hourFloor row.clock) start = hourFloor row.clock := by
    intro row member
    have after := late row member
    unfold hourFloor at aligned ⊢
    omega
  constructor
  · intro covered
    obtain ⟨interval, member, lower, upper⟩ := covered
    obtain ⟨⟨hour, count⟩, counted, filled⟩ := List.mem_filterMap.mp member
    obtain ⟨positive, length⟩ := (mem_entries_countBy _ _ _).mp counted
    dsimp only at positive length filled
    split at filled
    · next enough =>
        obtain ⟨found, someRow⟩ := List.exists_mem_of_length_pos (length ▸ positive)
        obtain ⟨inRows, own⟩ := List.mem_filter.mp someRow
        have same : hourFloor found.clock = hour := of_decide_eq_true own
        have starts : max hour start = hour := same ▸ within found inRows
        have after := late found inRows
        rw [starts] at filled enough
        have ends := Option.some.inj filled
        subst ends
        dsimp only at lower upper
        have hourAligned : hourFloor hour = hour := same ▸ hourFloor_idem _
        have floored : hourFloor t = hour := (hourFloor_eq_iff hourAligned).mpr ⟨lower, by omega⟩
        rw [floored, ← length]
        refine ⟨?_, by omega, positive, ?_⟩
        · have := le_max_right hour start
          omega
        · exact_mod_cast enough.2
    · cases filled
  · intro counted
    obtain ⟨after, before, positive, enough⟩ := counted
    have entry := (mem_entries_countBy (fun row : ZHistory => hourFloor row.clock) rows
      (hourFloor t, (rows.filter fun row => hourFloor row.clock = hourFloor t).length)).mpr
      ⟨positive, rfl⟩
    have starts : max (hourFloor t) start = hourFloor t := by
      unfold hourFloor at aligned ⊢
      omega
    have bounds := hourFloor_le t
    refine ⟨(hourFloor t, min (hourFloor t + 3600) windowEnd), ?_, bounds.1, ?_⟩
    · apply List.mem_filterMap.mpr
      refine ⟨_, entry, ?_⟩
      dsimp only
      rw [starts, if_pos]
      constructor
      · omega
      · exact_mod_cast enough
    · exact lt_min bounds.2 before

theorem mem_hoursOf (hour : ℤ) :
    hour ∈ hoursOf windowFrom windowEnd ↔
      hourFloor hour = hour ∧ hourFloor windowFrom ≤ hour ∧ hour < windowEnd := by
  unfold hoursOf
  rw [List.mem_map]
  constructor
  · intro listed
    obtain ⟨index, within, same⟩ := listed
    rw [List.mem_range] at within
    unfold hourFloor at *
    omega
  · intro bounds
    refine ⟨((hour - hourFloor windowFrom) / 3600).toNat, ?_, ?_⟩
    · rw [List.mem_range]
      unfold hourFloor at *
      omega
    · unfold hourFloor at *
      omega

/-- Some of the intervals reach into the hour. -/
theorem collects_iff (intervals : List Interval) (hour : ℤ) :
    totalSeconds (intersectIntervals intervals
        [(max hour windowFrom, min (hour + 3600) windowEnd)]) > 0 ↔
      ∃ t, Covers intervals t ∧ (hour ≤ t ∧ t < hour + 3600) ∧ windowFrom ≤ t ∧ t < windowEnd := by
  have nonneg := totalSeconds_nonneg (intersectIntervals intervals
    [(max hour windowFrom, min (hour + 3600) windowEnd)])
  have part : ∀ t, Covers [(max hour windowFrom, min (hour + 3600) windowEnd)] t ↔
      (hour ≤ t ∧ t < hour + 3600) ∧ windowFrom ≤ t ∧ t < windowEnd := by
    intro t
    rw [covers_cons, or_iff_left (covers_nil t)]
    dsimp only
    omega
  rw [gt_iff_lt, nonneg.lt_iff_ne', ne_eq, totalSeconds_eq_zero_iff, not_forall]
  apply exists_congr
  intro t
  rw [not_not, covers_intersectIntervals, part]

/-- The hours of the window in which few of the lists have a part. -/
theorem covers_sparseHours (byHost : OrderedMap String (List Interval)) (t : ℤ) :
    Covers (sparseHours byHost windowFrom windowEnd) t ↔
      (windowFrom ≤ t ∧ t < windowEnd) ∧
        ((((byHost.values.filter fun intervals => intervals ≠ []).filter fun intervals =>
          totalSeconds (intersectIntervals intervals
            [(max (hourFloor t) windowFrom, min (hourFloor t + 3600) windowEnd)]) > 0).length : ℚ) <
          1 / 10 * (byHost.values.filter fun intervals => intervals ≠ []).length) := by
  unfold sparseHours
  dsimp only
  split
  · next empty =>
      rw [empty]
      simp
  · constructor
    · intro covered
      obtain ⟨interval, listed, lower, upper⟩ := covered
      obtain ⟨hour, inHours, few⟩ := List.mem_filterMap.mp listed
      obtain ⟨aligned, _⟩ := (mem_hoursOf hour).mp inHours
      split at few
      · next sparse =>
          have part := Option.some.inj few
          subst part
          dsimp only at lower upper
          have floored : hourFloor t = hour := (hourFloor_eq_iff aligned).mpr (by omega)
          rw [floored]
          exact ⟨by omega, sparse⟩
      · cases few
    · intro sparse
      obtain ⟨bounds, few⟩ := sparse
      have floor := hourFloor_le t
      have inHours : hourFloor t ∈ hoursOf windowFrom windowEnd := by
        apply (mem_hoursOf _).mpr
        unfold hourFloor
        omega
      refine ⟨_, List.mem_filterMap.mpr ⟨hourFloor t, inHours, if_pos few⟩, ?_⟩
      dsimp only
      omega

end Parts

namespace CollectedWindow

variable {window : CollectedWindow} {api : CoverageApi}

def rows (window : CollectedWindow) (api : CoverageApi) : List ZTrend :=
  api.trends (window.items.map (·.itemid)) window.windowFrom window.windowEnd

def fillFrom (window : CollectedWindow) (api : CoverageApi) : ℤ :=
  tailFrom (lastTrendHour (window.rows api)) window.windowEnd

def Fills (window : CollectedWindow) (api : CoverageApi) : Prop :=
  window.fillFrom api < window.windowEnd ∧
    window.windowEnd - window.fillFrom api ≤ 6 * 3600 ∧ window.fillFrom api ≥ window.windowFrom

instance : Decidable (window.Fills api) := inferInstanceAs (Decidable (_ ∧ _ ∧ _))

def fromTrends (window : CollectedWindow) (api : CoverageApi) :
    OrderedMap String (List Interval) :=
  foldBy (·.hostid) []
    (fun _ item => coveredFromTrends ((window.rows api).filter fun row => row.itemid = item.itemid)
      (parseDelay item.delay) window.windowFrom window.windowEnd)
    window.items

def filled (window : CollectedWindow) (api : CoverageApi) (item : IcmpItem) : List Interval :=
  coveredFromHistory
    (countBy (fun row : ZHistory => hourFloor row.clock)
      ((api.history (window.items.map (·.itemid)) (window.fillFrom api) window.windowEnd).filter
        fun row => row.itemid = item.itemid))
    (parseDelay item.delay) (window.fillFrom api) window.windowEnd

def byHost (window : CollectedWindow) (api : CoverageApi) : OrderedMap String (List Interval) :=
  if window.Fills api then
    window.items.foldl
      (fun byHost item => byHost.set item.hostid
        (mergeIntervals ((byHost.get? item.hostid).getD [] ++ window.filled api item)))
      (window.fromTrends api)
  else window.fromTrends api

/-- The maps of `icmpCoverage`, with each lookup by item resolved. -/
theorem icmpCoverage_eq (window : CollectedWindow) (api : CoverageApi) :
    api.icmpCoverage window.icmpItems window.windowFrom window.windowEnd window.outside =
      { byHost := (window.byHost api).mapValues fun _ intervals =>
          intersectIntervals intervals window.outside
        gaps := intersectIntervals (mergeIntervals (sparseHours
          ((window.byHost api).mapValues fun _ intervals =>
            intersectIntervals intervals window.outside)
          window.windowFrom window.windowEnd)) window.outside } := by
  have keys := keys_hostByItem window.distinct
  have entries := entries_hostByItem window.distinct
  have resolved : ∀ item : IcmpItem,
      ((groupBy (·.itemid) (window.rows api)).get? item.itemid).getD [] =
        (window.rows api).filter fun row => row.itemid = item.itemid := by
    intro item
    exact groupBy_get? _ _ _
  have counted : ∀ item : IcmpItem,
      coveredFromHistory
        (((historyCounts (api.history (window.items.map (·.itemid)) (window.fillFrom api)
          window.windowEnd)).get? item.itemid).getD .empty)
        (parseDelay item.delay) (window.fillFrom api) window.windowEnd =
      window.filled api item := by
    intro item
    rw [historyCounts_of_item, filled]
  unfold CoverageApi.icmpCoverage
  dsimp only
  rw [keys, entries]
  simp only [List.foldl_map]
  unfold byHost fromTrends foldBy
  simp only [← counted, ← resolved]
  rfl

theorem items_hostids (window : CollectedWindow) : (window.items.map (·.hostid)).Nodup :=
  chosenItems_hostids _

theorem items_itemids (window : CollectedWindow) : (window.items.map (·.itemid)).Nodup :=
  chosenItems_itemids window.distinct

theorem get?_fromTrends {item : IcmpItem} (member : item ∈ window.items) :
    ((window.fromTrends api).get? item.hostid).getD [] =
      coveredFromTrends ((window.rows api).filter fun row => row.itemid = item.itemid)
        (parseDelay item.delay) window.windowFrom window.windowEnd := by
  rw [fromTrends, foldBy_getD, filter_key_eq_singleton window.items_hostids member]
  rfl

theorem get?_byHost {item : IcmpItem} (member : item ∈ window.items) :
    ((window.byHost api).get? item.hostid).getD [] =
      if window.Fills api then
        mergeIntervals (((window.fromTrends api).get? item.hostid).getD [] ++
          window.filled api item)
      else ((window.fromTrends api).get? item.hostid).getD [] := by
  unfold byHost
  split
  · have folded := getD_foldl_foldBy (·.hostid) ([] : List Interval)
      (fun before (item : IcmpItem) => mergeIntervals (before ++ window.filled api item))
      window.items (window.fromTrends api) item.hostid
    rw [folded, filter_key_eq_singleton window.items_hostids member]
    rfl
  · rfl

theorem mem_keys_byHost (hostid : String) :
    hostid ∈ (window.byHost api).keys ↔ ∃ item ∈ window.items, item.hostid = hostid := by
  have started : hostid ∈ (window.fromTrends api).keys ↔
      ∃ item ∈ window.items, item.hostid = hostid := by
    unfold fromTrends foldBy
    rw [mem_keys_foldl_foldBy (fun item : IcmpItem => item.hostid) ([] : List Interval)
      (fun _ item => coveredFromTrends
        ((window.rows api).filter fun row => row.itemid = item.itemid)
        (parseDelay item.delay) window.windowFrom window.windowEnd)]
    exact or_iff_right (by simp [OrderedMap.keys])
  unfold byHost
  split
  · rw [mem_keys_foldl_foldBy (fun item : IcmpItem => item.hostid) ([] : List Interval)
      (fun before item => mergeIntervals (before ++ window.filled api item)), started, or_self]
  · exact started

theorem mem_rows (lists : api.Lists window.store) (row : ZTrend) :
    row ∈ window.rows api ↔
      row ∈ window.store.trends ∧ row.itemid ∈ window.items.map (·.itemid) ∧
        hourFloor window.windowFrom ≤ row.clock ∧ row.clock ≤ window.windowEnd :=
  lists.mem_trends window.items_itemids window.forward row

/-- The tail begins on an hour. -/
theorem fillFrom_aligned (lists : api.Lists window.store) :
    hourFloor (window.fillFrom api) = window.fillFrom api := by
  unfold fillFrom tailFrom
  split
  · next hour last =>
      obtain ⟨⟨row, member, reached⟩, _⟩ := lastTrendHour_eq_some last
      have aligned := window.store.hourly row ((mem_rows lists row).mp member).1
      rw [reached] at aligned
      unfold hourFloor at aligned ⊢
      omega
  · exact hourFloor_idem _

theorem trendCounts_iff (lists : api.Lists window.store) {item : IcmpItem}
    (member : item ∈ window.items) {t : ℤ} (measured : window.Measured t) :
    Covers (((window.fromTrends api).get? item.hostid).getD []) t ↔
      window.TrendCounts item (hourFloor t) := by
  have known : item.itemid ∈ window.items.map (·.itemid) := List.mem_map.mpr ⟨item, member, rfl⟩
  obtain ⟨bounds, _⟩ := measured
  have floor := hourFloor_le t
  rw [get?_fromTrends member, covers_coveredFromTrends, and_iff_left bounds]
  constructor
  · intro counted
    obtain ⟨row, inPart, enough, lower, upper⟩ := counted
    obtain ⟨inRows, own⟩ := List.mem_filter.mp inPart
    have stored := ((mem_rows lists row).mp inRows).1
    have floored := (hourFloor_eq_iff (window.store.hourly row stored)).mpr ⟨lower, upper⟩
    exact ⟨row, stored, of_decide_eq_true own, floored.symm, enough⟩
  · intro counted
    obtain ⟨row, stored, own, clocked, enough⟩ := counted
    have inRows : row ∈ window.rows api := by
      apply (mem_rows lists row).mpr
      refine ⟨stored, own ▸ known, ?_⟩
      rw [clocked]
      unfold hourFloor
      omega
    exact ⟨row, List.mem_filter.mpr ⟨inRows, decide_eq_true own⟩, enough, by omega, by omega⟩

theorem filled_iff (lists : api.Lists window.store) {item : IcmpItem}
    (member : item ∈ window.items) {t : ℤ} (measured : window.Measured t) :
    Covers (window.filled api item) t ↔
      window.fillFrom api ≤ hourFloor t ∧ window.HistoryCounts item (hourFloor t) := by
  have known : item.itemid ∈ window.items.map (·.itemid) := List.mem_map.mpr ⟨item, member, rfl⟩
  obtain ⟨⟨_, before⟩, _⟩ := measured
  have aligned := fillFrom_aligned lists
  have floor := hourFloor_le t
  have answered : ((api.history (window.items.map (·.itemid)) (window.fillFrom api)
      window.windowEnd).filter fun row => row.itemid = item.itemid).Perm
      (window.store.history.filter fun row => row.itemid = item.itemid ∧
        window.fillFrom api ≤ row.clock ∧ row.clock ≤ window.windowEnd) :=
    lists.history_of_item window.items_itemids known _
  have late : ∀ row ∈ (api.history (window.items.map (·.itemid)) (window.fillFrom api)
      window.windowEnd).filter (fun row => row.itemid = item.itemid),
      window.fillFrom api ≤ row.clock := by
    intro row inPart
    have kept := (List.mem_filter.mp (answered.mem_iff.mp inPart)).2
    exact (of_decide_eq_true kept).2.1
  have started : window.fillFrom api ≤ t ↔ window.fillFrom api ≤ hourFloor t := by
    unfold hourFloor at aligned ⊢
    omega
  rw [filled, covers_coveredFromHistory _ aligned late, started]
  apply and_congr_right
  intro after
  have counted : (((api.history (window.items.map (·.itemid)) (window.fillFrom api)
      window.windowEnd).filter fun row => row.itemid = item.itemid).filter fun row =>
      hourFloor row.clock = hourFloor t).length = window.samples item (hourFloor t) := by
    rw [(answered.filter _).length_eq, List.filter_filter, samples]
    congr 1
    apply List.filter_congr
    intro row _
    rw [← Bool.decide_and, decide_eq_decide]
    constructor
    · intro kept
      exact ⟨kept.2.1, kept.1, kept.2.2.2⟩
    · intro kept
      refine ⟨kept.2.1, kept.1, ?_, kept.2.2⟩
      have rowFloor := hourFloor_le row.clock
      omega
  rw [counted, HistoryCounts]
  constructor
  · intro filled
    exact filled.2.2
  · intro enough
    refine ⟨before, ?_, enough⟩
    have span : (0 : ℚ) < (min (hourFloor t + 3600) window.windowEnd - hourFloor t : ℤ) := by
      exact_mod_cast (by omega : 0 < min (hourFloor t + 3600) window.windowEnd - hourFloor t)
    by_contra ended
    have zero : window.samples item (hourFloor t) = 0 := by omega
    rw [zero, Nat.cast_zero, zero_mul] at enough
    linarith

def Reaches (window : CollectedWindow) (api : CoverageApi) (hour : ℤ) : Prop :=
  window.Fills api ∧ window.fillFrom api ≤ hour

theorem covers_byHost (lists : api.Lists window.store) {item : IcmpItem}
    (member : item ∈ window.items) {t : ℤ} (measured : window.Measured t) :
    Covers (((window.byHost api).get? item.hostid).getD []) t ↔
      window.TrendCounts item (hourFloor t) ∨
        window.Reaches api (hourFloor t) ∧ window.HistoryCounts item (hourFloor t) := by
  rw [get?_byHost member]
  by_cases fills : window.Fills api
  · rw [if_pos fills, covers_mergeIntervals, covers_append, trendCounts_iff lists member measured,
      filled_iff lists member measured, Reaches, and_iff_right fills]
  · rw [if_neg fills, trendCounts_iff lists member measured, Reaches]
    simp [fills]

/-- Where the two tails agree on an hour. -/
theorem reaches_iff_inTail (lists : api.Lists window.store) {t : ℤ}
    (measured : window.Measured t) :
    (window.Reaches api (hourFloor t) ↔ window.InTail (hourFloor t)) ↔
      window.Stitched (hourFloor t) := by
  obtain ⟨bounds, _⟩ := measured
  have floor := hourFloor_le t
  have forward := window.forward
  unfold Stitched
  by_cases atEnd : window.RowAtEnd
  · rw [and_iff_left (fun absent => absurd atEnd absent), imp_iff_right atEnd]
    obtain ⟨row, stored, known, clocked⟩ := atEnd
    have inRows : row ∈ window.rows api := by
      apply (mem_rows lists row).mpr
      refine ⟨stored, known, ?_⟩
      unfold hourFloor
      omega
    have started : window.fillFrom api = window.windowEnd + 3600 := by
      unfold fillFrom
      cases last : lastTrendHour (window.rows api) with
      | none =>
          rw [lastTrendHour_eq_none last] at inRows
          cases inRows
      | some hour =>
          obtain ⟨⟨other, member, reached⟩, bounded⟩ := lastTrendHour_eq_some last
          have below := ((mem_rows lists other).mp member).2.2.2
          have above := bounded row inRows
          have same : hour = window.windowEnd := by omega
          rw [same, tailFrom]
    have closed : ¬ window.Reaches api (hourFloor t) := by
      intro reaches
      have fills := reaches.1.1
      omega
    exact iff_iff_eq.trans (by rw [eq_false closed]; simp)
  · rw [and_iff_right (fun present => absurd present atEnd), imp_iff_right atEnd]
    have same : ∀ row, row ∈ window.rows api ↔ row ∈ window.windowTrends := by
      intro row
      rw [mem_rows lists, windowTrends, List.mem_filter, decide_eq_true_iff]
      constructor
      · intro found
        obtain ⟨stored, known, lower, upper⟩ := found
        refine ⟨stored, known, lower, lt_of_le_of_ne upper ?_⟩
        intro clocked
        exact atEnd ⟨row, stored, known, clocked⟩
      · intro found
        obtain ⟨stored, known, lower, upper⟩ := found
        exact ⟨stored, known, lower, upper.le⟩
    have last : lastTrendHour (window.rows api) = lastTrendHour window.windowTrends :=
      lastTrendHour_congr same
    unfold Reaches Fills InTail fillFrom trendsEnd
    rw [last]
    cases latest : lastTrendHour window.windowTrends with
    | none =>
        have empty := lastTrendHour_eq_none latest
        simp only [tailFrom, empty, forall_const]
        have endFloor := hourFloor_le window.windowEnd
        unfold hourFloor at *
        omega
    | some hour =>
        obtain ⟨⟨row, member, reached⟩, _⟩ := lastTrendHour_eq_some latest
        have lower := (of_decide_eq_true (List.mem_filter.mp member).2).2.1
        have nonempty : window.windowTrends ≠ [] := List.ne_nil_of_mem member
        simp only [tailFrom, nonempty, false_implies, iff_true]
        unfold hourFloor at *
        omega

theorem covers_icmpCoverage {item : IcmpItem} (t : ℤ) :
    Covers (((api.icmpCoverage window.icmpItems window.windowFrom window.windowEnd
        window.outside).byHost.get? item.hostid).getD []) t ↔
      window.Measured t ∧ Covers (((window.byHost api).get? item.hostid).getD []) t := by
  rw [icmpCoverage_eq, OrderedMap.get?_mapValues]
  cases (window.byHost api).get? item.hostid with
  | none => simp
  | some intervals =>
      rw [Option.map_some, Option.getD_some, Option.getD_some, covers_intersectIntervals,
        covers_outside, and_comm]

/-- The code's intervals, with its own tail. -/
theorem covers_icmpCoverage_iff (lists : api.Lists window.store) {item : IcmpItem}
    (member : item ∈ window.items) (t : ℤ) :
    Covers (((api.icmpCoverage window.icmpItems window.windowFrom window.windowEnd
        window.outside).byHost.get? item.hostid).getD []) t ↔
      window.Measured t ∧ (window.TrendCounts item (hourFloor t) ∨
        window.Reaches api (hourFloor t) ∧ window.HistoryCounts item (hourFloor t)) := by
  rw [covers_icmpCoverage]
  apply and_congr_right
  intro measured
  exact covers_byHost lists member measured

section Gaps

variable {coverage : IcmpCoverage}

theorem values_perm
    (hosts : ∀ hostid, hostid ∈ coverage.byHost.keys ↔ ∃ item ∈ window.items, item.hostid = hostid) :
    coverage.byHost.values.Perm
      (window.items.map fun item => (coverage.byHost.get? item.hostid).getD []) := by
  have keys : coverage.byHost.keys.Perm (window.items.map (·.hostid)) := by
    apply (List.perm_ext_iff_of_nodup coverage.byHost.keys_nodup window.items_hostids).mpr
    intro hostid
    rw [hosts, List.mem_map]
  have values := keys.map fun hostid => (coverage.byHost.get? hostid).getD []
  rw [← OrderedMap.values_eq_map_keys, List.map_map] at values
  exact values

theorem ne_nil_iff_covers {intervals : List Interval} (once : Separated intervals) :
    intervals ≠ [] ↔ ∃ t, Covers intervals t := by
  constructor
  · intro nonempty
    obtain ⟨interval, member⟩ := List.exists_mem_of_ne_nil _ nonempty
    exact ⟨interval.1, interval, member, le_rfl, once.proper interval member⟩
  · intro covered
    obtain ⟨t, interval, member, _⟩ := covered
    exact List.ne_nil_of_mem member

/-- The code counts the items of an hour as `Sparse` does. -/
theorem sparse_iff
    (hosts : ∀ hostid, hostid ∈ coverage.byHost.keys ↔ ∃ item ∈ window.items, item.hostid = hostid)
    (once : ∀ item ∈ window.items, Separated ((coverage.byHost.get? item.hostid).getD []))
    (collected : ∀ item ∈ window.items, ∀ t,
      Covers ((coverage.byHost.get? item.hostid).getD []) t ↔ window.Collected item t)
    {hour : ℤ} (aligned : hourFloor hour = hour) :
    (((coverage.byHost.values.filter fun intervals => intervals ≠ []).filter fun intervals =>
        totalSeconds (intersectIntervals intervals
          [(max hour window.windowFrom, min (hour + 3600) window.windowEnd)]) > 0).length : ℚ) <
      1 / 10 * (coverage.byHost.values.filter fun intervals => intervals ≠ []).length ↔
    window.Sparse hour := by
  classical
  have values := values_perm hosts
  have active : (coverage.byHost.values.filter fun intervals => intervals ≠ []).length =
      (window.items.filter fun item => ∃ t, window.Collected item t).length := by
    rw [(values.filter _).length_eq, List.filter_map, List.length_map]
    congr 1
    apply List.filter_congr
    intro item member
    rw [Function.comp_apply, decide_eq_decide, ne_nil_iff_covers (once item member)]
    simp only [collected item member]
  have present : ((coverage.byHost.values.filter fun intervals => intervals ≠ []).filter
        fun intervals => totalSeconds (intersectIntervals intervals
          [(max hour window.windowFrom, min (hour + 3600) window.windowEnd)]) > 0).length =
      (window.items.filter fun item =>
        ∃ t, hourFloor t = hour ∧ window.Collected item t).length := by
    rw [List.filter_filter, (values.filter _).length_eq, List.filter_map, List.length_map]
    congr 1
    apply List.filter_congr
    intro item member
    rw [Function.comp_apply, ← Bool.decide_and, decide_eq_decide, collects_iff,
      ne_nil_iff_covers (once item member)]
    simp only [collected item member]
    constructor
    · intro counted
      obtain ⟨⟨t, inside, inHour, _⟩, _⟩ := counted
      exact ⟨t, (hourFloor_eq_iff aligned).mpr inHour, inside⟩
    · intro counted
      obtain ⟨t, floored, inside⟩ := counted
      exact ⟨⟨t, inside, (hourFloor_eq_iff aligned).mp floored, inside.1.1⟩, t, inside⟩
  rw [active, present, Sparse]
  constructor
  · intro few
    have scaled : ((10 * (window.items.filter fun item =>
        ∃ t, hourFloor t = hour ∧ window.Collected item t).length : ℕ) : ℚ) <
        (window.items.filter fun item => ∃ t, window.Collected item t).length := by
      push_cast
      linarith
    exact_mod_cast scaled
  · intro few
    have scaled : ((10 * (window.items.filter fun item =>
        ∃ t, hourFloor t = hour ∧ window.Collected item t).length : ℕ) : ℚ) <
        (window.items.filter fun item => ∃ t, window.Collected item t).length := by
      exact_mod_cast few
    push_cast at scaled
    linarith

end Gaps

/-- `icmpCoverage` covers exactly the collected hours just when the tails are stitched
where history alone counts. -/
theorem coverage_exact_iff (window : CollectedWindow) (api : CoverageApi)
    (lists : api.Lists window.store) :
    window.CoversExactly (api.icmpCoverage window.icmpItems window.windowFrom window.windowEnd
      window.outside) ↔ window.TailsStitched := by
  constructor
  · intro exact' item member t measured untrended enough
    have collected := exact'.collected item member t
    rw [covers_icmpCoverage_iff lists member, Collected] at collected
    rw [← reaches_iff_inTail lists measured]
    simpa [measured, untrended, enough] using collected
  · intro stitched
    have collected : ∀ item ∈ window.items, ∀ t,
        Covers (((api.icmpCoverage window.icmpItems window.windowFrom window.windowEnd
          window.outside).byHost.get? item.hostid).getD []) t ↔ window.Collected item t := by
      intro item member t
      rw [covers_icmpCoverage_iff lists member, Collected]
      apply and_congr_right
      intro measured
      by_cases trended : window.TrendCounts item (hourFloor t)
      · simp [trended]
      · by_cases enough : window.HistoryCounts item (hourFloor t)
        · rw [(reaches_iff_inTail lists measured).mpr
            (stitched item member t measured trended enough)]
        · simp [enough]
    have hosts : ∀ hostid, hostid ∈ (api.icmpCoverage window.icmpItems window.windowFrom
        window.windowEnd window.outside).byHost.keys ↔
        ∃ item ∈ window.items, item.hostid = hostid := by
      intro hostid
      have keys := @mem_keys_byHost window api hostid
      rw [← keys, icmpCoverage_eq]
      simp [OrderedMap.keys, OrderedMap.mapValues]
    have once : ∀ entry ∈ (api.icmpCoverage window.icmpItems window.windowFrom window.windowEnd
        window.outside).byHost.entries, Separated entry.2 := by
      intro entry member
      rw [icmpCoverage_eq] at member
      obtain ⟨before, _, same⟩ := List.mem_map.mp member
      rw [← same]
      exact intersectIntervals_separated _ _
    have ownOnce : ∀ item ∈ window.items, Separated (((api.icmpCoverage window.icmpItems
        window.windowFrom window.windowEnd window.outside).byHost.get? item.hostid).getD []) := by
      intro item _
      cases found : (api.icmpCoverage window.icmpItems window.windowFrom window.windowEnd
          window.outside).byHost.get? item.hostid with
      | none => exact Separated.nil
      | some intervals => exact once _ ((OrderedMap.get?_eq_some_iff _ _ _).mp found)
    exact {
      hosts := hosts
      once := once
      collected := collected
      gapsOnce := intersectIntervals_separated _ _
      gaps := by
        intro t
        have few := sparse_iff hosts ownOnce collected (hourFloor_idem t)
        unfold CoverageApi.icmpCoverage at few ⊢
        dsimp only at few ⊢
        rw [covers_intersectIntervals, covers_mergeIntervals, covers_sparseHours, few,
          covers_outside]
        constructor
        · intro gap
          exact ⟨gap.2, gap.1.2⟩
        · intro gap
          exact ⟨⟨gap.1.1, gap.2⟩, gap.1⟩ }

end CollectedWindow

section Example

def CoverageStore.answers (store : CoverageStore) : CoverageApi where
  trendGet ids lower upper :=
    store.trends.filter fun row => row.itemid ∈ ids ∧ lower ≤ row.clock ∧ row.clock ≤ upper
  historyGet ids lower upper :=
    store.history.filter fun row => row.itemid ∈ ids ∧ lower ≤ row.clock ∧ row.clock ≤ upper
  trendEnds := id
  historyEnds := id

theorem CoverageStore.answers_lists (store : CoverageStore) : store.answers.Lists store :=
  ⟨fun _ _ _ => .rfl, fun _ _ _ => .rfl, fun _ => .rfl, fun _ => .rfl⟩

def pingedEachMinute : IcmpItem where
  hostid := "10084"
  state := "0"
  lastclock := "6540"
  itemid := "28250"
  key_ := "icmpping"
  delay := "1m"

def firstHours (trends : List ZTrend) (hourly : ∀ row ∈ trends, hourFloor row.clock = row.clock) :
    CollectedWindow where
  store :=
    { trends
      history := (List.range 110).map fun minute : Nat => ⟨"28250", 60 * (minute : ℤ)⟩
      hourly }
  icmpItems := [pingedEachMinute]
  noDataWindows := []
  windowFrom := 0
  windowEnd := 6600
  forward := by decide
  distinct := by decide

def withTrends : CollectedWindow := firstHours [⟨"28250", 0, 60⟩] (by decide)

def withoutTrends : CollectedWindow := firstHours [] nofun

namespace CollectedWindow

theorem coverage_exact_withTrends :
    withTrends.CoversExactly (withTrends.store.answers.icmpCoverage withTrends.icmpItems
      withTrends.windowFrom withTrends.windowEnd withTrends.outside) := by
  apply (coverage_exact_iff withTrends _ withTrends.store.answers_lists).mpr
  intro item _ t _ _ _
  constructor
  · intro atEnd
    obtain ⟨row, stored, _, clocked⟩ := atEnd
    rw [List.mem_singleton.mp stored] at clocked
    cases clocked
  · intro _ empty
    exact absurd empty (by decide +kernel)

/-- Before the first trend row is written nothing of the first hour counts, though the
history holds all its samples. -/
theorem first_hour_lost :
    ¬ withoutTrends.CoversExactly (withoutTrends.store.answers.icmpCoverage
      withoutTrends.icmpItems withoutTrends.windowFrom withoutTrends.windowEnd
      withoutTrends.outside) := by
  intro exact'
  have covered : (withoutTrends.store.answers.icmpCoverage withoutTrends.icmpItems
      withoutTrends.windowFrom withoutTrends.windowEnd withoutTrends.outside).byHost.get? "10084" =
      some [(3600, 6600)] := by
    decide +kernel
  have member : pingedEachMinute ∈ withoutTrends.items := by
    decide +kernel
  have tail : withoutTrends.InTail (hourFloor 0) := ⟨by decide +kernel, by decide +kernel⟩
  have enough : withoutTrends.HistoryCounts pingedEachMinute (hourFloor 0) := by
    unfold HistoryCounts
    decide +kernel
  have collected : withoutTrends.Collected pingedEachMinute 0 :=
    ⟨⟨by decide, by decide⟩, .inr ⟨tail, enough⟩⟩
  rw [← exact'.collected _ member, show pingedEachMinute.hostid = "10084" from rfl, covered]
    at collected
  exact absurd collected (by decide)

end CollectedWindow

end Example

end ZabbixPortal.Sli
