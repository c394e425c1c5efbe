import ZabbixPortal.Sli.HostFigures
import ZabbixPortal.Sli.WebChecks
import Mathlib.Algebra.BigOperators.Ring.Finset
import Mathlib.Algebra.Order.BigOperators.Group.Finset
import Mathlib.Data.List.Forall2

/-! A web check's downtime against what failed: the hours in which every check failed, and in the
other hours the failing samples. The total is kept within what was covered, one hour's samples are
not kept within the hour. -/

set_option autoImplicit false

namespace ZabbixPortal.Sli

open Foundation Foundation.HalfOpen

namespace WebTrend

variable (delay : Nat) (historyFloor : ℤ) (row : WebTrend)

/-- At least half of the expected checks ran in the hour. -/
def Counted : Prop := 1 / 2 * (3600 / delay) ≤ (row.num : ℚ)

def Passed : Prop := row.Counted delay ∧ row.value_max = 0

def Failed : Prop := row.Counted delay ∧ row.value_max ≠ 0 ∧ row.value_min > 0

/-- Some of the checks failed, some did not, and the history still tells which. -/
def Mixed : Prop :=
  row.Counted delay ∧ row.value_max ≠ 0 ∧ ¬ row.value_min > 0 ∧ row.clock ≥ historyFloor

instance : Decidable (row.Counted delay) :=
  inferInstanceAs (Decidable (1 / 2 * (3600 / delay) ≤ (row.num : ℚ)))

instance : Decidable (row.Passed delay) :=
  inferInstanceAs (Decidable (row.Counted delay ∧ row.value_max = 0))

instance : Decidable (row.Failed delay) :=
  inferInstanceAs (Decidable (row.Counted delay ∧ row.value_max ≠ 0 ∧ row.value_min > 0))

instance : Decidable (row.Mixed delay historyFloor) :=
  inferInstanceAs (Decidable (row.Counted delay ∧ row.value_max ≠ 0 ∧ ¬ row.value_min > 0 ∧
    row.clock ≥ historyFloor))

end WebTrend

/-! ## What counts -/

section Spec

variable (context : SliContext) (delay : Nat) (historyFloor : ℤ) (rows : List WebTrend)
  (hist : List WebSample)

def SliContext.Counts (t : ℤ) : Prop :=
  (context.windowFrom ≤ t ∧ t < context.windowEnd) ∧ ¬ Covers context.noDataWindows t

noncomputable instance (t : ℤ) : Decidable (context.Counts t) :=
  inferInstanceAs (Decidable ((context.windowFrom ≤ t ∧ t < context.windowEnd) ∧
    ¬ Covers context.noDataWindows t))

noncomputable def secondsIn (intervals : List Interval) : ℤ :=
  ((Finset.Ico context.windowFrom context.windowEnd).filter fun t =>
    ¬ Covers context.noDataWindows t ∧ Covers intervals t).card

def failedHours : List Interval := (rows.filter (·.Failed delay)).map (·.hour)

def mixedClocks : List ℤ := (rows.filter (·.Mixed delay historyFloor)).map (·.clock)

def collectedHours : List Interval :=
  (rows.filter fun row => row.Passed delay ∨ row.Failed delay ∨ row.Mixed delay historyFloor).map
    (·.hour)

noncomputable def failures (h : ℤ) : Nat :=
  hist.countP fun sample => context.Counts sample.clock ∧ hourFloor sample.clock = h ∧
    sample.value > 0

/-- What the failing samples of an hour stand for, and no more than the hour has. -/
noncomputable def failedOf (h : ℤ) : ℤ := min (failures context hist h * delay) (secondsIn context [(h, h + 3600)])

/-- What failed: the failing hours, and in each mixed hour its failing samples. -/
noncomputable def failedSeconds : ℤ :=
  secondsIn context (failedHours delay rows) +
    ∑ h ∈ (mixedClocks delay historyFloor rows).toFinset, failedOf context delay hist h

structure OnlyWhatFailed (row : SliWeb) : Prop where
  nonneg : 0 ≤ row.downtime
  covered : row.downtime ≤ secondsIn context (collectedHours delay historyFloor rows)
  figure : ∀ sli, row.sli = some sli → 0 ≤ sli ∧ sli ≤ 100
  failed : row.downtime ≤ failedSeconds context delay historyFloor rows hist

/-- No mixed hour has more failing samples than it has seconds for; or nothing that was
collected passed. -/
def FitsHours : Prop :=
  (∀ h ∈ mixedClocks delay historyFloor rows,
    failures context hist h * delay ≤ secondsIn context [(h, h + 3600)]) ∨
  secondsIn context (collectedHours delay historyFloor rows) ≤
    failedSeconds context delay historyFloor rows hist

end Spec

section Figures

variable {context : SliContext} {delay : Nat} {historyFloor : ℤ} {rows : List WebTrend}
  {hist : List WebSample}

theorem covers_outsideDeclared_iff (t : ℤ) :
    Covers context.outsideDeclared t ↔ context.Counts t := by
  rw [SliContext.outsideDeclared, covers_complementIntervals, SliContext.declared,
    covers_mergeIntervals, covers_clipIntervals, SliContext.Counts]
  tauto

theorem totalSeconds_eq_secondsIn {intervals hours : List Interval}
    (same : ∀ t, Covers intervals t ↔ Covers hours t ∧ context.Counts t) :
    totalSeconds intervals = secondsIn context hours := by
  rw [totalSeconds_eq_card, secondsIn]
  congr 2
  ext t
  rw [mem_points, same, Finset.mem_filter, Finset.mem_Ico, SliContext.Counts]
  tauto

theorem secondsIn_eq (hours : List Interval) :
    secondsIn context hours = totalSeconds (intersectIntervals hours context.outsideDeclared) := by
  refine (totalSeconds_eq_secondsIn fun t => ?_).symm
  rw [covers_intersectIntervals, covers_outsideDeclared_iff]

theorem readHours_eq (rows : List WebTrend) :
    readHours delay historyFloor rows =
      ⟨(rows.filter fun row => row.Passed delay ∨ row.Failed delay).map (·.hour),
        failedHours delay rows, mixedClocks delay historyFloor rows⟩ := by
  unfold readHours
  induction rows using List.reverseRecOn with
  | nil => rfl
  | append_singleton rows row ih =>
      rw [List.foldl_concat, ih, readHour]
      simp only [failedHours, mixedClocks, List.filter_append, List.map_append]
      split
      · next few =>
          have uncounted : ¬ row.Counted delay := not_le.mpr few
          simp [WebTrend.Passed, WebTrend.Failed, WebTrend.Mixed, uncounted]
      · next enough =>
          have counted : row.Counted delay := not_lt.mp enough
          split
          · next passed => simp [WebTrend.Passed, WebTrend.Failed, WebTrend.Mixed, counted, passed]
          · next nonzero =>
              split
              · next failed =>
                  simp [WebTrend.Passed, WebTrend.Failed, WebTrend.Mixed, counted, nonzero, failed]
              · next left =>
                  split
                  · next recent =>
                      have mixed : row.Mixed delay historyFloor := ⟨counted, nonzero, left, recent⟩
                      simp [WebTrend.Passed, WebTrend.Failed, mixed, nonzero, left]
                  · next old =>
                      simp [WebTrend.Passed, WebTrend.Failed, WebTrend.Mixed, nonzero, left, old]

/-- Counting by the hour. -/
theorem sum_failures (mixed : Finset ℤ) :
    ∑ h ∈ mixed, failures context hist h =
      hist.countP fun sample => context.Counts sample.clock ∧ hourFloor sample.clock ∈ mixed ∧
        sample.value > 0 := by
  unfold failures
  induction hist with
  | nil => simp
  | cons sample rest ih =>
      simp only [List.countP_cons, Finset.sum_add_distrib, ih, Nat.add_left_cancel_iff,
        decide_eq_true_eq]
      by_cases failing : context.Counts sample.clock ∧ sample.value > 0
      · obtain ⟨counts, positive⟩ := failing
        simp only [counts, positive, and_true, true_and]
        exact Finset.sum_ite_eq mixed _ fun _ => 1
      · have never : ∀ p : Prop, ¬ (context.Counts sample.clock ∧ p ∧ sample.value > 0) :=
          fun p all => failing ⟨all.1, all.2.2⟩
        simp [never]

private theorem foldl_delay (holds : WebSample → Prop) [DecidablePred holds] (down : ℤ) :
    hist.foldl (fun down row => if holds row then down + (delay : ℤ) else down) down =
      down + (hist.countP fun row => holds row : ℕ) * delay := by
  induction hist generalizing down with
  | nil => simp
  | cons row rest ih =>
      rw [List.foldl_cons, ih, List.countP_cons]
      by_cases failing : holds row
      · simp only [failing, if_true, decide_true]
        push_cast
        ring
      · simp [failing]

theorem mixedDown_eq (mixed : List ℤ) :
    mixedDown delay mixed context.outsideDeclared hist =
      ∑ h ∈ mixed.toFinset, (failures context hist h : ℤ) * delay := by
  rw [← Finset.sum_mul, ← Nat.cast_sum, sum_failures, mixedDown, foldl_delay, zero_add]
  congr 3
  funext sample
  have counts : (context.outsideDeclared.any fun interval =>
      interval.1 ≤ sample.clock ∧ sample.clock < interval.2) = true ↔
        context.Counts sample.clock := by
    rw [← covers_outsideDeclared_iff, List.any_eq_true]
    simp only [decide_eq_true_eq, Covers]
  simp only [counts, List.mem_toFinset]

theorem covers_hours_iff {holds : WebTrend → Prop} [DecidablePred holds] (t : ℤ) :
    Covers ((rows.filter fun row => holds row).map (·.hour)) t ↔
      ∃ row ∈ rows, holds row ∧ row.clock ≤ t ∧ t < row.clock + 3600 := by
  simp only [Covers, List.mem_map, List.mem_filter, decide_eq_true_eq, WebTrend.hour]
  constructor
  · rintro ⟨_, ⟨row, ⟨member, held⟩, rfl⟩, inside⟩
    exact ⟨row, member, held, inside⟩
  · rintro ⟨row, member, held, inside⟩
    exact ⟨_, ⟨row, ⟨member, held⟩, rfl⟩, inside⟩

theorem covers_read_iff (t : ℤ) :
    Covers ((readHours delay historyFloor rows).covered ++
      (readHours delay historyFloor rows).mixed.map fun h => (h, h + 3600)) t ↔
      Covers (collectedHours delay historyFloor rows) t := by
  have mixed : (mixedClocks delay historyFloor rows).map (fun h => (h, h + 3600)) =
      (rows.filter (·.Mixed delay historyFloor)).map (·.hour) := by
    rw [mixedClocks, List.map_map]
    rfl
  rw [readHours_eq, covers_append, mixed, covers_hours_iff, covers_hours_iff, collectedHours,
    covers_hours_iff, ← exists_or]
  refine exists_congr fun row => ?_
  tauto

theorem failed_collected {t : ℤ} (failed : Covers (failedHours delay rows) t) :
    Covers (collectedHours delay historyFloor rows) t := by
  obtain ⟨row, member, held, inside⟩ := (covers_hours_iff t).mp failed
  exact (covers_hours_iff t).mpr ⟨row, member, .inr (.inl held), inside⟩

end Figures

/-- Keeping each amount within its bound takes nothing away exactly when each is within it. -/
theorem sum_le_sum_min_iff {ι : Type} (items : Finset ι) (amount bound : ι → ℤ) :
    ∑ item ∈ items, amount item ≤ ∑ item ∈ items, min (amount item) (bound item) ↔
      ∀ item ∈ items, amount item ≤ bound item := by
  constructor
  · intro all item member
    by_contra more
    have less : ∑ item ∈ items, min (amount item) (bound item) < ∑ item ∈ items, amount item :=
      Finset.sum_lt_sum (fun other _ => min_le_left _ _)
        ⟨item, member, by rw [min_eq_right (not_le.mp more).le]; exact not_le.mp more⟩
    exact absurd all (not_le.mpr less)
  · intro each
    exact Finset.sum_le_sum fun item member => le_min le_rfl (each item member)

section Scenario

variable (api : WebApi) (context : SliContext) (now : ℤ) (trends : List WebTrend) (item : WebItem)

def rowsOf : List WebTrend := trends.filter fun t => t.itemid = item.itemid

def samplesOf : List WebSample :=
  mixedHistory api item.itemid
    (mixedClocks (parseDelay item.delay) (now - 31 * 86400) (rowsOf trends item))

def checkRow : SliWeb :=
  webScenario api context.minCoverage context.windowFrom context.windowEnd now
    context.estateSeconds context.outsideDeclared trends item

/-- What the source adds up for a check before it is kept within the covered seconds. -/
noncomputable def summedDown : ℤ :=
  let delay := parseDelay item.delay
  let floor := now - 31 * 86400
  secondsIn context (failedHours delay (rowsOf trends item)) +
    ∑ h ∈ (mixedClocks delay floor (rowsOf trends item)).toFinset,
      (failures context (samplesOf api now trends item) h : ℤ) * delay

noncomputable def collectedSeconds : ℤ :=
  secondsIn context
    (collectedHours (parseDelay item.delay) (now - 31 * 86400) (rowsOf trends item))

theorem coveredSec_eq (delay : Nat) (historyFloor : ℤ) (rows : List WebTrend) :
    totalSeconds (intersectIntervals ((readHours delay historyFloor rows).covered ++
      (readHours delay historyFloor rows).mixed.map fun h => (h, h + 3600))
      context.outsideDeclared) =
      secondsIn context (collectedHours delay historyFloor rows) := by
  refine totalSeconds_eq_secondsIn fun t => ?_
  rw [covers_intersectIntervals, covers_read_iff, covers_outsideDeclared_iff]

theorem downSec_eq (delay : Nat) (historyFloor : ℤ) (rows : List WebTrend) :
    totalSeconds (intersectIntervals (readHours delay historyFloor rows).down
      (intersectIntervals ((readHours delay historyFloor rows).covered ++
        (readHours delay historyFloor rows).mixed.map fun h => (h, h + 3600))
        context.outsideDeclared)) = secondsIn context (failedHours delay rows) := by
  refine totalSeconds_eq_secondsIn fun t => ?_
  rw [covers_intersectIntervals, covers_intersectIntervals, covers_read_iff,
    covers_outsideDeclared_iff, readHours_eq]
  constructor
  · rintro ⟨failed, -, counts⟩
    exact ⟨failed, counts⟩
  · rintro ⟨failed, counts⟩
    exact ⟨failed, failed_collected failed, counts⟩

theorem checkRow_downtime :
    (checkRow api context now trends item).downtime =
      (min (collectedSeconds context now trends item) (summedDown api context now trends item) : ℤ) := by
  unfold checkRow webScenario
  simp only
  rw [coveredSec_eq, downSec_eq, mixedDown_eq, readHours_eq]
  rfl

theorem checkRow_sli :
    (checkRow api context now trends item).sli =
      if collectedSeconds context now trends item = 0 ∨
          (checkRow api context now trends item).coverage < context.minCoverage then none
      else some (100 * (1 - (checkRow api context now trends item).downtime /
        collectedSeconds context now trends item)) := by
  unfold checkRow webScenario
  simp only
  rw [coveredSec_eq]
  rfl

/-- Within the covered seconds, and a figure from 0 to 100, whatever Zabbix answers. -/
theorem checkRow_within :
    0 ≤ (checkRow api context now trends item).downtime ∧
      (checkRow api context now trends item).downtime ≤ collectedSeconds context now trends item ∧
      ∀ sli, (checkRow api context now trends item).sli = some sli → 0 ≤ sli ∧ sli ≤ 100 := by
  have covered : 0 ≤ collectedSeconds context now trends item := Int.natCast_nonneg _
  have summed : 0 ≤ summedDown api context now trends item :=
    add_nonneg (Int.natCast_nonneg _) (Finset.sum_nonneg fun h _ => by positivity)
  have value := checkRow_downtime api context now trends item
  have nonneg : 0 ≤ (checkRow api context now trends item).downtime := by
    rw [value]
    exact_mod_cast le_min covered summed
  have within : (checkRow api context now trends item).downtime ≤
      collectedSeconds context now trends item := by
    rw [value]
    exact_mod_cast min_le_left _ _
  refine ⟨nonneg, within, fun sli figure => ?_⟩
  rw [checkRow_sli] at figure
  split at figure
  · cases figure
  · next enough =>
      cases figure
      have positive : (0 : ℚ) < collectedSeconds context now trends item := by
        have nonzero := (not_or.mp enough).1
        exact_mod_cast lt_of_le_of_ne covered (Ne.symm nonzero)
      have least := div_nonneg nonneg positive.le
      have most := (div_le_one positive).mpr within
      constructor <;> linarith

theorem le_failedSeconds_iff :
    min (collectedSeconds context now trends item) (summedDown api context now trends item) ≤
        failedSeconds context (parseDelay item.delay) (now - 31 * 86400) (rowsOf trends item)
          (samplesOf api now trends item) ↔
      FitsHours context (parseDelay item.delay) (now - 31 * 86400) (rowsOf trends item)
        (samplesOf api now trends item) := by
  rw [min_le_iff, or_comm, FitsHours]
  refine or_congr ?_ Iff.rfl
  rw [summedDown, failedSeconds, add_le_add_iff_left]
  refine (sum_le_sum_min_iff _ _ _).trans ?_
  simp only [List.mem_toFinset]

theorem onlyWhatFailed_checkRow_iff :
    OnlyWhatFailed context (parseDelay item.delay) (now - 31 * 86400) (rowsOf trends item)
        (samplesOf api now trends item) (checkRow api context now trends item) ↔
      FitsHours context (parseDelay item.delay) (now - 31 * 86400) (rowsOf trends item)
        (samplesOf api now trends item) := by
  obtain ⟨nonneg, within, figure⟩ := checkRow_within api context now trends item
  rw [← le_failedSeconds_iff]
  have value := checkRow_downtime api context now trends item
  constructor
  · intro figures
    have failed := figures.failed
    rw [value] at failed
    exact_mod_cast failed
  · intro fits
    refine ⟨nonneg, within, figure, ?_⟩
    rw [value]
    exact_mod_cast fits

def trendsIn : List WebTrend :=
  webTrends api context.windowFrom context.windowEnd ((webItems api).map (·.itemid))

def ShowsWhatFailed (row : SliWeb) : Prop :=
  OnlyWhatFailed context (parseDelay item.delay) (now - 31 * 86400)
    (rowsOf (trendsIn api context) item) (samplesOf api now (trendsIn api context) item) row

def SamplesFit : Prop :=
  FitsHours context (parseDelay item.delay) (now - 31 * 86400)
    (rowsOf (trendsIn api context) item) (samplesOf api now (trendsIn api context) item)

end Scenario

/-- The downtime of every web check is only what failed exactly where each mixed hour has room
for its failing samples, or where nothing collected passed. -/
theorem webScenarios_show_what_failed_iff (api : WebApi) (context : SliContext) (now : ℤ) :
    List.Forall₂ (ShowsWhatFailed api context now) (webItems api)
        (webScenarios api context.minCoverage context.windowFrom context.windowEnd now
          context.estateSeconds context.outsideDeclared) ↔
      ∀ item ∈ webItems api, SamplesFit api context now item := by
  rw [webScenarios, List.forall₂_map_right_iff, List.forall₂_same]
  exact forall₂_congr fun item _ => onlyWhatFailed_checkRow_iff api context now _ item

/-- A check every 30 seconds whose delay is a macro: three failures in the 100 seconds of an hour
that are not declared, and a second hour in which everything passed. -/
def macroApi : WebApi where
  hostGet := ["10"]
  itemGet _ := [⟨"7", "Failed step", "web.test.fail[portal]", "{$WEB.DELAY}"⟩]
  trendGet _ _ _ := [⟨"7", 0, 120, 0, 1⟩, ⟨"7", 3600, 120, 0, 0⟩]
  trendEnds slices := slices
  historyGet _ _ _ := [⟨0, 1⟩, ⟨30, 1⟩, ⟨60, 1⟩, ⟨90, 0⟩]

def macroContext : SliContext where
  profile := .availability
  windowFrom := 0
  windowEnd := 7200
  target := 99
  minCoverage := 0
  noDataWindows := [(100, 3600)]
  gaps := []
  forward := by decide

/-- The three failures count as 180 seconds, 80 more than the hour has. -/
theorem macro_check_spills :
    (webScenarios macroApi macroContext.minCoverage macroContext.windowFrom
        macroContext.windowEnd 7200 macroContext.estateSeconds
        macroContext.outsideDeclared).map (·.downtime) = [180] ∧
      ¬ List.Forall₂ (ShowsWhatFailed macroApi macroContext 7200) (webItems macroApi)
        (webScenarios macroApi macroContext.minCoverage macroContext.windowFrom
          macroContext.windowEnd 7200 macroContext.estateSeconds
          macroContext.outsideDeclared) := by
  refine ⟨by decide +kernel, ?_⟩
  rw [webScenarios, List.forall₂_map_right_iff, List.forall₂_same]
  intro all
  let item : WebItem := ⟨"7", "Failed step", "web.test.fail[portal]", "{$WEB.DELAY}"⟩
  let rows : List WebTrend := [⟨"7", 0, 120, 0, 1⟩, ⟨"7", 3600, 120, 0, 0⟩]
  let hist : List WebSample := [⟨0, 1⟩, ⟨30, 1⟩, ⟨60, 1⟩, ⟨90, 0⟩]
  have fits : FitsHours macroContext (parseDelay item.delay) (7200 - 31 * 86400)
      (rowsOf (trendsIn macroApi macroContext) item)
      (samplesOf macroApi 7200 (trendsIn macroApi macroContext) item) :=
    (onlyWhatFailed_checkRow_iff macroApi macroContext 7200 _ item).mp
      (all item List.mem_cons_self)
  have delay : parseDelay item.delay = 60 := by decide +kernel
  have read : rowsOf (trendsIn macroApi macroContext) item = rows := by decide +kernel
  have sampled : samplesOf macroApi 7200 (trendsIn macroApi macroContext) item = hist := by
    decide +kernel
  rw [delay, read, sampled] at fits
  have mixed : mixedClocks 60 (7200 - 31 * 86400) rows = [0] := by decide +kernel
  have room : secondsIn macroContext [(0, 0 + 3600)] = 100 := by
    rw [secondsIn_eq]
    decide +kernel
  have failing : (failures macroContext hist 0 : ℤ) * (60 : ℕ) = 180 := by
    have counted := @mixedDown_eq macroContext 60 hist [0]
    rw [List.toFinset_cons, List.toFinset_nil, insert_empty_eq, Finset.sum_singleton] at counted
    rw [← counted]
    decide +kernel
  have most : failedSeconds macroContext 60 (7200 - 31 * 86400) rows hist = 100 := by
    have failed : secondsIn macroContext (failedHours 60 rows) = 0 := by
      rw [secondsIn_eq]
      decide +kernel
    rw [failedSeconds, mixed, failed, List.toFinset_cons, List.toFinset_nil, insert_empty_eq,
      Finset.sum_singleton, failedOf, failing, room]
    decide
  have collected : secondsIn macroContext (collectedHours 60 (7200 - 31 * 86400) rows) = 3700 := by
    rw [secondsIn_eq]
    decide +kernel
  rcases fits with within | nothingPassed
  · have first := within 0 (by rw [mixed]; exact List.mem_cons_self)
    rw [failing, room] at first
    exact absurd first (by decide)
  · rw [most, collected] at nothingPassed
    exact absurd nothingPassed (by decide)

end ZabbixPortal.Sli
