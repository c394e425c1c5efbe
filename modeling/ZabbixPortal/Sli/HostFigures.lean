import ZabbixPortal.Sli.Engine
import ZabbixPortal.Sli.WanPathProperties
import Mathlib.Tactic.FieldSimp
import Mathlib.Tactic.Ring

/-! The figures of one host bound each other: every interval set of the computation
lies in the one it was taken from, so no figure can leave its range. -/

set_option autoImplicit false

namespace ZabbixPortal.Sli

open Foundation Foundation.HalfOpen Domain

private theorem le_foldl_longest (intervals : List Interval) (longest : ℤ) :
    longest ≤ intervals.foldl (fun longest interval => max longest (interval.2 - interval.1))
      longest := by
  induction intervals generalizing longest with
  | nil => exact le_refl longest
  | cons interval rest ih => exact (le_max_left _ _).trans (ih _)

theorem longestOf_nonneg (intervals : List Interval) : 0 ≤ longestOf intervals :=
  le_foldl_longest intervals 0

private theorem foldl_longest_le {intervals : List Interval} {longest bound : ℤ}
    (start : longest ≤ bound)
    (each : ∀ interval ∈ intervals, interval.2 - interval.1 ≤ bound) :
    intervals.foldl (fun longest interval => max longest (interval.2 - interval.1)) longest ≤
      bound := by
  induction intervals generalizing longest with
  | nil => exact start
  | cons interval rest ih =>
      have first := each interval List.mem_cons_self
      exact ih (max_le start first) fun other member => each other (List.mem_cons_of_mem _ member)

/-- An interval of a list is no longer than the seconds the list covers. -/
theorem length_le_totalSeconds {intervals : List Interval} {interval : Interval}
    (member : interval ∈ intervals) : interval.2 - interval.1 ≤ totalSeconds intervals := by
  have inside : Finset.Ico interval.1 interval.2 ⊆ points intervals := by
    intro point within
    rw [Finset.mem_Ico] at within
    exact (mem_points intervals point).mpr ⟨interval, member, within⟩
  have counted := Finset.card_le_card inside
  rw [Int.card_Ico] at counted
  rw [totalSeconds_eq_card]
  omega

theorem longestOf_le_totalSeconds (intervals : List Interval) :
    longestOf intervals ≤ totalSeconds intervals :=
  foldl_longest_le (totalSeconds_nonneg intervals) fun _ member => length_le_totalSeconds member

namespace SliContext

variable (context : SliContext) (intl : Intl) (input : HostInput)

theorem totalSeconds_outsidePlanned :
    totalSeconds (context.outsidePlanned input) = context.measurable input := by
  have parts := totalSeconds_complementIntervals (context.planned input) context.windowFrom
    context.windowEnd context.forward
  have clipped : totalSeconds (clipIntervals (context.planned input) context.windowFrom
      context.windowEnd) = totalSeconds (context.planned input) := by
    refine totalSeconds_congr fun point => ?_
    rw [covers_clipIntervals, covers_planned, seconds, Finset.mem_Ico]
    tauto
  simp only [measurable, window, outsidePlanned]
  omega

theorem covered_le_measurable :
    totalSeconds (context.covered input) ≤ context.measurable input := by
  rw [← totalSeconds_outsidePlanned]
  refine totalSeconds_mono fun point covered => ?_
  exact (covers_outsidePlanned context input point).mpr
    (covered_outside_planned context input point covered)

theorem denominator_eq_covered :
    context.denominator input = totalSeconds (context.covered input) := by
  unfold denominator
  cases strict : context.profile.strict with
  | true => rfl
  | false => exact (totalSeconds_covered_report context input strict).symm

theorem downtime_le_denominator :
    totalSeconds (context.measuredDown input) ≤ context.denominator input := by
  rw [denominator_eq_covered]
  exact totalSeconds_mono (measuredDown_covered context input)

theorem not_declared_of_measuredDown {second : ℤ}
    (down : Covers (context.measuredDown input) second) :
    ¬ Covers context.noDataWindows second := by
  rw [measuredDown, covers_intersectIntervals] at down
  have outside := down.2
  rw [outsideDeclared, covers_complementIntervals, declared, covers_mergeIntervals,
    covers_clipIntervals] at outside
  exact fun inside => outside.2 ⟨inside, outside.1⟩

theorem not_planned_of_measuredDown {second : ℤ}
    (down : Covers (context.measuredDown input) second) :
    ¬ Covers input.maintenance second := by
  have covered := measuredDown_covered context input second down
  obtain ⟨inWindow, outside⟩ := covered_outside_planned context input second covered
  rw [covers_planned] at outside
  exact fun inside => outside ⟨inside, inWindow⟩

/-- With downtime within what it is taken out of, the clamp at zero does nothing. -/
theorem figure_eq {downtime total : ℤ} (nonneg : 0 ≤ downtime) (within : downtime ≤ total)
    (positive : 0 < total) :
    figure downtime total = 100 * (1 - (downtime : ℚ) / total) ∧
      0 ≤ figure downtime total ∧ figure downtime total ≤ 100 := by
  have total_pos : (0 : ℚ) < total := by exact_mod_cast positive
  have share_le : (downtime : ℚ) / total ≤ 1 := by
    rw [div_le_one total_pos]
    exact_mod_cast within
  have share_nonneg : (0 : ℚ) ≤ downtime / total :=
    div_nonneg (by exact_mod_cast nonneg) total_pos.le
  have unclamped : figure downtime total = 100 * (1 - (downtime : ℚ) / total) := by
    rw [figure, max_eq_right]
    linarith
  refine ⟨unclamped, ?_, ?_⟩
  · rw [unclamped]
    linarith
  · rw [unclamped]
    linarith

/-- A figure meets the target exactly when the error budget is not overspent. -/
theorem target_le_iff_budget {downtime total : ℤ} (target : ℚ) (positive : 0 < total) :
    target ≤ 100 * (1 - (downtime : ℚ) / total) ↔ 0 ≤ (1 - target / 100) * total - downtime := by
  have total_pos : (0 : ℚ) < total := by exact_mod_cast positive
  have scaled : (1 - target / 100) * total - downtime =
      total / 100 * (100 * (1 - (downtime : ℚ) / total) - target) := by
    field_simp
    ring
  rw [scaled, ← sub_nonneg]
  exact (mul_nonneg_iff_of_pos_left (by positivity)).symm

theorem hostSli_eq_none_iff :
    context.hostSli input = none ↔ context.nodata input = true ∨ context.denominator input ≤ 0 := by
  unfold hostSli
  split
  · next missing => simpa using missing
  · next present =>
      constructor
      · intro absent
        cases absent
      · intro missing
        exact absurd missing present

theorem hostSli_of_some {sli : ℚ} (figured : context.hostSli input = some sli) :
    0 < context.denominator input ∧
      sli = figure (totalSeconds (context.measuredDown input)) (context.denominator input) := by
  unfold hostSli at figured
  split at figured
  · cases figured
  · next present =>
      cases figured
      exact ⟨not_le.mp fun zero => present (.inr zero), rfl⟩

/-- What the figures of a host's row owe each other and the interval sets they are
taken from. -/
structure Consistent (row : SliHost) : Prop where
  denominator_eq : context.denominator input =
    if context.profile.strict then row.covered else row.window - row.maintenance
  longest_nonneg : 0 ≤ row.longest
  longest_le : row.longest ≤ row.downtime
  downtime_le : row.downtime ≤ context.denominator input
  covered_le : row.covered + row.maintenance ≤ row.window
  none_iff : row.sli = none ↔ row.dataStatus = .nodata ∨ context.denominator input ≤ 0
  figure_of_some : ∀ sli, row.sli = some sli →
    sli = 100 * (1 - (row.downtime : ℚ) / context.denominator input) ∧ 0 ≤ sli ∧ sli ≤ 100
  meeting_iff : row.meeting = some true ↔ ∃ budget, row.errorBudget = some budget ∧ 0 ≤ budget
  /-- The downtime counts the seconds of one set, none of them planned or declared. -/
  downtime_eq : row.downtime = (points (context.measuredDown input)).card
  outside : ∀ second ∈ points (context.measuredDown input),
    ¬ Covers input.maintenance second ∧ ¬ Covers context.noDataWindows second

theorem hostRow_meeting_iff :
    (context.hostRow intl input).meeting = some true ↔
      ∃ budget, (context.hostRow intl input).errorBudget = some budget ∧ 0 ≤ budget := by
  simp only [hostRow]
  cases figured : context.hostSli input with
  | none => simp
  | some sli =>
      obtain ⟨positive, rfl⟩ := hostSli_of_some context input figured
      have unclamped := (figure_eq (totalSeconds_nonneg _)
        (downtime_le_denominator context input) positive).1
      have budget : _ ↔ 0 ≤ (1 - context.target / 100) * context.denominator input -
          totalSeconds (context.measuredDown input) :=
        target_le_iff_budget context.target positive
      simp only [Option.map_some, Option.some.injEq, decide_eq_true_eq, exists_eq_left', ge_iff_le]
      rw [unclamped]
      exact budget

theorem hostRow_consistent : context.Consistent input (context.hostRow intl input) where
  denominator_eq := rfl
  longest_nonneg := longestOf_nonneg _
  longest_le := longestOf_le_totalSeconds _
  downtime_le := downtime_le_denominator context input
  covered_le := by
    have bound := covered_le_measurable context input
    simp only [hostRow, measurable] at bound ⊢
    omega
  none_iff := by
    rw [hostRow_dataStatus]
    exact hostSli_eq_none_iff context input
  figure_of_some := by
    intro sli figured
    obtain ⟨positive, rfl⟩ := hostSli_of_some context input figured
    exact figure_eq (totalSeconds_nonneg _) (downtime_le_denominator context input) positive
  meeting_iff := hostRow_meeting_iff context intl input
  downtime_eq := totalSeconds_eq_card _
  outside := by
    intro second down
    rw [mem_points] at down
    exact ⟨not_planned_of_measuredDown context input down,
      not_declared_of_measuredDown context input down⟩

end SliContext

/-- Every row of a report is the row of some host input under the report's own window,
profile and declared spans. -/
theorem exists_hostRow_of_computeSli {intl : Intl} {settings : SliSettings} {request : SliRequest}
    {now : ℤ} {reads : SliReads} {report : SliReport}
    (computed : computeSli intl settings request now reads = .ok report) {row : SliHost}
    (listed : row ∈ report.hosts) :
    ∃ (context : SliContext) (input : HostInput),
      context.profile = report.profile ∧ context.windowFrom = report.windowFrom ∧
      context.windowEnd = report.windowEnd ∧ context.target = report.target ∧
      context.declared = report.noDataWindows ∧ row = context.hostRow intl input := by
  obtain ⟨estate, windowTo, closed, web, _, rfl⟩ :=
    computeSli_is_estate_report intl settings request now reads report computed
  obtain ⟨input, _, rfl⟩ := List.mem_map.mp ((mem_sortBy _ _ _).mp listed)
  exact ⟨estate.context, input, rfl, rfl, rfl, rfl, rfl, rfl⟩

/-- The figures of every host are consistent, whatever the interval lists, and those of
a computed report are such figures. -/
theorem host_figures_consistent (intl : Intl) :
    (∀ (context : SliContext) (input : HostInput),
      context.Consistent input (context.hostRow intl input)) ∧
    ∀ (settings : SliSettings) (request : SliRequest) (now : ℤ) (reads : SliReads)
      (report : SliReport), computeSli intl settings request now reads = .ok report →
      ∀ row ∈ report.hosts, ∃ (context : SliContext) (input : HostInput),
        context.profile = report.profile ∧ context.windowFrom = report.windowFrom ∧
        context.windowEnd = report.windowEnd ∧ context.target = report.target ∧
        context.declared = report.noDataWindows ∧ row = context.hostRow intl input :=
  ⟨fun context input => context.hostRow_consistent intl input,
    fun _ _ _ _ _ computed _ listed => exists_hostRow_of_computeSli computed listed⟩

end ZabbixPortal.Sli
