import ZabbixPortal.Domain.Naming
import ZabbixPortal.Sli.Engine
import ZabbixPortal.Sli.IntervalsProperties

/-! How the figure of a redundant path relates to those of its legs. -/

set_option autoImplicit false

namespace ZabbixPortal.Sli

open Foundation Foundation.HalfOpen Domain

/-- The intersection of the legs' sets, whatever order they are folded in. -/
theorem covers_commonIntervals (byHost : OrderedMap String (List Interval)) (legs : List SliHost)
    (nonempty : legs ≠ []) (point : ℤ) :
    Covers (commonIntervals byHost legs) point ↔
      ∀ leg ∈ legs, Covers ((byHost.get? leg.hostid).getD []) point := by
  cases legs with
  | nil => exact absurd rfl nonempty
  | cons first rest =>
      rw [commonIntervals, List.forall_mem_cons]
      generalize (byHost.get? first.hostid).getD [] = common
      induction rest generalizing common with
      | nil => simp
      | cons leg rest ih =>
          rw [List.foldl_cons, ih (by simp), List.forall_mem_cons, covers_intersectIntervals]
          tauto

namespace SliContext

variable (context : SliContext)

noncomputable def seconds : Finset ℤ := Finset.Ico context.windowFrom context.windowEnd

theorem window_eq_card : context.window = context.seconds.card := by
  rw [seconds, Int.card_Ico, window]
  have forward := context.forward
  omega

@[simp] theorem covers_planned (input : HostInput) (point : ℤ) :
    Covers (context.planned input) point ↔
      Covers input.maintenance point ∧ point ∈ context.seconds := by
  simp [planned, seconds]

@[simp] theorem covers_outsidePlanned (input : HostInput) (point : ℤ) :
    Covers (context.outsidePlanned input) point ↔
      point ∈ context.seconds ∧ ¬ Covers (context.planned input) point := by
  rw [outsidePlanned, covers_complementIntervals, seconds, Finset.mem_Ico]

theorem covered_outside_planned (input : HostInput) (point : ℤ)
    (covered : Covers (context.covered input) point) :
    point ∈ context.seconds ∧ ¬ Covers (context.planned input) point := by
  unfold SliContext.covered at covered
  split at covered
  · exact (covers_outsidePlanned _ _ _).mp ((covers_intersectIntervals _ _ _).mp covered).2
  · exact (covers_outsidePlanned _ _ _).mp covered

theorem measuredDown_covered (input : HostInput) (point : ℤ)
    (down : Covers (context.measuredDown input) point) : Covers (context.covered input) point := by
  rw [measuredDown, covers_intersectIntervals, covers_intersectIntervals] at down
  exact down.1.2

/-- In HCML's profile everything outside planned maintenance is covered. -/
theorem totalSeconds_covered_report (input : HostInput) (report : context.profile.strict = false) :
    totalSeconds (context.covered input) = context.measurable input := by
  have parts := totalSeconds_complementIntervals (context.planned input) context.windowFrom
    context.windowEnd context.forward
  have clipped : totalSeconds (clipIntervals (context.planned input) context.windowFrom
      context.windowEnd) = totalSeconds (context.planned input) := by
    refine totalSeconds_congr fun point => ?_
    rw [covers_clipIntervals, covers_planned, seconds, Finset.mem_Ico]
    tauto
  simp only [covered, report, Bool.false_eq_true, ↓reduceIte, measurable, window, outsidePlanned]
  omega

theorem nodata_iff (input : HostInput) :
    context.nodata input = true ↔ context.profile.strict = true ∧
      (totalSeconds (context.covered input) = 0 ∨
        context.coverageShare input < context.minCoverage) := by
  simp [nodata]

theorem hostRow_dataStatus (intl : Intl) (input : HostInput) :
    (context.hostRow intl input).dataStatus = .nodata ↔ context.nodata input = true := by
  simp only [hostRow]
  split_ifs <;> simp_all

end SliContext

namespace Estate

variable (intl : Intl) (estate : Estate)

def legInputs (legs : List (SliHost × WanPair)) : List HostInput :=
  estate.inputs.filter fun input => legs.any fun leg => leg.1.hostid = input.hostid

def path (name : String) (legs : List (SliHost × WanPair)) : SliPath :=
  wanPath intl name legs estate.downByHost estate.coveredByHost estate.context.window
    estate.context.profile estate.context.estateSeconds

def total (legs : List (SliHost × WanPair)) : ℤ :=
  pathTotal estate.context.profile estate.context.window
    (commonIntervals estate.coveredByHost (legs.map Prod.fst))

noncomputable def commonSeconds (spans : HostInput → List Interval) (legs : List (SliHost × WanPair)) :
    Finset ℤ :=
  estate.context.seconds.filter fun point =>
    ∀ input ∈ estate.legInputs legs, Covers (spans input) point

def SameSeconds (spans : HostInput → List Interval) (legs : List (SliHost × WanPair)) : Prop :=
  ∀ left ∈ estate.legInputs legs, ∀ right ∈ estate.legInputs legs, ∀ point,
    Covers (spans left) point ↔ Covers (spans right) point

structure PathAgrees (name : String) (legs : List (SliHost × WanPair)) : Prop where
  downtime_common : (estate.path intl name legs).downtime =
    (estate.commonSeconds estate.context.measuredDown legs).card
  downtime_le : ∀ input ∈ estate.legInputs legs,
    (estate.path intl name legs).downtime ≤ (estate.context.hostRow intl input).downtime
  planned_not_down : Disjoint (estate.commonSeconds estate.context.planned legs)
    (estate.commonSeconds estate.context.measuredDown legs)
  planned_not_in_total :
    estate.total legs + (estate.commonSeconds estate.context.planned legs).card ≤
      estate.context.window
  sli_of_same_legs : estate.SameSeconds estate.context.measuredDown legs →
    estate.SameSeconds estate.context.covered legs →
    ∀ input ∈ estate.legInputs legs,
      (estate.path intl name legs).sli = (estate.context.hostRow intl input).sli

/-- When it does: under HCML's profile, when no planned second is common to all legs;
in the strict one, unless legs with equal sets fall on both sides of the least coverage. -/
def FigureComparable (legs : List (SliHost × WanPair)) : Prop :=
  if estate.context.profile.strict then
    ¬ (estate.SameSeconds estate.context.measuredDown legs ∧
      estate.SameSeconds estate.context.covered legs ∧
      ∃ thin ∈ estate.legInputs legs, ∃ thick ∈ estate.legInputs legs,
        0 < totalSeconds (estate.context.covered thick) ∧
        estate.context.coverageShare thin < estate.context.minCoverage ∧
        estate.context.minCoverage ≤ estate.context.coverageShare thick)
  else estate.commonSeconds estate.context.planned legs = ∅

section Legs

variable {intl estate} {name : String} {legs : List (SliHost × WanPair)}

theorem get?_downByHost {input : HostInput} (member : input ∈ estate.inputs) :
    estate.downByHost.get? input.hostid = some (estate.context.measuredDown input) := by
  refine OrderedMap.get?_ofList _ ?_ (List.mem_map.mpr ⟨input, member, rfl⟩)
  rw [List.map_map]
  exact estate.distinct

theorem get?_coveredByHost {input : HostInput} (member : input ∈ estate.inputs) :
    estate.coveredByHost.get? input.hostid = some (estate.context.covered input) := by
  refine OrderedMap.get?_ofList _ ?_ (List.mem_map.mpr ⟨input, member, rfl⟩)
  rw [List.map_map]
  exact estate.distinct

/-- The legs of a path are rows of the hosts `legInputs` picks. -/
theorem leg_iff (member : (name, legs) ∈ (pathLegs intl (estate.hosts intl)).entries)
    (row : SliHost) :
    row ∈ legs.map Prod.fst ↔
      ∃ input ∈ estate.legInputs legs, estate.context.hostRow intl input = row := by
  have inside : ∀ leg ∈ legs, ∃ input ∈ estate.inputs,
      estate.context.hostRow intl input = leg.1 := by
    intro leg inLegs
    rw [groupBy_bucket member] at inLegs
    obtain ⟨host, inHosts, found⟩ := List.mem_filterMap.mp (List.mem_of_mem_filter inLegs)
    obtain ⟨pair, _, rfl⟩ := Option.map_eq_some_iff.mp found
    exact List.mem_map.mp ((mem_sortBy _ _ _).mp inHosts)
  constructor
  · intro isLeg
    obtain ⟨leg, inLegs, rfl⟩ := List.mem_map.mp isLeg
    obtain ⟨input, inInputs, same⟩ := inside leg inLegs
    refine ⟨input, List.mem_filter.mpr ⟨inInputs, ?_⟩, same⟩
    exact List.any_eq_true.mpr ⟨leg, inLegs, by simp [← same, SliContext.hostRow]⟩
  · rintro ⟨input, inLegInputs, rfl⟩
    obtain ⟨inInputs, named⟩ := List.mem_filter.mp inLegInputs
    obtain ⟨leg, inLegs, sameId⟩ := List.any_eq_true.mp named
    obtain ⟨other, inOthers, row⟩ := inside leg inLegs
    have ids : other.hostid = input.hostid := by
      have rowId : (estate.context.hostRow intl other).hostid = input.hostid := by
        rw [row]
        simpa using sameId
      exact rowId
    have same := List.inj_on_of_nodup_map estate.distinct inOthers inInputs ids
    exact List.mem_map.mpr ⟨leg, inLegs, by rw [← row, same]⟩

theorem legs_ne_nil (member : (name, legs) ∈ (pathLegs intl (estate.hosts intl)).entries) :
    legs.map Prod.fst ≠ [] := by
  simpa using groupBy_bucket_ne_nil member

theorem legInputs_ne_nil (member : (name, legs) ∈ (pathLegs intl (estate.hosts intl)).entries) :
    estate.legInputs legs ≠ [] := by
  obtain ⟨row, inLegs⟩ := List.exists_mem_of_ne_nil _ (legs_ne_nil member)
  obtain ⟨input, isLeg, _⟩ := (leg_iff member row).mp inLegs
  exact List.ne_nil_of_mem isLeg

private theorem covers_common (byHost : OrderedMap String (List Interval))
    (spans : HostInput → List Interval)
    (looked : ∀ input ∈ estate.inputs, byHost.get? input.hostid = some (spans input))
    (member : (name, legs) ∈ (pathLegs intl (estate.hosts intl)).entries) (point : ℤ) :
    Covers (commonIntervals byHost (legs.map Prod.fst)) point ↔
      ∀ input ∈ estate.legInputs legs, Covers (spans input) point := by
  rw [covers_commonIntervals _ _ (legs_ne_nil member)]
  constructor
  · intro all input isLeg
    have covered := all _ ((leg_iff member _).mpr ⟨input, isLeg, rfl⟩)
    have found : byHost.get? (estate.context.hostRow intl input).hostid = some (spans input) :=
      looked input (List.mem_of_mem_filter isLeg)
    rwa [found] at covered
  · intro all row inLegs
    obtain ⟨input, isLeg, rfl⟩ := (leg_iff member row).mp inLegs
    have found : byHost.get? (estate.context.hostRow intl input).hostid = some (spans input) :=
      looked input (List.mem_of_mem_filter isLeg)
    rw [found]
    exact all input isLeg

theorem covers_commonDown (member : (name, legs) ∈ (pathLegs intl (estate.hosts intl)).entries)
    (point : ℤ) :
    Covers (commonIntervals estate.downByHost (legs.map Prod.fst)) point ↔
      ∀ input ∈ estate.legInputs legs, Covers (estate.context.measuredDown input) point :=
  covers_common _ _ (fun _ inside => get?_downByHost inside) member point

theorem covers_commonCovered
    (member : (name, legs) ∈ (pathLegs intl (estate.hosts intl)).entries) (point : ℤ) :
    Covers (commonIntervals estate.coveredByHost (legs.map Prod.fst)) point ↔
      ∀ input ∈ estate.legInputs legs, Covers (estate.context.covered input) point :=
  covers_common _ _ (fun _ inside => get?_coveredByHost inside) member point

/-- A set every leg keeps inside the window has as many seconds as its common part. -/
private theorem totalSeconds_common {common : List Interval} {spans : HostInput → List Interval}
    (member : (name, legs) ∈ (pathLegs intl (estate.hosts intl)).entries)
    (covers : ∀ point, Covers common point ↔
      ∀ input ∈ estate.legInputs legs, Covers (spans input) point)
    (inside : ∀ input point, Covers (spans input) point → point ∈ estate.context.seconds) :
    totalSeconds common = (estate.commonSeconds spans legs).card := by
  obtain ⟨found, isLeg⟩ := List.exists_mem_of_ne_nil _ (legInputs_ne_nil member)
  have same : points common = estate.commonSeconds spans legs := by
    ext point
    rw [mem_points, covers, commonSeconds, Finset.mem_filter]
    exact ⟨fun all => ⟨inside found point (all found isLeg), all⟩, And.right⟩
  rw [totalSeconds_eq_card, same]

theorem downtime_eq_common (member : (name, legs) ∈ (pathLegs intl (estate.hosts intl)).entries) :
    (estate.path intl name legs).downtime =
      (estate.commonSeconds estate.context.measuredDown legs).card :=
  totalSeconds_common member (covers_commonDown member) fun input point down =>
    (estate.context.covered_outside_planned input point
      (estate.context.measuredDown_covered input point down)).1

theorem downtime_le_leg (member : (name, legs) ∈ (pathLegs intl (estate.hosts intl)).entries)
    {input : HostInput} (isLeg : input ∈ estate.legInputs legs) :
    (estate.path intl name legs).downtime ≤ (estate.context.hostRow intl input).downtime :=
  totalSeconds_mono fun point common => (covers_commonDown member point).mp common input isLeg

theorem total_strict (member : (name, legs) ∈ (pathLegs intl (estate.hosts intl)).entries)
    (strict : estate.context.profile.strict = true) :
    estate.total legs = (estate.commonSeconds estate.context.covered legs).card := by
  rw [total, pathTotal, if_pos strict]
  exact totalSeconds_common member (covers_commonCovered member) fun input point covered =>
    (estate.context.covered_outside_planned input point covered).1

theorem total_report (report : estate.context.profile.strict = false) :
    estate.total legs = estate.context.window := by
  rw [total, pathTotal, report]
  rfl

/-- Seconds planned for every leg are covered for none. -/
theorem planned_disjoint (member : (name, legs) ∈ (pathLegs intl (estate.hosts intl)).entries)
    (spans : HostInput → List Interval)
    (covered : ∀ input point, Covers (spans input) point →
      Covers (estate.context.covered input) point) :
    Disjoint (estate.commonSeconds estate.context.planned legs)
      (estate.commonSeconds spans legs) := by
  obtain ⟨input, isLeg⟩ := List.exists_mem_of_ne_nil _ (legInputs_ne_nil member)
  rw [Finset.disjoint_left]
  intro point inPlanned inSpans
  have planned := (Finset.mem_filter.mp inPlanned).2 input isLeg
  have inside := (Finset.mem_filter.mp inSpans).2 input isLeg
  exact (estate.context.covered_outside_planned input point (covered input point inside)).2 planned

theorem total_strict_without_planned
    (member : (name, legs) ∈ (pathLegs intl (estate.hosts intl)).entries)
    (strict : estate.context.profile.strict = true) :
    estate.total legs + (estate.commonSeconds estate.context.planned legs).card ≤
      estate.context.window := by
  have disjoint := planned_disjoint member estate.context.covered fun _ _ covered => covered
  have inside : estate.commonSeconds estate.context.planned legs ∪
      estate.commonSeconds estate.context.covered legs ⊆ estate.context.seconds :=
    Finset.union_subset (Finset.filter_subset _ _) (Finset.filter_subset _ _)
  have counted := Finset.card_le_card inside
  rw [Finset.card_union_of_disjoint disjoint] at counted
  rw [total_strict member strict, estate.context.window_eq_card]
  omega

/-- Legs with the same set share it with the path. -/
private theorem common_of_same {common : List Interval} {spans : HostInput → List Interval}
    (same : estate.SameSeconds spans legs)
    (covers : ∀ point, Covers common point ↔
      ∀ input ∈ estate.legInputs legs, Covers (spans input) point)
    {input : HostInput} (isLeg : input ∈ estate.legInputs legs) :
    totalSeconds common = totalSeconds (spans input) := by
  refine totalSeconds_congr fun point => ?_
  rw [covers]
  exact ⟨fun all => all input isLeg,
    fun covered other otherLeg => (same input isLeg other otherLeg point).mp covered⟩

theorem path_nodata_iff (member : (name, legs) ∈ (pathLegs intl (estate.hosts intl)).entries) :
    ((legs.map Prod.fst).any fun leg => leg.dataStatus = .nodata) = true ↔
      ∃ input ∈ estate.legInputs legs, estate.context.nodata input = true := by
  rw [List.any_eq_true]
  constructor
  · rintro ⟨row, inLegs, nodata⟩
    obtain ⟨input, isLeg, rfl⟩ := (leg_iff member row).mp inLegs
    exact ⟨input, isLeg, (estate.context.hostRow_dataStatus intl input).mp (by simpa using nodata)⟩
  · rintro ⟨input, isLeg, nodata⟩
    refine ⟨_, (leg_iff member _).mpr ⟨input, isLeg, rfl⟩, ?_⟩
    simpa using (estate.context.hostRow_dataStatus intl input).mpr nodata

/-- The path's figure from its total, its downtime and its legs' data. -/
theorem path_sli (member : (name, legs) ∈ (pathLegs intl (estate.hosts intl)).entries) :
    (estate.path intl name legs).sli =
      if (∃ input ∈ estate.legInputs legs, estate.context.nodata input = true) ∨
          estate.total legs ≤ 0 then none
      else some (SliContext.figure (estate.path intl name legs).downtime (estate.total legs)) := by
  have nodata := path_nodata_iff member
  by_cases any : ∃ input ∈ estate.legInputs legs, estate.context.nodata input = true
  · have flagged := nodata.mpr any
    simp only [path, wanPath, flagged, any, true_or, ↓reduceIte]
  · have clear := mt nodata.mp any
    simp only [path, wanPath, clear, any, false_or, Bool.false_eq_true]
    rfl

/-- With equal sets the strict figures differ only where the data of some legs counts
and that of others does not. -/
theorem strict_sli_of_same (member : (name, legs) ∈ (pathLegs intl (estate.hosts intl)).entries)
    (strict : estate.context.profile.strict = true)
    (sameDown : estate.SameSeconds estate.context.measuredDown legs)
    (sameCovered : estate.SameSeconds estate.context.covered legs)
    {input : HostInput} (isLeg : input ∈ estate.legInputs legs) :
    (estate.path intl name legs).sli = estate.context.hostSli input ↔
      (∃ other ∈ estate.legInputs legs, estate.context.nodata other = true) →
        estate.context.nodata input = true := by
  have downtime : (estate.path intl name legs).downtime =
      totalSeconds (estate.context.measuredDown input) :=
    common_of_same sameDown (covers_commonDown member) isLeg
  have total : estate.total legs = totalSeconds (estate.context.covered input) := by
    rw [Estate.total, pathTotal, if_pos strict]
    exact common_of_same sameCovered (covers_commonCovered member) isLeg
  have empty : totalSeconds (estate.context.covered input) ≤ 0 →
      estate.context.nodata input = true := fun small =>
    (estate.context.nodata_iff input).mpr
      ⟨strict, .inl (le_antisymm small (totalSeconds_nonneg _))⟩
  rw [path_sli member, downtime, total, SliContext.hostSli, SliContext.denominator, if_pos strict]
  by_cases own : estate.context.nodata input = true
  · have any : ∃ other ∈ estate.legInputs legs, estate.context.nodata other = true :=
      ⟨input, isLeg, own⟩
    simp [own, any]
  · have positive : ¬ totalSeconds (estate.context.covered input) ≤ 0 := mt empty own
    by_cases any : ∃ other ∈ estate.legInputs legs, estate.context.nodata other = true
    · simp [own, any, positive]
    · simp [own, any, positive]

theorem report_sli_of_same (member : (name, legs) ∈ (pathLegs intl (estate.hosts intl)).entries)
    (report : estate.context.profile.strict = false)
    (unplanned : estate.commonSeconds estate.context.planned legs = ∅)
    (sameDown : estate.SameSeconds estate.context.measuredDown legs)
    (sameCovered : estate.SameSeconds estate.context.covered legs)
    {input : HostInput} (isLeg : input ∈ estate.legInputs legs) :
    (estate.path intl name legs).sli = estate.context.hostSli input := by
  have counted : ∀ other, estate.context.nodata other = false := fun other => by
    simp [SliContext.nodata, report]
  have downtime : (estate.path intl name legs).downtime =
      totalSeconds (estate.context.measuredDown input) :=
    common_of_same sameDown (covers_commonDown member) isLeg
  -- A second planned for this leg is uncovered for it, so for every leg: it is common.
  have planned : totalSeconds (estate.context.planned input) = 0 := by
    rw [totalSeconds_eq_zero_iff]
    intro point inPlanned
    have inWindow := ((estate.context.covers_planned input point).mp inPlanned).2
    have common : point ∈ estate.commonSeconds estate.context.planned legs := by
      refine Finset.mem_filter.mpr ⟨inWindow, fun other otherLeg => ?_⟩
      by_contra free
      have outside := (estate.context.covers_outsidePlanned other point).mpr ⟨inWindow, free⟩
      have covered : Covers (estate.context.covered other) point := by
        simpa [SliContext.covered, report] using outside
      have own := (sameCovered input isLeg other otherLeg point).mpr covered
      exact (estate.context.covered_outside_planned input point own).2 inPlanned
    rw [unplanned] at common
    exact absurd common (Finset.notMem_empty _)
  rw [path_sli member, downtime, total_report report, SliContext.hostSli, SliContext.denominator,
    SliContext.measurable, planned]
  simp [counted, report]

end Legs

/-- A path's figure agrees with its legs' exactly when the totals are comparable. -/
theorem path_agrees_iff (name : String) (legs : List (SliHost × WanPair))
    (member : (name, legs) ∈ (pathLegs intl (estate.hosts intl)).entries) :
    estate.PathAgrees intl name legs ↔ estate.FigureComparable legs := by
  have disjoint := planned_disjoint member estate.context.measuredDown
    estate.context.measuredDown_covered
  cases strict : estate.context.profile.strict with
  | true =>
      rw [FigureComparable, if_pos strict]
      constructor
      · rintro agrees ⟨sameDown, sameCovered, thin, thinLeg, thick, thickLeg, positive, below, above⟩
        have same := agrees.sli_of_same_legs sameDown sameCovered thick thickLeg
        have needed := (strict_sli_of_same member strict sameDown sameCovered thickLeg).mp same
        have thinNodata := (estate.context.nodata_iff thin).mpr ⟨strict, .inr below⟩
        have thickNodata := needed ⟨thin, thinLeg, thinNodata⟩
        rcases ((estate.context.nodata_iff thick).mp thickNodata).2 with empty | thin'
        · omega
        · exact absurd thin' (not_lt.mpr above)
      · intro comparable
        refine ⟨downtime_eq_common member, fun input isLeg => downtime_le_leg member isLeg, disjoint,
          total_strict_without_planned member strict, ?_⟩
        intro sameDown sameCovered input isLeg
        refine (strict_sli_of_same member strict sameDown sameCovered isLeg).mpr ?_
        rintro ⟨other, otherLeg, otherNodata⟩
        by_contra counted
        have own : ¬ (totalSeconds (estate.context.covered input) = 0 ∨
            estate.context.coverageShare input < estate.context.minCoverage) := fun either =>
          counted ((estate.context.nodata_iff input).mpr ⟨strict, either⟩)
        rw [not_or, not_lt] at own
        have seconds := totalSeconds_nonneg (estate.context.covered input)
        have shared : totalSeconds (estate.context.covered other) =
            totalSeconds (estate.context.covered input) :=
          totalSeconds_congr (sameCovered other otherLeg input isLeg)
        rcases ((estate.context.nodata_iff other).mp otherNodata).2 with empty | below
        · exact own.1 (shared ▸ empty)
        · exact comparable ⟨sameDown, sameCovered, other, otherLeg, input, isLeg, by omega, below,
            own.2⟩
  | false =>
      rw [FigureComparable, if_neg (by simp [strict])]
      constructor
      · intro agrees
        have fits := agrees.planned_not_in_total
        rw [total_report strict] at fits
        exact Finset.card_eq_zero.mp (by omega)
      · intro unplanned
        refine ⟨downtime_eq_common member, fun input isLeg => downtime_le_leg member isLeg, disjoint,
          ?_, fun sameDown sameCovered input isLeg =>
            report_sli_of_same member strict unplanned sameDown sameCovered isLeg⟩
        rw [total_report strict, unplanned]
        simp

end Estate

section PlannedPair

/-! Both legs of one path in maintenance for the first half of a window and down for
the second, under HCML's profile. -/

def plannedLeg (hostid leg : String) : HostInput :=
  { hostid, name := "INET : SAMPANG WAN " ++ leg, hostStatus := "0", category := "ICMP Ping",
    triggerids := [], down := [(50, 100)], incidents := 1, collected := [],
    maintenance := [(0, 50)], measured := true }

def plannedPair : Estate where
  context := { profile := .hcmlReport, windowFrom := 0, windowEnd := 100, target := 99,
               minCoverage := 1 / 10, noDataWindows := [], gaps := [], forward := zero_le_hundred }
  inputs := [plannedLeg "10" "1", plannedLeg "11" "2"]
  distinct := by decide

def plannedLegs : List (SliHost × WanPair) :=
  (plannedPair.hosts asciiIntl).map fun host =>
    (host, ⟨"SAMPANG", if host.hostid = "10" then "1" else "2", none⟩)

private theorem plannedLegs_entry :
    ("SAMPANG", plannedLegs) ∈ (pathLegs asciiIntl (plannedPair.hosts asciiIntl)).entries := by
  decide +kernel

/-- Each leg has a figure of 0 and the path one of 50. -/
theorem planned_pair_disagrees :
    ("SAMPANG", plannedLegs) ∈ (pathLegs asciiIntl (plannedPair.hosts asciiIntl)).entries ∧
      (plannedPair.path asciiIntl "SAMPANG" plannedLegs).sli = some 50 ∧
      plannedPair.inputs.map plannedPair.context.hostSli = [some 0, some 0] ∧
      ¬ plannedPair.PathAgrees asciiIntl "SAMPANG" plannedLegs := by
  refine ⟨plannedLegs_entry, by decide +kernel, by decide +kernel, fun agrees => ?_⟩
  have fits := agrees.planned_not_in_total
  revert fits
  decide +kernel

/-- The characterisation at that path. -/
theorem path_agrees_iff_planned :
    plannedPair.PathAgrees asciiIntl "SAMPANG" plannedLegs ↔
      plannedPair.FigureComparable plannedLegs :=
  Estate.path_agrees_iff asciiIntl plannedPair "SAMPANG" plannedLegs plannedLegs_entry

end PlannedPair

end ZabbixPortal.Sli
