import ZabbixPortal.Sli.HostFigures

/-! The groups of a report split its hosts, so their figures add up to the estate's. -/

set_option autoImplicit false

namespace ZabbixPortal.Sli

open Foundation Domain

def SliGroup.weighted (group : SliGroup) : Option ℚ := group.sli.map (· * group.withData)

structure Partition {κ : Type} (keyOf : SliHost → κ) (hosts : List SliHost) (target : ℚ)
    (groups : List SliGroup) (parts : List (κ × List SliHost)) : Prop where
  keys : (parts.map Prod.fst).Nodup
  keyed : ∀ part ∈ parts, part.2 ≠ [] ∧ ∀ host ∈ part.2, keyOf host = part.1
  whole : (parts.flatMap Prod.snd).Perm hosts
  grouped : ∃ (toKey : κ → GroupKey) (nameOf : κ × List SliHost → String),
    groups.Perm (parts.map fun part => aggregate (toKey part.1) (nameOf part) part.2 target)

structure AddsUp (groups : List SliGroup) (overall : SliGroup) : Prop where
  hosts : (groups.map (·.hosts)).sum = overall.hosts
  withData : (groups.map (·.withData)).sum = overall.withData
  downtime : (groups.map (·.downtime)).sum = overall.downtime
  belowTarget : (groups.map (·.belowTarget)).sum = overall.belowTarget
  figures : (groups.filterMap SliGroup.weighted).sum = overall.weighted.getD 0
  without : ∀ group ∈ groups, group.sli = none ↔ group.withData = 0
  bounds : ∀ group ∈ groups, group.belowTarget ≤ group.withData ∧ group.withData ≤ group.hosts

section Aggregate

variable (key : GroupKey) (name : String) (hosts : List SliHost) (target : ℚ)

theorem aggregate_hosts : (aggregate key name hosts target).hosts =
    (hosts.map fun _ => 1).sum := by
  simp [aggregate]

theorem aggregate_withData : (aggregate key name hosts target).withData =
    (hosts.map fun host => if host.sli.isSome then 1 else 0).sum := by
  unfold aggregate
  dsimp only
  induction hosts with
  | nil => rfl
  | cons host rest ih =>
      cases figured : host.sli with
      | none =>
          rw [List.filterMap_cons_none figured, List.map_cons, List.sum_cons, ih]
          simp [figured]
      | some sli =>
          rw [List.filterMap_cons_some figured, List.map_cons, List.sum_cons, List.length_cons, ih]
          simp [figured, Nat.add_comm]

theorem aggregate_belowTarget : (aggregate key name hosts target).belowTarget =
    (hosts.map fun host => if host.meeting = some false then 1 else 0).sum := by
  unfold aggregate
  dsimp only
  induction hosts with
  | nil => rfl
  | cons host rest ih =>
      rw [List.map_cons, List.sum_cons, ← ih]
      by_cases missed : host.meeting = some false
      · simp [missed, Nat.add_comm]
      · simp [missed]

theorem aggregate_none_iff : (aggregate key name hosts target).sli = none ↔
    (aggregate key name hosts target).withData = 0 := by
  unfold aggregate
  dsimp only
  rw [mean_eq_none_iff, List.length_eq_zero_iff]

theorem aggregate_weighted : (aggregate key name hosts target).weighted.getD 0 =
    (hosts.map fun host => host.sli.getD 0).sum := by
  have figures : (hosts.filterMap (·.sli)).sum = (hosts.map fun host => host.sli.getD 0).sum := by
    induction hosts with
    | nil => rfl
    | cons host rest ih =>
        cases figured : host.sli with
        | none =>
            rw [List.filterMap_cons_none figured, List.map_cons, List.sum_cons, ih]
            simp [figured]
        | some sli =>
            rw [List.filterMap_cons_some figured, List.map_cons, List.sum_cons, List.sum_cons, ih]
            simp [figured]
  rw [← figures]
  unfold SliGroup.weighted aggregate
  dsimp only
  by_cases empty : hosts.filterMap (·.sli) = []
  · rw [empty]
    rfl
  · have count : ((hosts.filterMap (·.sli)).length : ℚ) ≠ 0 := by
      exact_mod_cast (List.length_pos_of_ne_nil empty).ne'
    rw [mean_of_ne_nil empty, Option.map_some, Option.getD_some]
    field_simp

/-- Only a host with a figure can miss the target. -/
theorem aggregate_bounds (judged : ∀ host ∈ hosts, host.meeting = some false → host.sli.isSome) :
    (aggregate key name hosts target).belowTarget ≤ (aggregate key name hosts target).withData ∧
      (aggregate key name hosts target).withData ≤ (aggregate key name hosts target).hosts := by
  rw [aggregate_belowTarget, aggregate_withData, aggregate_hosts]
  constructor
  · apply List.sum_le_sum
    intro host member
    by_cases missed : host.meeting = some false
    · simp [missed, judged host member missed]
    · simp [missed]
  · apply List.sum_le_sum
    intro host _
    cases host.sli <;> simp

end Aggregate

section Parts

variable {κ : Type} {keyOf : SliHost → κ} {hosts : List SliHost} {target : ℚ}
  {groups : List SliGroup} {parts : List (κ × List SliHost)}

theorem sum_of_parts {M : Type} [AddCommMonoid M] (value : SliHost → M)
    (whole : (parts.flatMap Prod.snd).Perm hosts) :
    (parts.map fun part => (part.2.map value).sum).sum = (hosts.map value).sum := by
  rw [← (whole.map value).sum_eq, List.map_flatMap]
  clear whole
  induction parts with
  | nil => rfl
  | cons part rest ih =>
      rw [List.flatMap_cons, List.sum_append, List.map_cons, List.sum_cons, ih]

private theorem sum_filterMap (groups : List SliGroup) :
    (groups.filterMap SliGroup.weighted).sum =
      (groups.map fun group => group.weighted.getD 0).sum := by
  induction groups with
  | nil => rfl
  | cons group rest ih =>
      cases figured : group.weighted with
      | none =>
          rw [List.filterMap_cons_none figured, List.map_cons, List.sum_cons, ih]
          simp [figured]
      | some value =>
          rw [List.filterMap_cons_some figured, List.map_cons, List.sum_cons, List.sum_cons, ih]
          simp [figured]

/-- Any figure of a group that is a sum over its hosts adds up over the parts. -/
theorem Partition.sum_eq {M : Type} [AddCommMonoid M]
    (partition : Partition keyOf hosts target groups parts) (figure : SliGroup → M)
    (value : SliHost → M)
    (summed : ∀ key name hosts, figure (aggregate key name hosts target) =
      (hosts.map value).sum) (key : GroupKey) (name : String) :
    (groups.map figure).sum = figure (aggregate key name hosts target) := by
  obtain ⟨toKey, nameOf, same⟩ := partition.grouped
  rw [(same.map figure).sum_eq, List.map_map, summed, ← sum_of_parts value partition.whole]
  apply congrArg
  apply List.map_congr_left
  intro part _
  exact summed _ _ _

theorem Partition.addsUp (partition : Partition keyOf hosts target groups parts)
    (judged : ∀ host ∈ hosts, host.meeting = some false → host.sli.isSome)
    (key : GroupKey) (name : String) : AddsUp groups (aggregate key name hosts target) where
  hosts := partition.sum_eq (·.hosts) _ (fun _ _ _ => aggregate_hosts _ _ _ _) key name
  withData := partition.sum_eq (·.withData) _ (fun _ _ _ => aggregate_withData _ _ _ _) key name
  downtime := partition.sum_eq (·.downtime) _ (fun _ _ _ => rfl) key name
  belowTarget :=
    partition.sum_eq (·.belowTarget) _ (fun _ _ _ => aggregate_belowTarget _ _ _ _) key name
  figures := by
    rw [sum_filterMap]
    exact partition.sum_eq (fun group => group.weighted.getD 0) _
      (fun _ _ _ => aggregate_weighted _ _ _ _) key name
  without := by
    intro group member
    obtain ⟨toKey, nameOf, same⟩ := partition.grouped
    obtain ⟨part, _, rfl⟩ := List.mem_map.mp (same.mem_iff.mp member)
    exact aggregate_none_iff _ _ _ _
  bounds := by
    intro group member
    obtain ⟨toKey, nameOf, same⟩ := partition.grouped
    obtain ⟨part, inParts, rfl⟩ := List.mem_map.mp (same.mem_iff.mp member)
    apply aggregate_bounds
    intro host inPart
    apply judged
    exact partition.whole.mem_iff.mp (List.mem_flatMap.mpr ⟨part, inParts, inPart⟩)

/-- The buckets of a grouping are such parts, in whatever order the groups are listed. -/
theorem partition_of_groupHosts [DecidableEq κ] (toKey : κ → GroupKey)
    (nameOf : κ → SliHost → String) (same : groups.Perm (groupHosts keyOf toKey nameOf hosts target)) :
    Partition keyOf hosts target groups (groupBy keyOf hosts).entries where
  keys := (groupBy keyOf hosts).distinct
  keyed := by
    intro part member
    refine ⟨groupBy_bucket_ne_nil member, ?_⟩
    intro host inPart
    rw [groupBy_bucket member] at inPart
    simpa using (List.mem_filter.mp inPart).2
  whole := groupBy_perm keyOf hosts
  grouped := ⟨toKey, fun part => (part.2.head?.map (nameOf part.1)).getD "", same⟩

end Parts

/-- The three groupings of a report, each a partition whose figures add up. -/
structure GroupsAddUp (report : SliReport) : Prop where
  categories : AddsUp report.categories report.overall ∧
    ∃ parts, Partition (·.category) report.hosts report.target report.categories parts
  sites : AddsUp report.sites report.overall ∧
    ∃ parts, Partition (fun host => host.site.map (·.code)) report.hosts report.target
      report.sites parts
  classes : AddsUp report.classes report.overall ∧
    ∃ parts, Partition (·.deviceClass) report.hosts report.target report.classes parts

/-- The groups of every report that is computed add up to its overall figures. -/
theorem group_figures_add_up (intl : Intl) (settings : SliSettings) (request : SliRequest)
    (now : ℤ) (reads : SliReads) (report : SliReport)
    (computed : computeSli intl settings request now reads = .ok report) : GroupsAddUp report := by
  obtain ⟨estate, windowTo, closed, web, _, rfl⟩ :=
    computeSli_is_estate_report intl settings request now reads report computed
  have judged : ∀ host ∈ estate.hosts intl, host.meeting = some false → host.sli.isSome := by
    intro host member missed
    obtain ⟨input, _, rfl⟩ := List.mem_map.mp ((mem_sortBy _ _ _).mp member)
    simp only [SliContext.hostRow] at missed ⊢
    cases figured : estate.context.hostSli input with
    | none =>
        rw [figured] at missed
        cases missed
    | some sli => rfl
  constructor
  · have partition : Partition (·.category) (estate.hosts intl) estate.context.target
        (categoriesOf intl (estate.hosts intl) estate.context.target) _ :=
      partition_of_groupHosts .category (fun key _ => key) (sortBy_perm _ _)
    exact ⟨partition.addsUp judged _ _, _, partition⟩
  · have partition : Partition (fun host => host.site.map (·.code)) (estate.hosts intl)
        estate.context.target (sitesOf (estate.hosts intl) estate.context.target) _ :=
      partition_of_groupHosts .site (fun _ host => siteName host.site) (sortBy_perm _ _)
    exact ⟨partition.addsUp judged _ _, _, partition⟩
  · have partition : Partition (·.deviceClass) (estate.hosts intl) estate.context.target
        (classesOf intl (estate.hosts intl) estate.context.target) _ :=
      partition_of_groupHosts .deviceClass (fun key _ => DEVICE_CLASS_LABELS key)
        (sortBy_perm _ _)
    exact ⟨partition.addsUp judged _ _, _, partition⟩

section Pair

/-! A switch at Jakarta and a host no site names, asked about under HCML's profile. -/

def pairSettings : SliSettings where
  calendar := fun _ => (0, 0)
  target := 99
  minCoverage := 1 / 10
  noDataWindows := []
  slices := .standard

def pairReads : SliReads where
  triggers := [⟨"1", .ok, 0, [⟨"10", "1.2.1 CORESWITCH", "0"⟩]⟩, ⟨"2", .problem, 0, [⟨"11", "LAB", "0"⟩]⟩]
  parents := .empty
  icmpItems := []
  eventGet := fun _ _ _ _ => []
  maintenance := .empty
  coverage := .empty
  coverageGaps := []
  web := []

def pairRequest : SliRequest := ⟨.hcmlReport, none, some (0, 100)⟩

theorem group_figures_add_up_pair : ∃ report,
    computeSli asciiIntl pairSettings pairRequest 100 pairReads = .ok report ∧
      report.overall.sli = some (101 / 2) ∧ GroupsAddUp report := by
  have figure : (computeSli asciiIntl pairSettings pairRequest 100 pairReads).toOption.map
      (·.overall.sli) = some (some (101 / 2)) := by decide +kernel
  cases computed : computeSli asciiIntl pairSettings pairRequest 100 pairReads with
  | error error =>
      rw [computed] at figure
      cases figure
  | ok report =>
      rw [computed] at figure
      exact ⟨report, rfl, Option.some.inj figure,
        group_figures_add_up asciiIntl pairSettings pairRequest 100 pairReads report computed⟩

end Pair

end ZabbixPortal.Sli
