import ZabbixPortal.Foundation.TopOf
import ZabbixPortal.Services.IncidentsExactness
import ZabbixPortal.Sli.HostFigures
import ZabbixPortal.Sli.IntervalMemory
import Mathlib.Data.Set.Card

/-! The availability report over any open problem: how much of a window each host spent in a
problem state. Percentages are exact. -/

set_option autoImplicit false

namespace ZabbixPortal.Services

open Foundation Sli
open Foundation.HalfOpen (Covers points mem_points Separated)

structure HostAvailability where
  hostid : String
  host : String
  availability : ℚ
  downtime : ℤ
  incidents : Nat
  longest : ℤ
deriving DecidableEq, Repr

structure AvailabilityReport where
  window : ReportWindow
  windowSeconds : ℤ
  minSeverity : ℤ
  hosts : List HostAvailability
  truncated : Bool
  month : Option String
  noDataWindows : List Interval
deriving DecidableEq, Repr

/-- What is gathered of a host: its time in a problem state, interval by interval. -/
structure HostTimes where
  host : String
  intervals : List Interval
  incidents : Nat
deriving DecidableEq, Repr

def keptOf (outside : List Interval) (i : Incident) : List Interval :=
  intersectIntervals [(i.start, i.stop)] outside

def addIncident (outside : List Interval) (byHost : OrderedMap String HostTimes) (i : Incident) :
    OrderedMap String HostTimes :=
  let kept := keptOf outside i
  if kept = [] then byHost
  else
    let row := (byHost.get? i.hostid).getD { host := i.host, intervals := [], incidents := 0 }
    byHost.set i.hostid
      { row with intervals := row.intervals ++ kept, incidents := row.incidents + 1 }

def hostAvailability (windowSeconds : ℤ) (entry : String × HostTimes) : HostAvailability :=
  let seconds := mergedSeconds entry.2.intervals
  { hostid := entry.1
    host := entry.2.host
    availability := max 0 (100 * (1 - seconds.1 / windowSeconds))
    downtime := seconds.1
    incidents := entry.2.incidents
    longest := seconds.2 }

/-- `a.availability - b.availability || b.downtime - a.downtime` -/
def worstHostFirst (a b : HostAvailability) : Ordering :=
  (compareNumbers a.availability b.availability).then (compare b.downtime a.downtime)

def availabilityOf (noDataWindows : List Interval) (month : Option String) (minSeverity : ℤ)
    (read : IncidentReport) : AvailabilityReport :=
  let start := read.window.windowFrom
  let stop := read.window.windowTo
  -- A span declared not measured holds no downtime: an incident inside one does not count.
  let declared := mergeIntervals (clipIntervals noDataWindows start stop)
  let outside := complementIntervals declared start stop
  let byHost := read.incidents.foldl (addIncident outside) .empty
  { window := read.window
    windowSeconds := stop - start
    minSeverity
    hosts := sortBy worstHostFirst (byHost.entries.map (hostAvailability (stop - start)))
    truncated := read.truncated
    month
    noDataWindows := declared }

def getAvailability (zabbix : ZabbixReads) (slices : SliceOptions) (noDataWindows : List Interval)
    (window : ReportWindow) (month : Option String) (minSeverity : ℤ) :
    Except ZabbixApiError AvailabilityReport := do
  let read ← fetchIncidents zabbix slices window minSeverity
  return availabilityOf noDataWindows month minSeverity read

/-! ## What the report says -/

namespace EventHistory

variable (history : EventHistory)

def OpenAt (p : ProblemEvent) (t : ℤ) : Prop :=
  p.clock ≤ t ∧ ∀ clock, history.recoveryClock p = some clock → t < clock

/-- A problem of the history at or above the floor, other than one that began before the
look-back and was resolved after the window. -/
structure Qualifies (window : ReportWindow) (floor : ℤ) (p : ProblemEvent) : Prop where
  known : p ∈ history.problems
  severe : floor ≤ p.severity
  found : ¬ history.Spans window p

/-- A host is down at a second that is measured: a problem of its own that counts is open. -/
structure DownAt (window : ReportWindow) (noData : List Interval) (counts : ProblemEvent → Prop)
    (hostid : String) (t : ℤ) : Prop where
  inside : window.windowFrom ≤ t ∧ t < window.windowTo
  measured : ¬ Covers noData t
  isOpen : ∃ p, counts p ∧ (p.hosts.head?.map (·.hostid)) = some hostid ∧ history.OpenAt p t

/-- A row tells the seconds its host was down, the longest stretch of them and how many
problems made them. -/
structure TellsHost (window : ReportWindow) (noData : List Interval)
    (counts : ProblemEvent → Prop) (row : HostAvailability) : Prop where
  downtime : row.downtime = ({t | history.DownAt window noData counts row.hostid t}.ncard : ℤ)
  down : 0 < row.downtime
  availability : row.availability =
    100 * (1 - (row.downtime : ℚ) / (window.windowTo - window.windowFrom : ℤ))
  bounds : 0 ≤ row.availability ∧ row.availability < 100
  /-- There is a stretch of this length, and none is longer. -/
  reached : ∃ first, ∀ t, first ≤ t → t < first + row.longest →
    history.DownAt window noData counts row.hostid t
  longest : ∀ first last, (∀ t, first ≤ t → t < last →
    history.DownAt window noData counts row.hostid t) → last - first ≤ row.longest
  incidents : row.incidents = {p | counts p ∧ (p.hosts.head?.map (·.hostid)) = some row.hostid ∧
    ∃ t, (window.windowFrom ≤ t ∧ t < window.windowTo) ∧ ¬ Covers noData t ∧
      history.OpenAt p t}.ncard

/-- The report tells of each host that was down once, worst first, and of no other. -/
structure TellsDowntime (window : ReportWindow) (noData : List Interval)
    (counts : ProblemEvent → Prop) (report : AvailabilityReport) : Prop where
  once : (report.hosts.map (·.hostid)).Nodup
  listed : ∀ hostid, hostid ∈ report.hosts.map (·.hostid) ↔
    ∃ t, history.DownAt window noData counts hostid t
  rows : ∀ row ∈ report.hosts, history.TellsHost window noData counts row
  ordered : report.hosts.Pairwise fun a b => a.availability ≤ b.availability
  declared : ∀ t, Covers report.noDataWindows t ↔
    Covers noData t ∧ window.windowFrom ≤ t ∧ t < window.windowTo

end EventHistory

instance transCmp_downtime :
    Std.TransCmp fun a b : HostAvailability => compare b.downtime a.downtime where
  eq_swap := Std.OrientedCmp.eq_swap
  isLE_trans first second := Std.TransCmp.isLE_trans second first

instance transCmp_availability :
    Std.TransCmp fun a b : HostAvailability => compareNumbers a.availability b.availability where
  eq_swap := Std.OrientedCmp.eq_swap
  isLE_trans := Std.TransCmp.isLE_trans

instance transCmp_worstHostFirst : Std.TransCmp worstHostFirst :=
  inferInstanceAs (Std.TransCmp (compareLex
    (fun a b : HostAvailability => compareNumbers a.availability b.availability)
    fun a b : HostAvailability => compare b.downtime a.downtime))

section Stretches

/-! ### The longest stretch -/

/-- Nothing starts where an interval ends. -/
theorem not_covers_end {intervals : List Interval} (separated : Separated intervals)
    {interval : Interval} (member : interval ∈ intervals) : ¬ Covers intervals interval.2 := by
  induction intervals with
  | nil => cases member
  | cons head rest ih =>
      rw [HalfOpen.covers_cons, not_or]
      cases List.mem_cons.mp member with
      | inl own =>
          subst own
          exact ⟨fun inside => lt_irrefl _ inside.2, fun later =>
            lt_irrefl _ (separated.after_head later)⟩
      | inr inRest =>
          have gap := (List.pairwise_cons.mp separated.apart).1 interval inRest
          have proper := separated.tail.proper interval inRest
          exact ⟨fun inside => by omega, ih separated.tail inRest⟩

/-- A stretch that is covered lies in one of the intervals. -/
theorem stretch_inside {intervals : List Interval} (separated : Separated intervals)
    {first last : ℤ} (positive : first < last)
    (covered : ∀ t, first ≤ t → t < last → Covers intervals t) :
    ∃ interval ∈ intervals, interval.1 ≤ first ∧ last ≤ interval.2 := by
  obtain ⟨interval, member, lower, upper⟩ := covered first le_rfl positive
  refine ⟨interval, member, lower, ?_⟩
  by_contra shorter
  exact not_covers_end separated member (covered _ upper.le (not_le.mp shorter))

theorem foldl_longest (intervals : List Interval) (longest : ℤ) :
    intervals.foldl (fun longest interval => max longest (interval.2 - interval.1)) longest =
        longest ∨
      ∃ interval ∈ intervals, intervals.foldl
        (fun longest interval => max longest (interval.2 - interval.1)) longest =
          interval.2 - interval.1 := by
  induction intervals generalizing longest with
  | nil => exact .inl rfl
  | cons interval rest ih =>
      rw [List.foldl_cons]
      cases ih (max longest (interval.2 - interval.1)) with
      | inl kept =>
          rw [kept]
          cases max_choice longest (interval.2 - interval.1) with
          | inl before => exact .inl before
          | inr own => exact .inr ⟨interval, List.mem_cons_self, own⟩
      | inr later =>
          obtain ⟨other, member, same⟩ := later
          exact .inr ⟨other, List.mem_cons_of_mem _ member, same⟩

theorem le_longestOf {intervals : List Interval} {interval : Interval}
    (member : interval ∈ intervals) : interval.2 - interval.1 ≤ longestOf intervals := by
  have grows : ∀ (rest : List Interval) (longest : ℤ), longest ≤ rest.foldl
      (fun longest interval => max longest (interval.2 - interval.1)) longest := by
    intro rest
    induction rest with
    | nil => exact fun _ => le_rfl
    | cons head rest ih => exact fun longest => (le_max_left _ _).trans (ih _)
  obtain ⟨front, rest, rfl⟩ := List.append_of_mem member
  rw [longestOf, List.foldl_append, List.foldl_cons]
  exact (le_max_right _ _).trans (grows rest _)

/-- The longest of merged intervals is the length of the longest stretch they cover. -/
theorem longest_stretch (intervals : List Interval) :
    (∃ first, ∀ t, first ≤ t → t < first + longestOf (mergeIntervals intervals) →
      Covers intervals t) ∧
    ∀ first last, (∀ t, first ≤ t → t < last → Covers intervals t) →
      last - first ≤ longestOf (mergeIntervals intervals) := by
  constructor
  · cases foldl_longest (mergeIntervals intervals) 0 with
    | inl empty =>
        refine ⟨0, fun t lower upper => ?_⟩
        rw [longestOf, empty] at upper
        omega
    | inr reached =>
        obtain ⟨interval, member, same⟩ := reached
        refine ⟨interval.1, fun t lower upper => ?_⟩
        rw [longestOf, same] at upper
        exact (covers_mergeIntervals intervals t).mp ⟨interval, member, lower, by omega⟩
  · intro first last covered
    by_cases positive : first < last
    · obtain ⟨interval, member, lower, upper⟩ := stretch_inside
        (mergeIntervals_separated intervals) positive fun t above below =>
          (covers_mergeIntervals intervals t).mpr (covered t above below)
      have most := le_longestOf member
      omega
    · exact (by omega : last - first ≤ 0).trans (longestOf_nonneg _)

end Stretches

section Rows

/-! ### The rows -/

variable {outside : List Interval}

theorem byHost_get? (incidents : List Incident) (hostid : String) :
    (incidents.foldl (addIncident outside) .empty).get? hostid =
      (incidents.filter fun i => i.hostid = hostid && !(keptOf outside i).isEmpty).head?.map
        fun first =>
          let own := incidents.filter fun i => i.hostid = hostid && !(keptOf outside i).isEmpty
          { host := first.host
            intervals := own.flatMap (keptOf outside)
            incidents := own.length } := by
  induction incidents using List.reverseRecOn with
  | nil => rfl
  | append_singleton incidents i ih =>
      rw [List.foldl_append, List.foldl_cons, List.foldl_nil, List.filter_append]
      generalize incidents.foldl (addIncident outside) .empty = byHost at ih
      generalize incidents.filter (fun i => i.hostid = hostid && !(keptOf outside i).isEmpty) =
        own at ih
      unfold addIncident
      dsimp only
      by_cases empty : keptOf outside i = []
      · rw [if_pos empty, List.filter_cons_of_neg (by simp [empty]), List.filter_nil,
          List.append_nil]
        exact ih
      · rw [if_neg empty, OrderedMap.get?_set]
        have filled : (keptOf outside i).isEmpty = false := by simpa using empty
        by_cases same : hostid = i.hostid
        · subst same
          rw [if_pos rfl, ih, List.filter_cons_of_pos (by simp [filled]), List.filter_nil]
          cases own with
          | nil => simp
          | cons first rest => simp
        · rw [if_neg same, List.filter_cons_of_neg (by simp [Ne.symm same]), List.filter_nil,
            List.append_nil]
          exact ih

end Rows

namespace EventHistory

section Counted

/-! ### The problems that count -/

variable {history : EventHistory} {slices : SliceOptions} {window : ReportWindow} {floor : ℤ}

structure Counted (history : EventHistory) (window : ReportWindow) (floor : ℤ)
    (report : IncidentReport) (counted : List ProblemEvent) : Prop where
  window_eq : report.window = window
  ids : (counted.map (·.eventid)).Nodup
  incidents : report.incidents = counted.map (history.incident window)
  sound : ∀ p ∈ counted, history.Counts window floor p ∧ ¬ history.Spans window p
  complete : ∀ p, history.Counts window floor p → ¬ history.Spans window p →
    (report.truncated = true → window.windowFrom - OPEN_AT_START_LOOKBACK ≤ p.clock) →
    p ∈ counted

theorem exists_counted {report : IncidentReport} (closing : history.OkCloses)
    (forward : window.windowFrom < window.windowTo)
    (fetched : fetchIncidents history.zabbix slices window floor = .ok report) :
    ∃ counted, Counted history window floor report counted := by
  obtain ⟨reads, read, made⟩ := except_bind_ok fetched
  cases made
  have answered := answered_of_read read
  refine ⟨(qualifyingOf history window floor reads).filter fun p =>
    decide (max p.clock window.windowFrom < history.stop window p), rfl, ?_, ?_, ?_, ?_⟩
  · exact (qualifyingOf_ids_nodup history window floor reads).sublist (List.filter_sublist.map _)
  · rw [incidentsOf_incidents, ← List.filterMap_eq_map, List.filterMap_filter]
    refine List.filterMap_congr fun p qualifies => ?_
    rw [(qualifying_incident answered forward.le qualifies).2]
    simp only [decide_eq_true_eq, Function.comp]
  · intro p member
    obtain ⟨qualifies, share⟩ := List.mem_filter.mp member
    exact ⟨⟨(qualifying_incident answered forward.le qualifies).1,
      ((mem_qualifyingOf answered forward.le p).mp qualifies).2, of_decide_eq_true share⟩,
      not_spans_of_qualifying answered forward.le qualifies⟩
  · intro p counts inside reached
    exact List.mem_filter.mpr ⟨counts_found closing answered forward counts inside reached,
      decide_eq_true counts.2.2⟩

/-- Inside the window an incident holds the seconds at which its problem is open. -/
theorem openAt_iff {p : ProblemEvent} {t : ℤ}
    (inside : window.windowFrom ≤ t ∧ t < window.windowTo) :
    ((history.incident window p).start ≤ t ∧ t < (history.incident window p).stop) ↔
      history.OpenAt p t := by
  change (max p.clock window.windowFrom ≤ t ∧ t < history.stop window p) ↔ _
  rw [stop, OpenAt, max_le_iff, lt_min_iff]
  cases recovered : history.recoveryClock p with
  | none => simp only [Option.getD_none, reduceCtorEq, false_implies, implies_true, and_true]; tauto
  | some clock =>
      simp only [Option.getD_some, Option.some.injEq, forall_eq']
      tauto

/-- A problem with an open second inside the window counts there. -/
theorem counts_of_openAt {p : ProblemEvent} (qualifies : history.Qualifies window floor p) {t : ℤ}
    (inside : window.windowFrom ≤ t ∧ t < window.windowTo) (isOpen : history.OpenAt p t) :
    history.Counts window floor p := by
  have share := (openAt_iff inside).mpr isOpen
  exact ⟨qualifies.known, qualifies.severe, share.1.trans_lt share.2⟩

theorem hostid_iff {p : ProblemEvent} (known : p ∈ history.problems) (hostid : String) :
    (history.incident window p).hostid = hostid ↔
      (p.hosts.head?.map (·.hostid)) = some hostid := by
  obtain ⟨h, alone⟩ := history.oneHost p known
  change (p.hosts.head?.map (·.hostid)).getD "" = hostid ↔ _
  rw [alone, List.head?_cons, Option.map_some, Option.getD_some, Option.some_inj]

end Counted

section Report

variable {history : EventHistory} {window : ReportWindow} {floor : ℤ} {noData : List Interval}
  {report : IncidentReport} {counted : List ProblemEvent}

def measuredIn (window : ReportWindow) (noData : List Interval) : List Interval :=
  complementIntervals (mergeIntervals (clipIntervals noData window.windowFrom window.windowTo))
    window.windowFrom window.windowTo

theorem covers_measuredIn (t : ℤ) : Covers (measuredIn window noData) t ↔
    (window.windowFrom ≤ t ∧ t < window.windowTo) ∧ ¬ Covers noData t := by
  rw [measuredIn, covers_complementIntervals, covers_mergeIntervals, covers_clipIntervals]
  tauto

theorem covers_keptOf (outside : List Interval) (i : Incident) (t : ℤ) :
    Covers (keptOf outside i) t ↔ (i.start ≤ t ∧ t < i.stop) ∧ Covers outside t := by
  rw [keptOf, covers_intersectIntervals, HalfOpen.covers_cons]
  simp

/-- An incident with no time that is measured leaves nothing. -/
theorem keptOf_ne_nil_iff (outside : List Interval) (i : Incident) :
    keptOf outside i ≠ [] ↔ ∃ t, Covers (keptOf outside i) t := by
  constructor
  · intro nonempty
    obtain ⟨interval, member⟩ := List.exists_mem_of_ne_nil _ nonempty
    exact ⟨interval.1, interval, member, le_rfl,
      (intersectIntervals_separated _ _).proper interval member⟩
  · rintro ⟨t, interval, member, _⟩ empty
    rw [empty] at member
    cases member

def ownOf (history : EventHistory) (window : ReportWindow) (noData : List Interval)
    (counted : List ProblemEvent) (hostid : String) : List ProblemEvent :=
  counted.filter fun p => decide ((history.incident window p).hostid = hostid) &&
    !(keptOf (measuredIn window noData) (history.incident window p)).isEmpty

theorem mem_ownOf (sound : ∀ p ∈ counted, p ∈ history.problems) (hostid : String)
    (p : ProblemEvent) : p ∈ ownOf history window noData counted hostid ↔
      p ∈ counted ∧ (p.hosts.head?.map (·.hostid)) = some hostid ∧
        ∃ t, (window.windowFrom ≤ t ∧ t < window.windowTo) ∧ ¬ Covers noData t ∧
          history.OpenAt p t := by
  rw [ownOf, List.mem_filter, Bool.and_eq_true, decide_eq_true_iff, Bool.not_eq_true',
    List.isEmpty_eq_false_iff, keptOf_ne_nil_iff]
  simp only [covers_keptOf, covers_measuredIn]
  constructor
  · rintro ⟨member, own, t, bounds, inside, measured⟩
    exact ⟨member, (hostid_iff (sound p member) hostid).mp own, t, inside, measured,
      (openAt_iff inside).mp bounds⟩
  · rintro ⟨member, own, t, inside, measured, isOpen⟩
    exact ⟨member, (hostid_iff (sound p member) hostid).mpr own, t, (openAt_iff inside).mpr isOpen,
      inside, measured⟩

/-- The times gathered of a host cover the seconds it was down. -/
theorem covers_own (sound : ∀ p ∈ counted, p ∈ history.problems) (hostid : String) (t : ℤ) :
    Covers ((ownOf history window noData counted hostid).flatMap fun p =>
        keptOf (measuredIn window noData) (history.incident window p)) t ↔
      history.DownAt window noData (· ∈ counted) hostid t := by
  rw [HalfOpen.covers_flatMap]
  simp only [covers_keptOf, covers_measuredIn]
  constructor
  · rintro ⟨p, own, bounds, inside, measured⟩
    have member := (mem_ownOf sound hostid p).mp own
    exact ⟨inside, measured, p, member.1, member.2.1, (openAt_iff inside).mp bounds⟩
  · rintro ⟨inside, measured, p, member, host, isOpen⟩
    exact ⟨p, (mem_ownOf sound hostid p).mpr ⟨member, host, t, inside, measured, isOpen⟩,
      (openAt_iff inside).mpr isOpen, inside, measured⟩

/-- The row made of a host's problems. -/
theorem tells_host (sound : ∀ p ∈ counted, p ∈ history.problems)
    (ids : (counted.map (·.eventid)).Nodup) (forward : window.windowFrom < window.windowTo)
    {hostid host : String} (nonempty : ownOf history window noData counted hostid ≠ []) :
    history.TellsHost window noData (· ∈ counted)
      (hostAvailability (window.windowTo - window.windowFrom)
        (hostid, { host
                   intervals := (ownOf history window noData counted hostid).flatMap fun p =>
                     keptOf (measuredIn window noData) (history.incident window p)
                   incidents := (ownOf history window noData counted hostid).length })) := by
  have covered : ∀ t, Covers ((ownOf history window noData counted hostid).flatMap fun p =>
      keptOf (measuredIn window noData) (history.incident window p)) t ↔
        history.DownAt window noData (· ∈ counted) hostid t := covers_own sound hostid
  generalize intervalsOf : ((ownOf history window noData counted hostid).flatMap fun p =>
    keptOf (measuredIn window noData) (history.incident window p)) = intervals at covered
  have downSet : {t | history.DownAt window noData (· ∈ counted) hostid t} = ↑(points intervals) := by
    ext t
    rw [Set.mem_ofPred_eq, Finset.mem_coe, mem_points, covered]
  have seconds : totalSeconds intervals =
      ({t | history.DownAt window noData (· ∈ counted) hostid t}.ncard : ℤ) := by
    rw [downSet, Set.ncard_coe_finset, totalSeconds_eq_card]
  have positive : 0 < totalSeconds intervals := by
    obtain ⟨p, own⟩ := List.exists_mem_of_ne_nil _ nonempty
    obtain ⟨member, host, t, inside, measured, isOpen⟩ := (mem_ownOf sound hostid p).mp own
    have down : Covers intervals t := (covered t).mpr ⟨inside, measured, p, member, host, isOpen⟩
    have nonzero := mt (totalSeconds_eq_zero_iff intervals).mp fun never => never t down
    exact lt_of_le_of_ne (totalSeconds_nonneg intervals) (Ne.symm nonzero)
  have within : totalSeconds intervals ≤ window.windowTo - window.windowFrom := by
    rw [totalSeconds_eq_card]
    exact HalfOpen.card_points_le_of_subset (fun t down => ((covered t).mp down).inside) forward.le
  have wide : (0 : ℚ) < (window.windowTo - window.windowFrom : ℤ) := by
    exact_mod_cast sub_pos.mpr forward
  have share : (totalSeconds intervals : ℚ) / (window.windowTo - window.windowFrom : ℤ) ≤ 1 := by
    rw [div_le_one wide]
    exact_mod_cast within
  have lost : 0 < (totalSeconds intervals : ℚ) / (window.windowTo - window.windowFrom : ℤ) :=
    div_pos (by exact_mod_cast positive) wide
  have figure : max 0 (100 * (1 - (totalSeconds intervals : ℚ) /
      (window.windowTo - window.windowFrom : ℤ))) =
      100 * (1 - (totalSeconds intervals : ℚ) / (window.windowTo - window.windowFrom : ℤ)) :=
    max_eq_right (by linarith)
  obtain ⟨reached, longest⟩ := longest_stretch intervals
  refine ⟨seconds, positive, figure, ⟨le_max_left _ _, ?_⟩, ?_, ?_, ?_⟩
  · change max 0 (100 * (1 - (totalSeconds intervals : ℚ) /
      (window.windowTo - window.windowFrom : ℤ))) < 100
    rw [figure]
    linarith
  · obtain ⟨first, stretch⟩ := reached
    exact ⟨first, fun t lower upper => (covered t).mp (stretch t lower upper)⟩
  · exact fun first last down => longest first last fun t lower upper =>
      (covered t).mpr (down t lower upper)
  · have once : (ownOf history window noData counted hostid).Nodup :=
      (ids.of_map _).sublist List.filter_sublist
    rw [← List.toFinset_card_of_nodup once, ← Set.ncard_coe_finset]
    refine congrArg Set.ncard ?_
    ext p
    rw [Finset.mem_coe, List.mem_toFinset, mem_ownOf sound]
    rfl

/-- What is gathered of a host is what its problems left. -/
theorem gathered_get? (incidents : report.incidents = counted.map (history.incident window))
    (hostid : String) :
    (report.incidents.foldl (addIncident (measuredIn window noData)) .empty).get? hostid =
      (ownOf history window noData counted hostid).head?.map fun first =>
        { host := (history.incident window first).host
          intervals := (ownOf history window noData counted hostid).flatMap fun p =>
            keptOf (measuredIn window noData) (history.incident window p)
          incidents := (ownOf history window noData counted hostid).length } := by
  rw [byHost_get?, incidents, List.filter_map]
  simp only [List.head?_map, Option.map_map, List.flatMap_map, List.length_map]
  rfl

theorem entries_iff (incidents : report.incidents = counted.map (history.incident window))
    (entry : String × HostTimes) :
    entry ∈ (report.incidents.foldl (addIncident (measuredIn window noData)) .empty).entries ↔
      (ownOf history window noData counted entry.1).head?.map (fun first =>
        { host := (history.incident window first).host
          intervals := (ownOf history window noData counted entry.1).flatMap fun p =>
            keptOf (measuredIn window noData) (history.incident window p)
          incidents := (ownOf history window noData counted entry.1).length }) = some entry.2 := by
  rw [← gathered_get? incidents, OrderedMap.get?_eq_some_iff]

end Report

end EventHistory

/-- The all-problems report tells of every host that was down while measured, and how long,
from any history in which OK events close what is open: all of it unless its look-ups were
cut. -/
theorem getAvailability_tells (history : EventHistory) (slices : SliceOptions)
    (noData : List Interval) (window : ReportWindow) (month : Option String) (floor : ℤ)
    (report : AvailabilityReport) (closing : history.OkCloses)
    (forward : window.windowFrom < window.windowTo)
    (answered : getAvailability history.zabbix slices noData window month floor = .ok report) :
    ∃ counts : ProblemEvent → Prop,
      (∀ p, counts p → history.Qualifies window floor p) ∧
      (∀ p t, history.Qualifies window floor p →
        (window.windowFrom ≤ t ∧ t < window.windowTo) → history.OpenAt p t →
        (report.truncated = true → window.windowFrom - OPEN_AT_START_LOOKBACK ≤ p.clock) →
        counts p) ∧
      history.TellsDowntime window noData counts report := by
  obtain ⟨read, fetched, made⟩ := except_bind_ok answered
  cases made
  obtain ⟨counted, behind⟩ := EventHistory.exists_counted closing forward fetched
  have sound : ∀ p ∈ counted, p ∈ history.problems := fun p member => (behind.sound p member).1.1
  refine ⟨(· ∈ counted), fun p member => ⟨sound p member, (behind.sound p member).1.2.1,
    (behind.sound p member).2⟩, fun p t qualifies inside isOpen reached =>
      behind.complete p (EventHistory.counts_of_openAt qualifies inside isOpen) qualifies.found
        reached, ?_⟩
  have hosts : (availabilityOf noData month floor read).hosts = sortBy worstHostFirst
      ((read.incidents.foldl (addIncident (EventHistory.measuredIn window noData)) .empty).entries.map
        (hostAvailability (window.windowTo - window.windowFrom))) := by
    rw [← behind.window_eq]
    rfl
  have rowOf : ∀ row, row ∈ (availabilityOf noData month floor read).hosts ↔
      ∃ entry ∈ (read.incidents.foldl (addIncident (EventHistory.measuredIn window noData))
        .empty).entries, hostAvailability (window.windowTo - window.windowFrom) entry = row := by
    intro row
    rw [hosts, mem_sortBy, List.mem_map]
  refine ⟨?_, fun hostid => ?_, fun row member => ?_, ?_, fun t => ?_⟩
  · rw [hosts]
    refine ((sortBy_perm _ _).map _).nodup_iff.mpr ?_
    rw [List.map_map]
    exact OrderedMap.keys_nodup _
  · rw [List.mem_map]
    constructor
    · rintro ⟨row, member, rfl⟩
      obtain ⟨entry, inEntries, rfl⟩ := (rowOf row).mp member
      obtain ⟨p, first, _⟩ := Option.map_eq_some_iff.mp
        ((EventHistory.entries_iff behind.incidents entry).mp inEntries)
      have own := (EventHistory.mem_ownOf sound entry.1 p).mp (List.mem_of_head? first)
      obtain ⟨member, host, t, inside, measured, isOpen⟩ := own
      exact ⟨t, inside, measured, p, member, host, isOpen⟩
    · rintro ⟨t, inside, measured, p, member, host, isOpen⟩
      have own := (EventHistory.mem_ownOf sound hostid p).mpr
        ⟨member, host, t, inside, measured, isOpen⟩
      obtain ⟨first, rest, shape⟩ := List.exists_cons_of_ne_nil (List.ne_nil_of_mem own)
      have listed := (EventHistory.entries_iff behind.incidents (hostid, _)).mpr
        (by rw [shape]; rfl)
      exact ⟨_, (rowOf _).mpr ⟨_, listed, rfl⟩, rfl⟩
  · obtain ⟨⟨hostid, times⟩, inEntries, rfl⟩ := (rowOf row).mp member
    obtain ⟨first, isFirst, gathered⟩ := Option.map_eq_some_iff.mp
      ((EventHistory.entries_iff behind.incidents (hostid, times)).mp inEntries)
    dsimp only at isFirst gathered
    subst gathered
    exact EventHistory.tells_host sound behind.ids forward
      (List.ne_nil_of_mem (List.mem_of_head? isFirst))
  · rw [hosts]
    refine (pairwise_sortBy worstHostFirst _).imp fun before => ?_
    rw [← compareNumbers_ne_gt]
    intro after
    rw [worstHostFirst, after] at before
    exact before rfl
  · change Covers (mergeIntervals (clipIntervals noData read.window.windowFrom
      read.window.windowTo)) t ↔ _
    rw [behind.window_eq, covers_mergeIntervals, covers_clipIntervals]

def longOutageHosts : List HostAvailability :=
  [{ hostid := "11", host := "2.2.1 SWITCH", availability := 125 / 27, downtime := 82400
     incidents := 1, longest := 82400 },
   { hostid := "10", host := "1.2.1 CORESWITCH", availability := 2375 / 24, downtime := 900
     incidents := 1, longest := 900 }]

/-- The report of that day. -/
theorem getAvailability_tells_longOutage :
    getAvailability EventHistory.longOutage.zabbix .standard [(3456000, 3456100)]
        EventHistory.longOutageWindow none 3 =
      .ok { window := EventHistory.longOutageWindow, windowSeconds := 86400, minSeverity := 3
            hosts := longOutageHosts, truncated := false, month := none
            noDataWindows := [(3456000, 3456100)] } ∧
    ∃ counts : ProblemEvent → Prop, EventHistory.longOutage.TellsDowntime
      EventHistory.longOutageWindow [(3456000, 3456100)] counts
      { window := EventHistory.longOutageWindow, windowSeconds := 86400, minSeverity := 3
        hosts := longOutageHosts, truncated := false, month := none
        noDataWindows := [(3456000, 3456100)] } := by
  have answered : getAvailability EventHistory.longOutage.zabbix .standard [(3456000, 3456100)]
      EventHistory.longOutageWindow none 3 =
        .ok { window := EventHistory.longOutageWindow, windowSeconds := 86400, minSeverity := 3
              hosts := longOutageHosts, truncated := false, month := none
              noDataWindows := [(3456000, 3456100)] } := by decide +kernel
  obtain ⟨counts, _, _, tells⟩ := getAvailability_tells EventHistory.longOutage .standard
    [(3456000, 3456100)] EventHistory.longOutageWindow none 3 _ (by decide) (by decide) answered
  exact ⟨answered, counts, tells⟩

end ZabbixPortal.Services
