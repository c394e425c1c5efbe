import ZabbixPortal.Services.IncidentsProperties

/-! Every outage of a report's window is found once. -/

set_option autoImplicit false

namespace ZabbixPortal.Services

open Foundation Sli

/-- A partial relabelling that keeps distinct labels keeps them distinct. -/
theorem nodup_filterMap_of_map {α β : Type} {label : α → β} {relabel : α → Option β}
    {items : List α} (distinct : (items.map label).Nodup)
    (keeps : ∀ item ∈ items, ∀ value, relabel item = some value → label item = value) :
    (items.filterMap relabel).Nodup := by
  induction items with
  | nil => simp
  | cons item rest ih =>
      have parts := List.nodup_cons.mp distinct
      have recursive := ih parts.2 fun other member => keeps other (.tail _ member)
      cases labelled : relabel item with
      | none => rwa [List.filterMap_cons_none labelled]
      | some value =>
          rw [List.filterMap_cons_some labelled, List.nodup_cons]
          refine ⟨fun repeated => ?_, recursive⟩
          obtain ⟨other, member, same⟩ := List.mem_filterMap.mp repeated
          have otherLabel := keeps other (.tail _ member) value same
          rw [keeps item List.mem_cons_self value labelled, ← otherLabel] at parts
          exact parts.1 (List.mem_map_of_mem member)

namespace EventHistory

variable {history : EventHistory} {window : ReportWindow} {floor : ℤ} {slices : SliceOptions}
  {reads : WindowReads}

def explainedBy (read : List ProblemEvent) : List Nat :=
  (read.map (·.r_eventid)).filter fun id => id ≠ 0

/-- A listed trigger asked about has its priority. -/
theorem prioritiesOf_get? {triggers : List Nat} {trigger severity : Nat}
    (asked : trigger ∈ triggers) (listed : history.priority trigger = some severity) :
    (prioritiesOf history.zabbix triggers).get? trigger = some severity := by
  have itemwise : ∀ (batch : List Nat) (pair : Nat × Nat), pair ∈ history.zabbix.priorities batch ↔
      ∃ id ∈ batch, history.priority id = some pair.2 ∧ id = pair.1 := by
    rintro batch ⟨id, value⟩
    simp only [zabbix, List.mem_filterMap, Option.map_eq_some_iff, Prod.mk.injEq]
    constructor
    · rintro ⟨other, inBatch, _, found, rfl, rfl⟩
      exact ⟨_, inBatch, found, rfl⟩
    · rintro ⟨_, inBatch, found, rfl⟩
      exact ⟨_, inBatch, _, found, rfl, rfl⟩
  have answered := mem_chunk_flatMap _ itemwise BATCH (by decide) triggers
  refine OrderedMap.get?_foldl_set _ _ (fun pair inside same => ?_)
    (.inr ⟨(trigger, severity), (answered _).mpr ⟨trigger, asked, listed, rfl⟩, rfl⟩)
  obtain ⟨_, _, found, rfl⟩ := (answered pair).mp inside
  rw [same, listed] at found
  exact (Option.some.inj found).symm

theorem mem_wantedRecoveries {recoveries : List RecoveryEvent} {explained : List Nat}
    {r : RecoveryEvent} {severity : Nat}
    (first : (recoveries.find? fun ok => ok.objectid = r.objectid) = some r)
    (unexplained : r.eventid ∉ explained) (listed : history.priority r.objectid = some severity)
    (above : floor ≤ severity) :
    r ∈ wantedRecoveries history.zabbix recoveries explained floor := by
  have inFirst := (OrderedMap.mem_values_firstBy RecoveryEvent.objectid r).mpr first
  have inUnexplained : r ∈ unexplainedRecoveries recoveries explained :=
    List.mem_filter.mpr ⟨inFirst, decide_eq_true unexplained⟩
  refine List.mem_filter.mpr ⟨inUnexplained, ?_⟩
  rw [prioritiesOf_get? (List.mem_map_of_mem inUnexplained) listed]
  simpa using above

/-- A problem found from its recovery is one that ended inside the window. -/
theorem ended_sound {explained : List Nat} {p : ProblemEvent}
    (member : p ∈ (endedInWindow history.zabbix reads.recoveries explained
      (window.windowFrom - OPEN_AT_START_LOOKBACK) floor).problems) :
    p ∈ history.problemsOf (severitiesAtLeast floor) ∧
      ∃ r ∈ reads.recoveries, p.r_eventid = r.eventid := by
  obtain ⟨r, asked, found⟩ := List.mem_filterMap.mp member
  obtain ⟨latest, names⟩ := Option.filter_eq_some_iff.mp found
  have inCandidates := List.mem_of_getLast? latest
  have wanted := List.mem_of_mem_filter (List.mem_of_mem_filter (List.mem_of_mem_take asked))
  have first := (OrderedMap.mem_values_firstBy _ r).mp wanted
  exact ⟨List.mem_of_mem_filter inCandidates, r, List.mem_of_find?_eq_some first,
    of_decide_eq_true names⟩

/-- Unless the lookups were cut short, every problem that ended inside is found. -/
theorem ended_complete (closing : history.OkCloses)
    (answered : Answered history window floor reads)
    {read : List ProblemEvent}
    (fromRead : ∀ q ∈ read, q ∈ history.problems ∧
      (window.windowFrom - OPEN_AT_START_LOOKBACK ≤ q.clock ∨ q.r_eventid = 0))
    (whole : (endedInWindow history.zabbix reads.recoveries (explainedBy read)
      (window.windowFrom - OPEN_AT_START_LOOKBACK) floor).incomplete = false)
    {p : ProblemEvent} {r : RecoveryEvent} (ends : EndsInside history window p r)
    (above : floor ≤ p.severity) :
    p ∈ (endedInWindow history.zabbix reads.recoveries (explainedBy read)
      (window.windowFrom - OPEN_AT_START_LOOKBACK) floor).problems := by
  have first := ends.first_recovery closing
  rw [← answered.recoveries] at first
  have unexplained : r.eventid ∉ explainedBy read := by
    intro named
    obtain ⟨q, inRead, same⟩ := List.mem_map.mp (List.mem_of_mem_filter named)
    exact ends.unexplained (fromRead q inRead).1 (fromRead q inRead).2 same
  have listed := history.triggerListed p ends.problem
  rw [← ends.trigger] at listed
  have wanted := mem_wantedRecoveries first unexplained listed above
  have all : (wantedRecoveries history.zabbix reads.recoveries (explainedBy read) floor).take
        LONG_OUTAGE_LOOKUPS =
      wantedRecoveries history.zabbix reads.recoveries (explainedBy read) floor := by
    have counted : ¬ (wantedRecoveries history.zabbix reads.recoveries (explainedBy read)
        floor).length > ((wantedRecoveries history.zabbix reads.recoveries (explainedBy read)
          floor).take LONG_OUTAGE_LOOKUPS).length := of_decide_eq_false whole
    rw [List.length_take] at counted
    exact List.take_of_length_le (by omega)
  have severity := mem_severitiesAtLeast (history.severityBound p ends.problem) above
  refine List.mem_filterMap.mpr ⟨r, all.symm ▸ wanted, ?_⟩
  rw [endedBy, ends.latest severity]
  simp [ends.closes]

/-- The clock looked up for a resolved problem is that of its recovery. -/
theorem recoveryClocks_get? (answered : Answered history window floor reads)
    {qualifying : List ProblemEvent} {p : ProblemEvent} (member : p ∈ qualifying)
    (problem : p ∈ history.problems) (resolved : p.r_eventid ≠ 0) :
    (recoveryClocks history.zabbix reads.recoveries qualifying).get? p.r_eventid =
      history.recoveryClock p := by
  obtain ⟨r, inside, sameId, _, _, clock⟩ := recovery_of_resolved problem resolved
  rw [clock]
  have known : ∀ s ∈ reads.recoveries, s ∈ history.recoveries := by
    intro s inReads
    rw [answered.recoveries] at inReads
    exact List.mem_of_mem_filter inReads
  have agreeKnown : ∀ pair ∈ reads.recoveries.map fun r => (r.eventid, r.clock),
      pair.1 = p.r_eventid → pair.2 = r.clock := by
    intro pair inPairs same
    obtain ⟨s, inReads, rfl⟩ := List.mem_map.mp inPairs
    rw [recovery_ext (known s inReads) inside (Eq.trans same sameId.symm)]
  have itemwise : ∀ (batch : List Nat) (pair : Nat × ℤ), pair ∈ history.zabbix.eventClocks batch ↔
      ∃ id ∈ batch, ∃ s ∈ history.recoveries, s.eventid = id ∧ (s.eventid, s.clock) = pair := by
    intro batch pair
    simp only [zabbix, List.mem_map, List.mem_filter, decide_eq_true_eq]
    constructor
    · rintro ⟨s, ⟨inHistory, named⟩, same⟩
      exact ⟨_, named, s, inHistory, rfl, same⟩
    · rintro ⟨_, named, s, inHistory, isId, same⟩
      exact ⟨s, ⟨inHistory, isId ▸ named⟩, same⟩
  have answered' := fun ids => mem_chunk_flatMap _ itemwise BATCH (by decide) ids
  unfold recoveryClocks
  refine OrderedMap.get?_foldl_set _ _ (fun pair asked same => ?_) ?_
  · obtain ⟨_, _, s, inHistory, _, rfl⟩ := (answered' _ pair).mp asked
    rw [recovery_ext inHistory inside (Eq.trans same sameId.symm)]
  by_cases already : (OrderedMap.ofList
      (reads.recoveries.map fun r => (r.eventid, r.clock))).contains p.r_eventid = true
  · obtain ⟨value, found⟩ := (OrderedMap.contains_iff _ _).mp already
    have inEntries := (OrderedMap.get?_eq_some_iff _ _ _).mp found
    have same := agreeKnown _ (OrderedMap.mem_of_mem_ofList inEntries) rfl
    exact .inl (same ▸ found)
  · have asked : p.r_eventid ∈ (qualifying.map (·.r_eventid)).filter fun id =>
        id ≠ 0 && !(OrderedMap.ofList
          (reads.recoveries.map fun r => (r.eventid, r.clock))).contains id :=
      List.mem_filter.mpr ⟨List.mem_map_of_mem member, by simp [resolved, already]⟩
    refine .inr ⟨(r.eventid, r.clock), (answered' _ _).mpr ?_, sameId⟩
    exact ⟨_, asked, r, inside, sameId, rfl⟩

/-- A problem becomes the incident it is in the window, when it has time inside. -/
theorem toIncident_eq {clocks : OrderedMap Nat ℤ} {p : ProblemEvent}
    (problem : p ∈ history.problems)
    (looked : p.r_eventid ≠ 0 → clocks.get? p.r_eventid = history.recoveryClock p) :
    toIncident window clocks p =
      if max p.clock window.windowFrom < history.stop window p then
        some (history.incident window p)
      else none := by
  obtain ⟨h, hosts⟩ := history.oneHost p problem
  have recovered : (if p.r_eventid ≠ 0 then clocks.get? p.r_eventid else none) =
      history.recoveryClock p := by
    split
    · next resolved => exact looked resolved
    · next still => exact (recoveryClock_open (not_not.mp still)).symm
  have onRecord : ¬ (p.clock < window.windowFrom ∧ p.r_eventid ≠ 0 ∧
      history.recoveryClock p = none) := by
    rintro ⟨_, resolved, missing⟩
    obtain ⟨r, _, _, _, _, clock⟩ := recovery_of_resolved problem resolved
    rw [missing] at clock
    cases clock
  unfold toIncident
  simp only [hosts, List.head?_cons]
  rw [recovered, if_neg onRecord]
  have stopped : min ((history.recoveryClock p).getD window.windowTo) window.windowTo =
      history.stop window p := rfl
  rw [stopped]
  by_cases inside : max p.clock window.windowFrom < history.stop window p
  · rw [if_pos inside, if_neg (not_le.mpr inside)]
    simp [incident, hosts]
  · rw [if_neg inside, if_pos (not_lt.mp inside)]

/-- What a report lists: every problem that counts once, with its own clocks, all but
those that span the window; of the older ones some may be missing when it is truncated. -/
structure ListsOutages (history : EventHistory) (window : ReportWindow) (floor : ℤ)
    (report : IncidentReport) : Prop where
  listed : ∀ found ∈ report.incidents, ∃ p, history.Counts window floor p ∧
    ¬ history.Spans window p ∧ found = history.incident window p
  once : (report.incidents.map (·.eventid)).Nodup
  complete : ∀ p, history.Counts window floor p → ¬ history.Spans window p →
    (report.truncated = true → window.windowFrom - OPEN_AT_START_LOOKBACK ≤ p.clock) →
    history.incident window p ∈ report.incidents

def qualifyingOf (history : EventHistory) (window : ReportWindow) (floor : ℤ)
    (reads : WindowReads) : List ProblemEvent :=
  let read := reads.older ++ reads.before ++ reads.inWindow
  (OrderedMap.addAll (·.eventid) .empty (read ++
    (endedInWindow history.zabbix reads.recoveries
      (explainedBy (OrderedMap.addAll (·.eventid) .empty read).values)
      (window.windowFrom - OPEN_AT_START_LOOKBACK) floor).problems)).values.filter
    fun p => (p.severity : ℤ) ≥ floor

theorem incidentsOf_incidents (history : EventHistory) (window : ReportWindow) (floor : ℤ)
    (reads : WindowReads) :
    (incidentsOf history.zabbix window floor reads).incidents =
      (qualifyingOf history window floor reads).filterMap
        (toIncident window (recoveryClocks history.zabbix reads.recoveries
          (qualifyingOf history window floor reads))) := by
  simp only [incidentsOf, qualifyingOf, OrderedMap.addAll_append]
  rfl

/-- The problems a report is made of are those its reads found, at or above the floor. -/
theorem mem_qualifyingOf (answered : Answered history window floor reads)
    (forward : window.windowFrom ≤ window.windowTo) (p : ProblemEvent) :
    p ∈ qualifyingOf history window floor reads ↔
      (p ∈ reads.older ++ reads.before ++ reads.inWindow ∨
        p ∈ (endedInWindow history.zabbix reads.recoveries
          (explainedBy (OrderedMap.addAll (·.eventid) .empty
            (reads.older ++ reads.before ++ reads.inWindow)).values)
          (window.windowFrom - OPEN_AT_START_LOOKBACK) floor).problems) ∧
      floor ≤ p.severity := by
  have problem : ∀ q ∈ reads.older ++ reads.before ++ reads.inWindow ++
      (endedInWindow history.zabbix reads.recoveries
        (explainedBy (OrderedMap.addAll (·.eventid) .empty
          (reads.older ++ reads.before ++ reads.inWindow)).values)
        (window.windowFrom - OPEN_AT_START_LOOKBACK) floor).problems, q ∈ history.problems := by
    intro q member
    rcases List.mem_append.mp member with inRead | inEnded
    · exact List.mem_of_mem_filter ((answered.mem_read forward q).mp inRead).1
    · exact List.mem_of_mem_filter (ended_sound inEnded).1
  rw [qualifyingOf, List.mem_filter,
    OrderedMap.mem_values_addAll _ fun left inLeft right inRight =>
      problem_ext (problem left inLeft) (problem right inRight)]
  rw [List.mem_append, decide_eq_true_eq]

/-- Every qualifying problem is of the history, and its look-up is right. -/
theorem qualifying_incident (answered : Answered history window floor reads)
    (forward : window.windowFrom ≤ window.windowTo) {p : ProblemEvent}
    (member : p ∈ qualifyingOf history window floor reads) :
    p ∈ history.problems ∧
      toIncident window (recoveryClocks history.zabbix reads.recoveries
        (qualifyingOf history window floor reads)) p =
        if max p.clock window.windowFrom < history.stop window p then
          some (history.incident window p)
        else none := by
  have problem : p ∈ history.problems := by
    rcases ((mem_qualifyingOf answered forward p).mp member).1 with inRead | inEnded
    · exact List.mem_of_mem_filter ((answered.mem_read forward p).mp inRead).1
    · exact List.mem_of_mem_filter (ended_sound inEnded).1
  exact ⟨problem, toIncident_eq problem (recoveryClocks_get? answered member problem)⟩

/-- A problem the reads found was not resolved after the window, if it is an old one. -/
theorem not_spans_of_qualifying (answered : Answered history window floor reads)
    (forward : window.windowFrom ≤ window.windowTo) {p : ProblemEvent}
    (member : p ∈ qualifyingOf history window floor reads) : ¬ history.Spans window p := by
  rintro ⟨old, clock, recovered, after⟩
  rcases ((mem_qualifyingOf answered forward p).mp member).1 with inRead | inEnded
  · rcases ((answered.mem_read forward p).mp inRead).2.2 with late | still
    · omega
    · rw [recoveryClock_open still] at recovered
      cases recovered
  · obtain ⟨inProblems, r, inReads, names⟩ := ended_sound inEnded
    rw [answered.recoveries, mem_inRange] at inReads
    have problem := List.mem_of_mem_filter inProblems
    by_cases resolved : p.r_eventid = 0
    · rw [recoveryClock_open resolved] at recovered
      cases recovered
    · obtain ⟨s, inside, sameId, _, _, clockOf⟩ := recovery_of_resolved problem resolved
      rw [recovery_ext inside inReads.1 (sameId.trans names), recovered] at clockOf
      have equal : clock = r.clock := Option.some.inj clockOf
      omega

/-- A problem that counts is found, unless it spans the window or its look-up was cut. -/
theorem counts_found (closing : history.OkCloses) (answered : Answered history window floor reads)
    (forward : window.windowFrom < window.windowTo) {p : ProblemEvent}
    (counts : history.Counts window floor p) (inside : ¬ history.Spans window p)
    (reached : (incidentsOf history.zabbix window floor reads).truncated = true →
      window.windowFrom - OPEN_AT_START_LOOKBACK ≤ p.clock) :
    p ∈ qualifyingOf history window floor reads := by
  obtain ⟨problem, above, share⟩ := counts
  have severity := mem_severitiesAtLeast (history.severityBound p problem) above
  have inSeverity : p ∈ history.problemsOf (severitiesAtLeast floor) :=
    List.mem_filter.mpr ⟨problem, decide_eq_true severity⟩
  have stopBound : history.stop window p ≤ window.windowTo := min_le_right _ _
  have begun : p.clock ≤ window.windowTo :=
    (le_max_left _ _).trans (share.le.trans stopBound)
  refine (mem_qualifyingOf answered forward.le p).mpr ⟨?_, above⟩
  by_cases recent : window.windowFrom - OPEN_AT_START_LOOKBACK ≤ p.clock
  · exact .inl ((answered.mem_read forward.le p).mpr ⟨inSeverity, begun, .inl recent⟩)
  by_cases still : p.r_eventid = 0
  · exact .inl ((answered.mem_read forward.le p).mpr ⟨inSeverity, begun, .inr still⟩)
  -- Old and resolved: its recovery lies inside the window, so it is looked up.
  obtain ⟨r, inRecoveries, sameId, sameTrigger, _, recovered⟩ := recovery_of_resolved problem still
  have early : r.clock ≤ window.windowTo := by
    by_contra late
    exact inside ⟨not_le.mp recent, r.clock, recovered, not_le.mp late⟩
  have late : window.windowFrom < r.clock := by
    have stopped : history.stop window p ≤ r.clock := by
      rw [stop, recovered]
      exact min_le_left _ _
    exact lt_of_lt_of_le (lt_of_le_of_lt (le_max_right _ _) share) stopped
  have ends : EndsInside history window p r :=
    ⟨problem, inRecoveries, sameId, still, sameTrigger, not_le.mp recent, late, early⟩
  have whole : (incidentsOf history.zabbix window floor reads).truncated = false := by
    by_contra cut
    exact recent (reached (Bool.not_eq_false _ ▸ cut))
  refine .inr (ended_complete closing answered (fun q inRead => ?_) whole ends above)
  have found := (answered.mem_read forward.le q).mp
    ((OrderedMap.mem_values_addAll ProblemEvent.eventid ?_ q).mp inRead)
  · exact ⟨List.mem_of_mem_filter found.1, found.2.2⟩
  · intro left inLeft right inRight
    exact problem_ext (List.mem_of_mem_filter ((answered.mem_read forward.le left).mp inLeft).1)
      (List.mem_of_mem_filter ((answered.mem_read forward.le right).mp inRight).1)

theorem qualifyingOf_ids_nodup (history : EventHistory) (window : ReportWindow) (floor : ℤ)
    (reads : WindowReads) : ((qualifyingOf history window floor reads).map (·.eventid)).Nodup :=
  (OrderedMap.addAll_values_nodup _ _).sublist (List.filter_sublist.map _)

/-- Every outage of the window is found once: whatever the history, the window and the
floor, when the reads succeed and OK events close what is open. -/
theorem fetchIncidents_lists_outages (history : EventHistory) (slices : SliceOptions)
    (window : ReportWindow) (floor : ℤ) (report : IncidentReport)
    (closing : history.OkCloses) (forward : window.windowFrom < window.windowTo)
    (fetched : fetchIncidents history.zabbix slices window floor = .ok report) :
    ListsOutages history window floor report := by
  obtain ⟨reads, read, made⟩ := except_bind_ok fetched
  cases made
  have answered := answered_of_read read
  refine ⟨?_, ?_, ?_⟩
  · intro found member
    rw [incidentsOf_incidents] at member
    obtain ⟨p, qualifies, made⟩ := List.mem_filterMap.mp member
    obtain ⟨problem, shape⟩ := qualifying_incident answered forward.le qualifies
    rw [shape] at made
    split at made
    · next share =>
        cases made
        exact ⟨p, ⟨problem, ((mem_qualifyingOf answered forward.le p).mp qualifies).2, share⟩,
          not_spans_of_qualifying answered forward.le qualifies, rfl⟩
    · cases made
  · rw [incidentsOf_incidents, List.map_filterMap]
    have ids : ∀ p ∈ qualifyingOf history window floor reads, ∀ id,
        ((toIncident window (recoveryClocks history.zabbix reads.recoveries
          (qualifyingOf history window floor reads)) p).map (·.eventid)) = some id →
            p.eventid = id := by
      intro p qualifies id named
      rw [(qualifying_incident answered forward.le qualifies).2] at named
      split at named
      · exact Option.some.inj named
      · cases named
    exact nodup_filterMap_of_map (qualifyingOf_ids_nodup history window floor reads) ids
  · intro p counts inside reached
    have qualifies := counts_found closing answered forward counts inside reached
    rw [incidentsOf_incidents]
    refine List.mem_filterMap.mpr ⟨p, qualifies, ?_⟩
    rw [(qualifying_incident answered forward.le qualifies).2, if_pos counts.2.2]

section LongOutage

/-! An outage of forty days that ends inside the window, and one still open. -/

def longOutage : EventHistory where
  problems := [⟨1, 100, 0, 4, false, 2, "ICMP", [⟨"10", "1.2.1 CORESWITCH"⟩]⟩,
    ⟨3, 101, 3460000, 5, false, 0, "ICMP", [⟨"11", "2.2.1 SWITCH"⟩]⟩]
  recoveries := [⟨2, 100, 3457000⟩]
  priority id := if id = 100 then some 4 else if id = 101 then some 5 else none
  problemsOrdered := by decide
  recoveriesOrdered := by decide
  problemIds := by decide
  recoveryIds := by decide
  severityBound := by decide
  triggerListed := by decide
  oneHost := by simp
  recovered := by decide
  oneOpen := by decide

def longOutageWindow : ReportWindow := ⟨3456000, 3542400⟩

def longOutageReport : IncidentReport where
  incidents := [⟨3, 101, "2.2.1 SWITCH", "11", "ICMP", 5, 3460000, 3460000, 3542400, false, false⟩,
    ⟨1, 100, "1.2.1 CORESWITCH", "10", "ICMP", 4, 3456000, 0, 3457000, true, false⟩]
  window := longOutageWindow
  truncated := false

/-- The report of that window. -/
theorem fetchIncidents_lists_long_outage :
    fetchIncidents longOutage.zabbix .standard longOutageWindow 3 = .ok longOutageReport ∧
      longOutage.ListsOutages longOutageWindow 3 longOutageReport := by
  have fetched : fetchIncidents longOutage.zabbix .standard longOutageWindow 3 =
      .ok longOutageReport := by decide +kernel
  exact ⟨fetched, fetchIncidents_lists_outages longOutage .standard longOutageWindow 3
    longOutageReport (by decide) (by decide) fetched⟩

/-- The same outage, with an OK event before its recovery that closes nothing. -/
def strayOk : EventHistory where
  problems := [⟨1, 100, 0, 4, false, 3, "ICMP", [⟨"10", "1.2.1 CORESWITCH"⟩]⟩]
  recoveries := [⟨2, 100, 3456500⟩, ⟨3, 100, 3457000⟩]
  priority id := if id = 100 then some 4 else none
  problemsOrdered := by decide
  recoveriesOrdered := by decide
  problemIds := by decide
  recoveryIds := by decide
  severityBound := by decide
  triggerListed := by decide
  oneHost := by simp
  recovered := by decide
  oneOpen := by decide

/-- The first recovery names no problem, so the outage is not found, and nothing says so. -/
theorem strayOk_hides_outage :
    fetchIncidents strayOk.zabbix .standard longOutageWindow 3 =
        .ok ⟨[], longOutageWindow, false⟩ ∧
      ¬ strayOk.ListsOutages longOutageWindow 3 ⟨[], longOutageWindow, false⟩ := by
  refine ⟨by decide +kernel, fun lists => ?_⟩
  have missing : ∀ p ∈ strayOk.problems, strayOk.Counts longOutageWindow 3 p ∧
      ¬ strayOk.Spans longOutageWindow p := by
    intro p member
    cases List.mem_singleton.mp member
    refine ⟨⟨member, by decide, by decide⟩, ?_⟩
    rintro ⟨_, clock, recovered, late⟩
    cases recovered
    exact absurd late (by decide)
  obtain ⟨counts, resolvedInside⟩ := missing _ List.mem_cons_self
  exact List.not_mem_nil (lists.complete _ counts resolvedInside nofun)

end LongOutage

end EventHistory

end ZabbixPortal.Services
