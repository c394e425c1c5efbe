import ZabbixPortal.Services.EventHistory

/-! Which problems the reads of a report find, and that each one that counts becomes
one incident. -/

set_option autoImplicit false

namespace ZabbixPortal.Services

open Foundation Sli

/-- Asking in batches what is answered item by item. -/
theorem mem_chunk_flatMap {α β : Type} {ask : List α → List β} (answers : α → β → Prop)
    (itemwise : ∀ batch b, b ∈ ask batch ↔ ∃ a ∈ batch, answers a b) (size : Nat)
    (positive : size ≠ 0) (items : List α) (b : β) :
    b ∈ (chunk size items).flatMap ask ↔ ∃ a ∈ items, answers a b := by
  simp only [List.mem_flatMap, itemwise]
  constructor
  · rintro ⟨batch, inChunks, a, inBatch, answer⟩
    refine ⟨a, ?_, answer⟩
    rw [← chunk_flatten size positive items]
    exact List.mem_flatten.mpr ⟨batch, inChunks, inBatch⟩
  · rintro ⟨a, member, answer⟩
    rw [← chunk_flatten size positive items] at member
    obtain ⟨batch, inChunks, inBatch⟩ := List.mem_flatten.mp member
    exact ⟨batch, inChunks, a, inBatch, answer⟩

theorem mem_severitiesAtLeast {floor : ℤ} {severity : Nat} (bound : severity ≤ 5)
    (above : floor ≤ severity) : severity ∈ severitiesAtLeast floor := by
  simp only [severitiesAtLeast, List.mem_filter, List.mem_range, decide_eq_true_eq]
  omega

namespace EventHistory

variable {history : EventHistory}

section Order

theorem clock_le_of_moment_lt {p q : ProblemEvent} (earlier : p.moment < q.moment) :
    p.clock ≤ q.clock := by
  rcases Prod.Lex.toLex_lt_toLex.mp earlier with before | ⟨same, _⟩
  · exact before.le
  · exact same.le

theorem problem_ext {p q : ProblemEvent} (left : p ∈ history.problems)
    (right : q ∈ history.problems) (same : p.eventid = q.eventid) : p = q :=
  List.inj_on_of_nodup_map history.problemIds left right same

theorem recovery_ext {r s : RecoveryEvent} (left : r ∈ history.recoveries)
    (right : s ∈ history.recoveries) (same : r.eventid = s.eventid) : r = s :=
  List.inj_on_of_nodup_map history.recoveryIds left right same

/-- Two problems of one trigger: the recovery of the earlier precedes the later. -/
theorem recovery_before_next {p q : ProblemEvent} (left : p ∈ history.problems)
    (right : q ∈ history.problems) (trigger : p.objectid = q.objectid)
    (earlier : p.moment < q.moment) {r : RecoveryEvent} (member : r ∈ history.recoveries)
    (closed : r.eventid = p.r_eventid) : r.moment < q.moment := by
  obtain ⟨s, inside, sameId, _, before⟩ := history.oneOpen p left q right trigger earlier
  rwa [recovery_ext member inside (closed.trans sameId.symm)]

theorem moment_ne {p q : ProblemEvent} (different : p.eventid ≠ q.eventid) :
    p.moment ≠ q.moment := fun same =>
  different (congrArg (fun moment : Moment => (ofLex moment).2) same)

theorem moment_le_getLast {rows : List ProblemEvent}
    (ordered : rows.Pairwise fun p q => p.moment < q.moment) {last : ProblemEvent}
    (isLast : rows.getLast? = some last) {p : ProblemEvent} (member : p ∈ rows) :
    p.moment ≤ last.moment := by
  obtain ⟨early, rfl⟩ := List.getLast?_eq_some_iff.mp isLast
  rcases List.mem_append.mp member with inEarly | isSame
  · exact ((List.pairwise_append.mp ordered).2.2 p inEarly last (by simp)).le
  · rw [List.mem_singleton.mp isSame]

theorem problemsOf_ordered (severities : List Nat) :
    InClockOrder ProblemEvent.clock (history.problemsOf severities) :=
  (history.problemsOrdered.imp clock_le_of_moment_lt).sublist List.filter_sublist

theorem recoveries_ordered : InClockOrder RecoveryEvent.clock history.recoveries := by
  refine history.recoveriesOrdered.imp fun earlier => ?_
  rcases Prod.Lex.toLex_lt_toLex.mp earlier with before | ⟨same, _⟩
  · exact before.le
  · exact same.le

end Order

/-- The recovery of a resolved problem. -/
theorem recovery_of_resolved {p : ProblemEvent} (member : p ∈ history.problems)
    (resolved : p.r_eventid ≠ 0) :
    ∃ r ∈ history.recoveries, r.eventid = p.r_eventid ∧ r.objectid = p.objectid ∧
      p.moment < r.moment ∧ history.recoveryClock p = some r.clock := by
  obtain ⟨r, inside, sameId, sameTrigger, after⟩ := history.recovered p member resolved
  refine ⟨r, inside, sameId, sameTrigger, after, ?_⟩
  rw [recoveryClock, if_neg resolved]
  cases found : history.recoveries.find? fun r => r.eventid = p.r_eventid with
  | none =>
      have missing := List.find?_eq_none.mp found r inside
      simp [sameId] at missing
  | some s =>
      have isSame : s.eventid = p.r_eventid := by simpa using List.find?_some found
      rw [recovery_ext (List.mem_of_find?_eq_some found) inside (isSame.trans sameId.symm)]
      rfl

theorem recoveryClock_open {p : ProblemEvent} (still : p.r_eventid = 0) :
    history.recoveryClock p = none := by
  rw [recoveryClock, if_pos still]

section Reads

variable {window : ReportWindow} {floor : ℤ} {slices : SliceOptions} {reads : WindowReads}

structure Answered (history : EventHistory) (window : ReportWindow) (floor : ℤ)
    (reads : WindowReads) : Prop where
  inWindow : reads.inWindow = inRange (·.clock) window.windowFrom window.windowTo
    (history.problemsOf (severitiesAtLeast floor))
  before : reads.before = inRange (·.clock) (window.windowFrom - OPEN_AT_START_LOOKBACK)
    (window.windowFrom - 1) (history.problemsOf (severitiesAtLeast floor))
  older : ∀ p, p ∈ reads.older ↔ p ∈ history.problemsOf (severitiesAtLeast floor) ∧
    p.r_eventid = 0 ∧ p.clock ≤ window.windowFrom - OPEN_AT_START_LOOKBACK - 1
  recoveries : reads.recoveries =
    inRange (·.clock) window.windowFrom window.windowTo history.recoveries

theorem mem_stillOpenBefore (till floor : ℤ) (p : ProblemEvent) :
    p ∈ stillOpenBefore history.zabbix till floor ↔
      p ∈ history.problemsOf (severitiesAtLeast floor) ∧ p.r_eventid = 0 ∧ p.clock ≤ till := by
  have itemwise : ∀ (batch : List Nat) (q : ProblemEvent),
      q ∈ history.zabbix.problemsById (severitiesAtLeast floor) batch ↔
        ∃ id ∈ batch, q ∈ history.problemsOf (severitiesAtLeast floor) ∧ q.eventid = id := by
    intro batch q
    simp only [zabbix, List.mem_filter, decide_eq_true_eq]
    exact ⟨fun ⟨inside, named⟩ => ⟨_, named, inside, rfl⟩,
      fun ⟨_, named, inside, same⟩ => ⟨inside, same ▸ named⟩⟩
  rw [stillOpenBefore, mem_chunk_flatMap _ itemwise _ (by decide)]
  simp only [zabbix, List.mem_map, List.mem_filter, decide_eq_true_eq]
  constructor
  · rintro ⟨_, ⟨q, ⟨inside, still⟩, rfl⟩, inProblems, same⟩
    rw [problem_ext (List.mem_of_mem_filter inside) (List.mem_of_mem_filter inProblems) same.symm]
      at still
    exact ⟨inProblems, still⟩
  · rintro ⟨inProblems, still⟩
    exact ⟨_, ⟨p, ⟨inProblems, still⟩, rfl⟩, inProblems, rfl⟩

theorem answered_of_read (read : readWindow history.zabbix slices window floor = .ok reads) :
    Answered history window floor reads := by
  unfold readWindow at read
  obtain ⟨inWindow, readInWindow, read⟩ := except_bind_ok read
  obtain ⟨before, readBefore, read⟩ := except_bind_ok read
  obtain ⟨recoveries, readRecoveries, read⟩ := except_bind_ok read
  cases read
  exact {
    inWindow := fetchEventsSliced_inRange _ (problemsOf_ordered _) (fun _ _ _ => rfl) readInWindow
    before := fetchEventsSliced_inRange _ (problemsOf_ordered _) (fun _ _ _ => rfl) readBefore
    older := mem_stillOpenBefore _ _
    recoveries := fetchEventsSliced_inRange _ recoveries_ordered (fun _ _ _ => rfl)
      readRecoveries }

/-- The problems the first reads find: all that began from the look-back on, and of the
older ones those still open. -/
theorem Answered.mem_read (answered : Answered history window floor reads)
    (forward : window.windowFrom ≤ window.windowTo) (p : ProblemEvent) :
    p ∈ reads.older ++ reads.before ++ reads.inWindow ↔
      p ∈ history.problemsOf (severitiesAtLeast floor) ∧ p.clock ≤ window.windowTo ∧
        (window.windowFrom - OPEN_AT_START_LOOKBACK ≤ p.clock ∨ p.r_eventid = 0) := by
  have lookback : 0 < OPEN_AT_START_LOOKBACK := by decide
  simp only [List.mem_append, answered.older, answered.before, answered.inWindow, mem_inRange]
  constructor
  · rintro ((⟨member, still, old⟩ | ⟨member, late, early⟩) | ⟨member, late, early⟩)
    · exact ⟨member, by omega, .inr still⟩
    · exact ⟨member, by omega, .inl late⟩
    · exact ⟨member, early, .inl (by omega)⟩
  · rintro ⟨member, early, late | still⟩
    · by_cases inside : window.windowFrom ≤ p.clock
      · exact .inr ⟨member, inside, early⟩
      · exact .inl (.inr ⟨member, late, by omega⟩)
    · by_cases inside : window.windowFrom ≤ p.clock
      · exact .inr ⟨member, inside, early⟩
      · by_cases recent : window.windowFrom - OPEN_AT_START_LOOKBACK ≤ p.clock
        · exact .inl (.inr ⟨member, recent, by omega⟩)
        · exact .inl (.inl ⟨member, still, by omega⟩)

structure EndsInside (history : EventHistory) (window : ReportWindow) (p : ProblemEvent)
    (r : RecoveryEvent) : Prop where
  problem : p ∈ history.problems
  recovery : r ∈ history.recoveries
  closes : r.eventid = p.r_eventid
  resolved : p.r_eventid ≠ 0
  trigger : r.objectid = p.objectid
  old : p.clock < window.windowFrom - OPEN_AT_START_LOOKBACK
  late : window.windowFrom < r.clock
  early : r.clock ≤ window.windowTo

section Ended

variable {p : ProblemEvent} {r : RecoveryEvent}

/-- The outage was open when the window began, so the trigger's first OK event inside
is its recovery. -/
theorem EndsInside.first_recovery (ends : EndsInside history window p r)
    (closing : history.OkCloses) :
    (inRange (·.clock) window.windowFrom window.windowTo history.recoveries).find?
      (fun ok => ok.objectid = r.objectid) = some r := by
  have member : r ∈ inRange (·.clock) window.windowFrom window.windowTo history.recoveries :=
    (mem_inRange _ _ _ _ _).mpr ⟨ends.recovery, ends.late.le, ends.early⟩
  cases found : (inRange (·.clock) window.windowFrom window.windowTo history.recoveries).find?
      (fun ok => ok.objectid = r.objectid) with
  | none =>
      have missing := List.find?_eq_none.mp found r member
      simp at missing
  | some ok =>
      obtain ⟨inside, lower, _⟩ := (mem_inRange _ _ _ _ _).mp (List.mem_of_find?_eq_some found)
      have sameTrigger : ok.objectid = r.objectid := by simpa using List.find?_some found
      have lookback : 0 < OPEN_AT_START_LOOKBACK := by decide
      have after : p.moment < ok.moment := by
        refine Prod.Lex.toLex_lt_toLex.mpr (.inl ?_)
        have old := ends.old
        dsimp only
        omega
      obtain ⟨s, inRecoveries, sameId, _, first⟩ :=
        closing p ends.problem ok inside (sameTrigger.trans ends.trigger) after
      rw [recovery_ext inRecoveries ends.recovery (sameId.trans ends.closes.symm)] at first
      -- Nothing before it in the list is of the trigger, so it is not after `r` either.
      have notAfter : ok.moment ≤ r.moment := by
        obtain ⟨_, before, rest, shape, never⟩ := List.find?_eq_some_iff_append.mp found
        have ordered := history.recoveriesOrdered.sublist
          (List.filter_sublist (p := fun row : RecoveryEvent =>
            decide (window.windowFrom ≤ row.clock ∧ row.clock ≤ window.windowTo)))
        have inList : r ∈ before ++ ok :: rest := shape ▸ member
        rw [show history.recoveries.filter _ = before ++ ok :: rest from shape] at ordered
        rcases List.mem_append.mp inList with inBefore | inRest
        · have other := never r inBefore
          simp at other
        · rcases List.mem_cons.mp inRest with same | later
          · exact same ▸ le_rfl
          · have tail := (List.pairwise_append.mp ordered).2.1
            exact ((List.pairwise_cons.mp tail).1 r later).le
      have sameMoment := le_antisymm notAfter first
      have sameEvent : ok.eventid = r.eventid :=
        congrArg (fun moment : Moment => (ofLex moment).2) sameMoment
      rw [recovery_ext inside ends.recovery sameEvent]

/-- No other problem that is read names this recovery. -/
theorem EndsInside.unexplained (ends : EndsInside history window p r) {q : ProblemEvent}
    (other : q ∈ history.problems)
    (read : window.windowFrom - OPEN_AT_START_LOOKBACK ≤ q.clock ∨ q.r_eventid = 0) :
    q.r_eventid ≠ r.eventid := by
  intro same
  have resolved : q.r_eventid ≠ 0 := same ▸ ends.closes ▸ ends.resolved
  have late := read.resolve_right resolved
  obtain ⟨s, inside, sameId, sameTrigger, after, _⟩ := recovery_of_resolved other resolved
  have isR : s = r := recovery_ext inside ends.recovery (sameId.trans same)
  subst isR
  have earlier : p.moment < q.moment :=
    Prod.Lex.toLex_lt_toLex.mpr (.inl (lt_of_lt_of_le ends.old late))
  have before := recovery_before_next ends.problem other (ends.trigger.symm.trans sameTrigger)
    earlier inside ends.closes
  exact absurd (after.trans before) (lt_irrefl _)

/-- It is its trigger's last problem before the look-back. -/
theorem EndsInside.latest (ends : EndsInside history window p r) {severities : List Nat}
    (severity : p.severity ∈ severities) :
    history.zabbix.latestProblem severities r.objectid
      (window.windowFrom - OPEN_AT_START_LOOKBACK - 1) = some p := by
  have lookback : 0 < OPEN_AT_START_LOOKBACK := by decide
  have old := ends.old
  have late := ends.late
  simp only [zabbix]
  generalize shape : (history.problemsOf severities).filter (fun q =>
    decide (q.objectid = r.objectid ∧
      q.clock ≤ window.windowFrom - OPEN_AT_START_LOOKBACK - 1)) = candidates
  have member : p ∈ candidates := by
    rw [← shape, List.mem_filter, problemsOf, List.mem_filter]
    refine ⟨⟨ends.problem, decide_eq_true severity⟩, decide_eq_true ⟨ends.trigger.symm, ?_⟩⟩
    omega
  have ordered : candidates.Pairwise fun p q => p.moment < q.moment := by
    rw [← shape]
    exact (history.problemsOrdered.sublist List.filter_sublist).sublist List.filter_sublist
  cases found : candidates.getLast? with
  | none => simp [List.getLast?_eq_none_iff.mp found] at member
  | some q =>
      have inside : q ∈ candidates := List.mem_of_getLast? found
      rw [← shape, List.mem_filter, decide_eq_true_eq] at inside
      obtain ⟨inProblems, sameTrigger, before⟩ := inside
      have qProblem := List.mem_of_mem_filter inProblems
      rcases (moment_le_getLast ordered found member).lt_or_eq with earlier | same
      · have closed := recovery_before_next ends.problem qProblem
          (ends.trigger.symm.trans sameTrigger.symm) earlier ends.recovery ends.closes
        have order : r.clock ≤ q.clock := by
          rcases Prod.Lex.toLex_lt_toLex.mp closed with less | ⟨equal, _⟩
          · exact less.le
          · exact equal.le
        omega
      · have sameId : p.eventid = q.eventid := by
          by_contra different
          exact moment_ne different same
        rw [problem_ext ends.problem qProblem sameId]

end Ended

end Reads

end EventHistory

end ZabbixPortal.Services
