import ZabbixPortal.Services.SnapshotText

/-! The snapshot always fits: a block whose title fits stays within its budget, every title
fits, and the last block has what the others leave. -/

set_option autoImplicit false

namespace ZabbixPortal.Services

open Foundation Domain

section Blocks

theorem textLength_newline : textLength "\n" = 1 := by decide

/-- Lines are added only while they fit. -/
theorem addLines_fits (budget : ℤ) (more : ℤ → Nat → String) (total : Nat) (lines : List String)
    (text : String) (shown : Nat) (fits : (textLength text : ℤ) ≤ budget) :
    (textLength (addLines budget more total text shown lines).1 : ℤ) ≤ budget := by
  induction lines generalizing text shown with
  | nil => exact fits
  | cons line rest ih =>
      rw [addLines]
      split_ifs with left full full
      · exact fits
      · apply ih
        rw [textLength_append, textLength_append, textLength_newline]
        omega
      · exact fits
      · apply ih
        rw [textLength_append, textLength_append, textLength_newline]
        omega

/-- A block whose title fits stays within its budget. -/
theorem sectionOf_fits {title : String} (lines : List String) {budget : ℤ}
    (more : ℤ → Nat → String) (total : Nat) (fits : (textLength title : ℤ) ≤ budget) :
    (textLength (sectionOf title lines budget more total).text : ℤ) ≤ budget := by
  have added := addLines_fits budget more total lines title 0 fits
  unfold sectionOf
  generalize addLines budget more total title 0 lines = result at added ⊢
  obtain ⟨text, shown⟩ := result
  simp only at added ⊢
  split_ifs with left room
  · rw [textLength_append, textLength_append, textLength_newline]
    omega
  · exact added
  · exact added

end Blocks

section Texts

theorem length_codeUnits_of_ascii {text : List Char} (ascii : ∀ c ∈ text, c.toNat < 0x10000) :
    (text.flatMap codeUnits).length = text.length := by
  induction text with
  | nil => rfl
  | cons c rest ih =>
      have others := ih fun other member => ascii other (List.mem_cons_of_mem _ member)
      rw [List.flatMap_cons, List.length_append, others, codeUnits,
        if_pos (ascii c List.mem_cons_self), List.length_singleton, List.length_cons]
      omega

theorem textLength_number {number : Nat} (small : number < 2 ^ 32) :
    textLength (toString number) ≤ 10 := by
  have digits : (toString number).toList = Nat.toDigits 10 number := Nat.toList_repr
  have plain : ∀ c ∈ (toString number).toList, c.toNat < 0x10000 := by
    intro c member
    rw [digits] at member
    have digit := Nat.isDigit_of_mem_toDigits (by decide) (by decide) member
    have upper := (Char.isDigit_iff_toNat.mp digit).2
    have nine : '9'.toNat = 57 := rfl
    omega
  unfold textLength
  rw [length_codeUnits_of_ascii plain, digits,
    Nat.length_toDigits_le_iff (by decide) (by decide)]
  omega

/-- Joined parts take what they are long, and the separators between them. -/
theorem textLength_intercalate_le (separator : String) (parts : List String) :
    textLength (separator.intercalate parts) ≤
      (parts.map textLength).sum + (parts.length - 1) * textLength separator := by
  induction parts with
  | nil => simp [textLength]
  | cons part rest ih =>
      cases rest with
      | nil => simp
      | cons next others =>
          rw [String.intercalate_cons_cons, textLength_append, textLength_append]
          simp only [List.map_cons, List.sum_cons, List.length_cons, Nat.add_sub_cancel] at ih ⊢
          rw [Nat.succ_mul]
          omega

theorem severityName_short {severity : Nat} (known : severity ∈ [5, 4, 3, 2, 1, 0]) :
    textLength (sevName severity) ≤ 14 := by
  simp only [List.mem_cons, List.not_mem_nil, or_false] at known
  obtain rfl | rfl | rfl | rfl | rfl | rfl := known <;> decide

/-- A list of counts is short: six names, six numbers and five commas. -/
theorem severityList_short {counts : Nat → Nat} (small : ∀ severity, counts severity < 2 ^ 32)
    (skipZero : Bool) : textLength (severityList counts skipZero) ≤ 160 := by
  unfold severityList
  generalize kept : ([5, 4, 3, 2, 1, 0].filter fun s => !skipZero || counts s ≠ 0) = severities
  have known : severities.length ≤ 6 := by
    rw [← kept]
    exact List.length_filter_le _ _
  have part : ∀ severity ∈ severities,
      textLength (sevName (severity : Nat) ++ " " ++ toString (counts severity)) ≤ 25 := by
    intro severity listed
    rw [← kept] at listed
    have name := severityName_short (List.mem_of_mem_filter listed)
    have number := textLength_number (small severity)
    have space : textLength " " = 1 := by decide
    rw [textLength_append, textLength_append]
    omega
  have comma : textLength ", " = 2 := by decide
  have joined := textLength_intercalate_le ", " (severities.map fun s : Nat =>
    sevName s ++ " " ++ toString (counts s))
  have parts := sum_map_le part
  rw [List.length_map, List.map_map, comma] at joined
  simp only [Function.comp_def] at joined
  omega

theorem severityCounts_small {problems : List PromptProblem} (fit : problems.length < 2 ^ 32)
    (severity : Nat) : severityCounts problems severity < 2 ^ 32 :=
  lt_of_le_of_lt (List.length_filter_le _ _) fit

variable (intl : PromptIntl)

theorem snapshotZone_short (timezone : String) :
    textLength (snapshotZone intl timezone) ≤ 64 := by
  unfold snapshotZone
  split_ifs with known
  · exact intl.zone_short timezone known
  · decide

theorem snapshotClock_short (timezone : String) (at' : ℤ) :
    textLength (snapshotClock intl timezone at') ≤ 196 := by
  have zone := snapshotZone_short intl timezone
  have clock := intl.dateTime_short (snapshotZone intl timezone) at'
  have space : textLength " " = 1 := by decide
  have opening : textLength " (" = 2 := by decide
  have closing : textLength ")" = 1 := by decide
  simp only [snapshotClock]
  cases named : intl.zoneName (snapshotZone intl timezone) at' with
  | none =>
      simp only [textLength_append]
      omega
  | some short =>
      have name := intl.zoneName_short _ _ _ named
      simp only
      split_ifs with shown
      · simp only [textLength_append]
        omega
      · simp only [textLength_append]
        omega

end Texts

namespace SnapshotEstate

variable (intl : PromptIntl) (estate : SnapshotEstate)

section Titles

theorem openOnes_fit : estate.openOnes.length < 2 ^ 32 :=
  lt_of_le_of_lt (List.length_filter_le _ _) estate.problems_fit

theorem recent_fit : estate.recent.length < 2 ^ 32 := by
  unfold recent
  rw [(sortBy_perm _ _).length_eq]
  exact lt_of_le_of_lt (List.length_filter_le _ _) estate.openOnes_fit

theorem ordered_fit : estate.ordered.length < 2 ^ 32 := by
  unfold ordered
  rw [(sortBy_perm _ _).length_eq]
  exact estate.openOnes_fit

theorem problemsTitle_short (shown : Nat) :
    (textLength (estate.problemsTitle shown) : ℤ) ≤ 100 := by
  have all := textLength_number estate.ordered_fit
  unfold problemsTitle
  split_ifs with whole
  · have opening : textLength "OPEN PROBLEMS (" = 15 := by decide
    have closing : textLength ", worst first):" = 15 := by decide
    simp only [textLength_append]
    omega
  · have part := textLength_number (lt_trans (not_le.mp whole) estate.ordered_fit)
    have opening : textLength "OPEN PROBLEMS (" = 15 := by decide
    have middle : textLength ", worst first; only the worst " = 30 := by decide
    have closing : textLength " are listed):" = 13 := by decide
    simp only [textLength_append]
    omega
  · have opening : textLength "OPEN PROBLEMS (" = 15 := by decide
    have closing : textLength "; none listed, no room left):" = 29 := by decide
    simp only [textLength_append]
    omega

end Titles

section Budgets

theorem estateBlock_fits :
    (textLength (estate.estateBlock intl).text : ℤ) ≤ BUDGET.estate := by
  unfold estateBlock
  apply sectionOf_fits
  have opening : textLength "SNAPSHOT taken " = 15 := by decide
  have clock := snapshotClock_short intl estate.timezone estate.now
  rw [textLength_append, BUDGET.estate]
  omega

theorem wholeBlock_fits :
    (textLength (estate.wholeBlock intl).text : ℤ) ≤ BUDGET.whole := by
  unfold wholeBlock
  apply sectionOf_fits
  have opening : textLength "ALL " = 4 := by decide
  have closing : textLength " OPEN PROBLEMS, COUNTED:" = 24 := by decide
  have number := textLength_number estate.openOnes_fit
  rw [textLength_append, textLength_append, BUDGET.whole]
  omega

theorem slaBlock_fits : (textLength (estate.slaBlock intl).text : ℤ) ≤ BUDGET.sla :=
  sectionOf_fits _ _ _ (by decide)

theorem servicesBlock_fits :
    (textLength (estate.servicesBlock intl).text : ℤ) ≤ BUDGET.services :=
  sectionOf_fits _ _ _ (by decide)

theorem recentBlock_fits :
    (textLength (estate.recentBlock intl).text : ℤ) ≤ BUDGET.recent := by
  unfold recentBlock
  apply sectionOf_fits
  have opening : textLength "NEW IN LAST 24 H: " = 18 := by decide
  have middle : textLength " problems opened" = 16 := by decide
  have number := textLength_number estate.recent_fit
  have counts := severityList_short (severityCounts_small estate.recent_fit) true
  rw [textLength_append, textLength_append, textLength_append, BUDGET.recent]
  split_ifs
  · have bracket : textLength " (" = 2 := by decide
    have closing : textLength "), newest first:" = 16 := by decide
    rw [textLength_append, textLength_append]
    omega
  · have closing : textLength "." = 1 := by decide
    omega

theorem siteExtra_bounds : 0 ≤ estate.siteExtra intl ∧ estate.siteExtra intl ≤ estate.slack intl := by
  have sla := estate.slaBlock_fits intl
  have services := estate.servicesBlock_fits intl
  unfold siteExtra slack
  omega

/-- The two widened sections share what the SLA and service lists leave. -/
theorem unreachableExtra_bounds : 0 ≤ estate.unreachableExtra intl ∧
    estate.siteExtra intl + estate.unreachableExtra intl ≤ estate.slack intl := by
  have bounds := estate.siteExtra_bounds intl
  unfold unreachableExtra
  omega

theorem sitesBlock_fits : (textLength (estate.sitesBlock intl).text : ℤ) ≤
    BUDGET.sites + estate.siteExtra intl := by
  unfold sitesBlock
  apply sectionOf_fits
  have opening : textLength "SITES (" = 7 := by decide
  have closing : textLength ", worst first: highest open severity, then most hosts down):" = 60 := by
    decide
  have number := textLength_number estate.sites_fit
  have extra := (estate.siteExtra_bounds intl).1
  rw [textLength_append, textLength_append, BUDGET.sites]
  omega

theorem unreachableBlock_fits : (textLength (estate.unreachableBlock intl).text : ℤ) ≤
    BUDGET.unreachable + estate.unreachableExtra intl := by
  unfold unreachableBlock
  apply sectionOf_fits
  have opening : textLength "UNREACHABLE HOSTS (" = 19 := by decide
  have closing : textLength ", by site; how long down in brackets):" = 38 := by decide
  have down : stateCounts estate.hosts .down < 2 ^ 32 :=
    lt_of_le_of_lt (List.length_filter_le _ _) estate.hosts_fit
  have number := textLength_number down
  have extra := (estate.unreachableExtra_bounds intl).1
  rw [textLength_append, textLength_append, BUDGET.unreachable]
  omega

/-- What is left for the problems is never less than a title. -/
theorem problemBudget_room : 1086 ≤ estate.problemBudget intl := by
  have first := estate.estateBlock_fits intl
  have whole := estate.wholeBlock_fits intl
  have sites := estate.sitesBlock_fits intl
  have recent := estate.recentBlock_fits intl
  have unreachable := estate.unreachableBlock_fits intl
  have shared := (estate.unreachableExtra_bounds intl).2
  unfold problemBudget used
  simp only [List.map_cons, List.map_nil, List.sum_cons, List.sum_nil]
  simp only [slack, BUDGET.estate, BUDGET.whole, BUDGET.sites, BUDGET.recent,
    BUDGET.unreachable, BUDGET.sla, BUDGET.services, BUDGET.problems, SNAPSHOT_CHAR_CAP]
    at *
  omega

theorem problemsBlock_fits :
    (textLength (estate.problemsBlock intl).text : ℤ) ≤ estate.problemBudget intl := by
  apply sectionOf_fits
  exact le_trans (estate.problemsTitle_short _) (le_trans (by decide)
    (estate.problemBudget_room intl))

theorem text_fits :
    (textLength (buildSnapshot intl estate).text : ℤ) ≤ SNAPSHOT_CHAR_CAP := by
  have joined := textLength_intercalate_le "\n\n" ((estate.blocks intl).map (·.text))
  have blank : textLength "\n\n" = 2 := by decide
  have last := estate.problemsBlock_fits intl
  have left : estate.problemBudget intl ≤ SNAPSHOT_CHAR_CAP - estate.used intl := min_le_right _ _
  unfold buildSnapshot
  unfold used at left
  simp only [blocks, List.map_cons, List.map_nil, List.sum_cons, List.sum_nil, List.length_cons,
    List.length_nil, blank] at joined left ⊢
  omega

end Budgets

end SnapshotEstate

structure SnapshotFits (intl : PromptIntl) (estate : SnapshotEstate) : Prop where
  estateBlock : (textLength (estate.estateBlock intl).text : ℤ) ≤ BUDGET.estate
  wholeBlock : (textLength (estate.wholeBlock intl).text : ℤ) ≤ BUDGET.whole
  sitesBlock : (textLength (estate.sitesBlock intl).text : ℤ) ≤ BUDGET.sites + estate.siteExtra intl
  recentBlock : (textLength (estate.recentBlock intl).text : ℤ) ≤ BUDGET.recent
  unreachableBlock : (textLength (estate.unreachableBlock intl).text : ℤ) ≤
    BUDGET.unreachable + estate.unreachableExtra intl
  slaBlock : (textLength (estate.slaBlock intl).text : ℤ) ≤ BUDGET.sla
  servicesBlock : (textLength (estate.servicesBlock intl).text : ℤ) ≤ BUDGET.services
  problemsBlock : (textLength (estate.problemsBlock intl).text : ℤ) ≤ estate.problemBudget intl
  text : (textLength (buildSnapshot intl estate).text : ℤ) ≤ SNAPSHOT_CHAR_CAP

theorem snapshot_fits (intl : PromptIntl) (estate : SnapshotEstate) :
    SnapshotFits intl estate where
  estateBlock := estate.estateBlock_fits intl
  wholeBlock := estate.wholeBlock_fits intl
  sitesBlock := estate.sitesBlock_fits intl
  recentBlock := estate.recentBlock_fits intl
  unreachableBlock := estate.unreachableBlock_fits intl
  slaBlock := estate.slaBlock_fits intl
  servicesBlock := estate.servicesBlock_fits intl
  problemsBlock := estate.problemsBlock_fits intl
  text := estate.text_fits intl

end ZabbixPortal.Services
