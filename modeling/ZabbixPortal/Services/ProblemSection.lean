import ZabbixPortal.Domain.Naming
import ZabbixPortal.Foundation.Decimal
import ZabbixPortal.Services.BlockLayout
import ZabbixPortal.Services.PromptTextProperties
import ZabbixPortal.Services.SnapshotTextProperties

/-! The list of open problems in a snapshot: when its title tells how many it lists. -/

set_option autoImplicit false

namespace ZabbixPortal.Services

open Foundation Domain

section Lines

theorem oneLine_sevName (sev : ℤ) : OneLine (sevName sev) := by
  unfold sevName
  split <;> first | decide | exact .append (by decide) (.integer _)

theorem oneLine_age (clock now : ℤ) : OneLine (age clock now) := by
  unfold age
  dsimp only
  refine .ite (fun _ => .append (.integer _) (by decide)) fun _ => ?_
  refine .ite (fun _ => .append (.integer _) (by decide)) fun _ => ?_
  refine .ite (fun _ => ?_) fun _ => .append (.integer _) (by decide)
  exact .append (.append (.append (.integer _) (by decide)) (.integer _)) (by decide)

theorem oneLine_hostLabel (intl : PromptIntl) (p : PromptProblem) : OneLine (hostLabel intl p) := by
  unfold hostLabel orText
  split
  · decide
  · exact oneLine_promptText intl _ _

theorem oneLine_problemLine (intl : PromptIntl) (p : PromptProblem) (now : ℤ) :
    OneLine (problemLine intl p now) := by
  unfold problemLine
  dsimp only
  have live : OneLine (if p.opdata.getD "" ≠ "" ∧ textLength (p.opdata.getD "") ≤ 30 then
      promptText intl (some (p.opdata.getD "")) (some 30) else "") :=
    .ite (fun _ => oneLine_promptText intl _ _) fun _ => by decide
  have opdata : OneLine (if (if p.opdata.getD "" ≠ "" ∧ textLength (p.opdata.getD "") ≤ 30 then
      promptText intl (some (p.opdata.getD "")) (some 30) else "") ≠ "" then
        " (" ++ (if p.opdata.getD "" ≠ "" ∧ textLength (p.opdata.getD "") ≤ 30 then
          promptText intl (some (p.opdata.getD "")) (some 30) else "") ++ ")" else "") :=
    .ite (fun _ => .append (.append (by decide) live) (by decide)) fun _ => by decide
  have ack : OneLine (if p.acknowledged then "acked" else "not acked") :=
    .ite (fun _ => by decide) fun _ => by decide
  have severity : OneLine ("- [" ++ sevName p.severity ++ "] ") :=
    .append (.append (by decide) (oneLine_sevName _)) (by decide)
  have host : OneLine ("- [" ++ sevName p.severity ++ "] " ++ hostLabel intl p ++ ": ") :=
    .append (severity.append (oneLine_hostLabel intl p)) (by decide)
  exact ((((host.append (oneLine_promptText intl _ _)).append opdata).append (by decide)).append
    (oneLine_age _ _) |>.append (by decide)).append ack

end Lines

section Counting

theorem stacked_append (lines others : List String) :
    stacked (lines ++ others) = stacked lines ++ stacked others := by
  induction lines with
  | nil => rw [List.nil_append, stacked, String.empty_append]
  | cons line rest ih =>
      rw [List.cons_append, stacked, ih, stacked]
      simp only [String.append_assoc]

theorem splitOnP_stacked {lines : List String} (each : ∀ line ∈ lines, OneLine line)
    {title : String} (own : OneLine title) :
    (title ++ stacked lines).toList.splitOnP (fun c => !isDot c) =
      (title :: lines).map String.toList := by
  have unsplit : ∀ text : String, OneLine text →
      ∀ c ∈ text.toList, (fun c => !isDot c) c = false := by
    intro text oneLine c member
    simp [oneLine c member]
  induction lines generalizing title with
  | nil =>
      rw [stacked, String.append_empty, List.splitOnP_eq_singleton (unsplit title own)]
      rfl
  | cons line rest ih =>
      have shape : (title ++ stacked (line :: rest)).toList =
          title.toList ++ '\n' :: (line ++ stacked rest).toList := by
        simp [stacked]
      rw [shape, List.splitOnP_append_cons_of_forall_mem (unsplit title own) '\n' (by decide),
        ih (fun other member => each other (.tail _ member)) (each line List.mem_cons_self)]
      rfl

/-- The lines of a block that list a problem. -/
theorem listedLines_stacked {title : String} {lines : List String} (own : OneLine title)
    (each : ∀ line ∈ lines, OneLine line) :
    SnapshotEstate.listedLines (title ++ stacked lines) =
      ((title :: lines).filter fun line => "- [".toList.isPrefixOf line.toList).length := by
  rw [SnapshotEstate.listedLines, splitOnP_stacked each own, List.filter_map, List.length_map]
  rfl

theorem isPrefixOf_problemLine (intl : PromptIntl) (p : PromptProblem) (now : ℤ) :
    "- [".toList.isPrefixOf (problemLine intl p now).toList = true := by
  unfold problemLine
  simp only [String.toList_append, List.append_assoc]
  exact List.isPrefixOf_iff_prefix.mpr (List.prefix_append _ _)

end Counting

namespace SnapshotEstate

variable (intl : PromptIntl) (estate : SnapshotEstate)

def notListed (left : ℤ) (shown : Nat) : String :=
  "- …and " ++ toString left ++ " more not listed (of those: " ++
    severityList (severityCounts (estate.ordered.drop shown)) true ++ ")"

def worstLines (shown : Nat) : List String :=
  if estate.ordered = [] then ["- none"]
  else (estate.ordered.take shown).map fun p => problemLine intl p estate.now

/-- The block as its title tells it: so many of the worst, and a tail that counts the others. -/
def told (shown : Nat) : String :=
  estate.problemsTitle shown ++ stacked (estate.worstLines intl shown) ++
    tailText estate.notListed estate.ordered.length shown

/-- The title, the lines and the tail of the list tell of the same problems. -/
def TellsTruth : Prop :=
  ∃ shown ≤ estate.ordered.length, (estate.problemsBlock intl).text = estate.told intl shown

theorem oneLine_problemsTitle (shown : Nat) : OneLine (estate.problemsTitle shown) := by
  unfold problemsTitle
  refine .ite (fun _ => ?_) fun _ => .ite (fun _ => ?_) fun _ => ?_
  · exact .append (.append (by decide) (.number _)) (by decide)
  · exact .append (.append (.append (.append (by decide) (.number _)) (by decide)) (.number _))
      (by decide)
  · exact .append (.append (by decide) (.number _)) (by decide)

theorem oneLine_notListed (left : ℤ) (shown : Nat) : OneLine (estate.notListed left shown) := by
  have counts : OneLine (severityList (severityCounts (estate.ordered.drop shown)) true) := by
    refine .intercalate (by decide) fun part member => ?_
    obtain ⟨severity, -, rfl⟩ := List.mem_map.mp member
    exact .append (.append (oneLine_sevName _) (by decide)) (.number _)
  exact .append (.append (.append (.append (by decide) (.integer _)) (by decide)) counts)
    (by decide)

theorem oneLine_worstLines (shown : Nat) : ∀ line ∈ estate.worstLines intl shown, OneLine line := by
  intro line member
  unfold worstLines at member
  split at member
  · rw [List.mem_singleton.mp member]
    decide
  · obtain ⟨p, -, rfl⟩ := List.mem_map.mp member
    exact oneLine_problemLine intl p estate.now

def tailLines (shown : Nat) : List String :=
  if shown < estate.ordered.length then
    [estate.notListed ((estate.ordered.length : ℤ) - shown) shown] else []

theorem stacked_tailLines (shown : Nat) :
    stacked (estate.tailLines shown) =
      tailText estate.notListed estate.ordered.length shown := by
  unfold tailLines tailText
  split
  · rw [stacked, stacked, String.append_empty]
  · rfl

/-- A block under any title of the list counts the problems listed in it. -/
theorem listedLines_of_block (nonempty : estate.ordered ≠ []) (named : Nat) {shown : Nat}
    (most : shown ≤ estate.ordered.length) :
    listedLines (estate.problemsTitle named ++ stacked (estate.worstLines intl shown) ++
      tailText estate.notListed estate.ordered.length shown) = shown := by
  have notTitle : "- [".toList.isPrefixOf (estate.problemsTitle named).toList = false := by
    unfold problemsTitle
    split_ifs <;> simp only [String.toList_append, List.append_assoc] <;> rfl
  have inTail : ∀ line ∈ estate.tailLines shown,
      ¬ "- [".toList.isPrefixOf line.toList = true := by
    intro line member
    unfold tailLines at member
    split at member
    · rw [List.mem_singleton.mp member, notListed]
      simp only [String.toList_append, List.append_assoc]
      exact Bool.false_ne_true
    · cases member
  have tails : ∀ line ∈ estate.tailLines shown, OneLine line := by
    intro line member
    unfold tailLines at member
    split at member
    · rw [List.mem_singleton.mp member]
      exact estate.oneLine_notListed _ _
    · cases member
  rw [← stacked_tailLines, String.append_assoc, ← stacked_append,
    listedLines_stacked (estate.oneLine_problemsTitle named) fun line member => ?_,
    List.filter_cons, if_neg (by rw [notTitle]; exact Bool.false_ne_true), List.filter_append,
    List.filter_eq_nil_iff.mpr inTail, List.append_nil, List.filter_eq_self.mpr fun line member => ?_]
  · rw [worstLines, if_neg nonempty, List.length_map, List.length_take, Nat.min_eq_left most]
  · rw [worstLines, if_neg nonempty] at member
    obtain ⟨p, -, rfl⟩ := List.mem_map.mp member
    exact isPrefixOf_problemLine intl p estate.now
  · rcases List.mem_append.mp member with inList | inTail
    · exact estate.oneLine_worstLines intl shown line inList
    · exact tails line inTail

def Fits (named i : Nat) : Prop :=
  LineFits (estate.problemsTitle named) (estate.worstLines intl estate.ordered.length)
    (estate.problemBudget intl) estate.notListed estate.ordered.length i

/-- The lines that fit under a title without a number fit under the longer one that tells how
many they are, too. -/
def NamedLinesFit : Prop :=
  estate.ordered.length ≤ PROBLEM_CAP → ∀ shown, 0 < shown → shown < estate.ordered.length →
    (∀ i < shown, estate.Fits intl estate.ordered.length i) →
    ¬ estate.Fits intl estate.ordered.length shown → ∀ i < shown, estate.Fits intl shown i

section Blocks

theorem tail_short {total : Nat} (fit : total < 2 ^ 32) (shown : Nat) :
    textLength (tailText estate.notListed total shown) ≤ 300 := by
  unfold tailText
  split
  · next left =>
      have count : ((total : ℤ) - shown) = ((total - shown : ℕ) : ℤ) := by omega
      have number : textLength (toString ((total - shown : ℕ) : ℤ)) ≤ 10 :=
        textLength_number (lt_of_le_of_lt (Nat.sub_le _ _) fit)
      have rest : (estate.ordered.drop shown).length < 2 ^ 32 := by
        rw [List.length_drop]
        exact lt_of_le_of_lt (Nat.sub_le _ _) estate.ordered_fit
      have counts := severityList_short (severityCounts_small rest) true
      have newline : textLength "\n" = 1 := by decide
      have opening : textLength "- …and " = 7 := by decide
      have middle : textLength " more not listed (of those: " = 28 := by decide
      have closing : textLength ")" = 1 := by decide
      rw [notListed, count]
      simp only [textLength_append]
      omega
  · decide

theorem room {total : Nat} (fit : total < 2 ^ 32) (named : Nat) :
    ((textLength (estate.problemsTitle named) +
      textLength (tailText estate.notListed total 0) : ℕ) : ℤ) ≤ estate.problemBudget intl := by
  have title := estate.problemsTitle_short named
  have tail := estate.tail_short fit 0
  have budget := estate.problemBudget_room intl
  omega

theorem worstLines_take (nonempty : estate.ordered ≠ []) {shown count : Nat} (le : shown ≤ count) :
    (estate.worstLines intl count).take shown = estate.worstLines intl shown := by
  rw [worstLines, worstLines, if_neg nonempty, if_neg nonempty, ← List.map_take, List.take_take,
    Nat.min_eq_left le]

theorem length_worstLines (nonempty : estate.ordered ≠ []) (count : Nat) :
    (estate.worstLines intl count).length = min count estate.ordered.length := by
  rw [worstLines, if_neg nonempty, List.length_map, List.length_take]

/-- The list under a title, laid out from so many lines. -/
theorem problemSection_spec (nonempty : estate.ordered ≠ []) (named : Nat) {count : Nat}
    (most : count ≤ estate.ordered.length) :
    ∃ shown ≤ count, (estate.problemSection intl (estate.worstLines intl count) named).text =
        estate.problemsTitle named ++ stacked (estate.worstLines intl shown) ++
          tailText estate.notListed estate.ordered.length shown ∧
      (∀ i < shown, estate.Fits intl named i) ∧
      (shown < count → ¬ estate.Fits intl named shown) := by
  have positive : max estate.ordered.length 1 = estate.ordered.length :=
    Nat.max_eq_left (List.length_pos_iff.mpr nonempty)
  have same : ∀ i < count, LineFits (estate.problemsTitle named) (estate.worstLines intl count)
      (estate.problemBudget intl) estate.notListed estate.ordered.length i ↔
        estate.Fits intl named i := by
    intro i before
    unfold Fits LineFits
    rw [estate.worstLines_take intl nonempty (Nat.succ_le_of_lt before),
      estate.worstLines_take intl nonempty (Nat.le_trans (Nat.succ_le_of_lt before) most)]
  obtain ⟨shown, within, text, each, stop⟩ := sectionOf_spec (estate.worstLines intl count)
    (estate.room intl estate.ordered_fit named)
  rw [estate.length_worstLines intl nonempty, Nat.min_eq_left most] at within stop
  refine ⟨shown, within, ?_, fun i before => (same i (Nat.lt_of_lt_of_le before within)).mp
    (each i before), fun short fits => stop short ((same shown short).mpr fits)⟩
  rw [estate.worstLines_take intl nonempty within] at text
  unfold problemSection
  rw [if_neg nonempty, positive]
  exact text

end Blocks

section Truth

variable {estate}

/-- No two titles that differ in their number are the same. -/
theorem problemsTitle_inj {shown named : Nat} (less : shown < named)
    (most : named ≤ estate.ordered.length) :
    estate.problemsTitle named ≠ estate.problemsTitle shown := by
  intro same
  have positive : named ≠ 0 := Nat.ne_zero_of_lt less
  have notAll : ¬ estate.ordered.length ≤ shown := by omega
  unfold problemsTitle at same
  rw [if_neg notAll] at same
  have lists := congrArg String.toList same
  by_cases all : estate.ordered.length ≤ named
  · rw [if_pos all] at lists
    by_cases empty : shown = 0
    · rw [if_neg (not_not_intro empty)] at lists
      simp only [String.toList_append, List.append_assoc, List.append_cancel_left_eq] at lists
      exact absurd lists (by decide)
    · rw [if_pos empty] at lists
      simp only [String.toList_append, List.append_assoc, List.append_cancel_left_eq] at lists
      have differs : (some ')' : Option Char) = some ';' := congrArg (·[13]?) lists
      exact absurd differs (by decide)
  · rw [if_neg all, if_pos positive] at lists
    by_cases empty : shown = 0
    · rw [if_neg (not_not_intro empty)] at lists
      simp only [String.toList_append, List.append_assoc, List.append_cancel_left_eq] at lists
      have differs : (some ',' : Option Char) = some ';' := congrArg (·[0]?) lists
      exact absurd differs (by decide)
    · rw [if_pos empty] at lists
      simp only [String.toList_append, List.append_assoc, List.append_cancel_left_eq,
        List.append_cancel_right_eq] at lists
      exact absurd (toString_inj lists) (Nat.ne_of_gt less)

variable {intl}

theorem listed_eq (nonempty : estate.ordered ≠ []) :
    estate.listed intl = estate.worstLines intl (min PROBLEM_CAP estate.ordered.length) := by
  rw [worstLines, if_neg nonempty, listed, List.take_eq_take_min]

variable (intl) in
/-- The first layout counts the lines that fit under its title. -/
theorem fitted_spec (nonempty : estate.ordered ≠ []) :
    estate.fitted intl ≤ min PROBLEM_CAP estate.ordered.length ∧
      (∀ i < estate.fitted intl, estate.Fits intl (min PROBLEM_CAP estate.ordered.length) i) ∧
      (estate.fitted intl < min PROBLEM_CAP estate.ordered.length →
        ¬ estate.Fits intl (min PROBLEM_CAP estate.ordered.length) (estate.fitted intl)) := by
  have length : (estate.listed intl).length = min PROBLEM_CAP estate.ordered.length := by
    rw [listed_eq nonempty, estate.length_worstLines intl nonempty, Nat.min_assoc, Nat.min_self]
  obtain ⟨shown, within, text, each, stop⟩ := estate.problemSection_spec intl nonempty
    (min PROBLEM_CAP estate.ordered.length) (Nat.min_le_right PROBLEM_CAP estate.ordered.length)
  have counted : estate.fitted intl = shown := by
    rw [fitted, length, listed_eq nonempty, text]
    exact estate.listedLines_of_block intl nonempty _ (within.trans (Nat.min_le_right _ _))
  rw [counted]
  exact ⟨within, each, stop⟩

/-- The list tells the truth when the second layout keeps every line the first one counted. -/
theorem tellsTruth_iff_kept (nonempty : estate.ordered ≠ []) :
    estate.TellsTruth intl ↔
      ∀ i < estate.fitted intl, estate.Fits intl (estate.fitted intl) i := by
  obtain ⟨cap, -, -⟩ := fitted_spec intl nonempty
  have most : estate.fitted intl ≤ estate.ordered.length := cap.trans (Nat.min_le_right _ _)
  have lines : (estate.listed intl).take (estate.fitted intl) =
      estate.worstLines intl (estate.fitted intl) := by
    rw [listed_eq nonempty, estate.worstLines_take intl nonempty cap]
  obtain ⟨shown, within, text, each, stop⟩ :=
    estate.problemSection_spec intl nonempty (estate.fitted intl) most
  rw [← lines] at text
  have block : (estate.problemsBlock intl).text = estate.problemsTitle (estate.fitted intl) ++
      stacked (estate.worstLines intl shown) ++
        tailText estate.notListed estate.ordered.length shown := text
  constructor
  · rintro ⟨named, inside, told⟩
    have counted : shown = named := by
      rw [← estate.listedLines_of_block intl nonempty _ (within.trans most), ← block, told]
      exact estate.listedLines_of_block intl nonempty named inside
    subst counted
    rw [block, SnapshotEstate.told] at told
    have lists := congrArg String.toList told
    simp only [String.toList_append] at lists
    have titles := String.toList_inj.mp
      (List.append_cancel_right (List.append_cancel_right lists))
    rcases Nat.lt_or_eq_of_le within with less | same
    · exact absurd titles (problemsTitle_inj less most)
    · rw [← same] at each ⊢
      exact each
  · intro fits
    have all : shown = estate.fitted intl := by
      rcases Nat.lt_or_eq_of_le within with less | same
      · exact absurd (fits shown less) (stop less)
      · exact same
    rw [all] at block
    exact ⟨estate.fitted intl, most, block⟩

/-- Without a problem there is one line, and nothing is left out. -/
theorem tellsTruth_of_none (empty : estate.ordered = []) : estate.TellsTruth intl := by
  have title : ∀ named, estate.problemsTitle named = estate.problemsTitle 0 := by
    intro named
    unfold problemsTitle
    rw [empty]
    rfl
  have titleShort := estate.problemsTitle_short (estate.fitted intl)
  have budget := estate.problemBudget_room intl
  have line : textLength "- none" = 6 := by decide
  have block : estate.problemsBlock intl = sectionOf (estate.problemsTitle (estate.fitted intl))
      ["- none"] (estate.problemBudget intl) estate.notListed 1 := by
    have one : max estate.ordered.length 1 = 1 := by
      rw [empty]
      rfl
    unfold problemsBlock problemSection
    rw [if_pos empty, one]
    rfl
  refine ⟨0, Nat.zero_le _, ?_⟩
  rw [block, sectionOf_one _ (by omega), title, told, worstLines, if_pos empty, tailText,
    if_neg (by rw [empty]; decide), String.append_empty, stacked, stacked, String.append_empty,
    String.append_assoc]

/-- A shorter title leaves room for every line a longer one leaves room for. -/
theorem Fits.of_shorter {named other i : Nat} (fits : estate.Fits intl other i)
    (shorter : textLength (estate.problemsTitle named) ≤ textLength (estate.problemsTitle other)) :
    estate.Fits intl named i := by
  unfold Fits LineFits at *
  omega

/-- Past the cap every title has a number, and the second is no longer than the first. -/
theorem problemsTitle_shorter (many : PROBLEM_CAP < estate.ordered.length) {named : Nat}
    (positive : 0 < named) (cap : named ≤ PROBLEM_CAP) :
    textLength (estate.problemsTitle named) ≤ textLength (estate.problemsTitle PROBLEM_CAP) := by
  have digits : ∀ number < 21, textLength (toString number) ≤ textLength (toString PROBLEM_CAP) := by
    decide
  have own := digits named (Nat.lt_succ_of_le cap)
  unfold problemsTitle
  rw [if_neg (by omega), if_pos (by omega), if_neg (by omega), if_pos (by decide)]
  simp only [textLength_append]
  omega

end Truth

end SnapshotEstate

/-- The list of open problems tells how many of the worst it lists, and counts exactly the others,
if and only if the lines that fit under the short title still fit under the one that tells their
number. -/
theorem tellsTruth_iff (intl : PromptIntl) (estate : SnapshotEstate) :
    estate.TellsTruth intl ↔ estate.NamedLinesFit intl := by
  by_cases found : estate.ordered = []
  · refine iff_of_true (SnapshotEstate.tellsTruth_of_none found) fun _ shown _ less => ?_
    rw [found] at less
    exact absurd less (Nat.not_lt_zero shown)
  rw [SnapshotEstate.tellsTruth_iff_kept found]
  obtain ⟨cap, each, stop⟩ := SnapshotEstate.fitted_spec intl found
  constructor
  · intro kept few shown positive less before after
    rw [Nat.min_eq_right few] at each stop cap
    have same : shown = estate.fitted intl := by
      rcases Nat.lt_trichotomy shown (estate.fitted intl) with early | same | late
      · exact absurd (each shown early) after
      · exact same
      · exact absurd (before _ late) (stop (Nat.lt_trans late less))
    rw [same]
    exact kept
  · intro fits
    by_cases few : estate.ordered.length ≤ PROBLEM_CAP
    · rw [Nat.min_eq_right few] at each stop cap
      rcases Nat.lt_or_eq_of_le cap with less | all
      · intro i before
        exact fits few _ (Nat.zero_lt_of_lt before) less each (stop less) i before
      · rw [all] at each ⊢
        exact each
    · have many := Nat.lt_of_not_le few
      rw [Nat.min_eq_left many.le] at each cap
      intro i before
      exact (each i before).of_shorter
        (SnapshotEstate.problemsTitle_shorter many (Nat.zero_lt_of_lt before) cap)

section Nine

theorem unknownZone_short (zone : String) (known : false = true) : textLength zone ≤ 64 :=
  absurd known Bool.false_ne_true

theorem blank_short (_ : String) (_ : ℤ) : textLength "" ≤ 64 := by decide

theorem unnamed_short (_ : String) (_ : ℤ) (name : String) (named : none = some name) :
    textLength name ≤ 64 := absurd named.symm (Option.some_ne_none _)

def asciiPromptIntl : PromptIntl where
  toIntl := asciiIntl
  isFormat _ := false
  knowsZone _ := false
  dateTime _ _ := ""
  zoneName _ _ := none
  date _ _ := ""
  zone_short := unknownZone_short
  dateTime_short := blank_short
  zoneName_short := unnamed_short

def longNamed (i : Nat) : PromptProblem where
  eventid := toString i
  objectid := ""
  name := .ofList (List.replicate 177 'x')
  severity := 4
  clock := 0
  r_eventid := none
  acknowledged := false
  suppressed := false
  hostid := some "1"
  host := some (.ofList ['S', 'W', 'I', 'T', 'C', 'H'])
  opdata := none

def nineProblems : SnapshotEstate where
  now := 1000000
  timezone := "Asia/Jakarta"
  problems := (List.range 9).map longNamed
  sites := []
  slas := none
  services := none
  derivedSla := none
  derivedServices := none
  problems_fit := by decide
  sites_fit := by decide
  hosts_fit := by decide

namespace NineProblems

theorem textLength_line (i : Nat) :
    textLength (problemLine asciiPromptIntl (longNamed i) nineProblems.now) = 219 := by
  have name : promptText asciiPromptIntl (some (longNamed i).name) (some PROBLEM_NAME_MAX) =
      .ofList (List.replicate 177 'x') := by
    refine promptText_of_word _ (fun c member => ?_) (by rw [List.length_replicate]; decide)
    rw [List.eq_of_mem_replicate member]
    decide
  have host : hostLabel asciiPromptIntl (longNamed i) = .ofList ['S', 'W', 'I', 'T', 'C', 'H'] := by
    have clean : ∀ c ∈ ['S', 'W', 'I', 'T', 'C', 'H'], isDot c = true ∧ isControl c = false ∧
        asciiPromptIntl.isFormat c = false ∧ (c == '~') = false ∧ isSpace c = false := by
      intro c member
      simp only [List.mem_cons, List.not_mem_nil, or_false] at member
      rcases member with rfl | rfl | rfl | rfl | rfl | rfl <;> decide
    have short : ['S', 'W', 'I', 'T', 'C', 'H'].length ≤ HOST_NAME_MAX := by decide
    rw [hostLabel, longNamed, promptText_of_word asciiPromptIntl clean short, orText,
      if_neg (by simp)]
  have nameLength : textLength (.ofList (List.replicate 177 'x')) = 177 := by
    have plain : ∀ c ∈ List.replicate 177 'x', c.toNat < 0x10000 := by
      intro c member
      rw [List.eq_of_mem_replicate member]
      decide
    rw [textLength, String.toList_ofList, length_codeUnits_of_ascii plain, List.length_replicate]
  have hostLength : textLength (.ofList ['S', 'W', 'I', 'T', 'C', 'H']) = 6 := by decide
  have parts : problemLine asciiPromptIntl (longNamed i) nineProblems.now =
      ("- [" ++ sevName (4 : ℕ) ++ "] ") ++ hostLabel asciiPromptIntl (longNamed i) ++ ": " ++
        promptText asciiPromptIntl (some (longNamed i).name) (some PROBLEM_NAME_MAX) ++ "" ++
          "; open " ++ age 0 1000000 ++ ", " ++ "not acked" := rfl
  have opening : textLength ("- [" ++ sevName (4 : ℕ) ++ "] ") = 9 := by decide
  have closing : textLength (age 0 1000000) = 7 := by decide
  have colon : textLength ": " = 2 := by decide
  have empty : textLength "" = 0 := by decide
  have since : textLength "; open " = 7 := by decide
  have comma : textLength ", " = 2 := by decide
  have ack : textLength "not acked" = 9 := by decide
  rw [parts, name, host]
  generalize "- [" ++ sevName (4 : ℕ) ++ "] " = front at opening ⊢
  simp only [textLength_append]
  omega

theorem openOnes_eq : nineProblems.openOnes = (List.range 9).map longNamed := rfl

theorem length_ordered : nineProblems.ordered.length = 9 := by
  rw [SnapshotEstate.ordered, (sortBy_perm _ _).length_eq, openOnes_eq]
  rfl

theorem exists_of_mem_ordered {p : PromptProblem} (member : p ∈ nineProblems.ordered) :
    ∃ i, p = longNamed i := by
  rw [SnapshotEstate.ordered, mem_sortBy, openOnes_eq] at member
  obtain ⟨i, -, rfl⟩ := List.mem_map.mp member
  exact ⟨i, rfl⟩

theorem some_ordered : nineProblems.ordered ≠ [] := by
  intro empty
  have length := length_ordered
  rw [empty] at length
  cases length

theorem stackedLength_take {count : Nat} (most : count ≤ 9) :
    stackedLength ((nineProblems.worstLines asciiPromptIntl nineProblems.ordered.length).take
      count) = count * 220 := by
  have same : ∀ line ∈ (nineProblems.worstLines asciiPromptIntl
      nineProblems.ordered.length).take count, textLength line = 219 := by
    intro line member
    have inside := List.mem_of_mem_take member
    rw [SnapshotEstate.worstLines, if_neg some_ordered] at inside
    obtain ⟨p, isProblem, rfl⟩ := List.mem_map.mp inside
    obtain ⟨i, rfl⟩ := exists_of_mem_ordered (List.mem_of_mem_take isProblem)
    exact textLength_line i
  rw [stackedLength_of_same same, List.length_take, SnapshotEstate.length_worstLines _ _
    some_ordered, length_ordered, Nat.min_self, Nat.min_eq_left most]

/-- While problems are left out, the tail takes 44 characters. -/
theorem textLength_tail {shown : Nat} (left : shown < 9) :
    textLength (tailText nineProblems.notListed nineProblems.ordered.length shown) = 44 := by
  have counts : severityCounts (nineProblems.ordered.drop shown) =
      fun severity => if severity = 4 then 9 - shown else 0 := by
    funext severity
    have each : ∀ p ∈ nineProblems.ordered.drop shown,
        decide (p.severity = severity) = decide (4 = severity) := by
      intro p member
      obtain ⟨i, rfl⟩ := exists_of_mem_ordered (List.mem_of_mem_drop member)
      rfl
    rw [severityCounts, List.filter_congr each]
    by_cases high : severity = 4
    · subst high
      simp [length_ordered]
    · simp [high, Ne.symm high]
  have list : ∀ shown < 9,
      textLength (severityList (fun severity => if severity = 4 then 9 - shown else 0) true) = 6 := by
    decide
  have number : ∀ shown : ℕ, shown < 9 → textLength (toString (((9 : ℕ) : ℤ) - shown)) = 1 := by
    decide
  have newline : textLength "\n" = 1 := by decide
  have opening : textLength "- …and " = 7 := by decide
  have middle : textLength " more not listed (of those: " = 28 := by decide
  have closing : textLength ")" = 1 := by decide
  have listLength := list shown left
  have numberLength := number shown left
  rw [tailText, length_ordered, if_pos left, SnapshotEstate.notListed, counts]
  simp only [textLength_append]
  omega

theorem textLength_sitesBlock : textLength (nineProblems.sitesBlock asciiPromptIntl).text = 75 := by
  have extra := (nineProblems.siteExtra_bounds asciiPromptIntl).1
  have noSites : nineProblems.sites = [] := rfl
  have noTop : ∀ count, nineProblems.top asciiPromptIntl count = "" := fun _ => rfl
  have opening : textLength "SITES (" = 7 := by decide
  have number : textLength (toString 0) = 1 := by decide
  have closing : textLength ", worst first: highest open severity, then most hosts down):" = 60 := by
    decide
  have line : textLength "- none" = 6 := by decide
  have newline : textLength "\n" = 1 := by decide
  unfold SnapshotEstate.sitesBlock
  simp only [noTop, noSites, ne_eq, not_true_eq_false, if_false, if_true, List.nil_append,
    List.length_nil, List.length_singleton]
  rw [sectionOf_one]
  · simp only [textLength_append]
    omega
  · simp only [textLength_append, BUDGET.sites]
    omega

theorem textLength_unreachableBlock :
    textLength (nineProblems.unreachableBlock asciiPromptIntl).text = 65 := by
  have extra := (nineProblems.unreachableExtra_bounds asciiPromptIntl).1
  have noLines : nineProblems.unreachableLines asciiPromptIntl = [] := rfl
  have noneDown : stateCounts nineProblems.hosts .down = 0 := rfl
  have opening : textLength "UNREACHABLE HOSTS (" = 19 := by decide
  have number : textLength (toString 0) = 1 := by decide
  have closing : textLength ", by site; how long down in brackets):" = 38 := by decide
  have line : textLength "- none" = 6 := by decide
  have newline : textLength "\n" = 1 := by decide
  unfold SnapshotEstate.unreachableBlock
  simp only [noLines, noneDown, if_true, List.length_singleton]
  rw [sectionOf_one]
  · simp only [textLength_append]
    omega
  · simp only [textLength_append, BUDGET.unreachable]
    omega

theorem problemBudget_eq : nineProblems.problemBudget asciiPromptIntl = 1850 := by
  have estateBlock := nineProblems.estateBlock_fits asciiPromptIntl
  have wholeBlock := nineProblems.wholeBlock_fits asciiPromptIntl
  have slaBlock := nineProblems.slaBlock_fits asciiPromptIntl
  have servicesBlock := nineProblems.servicesBlock_fits asciiPromptIntl
  have recentBlock := nineProblems.recentBlock_fits asciiPromptIntl
  unfold SnapshotEstate.problemBudget SnapshotEstate.used
  simp only [List.map_cons, List.map_nil, List.sum_cons, List.sum_nil, textLength_sitesBlock,
    textLength_unreachableBlock]
  simp only [BUDGET.estate, BUDGET.whole, BUDGET.recent, BUDGET.sla, BUDGET.services,
    BUDGET.problems, SNAPSHOT_CHAR_CAP] at *
  omega

/-- The title that tells a number needs 29 characters more. -/
theorem titles : textLength (nineProblems.problemsTitle 9) = 31 ∧
    textLength (nineProblems.problemsTitle 8) = 60 := by
  unfold SnapshotEstate.problemsTitle
  rw [length_ordered]
  decide

theorem fits_iff {named i : Nat} (inside : i < 9) :
    nineProblems.Fits asciiPromptIntl named i ↔
      textLength (nineProblems.problemsTitle named) + (i + 1) * 220 +
        (if i < 8 then 44 else 0) ≤ 1850 := by
  unfold SnapshotEstate.Fits LineFits
  rw [stackedLength_take (Nat.succ_le_of_lt inside), problemBudget_eq]
  split
  · next left =>
      rw [textLength_tail (Nat.succ_lt_succ left)]
      omega
  · next all =>
      have noTail : tailText nineProblems.notListed nineProblems.ordered.length (i + 1) = "" := by
        rw [tailText, length_ordered, if_neg (by omega)]
      have empty : textLength "" = 0 := by decide
      rw [noTail, empty]
      omega

theorem fitted_eq : nineProblems.fitted asciiPromptIntl = 8 := by
  obtain ⟨cap, each, stop⟩ := SnapshotEstate.fitted_spec asciiPromptIntl some_ordered
  generalize nineProblems.fitted asciiPromptIntl = fitted at cap each stop ⊢
  rw [length_ordered] at cap each stop
  have nine : min PROBLEM_CAP 9 = 9 := rfl
  rw [nine] at cap each stop
  have title := titles.1
  have notAll : ¬ nineProblems.Fits asciiPromptIntl 9 8 := by
    rw [fits_iff (by decide), title]
    decide
  have notNine : fitted ≠ 9 := by
    rintro rfl
    exact notAll (each 8 (by decide))
  by_contra other
  have fewer : fitted < 8 := by omega
  refine stop (by omega) ((fits_iff (by omega)).mpr ?_)
  rw [title, if_pos fewer]
  omega

end NineProblems

/-- Nine problems with long names: eight lines fit under the short title, seven under the one that
says eight are listed. -/
theorem nineProblems_not_told : ¬ nineProblems.TellsTruth asciiPromptIntl := by
  rw [SnapshotEstate.tellsTruth_iff_kept NineProblems.some_ordered, NineProblems.fitted_eq]
  intro kept
  have last := (NineProblems.fits_iff (by decide)).mp (kept 7 (by decide))
  rw [NineProblems.titles.2] at last
  exact absurd last (by decide)

end Nine

end ZabbixPortal.Services
