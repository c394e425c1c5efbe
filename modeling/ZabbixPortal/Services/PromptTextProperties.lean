import Mathlib.Data.Bool.AllAny
import ZabbixPortal.Foundation.Text
import ZabbixPortal.Services.PromptLines
import Mathlib.Data.List.SplitBy

/-! Zabbix text in a prompt stays on one line. -/

set_option autoImplicit false

namespace ZabbixPortal.Services

open Foundation Domain

/-- A text on one line, as `.` and `^` of a pattern see lines. -/
def OneLine (text : String) : Prop := ∀ c ∈ text.toList, isDot c = true

instance (text : String) : Decidable (OneLine text) :=
  List.decidableBAll (fun c => isDot c = true) text.toList

namespace OneLine

theorem append {left right : String} (first : OneLine left) (second : OneLine right) :
    OneLine (left ++ right) := by
  intro c member
  rw [String.toList_append] at member
  rcases List.mem_append.mp member with inLeft | inRight
  · exact first c inLeft
  · exact second c inRight

theorem ofList {text : List Char} (each : ∀ c ∈ text, isDot c = true) :
    OneLine (.ofList text) := by
  intro c member
  rw [String.toList_ofList] at member
  exact each c member

theorem ite {condition : Prop} [Decidable condition] {left right : String}
    (first : condition → OneLine left) (second : ¬ condition → OneLine right) :
    OneLine (if condition then left else right) := by
  split
  · next holds => exact first holds
  · next fails => exact second fails

theorem isDot_of_isDigit {c : Char} (digit : c.isDigit = true) : isDot c = true := by
  have bounds : 48 ≤ c.toNat ∧ c.toNat ≤ 57 := Char.isDigit_iff_toNat.mp digit
  have other : ∀ d : Char, d.toNat < 48 → (c == d) = false := by
    intro d small
    refine beq_eq_false_iff_ne.mpr ?_
    rintro rfl
    omega
  simp only [isDot, other '\n' (by decide), other '\r' (by decide), Bool.false_or,
    Bool.not_eq_true', Bool.or_eq_false_iff, beq_eq_false_iff_ne]
  omega

theorem number (n : Nat) : OneLine (toString n) := by
  intro c member
  have written : (toString n).toList = Nat.toDigits 10 n := Nat.toList_repr
  rw [written] at member
  exact isDot_of_isDigit (Nat.isDigit_of_mem_toDigits (by decide) (by decide) member)

theorem integer (n : ℤ) : OneLine (toString n) := by
  cases n with
  | ofNat n => exact number n
  | negSucc n => exact append (by decide) (number (n + 1))

/-- A separator and its parts on one line. -/
theorem intercalate {separator : String} (own : OneLine separator) {parts : List String}
    (each : ∀ part ∈ parts, OneLine part) : OneLine (separator.intercalate parts) := by
  induction parts with
  | nil => exact fun c member => absurd member (by simp)
  | cons part rest ih =>
      cases rest with
      | nil => simpa using each part List.mem_cons_self
      | cons next others =>
          rw [String.intercalate_cons_cons]
          exact ((each part List.mem_cons_self).append own).append
            (ih fun other member => each other (.tail _ member))

end OneLine

section PromptText

theorem mem_replaceRuns {matching : Char → Bool} {least : Nat} {by' c : Char} {text : List Char}
    (member : c ∈ replaceRuns matching least by' text) : c = by' ∨ c ∈ text := by
  obtain ⟨run, isRun, inside⟩ := List.mem_flatMap.mp member
  split at inside
  · exact .inl (List.mem_singleton.mp inside)
  · refine .inr ?_
    rw [← List.flatten_splitBy (fun a b => matching a && matching b) text]
    exact List.mem_flatten.mpr ⟨run, isRun, inside⟩

theorem mem_trim {c : Char} {text : List Char} (member : c ∈ trim text) : c ∈ text := by
  have inner := (List.dropWhile_sublist _).subset (List.mem_reverse.mp member)
  exact (List.dropWhile_sublist _).subset (List.mem_reverse.mp inner)

theorem mem_trimEnd {c : Char} {text : List Char} (member : c ∈ trimEnd text) : c ∈ text :=
  List.mem_reverse.mp ((List.dropWhile_sublist _).subset (List.mem_reverse.mp member))

theorem isDot_of_visible {c : Char} (visible : ¬ (isControl c || c.toNat == 0x2028 ||
    c.toNat == 0x2029) = true) : isDot c = true := by
  simp only [isControl, Bool.or_eq_true, Bool.and_eq_true, decide_eq_true_eq, beq_iff_eq,
    not_or] at visible
  have other : ∀ d : Char, d.toNat < 32 → (c == d) = false := by
    intro d small
    refine beq_eq_false_iff_ne.mpr ?_
    rintro rfl
    omega
  simp only [isDot, other '\n' (by decide), other '\r' (by decide), Bool.false_or,
    Bool.not_eq_true', Bool.or_eq_false_iff, beq_eq_false_iff_ne]
  omega

theorem oneLine_promptText (intl : PromptIntl) (value : Option String) (max : Option Nat) :
    OneLine (promptText intl value max) := by
  have spaced : ∀ c ∈ (value.getD "").toList.map (fun c =>
      if isControl c || c.toNat == 0x2028 || c.toNat == 0x2029 then ' ' else c), isDot c = true := by
    intro c member
    obtain ⟨d, -, rfl⟩ := List.mem_map.mp member
    split
    · decide
    · next visible => exact isDot_of_visible visible
  have flat : ∀ c ∈ trim (replaceRuns isSpace 1 ' ' (replaceRuns (· == '~') 3 '~'
      (((value.getD "").toList.map fun c =>
        if isControl c || c.toNat == 0x2028 || c.toNat == 0x2029 then ' ' else c).filter fun c =>
          !intl.isFormat c))), isDot c = true := by
    intro c member
    rcases mem_replaceRuns (mem_trim member) with rfl | unspaced
    · decide
    · rcases mem_replaceRuns unspaced with rfl | visible
      · decide
      · exact spaced c (List.mem_filter.mp visible).1
  unfold promptText
  cases max with
  | none => exact .ofList flat
  | some max =>
      refine .ite (fun _ => .ofList fun c member => ?_) fun _ => .ofList flat
      rcases List.mem_append.mp member with kept | mark
      · exact flat c (List.mem_of_mem_take (mem_trimEnd kept))
      · rw [List.mem_singleton.mp mark]
        decide

section Runs

variable {matching : Char → Bool} {least : Nat} {by' : Char}

theorem replaceRuns_append {left right : List Char}
    (apart : ∀ a ∈ left.getLast?, ∀ b ∈ right.head?, (matching a && matching b) = false) :
    replaceRuns matching least by' (left ++ right) =
      replaceRuns matching least by' left ++ replaceRuns matching least by' right := by
  rw [replaceRuns, List.splitBy_append apart, List.flatMap_append]
  rfl

def leftOfRun (least : Nat) (by' : Char) (run : List Char) : List Char :=
  if least ≤ run.length then [by'] else run

theorem replaceRuns_of_run {run : List Char} (nonempty : run ≠ [])
    (all : ∀ c ∈ run, matching c = true) :
    replaceRuns matching least by' run = leftOfRun least by' run := by
  have chain : run.IsChain fun a b => (matching a && matching b) = true := by
    refine List.Pairwise.isChain (List.pairwise_of_forall_mem_list fun a isA b isB => ?_)
    rw [all a isA, all b isB]
    rfl
  rw [replaceRuns, List.splitBy_of_isChain nonempty chain, List.flatMap_singleton, leftOfRun,
    List.all_eq_true.mpr all]
  simp

/-- A text is read run by run. -/
theorem runs_induction (matching : Char → Bool) {holds : List Char → Prop} (nil : holds [])
    (other : ∀ c rest, matching c = false → holds rest → holds (c :: rest))
    (run : ∀ run rest, run ≠ [] → (∀ c ∈ run, matching c = true) →
      (∀ c ∈ rest.head?, matching c = false) → holds rest → holds (run ++ rest))
    (text : List Char) : holds text := by
  induction length : text.length using Nat.strongRecOn generalizing text with
  | _ size ih =>
      cases text with
      | nil => exact nil
      | cons c rest =>
          cases own : matching c with
          | false => exact other c rest own (ih rest.length (by rw [← length]; simp) rest rfl)
          | true =>
              have split := List.takeWhile_append_dropWhile (p := matching) (l := c :: rest)
              have nonempty : (c :: rest).takeWhile matching ≠ [] := by
                rw [List.takeWhile_cons_of_pos own]
                exact List.cons_ne_nil _ _
              have shorter : ((c :: rest).dropWhile matching).length < size := by
                rw [List.dropWhile_cons_of_pos own, ← length]
                exact Nat.lt_succ_of_le (List.dropWhile_sublist matching).length_le
              rw [← split]
              refine run _ _ nonempty (fun d member => List.mem_takeWhile_imp member) ?_
                (ih _ shorter _ rfl)
              intro d first
              have kept := List.head?_dropWhile_not matching (c :: rest)
              rw [Option.mem_def.mp first] at kept
              exact kept

theorem replaceRuns_nil : replaceRuns matching least by' [] = [] := rfl

theorem replaceRuns_other {c : Char} (rest : List Char) (own : matching c = false) :
    replaceRuns matching least by' (c :: rest) = c :: replaceRuns matching least by' rest := by
  have alone : replaceRuns matching least by' [c] = [c] := by
    rw [replaceRuns, List.splitBy_of_isChain (List.cons_ne_nil c []) (List.isChain_singleton c)]
    simp [own]
  have apart : ∀ a ∈ [c].getLast?, ∀ b ∈ rest.head?, (matching a && matching b) = false := by
    intro a isLast b _
    have same : c = a := Option.some.inj isLast
    rw [← same, own]
    rfl
  rw [← List.singleton_append, replaceRuns_append apart, alone]
  rfl

theorem replaceRuns_run {run rest : List Char} (nonempty : run ≠ [])
    (all : ∀ c ∈ run, matching c = true) (ends : ∀ c ∈ rest.head?, matching c = false) :
    replaceRuns matching least by' (run ++ rest) =
      leftOfRun least by' run ++ replaceRuns matching least by' rest := by
  rw [replaceRuns_append fun a _ b first => by rw [ends b first, Bool.and_false],
    replaceRuns_of_run nonempty all]

/-- Runs that are left as they are leave the text as it is. -/
theorem replaceRuns_eq_self {text : List Char}
    (kept : ∀ run, run ≠ [] → (∀ c ∈ run, matching c = true) → run <:+: text →
      leftOfRun least by' run = run) : replaceRuns matching least by' text = text := by
  induction text using runs_induction matching with
  | nil => rfl
  | other c rest own ih =>
      rw [replaceRuns_other rest own, ih fun run nonempty all inside =>
        kept run nonempty all (inside.trans (List.infix_cons (List.infix_refl rest)))]
  | run run rest nonempty all ends ih =>
      rw [replaceRuns_run nonempty all ends, kept run nonempty all (List.infix_append' [] run rest),
        ih fun other someOther allOther inside => kept other someOther allOther
          (inside.trans (List.suffix_append run rest).isInfix)]

theorem leftOfRun_one {run : List Char} (nonempty : run ≠ []) : leftOfRun 1 by' run = [by'] :=
  if_pos (List.length_pos_iff.mpr nonempty)

theorem prefix_of_replaceRuns (kind : matching by' = true) {part text : List Char}
    (never : ∀ c ∈ part, matching c = false) (starts : part <+: replaceRuns matching 1 by' text) :
    part <+: text := by
  induction text using runs_induction matching generalizing part with
  | nil => exact starts
  | other c rest own ih =>
      rw [replaceRuns_other rest own] at starts
      cases part with
      | nil => exact List.nil_prefix
      | cons d part =>
          obtain ⟨rfl, more⟩ := List.cons_prefix_cons.mp starts
          exact List.cons_prefix_cons.mpr
            ⟨rfl, ih (fun e member => never e (.tail _ member)) more⟩
  | run run rest nonempty all ends ih =>
      rw [replaceRuns_run nonempty all ends, leftOfRun_one nonempty] at starts
      cases part with
      | nil => exact List.nil_prefix
      | cons d part =>
          obtain ⟨rfl, -⟩ := List.cons_prefix_cons.mp starts
          have own := never d List.mem_cons_self
          rw [kind] at own
          cases own

/-- What no run touches stands in the text as it was. -/
theorem infix_of_replaceRuns (kind : matching by' = true) {part text : List Char} (nonempty : part ≠ [])
    (never : ∀ c ∈ part, matching c = false) (inside : part <:+: replaceRuns matching 1 by' text) :
    part <:+: text := by
  induction text using runs_induction matching with
  | nil => exact inside
  | other c rest own ih =>
      rw [replaceRuns_other rest own, List.infix_cons_iff] at inside
      rcases inside with starts | inRest
      · rw [← replaceRuns_other rest own] at starts
        exact (prefix_of_replaceRuns kind never starts).isInfix
      · exact (ih inRest).trans (List.infix_cons (List.infix_refl rest))
  | run run rest someRun all ends ih =>
      rw [replaceRuns_run someRun all ends, leftOfRun_one someRun, List.singleton_append,
        List.infix_cons_iff] at inside
      rcases inside with starts | inRest
      · cases part with
        | nil => exact absurd rfl nonempty
        | cons d part =>
            obtain ⟨rfl, -⟩ := List.cons_prefix_cons.mp starts
            have own := never d List.mem_cons_self
            rw [kind] at own
            cases own
      · exact (ih inRest).trans (List.suffix_append run rest).isInfix

theorem replaceRuns_of_none {text : List Char} (never : ∀ c ∈ text, matching c = false) :
    replaceRuns matching least by' text = text := by
  refine replaceRuns_eq_self fun run nonempty all inside => ?_
  obtain ⟨c, member⟩ := List.exists_mem_of_ne_nil run nonempty
  have own := all c member
  rw [never c (inside.subset member)] at own
  cases own

end Runs

/-- A word that needs no cleaning and no cut stays as it is. -/
theorem promptText_of_word (intl : PromptIntl) {text : List Char} {max : Nat}
    (word : ∀ c ∈ text, isDot c = true ∧ isControl c = false ∧ intl.isFormat c = false ∧
      (c == '~') = false ∧ isSpace c = false) (short : text.length ≤ max) :
    promptText intl (some (.ofList text)) (some max) = .ofList text := by
  have visible : ∀ c ∈ text,
      (if isControl c || c.toNat == 0x2028 || c.toNat == 0x2029 then ' ' else c) = c := by
    intro c member
    have dot := (word c member).1
    simp only [isDot, Bool.not_eq_true', Bool.or_eq_false_iff] at dot
    exact if_neg (by rw [(word c member).2.1, dot.1.2, dot.2]; exact Bool.false_ne_true)
  have spaced : text.map (fun c =>
      if isControl c || c.toNat == 0x2028 || c.toNat == 0x2029 then ' ' else c) = text := by
    rw [List.map_congr_left visible, List.map_id']
  have kept : text.filter (fun c => !intl.isFormat c) = text :=
    List.filter_eq_self.mpr fun c member => by rw [(word c member).2.2.1]; rfl
  have flat : trim (replaceRuns isSpace 1 ' ' (replaceRuns (· == '~') 3 '~' text)) = text := by
    rw [replaceRuns_of_none fun c member => (word c member).2.2.2.1,
      replaceRuns_of_none fun c member => (word c member).2.2.2.2,
      trim_of_none fun c member => (word c member).2.2.2.2]
  unfold promptText
  simp only [Option.getD_some, String.toList_ofList, spaced, kept, flat]
  rw [if_neg (Nat.not_lt.mpr short)]

end PromptText

section Breaks

variable {α : Type} {part left right : List α} {item : α}

theorem prefix_of_break (absent : item ∉ part) (starts : part <+: left ++ item :: right) :
    part <+: left := by
  induction left generalizing part with
  | nil =>
      cases part with
      | nil => exact List.nil_prefix
      | cons first part =>
          obtain ⟨rfl, -⟩ := List.cons_prefix_cons.mp starts
          exact absurd List.mem_cons_self absent
  | cons own left ih =>
      cases part with
      | nil => exact List.nil_prefix
      | cons first part =>
          obtain ⟨rfl, more⟩ := List.cons_prefix_cons.mp starts
          exact List.cons_prefix_cons.mpr ⟨rfl, ih (fun member => absent (.tail _ member)) more⟩

/-- A part without an item stands before the item or behind it. -/
theorem infix_of_break (nonempty : part ≠ []) (absent : item ∉ part)
    (inside : part <:+: left ++ item :: right) : part <:+: left ∨ part <:+: right := by
  induction left with
  | nil =>
      rcases List.infix_cons_iff.mp inside with starts | later
      · have before : part <+: [] := prefix_of_break absent starts
        exact absurd (List.prefix_nil.mp before) nonempty
      · exact .inr later
  | cons own left ih =>
      rcases List.infix_cons_iff.mp inside with starts | later
      · exact .inl (prefix_of_break absent starts).isInfix
      · exact (ih later).imp_left fun before =>
          before.trans (List.infix_cons (List.infix_refl left))

theorem infix_of_cons_break (nonempty : part ≠ []) (absent : item ∉ part)
    (inside : part <:+: item :: right) : part <:+: right := by
  rcases List.infix_cons_iff.mp inside with starts | later
  · have before : part <+: [] := prefix_of_break absent starts
    exact absurd (List.prefix_nil.mp before) nonempty
  · exact later

end Breaks

def FENCE : List Char := ['~', '~', '~']

section Clean

/-- What the portal writes itself is no format character. -/
structure PlainMarks (intl : PromptIntl) : Prop where
  blank : intl.isFormat ' ' = false
  tilde : intl.isFormat '~' = false
  ellipsis : intl.isFormat '…' = false

/-- A text `promptText` leaves as it is. -/
structure Clean (intl : PromptIntl) (text : List Char) : Prop where
  visible : ∀ c ∈ text, isControl c = false ∧ c.toNat ≠ 0x2028 ∧ c.toNat ≠ 0x2029 ∧
    intl.isFormat c = false
  blank : ∀ c ∈ text, isSpace c = true → c = ' '
  single : ¬ [' ', ' '] <:+: text
  fenceless : ¬ FENCE <:+: text
  first : ∀ c, text.head? = some c → isSpace c = false
  last : ∀ c, text.getLast? = some c → isSpace c = false

theorem not_mem_fence {c : Char} (own : (c == '~') = false) : c ∉ FENCE := by
  intro member
  have same : c = '~' := by simpa [FENCE] using member
  rw [same] at own
  cases own

/-- Short runs of tildes stay, longer ones become one. -/
theorem fenceless_replaceRuns (text : List Char) :
    ¬ FENCE <:+: replaceRuns (· == '~') 3 '~' text := by
  have step : ∀ {c : Char} (rest : List Char), (c == '~') = false →
      replaceRuns (· == '~') 3 '~' (c :: rest) = c :: replaceRuns (· == '~') 3 '~' rest :=
    fun rest own => replaceRuns_other rest own
  induction text using runs_induction (· == '~') with
  | nil => decide
  | other c rest own ih =>
      rw [step rest own]
      exact fun inside => ih (infix_of_cons_break (by decide) (not_mem_fence own) inside)
  | run run rest nonempty all ends ih =>
      rw [replaceRuns_run nonempty all ends]
      have short : (leftOfRun 3 '~' run).length < 3 := by
        unfold leftOfRun
        split
        · decide
        · next few => exact Nat.lt_of_not_le few
      cases rest with
      | nil =>
          rw [replaceRuns_nil, List.append_nil]
          exact fun inside => absurd inside.length_le (Nat.not_le_of_lt short)
      | cons c rest =>
          have own := ends c rfl
          rw [step rest own] at ih ⊢
          intro inside
          rcases infix_of_break (by decide) (not_mem_fence own) inside with before | behind
          · exact absurd before.length_le (Nat.not_le_of_lt short)
          · exact ih (behind.trans (List.infix_cons (List.infix_refl _)))

theorem blank_replaceRuns {text : List Char} {c : Char}
    (member : c ∈ replaceRuns isSpace 1 ' ' text) (space : isSpace c = true) : c = ' ' := by
  induction text using runs_induction isSpace with
  | nil => cases member
  | other d rest own ih =>
      rw [replaceRuns_other rest own] at member
      rcases List.mem_cons.mp member with rfl | later
      · rw [own] at space
        cases space
      · exact ih later
  | run run rest nonempty all ends ih =>
      rw [replaceRuns_run nonempty all ends, leftOfRun_one nonempty] at member
      rcases List.mem_cons.mp member with same | later
      · exact same
      · exact ih later

theorem single_replaceRuns (text : List Char) :
    ¬ [' ', ' '] <:+: replaceRuns isSpace 1 ' ' text := by
  induction text using runs_induction isSpace with
  | nil => decide
  | other c rest own ih =>
      rw [replaceRuns_other rest own]
      intro inside
      rcases List.infix_cons_iff.mp inside with starts | later
      · obtain ⟨rfl, -⟩ := List.cons_prefix_cons.mp starts
        exact absurd own (by decide)
      · exact ih later
  | run run rest nonempty all ends ih =>
      rw [replaceRuns_run nonempty all ends, leftOfRun_one nonempty]
      intro inside
      rcases List.infix_cons_iff.mp inside with starts | later
      · obtain ⟨-, starts⟩ := List.cons_prefix_cons.mp starts
        cases rest with
        | nil => exact absurd starts (by decide)
        | cons c rest =>
            rw [replaceRuns_other rest (ends c rfl)] at starts
            obtain ⟨rfl, -⟩ := List.cons_prefix_cons.mp starts
            exact absurd (ends ' ' rfl) (by decide)
      · exact ih later

def flatText (intl : PromptIntl) (text : List Char) : List Char :=
  trim (replaceRuns isSpace 1 ' ' (replaceRuns (· == '~') 3 '~'
    ((text.map fun c => if isControl c || c.toNat == 0x2028 || c.toNat == 0x2029 then ' ' else c).filter
      fun c => !intl.isFormat c)))

theorem promptText_eq (intl : PromptIntl) (value : Option String) (max : Option Nat) :
    promptText intl value max = .ofList (match max with
      | none => flatText intl (value.getD "").toList
      | some max =>
          if (flatText intl (value.getD "").toList).length > max then
            trimEnd ((flatText intl (value.getD "").toList).take (max - 1)) ++ ['…']
          else flatText intl (value.getD "").toList) := by
  unfold promptText
  cases max with
  | none => rfl
  | some max => exact (apply_ite String.ofList _ _ _).symm

variable {intl : PromptIntl} {text : List Char}

theorem clean_flatText (marks : PlainMarks intl) (text : List Char) : Clean intl (flatText intl text) := by
  have trimmed : flatText intl text = withoutEnds isSpace (replaceRuns isSpace 1 ' '
      (replaceRuns (· == '~') 3 '~' ((text.map fun c =>
        if isControl c || c.toNat == 0x2028 || c.toNat == 0x2029 then ' ' else c).filter fun c =>
          !intl.isFormat c))) := rfl
  have spaced : ∀ c ∈ text.map (fun c =>
      if isControl c || c.toNat == 0x2028 || c.toNat == 0x2029 then ' ' else c),
      isControl c = false ∧ c.toNat ≠ 0x2028 ∧ c.toNat ≠ 0x2029 := by
    intro c member
    obtain ⟨d, -, rfl⟩ := List.mem_map.mp member
    split
    · decide
    · next visible =>
        simp only [Bool.or_eq_true, beq_iff_eq, not_or, Bool.not_eq_true] at visible
        exact ⟨visible.1.1, visible.1.2, visible.2⟩
  rw [trimmed]
  generalize text.map (fun c =>
    if isControl c || c.toNat == 0x2028 || c.toNat == 0x2029 then ' ' else c) = mapped at spaced
  refine ⟨fun c member => ?_, fun c member => ?_, fun inside => ?_, fun inside => ?_,
    fun c => head?_withoutEnds, fun c => getLast?_withoutEnds⟩
  · rcases mem_replaceRuns ((isInfix_withoutEnds _ _).subset member) with rfl | unspaced
    · exact ⟨by decide, by decide, by decide, marks.blank⟩
    · rcases mem_replaceRuns unspaced with rfl | kept
      · exact ⟨by decide, by decide, by decide, marks.tilde⟩
      · obtain ⟨isMapped, shown⟩ := List.mem_filter.mp kept
        obtain ⟨control, line, paragraph⟩ := spaced c isMapped
        exact ⟨control, line, paragraph, by simpa using shown⟩
  · exact blank_replaceRuns ((isInfix_withoutEnds _ _).subset member)
  · exact single_replaceRuns _ (inside.trans (isInfix_withoutEnds _ _))
  · exact fenceless_replaceRuns _ (infix_of_replaceRuns (by decide) (by decide)
      (List.all_iff_forall_prop.mp (by decide))
      (inside.trans (isInfix_withoutEnds _ _)))

/-- A clean text is its own clean text. -/
theorem Clean.flatText_eq (clean : Clean intl text) : flatText intl text = text := by
  have visible : ∀ c ∈ text,
      (if isControl c || c.toNat == 0x2028 || c.toNat == 0x2029 then ' ' else c) = c := by
    intro c member
    obtain ⟨control, line, paragraph, -⟩ := clean.visible c member
    refine if_neg ?_
    simp [control, line, paragraph]
  have kept : text.filter (fun c => !intl.isFormat c) = text :=
    List.filter_eq_self.mpr fun c member => by rw [(clean.visible c member).2.2.2]; rfl
  have tildes : replaceRuns (· == '~') 3 '~' text = text := by
    refine replaceRuns_eq_self fun run nonempty all inside => if_neg fun long => ?_
    have same : run = List.replicate run.length '~' :=
      List.eq_replicate_length.mpr fun c member => by simpa using all c member
    have three : FENCE <:+: run := by
      obtain ⟨more, length⟩ := Nat.exists_eq_add_of_le long
      rw [same, length, List.replicate_add]
      exact (List.prefix_append FENCE _).isInfix
    exact clean.fenceless (three.trans inside)
  have blanks : replaceRuns isSpace 1 ' ' text = text := by
    refine replaceRuns_eq_self fun run nonempty all inside => ?_
    have blank : ∀ c ∈ run, c = ' ' := fun c member =>
      clean.blank c (inside.subset member) (all c member)
    cases run with
    | nil => exact absurd rfl nonempty
    | cons c rest =>
        have first := blank c List.mem_cons_self
        cases rest with
        | nil =>
            rw [first]
            rfl
        | cons d rest =>
            have second := blank d (.tail _ List.mem_cons_self)
            rw [first, second] at inside
            exact absurd ((List.prefix_append [' ', ' '] rest).isInfix.trans inside) clean.single
  have ends : trim text = text := withoutEnds_of_kept clean.first clean.last
  rw [flatText, List.map_congr_left visible, List.map_id', kept, tildes, blanks, ends]

theorem isPrefix_trimEnd (text : List Char) : trimEnd text <+: text := by
  have behind := List.dropWhile_suffix (l := text.reverse) isSpace
  rw [← List.reverse_prefix, List.reverse_reverse] at behind
  exact behind

/-- A cut text with its mark is clean. -/
theorem Clean.cut (clean : Clean intl text) (marks : PlainMarks intl) (count : Nat) :
    Clean intl (trimEnd (text.take count) ++ ['…']) := by
  have kept : trimEnd (text.take count) <+: text :=
    (isPrefix_trimEnd _).trans (List.take_prefix count text)
  have inner : ∀ {part : List Char}, part ≠ [] → '…' ∉ part →
      part <:+: trimEnd (text.take count) ++ ['…'] → part <:+: text := by
    intro part nonempty absent inside
    rcases infix_of_break nonempty absent inside with before | behind
    · exact before.trans kept.isInfix
    · exact absurd (List.infix_nil.mp behind) nonempty
  refine ⟨fun c member => ?_, fun c member space => ?_, fun inside => ?_, fun inside => ?_,
    fun c first => ?_, fun c last => ?_⟩
  · rcases List.mem_append.mp member with inside | mark
    · exact clean.visible c (kept.subset inside)
    · rw [List.mem_singleton.mp mark]
      exact ⟨by decide, by decide, by decide, marks.ellipsis⟩
  · rcases List.mem_append.mp member with inside | mark
    · exact clean.blank c (kept.subset inside) space
    · rw [List.mem_singleton.mp mark] at space
      exact absurd space (by decide)
  · exact clean.single (inner (by decide) (by decide) inside)
  · exact clean.fenceless (inner (by decide) (by decide) inside)
  · obtain ⟨rest, shape⟩ := kept
    cases front : trimEnd (text.take count) with
    | nil =>
        rw [front] at first
        have mark : '…' = c := Option.some.inj first
        rw [← mark]
        decide
    | cons d more =>
        rw [front] at first shape
        refine clean.first c ?_
        rw [← shape]
        exact first
  · rw [List.getLast?_concat] at last
    have mark : '…' = c := Option.some.inj last
    rw [← mark]
    decide

end Clean

end ZabbixPortal.Services
