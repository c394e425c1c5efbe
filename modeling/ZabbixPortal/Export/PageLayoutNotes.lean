import ZabbixPortal.Export.PageLayoutTables

/-! Notes on their pages: the loop ends, no line is lost, and a break leaves two lines on either side. -/

set_option autoImplicit false

namespace ZabbixPortal.Export.Pdf

open Foundation

section Spans

variable (paragraphs : List (List WinAnsiText))

theorem blocks_paragraphs : Blocks (total paragraphs) (starts paragraphs) (ends paragraphs) := by
  unfold total
  rw [List.length_flatten]
  exact blocks_lineBounds (paragraphs.map List.length)

theorem endsBefore_between {j k : Nat} (le : j ≤ k) :
    endsBefore paragraphs j ≤ endsBefore paragraphs k ∧
      endsBefore paragraphs k ≤ endsBefore paragraphs j + (k - j) := by
  induction k, le using Nat.le_induction with
  | base => omega
  | succ k le ih =>
      have one : endsBefore paragraphs (k + 1) = endsBefore paragraphs k +
          if ends paragraphs k = k + 1 then 1 else 0 := rfl
      split at one <;> omega

theorem span_self (first : Nat) : span paragraphs first first = 0 := if_pos (Nat.le_refl first)

/-- The first line of a run, the gap behind it, and the rest. -/
theorem span_succ {j last : Nat} (more : j + 1 < last) :
    span paragraphs j last = NOTE_LINE + (if ends paragraphs j = j + 1 then PARA_GAP else 0) +
      span paragraphs (j + 1) last := by
  have one : endsBefore paragraphs (j + 1) = endsBefore paragraphs j +
      if ends paragraphs j = j + 1 then 1 else 0 := rfl
  rw [span, if_neg (by omega : ¬ last ≤ j), span, if_neg (by omega : ¬ last ≤ j + 1), one]
  split <;> push_cast <;> ring

theorem span_one (j : Nat) : span paragraphs j (j + 1) = NOTE_LINE := by
  rw [span, if_neg (by omega : ¬ j + 1 ≤ j), Nat.add_sub_cancel, sub_self, zero_mul, add_zero]
  push_cast
  ring

/-- A run only gets taller as it takes lines. -/
theorem span_mono (first : Nat) {k l : Nat} (le : k ≤ l) :
    span paragraphs first k ≤ span paragraphs first l := by
  unfold span
  by_cases nothing : l ≤ first
  · rw [if_pos (le.trans nothing), if_pos nothing]
  · rw [if_neg nothing]
    have last := (endsBefore_between paragraphs (by omega : first ≤ l - 1)).1
    have gaps : (endsBefore paragraphs first : ℚ) ≤ endsBefore paragraphs (l - 1) := by
      exact_mod_cast last
    have lines : (k : ℚ) ≤ l := by exact_mod_cast le
    split
    · have positive : (first : ℚ) ≤ l := by exact_mod_cast (by omega : first ≤ l)
      unfold NOTE_LINE PARA_GAP
      linarith
    · have further := (endsBefore_between paragraphs (by omega : k - 1 ≤ l - 1)).1
      have more : (endsBefore paragraphs (k - 1) : ℚ) ≤ endsBefore paragraphs (l - 1) := by
        exact_mod_cast further
      unfold NOTE_LINE PARA_GAP
      linarith

theorem span_nonneg (first last : Nat) : 0 ≤ span paragraphs first last := by
  by_cases nothing : last ≤ first
  · rw [span, if_pos nothing]
  · have := span_mono paragraphs first (by omega : first ≤ last)
    rwa [span_self] at this

/-- No line takes more than itself and a gap. -/
theorem span_le {first last : Nat} (le : first ≤ last) :
    span paragraphs first last ≤ ((last : ℚ) - first) * 15.5 := by
  have positive : (first : ℚ) ≤ last := by exact_mod_cast le
  unfold span
  split
  · linarith
  · have few := (endsBefore_between paragraphs (by omega : first ≤ last - 1)).2
    have fewer : (endsBefore paragraphs (last - 1) : ℚ) ≤ endsBefore paragraphs first + (last - first) := by
      have atMost : endsBefore paragraphs (last - 1) + first ≤ endsBefore paragraphs first + last := by
        omega
      have cast : (endsBefore paragraphs (last - 1) : ℚ) + first ≤ endsBefore paragraphs first + last := by
        exact_mod_cast atMost
      linarith
    unfold NOTE_LINE PARA_GAP
    linarith

end Spans

section Lines

variable {paragraphs : List (List WinAnsiText)}

theorem zipIdx_drop_take {lines : List WinAnsiText} {j count : Nat} (inside : j < lines.length) :
    ((lines.drop j).take (count + 1)).zipIdx j =
      (lines[j]?.getD [], j) :: ((lines.drop (j + 1)).take count).zipIdx (j + 1) := by
  rw [List.drop_eq_getElem_cons inside, List.take_succ_cons, List.zipIdx_cons,
    List.getElem?_eq_getElem inside]
  rfl

/-- Lines whose height fits are drawn on the page, one below the other. -/
theorem Drew.noteLines {l : Layout} (sound : l.Sound) {j count : Nat}
    (inside : j + count ≤ total paragraphs)
    (fits : 0 < count → span paragraphs j (j + count) ≤ l.room) :
    ∃ new, Drew l (l.noteLines paragraphs j count) new ∧ (∀ d ∈ new, d.page = l.pages) ∧
      new.filterMap Drawn.line = ((paragraphs.flatten.drop j).take count).zipIdx j := by
  induction count generalizing l j with
  | zero => exact ⟨[], .refl sound, List.forall_mem_nil _, rfl⟩
  | succ count ih =>
      have all := fits (Nat.succ_pos count)
      have one := span_mono paragraphs j (by omega : j + 1 ≤ j + (count + 1))
      rw [span_one] at one
      have drawn := Drew.draw sound (.line j (paragraphs.flatten[j]?.getD []))
        (by norm_num [NOTE_LINE] : 0 < NOTE_LINE) (one.trans all)
      have gap : (0 : ℚ) ≤ if ends paragraphs j = j + 1 then PARA_GAP else 0 := by
        split
        · norm_num [PARA_GAP]
        · exact le_rfl
      have below := drawn.trans (Drew.down drawn.sound gap)
      rw [List.append_nil] at below
      obtain ⟨more, rest, onPage, lines⟩ := ih below.sound (j := j + 1) (by omega) (by
        intro positive
        rw [span_succ paragraphs (by omega), Nat.add_comm count 1, ← Nat.add_assoc] at all
        rw [Layout.room] at all
        show _ ≤ CONTENT_BOTTOM - (l.y + NOTE_LINE + _)
        linarith)
      refine ⟨_, below.trans rest, ?_, ?_⟩
      · exact List.forall_mem_append.mpr ⟨List.forall_mem_singleton.mpr rfl, onPage⟩
      · rw [List.filterMap_append, lines, zipIdx_drop_take (by unfold total at inside; omega)]
        rfl

def Drawn.lineOf (start size : Nat) (d : Drawn) : Option (WinAnsiText × Nat) :=
  d.line.filter fun line => start ≤ line.2 && decide (line.2 < start + size)

theorem Drawn.lineOf_eq_some {start size : Nat} {d : Drawn} {line : WinAnsiText × Nat} :
    d.lineOf start size = some line ↔
      d.line = some line ∧ start ≤ line.2 ∧ line.2 < start + size := by
  rw [Drawn.lineOf, Option.filter_eq_some_iff, Bool.and_eq_true, decide_eq_true_iff, decide_eq_true_iff]

/-- Lines on one page, each of which has a neighbour among them. -/
theorem noneAlone_lines {pick : Drawn → Option (WinAnsiText × Nat)} (inside : Nat → Prop)
    (picks : ∀ d line, pick d = some line ↔ d.line = some line ∧ inside line.2) {new : List Drawn}
    {page pos last : Nat} {lines : List WinAnsiText} (onPage : ∀ d ∈ new, d.page = page)
    (drawn : new.filterMap Drawn.line = ((lines.drop pos).take (last - pos)).zipIdx pos)
    (within : last ≤ lines.length)
    (neighbour : ∀ j, inside j → pos ≤ j → j < last →
      ∃ i, i ≠ j ∧ inside i ∧ pos ≤ i ∧ i < last) : NoneAlone pick new := by
  intro d member line picked
  obtain ⟨isLine, inRange⟩ := (picks d line).mp picked
  have among : line ∈ new.filterMap Drawn.line := List.mem_filterMap.mpr ⟨d, member, isLine⟩
  rw [drawn, List.mem_zipIdx_iff_le_and_getElem?_sub] at among
  have before : line.2 - pos < last - pos := by
    have positive := (List.getElem?_eq_some_iff.mp among.2).1
    rw [List.length_take] at positive
    omega
  obtain ⟨i, other, insideI, lower, upper⟩ := neighbour line.2 inRange among.1 (by omega)
  have bound : i < lines.length := by omega
  have there : (lines[i], i) ∈ new.filterMap Drawn.line := by
    rw [drawn, List.mem_zipIdx_iff_le_and_getElem?_sub]
    refine ⟨lower, ?_⟩
    show ((lines.drop pos).take (last - pos))[i - pos]? = _
    rw [List.getElem?_take_of_lt (by omega), List.getElem?_drop, Nat.add_sub_cancel' lower,
      List.getElem?_eq_getElem]
  obtain ⟨e, inNew, pickedE⟩ := List.mem_filterMap.mp there
  refine ⟨e, inNew, (onPage e inNew).trans (onPage d member).symm, _,
    (picks e _).mpr ⟨pickedE, insideI⟩, ?_⟩
  intro same
  exact other (congrArg Prod.snd same)

end Lines

section Breaking

variable {paragraphs : List (List WinAnsiText)}

theorem canBreak_iff {first last : Nat} :
    canBreak paragraphs first last = true ↔ last = total paragraphs ∨
      (first + 2 ≤ last ∧ last + 2 ≤ total paragraphs ∧
        CleanBreak (starts paragraphs) (ends paragraphs) last) := by
  rw [canBreak, decide_eq_true_iff]

/-- Where six lines fit there is a place to break. -/
theorem exists_canBreak {first fitting : Nat} (six : first + 6 ≤ fitting)
    (more : fitting < total paragraphs) :
    ∃ k, first < k ∧ k ≤ fitting ∧ canBreak paragraphs first k = true := by
  obtain ⟨k, lower, upper, clean⟩ := (blocks_paragraphs paragraphs).exists_cleanBreak
    (by omega : 0 < fitting - 3) (by omega)
  exact ⟨k, by omega, by omega, canBreak_iff.mpr (.inr ⟨by omega, by omega, clean⟩)⟩

/-- The start of a note, its end, and a clean break leave a paragraph two lines on either side. -/
theorem leavesTwo_paragraph {before after : List (List WinAnsiText)} {p : List WinAnsiText}
    (split : paragraphs = before ++ p :: after) {k : Nat}
    (place : k = 0 ∨ k = total paragraphs ∨ CleanBreak (starts paragraphs) (ends paragraphs) k) :
    LeavesTwo before.flatten.length (before.flatten.length + p.length) k := by
  intro above below
  have atMost : before.flatten.length + p.length ≤ total paragraphs := by
    rw [total, split, List.flatten_append, List.length_append, List.flatten_cons, List.length_append]
    omega
  rcases place with zero | last | clean
  · omega
  · omega
  · have line : before.flatten.length < total paragraphs := by omega
    have bounds : (lineBounds 0 (paragraphs.map List.length))[before.flatten.length]? =
        some (before.flatten.length, before.flatten.length + p.length) := by
      rw [List.length_flatten, split, List.map_append, List.map_cons]
      exact getElem?_lineBounds (Nat.le_refl _) (by omega)
    have leaves := (blocks_paragraphs paragraphs).leavesTwo line clean
    rw [starts, ends, bounds] at leaves
    exact leaves above below

end Breaking

section Searching

variable {paragraphs : List (List WinAnsiText)} {room lead : ℚ} {pos : Nat}

def fittingOf (paragraphs : List (List WinAnsiText)) (lead room : ℚ) (pos : Nat) : Nat :=
  bisect (fun mid => decide (lead + span paragraphs pos mid ≤ room)) pos (total paragraphs)

def lastOf (paragraphs : List (List WinAnsiText)) (lead room : ℚ) (pos : Nat) : Nat :=
  backUp (canBreak paragraphs pos) pos (fittingOf paragraphs lead room pos)

theorem isLongest_fittingOf (lead room : ℚ) (within : pos ≤ total paragraphs) :
    IsLongest (fun mid => decide (lead + span paragraphs pos mid ≤ room)) pos (total paragraphs)
      (fittingOf paragraphs lead room pos) := by
  refine isLongest_bisect within ?_
  intro k l _ le fits
  rw [decide_eq_true_iff] at fits ⊢
  have := span_mono paragraphs pos le
  linarith

/-- What a page takes fits, and the page ends where it may. -/
theorem lastOf_spec (within : pos ≤ total paragraphs) :
    let last := lastOf paragraphs lead room pos
    pos ≤ last ∧ last ≤ total paragraphs ∧ (last = pos ∨ canBreak paragraphs pos last = true) ∧
      (pos < last → lead + span paragraphs pos last ≤ room) := by
  have longest := isLongest_fittingOf lead room within
  obtain ⟨lower, upper, found, _⟩ := backUp_spec (canBreak paragraphs pos) longest.lower
  refine ⟨lower, upper.trans longest.upper, found, ?_⟩
  intro positive
  rcases longest.reached with nothing | fits
  · exact absurd (lower.antisymm (upper.trans nothing.le)) positive.ne
  · rw [decide_eq_true_iff] at fits
    exact (add_le_add le_rfl (span_mono paragraphs pos upper)).trans fits

/-- Where all that is left fits, the page takes it. -/
theorem lastOf_eq_total (within : pos ≤ total paragraphs)
    (fits : lead + span paragraphs pos (total paragraphs) ≤ room) :
    lastOf paragraphs lead room pos = total paragraphs := by
  have longest := isLongest_fittingOf lead room within
  have all : fittingOf paragraphs lead room pos = total paragraphs := by
    by_contra short
    have tooLong := longest.longer (lt_of_le_of_ne longest.upper short) (Nat.le_refl _)
    exact absurd fits (of_decide_eq_false tooLong)
  obtain ⟨_, upper, _, later⟩ := backUp_spec (canBreak paragraphs pos) longest.lower
  rw [all] at upper later
  by_contra short
  have noBreak := later (total paragraphs) (by
    have unequal : lastOf paragraphs lead room pos ≠ total paragraphs := short
    rw [lastOf, all] at unequal
    omega) (Nat.le_refl _)
  rw [canBreak_iff.mpr (.inl rfl)] at noBreak
  cases noBreak

/-- The top of a page has room for lines, and among so many there is a place to break. -/
theorem lt_lastOf (more : pos < total paragraphs) (small : lead ≤ NOTE_HEAD) (high : 444 ≤ room) :
    pos < lastOf paragraphs lead room pos := by
  have longest := isLongest_fittingOf lead room more.le
  obtain ⟨lower, _, _, later⟩ := backUp_spec (canBreak paragraphs pos) longest.lower
  have found : ∃ k, pos < k ∧ k ≤ fittingOf paragraphs lead room pos ∧
      canBreak paragraphs pos k = true := by
    rcases longest.upper.eq_or_lt with all | part
    · exact ⟨total paragraphs, more, all.ge, canBreak_iff.mpr (.inl rfl)⟩
    · refine exists_canBreak ?_ part
      by_contra few
      have tooLong := longest.longer (Nat.lt_succ_self _) part
      have short := span_le paragraphs (by omega : pos ≤ fittingOf paragraphs lead room pos + 1)
      have six : ((fittingOf paragraphs lead room pos + 1 : Nat) : ℚ) ≤ pos + 6 := by
        exact_mod_cast (by omega : fittingOf paragraphs lead room pos + 1 ≤ pos + 6)
      unfold NOTE_HEAD at small
      exact absurd (by linarith) (of_decide_eq_false tooLong)
  obtain ⟨k, above, fits, breaks⟩ := found
  by_contra ended
  have same : lastOf paragraphs lead room pos = pos := by
    have least : pos ≤ lastOf paragraphs lead room pos := lower
    omega
  have noBreak := later k (by
    have here : backUp (canBreak paragraphs pos) pos (fittingOf paragraphs lead room pos) = pos := same
    omega) fits
  rw [breaks] at noBreak
  cases noBreak

end Searching

section Steps

variable {normalize : List UInt16 → List Nat} {l : Layout} {note : Note} {s t : NoteState}
  {new : List Drawn}

structure NoteKept (normalize : List UInt16 → List Nat) (l : Layout) (note : Note) (s : NoteState)
    (new : List Drawn) : Prop where
  drew : Drew l s.layout new
  lines : new.filterMap Drawn.line = ((paragraphsOf normalize note).flatten.take s.pos).zipIdx
  within : s.pos ≤ total (paragraphsOf normalize note)
  started : s.first = true → s.pos = 0
  headed : s.first = true → total (paragraphsOf normalize note) = 0 → NOTE_HEAD ≤ s.layout.room
  left : 0 < s.pos → s.pos = total (paragraphsOf normalize note) ∨
    s.pos + 2 ≤ total (paragraphsOf normalize note)
  clean : s.pos = 0 ∨ s.pos = total (paragraphsOf normalize note) ∨
    CleanBreak (starts (paragraphsOf normalize note)) (ends (paragraphsOf normalize note)) s.pos
  alone : 2 ≤ total (paragraphsOf normalize note) → NoneAlone Drawn.line new
  paragraphs : ∀ {before p after}, paragraphsOf normalize note = before ++ p :: after → 2 ≤ p.length →
    NoneAlone (Drawn.lineOf before.flatten.length p.length) new
  onePage : wholeHeight normalize note ≤ l.room → (s.first = true ∧ s.layout = l) ∨
    (s.first = false ∧ s.pos = total (paragraphsOf normalize note) ∧ ∀ d ∈ new, d.page = l.pages)

/-- How much there is to do: lines, the heading, and a page to turn to. -/
def NoteState.measure (normalize : List UInt16 → List Nat) (note : Note) (s : NoteState) : Nat :=
  2 * (total (paragraphsOf normalize note) - s.pos) + (if s.first then 2 else 0) +
    if s.layout.y > s.layout.pageTop then 1 else 0

def NoteState.lead (s : NoteState) : ℚ := if s.first then NOTE_HEAD else 0

theorem NoteState.lead_le (s : NoteState) : 0 ≤ s.lead ∧ s.lead ≤ NOTE_HEAD := by
  unfold NoteState.lead NOTE_HEAD
  split <;> norm_num

def NoteState.last (normalize : List UInt16 → List Nat) (note : Note) (s : NoteState) : Nat :=
  lastOf (paragraphsOf normalize note) s.lead s.layout.room s.pos

def NoteState.headed (normalize : List UInt16 → List Nat) (note : Note) (s : NoteState) : Layout :=
  if s.first then
    (s.layout.mark note.heading).draw
      (.heading (fitText .bold 10 PRINT_W (toWinAnsi normalize note.heading))) NOTE_HEAD
  else s.layout

def NoteState.drawn (normalize : List UInt16 → List Nat) (note : Note) (s : NoteState) : Layout :=
  (s.headed normalize note).noteLines (paragraphsOf normalize note) s.pos
    (s.last normalize note - s.pos)

/-- A note that goes on turns the page, or draws lines up to a break. -/
theorem noteStep_cases (kept : NoteKept normalize l note s new)
    (taken : noteStep normalize note s = some t) :
    (s.pos < total (paragraphsOf normalize note) ∧ s.last normalize note = s.pos ∧
        s.layout.y > s.layout.pageTop ∧ t = { s with layout := s.layout.newPage }) ∨
      ((s.first = true ∨ s.pos < total (paragraphsOf normalize note)) ∧
        ¬ (s.last normalize note = s.pos ∧ s.pos < total (paragraphsOf normalize note)) ∧
        t.pos = s.last normalize note ∧ t.first = false ∧
        t.layout = if s.last normalize note < total (paragraphsOf normalize note) then
          (s.drawn normalize note).newPage else s.drawn normalize note) := by
  unfold noteStep at taken
  extract_lets paragraphs lead fitting last last' headed drawn at taken
  split at taken
  · next goesOn =>
      split at taken
      · next turns =>
          cases taken
          exact .inl ⟨turns.2.1, turns.1, turns.2.2, rfl⟩
      · next stays =>
          cases taken
          have left : ¬ (last = s.pos ∧ s.pos < total paragraphs) := by
            intro stuck
            have top : ¬ s.layout.y > s.layout.pageTop := fun above => stays ⟨stuck.1, stuck.2, above⟩
            have further : s.pos < last :=
              lt_lastOf stuck.2 s.lead_le.2 (kept.drew.sound.room_top top).1
            omega
          have same : last' = last := if_neg left
          refine .inr ⟨goesOn, left, same, rfl, ?_⟩
          show (if last' < total paragraphs then
            ((s.headed normalize note).noteLines paragraphs s.pos (last' - s.pos)).newPage
            else (s.headed normalize note).noteLines paragraphs s.pos (last' - s.pos)) = _
          rw [same]
          rfl
  · cases taken

/-- A note that fits the page it starts on goes on it whole. -/
theorem NoteKept.last_eq_total (kept : NoteKept normalize l note s new)
    (fits : wholeHeight normalize note ≤ l.room) (first : s.first = true) (start : s.layout = l) :
    s.last normalize note = total (paragraphsOf normalize note) := by
  refine lastOf_eq_total kept.within ?_
  rw [NoteState.lead, if_pos first, kept.started first, start]
  exact fits

theorem NoteKept.turn (kept : NoteKept normalize l note s new)
    (more : s.pos < total (paragraphsOf normalize note)) (stuck : s.last normalize note = s.pos) :
    NoteKept normalize l note { s with layout := s.layout.newPage } new := by
  have turned := kept.drew.trans (Drew.newPage kept.drew.sound)
  rw [List.append_nil] at turned
  refine ⟨turned, kept.lines, kept.within, kept.started, ?_, kept.left, kept.clean, kept.alone,
    kept.paragraphs, ?_⟩
  · intro _ empty
    omega
  · intro fits
    rcases kept.onePage fits with ⟨first, start⟩ | ⟨_, done, _⟩
    · have all := kept.last_eq_total fits first start
      omega
    · omega

theorem NoteKept.last_spec (kept : NoteKept normalize l note s new) :
    s.pos ≤ s.last normalize note ∧
      s.last normalize note ≤ total (paragraphsOf normalize note) ∧
      (s.last normalize note = s.pos ∨
        canBreak (paragraphsOf normalize note) s.pos (s.last normalize note) = true) ∧
      (s.pos < s.last normalize note →
        s.lead + span (paragraphsOf normalize note) s.pos (s.last normalize note) ≤ s.layout.room) :=
  lastOf_spec kept.within

/-- The heading fits where it is drawn, and the lines below it. -/
theorem NoteKept.exists_headed (kept : NoteKept normalize l note s new)
    (further : ¬ (s.last normalize note = s.pos ∧ s.pos < total (paragraphsOf normalize note))) :
    ∃ heading, Drew s.layout (s.headed normalize note) heading ∧ Plain heading ∧
      (∀ d ∈ heading, d.page = s.layout.pages) ∧
        (s.headed normalize note).pages = s.layout.pages ∧
          (s.pos < s.last normalize note → span (paragraphsOf normalize note) s.pos
            (s.last normalize note) ≤ (s.headed normalize note).room) := by
  obtain ⟨lower, upper, _, fits⟩ := kept.last_spec
  unfold NoteState.headed
  by_cases first : s.first = true
  · have lead : s.lead = NOTE_HEAD := if_pos first
    rw [lead] at fits
    have room : NOTE_HEAD ≤ s.layout.room := by
      by_cases positive : s.pos < s.last normalize note
      · have nonneg := span_nonneg (paragraphsOf normalize note) s.pos (s.last normalize note)
        have all := fits positive
        linarith
      · have empty := kept.started first
        exact kept.headed first (by omega)
    have marked := Drew.mark kept.drew.sound note.heading
    have headed := marked.trans (Drew.draw marked.sound
      (.heading (fitText .bold 10 PRINT_W (toWinAnsi normalize note.heading)))
      (by norm_num [NOTE_HEAD] : 0 < NOTE_HEAD) room)
    rw [if_pos first]
    refine ⟨_, headed, List.forall_mem_singleton.mpr ⟨rfl, rfl, rfl⟩,
      List.forall_mem_singleton.mpr rfl, rfl, ?_⟩
    intro positive
    have all := fits positive
    rw [Layout.room] at all
    show _ ≤ CONTENT_BOTTOM - (s.layout.y + NOTE_HEAD)
    linarith
  · have lead : s.lead = 0 := if_neg first
    rw [lead, zero_add] at fits
    rw [if_neg first]
    exact ⟨[], .refl kept.drew.sound, List.forall_mem_nil _, List.forall_mem_nil _, rfl, fits⟩

theorem filterMap_line_plain {heading : List Drawn} (plain : Plain heading) :
    heading.filterMap Drawn.line = [] :=
  List.filterMap_eq_nil_iff.mpr fun d member => (plain d member).2.2

theorem lineOf_plain {heading : List Drawn} (plain : Plain heading) (start size : Nat) :
    ∀ d ∈ heading, d.lineOf start size = none := by
  intro d member
  rw [Drawn.lineOf, (plain d member).2.2]
  rfl

/-- Where a page ends: at the end, or at a clean break. -/
theorem NoteKept.clean_last (kept : NoteKept normalize l note s new)
    (further : ¬ (s.last normalize note = s.pos ∧ s.pos < total (paragraphsOf normalize note))) :
    s.last normalize note = total (paragraphsOf normalize note) ∨
      (s.pos + 2 ≤ s.last normalize note ∧
        s.last normalize note + 2 ≤ total (paragraphsOf normalize note) ∧
        CleanBreak (starts (paragraphsOf normalize note)) (ends (paragraphsOf normalize note))
          (s.last normalize note)) := by
  obtain ⟨lower, upper, found, _⟩ := kept.last_spec
  rcases found with nothing | breaks
  · have within := kept.within
    exact .inl (by omega)
  · exact canBreak_iff.mp breaks

theorem NoteKept.draw (kept : NoteKept normalize l note s new)
    (goesOn : s.first = true ∨ s.pos < total (paragraphsOf normalize note))
    (further : ¬ (s.last normalize note = s.pos ∧ s.pos < total (paragraphsOf normalize note)))
    (pos : t.pos = s.last normalize note) (first : t.first = false)
    (layout : t.layout = if s.last normalize note < total (paragraphsOf normalize note) then
      (s.drawn normalize note).newPage else s.drawn normalize note) :
    ∃ more, NoteKept normalize l note t more := by
  obtain ⟨lower, upper, _, _⟩ := kept.last_spec
  have ends := kept.clean_last further
  have left := kept.left
  obtain ⟨heading, headed, plain, headingPage, samePage, room⟩ := kept.exists_headed further
  have sum : s.pos + (s.last normalize note - s.pos) = s.last normalize note :=
    Nat.add_sub_cancel' lower
  obtain ⟨lines, drawn, linesPage, drawnLines⟩ := Drew.noteLines headed.sound (by rw [sum]; exact upper) (by
      intro positive
      rw [sum]
      exact room (by omega))
  have turned : Drew (s.drawn normalize note) t.layout [] := by
    rw [layout]
    split
    · exact .newPage drawn.sound
    · exact .refl drawn.sound
  have all := ((kept.drew.trans headed).trans drawn).trans turned
  rw [List.append_nil] at all
  have onPage : ∀ d ∈ lines, d.page = s.layout.pages := by
    intro d member
    rw [linesPage d member, samePage]
  have length : (paragraphsOf normalize note).flatten.length = total (paragraphsOf normalize note) := rfl
  refine ⟨_, all, ?_, ?_, ?_, ?_, ?_, ?_, ?_, ?_, ?_⟩
  · rw [List.filterMap_append, List.filterMap_append, kept.lines, filterMap_line_plain plain,
      drawnLines, List.append_nil, pos, ← sum, List.take_add, List.zipIdx_append, Nat.zero_add,
      List.length_take_of_le (by rw [length]; exact kept.within), Nat.add_sub_cancel_left]
  · rw [pos]
    exact upper
  · rw [first]
    intro never
    cases never
  · rw [first]
    intro never
    cases never
  · rw [pos]
    intro _
    omega
  · rw [pos]
    rcases ends with done | ⟨_, _, clean⟩
    · exact .inr (.inl done)
    · exact .inr (.inr clean)
  · intro two
    refine ((kept.alone two).append (.of_none fun d member => (plain d member).2.2)).append ?_
    refine noneAlone_lines (fun _ => True) (fun d line => (and_iff_left trivial).symm) onPage
      drawnLines (by rw [length]; exact upper) ?_
    intro j _ after before
    by_cases next : j + 1 < s.last normalize note
    · exact ⟨j + 1, by omega, trivial, by omega, next⟩
    · exact ⟨j - 1, by omega, trivial, by omega, by omega⟩
  · intro before p after split two
    refine ((kept.paragraphs split two).append (.of_none (lineOf_plain plain _ _))).append ?_
    refine noneAlone_lines
      (fun i => before.flatten.length ≤ i ∧ i < before.flatten.length + p.length)
      (fun d line => Drawn.lineOf_eq_some) onPage drawnLines (by rw [length]; exact upper) ?_
    intro j inside after' before'
    have atMost : before.flatten.length + p.length ≤ total (paragraphsOf normalize note) := by
      rw [total, split, List.flatten_append, List.length_append, List.flatten_cons,
        List.length_append]
      omega
    have head := leavesTwo_paragraph split kept.clean
    have foot := leavesTwo_paragraph split (k := s.last normalize note) (by
      rcases ends with done | ⟨_, _, clean⟩
      · exact .inr (.inl done)
      · exact .inr (.inr clean))
    obtain ⟨i, other, insideI, rest⟩ := exists_neighbour (by omega) head foot (by omega) inside.1
      inside.2 after' before'
    exact ⟨i, other, insideI, rest⟩
  · intro fits
    rcases kept.onePage fits with ⟨isFirst, start⟩ | ⟨notFirst, done, _⟩
    · refine .inr ⟨first, ?_, ?_⟩
      · rw [pos]
        exact kept.last_eq_total fits isFirst start
      · have nothing : new = [] := by
          have same := kept.drew.drawn
          rw [start, List.self_eq_append_right] at same
          exact same
        rw [nothing, List.nil_append, ← start]
        exact List.forall_mem_append.mpr ⟨headingPage, onPage⟩
    · rcases goesOn with isFirst | more
      · rw [notFirst] at isFirst
        cases isFirst
      · omega

theorem noteStep_kept (kept : NoteKept normalize l note s new)
    (taken : noteStep normalize note s = some t) :
    (∃ more, NoteKept normalize l note t more) ∧
      t.measure normalize note < s.measure normalize note := by
  rcases noteStep_cases kept taken with ⟨more, stuck, above, turned⟩ |
      ⟨goesOn, further, pos, first, layout⟩
  · rw [turned]
    refine ⟨⟨new, kept.turn more stuck⟩, ?_⟩
    have sound := kept.drew.sound
    have later : s.layout.pages + 1 ≠ 1 := by
      have pages := sound.pages
      omega
    have top : ¬ s.layout.newPage.y > s.layout.newPage.pageTop := by
      show ¬ NEXT_TOP > topOf (s.layout.pages + 1)
      rw [topOf, if_neg later]
      exact lt_irrefl _
    show 2 * (total (paragraphsOf normalize note) - s.pos) + (if s.first then 2 else 0) +
        (if s.layout.newPage.y > s.layout.newPage.pageTop then 1 else 0) <
      2 * (total (paragraphsOf normalize note) - s.pos) + (if s.first then 2 else 0) +
        if s.layout.y > s.layout.pageTop then 1 else 0
    rw [if_neg top, if_pos above]
    exact Nat.lt_succ_self _
  · refine ⟨kept.draw goesOn further pos first layout, ?_⟩
    obtain ⟨lower, upper, _, _⟩ := kept.last_spec
    have one : (if t.layout.y > t.layout.pageTop then 1 else 0) ≤ 1 := by
      split
      · exact Nat.le_refl 1
      · exact Nat.zero_le 1
    unfold NoteState.measure
    rw [pos, first, if_neg Bool.false_ne_true]
    by_cases isFirst : s.first = true
    · rw [if_pos isFirst]
      omega
    · have more : s.pos < total (paragraphsOf normalize note) := goesOn.resolve_left isFirst
      have moved : s.last normalize note ≠ s.pos := fun same => further ⟨same, more⟩
      omega

end Steps

section Sections

variable (normalize : List UInt16 → List Nat)

/-- The height of a note on one page: its heading, its lines, and the gaps between its paragraphs. -/
def noteHeight (note : Note) : ℚ :=
  NOTE_HEAD + total (paragraphsOf normalize note) * NOTE_LINE +
    (((paragraphsOf normalize note).length - 1 : Nat) : ℚ) * PARA_GAP

/-- Behind so many paragraphs there are so many paragraph ends. -/
theorem endsBefore_paragraphs {paragraphs before after : List (List WinAnsiText)}
    (split : paragraphs = before ++ after) (nonempty : ∀ p ∈ paragraphs, p ≠ []) :
    endsBefore paragraphs before.flatten.length = before.length := by
  induction before using List.reverseRecOn generalizing after with
  | nil => rfl
  | append_singleton before p ih =>
      have again : paragraphs = before ++ p :: after := by
        rw [split, List.append_assoc]
        rfl
      have sofar := ih again
      have lines : 0 < p.length := by
        refine List.length_pos_iff.mpr (nonempty p ?_)
        rw [split]
        exact List.mem_append_left after (List.mem_append_right before List.mem_cons_self)
      have inside : ∀ k, k < p.length → ends paragraphs (before.flatten.length + k) =
          before.flatten.length + p.length := by
        intro k below
        rw [ends, split, List.append_assoc, List.map_append, List.singleton_append, List.map_cons,
          List.length_flatten, getElem?_lineBounds (Nat.le_add_right _ _) (by omega)]
        rfl
      -- inside a paragraph none ends
      have still : ∀ k, k < p.length → endsBefore paragraphs (before.flatten.length + k) =
          before.length := by
        intro k below
        induction k with
        | zero => exact sofar
        | succ k ihK =>
            rw [← Nat.add_assoc, endsBefore, ihK (by omega), inside k (by omega),
              if_neg (by omega : ¬ before.flatten.length + p.length = before.flatten.length + k + 1),
              Nat.add_zero]
      have last : before.flatten.length + p.length = before.flatten.length + (p.length - 1) + 1 := by
        omega
      rw [List.flatten_append, List.length_append, List.length_append, List.flatten_singleton,
        List.length_singleton, last, endsBefore, still _ (by omega), inside _ (by omega),
        if_pos last]

theorem wholeHeight_eq (note : Note) : wholeHeight normalize note = noteHeight normalize note := by
  have nonempty : ∀ p ∈ paragraphsOf normalize note, p ≠ [] := by
    intro p member
    exact of_decide_eq_true (List.mem_filter.mp member).2
  have all := endsBefore_paragraphs (List.append_nil _).symm nonempty
  unfold wholeHeight noteHeight
  generalize paragraphsOf normalize note = paragraphs at nonempty all ⊢
  by_cases bare : total paragraphs = 0
  · have empty : paragraphs = [] := by
      cases paragraphs with
      | nil => rfl
      | cons p rest =>
          have nothing := nonempty p List.mem_cons_self
          rw [total, List.flatten_cons, List.length_append] at bare
          exact absurd (List.length_eq_zero_iff.mp (by omega)) nothing
    rw [empty]
    show NOTE_HEAD + span [] 0 0 = NOTE_HEAD + ((0 : Nat) : ℚ) * NOTE_LINE + ((0 : Nat) : ℚ) * PARA_GAP
    rw [span_self]
    norm_num
  · have blocks := blocks_paragraphs paragraphs
    have lastLine : ends paragraphs (total paragraphs - 1) = total paragraphs - 1 + 1 := by
      have above := blocks.upper (by omega : total paragraphs - 1 < total paragraphs)
      have below := blocks.last (by omega : total paragraphs - 1 < total paragraphs)
      omega
    have ended : endsBefore paragraphs (total paragraphs) =
        endsBefore paragraphs (total paragraphs - 1) + 1 := by
      obtain ⟨n, same⟩ := Nat.exists_eq_succ_of_ne_zero bare
      rw [same, Nat.succ_sub_one] at lastLine ⊢
      rw [Nat.succ_eq_add_one, endsBefore, if_pos lastLine]
    have gaps : endsBefore paragraphs (total paragraphs - 1) = paragraphs.length - 1 := by
      have count : endsBefore paragraphs (total paragraphs) = paragraphs.length := all
      omega
    rw [span, if_neg (by omega), gaps, show endsBefore paragraphs 0 = 0 from rfl, Nat.cast_zero]
    ring

structure SectionLaidOut (earlier : List Drawn) (note : Note) (new : List Drawn) : Prop where
  /-- Every line once and in order. -/
  lines : new.filterMap Drawn.line = (paragraphsOf normalize note).flatten.zipIdx
  /-- One that fits a page is on one page, unless it is the first content. -/
  onePage : noteHeight normalize note ≤ CONTENT_BOTTOM - NEXT_TOP → earlier ≠ [] →
    ∀ d ∈ new, ∀ e ∈ new, d.page = e.page
  /-- No page holds one of its lines. -/
  alone : 2 ≤ total (paragraphsOf normalize note) → NoneAlone Drawn.line new
  /-- No page holds one line of a paragraph. -/
  paragraphs : ∀ {before p after}, paragraphsOf normalize note = before ++ p :: after → 2 ≤ p.length →
    NoneAlone (Drawn.lineOf before.flatten.length p.length) new

/-- A note of any number of lines is drawn to its end. -/
theorem Layout.Sound.note {l : Layout} (sound : l.Sound) (note : Note) :
    ∃ m new, l.note normalize note = some m ∧ Drew l m new ∧
      SectionLaidOut normalize l.drawn note new := by
  unfold Layout.note
  extract_lets whole page
  have paged : Drew l page [] := by
    show Drew l (if _ then l.newPage else l) []
    split
    · exact .newPage sound
    · exact .refl sound
  -- a page that is not turned is at its top, or has room
  have room : whole ≤ 466 → (l.drawn ≠ [] → whole ≤ page.room) ∧ min whole 444 ≤ page.room := by
    intro low
    show (_ → whole ≤ (if _ then l.newPage else l).room) ∧ _ ≤ (if _ then l.newPage else l).room
    split
    · rw [Layout.room_newPage]
      exact ⟨fun _ => low, min_le_of_left_le low⟩
    · next stays =>
        by_cases fits : whole ≤ l.room
        · exact ⟨fun _ => fits, min_le_of_left_le fits⟩
        · have top : ¬ l.y > l.pageTop := by
            intro above
            refine stays ⟨not_le.mp fits, ?_, above⟩
            have same := fresh_eq
            rw [fresh] at same
            rw [same]
            exact low
          obtain ⟨high, more⟩ := sound.room_top top
          refine ⟨?_, min_le_of_right_le high⟩
          intro drawn
          rcases more with all | nothing
          · exact low.trans all
          · exact absurd nothing drawn
  have start : NoteKept normalize page note ⟨page, 0, true⟩ [] := by
    refine ⟨.refl paged.sound, rfl, Nat.zero_le _, fun _ => rfl, ?_,
      fun positive => absurd positive (Nat.lt_irrefl 0), .inl rfl, ?_, ?_, fun _ => .inl ⟨rfl, rfl⟩⟩
    · intro _ empty
      have height : whole = NOTE_HEAD := by
        show NOTE_HEAD + span _ 0 (total _) = NOTE_HEAD
        rw [empty, span_self, add_zero]
      have there := (room (by rw [height]; norm_num [NOTE_HEAD])).2
      rw [height, min_eq_left (by norm_num [NOTE_HEAD])] at there
      exact there
    · intro _ d member
      exact absurd member List.not_mem_nil
    · intro _ _ _ _ _ d member
      exact absurd member List.not_mem_nil
  have step : ∀ s t, (∃ new, NoteKept normalize page note s new) → noteStep normalize note s = some t →
      (∃ more, NoteKept normalize page note t more) ∧
        t.measure normalize note < s.measure normalize note := by
    intro s t holds taken
    obtain ⟨new, kept⟩ := holds
    exact noteStep_kept kept taken
  have enough : (⟨page, 0, true⟩ : NoteState).measure normalize note <
      2 * total (paragraphsOf normalize note) + 4 := by
    show 2 * (total (paragraphsOf normalize note) - 0) + 2 + (if _ then 1 else 0) < _
    split <;> omega
  obtain ⟨last, ends, ⟨new, kept⟩, stops⟩ := exists_runLoop (noteStep normalize note) _ _ step
    ⟨page, 0, true⟩ ⟨[], start⟩ enough
  have done : last.first = false ∧ last.pos = total (paragraphsOf normalize note) := by
    unfold noteStep at stops
    extract_lets paragraphs lead fitting last' last'' headed drawn at stops
    split at stops
    · split at stops <;> cases stops
    · next ended =>
        rw [not_or] at ended
        exact ⟨Bool.eq_false_iff.mpr ended.1, kept.within.antisymm (Nat.not_lt.mp ended.2)⟩
  have drew := paged.trans (kept.drew.trans (Drew.down kept.drew.sound (d := NOTE_GAP)
    (by norm_num [NOTE_GAP])))
  rw [List.append_nil, List.nil_append] at drew
  refine ⟨_, new, by rw [ends]; rfl, drew, ⟨?_, ?_, kept.alone, kept.paragraphs⟩⟩
  · rw [kept.lines, done.2]
    exact congrArg List.zipIdx (List.take_of_length_le (Nat.le_refl _))
  · intro low nonempty d member e member'
    have bound : whole ≤ 466 := by
      have same := fresh_eq
      rw [fresh] at same
      rw [← same]
      exact (wholeHeight_eq normalize note).le.trans low
    rcases kept.onePage ((room bound).1 nonempty) with ⟨never, _⟩ | ⟨_, _, onPage⟩
    · rw [done.1] at never
      cases never
    · rw [onPage d member, onPage e member']

/-- Notes are drawn one after the other. -/
theorem Layout.Sound.notes {l : Layout} (sound : l.Sound) (list : List Note) :
    ∃ (m : Layout) (sections : List (List Drawn)), l.notes normalize list = some m ∧ Drew l m sections.flatten ∧
      sections.length = list.length ∧
        ∀ (i : Nat) (note : Note) (new : List Drawn), list[i]? = some note → sections[i]? = some new →
          SectionLaidOut normalize (l.drawn ++ (sections.take i).flatten) note new := by
  induction list generalizing l with
  | nil =>
      refine ⟨l, [], rfl, .refl sound, rfl, ?_⟩
      intro i note new found
      cases found
  | cons note rest ih =>
      obtain ⟨m, new, drawn, drew, laidOut⟩ := sound.note normalize note
      obtain ⟨k, sections, drawnRest, drewRest, length, laidOutRest⟩ := ih drew.sound
      refine ⟨k, new :: sections, ?_, drew.trans drewRest, congrArg Nat.succ length, ?_⟩
      · rw [Layout.notes, drawn]
        exact drawnRest
      · intro i other section' isNote isSection
        cases i with
        | zero =>
            cases isNote
            cases isSection
            rw [List.take_zero, List.flatten_nil, List.append_nil]
            exact laidOut
        | succ i =>
            have there := laidOutRest i other section' isNote isSection
            rw [drew.drawn, List.append_assoc] at there
            exact there

end Sections

end ZabbixPortal.Export.Pdf
