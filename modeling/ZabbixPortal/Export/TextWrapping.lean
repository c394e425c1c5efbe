import ZabbixPortal.Export.PdfFonts
import ZabbixPortal.Foundation.Joined
import Mathlib.Tactic.Linarith
import Mathlib.Tactic.Positivity
import Mathlib.Tactic.GCongr

/-! Wrapping keeps every character and every bound. -/

set_option autoImplicit false

namespace ZabbixPortal.Export

open Foundation

section Widths

variable {face : FontFace} {size maxWidth : ℚ}

theorem unitsOf_append (left right : WinAnsiText) :
    unitsOf (left ++ right) face = unitsOf left face + unitsOf right face := by
  rw [unitsOf, List.map_append, List.sum_append]
  rfl

theorem textWidth_append (left right : WinAnsiText) :
    textWidth (left ++ right) face size = textWidth left face size + textWidth right face size := by
  rw [textWidth, unitsOf_append, Nat.cast_add, add_mul, add_div, textWidth, textWidth]

/-- A part of a text is no wider than the text. -/
theorem textWidth_sublist (positive : 0 < size) {part whole : WinAnsiText}
    (inside : part.Sublist whole) : textWidth part face size ≤ textWidth whole face size := by
  have units : unitsOf part face ≤ unitsOf whole face := (inside.map _).sum_le_sum fun _ _ => Nat.zero_le _
  have cast : (unitsOf part face : ℚ) ≤ unitsOf whole face := by exact_mod_cast units
  unfold textWidth
  gcongr

theorem take_fitFrom (face : FontFace) (units : Nat) (s : WinAnsiText)
    (room : (units : ℚ) * size / 1000 ≤ maxWidth) :
    ((units + unitsOf (s.take (fitFrom face size maxWidth units s)) face : Nat) : ℚ) * size / 1000 ≤
      maxWidth := by
  induction s generalizing units with
  | nil => simpa [unitsOf] using room
  | cons code rest ih =>
      rw [fitFrom]
      split
      · simpa [unitsOf] using room
      · next fits =>
          have later := ih _ (not_lt.mp fits)
          rw [List.take_succ_cons, unitsOf, List.map_cons, List.sum_cons, ← Nat.add_assoc]
          exact later

theorem fitFrom_le (units : Nat) (s : WinAnsiText) : fitFrom face size maxWidth units s ≤ s.length := by
  induction s generalizing units with
  | nil => exact Nat.le_refl 0
  | cons code rest ih =>
      rw [fitFrom]
      split
      · exact Nat.zero_le _
      · exact Nat.succ_le_succ (ih _)

/-- What fits takes no more than the width there is. -/
theorem textWidth_take_fitCount (face : FontFace) (size : ℚ) (room : 0 ≤ maxWidth) (s : WinAnsiText) :
    textWidth (s.take (fitCount face size maxWidth s)) face size ≤ maxWidth := by
  have nothing : ((0 : Nat) : ℚ) * size / 1000 ≤ maxWidth := by simpa using room
  have fits := take_fitFrom face 0 s nothing
  rw [Nat.zero_add] at fits
  exact fits

theorem fitFrom_eq_length {units : Nat} (positive : 0 < size) {s : WinAnsiText}
    (fits : ((units + unitsOf s face : Nat) : ℚ) * size / 1000 ≤ maxWidth) :
    fitFrom face size maxWidth units s = s.length := by
  induction s generalizing units with
  | nil => rfl
  | cons code rest ih =>
      rw [unitsOf, List.map_cons, List.sum_cons, ← Nat.add_assoc] at fits
      have soFar : ((units + advance code face : Nat) : ℚ) * size / 1000 ≤ maxWidth := by
        refine le_trans ?_ fits
        have less : ((units + advance code face : Nat) : ℚ) ≤
            (units + advance code face + (rest.map fun code => advance code face).sum : Nat) := by
          exact_mod_cast Nat.le_add_right _ _
        gcongr
      rw [fitFrom]
      rw [if_neg (not_lt.mpr soFar), ih fits, List.length_cons]

theorem fitCount_eq_length (positive : 0 < size) {s : WinAnsiText}
    (fits : textWidth s face size ≤ maxWidth) : fitCount face size maxWidth s = s.length :=
  fitFrom_eq_length positive (by rw [Nat.zero_add]; exact fits)

theorem isPrefix_trimEndBytes (s : WinAnsiText) : trimEndBytes s <+: s := by
  have behind := List.dropWhile_suffix (l := s.reverse) isSpaceByte
  rw [← List.reverse_prefix, List.reverse_reverse] at behind
  exact behind

/-- A text cut to fit does. -/
theorem textWidth_fitText (positive : 0 < size) (room : 0 ≤ maxWidth) (s : WinAnsiText) :
    textWidth (fitText face size maxWidth s) face size ≤ maxWidth := by
  unfold fitText
  split
  · next fits => exact fits
  · dsimp only
    split
    · simpa [textWidth, unitsOf] using room
    · next more =>
        have left : 0 ≤ maxWidth - textWidth ELLIPSIS face size := (not_le.mp more).le
        rw [textWidth_append]
        have kept := (textWidth_sublist positive (isPrefix_trimEndBytes _).sublist).trans
          (textWidth_take_fitCount face size left s)
        linarith

end Widths

/-- A piece of a line: a whole word, or a part of one that was broken. -/
structure Fragment where
  text : WinAnsiText
  whole : Bool

def lineText (line : List Fragment) : WinAnsiText := joinWords (line.map Fragment.text)

section Layout

variable (face : FontFace) (size maxWidth : ℚ)

inductive Fragments : List WinAnsiText → List Fragment → Prop
  | nil : Fragments [] []
  | whole {words : List WinAnsiText} {fragments : List Fragment} (word : WinAnsiText)
      (before : Fragments words fragments) :
      Fragments (words ++ [word]) (fragments ++ [⟨word, true⟩])
  | broken {words : List WinAnsiText} {fragments : List Fragment} {word : WinAnsiText}
      (parts : List WinAnsiText) (before : Fragments words fragments)
      (wide : maxWidth < textWidth word face size) (together : parts.flatten = word)
      (nonempty : ∀ part ∈ parts, part ≠ []) :
      Fragments (words ++ [word]) (fragments ++ parts.map (⟨·, false⟩))

/-- A line no wider than there is room for, unless it is a single glyph. -/
def LineFits (line : WinAnsiText) : Prop :=
  textWidth line face size ≤ maxWidth ∨ line.length = 1

/-- A whole word begins a line only where it did not fit the line before. -/
def Greedy (layout : List (List Fragment)) : Prop :=
  layout.IsChain fun before line => ∀ fragment, line.head? = some fragment →
    fragment.whole = true → maxWidth < textWidth (lineText before ++ SPACE :: fragment.text) face size

end Layout

section Break

variable {face : FontFace} {size maxWidth : ℚ}

/-- What breaking a word gives: its characters, on lines that fit. -/
theorem breakWord_spec (face : FontFace) (size : ℚ) (room : 0 ≤ maxWidth) {word : WinAnsiText}
    (nonempty : word ≠ []) :
    (breakWord face size maxWidth word).1.flatten ++ (breakWord face size maxWidth word).2 = word ∧
      (∀ part ∈ (breakWord face size maxWidth word).1, part ≠ [] ∧ LineFits face size maxWidth part) ∧
      (breakWord face size maxWidth word).2 ≠ [] ∧
      LineFits face size maxWidth (breakWord face size maxWidth word).2 := by
  induction word using breakWord.induct face size maxWidth with
  | case1 word long fits all =>
      rw [breakWord, dif_pos long, if_pos all]
      refine ⟨rfl, (fun part member => by cases member), nonempty, .inl ?_⟩
      have taken : textWidth (word.take fits) face size ≤ maxWidth := textWidth_take_fitCount face size room word
      rw [all, List.take_length] at taken
      exact taken
  | case2 word long fits partly ih =>
      have few : fits ≤ word.length := fitFrom_le 0 word
      have filled : word.drop (max fits 1) ≠ [] := by
        rw [Ne, List.drop_eq_nil_iff, Nat.not_le]
        exact Nat.max_lt.mpr ⟨lt_of_le_of_ne few partly, long⟩
      obtain ⟨together, parts, restSome, restFits⟩ := ih filled
      rw [breakWord, dif_pos long, if_neg partly]
      refine ⟨?_, fun part member => ?_, restSome, restFits⟩
      · dsimp only
        rw [List.flatten_cons, List.append_assoc, together, List.take_append_drop]
      · rcases List.mem_cons.mp member with rfl | later
        · constructor
          · intro bare
            rcases List.take_eq_nil_iff.mp bare with zero | empty
            · exact absurd (Nat.le_max_right fits 1) (by rw [zero]; decide)
            · exact nonempty empty
          · rcases Nat.lt_or_ge fits 1 with nothing | one
            · refine .inr ?_
              rw [Nat.max_eq_right nothing.le, List.length_take]
              exact Nat.min_eq_left long.le
            · rw [Nat.max_eq_left one]
              exact .inl (textWidth_take_fitCount face size room word)
        · exact parts part later
  | case3 word short =>
      rw [breakWord, dif_neg short]
      refine ⟨rfl, (fun part member => by cases member), nonempty, .inr ?_⟩
      have one := List.length_pos_iff.mpr nonempty
      exact Nat.le_antisymm (not_lt.mp short) one

/-- A word that fits is not broken. -/
theorem breakWord_of_fits (positive : 0 < size) {word : WinAnsiText}
    (fits : textWidth word face size ≤ maxWidth) : breakWord face size maxWidth word = ([], word) := by
  rw [breakWord]
  split
  · rw [if_pos (fitCount_eq_length positive fits)]
  · rfl

end Break

section Lines

theorem lineText_singleton (fragment : Fragment) : lineText [fragment] = fragment.text := by
  rw [lineText, joinWords, List.map_singleton, List.intercalate_singleton]

theorem lineText_concat {line : List Fragment} (nonempty : line ≠ []) (fragment : Fragment) :
    lineText (line ++ [fragment]) = lineText line ++ SPACE :: fragment.text := by
  rw [lineText, List.map_append]
  exact intercalate_concat (by simpa using nonempty) fragment.text

def Solid (line : List Fragment) : Prop :=
  ∀ fragment ∈ line, fragment.text ≠ [] ∧ SPACE ∉ fragment.text

theorem lineText_ne_nil {line : List Fragment} (nonempty : line ≠ []) (solid : Solid line) :
    lineText line ≠ [] := by
  cases line with
  | nil => exact absurd rfl nonempty
  | cons fragment rest =>
      have own := (solid fragment List.mem_cons_self).1
      cases rest with
      | nil =>
          rw [lineText_singleton]
          exact own
      | cons second more =>
          rw [lineText, joinWords, List.map_cons, List.map_cons, List.intercalate_cons_cons]
          simp

end Lines

section Wrap

variable (face : FontFace) (size maxWidth : ℚ)

structure FineLine (line : List Fragment) : Prop where
  filled : line ≠ []
  solid : Solid line
  fits : LineFits face size maxWidth (lineText line)

structure Wrapped (words : List WinAnsiText) (w : Wrapping) (layout : List (List Fragment)) :
    Prop where
  lines_eq : w.lines = layout.dropLast.map lineText
  line_eq : w.line = lineText (layout.getLastD [])
  fragments : Fragments face size maxWidth words layout.flatten
  fine : ∀ line ∈ layout, FineLine face size maxWidth line
  greedy : Greedy face size maxWidth layout

end Wrap

section Push

variable {face : FontFace} {size maxWidth : ℚ}
variable {words : List WinAnsiText} {w : Wrapping} {layout : List (List Fragment)}

theorem wrapped_nil : Wrapped face size maxWidth [] ⟨[], []⟩ [] where
  lines_eq := rfl
  line_eq := rfl
  fragments := .nil
  fine line member := by cases member
  greedy := .nil

/-- A state is empty or has a line being filled. -/
theorem Wrapped.done_eq (wrapped : Wrapped face size maxWidth words w layout) :
    w.done = layout.map lineText := by
  unfold Wrapping.done
  rcases List.eq_nil_or_concat layout with rfl | ⟨init, line, rfl⟩
  · rw [wrapped.line_eq, if_neg (fun nonempty => nonempty rfl), wrapped.lines_eq]
    rfl
  · have own := wrapped.fine line (by simp)
    have lineIs : w.line = lineText line := by
      rw [wrapped.line_eq, List.concat_eq_append, List.getLastD_concat]
    have linesAre : w.lines = init.map lineText := by
      rw [wrapped.lines_eq, List.concat_eq_append, List.dropLast_concat]
    rw [if_pos (by rw [lineIs]; exact lineText_ne_nil own.filled own.solid), lineIs, linesAre,
      List.concat_eq_append, List.map_append]
    rfl

/-- A word that fits goes on the line. -/
theorem Wrapped.push_fits (wrapped : Wrapped face size maxWidth words w layout) {word : WinAnsiText}
    (nonempty : word ≠ []) (plain : SPACE ∉ word)
    (fits : textWidth (w.next word) face size ≤ maxWidth) :
    ∃ next, Wrapped face size maxWidth (words ++ [word]) { w with line := w.next word } next := by
  have solidWord : ∀ fragment ∈ [(⟨word, true⟩ : Fragment)],
      fragment.text ≠ [] ∧ SPACE ∉ fragment.text := by
    intro fragment member
    rw [List.mem_singleton.mp member]
    exact ⟨nonempty, plain⟩
  rcases List.eq_nil_or_concat layout with rfl | ⟨init, line, rfl⟩
  · have next : w.next word = word := by
      rw [Wrapping.next, wrapped.line_eq, if_neg fun filled => filled rfl]
    rw [next] at fits ⊢
    have fine : FineLine face size maxWidth [⟨word, true⟩] :=
      ⟨List.cons_ne_nil _ _, solidWord, .inl (by rw [lineText_singleton]; exact fits)⟩
    refine ⟨[[⟨word, true⟩]], ?_, ?_, wrapped.fragments.whole word, ?_, .singleton _⟩
    · rw [wrapped.lines_eq]
      rfl
    · exact (lineText_singleton ⟨word, true⟩).symm
    · intro own member
      rw [List.mem_singleton.mp member]
      exact fine
  · rw [List.concat_eq_append] at wrapped
    have own := wrapped.fine line (by simp)
    have lineIs : w.line = lineText line := by
      rw [wrapped.line_eq, List.getLastD_concat]
    have next : w.next word = lineText (line ++ [⟨word, true⟩]) := by
      rw [lineText_concat own.filled, Wrapping.next,
        if_pos (by rw [lineIs]; exact lineText_ne_nil own.filled own.solid), lineIs]
    rw [next] at fits ⊢
    have fine : FineLine face size maxWidth (line ++ [⟨word, true⟩]) := by
      refine ⟨by simp, fun fragment member => ?_, .inl fits⟩
      rcases List.mem_append.mp member with before | last
      · exact own.solid fragment before
      · exact solidWord fragment last
    refine ⟨init ++ [line ++ [⟨word, true⟩]], ?_, ?_, ?_, ?_, ?_⟩
    · rw [wrapped.lines_eq, List.dropLast_concat, List.dropLast_concat]
    · rw [List.getLastD_concat]
    · have more := wrapped.fragments.whole word
      rw [List.flatten_append, List.flatten_singleton] at more ⊢
      rw [← List.append_assoc]
      exact more
    · intro other member
      rcases List.mem_append.mp member with before | last
      · exact wrapped.fine other (List.mem_append_left _ before)
      · rw [List.mem_singleton.mp last]
        exact fine
    · have chain := List.isChain_append.mp wrapped.greedy
      refine List.isChain_append.mpr ⟨chain.1, .singleton _, fun last isLast other isOther => ?_⟩
      have isLine : line ++ [⟨word, true⟩] = other := Option.some.inj isOther
      rw [← isLine]
      intro fragment first
      rw [List.head?_append_of_ne_nil _ own.filled] at first
      exact chain.2.2 last isLast line rfl fragment first

/-- Lines that begin with a part of a broken word follow anything. -/
theorem greedy_append_broken (greedy : Greedy face size maxWidth layout)
    {added : List (List Fragment)}
    (parts : ∀ line ∈ added, ∀ fragment, line.head? = some fragment → fragment.whole = false) :
    Greedy face size maxWidth (layout ++ added) := by
  have follows : ∀ before : List Fragment, ∀ line ∈ added, ∀ fragment, line.head? = some fragment →
      fragment.whole = true →
        maxWidth < textWidth (lineText before ++ SPACE :: fragment.text) face size := by
    intro before line member fragment first whole
    rw [parts line member fragment first] at whole
    cases whole
  have own : Greedy face size maxWidth added := by
    induction added with
    | nil => exact .nil
    | cons line rest ih =>
        refine List.isChain_cons.mpr ⟨fun next isNext => ?_, ih
          (fun other member => parts other (.tail _ member))
          fun before other member => follows before other (.tail _ member)⟩
        exact follows line next (.tail _ (List.mem_of_mem_head? isNext))
  exact List.isChain_append.mpr ⟨greedy, own, fun before _ line isLine =>
    follows before line (List.mem_of_mem_head? isLine)⟩

/-- New lines behind the ones there are. -/
theorem Wrapped.append_lines (wrapped : Wrapped face size maxWidth words w layout)
    (added : List (List Fragment)) {last : List Fragment} {more : List WinAnsiText}
    (fragments : Fragments face size maxWidth more (layout.flatten ++ (added ++ [last]).flatten))
    (fine : ∀ line ∈ added ++ [last], FineLine face size maxWidth line)
    (greedy : Greedy face size maxWidth (layout ++ (added ++ [last]))) :
    Wrapped face size maxWidth more ⟨w.done ++ added.map lineText, lineText last⟩
      (layout ++ (added ++ [last])) where
  lines_eq := by
    rw [wrapped.done_eq, ← List.append_assoc, List.dropLast_concat, List.map_append]
  line_eq := by rw [← List.append_assoc, List.getLastD_concat]
  fragments := by
    rw [List.flatten_append]
    exact fragments
  fine line member := by
    rcases List.mem_append.mp member with before | new
    · exact wrapped.fine line before
    · exact fine line new
  greedy := greedy

/-- A line of one fragment. -/
theorem fineLine_singleton {fragment : Fragment} (nonempty : fragment.text ≠ [])
    (plain : SPACE ∉ fragment.text) (fits : LineFits face size maxWidth fragment.text) :
    FineLine face size maxWidth [fragment] := by
  refine ⟨List.cons_ne_nil _ _, fun other member => ?_, ?_⟩
  · rw [List.mem_singleton.mp member]
    exact ⟨nonempty, plain⟩
  · rw [lineText_singleton]
    exact fits

/-- A word that does not fit begins a new line, broken if it is wider than a line. -/
theorem Wrapped.push_breaks (wrapped : Wrapped face size maxWidth words w layout)
    (positive : 0 < size) (room : 0 ≤ maxWidth) {word : WinAnsiText}
    (nonempty : word ≠ []) (plain : SPACE ∉ word)
    (wide : ¬ textWidth (w.next word) face size ≤ maxWidth) :
    ∃ next, Wrapped face size maxWidth (words ++ [word])
      ⟨w.done ++ (breakWord face size maxWidth word).1, (breakWord face size maxWidth word).2⟩
      next := by
  obtain ⟨together, parts, restSome, restFits⟩ :=
    breakWord_spec face size room nonempty
  have inWord : ∀ part, part ∈ (breakWord face size maxWidth word).1 ∨
      part = (breakWord face size maxWidth word).2 → SPACE ∉ part := by
    intro part isPart inside
    refine plain ?_
    rw [← together]
    rcases isPart with member | rfl
    · exact List.mem_append_left _ (List.mem_flatten.mpr ⟨part, member, inside⟩)
    · exact List.mem_append_right _ inside
  have wideIf : (breakWord face size maxWidth word).1 ≠ [] → maxWidth < textWidth word face size :=
    fun filled => lt_of_not_ge fun fits => filled (by rw [breakWord_of_fits positive fits])
  generalize breakWord face size maxWidth word = broken at together parts restSome restFits inWord wideIf ⊢
  obtain ⟨pieces, rest⟩ := broken
  dsimp only at together parts restSome restFits inWord wideIf ⊢
  cases pieces with
  | nil =>
      rw [List.flatten_nil, List.nil_append] at together
      subst together
      have fine : FineLine face size maxWidth [⟨rest, true⟩] :=
        fineLine_singleton restSome plain restFits
      have chain : Greedy face size maxWidth (layout ++ ([] ++ [[⟨rest, true⟩]])) := by
        refine List.isChain_append.mpr ⟨wrapped.greedy, .singleton _, ?_⟩
        intro before isLast line isLine fragment first _
        have lineIs : w.line = lineText before := by
          rw [wrapped.line_eq, List.getLastD_eq_getLast?, Option.mem_def.mp isLast]
          rfl
        have own := wrapped.fine before (List.mem_of_getLast? isLast)
        have same : [(⟨rest, true⟩ : Fragment)] = line := Option.some.inj isLine
        rw [← same] at first
        have word : (⟨rest, true⟩ : Fragment) = fragment := Option.some.inj first
        rw [← word, ← lineIs]
        rw [Wrapping.next, lineIs, if_pos (lineText_ne_nil own.filled own.solid), ← lineIs] at wide
        exact lt_of_not_ge wide
      have appended := wrapped.append_lines [] (wrapped.fragments.whole rest)
        (fun line member => by rw [List.mem_singleton.mp member]; exact fine) chain
      rw [lineText_singleton] at appended
      exact ⟨_, appended⟩
  | cons piece more =>
      have texts : ((piece :: more).map fun part => [(⟨part, false⟩ : Fragment)]).map lineText =
          piece :: more := by
        rw [List.map_map]
        exact List.map_id'' (fun part => lineText_singleton ⟨part, false⟩) _
      have flat : (((piece :: more).map fun part => [(⟨part, false⟩ : Fragment)]) ++
          [[(⟨rest, false⟩ : Fragment)]]).flatten =
            (piece :: more ++ [rest]).map fun part => (⟨part, false⟩ : Fragment) := by
        rw [List.flatten_append, ← List.flatMap_def, ← List.map_eq_flatMap, List.map_append]
        rfl
      have whole : (piece :: more ++ [rest]).flatten = word := by
        rw [List.flatten_append, List.flatten_singleton]
        exact together
      have each : ∀ part ∈ piece :: more ++ [rest],
          part ≠ [] ∧ SPACE ∉ part ∧ LineFits face size maxWidth part := by
        intro part member
        rcases List.mem_append.mp member with inPieces | isRest
        · exact ⟨(parts part inPieces).1, inWord part (.inl inPieces), (parts part inPieces).2⟩
        · rw [List.mem_singleton.mp isRest]
          exact ⟨restSome, inWord rest (.inr rfl), restFits⟩
      have lines : ∀ line ∈ ((piece :: more).map fun part => [(⟨part, false⟩ : Fragment)]) ++
          [[(⟨rest, false⟩ : Fragment)]], ∃ part ∈ piece :: more ++ [rest], line = [⟨part, false⟩] := by
        intro line member
        rcases List.mem_append.mp member with inPieces | isRest
        · obtain ⟨part, isPart, rfl⟩ := List.mem_map.mp inPieces
          exact ⟨part, List.mem_append_left _ isPart, rfl⟩
        · exact ⟨rest, List.mem_append_right _ List.mem_cons_self, List.mem_singleton.mp isRest⟩
      have fragments := wrapped.fragments.broken (piece :: more ++ [rest])
        (wideIf (List.cons_ne_nil _ _)) whole fun part member => (each part member).1
      rw [← flat] at fragments
      have fine : ∀ line ∈ ((piece :: more).map fun part => [(⟨part, false⟩ : Fragment)]) ++
          [[(⟨rest, false⟩ : Fragment)]], FineLine face size maxWidth line := by
        intro line member
        obtain ⟨part, isPart, rfl⟩ := lines line member
        exact fineLine_singleton (each part isPart).1 (each part isPart).2.1 (each part isPart).2.2
      have chain := greedy_append_broken wrapped.greedy fun line member fragment first => by
        obtain ⟨part, -, rfl⟩ := lines line member
        rw [← (Option.some.inj first : (⟨part, false⟩ : Fragment) = fragment)]
      have appended := wrapped.append_lines _ fragments fine chain
      rw [texts, lineText_singleton] at appended
      exact ⟨_, appended⟩

theorem Wrapped.push (wrapped : Wrapped face size maxWidth words w layout)
    (positive : 0 < size) (room : 0 ≤ maxWidth) {word : WinAnsiText}
    (nonempty : word ≠ []) (plain : SPACE ∉ word) :
    ∃ next, Wrapped face size maxWidth (words ++ [word]) (w.push face size maxWidth word) next := by
  unfold Wrapping.push
  split
  · next fits => exact wrapped.push_fits nonempty plain fits
  · next wide => exact wrapped.push_breaks positive room nonempty plain wide

/-- Pushing words one after another. -/
theorem Wrapped.foldl_push (wrapped : Wrapped face size maxWidth words w layout)
    (positive : 0 < size) (room : 0 ≤ maxWidth) {more : List WinAnsiText}
    (solid : ∀ word ∈ more, word ≠ [] ∧ SPACE ∉ word) :
    ∃ next, Wrapped face size maxWidth (words ++ more)
      (more.foldl (Wrapping.push face size maxWidth) w) next := by
  induction more generalizing words w layout with
  | nil => exact ⟨layout, by rw [List.append_nil]; exact wrapped⟩
  | cons word rest ih =>
      obtain ⟨nonempty, plain⟩ := solid word List.mem_cons_self
      obtain ⟨next, pushed⟩ := wrapped.push positive room nonempty plain
      have later := ih pushed fun other member => solid other (.tail _ member)
      rw [List.append_assoc] at later
      exact later

end Push

section Text

variable {face : FontFace} {size maxWidth : ℚ}

theorem solid_wordsOf (s : WinAnsiText) : ∀ word ∈ wordsOf s, word ≠ [] ∧ SPACE ∉ word := by
  intro word member
  obtain ⟨part, nonempty⟩ := List.mem_filter.mp member
  exact ⟨of_decide_eq_true nonempty, not_mem_of_mem_splitOn part⟩

theorem flatten_wordsOf (s : WinAnsiText) : (wordsOf s).flatten = s.filter (· ≠ SPACE) := by
  rw [wordsOf, List.flatten_filter_ne_nil, flatten_splitOn]

/-- The fragments hold the characters of the words. -/
theorem Fragments.flatten_eq {words : List WinAnsiText} {fragments : List Fragment}
    (made : Fragments face size maxWidth words fragments) :
    (fragments.map Fragment.text).flatten = words.flatten := by
  induction made with
  | nil => rfl
  | whole word before ih =>
      rw [List.map_append, List.flatten_append, List.flatten_append, ih]
      rfl
  | broken parts before wide together nonempty ih =>
      have texts : (parts.map fun part => (⟨part, false⟩ : Fragment)).map Fragment.text = parts := by
        rw [List.map_map]
        exact List.map_id' parts
      rw [List.map_append, List.flatten_append, List.flatten_append, ih, texts, together,
        List.flatten_singleton]

/-- Lines put together hold the characters of their fragments. -/
theorem filter_flatten_lines {layout : List (List Fragment)}
    (solid : ∀ line ∈ layout, Solid line) :
    (layout.map lineText).flatten.filter (· ≠ SPACE) =
      (layout.flatten.map Fragment.text).flatten := by
  induction layout with
  | nil => rfl
  | cons line rest ih =>
      have plain : ∀ part ∈ line.map Fragment.text, SPACE ∉ part := by
        intro part member
        obtain ⟨fragment, listed, rfl⟩ := List.mem_map.mp member
        exact (solid line List.mem_cons_self fragment listed).2
      rw [List.map_cons, List.flatten_cons, List.filter_append,
        ih fun other member => solid other (.tail _ member), lineText, joinWords,
        filter_intercalate plain, List.flatten_cons, List.map_append, List.flatten_append]

/-- The lines of a wrapped text by their fragments. -/
theorem wrapText_layout (positive : 0 < size) (room : 0 ≤ maxWidth) (s : WinAnsiText) :
    ∃ layout, wrapText face size maxWidth s = layout.map lineText ∧
      Fragments face size maxWidth (wordsOf s) layout.flatten ∧
      (∀ line ∈ layout, FineLine face size maxWidth line) ∧ Greedy face size maxWidth layout := by
  obtain ⟨layout, wrapped⟩ := wrapped_nil.foldl_push positive room (solid_wordsOf s)
  exact ⟨layout, wrapped.done_eq, wrapped.fragments, wrapped.fine, wrapped.greedy⟩

theorem splitOn_lineText {line : List Fragment} (fine : FineLine face size maxWidth line) :
    (lineText line).splitOn SPACE = line.map Fragment.text := by
  refine List.splitOn_intercalate SPACE (fun part member => ?_) (by simpa using fine.filled)
  obtain ⟨fragment, listed, rfl⟩ := List.mem_map.mp member
  exact (fine.solid fragment listed).2

/-- A line without a space is one fragment. -/
theorem eq_singleton_of_lone {line : List Fragment} (filled : line ≠ [])
    (lone : SPACE ∉ lineText line) : ∃ fragment, line = [fragment] := by
  cases line with
  | nil => exact absurd rfl filled
  | cons fragment rest =>
      cases rest with
      | nil => exact ⟨fragment, rfl⟩
      | cons second more =>
          refine absurd ?_ lone
          rw [lineText, joinWords, List.map_cons, List.map_cons, List.intercalate_cons_cons]
          simp

/-- A line of several fragments fits, and so it does without its last. -/
theorem FineLine.dropLast {line : List Fragment} {last : Fragment} (positive : 0 < size)
    (fine : FineLine face size maxWidth (line ++ [last])) (nonempty : line ≠ []) :
    FineLine face size maxWidth line := by
  have solid : Solid line := fun fragment member => fine.solid fragment (List.mem_append_left _ member)
  refine ⟨nonempty, solid, .inl ?_⟩
  have shape := lineText_concat nonempty last
  have narrower : textWidth (lineText line) face size ≤
      textWidth (lineText (line ++ [last])) face size := by
    rw [shape]
    exact textWidth_sublist positive (List.sublist_append_left _ _)
  rcases fine.fits with fits | single
  · exact narrower.trans fits
  · rw [shape, List.length_append, List.length_cons] at single
    have filled := List.length_pos_iff.mpr (lineText_ne_nil nonempty solid)
    omega

theorem exists_last_two {layout : List (List Fragment)} (several : ¬ layout.length < 2) :
    ∃ init lender last, layout = init ++ [lender] ++ [last] := by
  rcases List.eq_nil_or_concat layout with rfl | ⟨before, last, rfl⟩
  · exact absurd (Nat.zero_lt_two) several
  · rcases List.eq_nil_or_concat before with rfl | ⟨init, lender, rfl⟩
    · exact absurd (Nat.one_lt_two) several
    · exact ⟨init, lender, last, by rw [List.concat_eq_append, List.concat_eq_append]⟩

/-- The last line but one lends its last word to a last line of one word. -/
theorem wrapParagraph_layout (positive : 0 < size) (s : WinAnsiText)
    {layout : List (List Fragment)} (wraps : wrapText face size maxWidth s = layout.map lineText)
    (fine : ∀ line ∈ layout, FineLine face size maxWidth line) :
    ∃ paragraph : List (List Fragment), wrapParagraph face size maxWidth s = paragraph.map lineText ∧
      paragraph.flatten = layout.flatten ∧
      ∀ line ∈ paragraph, FineLine face size maxWidth line := by
  have unchanged : ∃ paragraph : List (List Fragment),
      wrapText face size maxWidth s = paragraph.map lineText ∧ paragraph.flatten = layout.flatten ∧
        ∀ line ∈ paragraph, FineLine face size maxWidth line := ⟨layout, wraps, rfl, fine⟩
  unfold wrapParagraph
  dsimp only
  split
  · exact unchanged
  · next notLone =>
      split
      · exact unchanged
      · next keeps =>
          split
          · exact unchanged
          · next pairFits =>
              obtain ⟨several, lone⟩ := not_or.mp notLone
              rw [wraps] at several lone keeps pairFits ⊢
              rw [List.length_map] at several
              obtain ⟨init, lender, last, rfl⟩ := exists_last_two several
              have fineLender := fine lender (by simp)
              have fineLast := fine last (by simp)
              rw [List.map_append, List.map_append, List.map_singleton, List.map_singleton,
                List.dropLast_concat, List.getLastD_concat] at pairFits ⊢
              rw [List.map_append, List.map_append, List.map_singleton, List.map_singleton,
                List.dropLast_concat] at keeps
              rw [List.map_append, List.map_singleton, List.getLastD_concat] at lone
              rw [List.getLastD_concat, splitOn_lineText fineLender] at keeps pairFits ⊢
              obtain ⟨word, rfl⟩ := eq_singleton_of_lone fineLast.filled lone
              rcases List.eq_nil_or_concat lender with rfl | ⟨rest, lent, rfl⟩
              · exact absurd rfl fineLender.filled
              rw [List.concat_eq_append] at fine fineLender keeps pairFits ⊢
              rw [List.map_append, List.map_singleton] at keeps pairFits ⊢
              rw [List.getLastD_concat] at pairFits ⊢
              have nonempty : rest ≠ [] := by
                intro empty
                rw [empty] at keeps
                exact keeps (Nat.zero_lt_succ 2)
              have pair : lent.text ++ SPACE :: lineText [word] = lineText [lent, word] := by
                have joined := lineText_concat (List.cons_ne_nil lent []) word
                rw [lineText_singleton] at joined
                rw [lineText_singleton]
                exact joined.symm
              rw [pair] at pairFits ⊢
              have finePair : FineLine face size maxWidth [lent, word] := by
                refine ⟨List.cons_ne_nil _ _, fun fragment member => ?_, .inl (not_lt.mp pairFits)⟩
                rcases List.mem_cons.mp member with rfl | isWord
                · exact fineLender.solid fragment (List.mem_append_right _ List.mem_cons_self)
                · exact fineLast.solid fragment isWord
              refine ⟨init ++ [rest, [lent, word]], ?_, ?_, fun line member => ?_⟩
              · rw [List.dropLast_concat, List.dropLast_concat, List.map_append]
                rfl
              · simp
              · rcases List.mem_append.mp member with inInit | borrowed
                · exact fine line (by simp [inInit])
                · rcases List.mem_cons.mp borrowed with rfl | isPair
                  · exact fineLender.dropLast positive nonempty
                  · rw [List.mem_singleton.mp isPair]
                    exact finePair

/-- The lines of `wrapWords` fit. -/
theorem textWidth_wrapWords (positive : 0 < size) (room : 0 ≤ maxWidth) (s : WinAnsiText) :
    ∀ line ∈ wrapWords face size maxWidth s, textWidth line face size ≤ maxWidth := by
  have empty : textWidth [] face size ≤ maxWidth := by simpa [textWidth, unitsOf] using room
  have run : ∀ (parts : List WinAnsiText) (w : Wrapping),
      (∀ line ∈ w.lines ++ [w.line], textWidth line face size ≤ maxWidth) →
      ∀ line ∈ (parts.foldl (Wrapping.pushFitted face size maxWidth) w).lines ++
        [(parts.foldl (Wrapping.pushFitted face size maxWidth) w).line],
        textWidth line face size ≤ maxWidth := by
    intro parts
    induction parts with
    | nil => exact fun w fits => fits
    | cons part rest ih =>
        intro w fits
        refine ih _ ?_
        unfold Wrapping.pushFitted
        dsimp only
        split
        · exact fits
        · split
          · next nextFits =>
              intro line member
              rcases List.mem_append.mp member with before | last
              · exact fits line (List.mem_append_left _ before)
              · rw [List.mem_singleton.mp last]
                exact nextFits
          · intro line member
            rcases List.mem_append.mp member with before | last
            · exact fits line before
            · rw [List.mem_singleton.mp last]
              exact textWidth_fitText positive room part
  have fits := run (s.splitOn SPACE) ⟨[], []⟩ fun line member => by
    rw [List.mem_singleton.mp member]
    exact empty
  unfold wrapWords Wrapping.done
  split
  · exact fits
  · exact fun line member => fits line (List.mem_append_left _ member)

end Text

/-- Wrapping keeps every character and every bound, splits only words wider than a line and is
greedy. -/
theorem wrapping_keeps (face : FontFace) {size maxWidth : ℚ} (positive : 0 < size)
    (room : 0 < maxWidth) (s : WinAnsiText) :
    (∃ layout paragraph : List (List Fragment),
      wrapText face size maxWidth s = layout.map lineText ∧
      wrapParagraph face size maxWidth s = paragraph.map lineText ∧
      (∀ line ∈ layout ++ paragraph, FineLine face size maxWidth line) ∧
      Fragments face size maxWidth (wordsOf s) layout.flatten ∧
      paragraph.flatten = layout.flatten ∧ Greedy face size maxWidth layout) ∧
    (wrapText face size maxWidth s).flatten.filter (· ≠ SPACE) = s.filter (· ≠ SPACE) ∧
    (wrapParagraph face size maxWidth s).flatten.filter (· ≠ SPACE) = s.filter (· ≠ SPACE) ∧
    (∀ line ∈ wrapWords face size maxWidth s, textWidth line face size ≤ maxWidth) ∧
    textWidth (fitText face size maxWidth s) face size ≤ maxWidth := by
  obtain ⟨layout, wraps, fragments, fine, greedy⟩ := wrapText_layout positive room.le s
  obtain ⟨paragraph, borrowed, same, fineParagraph⟩ := wrapParagraph_layout positive s wraps fine
  refine ⟨⟨layout, paragraph, wraps, borrowed, fun line member => ?_, fragments, same, greedy⟩,
    ?_, ?_, textWidth_wrapWords positive room.le s, textWidth_fitText positive room.le s⟩
  · rcases List.mem_append.mp member with inLayout | inParagraph
    · exact fine line inLayout
    · exact fineParagraph line inParagraph
  · rw [wraps, filter_flatten_lines fun line member => (fine line member).solid,
      fragments.flatten_eq, flatten_wordsOf]
  · rw [borrowed, filter_flatten_lines fun line member => (fineParagraph line member).solid, same,
      fragments.flatten_eq, flatten_wordsOf]

def coreSwitch : WinAnsiText := [0x43, 0x4F, 0x52, 0x45, 0x20, 0x53, 0x57]

theorem wrapping_keeps_coreSwitch :
    (wrapText .bold 9 20 coreSwitch).flatten.filter (· ≠ SPACE) = [0x43, 0x4F, 0x52, 0x45, 0x53, 0x57] ∧
      textWidth (fitText .bold 9 20 coreSwitch) .bold 9 ≤ 20 := by
  have kept := wrapping_keeps .bold (by decide : (0 : ℚ) < 9) (by decide : (0 : ℚ) < 20) coreSwitch
  exact ⟨kept.2.1, kept.2.2.2.2⟩

end ZabbixPortal.Export
