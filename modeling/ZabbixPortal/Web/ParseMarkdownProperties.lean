import ZabbixPortal.Foundation.Joined
import ZabbixPortal.Web.ParseMarkdownInline
import ZabbixPortal.Web.ParseMarkdownLines
import Mathlib.Data.List.Forall2

/-! The assistant's markdown drops no words: every line with a content is shown once and in order,
and its nodes say its content. -/

set_option autoImplicit false

namespace ZabbixPortal.Web

open Foundation

/-! ## What the lines are -/

inductive ListKind where
  | bullet
  | numbered
deriving DecidableEq

inductive Row where
  | blank
  /-- A heading without text. -/
  | silent
  | heading (content : List Char)
  | item (kind : ListKind) (content : List Char)
  /-- A line that goes on with the list item before it. -/
  | continuation (content : List Char)
  | line (content : List Char)

def Row.isShown : Row → Bool
  | .blank | .silent => false
  | _ => true

structure NoMarker (line : List Char) : Prop where
  ul : UL.exec line = none
  ol : OL.exec line = none
  heading : HEADING.exec line = none

/-- A line is what it is by its marker, and its content is the rest without outer white space. -/
inductive RowOf : List Char → Row → Prop where
  | blank {raw : List Char} : AllSpace raw → RowOf raw .blank
  | bullet {lead gap content tail : List Char} {mark : Char} :
      AllSpace lead → mark ∈ ['-', '*', '•'] → gap ≠ [] → AllSpace gap → Kept content →
      AllSpace tail → RowOf (lead ++ mark :: gap ++ content ++ tail) (.item .bullet content)
  | numbered {lead digits gap content tail : List Char} {mark : Char} :
      AllSpace lead → (∀ c ∈ digits, c.isDigit = true) → 1 ≤ digits.length → digits.length ≤ 3 →
      mark ∈ ['.', ')'] → gap ≠ [] → AllSpace gap → Kept content → AllSpace tail →
      RowOf (lead ++ digits ++ mark :: gap ++ content ++ tail) (.item .numbered content)
  | heading {lead hashes gap content space closing tail : List Char} :
      AllSpace lead → (∀ c ∈ hashes, c = '#') → 1 ≤ hashes.length → hashes.length ≤ 6 →
      gap ≠ [] → AllSpace gap → Kept content → AllSpace space → (∀ c ∈ closing, c = '#') →
      (content.getLast? = some '#' → space ≠ [] ∧ closing ≠ []) → AllSpace tail →
      RowOf (lead ++ hashes ++ gap ++ content ++ space ++ closing ++ tail) (.heading content)
  | silent {lead hashes gap closing tail : List Char} :
      AllSpace lead → (∀ c ∈ hashes, c = '#') → 1 ≤ hashes.length → hashes.length ≤ 6 →
      gap ≠ [] → AllSpace gap → (∀ c ∈ closing, c = '#') → AllSpace tail →
      RowOf (lead ++ hashes ++ gap ++ closing ++ tail) .silent
  | continuation {lead content tail : List Char} :
      AllSpace lead → 2 ≤ lead.length → Kept content → NoMarker (lead ++ content) →
      AllSpace tail → RowOf (lead ++ content ++ tail) (.continuation content)
  | line {lead content tail : List Char} :
      AllSpace lead → Kept content → NoMarker (lead ++ content) → AllSpace tail →
      RowOf (lead ++ content ++ tail) (.line content)

/-! ## What is shown -/

inductive ShownAs where
  | heading
  | item (kind : ListKind)
  | line
deriving DecidableEq

/-- What a reader sees: a heading, a paragraph line, or a list item with the lines it goes on in. -/
inductive Entry where
  | heading (content : List Char)
  | line (content : List Char)
  | item (kind : ListKind) (content : List Char) (more : List (List Char))

def Entry.rows : Entry → List Row
  | .heading content => [.heading content]
  | .line content => [.line content]
  | .item kind content more => .item kind content :: more.map .continuation

def goOn (nodes : List Inline) (content : List Char) : List Inline :=
  merge (nodes ++ [.text [' ']] ++ parseInline content true)

def Entry.shown : Entry → ShownAs × List Inline
  | .heading content => (.heading, parseInline content true)
  | .line content => (.line, parseInline content true)
  | .item kind content more => (.item kind, more.foldl goOn (parseInline content true))

def Block.shown : Block → List (ShownAs × List Inline)
  | .paragraph lines strong => lines.map ((if strong then ShownAs.heading else .line), ·)
  | .ul items => items.map (.item .bullet, ·)
  | .ol items _ => items.map (.item .numbered, ·)

def OpenList.kind : OpenList → ListKind
  | .ul _ => .bullet
  | .ol _ _ => .numbered

theorem OpenList.shown_block (list : OpenList) :
    list.block.shown = list.items.map (.item list.kind, ·) := by
  cases list <;> rfl

@[simp] theorem OpenList.items_withItems (list : OpenList) (items : List (List Inline)) :
    (list.withItems items).items = items := by
  cases list <;> rfl

@[simp] theorem OpenList.kind_withItems (list : OpenList) (items : List (List Inline)) :
    (list.withItems items).kind = list.kind := by
  cases list <;> rfl

/-! ## One line -/

section Line

variable {raw : List Char}

/-- What follows white space up to the end of a line has a content. -/
theorem kept_content (front : List Char) {gap content : List Char}
    (split : trimEnd raw = front ++ gap ++ content) (nonempty : gap ≠ []) (spaces : AllSpace gap) :
    Kept (trim content) := by
  refine kept_trim fun empty => ?_
  have filled : gap ++ content ≠ [] := by simp [nonempty]
  have last := List.getLast?_eq_some_getLast filled
  have whole : (trimEnd raw).getLast? = some ((gap ++ content).getLast filled) := by
    rw [split, List.append_assoc, List.getLast?_append_of_ne_nil _ filled, last]
  have kept := getLast?_trimEnd whole
  have space := (spaces.append (allSpace_of_trim empty)) _ (List.getLast_mem filled)
  rw [kept] at space
  cases space

/-- A line is its content after white space. -/
theorem line_split (raw : List Char) :
    ∃ lead, trimEnd raw = lead ++ trim (trimEnd raw) ∧ AllSpace lead := by
  obtain ⟨lead, back, split, leadSpaces, backSpaces⟩ := trim_split (trimEnd raw)
  cases List.eq_nil_or_concat back with
  | inl empty => exact ⟨lead, by rw [empty, List.append_nil] at split; exact split, leadSpaces⟩
  | inr more =>
      obtain ⟨init, last, rfl⟩ := more
      have whole : (trimEnd raw).getLast? = some last := by
        rw [split]
        simp
      have kept := getLast?_trimEnd whole
      have space := backSpaces last (by simp)
      rw [kept] at space
      cases space

theorem rowOf_bullet {match' : Cursor} (matched : UL.exec (trimEnd raw) = some match') :
    RowOf raw (.item .bullet (trim (captured match' 1))) := by
  obtain ⟨lead, mark, gap, split, leadSpaces, isMark, nonempty, gapSpaces⟩ := UL_reads matched
  obtain ⟨front, back, parts, frontSpaces, backSpaces⟩ := trim_split (captured match' 1)
  obtain ⟨tail, whole, tailSpaces⟩ := trimEnd_split raw
  have kept : Kept (trim (captured match' 1)) :=
    kept_content (lead ++ [mark]) (by rw [split]; simp) nonempty gapSpaces
  have shape : raw = lead ++ mark :: (gap ++ front) ++ trim (captured match' 1) ++
      (back ++ tail) := by
    rw [whole, split]
    nth_rewrite 1 [parts]
    simp
  rw [shape]
  exact .bullet leadSpaces isMark (by simp [nonempty]) (gapSpaces.append frontSpaces) kept
    (backSpaces.append tailSpaces)

theorem rowOf_numbered {match' : Cursor} (matched : OL.exec (trimEnd raw) = some match') :
    RowOf raw (.item .numbered (trim (captured match' 2))) := by
  obtain ⟨lead, mark, gap, split, leadSpaces, digits, atLeast, atMost, isMark, nonempty, gapSpaces⟩ :=
    OL_reads matched
  obtain ⟨front, back, parts, frontSpaces, backSpaces⟩ := trim_split (captured match' 2)
  obtain ⟨tail, whole, tailSpaces⟩ := trimEnd_split raw
  have kept : Kept (trim (captured match' 2)) :=
    kept_content (lead ++ captured match' 1 ++ [mark]) (by rw [split]; simp) nonempty gapSpaces
  have shape : raw = lead ++ captured match' 1 ++ mark :: (gap ++ front) ++
      trim (captured match' 2) ++ (back ++ tail) := by
    rw [whole, split]
    nth_rewrite 1 [parts]
    simp
  rw [shape]
  exact .numbered leadSpaces digits atLeast atMost isMark (by simp [nonempty])
    (gapSpaces.append frontSpaces) kept (backSpaces.append tailSpaces)

theorem rowOf_heading {match' : Cursor} (matched : HEADING.exec (trimEnd raw) = some match') :
    RowOf raw (if captured match' 1 = [] then .silent else .heading (trim (captured match' 1))) := by
  obtain ⟨lead, hashes, gap, after, split, leadSpaces, areHashes, atLeast, atMost, nonempty, gapSpaces,
    ⟨space, closing, end', afterSplit, areSpaces, areSigns, endSpaces⟩, shortest⟩ :=
    HEADING_reads matched
  obtain ⟨tail, whole, tailSpaces⟩ := trimEnd_split raw
  by_cases empty : captured match' 1 = []
  · rw [if_pos empty]
    have shape : raw = lead ++ hashes ++ (gap ++ space) ++ closing ++ (end' ++ tail) := by
      rw [whole, split, empty, afterSplit]
      simp
    rw [shape]
    exact .silent leadSpaces areHashes atLeast atMost (by simp [nonempty])
      (gapSpaces.append areSpaces) areSigns (endSpaces.append tailSpaces)
  · rw [if_neg empty]
    -- The content has no white space at its end: a shorter one would do.
    have closesOn : ∀ shorter more, captured match' 1 = shorter ++ more → more ≠ [] →
        ¬ Closes (more ++ (space ++ closing ++ end')) := by
      intro shorter more parts filled
      rw [← afterSplit]
      exact shortest shorter more parts filled
    have kept : Kept (trim (captured match' 1)) := by
      obtain ⟨init, last, parts⟩ := (List.eq_nil_or_concat _).resolve_left empty
      refine kept_trim (@trim_ne_nil _ last (by rw [parts]; simp) ?_)
      rw [← Bool.not_eq_true]
      intro isLast
      refine closesOn init [last] (by rw [parts]; simp) (by simp)
        ⟨last :: space, closing, end', by simp, ?_, areSigns, endSpaces⟩
      intro c member
      rcases List.mem_cons.mp member with same | inSpace
      · rw [same]
        exact isLast
      · exact areSpaces c inSpace
    obtain ⟨front, back, parts, frontSpaces, backSpaces⟩ := trim_split (captured match' 1)
    have shape : raw = lead ++ hashes ++ (gap ++ front) ++ trim (captured match' 1) ++
        (back ++ space) ++ closing ++ (end' ++ tail) := by
      rw [whole, split, afterSplit]
      nth_rewrite 1 [parts]
      simp
    rw [shape]
    refine .heading leadSpaces areHashes atLeast atMost (by simp [nonempty])
      (gapSpaces.append frontSpaces) kept (backSpaces.append areSpaces) areSigns (fun sign => ?_)
      (endSpaces.append tailSpaces)
    obtain ⟨init, shown⟩ := List.getLast?_eq_some_iff.mp sign
    have cut : captured match' 1 = (front ++ init) ++ ('#' :: back) := by
      rw [parts, shown]
      simp
    constructor
    · intro bare
      obtain ⟨noBack, noSpace⟩ := List.append_eq_nil_iff.mp bare
      refine closesOn _ _ cut (by simp) ⟨[], '#' :: closing, end', by simp [noBack, noSpace],
        fun c member => (List.not_mem_nil member).elim, fun c member => ?_, endSpaces⟩
      rcases List.mem_cons.mp member with same | inClosing
      · exact same
      · exact areSigns c inClosing
    · intro bare
      refine closesOn _ _ cut (by simp) ⟨[], ['#'], back ++ space ++ end', by simp [bare],
        fun c member => (List.not_mem_nil member).elim, fun c member => by simpa using member,
        (backSpaces.append areSpaces).append endSpaces⟩

theorem rowOf_line (filled : trim (trimEnd raw) ≠ []) (noMarker : NoMarker (trimEnd raw)) :
    RowOf raw (.line (trim (trimEnd raw))) := by
  obtain ⟨lead, split, leadSpaces⟩ := line_split raw
  obtain ⟨tail, whole, tailSpaces⟩ := trimEnd_split raw
  have shape : raw = lead ++ trim (trimEnd raw) ++ tail := by
    rw [← split]
    exact whole
  nth_rewrite 1 [shape]
  exact .line leadSpaces (kept_trim filled) (by rw [← split]; exact noMarker) tailSpaces

theorem rowOf_continuation (filled : trim (trimEnd raw) ≠ []) (noMarker : NoMarker (trimEnd raw))
    (indented : (INDENTED.exec raw).isSome = true) :
    RowOf raw (.continuation (trim (trimEnd raw))) := by
  obtain ⟨lead, split, leadSpaces⟩ := line_split raw
  obtain ⟨tail, whole, tailSpaces⟩ := trimEnd_split raw
  have shape : raw = lead ++ trim (trimEnd raw) ++ tail := by
    rw [← split]
    exact whole
  have kept := kept_trim filled
  have long : 2 ≤ lead.length := by
    obtain ⟨match', matched⟩ := Option.isSome_iff_exists.mp indented
    obtain ⟨first, inSpaces, atEnd⟩ := head?_run_seq matched
    obtain ⟨taken, takenSplit, takenSpaces, enough, _, _⟩ := of_mem_run_repeated inSpaces
    obtain ⟨c, rest, rests, isNot, _⟩ := (mem_run_one _ _ _).mp (List.mem_of_head? atEnd)
    have own := takeWhile_spaces rest takenSpaces (show isSpace c = false by simpa using isNot)
    obtain ⟨first', others, content⟩ := List.exists_cons_of_ne_nil filled
    have other := takeWhile_spaces (others ++ tail) leadSpaces
      (kept.head first' (by rw [content]; rfl))
    have same : raw.takeWhile isSpace = taken := by
      simp only [Cursor.atStart] at takenSplit
      rw [takenSplit, rests]
      exact own
    rw [shape, content, List.append_assoc, List.cons_append, other] at same
    rw [same]
    exact enough
  nth_rewrite 1 [shape]
  exact .continuation leadSpaces long kept (by rw [← split]; exact noMarker) tailSpaces

end Line

namespace Parsing

def shown (parsing : Parsing) : List (ShownAs × List Inline) :=
  parsing.blocks.flatMap Block.shown ++ (parsing.para.getD []).map (.line, ·) ++
    match parsing.list with
    | some list => list.items.map (.item list.kind, ·)
    | none => []

/-- At most one block is open, and a list has an item. -/
structure Sound (parsing : Parsing) : Prop where
  one : parsing.para = none ∨ parsing.list = none
  filled : ∀ list, parsing.list = some list → list.items ≠ []

theorem shown_endPara (parsing : Parsing) (sound : parsing.Sound) :
    parsing.endPara.shown = parsing.shown ∧ parsing.endPara.para = none ∧
      parsing.endPara.list = parsing.list := by
  unfold endPara
  cases open' : parsing.para with
  | none => exact ⟨rfl, open', rfl⟩
  | some lines =>
      have closed : parsing.list = none := by
        rcases sound.one with absent | absent
        · rw [open'] at absent
          cases absent
        · exact absent
      by_cases empty : lines = []
      · simp [empty, shown, open', closed]
      · simp [empty, shown, open', closed, Block.shown]

theorem shown_endList (parsing : Parsing) (sound : parsing.Sound) :
    parsing.endList.shown = parsing.shown ∧ parsing.endList.list = none ∧
      parsing.endList.para = parsing.para := by
  unfold endList
  cases open' : parsing.list with
  | none => exact ⟨rfl, open', rfl⟩
  | some list =>
      have closed : parsing.para = none := by
        rcases sound.one with absent | absent
        · exact absent
        · rw [open'] at absent
          cases absent
      have filled := sound.filled list open'
      simp [filled, shown, open', closed, OpenList.shown_block]

def Adds : Row → List (ShownAs × List Inline) → List (ShownAs × List Inline) → Prop
  | .blank, shown, next => next = shown
  | .silent, shown, next => next = shown
  | .heading content, shown, next => next = shown ++ [(.heading, parseInline content true)]
  | .item kind content, shown, next => next = shown ++ [(.item kind, parseInline content true)]
  | .line content, shown, next => next = shown ++ [(.line, parseInline content true)]
  | .continuation content, shown, next => ∃ front kind nodes,
      shown = front ++ [(.item kind, nodes)] ∧ next = front ++ [(.item kind, goOn nodes content)]

theorem sound_closed {blocks : List Block} : Sound ⟨blocks, none, none⟩ :=
  ⟨.inl rfl, fun _ impossible => by cases impossible⟩

/-- A parsing with nothing open. -/
theorem shown_closed (parsing : Parsing) (sound : parsing.Sound) :
    parsing.endPara.endList.shown = parsing.shown ∧ parsing.endPara.endList.para = none ∧
      parsing.endPara.endList.list = none := by
  obtain ⟨shown, para, list⟩ := parsing.shown_endPara sound
  have still : parsing.endPara.Sound := ⟨.inl para, fun open' same => sound.filled open' (list ▸ same)⟩
  obtain ⟨shown', list', para'⟩ := parsing.endPara.shown_endList still
  exact ⟨shown'.trans shown, para'.trans para, list'⟩

/-- An item is pushed on a list, the open one or a new one. -/
theorem shown_pushItem {parsing : Parsing} {list : OpenList} (open' : parsing.list = some list)
    (closed : parsing.para = none) (item : List Inline) :
    (parsing.pushItem item).shown = parsing.shown ++ [(.item list.kind, item)] ∧
      (parsing.pushItem item).Sound := by
  refine ⟨?_, ⟨.inl closed, fun pushed same => ?_⟩⟩
  · simp [pushItem, shown, open', closed]
  · rw [pushItem, open'] at same
    cases same
    simp

/-- The list an item goes to: the open one when it is of its kind, else a new one. -/
theorem exists_list {parsing next : Parsing} (sound : parsing.Sound) (closed : parsing.para = none)
    {kind : ListKind} {fresh : OpenList} (empty : fresh.items = []) (isKind : fresh.kind = kind)
    (choice : (next = parsing ∧ ∃ list, parsing.list = some list ∧ list.kind = kind) ∨
      next = { parsing.endList with list := some fresh }) :
    ∃ list, next.list = some list ∧ list.kind = kind ∧ next.para = none ∧
      next.shown = parsing.shown := by
  rcases choice with ⟨rfl, list, open', same⟩ | rfl
  · exact ⟨list, open', same, closed, rfl⟩
  · obtain ⟨same, ended, para⟩ := parsing.shown_endList sound
    refine ⟨fresh, rfl, isKind, para.trans closed, ?_⟩
    rw [← same]
    simp [shown, empty, ended]

theorem bulletList_choice (parsing : Parsing) :
    (parsing.bulletList = parsing ∧ ∃ list, parsing.list = some list ∧ list.kind = .bullet) ∨
      parsing.bulletList = { parsing.endList with list := some (.ul []) } := by
  unfold bulletList
  cases open' : parsing.list with
  | none => exact .inr rfl
  | some list =>
      cases list with
      | ul items => exact .inl ⟨rfl, _, rfl, rfl⟩
      | ol items start => exact .inr rfl

theorem numberedList_choice (parsing : Parsing) (number : List Char) :
    (parsing.numberedList number = parsing ∧
        ∃ list, parsing.list = some list ∧ list.kind = .numbered) ∨
      parsing.numberedList number =
        { parsing.endList with list := some (.ol [] (valueIn 10 number)) } := by
  unfold numberedList
  cases open' : parsing.list with
  | none => exact .inr rfl
  | some list =>
      cases list with
      | ul items => exact .inr rfl
      | ol items start => exact .inl ⟨rfl, _, rfl, rfl⟩

/-- An item line ends a paragraph and adds its item. -/
theorem shown_item (parsing : Parsing) (sound : parsing.Sound) {kind : ListKind} {next : Parsing}
    {fresh : OpenList} (empty : fresh.items = []) (isKind : fresh.kind = kind)
    (choice : (next = parsing.endPara ∧
        ∃ list, parsing.endPara.list = some list ∧ list.kind = kind) ∨
      next = { parsing.endPara.endList with list := some fresh }) (item : List Inline) :
    (next.pushItem item).shown = parsing.shown ++ [(.item kind, item)] ∧
      (next.pushItem item).Sound := by
  obtain ⟨shown, para, list⟩ := parsing.shown_endPara sound
  have still : parsing.endPara.Sound := ⟨.inl para, fun open' same => sound.filled open' (list ▸ same)⟩
  obtain ⟨last, open', same, closed, before⟩ := exists_list still para empty isKind choice
  have pushed := shown_pushItem open' closed item
  rwa [before, shown, same] at pushed

/-- A continued item. -/
theorem shown_continueItem {parsing : Parsing} (sound : parsing.Sound) {list : OpenList}
    (open' : parsing.list = some list) (content : List Char) :
    Adds (.continuation content) parsing.shown
        ({ parsing with list := some (continueItem list (parseInline content true)) } : Parsing).shown ∧
      ({ parsing with list := some (continueItem list (parseInline content true)) } : Parsing).Sound := by
  have closed : parsing.para = none := by
    rcases sound.one with absent | absent
    · exact absent
    · rw [open'] at absent
      cases absent
  obtain ⟨init, last, items⟩ :=
    (List.eq_nil_or_concat list.items).resolve_left (sound.filled list open')
  refine ⟨⟨parsing.blocks.flatMap Block.shown ++ init.map (.item list.kind, ·), list.kind, last,
    ?_, ?_⟩, ⟨.inl closed, fun other same => ?_⟩⟩
  · simp [shown, open', closed, items]
  · simp [shown, closed, continueItem, items, goOn]
  · cases same
    simp [continueItem]

/-- A line of a paragraph ends a list. -/
theorem shown_line (parsing : Parsing) (sound : parsing.Sound) (nodes : List Inline) :
    ({ parsing.endList with para := some (parsing.endList.para.getD [] ++ [nodes]) } :
        Parsing).shown = parsing.shown ++ [(.line, nodes)] ∧
      ({ parsing.endList with para := some (parsing.endList.para.getD [] ++ [nodes]) } :
        Parsing).Sound := by
  obtain ⟨same, closed, _⟩ := parsing.shown_endList sound
  refine ⟨?_, ⟨.inr closed, fun list open' => ?_⟩⟩
  · rw [← same]
    simp [shown, closed]
  · rw [closed] at open'
    cases open'

/-- A turn of the loop: what the line is, and what it adds. -/
theorem line_adds (parsing : Parsing) (sound : parsing.Sound) (raw : List Char) :
    ∃ row, RowOf raw row ∧ Adds row parsing.shown (parsing.line raw).shown ∧
      (parsing.line raw).Sound := by
  obtain ⟨ended, noPara, noList⟩ := parsing.shown_closed sound
  have still : parsing.endPara.endList.Sound :=
    ⟨.inl noPara, fun list open' => by rw [noList] at open'; cases open'⟩
  by_cases blank : trim (trimEnd raw) = []
  · obtain ⟨tail, whole, tailSpaces⟩ := trimEnd_split raw
    have turn : parsing.line raw = parsing.endPara.endList := by simp [line, blank]
    rw [turn]
    refine ⟨.blank, .blank ?_, ended, still⟩
    rw [whole]
    exact (allSpace_of_trim blank).append tailSpaces
  · cases ul : UL.exec (trimEnd raw) with
    | some bullet =>
        have turn : parsing.line raw =
            parsing.endPara.bulletList.pushItem (inline (captured bullet 1)) := by
          simp [line, blank, ul, not_bold_of_UL ul]
        rw [turn]
        exact ⟨_, rowOf_bullet ul, @shown_item parsing sound .bullet _ (.ul []) rfl rfl
          parsing.endPara.bulletList_choice _⟩
    | none =>
        cases ol : OL.exec (trimEnd raw) with
        | some numbered =>
            have turn : parsing.line raw = (parsing.endPara.numberedList (captured numbered 1)).pushItem
                (inline (captured numbered 2)) := by
              simp [line, blank, ul, ol]
            rw [turn]
            exact ⟨_, rowOf_numbered ol, @shown_item parsing sound .numbered _
              (.ol [] (valueIn 10 (captured numbered 1))) rfl rfl
              (parsing.endPara.numberedList_choice (captured numbered 1)) _⟩
        | none =>
            cases heading : HEADING.exec (trimEnd raw) with
            | some found =>
                refine ⟨_, rowOf_heading heading, ?_⟩
                by_cases empty : captured found 1 = []
                · have turn : parsing.line raw = parsing.endPara.endList := by
                    simp [line, blank, ul, ol, heading, empty]
                  rw [turn, if_pos empty]
                  exact ⟨ended, still⟩
                · have turn : parsing.line raw = { parsing.endPara.endList with
                      blocks := parsing.endPara.endList.blocks ++
                        [.paragraph [inline (captured found 1)] true] } := by
                    simp [line, blank, ul, ol, heading, empty]
                  rw [turn, if_neg empty]
                  refine ⟨?_, ⟨.inl noPara, fun list open' => by rw [noList] at open'; cases open'⟩⟩
                  rw [Adds, ← ended]
                  simp [shown, noPara, noList, Block.shown, inline]
            | none =>
                have noMarker : NoMarker (trimEnd raw) := ⟨ul, ol, heading⟩
                by_cases goesOn : (∃ list, parsing.list = some list) ∧
                    (INDENTED.exec raw).isSome = true
                · obtain ⟨⟨list, open'⟩, indented⟩ := goesOn
                  have turn : parsing.line raw = { parsing with
                      list := some (continueItem list (inline (trimEnd raw))) } := by
                    simp [line, blank, ul, ol, heading, open', indented]
                  rw [turn]
                  exact ⟨_, rowOf_continuation blank noMarker indented,
                    shown_continueItem sound open' _⟩
                · have turn : parsing.line raw = { parsing.endList with
                      para := some (parsing.endList.para.getD [] ++ [inline (trimEnd raw)]) } := by
                    cases open' : parsing.list with
                    | none => simp [line, blank, ul, ol, heading, open']
                    | some list =>
                        have flush : (INDENTED.exec raw).isSome = false := by
                          rw [← Bool.not_eq_true]
                          exact fun indented => goesOn ⟨⟨list, open'⟩, indented⟩
                        simp [line, blank, ul, ol, heading, open', flush]
                  rw [turn]
                  exact ⟨_, rowOf_line blank noMarker, parsing.shown_line sound _⟩

end Parsing

/-! ## All lines -/

def linesOf (text : List Char) : List (List Char) := (newlines text).splitOn '\n'

theorem filter_isShown {row : Row} (isShown : row.isShown = true) :
    [row].filter Row.isShown = [row] := by
  simp [isShown]

/-- What a line adds to the entries: an entry of its own, or one more line of the last item. -/
theorem exists_entries {row : Row} {entries : List Entry} {next : List (ShownAs × List Inline)}
    (adds : Parsing.Adds row (entries.map Entry.shown) next) :
    ∃ entries' : List Entry, next = entries'.map Entry.shown ∧
      entries'.flatMap Entry.rows = entries.flatMap Entry.rows ++ [row].filter Row.isShown := by
  cases row with
  | blank => exact ⟨entries, adds, by simp [Row.isShown]⟩
  | silent => exact ⟨entries, adds, by simp [Row.isShown]⟩
  | heading content =>
      exact ⟨entries ++ [.heading content], by rw [adds]; simp [Entry.shown],
        by rw [filter_isShown rfl]; simp [Entry.rows]⟩
  | item kind content =>
      exact ⟨entries ++ [.item kind content []], by rw [adds]; simp [Entry.shown],
        by rw [filter_isShown rfl]; simp [Entry.rows]⟩
  | line content =>
      exact ⟨entries ++ [.line content], by rw [adds]; simp [Entry.shown],
        by rw [filter_isShown rfl]; simp [Entry.rows]⟩
  | continuation content =>
      obtain ⟨front, kind, nodes, before, rfl⟩ := adds
      cases List.eq_nil_or_concat entries with
      | inl empty => simp [empty] at before
      | inr more =>
          obtain ⟨init, last, split⟩ := more
          rw [List.concat_eq_append] at split
          subst split
          rw [List.map_append] at before
          obtain ⟨same, own⟩ := List.append_inj' before rfl
          have shown := (List.cons.inj own).1
          cases last with
          | heading text => cases shown
          | line text => cases shown
          | item listKind text others =>
              cases shown
              refine ⟨init ++ [.item kind text (others ++ [content])], ?_, ?_⟩
              · simp [← same, Entry.shown]
              · rw [filter_isShown rfl]
                simp [Entry.rows]

/-- By induction on the lines: what is shown are the entries of the lines read so far. -/
theorem shown_lines (lines : List (List Char)) :
    ∃ (rows : List Row) (entries : List Entry), List.Forall₂ RowOf lines rows ∧
      entries.flatMap Entry.rows = rows.filter Row.isShown ∧
      (lines.foldl Parsing.line .start).shown = entries.map Entry.shown ∧
      (lines.foldl Parsing.line .start).Sound := by
  induction lines using List.reverseRecOn with
  | nil => exact ⟨[], [], .nil, rfl, rfl, Parsing.sound_closed⟩
  | append_singleton lines raw ih =>
      obtain ⟨rows, entries, each, same, shown, sound⟩ := ih
      obtain ⟨row, own, adds, still⟩ := Parsing.line_adds _ sound raw
      rw [shown] at adds
      obtain ⟨entries', next, rows'⟩ := exists_entries adds
      rw [List.foldl_append]
      exact ⟨rows ++ [row], entries', List.rel_append each (.cons own .nil),
        by rw [rows', same, List.filter_append], next, still⟩

def Entry.contents : Entry → List (List Char)
  | .heading content => [content]
  | .line content => [content]
  | .item _ content more => content :: more

structure SaysAll (contents : List (List Char)) (nodes : List Inline) : Prop where
  /-- With the markers written back the nodes are the contents, with a space between them. -/
  written : writeAll nodes = [' '].intercalate contents
  flat : ∀ children, .bold children ∈ nodes → ∀ inner, .bold inner ∉ children
  codes : ∀ code ∈ codesIn nodes, code ≠ [] ∧ '\x60' ∉ code
  /-- The nodes of each content, as its markers are closed, with adjacent texts joined. -/
  marked : ∃ parts, List.Forall₂ (Marked true) contents parts ∧
    nodes = merge ([Inline.text [' ']].intercalate parts)

theorem writeAll_intercalate (separator : List Char) (parts : List (List Inline)) :
    writeAll ([Inline.text separator].intercalate parts) =
      separator.intercalate (parts.map writeAll) := by
  induction parts with
  | nil => rfl
  | cons part rest ih =>
      cases rest with
      | nil => simp
      | cons second more =>
          rw [List.intercalate_cons_cons, List.map_cons, List.map_cons, List.intercalate_cons_cons,
            ← List.map_cons, ← ih]
          simp [writeAll, Inline.write]

/-- All of it follows from the markers of each content. -/
theorem saysAll_of_marked {contents : List (List Char)} {parts : List (List Inline)}
    (each : List.Forall₂ (Marked true) contents parts) :
    SaysAll contents (merge ([Inline.text [' ']].intercalate parts)) := by
  have own : ∀ part ∈ parts, ∃ content, Marked true content part := by
    induction each with
    | nil => simp
    | cons marked _ ih =>
        intro part member
        rcases List.mem_cons.mp member with rfl | later
        · exact ⟨_, marked⟩
        · exact ih part later
  have contained : ∀ node ∈ [Inline.text [' ']].intercalate parts,
      node = .text [' '] ∨ ∃ part ∈ parts, node ∈ part := fun node member => mem_intercalate member
  refine ⟨?_, fun children member => ?_, fun code member => ?_, parts, each, rfl⟩
  · rw [writeAll_merge, writeAll_intercalate]
    congr 1
    clear own contained
    induction each with
    | nil => rfl
    | cons marked _ ih => rw [List.map_cons, ih, marked.writeAll_eq]
  · rcases contained _ (mem_of_mem_merge member) with separator | ⟨part, inParts, inPart⟩
    · cases separator
    · obtain ⟨content, marked⟩ := own part inParts
      exact marked.flat children inPart
  · rw [codesIn_merge, mem_codesIn] at member
    obtain ⟨node, inNodes, inCodes⟩ := member
    rcases contained node inNodes with separator | ⟨part, inParts, inPart⟩
    · rw [separator] at inCodes
      cases inCodes
    · obtain ⟨content, marked⟩ := own part inParts
      exact marked.codes code (mem_codesIn.mpr ⟨node, inPart, inCodes⟩)

/-- By induction on its lines: the nodes of an item. -/
theorem exists_parts (content : List Char) (more : List (List Char)) :
    ∃ parts, List.Forall₂ (Marked true) (content :: more) parts ∧
      more.foldl goOn (parseInline content true) =
        merge ([Inline.text [' ']].intercalate parts) := by
  have nodesOf : ∀ text, ∃ part, Marked true text part ∧ parseInline text true = merge part :=
    fun text => exists_marked true [] text
  induction more using List.reverseRecOn with
  | nil =>
      obtain ⟨part, marked, same⟩ := nodesOf content
      exact ⟨[part], .cons marked .nil, by simpa using same⟩
  | append_singleton more last ih =>
      obtain ⟨parts, each, same⟩ := ih
      obtain ⟨part, marked, own⟩ := nodesOf last
      have nonempty : parts ≠ [] := by
        rintro rfl
        cases each
      refine ⟨parts ++ [part], ?_, ?_⟩
      · rw [← List.cons_append]
        exact List.rel_append each (.cons marked .nil)
      · rw [List.foldl_append, same, List.foldl_cons, List.foldl_nil, goOn, own,
          intercalate_concat nonempty]
        have space : merge (merge ([Inline.text [' ']].intercalate parts) ++ [.text [' ']] ++ merge part) =
            merge ([Inline.text [' ']].intercalate parts ++ [.text [' ']] ++ part) := by
          rw [merge_append_merge, List.append_assoc, merge_merge_append, List.append_assoc]
        rw [space]
        simp

theorem Entry.saysAll (entry : Entry) : SaysAll entry.contents entry.shown.2 := by
  cases entry with
  | heading content =>
      obtain ⟨parts, each, same⟩ := exists_parts content []
      have said := saysAll_of_marked each
      rwa [← same] at said
  | line content =>
      obtain ⟨parts, each, same⟩ := exists_parts content []
      have said := saysAll_of_marked each
      rwa [← same] at said
  | item kind content more =>
      obtain ⟨parts, each, same⟩ := exists_parts content more
      have said := saysAll_of_marked each
      rwa [← same] at said

/-- The markdown of an answer drops no words: each line with a content is one entry's, once and in
order, and the blocks show the entries with their contents. -/
theorem parseMarkdown_shows (text : List Char) :
    ∃ (rows : List Row) (entries : List Entry), List.Forall₂ RowOf (linesOf text) rows ∧
      entries.flatMap Entry.rows = rows.filter Row.isShown ∧
      (parseMarkdown text).flatMap Block.shown = entries.map Entry.shown ∧
      ∀ entry ∈ entries, SaysAll entry.contents entry.shown.2 := by
  obtain ⟨rows, entries, each, same, shown, sound⟩ := shown_lines (linesOf text)
  refine ⟨rows, entries, each, same, ?_, fun entry _ => entry.saysAll⟩
  obtain ⟨ended, noPara, noList⟩ := Parsing.shown_closed _ sound
  rw [← shown, ← ended, Parsing.shown, noPara, noList]
  simp [parseMarkdown, linesOf]

end ZabbixPortal.Web
