import ZabbixPortal.Export.ColumnWidths
import ZabbixPortal.Export.PdfStrings
import ZabbixPortal.Export.WorkbookFigures
import ZabbixPortal.Foundation.Breaks
import ZabbixPortal.Foundation.Loops
import Mathlib.Data.Rat.Floor

/-! The layout of the PDF report: what goes on which page, and how far down. All lengths are exact;
colours and what stands beside what are left out. -/

set_option autoImplicit false

namespace ZabbixPortal.Export.Pdf

open Foundation

def MARGIN : ℚ := 36
def RIGHT : ℚ := 842 - MARGIN
def FIRST_TOP : ℚ := 72 + 18
def NEXT_TOP : ℚ := 52 + 16
def CONTENT_BOTTOM : ℚ := 546 - 12
def SECTION_GAP : ℚ := 18

def PAD : ℚ := 6
def ROW_H : ℚ := 16
def BODY_SIZE : ℚ := 8.5
def PILL_SIZE : ℚ := 7.5
def PILL_PAD : ℚ := 12
def KPI_MAX_PER_ROW : Nat := 6
def MAX_FLOOR : ℚ := PRINT_W / 4
def MAX_WANT : ℚ := PRINT_W * 0.38

def NOTE_W : ℚ := 640
def NOTE_HEAD : ℚ := 20
def NOTE_LINE : ℚ := 11.5
def PARA_GAP : ℚ := 4
def NOTE_GAP : ℚ := 8

section Report

structure Kpi where
  label : List UInt16
  value : List UInt16
  detail : Option (List UInt16)
  tone : Tone

structure Bar where
  label : List UInt16
  value : Option ℚ
  tone : Tone
  text : List UInt16
deriving DecidableEq, Repr

structure BarChart where
  title : List UInt16
  caption : Option (List UInt16)
  bars : List Bar

structure Column where
  header : List UInt16
  kind : ColumnKind
  /-- `none` for one that is not finite -/
  weight : Option ℚ

structure Cell where
  text : List UInt16
  tone : Option Tone
deriving DecidableEq, Repr

structure Table where
  title : List UInt16
  caption : Option (List UInt16)
  columns : List Column
  rows : List (List Cell)
  footer : Option (List Cell)
  empty : Option (List UInt16)

structure Note where
  heading : List UInt16
  lines : List (List UInt16)

/-- A row of a table as it is drawn, a body row or the footer. -/
structure BodyRow where
  cells : List Cell
  footer : Bool
deriving DecidableEq, Repr

def Table.units (t : Table) : List BodyRow :=
  t.rows.map (⟨·, false⟩) ++ t.footer.toList.map (⟨·, true⟩)

def ascii (s : String) : List UInt16 := s.toList.map fun c => UInt16.ofNat c.toNat

end Report

/-- At most `max` wrapped lines; what does not fit is folded into the last one and cut. -/
def wrapMax (wrap : FontFace → ℚ → ℚ → WinAnsiText → List WinAnsiText) (face : FontFace)
    (size width : ℚ) (max : Nat) (s : WinAnsiText) : List WinAnsiText :=
  let lines := wrap face size width s
  if lines.length ≤ max then lines
  else lines.take (max - 1) ++ [fitText face size width (joinWords (lines.drop (max - 1)))]

variable (normalize : List UInt16 → List Nat)

section Columns

def bodyFace (cell : Cell) (footer : Bool) : FontFace :=
  if footer || cell.tone = Option.some .bad then .bold else .regular

def columnCells (t : Table) (i : Nat) : List (Cell × Bool) :=
  t.units.filterMap fun unit => unit.cells[i]?.map fun cell => (cell, unit.footer)

def columnFloor (col : Column) (cells : List (Cell × Bool)) : ℚ :=
  let headerWords := ((toWinAnsi normalize col.header).splitOn SPACE).map fun w =>
    textWidth w .bold BODY_SIZE
  let figures := if col.kind = .text then [] else
    (cells.filter fun cell => cell.1.text ≠ []).map fun cell =>
      let label := toWinAnsi normalize cell.1.text
      if col.kind = .status then textWidth label .bold PILL_SIZE + PILL_PAD
      else textWidth label (bodyFace cell.1 cell.2) BODY_SIZE
  min (⌈(headerWords ++ figures).foldl max 0⌉ + 2 * PAD + 1) MAX_FLOOR

def columnWant (col : Column) (cells : List (Cell × Bool)) : Option ℚ :=
  if col.kind = .text then
    let widths := (cells.filter fun cell => cell.1.text ≠ []).map fun cell =>
      textWidth (toWinAnsi normalize cell.1.text) (bodyFace cell.1 cell.2) BODY_SIZE
    some (min (⌈widths.foldl max 0⌉ + 2 * PAD + 1) MAX_WANT)
  else none

/-- The narrowest a header may get without wrapping to more lines than it does at width `w`. -/
def headerKeep (header : List UInt16) (w floor : ℚ) : ℚ :=
  let lines := fun width : ℚ =>
    (wrapWords .bold BODY_SIZE (width - 2 * PAD) (toWinAnsi normalize header)).length
  if w ≤ floor ∨ lines floor ≤ lines w then floor
  else
    let halve := fun bounds : ℚ × ℚ =>
      let mid := (bounds.1 + bounds.2) / 2
      if lines mid ≤ lines w then (bounds.1, mid) else (mid, bounds.2)
    (halve^[24] (floor, w)).2

structure Box where
  x : ℚ
  w : ℚ

def boxesFrom (x : ℚ) : List ℚ → List Box
  | [] => []
  | [_] => [⟨x, RIGHT - x⟩]
  | w :: rest => ⟨x, w⟩ :: boxesFrom (x + w) rest

def columnBoxes (t : Table) : List Box :=
  let column := fun i : Fin t.columns.length => t.columns.get i
  let floors := fun i => columnFloor normalize (column i) (columnCells t i)
  let wants := fun i => columnWant normalize (column i) (columnCells t i)
  let weights := fun i => max 0 ((column i).weight.getD 0)
  let shared := shareWidths weights floors PRINT_W
  let keeps := fun i => max (max (floors i) ((wants i).getD 0))
    (headerKeep normalize (column i).header (shared i) (floors i))
  boxesFrom MARGIN (List.ofFn (fitToContent shared keeps wants))

end Columns

section Pages

structure Card where
  label : List WinAnsiText
  value : WinAnsiText
  size : ℚ
  detail : List WinAnsiText
  tone : Tone
deriving DecidableEq, Repr

inductive Item
  | card (card : Card)
  | title (text : WinAnsiText)
  | caption (line : WinAnsiText)
  | bar (bar : Bar)
  | empty (text : WinAnsiText)
  | header (lines : List (List WinAnsiText))
  | row (index : Nat) (unit : BodyRow)
  | heading (text : WinAnsiText)
  | line (index : Nat) (text : WinAnsiText)
deriving DecidableEq, Repr

/-- Something drawn: its page, the first being 1, where it starts and how high it is. -/
structure Drawn where
  item : Item
  page : Nat
  top : ℚ
  height : ℚ
deriving DecidableEq, Repr

structure Mark where
  title : List UInt16
  page : Nat
  top : ℚ
deriving DecidableEq, Repr

structure Layout where
  pages : Nat
  y : ℚ
  marks : List Mark
  drawn : List Drawn
deriving DecidableEq, Repr

/-- Where the content of a page starts; the first page has the band on it. -/
def topOf (page : Nat) : ℚ := if page = 1 then FIRST_TOP else NEXT_TOP

namespace Layout

def start : Layout := ⟨1, FIRST_TOP, [], []⟩

variable (l : Layout)

def pageTop : ℚ := topOf l.pages

def room : ℚ := CONTENT_BOTTOM - l.y

def newPage : Layout := { l with pages := l.pages + 1, y := NEXT_TOP }

/-- Starts a fresh page unless `height` fits; a page that is already empty is never skipped. -/
def ensure (height : ℚ) : Layout :=
  if height > l.room ∧ l.y > l.pageTop then l.newPage else l

def mark (title : List UInt16) : Layout :=
  { l with marks := l.marks ++ [⟨title, l.pages - 1, l.y⟩] }

def put (item : Item) (height : ℚ) : Layout :=
  { l with drawn := l.drawn ++ [⟨item, l.pages, l.y, height⟩] }

def down (d : ℚ) : Layout := { l with y := l.y + d }

def draw (item : Item) (height : ℚ) : Layout := (l.put item height).down height

end Layout

def Layout.drawAll {α : Type} (item : α → Item) (height : ℚ) (l : Layout) (items : List α) : Layout :=
  items.foldl (fun l a => l.draw (item a) height) l

def Layout.heading (l : Layout) (title : WinAnsiText) (caption : List WinAnsiText)
    (continued : Bool) : Layout :=
  if continued then l.draw (.title (fitText .bold 10 PRINT_W title)) 20
  else
    ((l.draw (.title (fitText .bold 12 (PRINT_W - 9) title)) 18).drawAll .caption 11.5 caption).down 6

def headingHeight (captionLines : Nat) (continued : Bool) : ℚ :=
  if continued then 20 else 18 + captionLines * 11.5 + 6

def wrapTwo (width : ℚ) (s : Option (List UInt16)) : List WinAnsiText :=
  match s with
  | none => []
  | some s => if s = [] then [] else wrapMax wrapText .regular BODY_SIZE width 2 (toWinAnsi normalize s)

def captionOf (caption : Option (List UInt16)) : List WinAnsiText :=
  wrapTwo normalize (PRINT_W - 9) caption

def continuedTitle (title : List UInt16) : WinAnsiText :=
  toWinAnsi normalize (title ++ ascii " (continued)")

end Pages

section Cards

def cardOf (inner : ℚ) (k : Kpi) : Card :=
  let value := toWinAnsi normalize k.value
  let size := (([22, 20, 18, 16, 14, 12] : List ℚ).find? fun s => textWidth value .bold s ≤ inner).getD 12
  { tone := k.tone
    label := wrapMax wrapText .regular BODY_SIZE inner 2 (toWinAnsi normalize k.label)
    value := fitText .bold size inner value
    size
    detail := wrapTwo normalize inner k.detail }

def Layout.kpiRow (l : Layout) (row : List Kpi) : Layout :=
  let width := (PRINT_W - 10 * ((row.length : ℚ) - 1)) / row.length
  let cards := row.map (cardOf normalize (width - 4 - 10 - 8))
  let labelLines : Nat := (cards.map fun c => c.label.length).foldl max 0
  let detailLines : Nat := (cards.map fun c => c.detail.length).foldl max 0
  let height : ℚ := 10 + labelLines * 10.5 + 4 + 24 +
    (if detailLines = 0 then 0 else 3 + (detailLines : ℚ) * 10.5) + 10
  -- the cards of a row stand side by side
  (cards.foldl (fun l card => l.put (.card card) height) (l.ensure height)).down (height + SECTION_GAP)

def Layout.kpis (l : Layout) (list : List Kpi) : Layout :=
  if list = [] then l
  else (l.kpiRow normalize (list.take KPI_MAX_PER_ROW)).kpis (list.drop KPI_MAX_PER_ROW)
termination_by list.length
decreasing_by
  rw [List.length_drop]
  have := List.length_pos_iff.mpr ‹_›
  unfold KPI_MAX_PER_ROW
  omega

end Cards

section Charts

structure BarStep where
  pitch : ℚ
  bar : ℚ
  size : ℚ

def barSteps : List BarStep :=
  [⟨17, 10.5, 8.5⟩, ⟨13.5, 8.5, 8⟩, ⟨11.5, 7.5, 7.5⟩, ⟨10, 6.5, 7⟩, ⟨9, 5.5, 6.5⟩]

def fresh : ℚ := CONTENT_BOTTOM - NEXT_TOP

def fixed (captionLines : Nat) (first : Bool) : ℚ :=
  headingHeight (if first then captionLines else 0) (!first) + 14 + 16

def stepOf (captionLines bars : Nat) : BarStep :=
  (barSteps.find? fun s => fixed captionLines true + bars * s.pitch ≤ fresh).getD ⟨9, 5.5, 6.5⟩

/-- How many bars go into a room: `Math.max(0, Math.floor(…))`. -/
def capacity (step : BarStep) (captionLines : Nat) (room : ℚ) (first : Bool) : Nat :=
  ⌊(room - fixed captionLines first) / step.pitch⌋₊

def Layout.chartSlice (l : Layout) (bars : List Bar) (step : BarStep) : Layout :=
  ((l.down 14).drawAll .bar step.pitch bars).down 16

structure ChartState where
  layout : Layout
  rest : List Bar
  first : Bool

def chartStep (chart : BarChart) (s : ChartState) : Option ChartState :=
  if s.rest = [] then none
  else
    let caption := captionOf normalize chart.caption
    let step := stepOf caption.length chart.bars.length
    let needed := fixed caption.length s.first + s.rest.length * step.pitch
    let l := if needed > s.layout.room ∧
        (needed ≤ fresh ∨ capacity step caption.length s.layout.room s.first < 6) ∧
        s.layout.y > s.layout.pageTop then s.layout.newPage else s.layout
    let take := min s.rest.length (capacity step caption.length l.room s.first)
    let l := if s.first then l.mark chart.title else l
    let l := l.heading (if s.first then toWinAnsi normalize chart.title
      else continuedTitle normalize chart.title) (if s.first then caption else []) (!s.first)
    let l := l.chartSlice (s.rest.take take) step
    let rest := s.rest.drop take
    some ⟨if rest = [] then l else l.newPage, rest, false⟩

/-- A chart, if there is one with bars; `none` where the loop does not end. -/
def Layout.chart (l : Layout) (chart : Option BarChart) : Option Layout :=
  match chart with
  | none => some l
  | some chart =>
      if chart.bars = [] then some l
      else
        (runLoop (chartStep normalize chart) (chart.bars.length + 1) ⟨l, chart.bars, true⟩).map fun s =>
          s.layout.down 10

end Charts

section Tables

def headersOf (t : Table) : List (List WinAnsiText) :=
  List.zipWith (fun col (box : Box) =>
    wrapMax wrapWords .bold BODY_SIZE (box.w - 2 * PAD) 2 (toWinAnsi normalize col.header))
    t.columns (columnBoxes normalize t)

def headerHeight (headers : List (List WinAnsiText)) : ℚ :=
  if (headers.map List.length).foldl max 1 > 1 then 28 else 20

def Layout.bodyRows (l : Layout) (index : Nat) (units : List BodyRow) : Layout :=
  l.drawAll (fun unit => .row unit.2 unit.1) ROW_H (units.zipIdx index)

/-- How many of the rows left go into a room: never all but one. -/
def fitOf (left : Nat) (room : ℚ) : Nat :=
  let fit := min left ⌊room / ROW_H⌋₊
  if fit < left ∧ left - fit = 1 ∧ fit > 2 then fit - 1 else fit

structure TableState where
  layout : Layout
  i : Nat

def tableStep (t : Table) (s : TableState) : Option TableState :=
  if s.i < t.units.length then
    let l := if s.i > 0 then s.layout.newPage.heading (continuedTitle normalize t.title) [] true
      else s.layout
    let l := l.draw (.header (headersOf normalize t)) (headerHeight (headersOf normalize t))
    let fit := fitOf (t.units.length - s.i) l.room
    some ⟨l.bodyRows s.i ((t.units.drop s.i).take fit), s.i + fit⟩
  else none

def firstRowsOf (units : Nat) : Nat :=
  if units - min units 2 = 1 then units else min units 2

/-- A table; the error is thrown, and `none` is where the loop does not end. -/
def Layout.table (l : Layout) (t : Table) : Option (Except (List UInt16) Layout) :=
  if t.columns = [] then some (.error (ascii "Table \"" ++ t.title ++ ascii "\" has no columns."))
  else
    let caption := captionOf normalize t.caption
    let title := toWinAnsi normalize t.title
    if t.rows = [] then
      let l := (l.ensure (headingHeight caption.length false + 28)).mark t.title
      let l := l.heading title caption false
      let empty := fitText .regular BODY_SIZE (PRINT_W - 2 * PAD - 8)
        (toWinAnsi normalize (t.empty.getD (ascii "Nothing to list.")))
      some (.ok ((l.put (.empty empty) 24).down (24 + SECTION_GAP)))
    else
      let headerH := headerHeight (headersOf normalize t)
      let l := l.ensure (headingHeight caption.length false + headerH +
        firstRowsOf t.units.length * ROW_H)
      let l := (l.mark t.title).heading title caption false
      (runLoop (tableStep normalize t) (t.units.length + 1) ⟨l, 0⟩).map fun s =>
        .ok (s.layout.down SECTION_GAP)

end Tables

section Notes

def paragraphsOf (note : Note) : List (List WinAnsiText) :=
  (note.lines.map fun line => wrapParagraph .regular BODY_SIZE NOTE_W (toWinAnsi normalize line)).filter
    fun p => p ≠ []

section Lines

variable (paragraphs : List (List WinAnsiText))

def total : Nat := paragraphs.flatten.length

def starts (j : Nat) : Nat := ((lineBounds 0 (paragraphs.map List.length))[j]?.getD (0, 0)).1

def ends (j : Nat) : Nat := ((lineBounds 0 (paragraphs.map List.length))[j]?.getD (0, 0)).2

def endsBefore : Nat → Nat
  | 0 => 0
  | j + 1 => endsBefore j + if ends paragraphs j = j + 1 then 1 else 0

/-- Height of lines: a gap after each paragraph that ends inside, none after the last line. -/
def span (first last : Nat) : ℚ :=
  if last ≤ first then 0
  else ((last : ℚ) - first) * NOTE_LINE +
    ((endsBefore paragraphs (last - 1) : ℚ) - endsBefore paragraphs first) * PARA_GAP

def canBreak (first last : Nat) : Bool :=
  decide (last = total paragraphs ∨ (first + 2 ≤ last ∧ last + 2 ≤ total paragraphs ∧
    CleanBreak (starts paragraphs) (ends paragraphs) last))

def Layout.noteLines (l : Layout) (j : Nat) : Nat → Layout
  | 0 => l
  | count + 1 =>
      ((l.draw (.line j (paragraphs.flatten[j]?.getD [])) NOTE_LINE).down
        (if ends paragraphs j = j + 1 then PARA_GAP else 0)).noteLines (j + 1) count

end Lines

structure NoteState where
  layout : Layout
  /-- The lines drawn already. -/
  pos : Nat
  first : Bool

def noteStep (note : Note) (s : NoteState) : Option NoteState :=
  let paragraphs := paragraphsOf normalize note
  if s.first ∨ s.pos < total paragraphs then
    let lead := if s.first then NOTE_HEAD else 0
    let fitting := bisect (fun mid => decide (lead + span paragraphs s.pos mid ≤ s.layout.room)) s.pos
      (total paragraphs)
    let last := backUp (canBreak paragraphs s.pos) s.pos fitting
    if last = s.pos ∧ s.pos < total paragraphs ∧ s.layout.y > s.layout.pageTop then
      some { s with layout := s.layout.newPage }
    else
      let last := if last = s.pos ∧ s.pos < total paragraphs then s.pos + 1 else last
      let l := if s.first then
          (s.layout.mark note.heading).draw
            (.heading (fitText .bold 10 PRINT_W (toWinAnsi normalize note.heading))) NOTE_HEAD
        else s.layout
      let l := l.noteLines paragraphs s.pos (last - s.pos)
      some ⟨if last < total paragraphs then l.newPage else l, last, false⟩
  else none

def wholeHeight (note : Note) : ℚ :=
  NOTE_HEAD + span (paragraphsOf normalize note) 0 (total (paragraphsOf normalize note))

def Layout.note (l : Layout) (note : Note) : Option Layout :=
  let whole := wholeHeight normalize note
  let l := if whole > l.room ∧ whole ≤ CONTENT_BOTTOM - NEXT_TOP ∧ l.y > l.pageTop then l.newPage else l
  (runLoop (noteStep normalize note) (2 * total (paragraphsOf normalize note) + 4) ⟨l, 0, true⟩).map
    fun s => s.layout.down NOTE_GAP

/-- Notes one after the other; `none` where a loop does not end. -/
def Layout.notes (l : Layout) : List Note → Option Layout
  | [] => some l
  | note :: rest => (l.note normalize note).bind fun l => l.notes rest

end Notes

end ZabbixPortal.Export.Pdf
