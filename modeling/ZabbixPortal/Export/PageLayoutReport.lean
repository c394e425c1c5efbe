import ZabbixPortal.Export.PageLayoutNotes

/-! Every layout a report can reach, and what tables, charts and notes add to it. -/

set_option autoImplicit false

namespace ZabbixPortal.Export.Pdf

open Foundation

variable (normalize : List UInt16 → List Nat)

/-- The layouts of reports: cards, charts, tables and notes in any order. -/
inductive LaidOut : Layout → Prop where
  | start : LaidOut .start
  | kpis {l : Layout} (list : List Kpi) : LaidOut l → LaidOut (l.kpis normalize list)
  | chart {l m : Layout} (chart : Option BarChart) :
      LaidOut l → l.chart normalize chart = some m → LaidOut m
  | table {l m : Layout} (t : Table) : LaidOut l → l.table normalize t = some (.ok m) → LaidOut m
  | notes {l m : Layout} (list : List Note) :
      LaidOut l → l.notes normalize list = some m → LaidOut m

variable {normalize}

theorem LaidOut.sound {l : Layout} (laidOut : LaidOut normalize l) : l.Sound := by
  induction laidOut with
  | start => exact .start
  | kpis list _ sound => exact sound.kpis normalize list
  | chart chart _ result sound =>
      obtain ⟨m, new, drawn, drew, _⟩ := sound.chart normalize chart
      rw [result, Option.some.injEq] at drawn
      rw [drawn]
      exact drew.sound
  | @table l m t _ result sound =>
      by_cases columns : t.columns = []
      · rw [Layout.table, if_pos columns] at result
        cases result
      · obtain ⟨k, new, drawn, drew, _⟩ := sound.table normalize columns
        rw [result, Option.some.injEq, Except.ok.injEq] at drawn
        rw [drawn]
        exact drew.sound
  | notes list _ result sound =>
      obtain ⟨m, sections, drawn, drew, _⟩ := sound.notes normalize list
      rw [result, Option.some.injEq] at drawn
      rw [drawn]
      exact drew.sound

/-- Report pages lose no row and overflow no page: behind any content, the loops of tables, charts and
notes end, and every row, bar and line is drawn once and in order, between the content top and the
content bottom of its page, rows and lines never alone on a page. -/
theorem report_losesNothing {l : Layout} (laidOut : LaidOut normalize l) :
    (∀ t : Table, t.columns ≠ [] → ∃ m new, l.table normalize t = some (.ok m) ∧ Drew l m new ∧
        new.filterMap Drawn.row = (drawnUnits t).zipIdx ∧
        (2 ≤ t.units.length → NoneAlone Drawn.row new)) ∧
      (∀ chart : Option BarChart, ∃ m new, l.chart normalize chart = some m ∧ Drew l m new ∧
        new.filterMap Drawn.bar = (chart.map BarChart.bars).getD []) ∧
      ∀ list : List Note, ∃ (m : Layout) (sections : List (List Drawn)),
        l.notes normalize list = some m ∧ Drew l m sections.flatten ∧
        sections.length = list.length ∧
        ∀ (i : Nat) (note : Note) (new : List Drawn), list[i]? = some note → sections[i]? = some new →
          SectionLaidOut normalize (l.drawn ++ (sections.take i).flatten) note new :=
  ⟨fun _ columns => laidOut.sound.table normalize columns, laidOut.sound.chart normalize,
    laidOut.sound.notes normalize⟩

/-- Text that is in normal form C already. -/
def codeUnits (s : List UInt16) : List Nat := s.map UInt16.toNat

def twoLinks : BarChart where
  title := ascii "Availability"
  caption := none
  bars := [⟨ascii "FG-60", some 99.5, .good, ascii "99.50%"⟩, ⟨ascii "FG-80", none, .muted, ascii "No data"⟩]

def uptime : Kpi := ⟨ascii "Availability", ascii "99.5%", none, .good⟩

def sixtyLinks : Table where
  title := ascii "Links"
  caption := none
  columns := [⟨ascii "Link", .text, some 1⟩]
  rows := List.replicate 60 [⟨ascii "FG-60", none⟩]
  footer := some [⟨ascii "All", none⟩]
  empty := none

def remarks : Note where
  heading := ascii "Remarks"
  lines := List.replicate 60 (ascii "FG-60 was down.")

def monthly : Option Layout := do
  let charted ← (Layout.start.kpis codeUnits [uptime]).chart codeUnits (some twoLinks)
  let .ok tabled ← charted.table codeUnits sixtyLinks | none
  tabled.notes codeUnits [remarks]

/-- It takes five pages. -/
theorem report_losesNothing_monthly :
    ∃ charted tabled noted new sections,
      (Layout.start.kpis codeUnits [uptime]).chart codeUnits (some twoLinks) = some charted ∧
      charted.table codeUnits sixtyLinks = some (.ok tabled) ∧ Drew charted tabled new ∧
      new.filterMap Drawn.row = (drawnUnits sixtyLinks).zipIdx ∧ NoneAlone Drawn.row new ∧
      tabled.notes codeUnits [remarks] = some noted ∧ Drew tabled noted (List.flatten sections) ∧
      noted.pages = 5 := by
  have cards : LaidOut codeUnits (Layout.start.kpis codeUnits [uptime]) := .kpis _ .start
  obtain ⟨charted, _, isCharted, -, -⟩ := (report_losesNothing cards).2.1 (some twoLinks)
  have behind : LaidOut codeUnits charted := .chart _ cards isCharted
  obtain ⟨tabled, new, isTabled, drew, rows, together⟩ :=
    (report_losesNothing behind).1 sixtyLinks (List.cons_ne_nil _ _)
  obtain ⟨noted, sections, isNoted, noting, -, -⟩ :=
    (report_losesNothing (.table _ behind isTabled)).2.2 [remarks]
  have pages : (monthly.map fun l => l.pages) = some 5 := by decide +kernel
  rw [monthly, isCharted, Option.bind_eq_bind, Option.bind_some, isTabled] at pages
  refine ⟨charted, tabled, noted, new, sections, isCharted, isTabled, drew, rows,
    together (by decide), isNoted, noting, ?_⟩
  simpa [isNoted] using pages

end ZabbixPortal.Export.Pdf
