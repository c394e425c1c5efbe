import ZabbixPortal.Foundation.Firsts
import ZabbixPortal.Foundation.OrderedMap
import ZabbixPortal.Foundation.Pattern
import ZabbixPortal.Foundation.Text
import ZabbixPortal.Foundation.TopOf
import ZabbixPortal.Services.GraphSeries

/-! The points of a chart as a table, joined on the exact time a point carries, and as the rows of
a CSV file; and which points these keep. -/

set_option autoImplicit false

namespace ZabbixPortal.Web

open Foundation
open Services (GraphPoint)

structure GraphSeries where
  name : String
  host : String
  units : String
  step : Bool
  points : List GraphPoint

def isRanged (s : GraphSeries) : Bool :=
  !s.step && s.points.any fun p => p.min.isSome && p.max.isSome

structure ChartRow (n : Nat) where
  at' : ℤ
  cells : Vector (Option GraphPoint) n

structure ChartTable (n : Nat) where
  ranged : List Bool
  rows : List (ChartRow n)

section Join

variable {n : Nat}

/-- Put a point of a series into the row of its time; a new row has no points yet. -/
def addPoint (i : Fin n) (byTime : OrderedMap ℤ (Vector (Option GraphPoint) n)) (p : GraphPoint) :
    OrderedMap ℤ (Vector (Option GraphPoint) n) :=
  let row := (byTime.get? p.ms).getD (.replicate n none)
  byTime.set p.ms (row.set i (some p) i.isLt)

end Join

def byTime (series : List GraphSeries) :
    OrderedMap ℤ (Vector (Option GraphPoint) series.length) :=
  (List.finRange series.length).foldl
    (fun map i => (series.get i).points.foldl (addPoint i) map) .empty

def chartTable (series : List GraphSeries) : ChartTable series.length where
  ranged := series.map isRanged
  rows := (sortBy (fun a b => compare a.1 b.1) (byTime series).entries).map fun entry =>
    ⟨entry.1, entry.2⟩

/-- `^(Interface [^:]+:\s*)` -/
def interfacePrefix : Pattern :=
  .group 1 (.sequence [.word (· = ·) "Interface ".toList, .repeated (· ≠ ':') 1 none true,
    .one (· = ':'), .repeated isSpace 0 none true])

/-- A series' name without the prefix all of them share, or with its host when the hosts differ. -/
def seriesLabel (s : GraphSeries) (all : List GraphSeries) : String :=
  let named := if (all.map GraphSeries.host).dedup.length > 1 then s.host ++ ": " ++ s.name
    else s.name
  match (interfacePrefix.exec s.name.toList).bind fun found => found.group? 1 with
  | none => named
  | some shared =>
      if all.length > 1 ∧ all.all fun o => shared.isPrefixOf o.name.toList then
        .ofList (s.name.toList.drop shared.length)
      else named

inductive CsvCell
  | text (value : String)
  | number (value : ℚ)
  | empty
deriving DecidableEq, Repr

/-- `point[k + 1]` -/
def figure (p : GraphPoint) : Nat → Option ℚ
  | 0 => p.avg
  | 1 => p.min
  | _ => p.max

def columns (ranged : Bool) : Nat := if ranged then 3 else 1

def csvHeadings (s : GraphSeries) (all : List GraphSeries) : List String :=
  let label := seriesLabel s all
  let base := if s.units = "" then label else label ++ " (" ++ s.units ++ ")"
  if isRanged s then [base ++ " average", base ++ " min", base ++ " max"] else [base]

def csvFigures (ranged : Bool) (point : Option GraphPoint) : List CsvCell :=
  (List.range (columns ranged)).map fun k => ((point.bind (figure · k)).map .number).getD .empty

section Csv

-- a moment as `2026-10-19 14:05:00` in a zone
variable (formatIsoDateTime : ℤ → String → String)

def csvLine (series : List GraphSeries) (tz : String) (row : ChartRow series.length) :
    List CsvCell :=
  .text (formatIsoDateTime row.at' tz) :: (List.finRange series.length).flatMap fun i =>
    csvFigures (isRanged (series.get i)) row.cells[i]

def chartCsvRows (series : List GraphSeries) (tz : String) : List (List CsvCell) :=
  let head := ("Time (" ++ tz ++ ")") :: series.flatMap fun s => csvHeadings s series
  head.map .text :: (chartTable series).rows.map (csvLine formatIsoDateTime series tz)

end Csv

/-! ## Which points the table keeps -/

def measured (p : GraphPoint) : Bool := p.avg.isSome

def column {n : Nat} (rows : List (ChartRow n)) (i : Fin n) : List GraphPoint :=
  rows.filterMap fun row => row.cells[i]

/-- The table and its CSV file hold every point once, at its time, in time order. -/
structure KeepsPoints (formatIsoDateTime : ℤ → String → String) (series : List GraphSeries) :
    Prop where
  ordered : (chartTable series).rows.Pairwise fun a b => a.at' < b.at'
  placed : ∀ row ∈ (chartTable series).rows, ∀ (i : Fin series.length) (p : GraphPoint),
    row.cells[i] = some p → p.ms = row.at'
  kept : ∀ i, (column (chartTable series).rows i).filter measured =
    (series.get i).points.filter measured
  written : ∀ tz, (chartCsvRows formatIsoDateTime series tz).tail =
    (chartTable series).rows.map (csvLine formatIsoDateTime series tz)

section Cells

variable {n : Nat}

def cellAt (map : OrderedMap ℤ (Vector (Option GraphPoint) n)) (ms : ℤ) (i : Fin n) :
    Option GraphPoint :=
  (map.get? ms).bind fun cells => cells[i]

theorem cellAt_addPoint (map : OrderedMap ℤ (Vector (Option GraphPoint) n)) (i j : Fin n)
    (p : GraphPoint) (ms : ℤ) : cellAt (addPoint i map p) ms j =
      if i = j ∧ p.ms = ms then some p else cellAt map ms j := by
  unfold cellAt addPoint
  dsimp only
  rw [OrderedMap.get?_set]
  by_cases atTime : ms = p.ms
  · subst atTime
    rw [if_pos rfl, Option.bind_some]
    by_cases own : i = j
    · subst own
      rw [if_pos ⟨rfl, rfl⟩]
      exact Vector.getElem_set_self i.isLt
    · rw [if_neg fun both => own both.1]
      have other : (i : Nat) ≠ j := fun same => own (Fin.ext same)
      rw [Fin.getElem_fin, Vector.getElem_set_ne i.isLt j.isLt other]
      cases map.get? p.ms with
      | none => simp
      | some cells => rfl
  · rw [if_neg atTime, if_neg fun both => atTime both.2.symm]

def lastAt (s : GraphSeries) (ms : ℤ) : Option GraphPoint :=
  lastOf (fun p => p.ms = ms) s.points

theorem cellAt_addSeries (map : OrderedMap ℤ (Vector (Option GraphPoint) n)) (i j : Fin n)
    (points : List GraphPoint) (ms : ℤ) : cellAt (points.foldl (addPoint i) map) ms j =
      if i = j then (lastOf (fun p => p.ms = ms) points).or (cellAt map ms j)
      else cellAt map ms j := by
  by_cases own : i = j
  · subst own
    have sets : ∀ (map : OrderedMap ℤ (Vector (Option GraphPoint) n)) (p : GraphPoint),
        cellAt (addPoint i map p) ms i =
          if decide (p.ms = ms) then some p else cellAt map ms i := by
      intro map p
      simp [cellAt_addPoint]
    rw [if_pos rfl, foldl_last (fun map => cellAt map ms i) (addPoint i) sets]
    cases lastOf (fun p : GraphPoint => decide (p.ms = ms)) points <;> rfl
  · rw [if_neg own]
    induction points generalizing map with
    | nil => rfl
    | cons p rest ih => rw [List.foldl_cons, ih, cellAt_addPoint, if_neg fun both => own both.1]

end Cells

section Table

variable (series : List GraphSeries)

theorem cellAt_addAll {indexes : List (Fin series.length)} (distinct : indexes.Nodup)
    (map : OrderedMap ℤ (Vector (Option GraphPoint) series.length)) (j : Fin series.length)
    (ms : ℤ) :
    cellAt (indexes.foldl (fun map i => (series.get i).points.foldl (addPoint i) map) map) ms j =
      if j ∈ indexes then (lastAt (series.get j) ms).or (cellAt map ms j)
      else cellAt map ms j := by
  induction indexes generalizing map with
  | nil => rfl
  | cons i rest ih =>
      obtain ⟨fresh, restDistinct⟩ := List.nodup_cons.mp distinct
      rw [List.foldl_cons, ih restDistinct, cellAt_addSeries]
      by_cases own : i = j
      · subst own
        rw [if_neg fresh, if_pos rfl, if_pos List.mem_cons_self]
        rfl
      · have inside : j ∈ i :: rest ↔ j ∈ rest := by simp [Ne.symm own]
        rw [if_neg own]
        simp only [inside]

/-- The cell of a series at a time holds its last point there. -/
theorem cellAt_byTime (ms : ℤ) (i : Fin series.length) :
    cellAt (byTime series) ms i = lastAt (series.get i) ms := by
  rw [byTime, cellAt_addAll series (List.nodup_finRange _), if_pos (List.mem_finRange i)]
  exact Option.or_none

theorem rows_ordered : (chartTable series).rows.Pairwise fun a b => a.at' < b.at' :=
  List.pairwise_map.mpr (pairwise_sortBy_keys (byTime series))

theorem cell_of_mem_rows {row : ChartRow series.length} (member : row ∈ (chartTable series).rows)
    (i : Fin series.length) : row.cells[i] = lastAt (series.get i) row.at' := by
  obtain ⟨entry, listed, rfl⟩ := List.mem_map.mp member
  have found : (byTime series).get? entry.1 = some entry.2 :=
    (OrderedMap.get?_eq_some_iff _ _ _).mpr ((mem_sortBy _ _ _).mp listed)
  rw [← cellAt_byTime, cellAt, found]
  rfl

theorem mem_of_lastAt {s : GraphSeries} {ms : ℤ} {p : GraphPoint} (last : lastAt s ms = some p) :
    p ∈ s.points ∧ p.ms = ms :=
  (mem_of_lastOf last).imp_right of_decide_eq_true

/-- Every time at which a series has a point is a row. -/
theorem row_of_lastAt {i : Fin series.length} {ms : ℤ} {p : GraphPoint}
    (last : lastAt (series.get i) ms = some p) :
    ∃ row ∈ (chartTable series).rows, row.cells[i] = some p := by
  rw [← cellAt_byTime] at last
  obtain ⟨cells, found, own⟩ := Option.bind_eq_some_iff.mp last
  exact ⟨⟨ms, cells⟩, List.mem_map.mpr ⟨(ms, cells), (mem_sortBy _ _ _).mpr
    ((OrderedMap.get?_eq_some_iff _ _ _).mp found), rfl⟩, own⟩

/-- Down a column stand the last points of the series at their times. -/
theorem mem_column_iff (i : Fin series.length) (p : GraphPoint) :
    p ∈ column (chartTable series).rows i ↔ lastAt (series.get i) p.ms = some p := by
  constructor
  · intro member
    obtain ⟨row, listed, own⟩ := List.mem_filterMap.mp member
    rw [cell_of_mem_rows series listed] at own
    rw [(mem_of_lastAt own).2]
    exact own
  · intro last
    obtain ⟨row, listed, own⟩ := row_of_lastAt series last
    exact List.mem_filterMap.mpr ⟨row, listed, own⟩

theorem column_ordered (i : Fin series.length) :
    (column (chartTable series).rows i).Pairwise fun p q => p.ms < q.ms := by
  have timed : ((chartTable series).rows.filterMap fun row => row.cells[i]).Pairwise
      fun p q => p.ms < q.ms := by
    refine List.pairwise_filterMap.mpr ?_
    refine (rows_ordered series).imp_of_mem fun inA inB before p ofA q ofB => ?_
    rw [cell_of_mem_rows series inA] at ofA
    rw [cell_of_mem_rows series inB] at ofB
    rw [(mem_of_lastAt ofA).2, (mem_of_lastAt ofB).2]
    exact before
  exact timed

end Table

theorem length_csvFigures (ranged : Bool) (point : Option GraphPoint) :
    (csvFigures ranged point).length = columns ranged := by
  rw [csvFigures, List.length_map, List.length_range]

theorem length_csvHeadings (s : GraphSeries) (all : List GraphSeries) :
    (csvHeadings s all).length = columns (isRanged s) := by
  unfold csvHeadings columns
  cases isRanged s <;> rfl

/-- Every line of the CSV file has a cell for the time and for each heading. -/
theorem length_of_mem_chartCsvRows (formatIsoDateTime : ℤ → String → String)
    (series : List GraphSeries) (tz : String) {line : List CsvCell}
    (member : line ∈ chartCsvRows formatIsoDateTime series tz) :
    line.length = (series.map fun s => columns (isRanged s)).sum + 1 := by
  rcases List.mem_cons.mp member with rfl | inBody
  · rw [List.length_map, List.length_cons, List.length_flatMap]
    simp only [length_csvHeadings]
  · obtain ⟨row, -, rfl⟩ := List.mem_map.mp inBody
    have each : (List.finRange series.length).map (fun i => columns (isRanged (series.get i))) =
        series.map fun s => columns (isRanged s) := by
      have listed := congrArg (List.map fun s => columns (isRanged s)) (List.map_get_finRange series)
      rw [List.map_map] at listed
      exact listed
    rw [csvLine, List.length_cons, List.length_flatMap]
    simp only [length_csvFigures]
    rw [each]

/-- No measured point of the series is followed by another of its points at the same time. -/
def TimesApart (s : GraphSeries) : Prop :=
  s.points.Pairwise fun p q => measured p = true → p.ms ≠ q.ms

theorem TimesApart.lastAt_eq {s : GraphSeries} (apart : TimesApart s) {p : GraphPoint}
    (member : p ∈ s.points) (isMeasured : measured p = true) : lastAt s p.ms = some p := by
  obtain ⟨before, behind, shape⟩ := List.append_of_mem member
  rw [TimesApart, shape] at apart
  have later := (List.pairwise_cons.mp (List.pairwise_append.mp apart).2.1).1
  have empty : behind.filter (fun q => q.ms = p.ms) = [] :=
    List.filter_eq_nil_iff.mpr fun q inBehind same =>
      later q inBehind isMeasured (of_decide_eq_true same).symm
  rw [lastAt, lastOf, shape, List.filter_append, List.filter_cons_of_pos (by simp), empty,
    List.getLast?_concat]

theorem kept_of_timesApart (series : List GraphSeries) (i : Fin series.length)
    (sorted : (series.get i).points.Pairwise fun p q => p.ms ≤ q.ms)
    (apart : TimesApart (series.get i)) :
    (column (chartTable series).rows i).filter measured =
      (series.get i).points.filter measured := by
  have strict : ((series.get i).points.filter measured).Pairwise fun p q => p.ms < q.ms := by
    refine List.pairwise_filter.mpr ((sorted.and apart).imp fun both isP _ => ?_)
    exact lt_of_le_of_ne both.1 (both.2 isP)
  have : Std.Irrefl fun p q : GraphPoint => p.ms < q.ms := ⟨fun p => lt_irrefl p.ms⟩
  have : Std.Asymm fun p q : GraphPoint => p.ms < q.ms := ⟨fun p q less => not_lt_of_gt less⟩
  refine ((column_ordered series i).filter measured).eq_of_mem_iff strict fun p => ?_
  simp only [List.mem_filter, mem_column_iff]
  constructor
  · intro both
    exact ⟨(mem_of_lastAt both.1).1, both.2⟩
  · intro both
    exact ⟨apart.lastAt_eq both.1 both.2, both.2⟩

theorem timesApart_of_kept (series : List GraphSeries) (i : Fin series.length)
    (kept : (column (chartTable series).rows i).filter measured =
      (series.get i).points.filter measured) : TimesApart (series.get i) := by
  have strict := (column_ordered series i).filter measured
  rw [kept] at strict
  have twice : ∀ {p q : GraphPoint}, [p, q].Sublist (series.get i).points → measured p = true →
      measured q = true → p.ms ≠ q.ms := by
    intro p q inside isP isQ same
    have both := inside.filter measured
    rw [List.filter_cons_of_pos isP, List.filter_cons_of_pos isQ, List.filter_nil] at both
    have less : p.ms < q.ms := List.rel_of_pairwise_cons (strict.sublist both) List.mem_cons_self
    exact absurd same less.ne
  refine List.pairwise_iff_forall_sublist.mpr fun {p q} inside isP same => ?_
  by_cases isQ : measured q = true
  · exact twice inside isP isQ same
  · -- the cell holds `p`, so `p` stands behind `q` once more
    have listed : p ∈ (column (chartTable series).rows i).filter measured := by
      rw [kept]
      exact List.mem_filter.mpr ⟨inside.subset List.mem_cons_self, isP⟩
    have last := (mem_column_iff series i p).mp (List.mem_filter.mp listed).1
    obtain ⟨before, shape⟩ := List.getLast?_eq_some_iff.mp last
    have atTime := inside.filter fun r => r.ms = p.ms
    rw [List.filter_cons_of_pos (by simp), List.filter_cons_of_pos (by simp [same]),
      List.filter_nil, shape] at atTime
    obtain ⟨front, back, split, inBefore, inLast⟩ := List.sublist_append_iff.mp atTime
    have pInBefore : p ∈ before := by
      cases front with
      | nil =>
          have long := inLast.length_le
          rw [← List.nil_append back, ← split] at long
          simp at long
      | cons r more =>
          rw [List.cons_append] at split
          rw [(List.cons.inj split).1]
          exact inBefore.subset List.mem_cons_self
    have pTwice : [p, p].Sublist ((series.get i).points.filter fun r => r.ms = p.ms) := by
      rw [shape]
      exact (List.singleton_sublist.mpr pInBefore).append (List.Sublist.refl [p])
    exact twice (pTwice.trans List.filter_sublist) isP isP rfl

/-- The table keeps every point exactly where no series has two at one time. -/
theorem keepsPoints_iff (formatIsoDateTime : ℤ → String → String) (series : List GraphSeries)
    (sorted : ∀ s ∈ series, s.points.Pairwise fun p q => p.ms ≤ q.ms) :
    KeepsPoints formatIsoDateTime series ↔ ∀ s ∈ series, TimesApart s := by
  constructor
  · intro keeps s member
    obtain ⟨i, rfl⟩ := List.get_of_mem member
    exact timesApart_of_kept series i (keeps.kept i)
  · intro apart
    exact {
      ordered := rows_ordered series
      placed := fun row member i p own => by
        rw [cell_of_mem_rows series member] at own
        exact (mem_of_lastAt own).2
      kept := fun i => kept_of_timesApart series i (sorted _ (List.get_mem _ _))
        (apart _ (List.get_mem _ _))
      written := fun _ => rfl
    }

section SameSecond

def sameSecond : List Services.Sample :=
  [⟨100, 1, 4, 4, 4, false⟩, ⟨100, 1, 6, 6, 6, false⟩]

def sameSecondSeries : GraphSeries where
  name := "Bits received"
  host := "SWITCH"
  units := "bps"
  step := false
  points := (Services.shapeSeries sameSecond ⟨0, 3600, 500, 60, false⟩).points

theorem sameSecond_collapses :
    (chartTable [sameSecondSeries]).rows.map (fun row => (row.at', row.cells.toList)) =
        [(100000, [some ⟨100000, some 6, none, none⟩])] ∧
      ¬ KeepsPoints (fun _ _ => "") [sameSecondSeries] :=
  ⟨by decide +kernel, fun keeps =>
    absurd (congrArg List.length (keeps.kept ⟨0, by decide⟩)) (by decide +kernel)⟩

def pings : GraphSeries where
  name := "ICMP ping"
  host := "SWITCH"
  units := ""
  step := true
  points := [⟨1000, some 1, none, none⟩, ⟨61000, some 0, none, none⟩]

theorem keepsPoints_iff_pings : KeepsPoints (fun _ _ => "") [pings] := by
  refine (keepsPoints_iff _ [pings] fun s member => ?_).mpr fun s member => ?_
  · rw [List.mem_singleton.mp member]
    exact List.pairwise_pair.mpr (by decide)
  · rw [List.mem_singleton.mp member]
    exact List.pairwise_pair.mpr fun _ => by decide

end SameSecond

end ZabbixPortal.Web
