import ZabbixPortal.Foundation.Grouping
import ZabbixPortal.Foundation.Sorting
import Mathlib.Algebra.Order.Floor.Ring
import Mathlib.Data.Rat.Floor

/-! The shape of a graph: samples as chart points, folded into time buckets when there are too
many, with a break wherever nothing was collected. Clocks are whole Unix seconds. -/

set_option autoImplicit false

namespace ZabbixPortal.Services

open Foundation

/-- One raw sample: a history value is an aggregate of one, a trend row of its hour. -/
structure Sample where
  clock : ℤ
  num : ℚ
  sum : ℚ
  min : ℚ
  max : ℚ
  /-- A trend row stands for an hour; a history value for one update interval. -/
  trend : Bool
deriving DecidableEq, Repr

/-- `[ms, avg, min, max]`, all null where the line breaks. -/
structure GraphPoint where
  ms : ℤ
  avg : Option ℚ
  min : Option ℚ
  max : Option ℚ
deriving DecidableEq, Repr

structure ShapeOptions where
  start : ℤ
  stop : ℤ
  points : ℕ
  delay : ℚ
  withBand : Bool
deriving DecidableEq, Repr

structure ShapedSeries where
  points : List GraphPoint
  downsampled : Bool
deriving DecidableEq, Repr

def jsRound (number : ℚ) : ℤ := ⌊number + 1 / 2⌋

/-- The upper median; 0 of no numbers. -/
def median (values : List ℚ) : ℚ :=
  let sorted := sortBy compareNumbers values
  sorted[sorted.length / 2]?.getD 0

def spacings (samples : List Sample) : List ℚ :=
  List.zipWith (fun later earlier => ((later.clock - earlier.clock : ℤ) : ℚ)) samples.tail samples

def gapPoint (prev next : GraphPoint) : GraphPoint :=
  ⟨jsRound ((prev.ms + next.ms) / 2), none, none, none⟩

/-- A null between two neighbours further apart than three times the expected seconds. -/
def withGaps (expected : ℚ) : List GraphPoint → List GraphPoint
  | [] => []
  | [p] => [p]
  | prev :: p :: rest =>
      if (p.ms - prev.ms : ℚ) > 3 * expected * 1000 then
        prev :: gapPoint prev p :: withGaps expected (p :: rest)
      else prev :: withGaps expected (p :: rest)

structure Bucket where
  num : ℚ
  sum : ℚ
  min : ℚ
  max : ℚ
deriving DecidableEq, Repr

def Bucket.of (s : Sample) : Bucket := ⟨s.num, s.sum, s.min, s.max⟩

def Bucket.add (b : Bucket) (s : Sample) : Bucket :=
  ⟨b.num + s.num, b.sum + s.sum, Min.min b.min s.min, Max.max b.max s.max⟩

namespace ShapeOptions

variable (opts : ShapeOptions)

def width : ℚ := (opts.stop - opts.start) / opts.points

/-- The bucket of a sample, held to the first and the last one. -/
def bucketIndex (s : Sample) : ℤ :=
  Min.min (opts.points - 1) (Max.max 0 ⌊(s.clock - opts.start) / opts.width⌋)

def baseExpected (samples : List Sample) : ℚ :=
  let rawSpacing := median (spacings samples)
  Max.max (if opts.delay = 0 then rawSpacing else opts.delay)
    (if samples.any (·.trend) then 3600 else 0)

def rawPoint (s : Sample) : GraphPoint :=
  { ms := s.clock * 1000
    avg := some (s.sum / s.num)
    min := if opts.withBand then some s.min else none
    max := if opts.withBand then some s.max else none }

def bucketPoint (entry : ℤ × Bucket) : GraphPoint :=
  { ms := jsRound ((opts.start + (entry.1 + 1 / 2) * opts.width) * 1000)
    avg := some (entry.2.sum / entry.2.num)
    min := some entry.2.min
    max := some entry.2.max }

def buckets (samples : List Sample) : OrderedMap ℤ Bucket :=
  samples.foldl (fun buckets s =>
    match buckets.get? (opts.bucketIndex s) with
    | none => buckets.set (opts.bucketIndex s) (.of s)
    | some b => buckets.set (opts.bucketIndex s) (b.add s)) .empty

end ShapeOptions

/-- Samples as chart points. Up to `points` samples go through as they are; beyond that they are
folded into equal time buckets. -/
def shapeSeries (samples : List Sample) (opts : ShapeOptions) : ShapedSeries :=
  let raw := withGaps (opts.baseExpected samples) (samples.map opts.rawPoint)
  if samples.length ≤ opts.points ∧ raw.length ≤ opts.points then
    { points := raw, downsampled := false }
  else
    let bucketed := (sortBy (fun a b => compare a.1 b.1) (opts.buckets samples).entries).map
      opts.bucketPoint
    { points := withGaps (Max.max (opts.baseExpected samples) opts.width) bucketed
      downsampled := true }

structure SeriesStats where
  min : ℚ
  avg : ℚ
  max : ℚ
  last : ℚ
  lastClock : ℤ
deriving DecidableEq, Repr

def seriesStats (samples : List Sample) : Option SeriesStats :=
  samples.getLast?.map fun last =>
    { min := (samples.map (·.min)).foldl Min.min last.min
      avg := (samples.map (·.sum)).sum / (samples.map (·.num)).sum
      max := (samples.map (·.max)).foldl Max.max last.max
      last := last.sum / last.num
      lastClock := last.clock }

structure SeriesCoverage where
  coveredSeconds : ℤ
  firstClock : Option ℤ
  lastClock : Option ℤ
deriving DecidableEq, Repr

/-- The time a sample stands for: up to the next one, at most three times what is expected. -/
def coveredBy (stop : ℤ) (expected : Sample → ℚ) : List Sample → ℚ
  | [] => 0
  | [s] => Max.max 0 (Min.min (Min.min (stop : ℚ) (s.clock + expected s) - s.clock) (3 * expected s))
  | s :: next :: rest =>
      Max.max 0 (Min.min ((next.clock : ℚ) - s.clock) (3 * expected s)) +
        coveredBy stop expected (next :: rest)

def seriesCoverage (samples : List Sample) (start stop : ℤ) (delay : ℚ) : SeriesCoverage :=
  let rawSpacing := median (spacings samples)
  let expected (s : Sample) : ℚ :=
    if s.trend then 3600
    else if delay ≠ 0 then delay
    else if rawSpacing ≠ 0 then rawSpacing
    else 60
  if samples.isEmpty then { coveredSeconds := 0, firstClock := none, lastClock := none }
  else
    { coveredSeconds := Min.min (jsRound (coveredBy stop expected samples)) (stop - start)
      firstClock := samples.head?.map (·.clock)
      lastClock := samples.getLast?.map (·.clock) }

end ZabbixPortal.Services
