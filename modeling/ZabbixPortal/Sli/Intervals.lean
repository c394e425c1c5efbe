import ZabbixPortal.Foundation.HalfOpen
import Mathlib.Data.List.Sort

/-! Interval arithmetic for availability. Intervals are `[start, end)` in Unix
seconds, as the source keeps them; nothing here assumes a sorted input. -/

set_option autoImplicit false

namespace ZabbixPortal.Sli

abbrev Interval := ℤ × ℤ

/-- Stable sort by start, which is what the source's comparator asks for. -/
def sortByStart (intervals : List Interval) : List Interval :=
  intervals.insertionSort fun left right => left.1 ≤ right.1

/-- The merging loop: `last` is the interval at the end of `out`. -/
def mergeFrom (last : Interval) : List Interval → List Interval
  | [] => [last]
  | next :: rest =>
      if next.1 ≤ last.2 then mergeFrom (last.1, max last.2 next.2) rest
      else last :: mergeFrom next rest

/-- Overlapping or touching intervals merged, sorted, empty ones dropped. -/
def mergeIntervals (intervals : List Interval) : List Interval :=
  match sortByStart (intervals.filter fun interval => interval.2 > interval.1) with
  | [] => []
  | first :: rest => mergeFrom first rest

def totalSeconds (intervals : List Interval) : ℤ :=
  (mergeIntervals intervals).foldl (fun total interval => total + (interval.2 - interval.1)) 0

def longestOf (intervals : List Interval) : ℤ :=
  intervals.foldl (fun longest interval => max longest (interval.2 - interval.1)) 0

/-- Merge overlapping intervals so two simultaneous problems are not counted twice. -/
def mergedSeconds (intervals : List Interval) : ℤ × ℤ :=
  (totalSeconds intervals, longestOf (mergeIntervals intervals))

/-- The inner steps of the two-pointer loop while the left pointer stays on `x`;
`next` runs the loop with the left pointer advanced. -/
def intersectWith (x : Interval) (next : List Interval → List Interval) :
    List Interval → List Interval
  | [] => []
  | y :: ys =>
      let start := max x.1 y.1
      let stop := min x.2 y.2
      let rest := if x.2 < y.2 then next (y :: ys) else intersectWith x next ys
      if stop > start then (start, stop) :: rest else rest

def intersectLoop : List Interval → List Interval → List Interval
  | [], _ => []
  | x :: xs, ys => intersectWith x (intersectLoop xs) ys

/-- The parts of `a` that also lie inside `b`. Both are merged first. -/
def intersectIntervals (a b : List Interval) : List Interval :=
  intersectLoop (mergeIntervals a) (mergeIntervals b)

def clipIntervals (intervals : List Interval) (start stop : ℤ) : List Interval :=
  (intervals.map fun interval => (max interval.1 start, min interval.2 stop)).filter
    fun interval => interval.2 > interval.1

def complementFrom (stop cursor : ℤ) : List Interval → List Interval
  | [] => if cursor < stop then [(cursor, stop)] else []
  | hole :: rest =>
      if hole.1 > cursor then
        (cursor, hole.1) :: complementFrom stop (max cursor hole.2) rest
      else complementFrom stop (max cursor hole.2) rest

/-- `[from, to)` minus `holes`. -/
def complementIntervals (holes : List Interval) (start stop : ℤ) : List Interval :=
  complementFrom stop start (mergeIntervals (clipIntervals holes start stop))

end ZabbixPortal.Sli
