import ZabbixPortal.Foundation.HalfOpen
import ZabbixPortal.Foundation.TopOf

/-! The zones of an internet traffic meter: the server makes them from the thresholds of a
Zabbix gauge and says which one a value is in, the page draws them as stretches of a dial. -/

set_option autoImplicit false

namespace ZabbixPortal.Services

open Foundation

inductive ZoneLevel where
  | none
  | low
  | ok
  | warn
  | critical
deriving DecidableEq, Repr

structure MeterZone where
  /-- Where the zone starts, in the item's units; it ends where the next one starts. -/
  start : ℚ
  level : ZoneLevel
deriving DecidableEq, Repr

structure MeterThreshold where
  value : ℚ
  color : String
deriving DecidableEq, Repr

/-- The zones of a scale from its thresholds, lowest first; below the first threshold, if it
is above the minimum, is `none`. -/
def buildZones (levelOfColor : String → ZoneLevel) (thresholds : List MeterThreshold) (min : ℚ) :
    List MeterZone :=
  let zones := sortBy (fun a b => compareNumbers a.start b.start)
    (thresholds.map fun t => (⟨t.value, levelOfColor t.color⟩ : MeterZone))
  match zones with
  | [] => [⟨min, .none⟩]
  | first :: _ => if first.start > min then ⟨min, .none⟩ :: zones else zones

def zoneOf (value : ℚ) (zones : List MeterZone) : ZoneLevel :=
  zones.foldl (fun level z => if value ≥ z.start then z.level else level)
    ((zones.head?.map (·.level)).getD .none)

namespace Page

structure Segment where
  start : ℚ
  stop : ℚ
  level : ZoneLevel
deriving DecidableEq, Repr

/-- How far along the scale a value is, held to the dial. -/
def dialAt (min span value : ℚ) : ℚ := Min.min 1 (Max.max 0 ((value - min) / span))

/-- Each zone up to where the next one starts, the last one up to the end of the dial. -/
def stretches (fraction : ℚ → ℚ) : List MeterZone → List Segment
  | [] => []
  | [z] => [⟨fraction z.start, 1, z.level⟩]
  | z :: next :: rest =>
      ⟨fraction z.start, fraction next.start, z.level⟩ :: stretches fraction (next :: rest)

/-- The zones as stretches of the dial. A zone outside the scale, or with no width, is left
out. -/
def segments (zones : List MeterZone) (min max : ℚ) : List Segment :=
  let span := max - min
  if span > 0 then (stretches (dialAt min span) zones).filter fun s => s.stop > s.start else []

def Segment.span (segment : Segment) : ℚ × ℚ := (segment.start, segment.stop)

end Page

section Dial

open Page HalfOpen

variable {min max : ℚ}

theorem dialAt_mono (scale : min < max) {low high : ℚ} (below : low ≤ high) :
    dialAt min (max - min) low ≤ dialAt min (max - min) high := by
  have width : 0 ≤ max - min := (sub_pos.mpr scale).le
  exact min_le_min le_rfl (max_le_max le_rfl (by gcongr))

theorem dialAt_le_one (value : ℚ) : dialAt min (max - min) value ≤ 1 := min_le_left _ _

theorem dialAt_of_le (scale : min < max) {value : ℚ} (low : value ≤ min) :
    dialAt min (max - min) value = 0 := by
  have below : (value - min) / (max - min) ≤ 0 :=
    div_nonpos_of_nonpos_of_nonneg (by linarith) (by linarith)
  rw [dialAt, max_eq_left below, min_eq_right zero_le_one]

/-- A zone starts at or below a value on the scale exactly when it does so on the dial. -/
theorem dialAt_le_iff (scale : min < max) {value : ℚ} (low : min ≤ value) (high : value < max)
    (start : ℚ) :
    dialAt min (max - min) start ≤ (value - min) / (max - min) ↔ start ≤ value := by
  have width : 0 < max - min := sub_pos.mpr scale
  have inside : (value - min) / (max - min) < 1 := (div_lt_one width).mpr (by linarith)
  have atLeast : 0 ≤ (value - min) / (max - min) := div_nonneg (by linarith) width.le
  have same : (start - min) / (max - min) ≤ (value - min) / (max - min) ↔ start ≤ value := by
    rw [div_le_div_iff_of_pos_right width]
    constructor <;> intro <;> linarith
  rw [dialAt, min_le_iff, max_le_iff, same]
  constructor
  · rintro (past | ⟨_, before⟩)
    · exact absurd past inside.not_ge
    · exact before
  · intro before
    exact .inr ⟨atLeast, before⟩

theorem stretches_fill (scale : min < max) {z : MeterZone} {rest : List MeterZone}
    (sorted : (z :: rest).Pairwise fun a b => a.start ≤ b.start) :
    Fills (dialAt min (max - min) z.start) 1
      (((stretches (dialAt min (max - min)) (z :: rest)).filter fun s =>
        s.stop > s.start).map Segment.span) := by
  induction rest generalizing z with
  | nil =>
      rw [stretches, List.filter_cons, List.filter_nil]
      rcases (@dialAt_le_one min max z.start).lt_or_eq with inside | atEnd
      · rw [if_pos (decide_eq_true inside)]
        exact .cons inside (.nil 1)
      · rw [if_neg (by simp [atEnd]), atEnd]
        exact .nil 1
  | cons next rest ih =>
      have later := ih sorted.of_cons
      have ahead := dialAt_mono scale (List.rel_of_pairwise_cons sorted List.mem_cons_self)
      rw [stretches, List.filter_cons]
      rcases ahead.lt_or_eq with wide | empty
      · rw [if_pos (decide_eq_true wide)]
        exact .cons wide later
      · rw [if_neg (by simp [empty]), empty]
        exact later

/-- Zones that start above a value do not change what it is in. -/
theorem foldl_zones_above {value : ℚ} {zones : List MeterZone}
    (above : ∀ z ∈ zones, value < z.start) (level : ZoneLevel) :
    zones.foldl (fun level z => if value ≥ z.start then z.level else level) level = level := by
  induction zones with
  | nil => rfl
  | cons z rest ih =>
      rw [List.foldl_cons, if_neg (above z List.mem_cons_self).not_ge]
      exact ih fun other member => above other (.tail _ member)

/-- The stretch a value's fraction lies in belongs to the last zone that starts at or below
the value. -/
theorem foldl_zones_of_stretch (scale : min < max) {value : ℚ} (low : min ≤ value)
    (high : value < max) {z : MeterZone} {rest : List MeterZone}
    (sorted : (z :: rest).Pairwise fun a b => a.start ≤ b.start) {s : Segment}
    (drawn : s ∈ stretches (dialAt min (max - min)) (z :: rest))
    (starts : s.start ≤ (value - min) / (max - min))
    (stops : (value - min) / (max - min) < s.stop) (level : ZoneLevel) :
    (z :: rest).foldl (fun level z => if value ≥ z.start then z.level else level) level =
      s.level := by
  induction rest generalizing z level with
  | nil =>
      rw [stretches, List.mem_singleton] at drawn
      subst drawn
      rw [List.foldl_cons, if_pos ((dialAt_le_iff scale low high z.start).mp starts),
        List.foldl_nil]
  | cons next rest ih =>
      rw [stretches] at drawn
      rw [List.foldl_cons]
      rcases List.mem_cons.mp drawn with own | later
      · subst own
        have next_above : value < next.start := by
          refine lt_of_not_ge fun reached => ?_
          exact absurd stops (not_lt.mpr ((dialAt_le_iff scale low high next.start).mpr reached))
        rw [if_pos ((dialAt_le_iff scale low high z.start).mp starts)]
        refine foldl_zones_above (fun other member => ?_) z.level
        rcases List.mem_cons.mp member with rfl | further
        · exact next_above
        · exact next_above.trans_le (List.rel_of_pairwise_cons sorted.of_cons further)
      · exact ih sorted.of_cons later _

/-- The zones of a scale are sorted and begin at or below its minimum. -/
theorem buildZones_cons (levelOfColor : String → ZoneLevel) (thresholds : List MeterThreshold)
    (min : ℚ) : ∃ z rest, buildZones levelOfColor thresholds min = z :: rest ∧ z.start ≤ min ∧
      (z :: rest).Pairwise fun a b => a.start ≤ b.start := by
  have sorted := pairwise_sortBy_number MeterZone.start
    (thresholds.map fun t => (⟨t.value, levelOfColor t.color⟩ : MeterZone))
  unfold buildZones
  cases zones : sortBy (fun a b => compareNumbers a.start b.start)
    (thresholds.map fun t => (⟨t.value, levelOfColor t.color⟩ : MeterZone)) with
  | nil => exact ⟨_, [], rfl, le_rfl, List.pairwise_singleton _ _⟩
  | cons first rest =>
      rw [zones] at sorted
      dsimp only
      split
      · next above =>
          refine ⟨_, _, rfl, le_rfl, List.pairwise_cons.mpr ⟨fun other member => ?_, sorted⟩⟩
          rcases List.mem_cons.mp member with rfl | later
          · exact above.le
          · exact above.le.trans (List.rel_of_pairwise_cons sorted later)
      · next notAbove => exact ⟨first, rest, rfl, not_lt.mp notAbove, sorted⟩

/-- The stretches the page draws tile the dial, and the one a value's fraction lies in has the
level the server gives the value. -/
theorem segments_agree (levelOfColor : String → ZoneLevel) (thresholds : List MeterThreshold)
    {min max value : ℚ} (scale : min < max) (low : min ≤ value) (high : value < max) :
    let zones := buildZones levelOfColor thresholds min
    let drawn := segments zones min max
    let fraction := (value - min) / (max - min)
    Fills 0 1 (drawn.map Segment.span) ∧
      (∃ s ∈ drawn, s.start ≤ fraction ∧ fraction < s.stop) ∧
      ∀ s ∈ drawn, s.start ≤ fraction → fraction < s.stop → s.level = zoneOf value zones := by
  intro zones drawn fraction
  obtain ⟨z, rest, zones_eq, first, sorted⟩ := buildZones_cons levelOfColor thresholds min
  have width : 0 < max - min := sub_pos.mpr scale
  have drawn_eq : drawn = (stretches (dialAt min (max - min)) (z :: rest)).filter fun s =>
      s.stop > s.start := by
    change segments zones min max = _
    rw [show zones = z :: rest from zones_eq, segments, if_pos width]
  have fills := stretches_fill scale sorted
  rw [dialAt_of_le scale first, ← drawn_eq] at fills
  refine ⟨fills, ?_, fun s member starts stops => ?_⟩
  · have inside : 0 ≤ fraction ∧ fraction < 1 :=
      ⟨div_nonneg (by linarith) width.le, (div_lt_one width).mpr (by linarith)⟩
    obtain ⟨interval, member, starts, stops⟩ := (fills.covers_iff fraction).mpr inside
    obtain ⟨s, isDrawn, rfl⟩ := List.mem_map.mp member
    exact ⟨s, isDrawn, starts, stops⟩
  · rw [drawn_eq] at member
    have level := foldl_zones_of_stretch scale low high sorted (List.mem_filter.mp member).1
      starts stops
    rw [zoneOf, show zones = z :: rest from zones_eq]
    exact (level _).symm

theorem segments_agree_boundary :
    let zones := buildZones (fun _ => .warn) [⟨50, "#ffd54f"⟩] 0
    let drawn := segments zones 0 100
    let fraction : ℚ := (50 - 0) / (100 - 0)
    Fills 0 1 (drawn.map Segment.span) ∧
      (∃ s ∈ drawn, s.start ≤ fraction ∧ fraction < s.stop) ∧
      ∀ s ∈ drawn, s.start ≤ fraction → fraction < s.stop → s.level = zoneOf 50 zones :=
  segments_agree (fun _ => .warn) [⟨50, "#ffd54f"⟩] (by norm_num) (by norm_num) (by norm_num)

end Dial

end ZabbixPortal.Services
