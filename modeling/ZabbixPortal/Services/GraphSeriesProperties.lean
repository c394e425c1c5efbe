import ZabbixPortal.Foundation.TopOf
import ZabbixPortal.Services.GraphSeries
import Mathlib.Algebra.BigOperators.Ring.List
import Mathlib.Data.List.MinMax

/-! Downsampling loses no peak and invents no data: every point but the breaks stands for some
of the samples, all points together for all of them. -/

set_option autoImplicit false

namespace ZabbixPortal.Services

open Foundation

/-- The seconds two neighbouring points are expected apart: those of a bucket at least, when the
samples were folded. -/
def ShapeOptions.expectedSpacing (opts : ShapeOptions) (samples : List Sample)
    (downsampled : Bool) : ℚ :=
  if downsampled then max (opts.baseExpected samples) opts.width else opts.baseExpected samples

structure Tells (part : List Sample) (b : Bucket) : Prop where
  nonempty : part ≠ []
  num : b.num = (part.map (·.num)).sum
  sum : b.sum = (part.map (·.sum)).sum
  lowest : (part.map (·.min)).minimum = b.min
  highest : (part.map (·.max)).maximum = b.max

/-- A point that stands for some samples: their mean weighted by count, and with a band their
lowest and highest value. -/
structure Stands (banded : Prop) (part : List Sample) (p : GraphPoint) : Prop where
  nonempty : part ≠ []
  avg : p.avg = .some ((part.map (·.sum)).sum / (part.map (·.num)).sum)
  band : banded → ∃ lo hi, p.min = .some lo ∧ p.max = .some hi ∧
    (part.map (·.min)).minimum = lo ∧ (part.map (·.max)).maximum = hi

section Rounding

theorem jsRound_mono {low high : ℚ} (le : low ≤ high) : jsRound low ≤ jsRound high :=
  Int.floor_le_floor (by linarith)

theorem le_jsRound {number : ℚ} {least : ℤ} (le : (least : ℚ) ≤ number) : least ≤ jsRound number :=
  Int.le_floor.mpr (by linarith)

theorem jsRound_le {number : ℚ} {most : ℤ} (le : number ≤ most) : jsRound number ≤ most := by
  have below : number + 1 / 2 < ((most + 1 : ℤ) : ℚ) := by
    push_cast
    linarith
  exact Int.lt_add_one_iff.mp (Int.floor_lt.mpr below)

/-- Rounding moves two numbers at most one further apart. -/
theorem jsRound_sub_le (low high : ℚ) :
    ((jsRound high - jsRound low : ℤ) : ℚ) < high - low + 1 := by
  have upper := Int.floor_le (high + 1 / 2)
  have lower := Int.lt_floor_add_one (low + 1 / 2)
  unfold jsRound
  push_cast
  linarith

end Rounding

section Gaps

variable {expected : ℚ}

theorem withGaps_cons (expected : ℚ) (p : GraphPoint) (rest : List GraphPoint) :
    ∃ tail, withGaps expected (p :: rest) = p :: tail := by
  cases rest with
  | nil => exact ⟨[], rfl⟩
  | cons next rest =>
      rw [withGaps]
      split
      · exact ⟨_, rfl⟩
      · exact ⟨_, rfl⟩

theorem filter_cons_real {p : GraphPoint} (rest : List GraphPoint) (real : p.avg.isSome = true) :
    (p :: rest).filter (·.avg.isSome) = p :: rest.filter (·.avg.isSome) := by
  rw [List.filter_cons, if_pos real]

/-- Without the breaks the points are what they were. -/
theorem filter_withGaps (expected : ℚ) {points : List GraphPoint}
    (real : ∀ p ∈ points, p.avg.isSome = true) :
    (withGaps expected points).filter (·.avg.isSome) = points := by
  induction points using withGaps.induct expected with
  | case1 => rfl
  | case2 p => exact filter_cons_real [] (real p List.mem_cons_self)
  | case3 prev p rest far ih =>
      rw [withGaps, if_pos far, filter_cons_real _ (real prev List.mem_cons_self),
        List.filter_cons, if_neg (by simp [gapPoint]), ih fun other member => real other (.tail _ member)]
  | case4 prev p rest near ih =>
      rw [withGaps, if_neg near, filter_cons_real _ (real prev List.mem_cons_self),
        ih fun other member => real other (.tail _ member)]

theorem filterMap_withGaps {figure : GraphPoint → Option ℚ} (points : List GraphPoint)
    (broken : ∀ prev next, figure (gapPoint prev next) = none) :
    (withGaps expected points).filterMap figure = points.filterMap figure := by
  induction points using withGaps.induct expected with
  | case1 => rfl
  | case2 p => rfl
  | case3 prev p rest far ih =>
      rw [withGaps, if_pos far, List.filterMap_cons, List.filterMap_cons_none (broken prev p), ih]
      exact (List.filterMap_cons ..).symm
  | case4 prev p rest near ih =>
      rw [withGaps, if_neg near, List.filterMap_cons, ih]
      exact (List.filterMap_cons ..).symm

theorem gapPoint_between {prev next : GraphPoint} (le : prev.ms ≤ next.ms) :
    prev.ms ≤ (gapPoint prev next).ms ∧ (gapPoint prev next).ms ≤ next.ms := by
  have le' : (prev.ms : ℚ) ≤ next.ms := by exact_mod_cast le
  exact ⟨le_jsRound (by linarith), jsRound_le (by linarith)⟩

theorem withGaps_ordered {points : List GraphPoint}
    (ordered : points.Pairwise fun a b => a.ms ≤ b.ms) :
    (withGaps expected points).Pairwise fun a b => a.ms ≤ b.ms := by
  induction points using withGaps.induct expected with
  | case1 => exact .nil
  | case2 p => exact List.pairwise_singleton _ _
  | case3 prev p rest far ih =>
      obtain ⟨tail, shape⟩ := withGaps_cons expected p rest
      have later := ih ordered.of_cons
      have ahead := List.rel_of_pairwise_cons ordered List.mem_cons_self
      obtain ⟨first, second⟩ := gapPoint_between ahead
      have past : ∀ other ∈ withGaps expected (p :: rest), p.ms ≤ other.ms := by
        intro other member
        rw [shape] at member later
        rcases List.mem_cons.mp member with rfl | inTail
        · exact le_rfl
        · exact List.rel_of_pairwise_cons later inTail
      rw [withGaps, if_pos far, List.pairwise_cons, List.pairwise_cons]
      refine ⟨fun other member => ?_, fun other member => second.trans (past other member), later⟩
      rcases List.mem_cons.mp member with rfl | inRest
      · exact first
      · exact ahead.trans (past other inRest)
  | case4 prev p rest near ih =>
      obtain ⟨tail, shape⟩ := withGaps_cons expected p rest
      have later := ih ordered.of_cons
      have ahead := List.rel_of_pairwise_cons ordered List.mem_cons_self
      rw [withGaps, if_neg near, List.pairwise_cons]
      refine ⟨fun other member => ?_, later⟩
      rw [shape] at member later
      rcases List.mem_cons.mp member with rfl | inTail
      · exact ahead
      · exact ahead.trans (List.rel_of_pairwise_cons later inTail)

/-- A break stands between the two points that are too far apart. -/
theorem withGaps_breaks {points : List GraphPoint} (real : ∀ p ∈ points, p.avg.isSome = true)
    {before after : List GraphPoint} {gap : GraphPoint}
    (split : withGaps expected points = before ++ gap :: after) (absent : gap.avg = none) :
    ∃ prev next, before.getLast? = some prev ∧ after.head? = some next ∧
      prev.avg.isSome ∧ next.avg.isSome ∧ (next.ms - prev.ms : ℚ) > 3 * expected * 1000 := by
  have notReal : ∀ p ∈ points, gap ≠ p := by
    rintro p member rfl
    have isReal := real gap member
    rw [absent] at isReal
    cases isReal
  induction points using withGaps.induct expected generalizing before with
  | case1 => simp [withGaps] at split
  | case2 p =>
      rw [withGaps] at split
      cases before with
      | nil => exact absurd (List.cons.inj split).1.symm (notReal p List.mem_cons_self)
      | cons first before => simp at split
  | case3 prev p rest far ih =>
      obtain ⟨tail, shape⟩ := withGaps_cons expected p rest
      rw [withGaps, if_pos far] at split
      cases before with
      | nil => exact absurd (List.cons.inj split).1.symm (notReal prev List.mem_cons_self)
      | cons first before =>
          cases before with
          | nil =>
              simp only [List.cons_append, List.nil_append, List.cons.injEq] at split
              obtain ⟨rfl, -, rest_eq⟩ := split
              rw [shape] at rest_eq
              refine ⟨prev, p, rfl, ?_, real prev List.mem_cons_self,
                real p (.tail _ List.mem_cons_self), far⟩
              rw [← rest_eq]
              rfl
          | cons second before =>
              simp only [List.cons_append, List.cons.injEq] at split
              obtain ⟨-, -, split⟩ := split
              obtain ⟨left, right, last, next, facts⟩ :=
                ih (fun other member => real other (.tail _ member)) split
                  fun other member => notReal other (.tail _ member)
              refine ⟨left, right, ?_, next, facts⟩
              rw [List.getLast?_cons, List.getLast?_cons, last]
              rfl
  | case4 prev p rest near ih =>
      rw [withGaps, if_neg near] at split
      cases before with
      | nil => exact absurd (List.cons.inj split).1.symm (notReal prev List.mem_cons_self)
      | cons first before =>
          simp only [List.cons_append, List.cons.injEq] at split
          obtain ⟨-, split⟩ := split
          obtain ⟨left, right, last, next, facts⟩ :=
            ih (fun other member => real other (.tail _ member)) split
              fun other member => notReal other (.tail _ member)
          refine ⟨left, right, ?_, next, facts⟩
          rw [List.getLast?_cons, last]
          rfl

/-- Points at ascending indices, two of them far apart only with an index free in between, leave
room for their breaks. -/
theorem length_withGaps_le {ι : Type} (index : ι → ℤ) (point : ι → GraphPoint) {last : ℤ}
    {items : List ι} (nonempty : items ≠ []) {least : ℤ} (first : ∀ item ∈ items, least ≤ index item)
    (within : ∀ item ∈ items, index item ≤ last)
    (apart : items.Pairwise fun a b => index a < index b ∧
      (((point b).ms - (point a).ms : ℚ) > 3 * expected * 1000 → index a + 2 ≤ index b)) :
    ((withGaps expected (items.map point)).length : ℤ) ≤ last - least + 1 := by
  induction items generalizing least with
  | nil => exact absurd rfl nonempty
  | cons item rest ih =>
      have own := first item List.mem_cons_self
      cases rest with
      | nil =>
          have bound := within item List.mem_cons_self
          simp only [List.map_cons, List.map_nil, withGaps, List.length_cons, List.length_nil]
          omega
      | cons next rest =>
          obtain ⟨ahead, far⟩ := List.rel_of_pairwise_cons apart List.mem_cons_self
          have after : ∀ other ∈ next :: rest, index next ≤ index other := by
            intro other member
            rcases List.mem_cons.mp member with rfl | later
            · exact le_rfl
            · exact (List.rel_of_pairwise_cons apart.of_cons later).1.le
          have bound := ih (List.cons_ne_nil _ _) after
            (fun other member => within other (.tail _ member)) apart.of_cons
          simp only [List.map_cons, withGaps] at bound ⊢
          split
          · next isFar =>
              have free := far isFar
              simp only [List.length_cons, Nat.cast_add, Nat.cast_one] at bound ⊢
              omega
          · simp only [List.length_cons, Nat.cast_add, Nat.cast_one] at bound ⊢
            omega

end Gaps

section Buckets

theorem Tells.of (s : Sample) : Tells [s] (.of s) where
  nonempty := List.cons_ne_nil _ _
  num := by simp [Bucket.of]
  sum := by simp [Bucket.of]
  lowest := rfl
  highest := rfl

theorem Tells.add {part : List Sample} {b : Bucket} (tells : Tells part b) (s : Sample) :
    Tells (part ++ [s]) (b.add s) where
  nonempty := List.append_ne_nil_of_right_ne_nil _ (List.cons_ne_nil _ _)
  num := by rw [List.map_append, List.sum_append, ← tells.num]; simp [Bucket.add]
  sum := by rw [List.map_append, List.sum_append, ← tells.sum]; simp [Bucket.add]
  lowest := by
    rw [List.map_append, List.map_singleton, List.minimum_concat, tells.lowest]
    exact (WithTop.coe_min _ _).symm
  highest := by
    rw [List.map_append, List.map_singleton, List.maximum_concat, tells.highest]
    exact (WithBot.coe_max _ _).symm

namespace ShapeOptions

variable (opts : ShapeOptions) (samples : List Sample)

def inBucket (i : ℤ) : List Sample := samples.filter fun s => opts.bucketIndex s = i

theorem buckets_concat (s : Sample) :
    opts.buckets (samples ++ [s]) =
      match (opts.buckets samples).get? (opts.bucketIndex s) with
      | none => (opts.buckets samples).set (opts.bucketIndex s) (.of s)
      | some b => (opts.buckets samples).set (opts.bucketIndex s) (b.add s) := by
  rw [buckets, List.foldl_append]
  rfl

theorem inBucket_concat_self (s : Sample) :
    opts.inBucket (samples ++ [s]) (opts.bucketIndex s) =
      opts.inBucket samples (opts.bucketIndex s) ++ [s] := by
  simp [inBucket]

theorem inBucket_concat_of_ne {s : Sample} {i : ℤ} (other : opts.bucketIndex s ≠ i) :
    opts.inBucket (samples ++ [s]) i = opts.inBucket samples i := by
  simp [inBucket, other]

/-- Each bucket holds the figures of its samples. -/
theorem get?_buckets (i : ℤ) :
    ((opts.buckets samples).get? i = none → opts.inBucket samples i = []) ∧
      ∀ b, (opts.buckets samples).get? i = some b → Tells (opts.inBucket samples i) b := by
  induction samples using List.reverseRecOn with
  | nil => exact ⟨fun _ => rfl, fun b held => absurd held (by simp [buckets])⟩
  | append_singleton samples s ih =>
      rw [buckets_concat]
      by_cases own : opts.bucketIndex s = i
      · subst own
        rw [inBucket_concat_self]
        cases held : (opts.buckets samples).get? (opts.bucketIndex s) with
        | none =>
            simp only [OrderedMap.get?_set_self]
            refine ⟨fun missing => absurd missing (Option.some_ne_none _), fun b same => ?_⟩
            cases same
            rw [ih.1 held]
            exact .of s
        | some b =>
            simp only [OrderedMap.get?_set_self]
            refine ⟨fun missing => absurd missing (Option.some_ne_none _), fun b' same => ?_⟩
            cases same
            exact (ih.2 b held).add s
      · rw [inBucket_concat_of_ne _ _ own]
        cases held : (opts.buckets samples).get? (opts.bucketIndex s) with
        | none => simpa only [OrderedMap.get?_set, own, if_false, Ne.symm own] using ih
        | some b => simpa only [OrderedMap.get?_set, own, if_false, Ne.symm own] using ih

def ordered : List (ℤ × Bucket) :=
  sortBy (fun a b => compare a.1 b.1) (opts.buckets samples).entries

theorem tells_of_mem_ordered {entry : ℤ × Bucket} (member : entry ∈ opts.ordered samples) :
    Tells (opts.inBucket samples entry.1) entry.2 :=
  (opts.get?_buckets samples entry.1).2 entry.2
    ((OrderedMap.get?_eq_some_iff _ _ _).mpr ((mem_sortBy _ _ _).mp member))

/-- No two buckets at one index. -/
theorem ordered_pairwise : (opts.ordered samples).Pairwise fun a b => a.1 < b.1 :=
  pairwise_sortBy_keys (opts.buckets samples)

/-- The samples of the buckets together are the samples. -/
theorem inBucket_perm :
    ((opts.ordered samples).map fun entry => opts.inBucket samples entry.1).flatten.Perm
      samples := by
  have distinct : ((opts.ordered samples).map Prod.fst).Nodup :=
    List.pairwise_map.mpr ((opts.ordered_pairwise samples).imp fun less => less.ne)
  have covered : ∀ s ∈ samples, opts.bucketIndex s ∈ (opts.ordered samples).map Prod.fst := by
    intro s member
    cases held : (opts.buckets samples).get? (opts.bucketIndex s) with
    | none =>
        have empty := (opts.get?_buckets samples _).1 held
        have inside : s ∈ opts.inBucket samples (opts.bucketIndex s) :=
          List.mem_filter.mpr ⟨member, decide_eq_true rfl⟩
        rw [empty] at inside
        cases inside
    | some b =>
        exact List.mem_map.mpr ⟨(_, b), (mem_sortBy _ _ _).mpr
          ((OrderedMap.get?_eq_some_iff _ _ _).mp held), rfl⟩
  have parts := perm_flatMap_filter opts.bucketIndex ((opts.ordered samples).map Prod.fst) samples
    distinct covered
  rw [List.flatMap_map] at parts
  exact parts

end ShapeOptions

end Buckets

def ShapeOptions.parts (opts : ShapeOptions) (samples : List Sample) (downsampled : Bool) :
    List (List Sample) :=
  if downsampled then (opts.ordered samples).map fun entry => opts.inBucket samples entry.1
  else samples.map ([·])

structure ShapedWell (samples : List Sample) (opts : ShapeOptions) (shaped : ShapedSeries) :
    Prop where
  fits : shaped.points.length ≤ opts.points
  ordered : shaped.points.Pairwise fun a b => a.ms ≤ b.ms
  /-- A null stands between two neighbours that are too far apart. -/
  breaks : ∀ before gap after, shaped.points = before ++ gap :: after → gap.avg = none →
    ∃ prev next, before.getLast? = some prev ∧ after.head? = some next ∧
      prev.avg.isSome ∧ next.avg.isSome ∧
      (next.ms - prev.ms : ℚ) > 3 * opts.expectedSpacing samples shaped.downsampled * 1000
  /-- An average lies between the lowest and the highest value it is made of. -/
  between : shaped.downsampled ∨ opts.withBand →
    ∀ p ∈ shaped.points, ∀ avg, p.avg = some avg →
      ∃ lo hi, p.min = some lo ∧ p.max = some hi ∧ lo ≤ avg ∧ avg ≤ hi
  highest : shaped.downsampled ∨ opts.withBand →
    (shaped.points.filterMap (·.max)).maximum = (samples.map (·.max)).maximum
  lowest : shaped.downsampled ∨ opts.withBand →
    (shaped.points.filterMap (·.min)).minimum = (samples.map (·.min)).minimum
  /-- Every sample is told once, by the point of its part. -/
  once : (opts.parts samples shaped.downsampled).flatten.Perm samples
  told : List.Forall₂ (Stands (shaped.downsampled ∨ opts.withBand))
    (opts.parts samples shaped.downsampled) (shaped.points.filter (·.avg.isSome))
  /-- Weighted by count the points have the mean of the samples. -/
  mean : (List.zipWith (fun part p => (part.map Sample.num).sum * p.avg.getD 0)
      (opts.parts samples shaped.downsampled) (shaped.points.filter (·.avg.isSome))).sum /
        ((opts.parts samples shaped.downsampled).map fun part => (part.map Sample.num).sum).sum =
      (samples.map (·.sum)).sum / (samples.map (·.num)).sum

section Parts

variable {banded : Prop} {parts : List (List Sample)} {points : List GraphPoint}
  {samples : List Sample}

theorem Tells.stands {part : List Sample} {b : Bucket} (tells : Tells part b) (opts : ShapeOptions)
    (i : ℤ) : Stands banded part (opts.bucketPoint (i, b)) where
  nonempty := tells.nonempty
  avg := by rw [← tells.sum, ← tells.num]; rfl
  band _ := ⟨b.min, b.max, rfl, rfl, tells.lowest, tells.highest⟩

theorem stands_rawPoint {opts : ShapeOptions} (withBand : banded → opts.withBand = true)
    (s : Sample) : Stands banded [s] (opts.rawPoint s) where
  nonempty := List.cons_ne_nil _ _
  avg := by simp [ShapeOptions.rawPoint]
  band band := ⟨s.min, s.max, if_pos (withBand band), if_pos (withBand band), rfl, rfl⟩

theorem stands_of_mem (told : List.Forall₂ (Stands banded) parts points) {p : GraphPoint}
    (member : p ∈ points) : ∃ part ∈ parts, Stands banded part p := by
  induction told with
  | nil => cases member
  | @cons part q parts points stands rest ih =>
      rcases List.mem_cons.mp member with rfl | later
      · exact ⟨part, List.mem_cons_self, stands⟩
      · obtain ⟨own, isPart, facts⟩ := ih later
        exact ⟨own, .tail _ isPart, facts⟩

theorem highest_of_stands (told : List.Forall₂ (Stands banded) parts points) (band : banded) :
    (points.filterMap (·.max)).maximum = (parts.flatten.map (·.max)).maximum := by
  induction told with
  | nil => rfl
  | cons stands rest ih =>
      obtain ⟨lo, hi, -, isMax, -, highest⟩ := stands.band band
      rw [List.filterMap_cons_some isMax, List.maximum_cons, List.flatten_cons, List.map_append,
        List.maximum_append, highest, ih]

theorem lowest_of_stands (told : List.Forall₂ (Stands banded) parts points) (band : banded) :
    (points.filterMap (·.min)).minimum = (parts.flatten.map (·.min)).minimum := by
  induction told with
  | nil => rfl
  | cons stands rest ih =>
      obtain ⟨lo, hi, isMin, -, lowest, -⟩ := stands.band band
      rw [List.filterMap_cons_some isMin, List.minimum_cons, List.flatten_cons, List.map_append,
        List.minimum_append, lowest, ih]

theorem count_pos {part : List Sample} (counts : ∀ s ∈ part, 1 ≤ s.num) (nonempty : part ≠ []) :
    0 < (part.map (·.num)).sum := by
  cases part with
  | nil => exact absurd rfl nonempty
  | cons s part =>
      have own := counts s List.mem_cons_self
      have rest : 0 ≤ (part.map (·.num)).sum := by
        refine List.sum_nonneg fun number member => ?_
        obtain ⟨other, inPart, rfl⟩ := List.mem_map.mp member
        exact zero_le_one.trans (counts other (.tail _ inPart))
      rw [List.map_cons, List.sum_cons]
      linarith

/-- Each point tells the sum of its part. -/
theorem weighted_of_stands (told : List.Forall₂ (Stands banded) parts points)
    (counts : ∀ part ∈ parts, ∀ s ∈ part, 1 ≤ s.num) :
    (List.zipWith (fun part p => (part.map Sample.num).sum * p.avg.getD 0) parts points).sum =
      (parts.flatten.map (·.sum)).sum := by
  induction told with
  | nil => rfl
  | @cons part p parts points stands rest ih =>
      have positive := count_pos (counts part List.mem_cons_self) stands.nonempty
      have own : (part.map Sample.num).sum * p.avg.getD 0 = (part.map (·.sum)).sum := by
        rw [stands.avg, Option.getD_some, mul_div_cancel₀ _ positive.ne']
      rw [List.zipWith_cons_cons, List.sum_cons, own,
        ih fun other member => counts other (.tail _ member), List.flatten_cons, List.map_append,
        List.sum_append]

theorem sum_counts (parts : List (List Sample)) :
    (parts.map fun part => (part.map Sample.num).sum).sum = (parts.flatten.map (·.num)).sum := by
  induction parts with
  | nil => rfl
  | cons part parts ih =>
      rw [List.map_cons, List.sum_cons, ih, List.flatten_cons, List.map_append, List.sum_append]

/-- A mean weighted by count lies between the lowest and the highest value. -/
theorem Stands.between {part : List Sample} {p : GraphPoint} (stands : Stands banded part p)
    (band : banded) (counts : ∀ s ∈ part, 1 ≤ s.num)
    (between : ∀ s ∈ part, s.min ≤ s.sum / s.num ∧ s.sum / s.num ≤ s.max) {avg : ℚ}
    (isAvg : p.avg = some avg) :
    ∃ lo hi, p.min = some lo ∧ p.max = some hi ∧ lo ≤ avg ∧ avg ≤ hi := by
  obtain ⟨lo, hi, isMin, isMax, lowest, highest⟩ := stands.band band
  have positive := count_pos counts stands.nonempty
  rw [stands.avg] at isAvg
  cases isAvg
  refine ⟨lo, hi, isMin, isMax, ?_, ?_⟩
  · rw [le_div_iff₀ positive, ← List.sum_map_mul_left]
    refine List.sum_le_sum fun s member => ?_
    have ownPositive : 0 < s.num := zero_lt_one.trans_le (counts s member)
    have below : lo ≤ s.min :=
      (List.minimum_eq_coe_iff.mp lowest).2 _ (List.mem_map_of_mem member)
    exact (le_div_iff₀ ownPositive).mp (below.trans (between s member).1)
  · rw [div_le_iff₀ positive, ← List.sum_map_mul_left]
    refine List.sum_le_sum fun s member => ?_
    have ownPositive : 0 < s.num := zero_lt_one.trans_le (counts s member)
    have above : s.max ≤ hi :=
      (List.maximum_eq_coe_iff.mp highest).2 _ (List.mem_map_of_mem member)
    exact (div_le_iff₀ ownPositive).mp ((between s member).2.trans above)

end Parts

/-- What the parts of the points and a few facts about the points make of a chart. -/
theorem ShapedWell.of_parts {samples : List Sample} {opts : ShapeOptions} {points : List GraphPoint}
    (downsampled : Bool) (counts : ∀ s ∈ samples, 1 ≤ s.num)
    (between : ∀ s ∈ samples, s.min ≤ s.sum / s.num ∧ s.sum / s.num ≤ s.max)
    (once : (opts.parts samples downsampled).flatten.Perm samples)
    (told : List.Forall₂ (Stands (downsampled ∨ opts.withBand)) (opts.parts samples downsampled)
      points)
    (sorted : points.Pairwise fun a b => a.ms ≤ b.ms)
    (fits : (withGaps (opts.expectedSpacing samples downsampled) points).length ≤ opts.points) :
    ShapedWell samples opts
      ⟨withGaps (opts.expectedSpacing samples downsampled) points, downsampled⟩ := by
  have inside : ∀ part ∈ opts.parts samples downsampled, ∀ s ∈ part, s ∈ samples :=
    fun part member s inPart => once.mem_iff.mp (List.mem_flatten.mpr ⟨part, member, inPart⟩)
  have real : ∀ p ∈ points, p.avg.isSome = true := by
    intro p member
    obtain ⟨part, -, stands⟩ := stands_of_mem told member
    rw [stands.avg]
    rfl
  have unbroken := filter_withGaps (opts.expectedSpacing samples downsampled) real
  exact {
    fits := fits
    ordered := withGaps_ordered sorted
    breaks := fun before gap after split broken => withGaps_breaks real split broken
    between := by
      intro band p member avg isAvg
      have kept : p ∈ points := by
        rw [← unbroken]
        exact List.mem_filter.mpr ⟨member, by rw [isAvg]; rfl⟩
      obtain ⟨part, isPart, stands⟩ := stands_of_mem told kept
      exact stands.between band (fun s inPart => counts s (inside part isPart s inPart))
        (fun s inPart => between s (inside part isPart s inPart)) isAvg
    highest := by
      intro band
      rw [filterMap_withGaps points fun _ _ => rfl, highest_of_stands told band,
        (once.map _).maximum_eq]
    lowest := by
      intro band
      rw [filterMap_withGaps points fun _ _ => rfl, lowest_of_stands told band,
        (once.map _).minimum_eq]
    once := once
    told := by rwa [unbroken]
    mean := by
      rw [unbroken, sum_counts, (once.map _).sum_eq, weighted_of_stands told
        fun part isPart s inPart => counts s (inside part isPart s inPart), (once.map _).sum_eq] }

section Bucketed

variable {opts : ShapeOptions} {samples : List Sample}

theorem width_pos (points : 1 ≤ opts.points) (window : opts.start < opts.stop) :
    0 < opts.width := by
  have most : (0 : ℚ) < opts.points := by exact_mod_cast points
  have apart : (opts.start : ℚ) < opts.stop := by exact_mod_cast window
  exact div_pos (by linarith) most

/-- Inside the window no sample is held to the first or last bucket. -/
theorem bucketIndex_inside (points : 1 ≤ opts.points) {s : Sample}
    (inside : opts.start ≤ s.clock ∧ s.clock < opts.stop) :
    0 ≤ opts.bucketIndex s ∧ opts.bucketIndex s ≤ opts.points - 1 ∧
      opts.bucketIndex s = ⌊(s.clock - opts.start) / opts.width⌋ := by
  have wide := width_pos points (inside.1.trans_lt inside.2)
  have most : (0 : ℚ) < opts.points := by exact_mod_cast points
  have early : (opts.start : ℚ) ≤ s.clock := by exact_mod_cast inside.1
  have late : (s.clock : ℚ) < opts.stop := by exact_mod_cast inside.2
  have least : 0 ≤ ⌊(s.clock - opts.start) / opts.width⌋ :=
    Int.floor_nonneg.mpr (div_nonneg (by linarith) wide.le)
  have all : opts.width * opts.points = opts.stop - opts.start := div_mul_cancel₀ _ most.ne'
  have last : ⌊(s.clock - opts.start) / opts.width⌋ ≤ opts.points - 1 := by
    refine Int.le_sub_one_of_lt (Int.floor_lt.mpr ?_)
    rw [div_lt_iff₀ wide]
    push_cast
    linarith
  have same : opts.bucketIndex s = ⌊(s.clock - opts.start) / opts.width⌋ := by
    unfold ShapeOptions.bucketIndex
    omega
  exact ⟨same ▸ least, same ▸ last, same⟩

theorem bucketPoint_ordered (wide : 0 < opts.width) {a b : ℤ × Bucket} (ahead : a.1 < b.1) :
    (opts.bucketPoint a).ms ≤ (opts.bucketPoint b).ms := by
  have less : (a.1 : ℚ) < b.1 := by exact_mod_cast ahead
  refine jsRound_mono ?_
  have scaled := mul_le_mul_of_nonneg_right less.le wide.le
  linarith

/-- Between the centres of neighbouring buckets that hold samples no break is due: whole
seconds leave a bucket more than half a second. -/
theorem bucketPoint_near (points : 1 ≤ opts.points)
    (inside : ∀ s ∈ samples, opts.start ≤ s.clock ∧ s.clock < opts.stop)
    {a b : ℤ × Bucket} (someA : opts.inBucket samples a.1 ≠ [])
    (someB : opts.inBucket samples b.1 ≠ []) (next : b.1 = a.1 + 1) {expected : ℚ}
    (enough : opts.width ≤ expected) :
    ¬ (((opts.bucketPoint b).ms - (opts.bucketPoint a).ms : ℚ) > 3 * expected * 1000) := by
  obtain ⟨s, inA⟩ := List.exists_mem_of_ne_nil _ someA
  obtain ⟨t, inB⟩ := List.exists_mem_of_ne_nil _ someB
  obtain ⟨sample, isA⟩ := List.mem_filter.mp inA
  obtain ⟨other, isB⟩ := List.mem_filter.mp inB
  have wide := width_pos points ((inside s sample).1.trans_lt (inside s sample).2)
  have ofS := (bucketIndex_inside points (inside s sample)).2.2
  have ofT := (bucketIndex_inside points (inside t other)).2.2
  rw [of_decide_eq_true isA] at ofS
  rw [of_decide_eq_true isB] at ofT
  obtain ⟨lowS, highS⟩ := Int.floor_eq_iff.mp ofS.symm
  obtain ⟨lowT, highT⟩ := Int.floor_eq_iff.mp ofT.symm
  rw [le_div_iff₀ wide] at lowS lowT
  rw [div_lt_iff₀ wide] at highS highT
  rw [next] at lowT highT
  push_cast at lowT highT
  have later : s.clock < t.clock := by
    have less : (s.clock : ℚ) < t.clock := by linarith
    exact_mod_cast less
  have second : (s.clock : ℚ) + 1 ≤ t.clock := by exact_mod_cast later
  have half : 1 < 2 * opts.width := by linarith
  have moved := jsRound_sub_le ((opts.start + ((a.1 : ℚ) + 1 / 2) * opts.width) * 1000)
    ((opts.start + ((b.1 : ℚ) + 1 / 2) * opts.width) * 1000)
  have apart : ((opts.start + ((b.1 : ℚ) + 1 / 2) * opts.width) * 1000) -
      ((opts.start + ((a.1 : ℚ) + 1 / 2) * opts.width) * 1000) = opts.width * 1000 := by
    rw [next]
    push_cast
    ring
  rw [apart] at moved
  push_cast at moved
  unfold ShapeOptions.bucketPoint
  linarith

/-- The buckets and their breaks leave each other room. -/
theorem length_bucketed_le (points : 1 ≤ opts.points)
    (inside : ∀ s ∈ samples, opts.start ≤ s.clock ∧ s.clock < opts.stop) {expected : ℚ}
    (enough : opts.width ≤ expected) :
    (withGaps expected ((opts.ordered samples).map opts.bucketPoint)).length ≤ opts.points := by
  by_cases empty : opts.ordered samples = []
  · rw [empty]
    exact Nat.zero_le _
  have nonempty : ∀ entry ∈ opts.ordered samples, opts.inBucket samples entry.1 ≠ [] :=
    fun entry member => (opts.tells_of_mem_ordered samples member).nonempty
  have bounds : ∀ entry ∈ opts.ordered samples, 0 ≤ entry.1 ∧ entry.1 ≤ (opts.points : ℤ) - 1 := by
    intro entry member
    obtain ⟨s, inPart⟩ := List.exists_mem_of_ne_nil _ (nonempty entry member)
    obtain ⟨sample, same⟩ := List.mem_filter.mp inPart
    have own := bucketIndex_inside points (inside s sample)
    rw [of_decide_eq_true same] at own
    exact ⟨own.1, own.2.1⟩
  have apart : (opts.ordered samples).Pairwise fun a b => a.1 < b.1 ∧
      (((opts.bucketPoint b).ms - (opts.bucketPoint a).ms : ℚ) > 3 * expected * 1000 →
        a.1 + 2 ≤ b.1) := by
    refine (opts.ordered_pairwise samples).imp_of_mem fun {a b} inA inB ahead => ⟨ahead, ?_⟩
    intro far
    by_contra close
    exact bucketPoint_near points inside (nonempty a inA) (nonempty b inB) (by omega) enough far
  have counted := length_withGaps_le Prod.fst opts.bucketPoint empty
    (fun entry member => (bounds entry member).1) (fun entry member => (bounds entry member).2) apart
  omega

end Bucketed

/-- A shaped series fits its budget in the order of time, breaks its line at collection gaps
only, and keeps the highest, the lowest and the mean of the samples. -/
theorem shapeSeries_shapes_well (samples : List Sample) (opts : ShapeOptions)
    (sorted : samples.Pairwise fun s t => s.clock ≤ t.clock) (counts : ∀ s ∈ samples, 1 ≤ s.num)
    (between : ∀ s ∈ samples, s.min ≤ s.sum / s.num ∧ s.sum / s.num ≤ s.max)
    (inside : ∀ s ∈ samples, opts.start ≤ s.clock ∧ s.clock < opts.stop)
    (points : 1 ≤ opts.points) : ShapedWell samples opts (shapeSeries samples opts) := by
  unfold shapeSeries
  by_cases few : samples.length ≤ opts.points ∧
      (withGaps (opts.baseExpected samples) (samples.map opts.rawPoint)).length ≤ opts.points
  · rw [if_pos few]
    refine ShapedWell.of_parts false counts between ?_ ?_ ?_ few.2
    · rw [ShapeOptions.parts, if_neg Bool.false_ne_true, ← List.flatMap_def,
        List.flatMap_singleton']
    · rw [ShapeOptions.parts, if_neg Bool.false_ne_true, List.forall₂_map_left_iff,
        List.forall₂_map_right_iff]
      refine List.forall₂_same.mpr fun s _ => stands_rawPoint (fun band => ?_) s
      exact band.resolve_left Bool.false_ne_true
    · refine List.pairwise_map.mpr (sorted.imp fun le => ?_)
      exact mul_le_mul_of_nonneg_right le (by norm_num)
  · rw [if_neg few]
    refine ShapedWell.of_parts true counts between (opts.inBucket_perm samples) ?_ ?_
      (length_bucketed_le points inside (le_max_right _ _))
    · rw [ShapeOptions.parts, if_pos rfl, List.forall₂_map_left_iff, List.forall₂_map_right_iff]
      exact List.forall₂_same.mpr fun entry member =>
        (opts.tells_of_mem_ordered samples member).stands opts entry.1
    · refine List.pairwise_map.mpr ((opts.ordered_pairwise samples).imp_of_mem ?_)
      intro a b inA _ ahead
      obtain ⟨s, inPart⟩ := List.exists_mem_of_ne_nil _ (opts.tells_of_mem_ordered samples inA).nonempty
      have own := inside s (List.mem_filter.mp inPart).1
      exact bucketPoint_ordered (width_pos points (own.1.trans_lt own.2)) ahead

/-- Three samples in a budget of two points. -/
theorem shapeSeries_shapes_well_folded :
    let samples : List Sample :=
      [⟨0, 1, 2, 2, 2, false⟩, ⟨60, 1, 8, 8, 8, false⟩, ⟨540, 1, 5, 5, 5, false⟩]
    let opts : ShapeOptions := ⟨0, 600, 2, 60, false⟩
    ShapedWell samples opts (shapeSeries samples opts) :=
  shapeSeries_shapes_well _ _ (by decide) (by decide) (by decide +kernel) (by decide) (by decide)

end ZabbixPortal.Services
