import ZabbixPortal.Sli.IntervalsProperties
import Mathlib.Data.List.GetD

/-! The interval operations over the arrays they really handle: an interval is a cell
that several lists may share, and merging writes to the last cell it pushed. -/

set_option autoImplicit false

namespace ZabbixPortal.Sli

open Foundation.HalfOpen

/-- The cells allocated so far; a reference is a position in it. -/
abbrev Cells := List Interval

namespace Cells

def cell (memory : Cells) (ref : Nat) : Interval := memory.getD ref (0, 0)

def alloc (memory : Cells) (interval : Interval) : Cells := memory ++ [interval]

def write (memory : Cells) (ref : Nat) (interval : Interval) : Cells := memory.set ref interval

def allocAll (memory : Cells) (intervals : List Interval) : Cells × List Nat :=
  (memory ++ intervals, List.range' memory.length intervals.length)

def mergeLoop (memory : Cells) (out : List Nat) : List Nat → Cells × List Nat
  | [] => (memory, out)
  | ref :: sorted =>
      let next := memory.cell ref
      match out.getLast? with
      | none => mergeLoop (memory.alloc next) (out ++ [memory.length]) sorted
      | some last =>
          let open' := memory.cell last
          if next.1 ≤ open'.2 then
            mergeLoop (memory.write last (open'.1, max open'.2 next.2)) out sorted
          else mergeLoop (memory.alloc next) (out ++ [memory.length]) sorted

def mergeIntervals (memory : Cells) (intervals : List Nat) : Cells × List Nat :=
  let proper := intervals.filter fun ref => (memory.cell ref).2 > (memory.cell ref).1
  mergeLoop memory []
    (proper.insertionSort fun left right => (memory.cell left).1 ≤ (memory.cell right).1)

def intersectIntervals (memory : Cells) (a b : List Nat) : Cells × List Nat :=
  let x := memory.mergeIntervals a
  let y := x.1.mergeIntervals b
  y.1.allocAll (intersectLoop (x.2.map y.1.cell) (y.2.map y.1.cell))

def clipIntervals (memory : Cells) (intervals : List Nat) (start stop : ℤ) : Cells × List Nat :=
  let clipped := memory.allocAll (intervals.map fun ref =>
    (max (memory.cell ref).1 start, min (memory.cell ref).2 stop))
  (clipped.1, clipped.2.filter fun ref => (clipped.1.cell ref).2 > (clipped.1.cell ref).1)

def complementIntervals (memory : Cells) (holes : List Nat) (start stop : ℤ) :
    Cells × List Nat :=
  let clipped := memory.clipIntervals holes start stop
  let merged := clipped.1.mergeIntervals clipped.2
  merged.1.allocAll (complementFrom stop start (merged.2.map merged.1.cell))

/-- An operation that yields `value` in cells of its own and writes to no earlier one. -/
structure Leaves (memory : Cells) (result : Cells × List Nat) (value : List Interval) :
    Prop where
  kept : memory <+: result.1
  reads : result.2.map result.1.cell = value
  fresh : ∀ ref ∈ result.2, memory.length ≤ ref ∧ ref < result.1.length

variable {memory later : Cells} {refs : List Nat}

theorem cell_of_kept (kept : memory <+: later) {ref : Nat} (inside : ref < memory.length) :
    later.cell ref = memory.cell ref := by
  obtain ⟨added, rfl⟩ := kept
  exact List.getD_append _ _ _ _ inside

theorem map_cell_of_kept (kept : memory <+: later) (inside : ∀ ref ∈ refs, ref < memory.length) :
    refs.map later.cell = refs.map memory.cell :=
  List.map_congr_left fun ref member => cell_of_kept kept (inside ref member)

theorem cell_alloc (memory : Cells) (interval : Interval) :
    (memory.alloc interval).cell memory.length = interval := by
  simp [cell, alloc]

theorem cell_write (memory : Cells) {ref : Nat} (inside : ref < memory.length)
    (interval : Interval) : (memory.write ref interval).cell ref = interval := by
  simp [cell, write, inside]

theorem cell_write_of_ne (memory : Cells) {ref other : Nat} (different : ref ≠ other)
    (interval : Interval) : (memory.write ref interval).cell other = memory.cell other := by
  simp [cell, write, List.getElem?_set_ne different]

theorem map_cell_range' (memory added : Cells) :
    (List.range' memory.length added.length).map (memory ++ added).cell = added := by
  induction added generalizing memory with
  | nil => rfl
  | cons first rest ih =>
      have others := ih (memory ++ [first])
      rw [List.length_append, List.length_singleton, List.append_assoc] at others
      rw [List.length_cons, List.range'_succ, List.map_cons]
      congr 1
      simp [cell]

theorem leaves_allocAll (memory : Cells) (intervals : List Interval) :
    Leaves memory (memory.allocAll intervals) intervals where
  kept := List.prefix_append _ _
  reads := map_cell_range' memory intervals
  fresh := by
    intro ref member
    obtain ⟨lower, upper⟩ := List.mem_range'_1.mp member
    exact ⟨lower, by simpa [allocAll] using upper⟩

/-- The loop under way, with `last` the cell pushed last: only that cell is written. -/
private theorem leaves_mergeLoop {base memory : Cells} {done sorted : List Nat} {last : Nat}
    (kept : base <+: memory) (old : ∀ ref ∈ sorted, ref < base.length)
    (own : base.length ≤ last) (inside : last < memory.length)
    (before : ∀ ref ∈ done, base.length ≤ ref ∧ ref < last) :
    Leaves base (mergeLoop memory (done ++ [last]) sorted)
      (done.map memory.cell ++ mergeFrom (memory.cell last) (sorted.map base.cell)) := by
  induction sorted generalizing memory done last with
  | nil =>
      refine ⟨kept, by simp [mergeLoop, mergeFrom], ?_⟩
      intro ref member
      rcases List.mem_append.mp member with inDone | isLast
      · obtain ⟨lower, upper⟩ := before ref inDone
        exact ⟨lower, upper.trans inside⟩
      · obtain rfl := List.mem_singleton.mp isLast
        exact ⟨own, inside⟩
  | cons ref sorted ih =>
      have reading : memory.cell ref = base.cell ref :=
        cell_of_kept kept (old ref List.mem_cons_self)
      have oldRest : ∀ other ∈ sorted, other < base.length := fun other member =>
        old other (List.mem_cons_of_mem _ member)
      rw [mergeLoop, List.getLast?_concat, List.map_cons, mergeFrom]
      dsimp only
      rw [reading]
      split
      · next touches =>
          -- The written cell lies past `base`, and no cell in `done` is the one written.
          have keptStill : base <+: memory.write last
              ((memory.cell last).1, max (memory.cell last).2 (base.cell ref).2) := by
            obtain ⟨added, rfl⟩ := kept
            rw [write, List.set_append_right _ _ own]
            exact List.prefix_append _ _
          have looped := ih keptStill oldRest own (by simpa [write] using inside) before
          have others : done.map (memory.write last
              ((memory.cell last).1, max (memory.cell last).2 (base.cell ref).2)).cell =
              done.map memory.cell := by
            apply List.map_congr_left
            intro other member
            exact cell_write_of_ne memory (before other member).2.ne' _
          rw [cell_write memory inside, others] at looped
          exact looped
      · next apart =>
          have keptStill : base <+: memory.alloc (base.cell ref) :=
            kept.trans (List.prefix_append _ _)
          have grown : ∀ other ∈ done ++ [last], base.length ≤ other ∧ other < memory.length := by
            intro other member
            rcases List.mem_append.mp member with inDone | isLast
            · obtain ⟨lower, upper⟩ := before other inDone
              exact ⟨lower, upper.trans inside⟩
            · obtain rfl := List.mem_singleton.mp isLast
              exact ⟨own, inside⟩
          have looped := ih keptStill oldRest kept.length_le (by simp [alloc]) grown
          have others : (done ++ [last]).map (memory.alloc (base.cell ref)).cell =
              (done ++ [last]).map memory.cell :=
            map_cell_of_kept (List.prefix_append _ _) fun other member => (grown other member).2
          rw [cell_alloc, others, List.map_append, List.append_assoc (done.map _)] at looped
          exact looped

private def sortedRefs (memory : Cells) (refs : List Nat) : List Nat :=
  (refs.filter fun ref => (memory.cell ref).2 > (memory.cell ref).1).insertionSort
    fun left right => (memory.cell left).1 ≤ (memory.cell right).1

private theorem map_cell_sortedRefs :
    (sortedRefs memory refs).map memory.cell =
      sortByStart ((refs.map memory.cell).filter fun interval => interval.2 > interval.1) := by
  rw [sortedRefs, List.map_insertionSort _ (fun left right : Interval => left.1 ≤ right.1)
    memory.cell _ fun _ _ _ _ => Iff.rfl, List.filter_map]
  rfl

theorem leaves_mergeIntervals (inside : ∀ ref ∈ refs, ref < memory.length) :
    Leaves memory (memory.mergeIntervals refs) (Sli.mergeIntervals (refs.map memory.cell)) := by
  have old : ∀ ref ∈ sortedRefs memory refs, ref < memory.length := by
    intro ref member
    have filtered := (List.mem_insertionSort _).mp member
    exact inside ref (List.mem_of_mem_filter filtered)
  change Leaves memory (mergeLoop memory [] (sortedRefs memory refs)) _
  rw [Sli.mergeIntervals, ← map_cell_sortedRefs]
  cases sorted : sortedRefs memory refs with
  | nil => exact ⟨List.prefix_rfl, rfl, by simp [mergeLoop]⟩
  | cons first rest =>
      rw [sorted] at old
      have rest' : ∀ ref ∈ rest, ref < memory.length := fun ref member =>
        old ref (List.mem_cons_of_mem _ member)
      have kept : memory <+: memory.alloc (memory.cell first) := List.prefix_append _ _
      have looped : Leaves memory (mergeLoop (memory.alloc (memory.cell first))
          ([] ++ [memory.length]) rest) _ :=
        leaves_mergeLoop kept rest' le_rfl (by simp [alloc]) (by simp)
      rw [cell_alloc] at looped
      exact looped

theorem Leaves.trans {first second : Cells × List Nat} {between value : List Interval}
    (before : Leaves memory first between) (after : Leaves first.1 second value) :
    Leaves memory second value where
  kept := before.kept.trans after.kept
  reads := after.reads
  fresh := fun ref member =>
    ⟨before.kept.length_le.trans (after.fresh ref member).1, (after.fresh ref member).2⟩

/-- What an operation yielded still reads the same after the next one. -/
theorem Leaves.readLater {first second : Cells × List Nat} {value next : List Interval}
    (before : Leaves memory first value) (after : Leaves first.1 second next) :
    first.2.map second.1.cell = value := by
  have same := map_cell_of_kept after.kept fun ref member => (before.fresh ref member).2
  exact same.trans before.reads

theorem leaves_intersectIntervals {a b : List Nat} (insideLeft : ∀ ref ∈ a, ref < memory.length)
    (insideRight : ∀ ref ∈ b, ref < memory.length) :
    Leaves memory (memory.intersectIntervals a b)
      (Sli.intersectIntervals (a.map memory.cell) (b.map memory.cell)) := by
  have x := leaves_mergeIntervals insideLeft
  have stillInside : ∀ ref ∈ b, ref < (memory.mergeIntervals a).1.length := fun ref member =>
    (insideRight ref member).trans_le x.kept.length_le
  have y := leaves_mergeIntervals stillInside
  unfold intersectIntervals
  dsimp only
  rw [x.readLater y, y.reads, map_cell_of_kept x.kept insideRight]
  exact x.trans (y.trans (leaves_allocAll _ _))

theorem leaves_clipIntervals (start stop : ℤ) :
    Leaves memory (memory.clipIntervals refs start stop)
      (Sli.clipIntervals (refs.map memory.cell) start stop) := by
  have clipped := leaves_allocAll memory (refs.map fun ref =>
    (max (memory.cell ref).1 start, min (memory.cell ref).2 stop))
  refine ⟨clipped.kept, ?_, fun ref member => clipped.fresh ref (List.mem_of_mem_filter member)⟩
  have filtered : Sli.clipIntervals (refs.map memory.cell) start stop =
      (refs.map fun ref => (max (memory.cell ref).1 start, min (memory.cell ref).2 stop)).filter
        fun interval => interval.2 > interval.1 := by
    rw [Sli.clipIntervals, List.map_map]
    rfl
  have reading := clipped.reads
  unfold clipIntervals
  dsimp only
  rw [filtered]
  generalize memory.allocAll _ = cells at reading ⊢
  rw [← reading, List.filter_map]
  rfl

theorem leaves_complementIntervals (start stop : ℤ) :
    Leaves memory (memory.complementIntervals refs start stop)
      (Sli.complementIntervals (refs.map memory.cell) start stop) := by
  have clipped : Leaves memory (memory.clipIntervals refs start stop) _ :=
    leaves_clipIntervals start stop
  have merged := leaves_mergeIntervals fun ref member => (clipped.fresh ref member).2
  rw [clipped.reads] at merged
  unfold complementIntervals
  dsimp only
  rw [merged.reads, Sli.complementIntervals]
  exact clipped.trans (merged.trans (leaves_allocAll _ _))

end Cells

/-- Intervals of an intersection lie in an interval of either side. -/
private theorem inside_intersectWith (x : Interval) (xs ys : List Interval)
    (next : List Interval → List Interval)
    (inside : ∀ others, ∀ interval ∈ next others,
      (∃ left ∈ xs, left.1 ≤ interval.1) ∧ ∃ right ∈ others, right.1 ≤ interval.1) :
    ∀ interval ∈ intersectWith x next ys,
      (∃ left ∈ x :: xs, left.1 ≤ interval.1) ∧ ∃ right ∈ ys, right.1 ≤ interval.1 := by
  induction ys with
  | nil => simp [intersectWith]
  | cons y ys ih =>
      have rest : ∀ interval ∈ (if x.2 < y.2 then next (y :: ys) else intersectWith x next ys),
          (∃ left ∈ x :: xs, left.1 ≤ interval.1) ∧
            ∃ right ∈ y :: ys, right.1 ≤ interval.1 := by
        intro interval member
        split at member
        · obtain ⟨⟨left, inLeft, lower⟩, inRight⟩ := inside _ interval member
          exact ⟨⟨left, List.mem_cons_of_mem _ inLeft, lower⟩, inRight⟩
        · obtain ⟨inLeft, right, inRight, lower⟩ := ih interval member
          exact ⟨inLeft, right, List.mem_cons_of_mem _ inRight, lower⟩
      intro interval member
      rw [intersectWith] at member
      split at member
      · rcases List.mem_cons.mp member with rfl | inRest
        · exact ⟨⟨x, List.mem_cons_self, le_max_left _ _⟩, y, List.mem_cons_self,
            le_max_right _ _⟩
        · exact rest interval inRest
      · exact rest interval member

private theorem inside_intersectLoop (xs ys : List Interval) :
    ∀ interval ∈ intersectLoop xs ys,
      (∃ left ∈ xs, left.1 ≤ interval.1) ∧ ∃ right ∈ ys, right.1 ≤ interval.1 := by
  induction xs generalizing ys with
  | nil => simp [intersectLoop]
  | cons x xs ih => exact inside_intersectWith x xs ys _ ih

private theorem separated_intersectWith {x : Interval} {xs ys : List Interval}
    (left : Separated (x :: xs)) (right : Separated ys)
    (next : ∀ others, Separated others → Separated (intersectLoop xs others)) :
    Separated (intersectWith x (intersectLoop xs) ys) := by
  induction ys with
  | nil => exact Separated.nil
  | cons y ys ih =>
      rw [intersectWith]
      have rest : Separated
          (if x.2 < y.2 then intersectLoop xs (y :: ys) else intersectWith x (intersectLoop xs) ys) := by
        split
        · exact next _ right
        · exact ih right.tail
      split
      · next meets =>
          refine Separated.cons meets ?_ rest
          intro interval member
          -- The pointer that advanced left an interval that ends before all later ones.
          split at member
          · next leftFirst =>
              obtain ⟨⟨other, inRest, lower⟩, _⟩ := inside_intersectLoop _ _ interval member
              have gap := (List.pairwise_cons.mp left.apart).1 other inRest
              exact (min_le_left _ _).trans_lt (gap.trans_le lower)
          · obtain ⟨_, other, inRest, lower⟩ :=
              inside_intersectWith x xs ys _ (inside_intersectLoop xs) interval member
            have gap := (List.pairwise_cons.mp right.apart).1 other inRest
            exact (min_le_right _ _).trans_lt (gap.trans_le lower)
      · exact rest

private theorem separated_intersectLoop {xs ys : List Interval} (left : Separated xs)
    (right : Separated ys) : Separated (intersectLoop xs ys) := by
  induction xs generalizing ys with
  | nil => exact Separated.nil
  | cons x xs ih => exact separated_intersectWith left right fun others => ih left.tail

theorem intersectIntervals_separated (a b : List Interval) :
    Separated (intersectIntervals a b) :=
  separated_intersectLoop (mergeIntervals_separated a) (mergeIntervals_separated b)

private theorem separated_complementFrom {stop cursor : ℤ} {holes : List Interval}
    (ordered : Ordered holes) (within : ∀ hole ∈ holes, cursor ≤ hole.1) :
    Separated (complementFrom stop cursor holes) ∧
      ∀ interval ∈ complementFrom stop cursor holes, cursor ≤ interval.1 := by
  induction holes generalizing cursor with
  | nil =>
      rw [complementFrom]
      split
      · next open' => exact ⟨Separated.cons open' (by simp) Separated.nil, by simp⟩
      · exact ⟨Separated.nil, by simp⟩
  | cons hole rest ih =>
      have proper := ordered.proper hole List.mem_cons_self
      have start := within hole List.mem_cons_self
      have advanced : max cursor hole.2 = hole.2 := max_eq_right (start.trans proper.le)
      obtain ⟨separated, later⟩ := ih ordered.tail fun other member =>
        advanced ▸ (List.pairwise_cons.mp ordered.apart).1 other member
      rw [complementFrom]
      rw [advanced] at later separated ⊢
      have after : ∀ interval ∈ complementFrom stop hole.2 rest, hole.1 < interval.1 :=
        fun interval member => proper.trans_le (later interval member)
      split
      · next leaves =>
          refine ⟨Separated.cons leaves after separated, ?_⟩
          intro interval member
          rcases List.mem_cons.mp member with rfl | inRest
          · exact le_rfl
          · exact start.trans (after interval inRest).le
      · exact ⟨separated, fun interval member => start.trans (after interval member).le⟩

theorem complementIntervals_separated (holes : List Interval) (start stop : ℤ) :
    Separated (complementIntervals holes start stop) := by
  refine (separated_complementFrom (mergeIntervals_ordered _) ?_).1
  intro hole member
  have within : ∀ interval ∈ clipIntervals holes start stop,
      start ≤ interval.1 ∧ interval.2 ≤ stop := by
    intro interval inside
    obtain ⟨source, _, rfl⟩ := List.mem_map.mp (List.mem_of_mem_filter inside)
    exact ⟨le_max_right _ _, min_le_right _ _⟩
  exact (mergeIntervals_within _ _ _ within hole member).1

/-- What the operations on two lists of intervals do, as sets of seconds, and that they
write to no cell of their inputs. -/
structure SetOperations (a b : List Interval) (start stop : ℤ) : Prop where
  merge_covers : ∀ point, Covers (mergeIntervals a) point ↔ Covers a point
  merge_separated : Separated (mergeIntervals a)
  clip_covers : ∀ point, Covers (clipIntervals a start stop) point ↔
    Covers a point ∧ start ≤ point ∧ point < stop
  intersect_covers : ∀ point, Covers (intersectIntervals a b) point ↔
    Covers a point ∧ Covers b point
  intersect_separated : Separated (intersectIntervals a b)
  complement_covers : ∀ point, Covers (complementIntervals a start stop) point ↔
    (start ≤ point ∧ point < stop) ∧ ¬ Covers a point
  complement_separated : Separated (complementIntervals a start stop)
  total_of_union : totalSeconds a = (points a).card
  inputs_kept : ∀ (memory : Cells) (left right : List Nat),
    (∀ ref ∈ left ++ right, ref < memory.length) →
    left.map memory.cell = a → right.map memory.cell = b →
    memory.Leaves (memory.mergeIntervals left) (mergeIntervals a) ∧
    memory.Leaves (memory.clipIntervals left start stop) (clipIntervals a start stop) ∧
    memory.Leaves (memory.intersectIntervals left right) (intersectIntervals a b) ∧
    memory.Leaves (memory.complementIntervals left start stop) (complementIntervals a start stop)

theorem interval_operations (a b : List Interval) (start stop : ℤ) :
    SetOperations a b start stop where
  merge_covers := covers_mergeIntervals a
  merge_separated := mergeIntervals_separated a
  clip_covers := covers_clipIntervals a start stop
  intersect_covers := covers_intersectIntervals a b
  intersect_separated := intersectIntervals_separated a b
  complement_covers := covers_complementIntervals a start stop
  complement_separated := complementIntervals_separated a start stop
  total_of_union := totalSeconds_eq_card a
  inputs_kept := by
    rintro memory left right inside rfl rfl
    have insideLeft : ∀ ref ∈ left, ref < memory.length := fun ref member =>
      inside ref (List.mem_append_left _ member)
    have insideRight : ∀ ref ∈ right, ref < memory.length := fun ref member =>
      inside ref (List.mem_append_right _ member)
    exact ⟨Cells.leaves_mergeIntervals insideLeft, Cells.leaves_clipIntervals start stop,
      Cells.leaves_intersectIntervals insideLeft insideRight,
      Cells.leaves_complementIntervals start stop⟩

end ZabbixPortal.Sli
