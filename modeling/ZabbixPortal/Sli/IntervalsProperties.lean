import ZabbixPortal.Sli.Intervals

/-! What each interval operation covers, second by second, and what its total
counts. The lists are only a representation: every law is about points. -/

set_option autoImplicit false

namespace ZabbixPortal.Sli

open Foundation.HalfOpen

/-- A sorted list of proper intervals, which may still overlap. -/
structure Sorted (intervals : List Interval) : Prop where
  proper : ∀ interval ∈ intervals, interval.1 < interval.2
  starts : intervals.Pairwise fun left right => left.1 ≤ right.1

private theorem Sorted.tail {interval : Interval} {rest : List Interval}
    (sorted : Sorted (interval :: rest)) : Sorted rest :=
  ⟨fun other member => sorted.proper other (.tail _ member), sorted.starts.of_cons⟩

/-- The head grown over the interval after it is sorted still. -/
private theorem Sorted.grown {last next : Interval} {rest : List Interval}
    (sorted : Sorted (last :: next :: rest)) : Sorted ((last.1, max last.2 next.2) :: rest) := by
  constructor
  · intro interval member
    rcases List.mem_cons.mp member with rfl | inRest
    · exact (sorted.proper last List.mem_cons_self).trans_le (le_max_left _ _)
    · exact sorted.proper interval (.tail _ (.tail _ inRest))
  · refine List.pairwise_cons.mpr ⟨?_, sorted.tail.tail.starts⟩
    intro other member
    exact (List.pairwise_cons.mp sorted.starts).1 other (.tail _ member)

theorem sortByStart_perm (intervals : List Interval) :
    (sortByStart intervals).Perm intervals :=
  List.perm_insertionSort _ _

theorem sortByStart_sorted (intervals : List Interval)
    (proper : ∀ interval ∈ intervals, interval.1 < interval.2) :
    Sorted (sortByStart intervals) := by
  refine ⟨?_, ?_⟩
  · intro interval member
    exact proper interval ((sortByStart_perm intervals).mem_iff.mp member)
  · have total : Std.Total (fun left right : Interval => left.1 ≤ right.1) :=
      ⟨fun left right => le_total left.1 right.1⟩
    have transitive : IsTrans Interval (fun left right => left.1 ≤ right.1) :=
      ⟨fun _ _ _ first second => first.trans second⟩
    exact List.pairwise_insertionSort _ intervals

theorem covers_filter_proper (intervals : List Interval) (point : ℤ) :
    Covers (intervals.filter fun interval => interval.2 > interval.1) point ↔
      Covers intervals point := by
  constructor
  · rintro ⟨interval, member, bounds⟩
    exact ⟨interval, List.mem_of_mem_filter member, bounds⟩
  · rintro ⟨interval, member, lower, upper⟩
    refine ⟨interval, List.mem_filter.mpr ⟨member, ?_⟩, lower, upper⟩
    simpa using lower.trans_lt upper

/-- Merging keeps the covered points; the accumulated `last` grows only over
points some interval of the input covers. -/
theorem covers_mergeFrom (last : Interval) (rest : List Interval)
    (sorted : Sorted (last :: rest)) (point : ℤ) :
    Covers (mergeFrom last rest) point ↔ Covers (last :: rest) point := by
  induction rest generalizing last with
  | nil => simp [mergeFrom]
  | cons next rest ih =>
      have startBefore : last.1 ≤ next.1 :=
        (List.pairwise_cons.mp sorted.starts).1 next (by simp)
      have lastProper := sorted.proper last (by simp)
      by_cases touching : next.1 ≤ last.2
      · rw [mergeFrom, if_pos touching, ih _ sorted.grown]
        simp only [covers_cons]
        have joined : (last.1 ≤ point ∧ point < max last.2 next.2) ↔
            (last.1 ≤ point ∧ point < last.2) ∨ (next.1 ≤ point ∧ point < next.2) := by
          omega
        rw [joined, or_assoc]
      · rw [mergeFrom, if_neg touching, covers_cons, ih next sorted.tail]
        simp only [covers_cons]

/-- The merged list starts where `last` does, and its intervals do not touch. -/
theorem mergeFrom_separated (last : Interval) (rest : List Interval)
    (sorted : Sorted (last :: rest)) :
    Separated (mergeFrom last rest) ∧ ∀ interval ∈ mergeFrom last rest, last.1 ≤ interval.1 := by
  induction rest generalizing last with
  | nil =>
      have lastProper := sorted.proper last (by simp)
      exact ⟨Separated.cons lastProper (by simp) Separated.nil, by simp [mergeFrom]⟩
  | cons next rest ih =>
      have startBefore : last.1 ≤ next.1 :=
        (List.pairwise_cons.mp sorted.starts).1 next (by simp)
      have lastProper := sorted.proper last (by simp)
      by_cases touching : next.1 ≤ last.2
      · rw [mergeFrom, if_pos touching]
        exact ih _ sorted.grown
      · obtain ⟨separated, bounded⟩ := ih next sorted.tail
        rw [mergeFrom, if_neg touching]
        refine ⟨Separated.cons lastProper ?_ separated, ?_⟩
        · intro other member
          exact (not_le.mp touching).trans_le (bounded other member)
        · intro interval member
          rcases List.mem_cons.mp member with rfl | inRest
          · exact le_rfl
          · exact startBefore.trans (bounded interval inRest)

private theorem filtered_sorted (intervals : List Interval) :
    Sorted (sortByStart (intervals.filter fun interval => interval.2 > interval.1)) :=
  sortByStart_sorted _ fun interval member => by simpa using (List.mem_filter.mp member).2

@[simp] theorem covers_mergeIntervals (intervals : List Interval) (point : ℤ) :
    Covers (mergeIntervals intervals) point ↔ Covers intervals point := by
  rw [← covers_filter_proper intervals point,
    ← covers_perm (sortByStart_perm (intervals.filter fun interval => interval.2 > interval.1))]
  have sorted := filtered_sorted intervals
  unfold mergeIntervals
  split
  · next empty => rw [empty]
  · next first rest shape =>
      rw [shape] at sorted
      rw [shape]
      exact covers_mergeFrom first rest sorted point

theorem mergeIntervals_separated (intervals : List Interval) :
    Separated (mergeIntervals intervals) := by
  have sorted := filtered_sorted intervals
  unfold mergeIntervals
  split
  · exact Separated.nil
  · next first rest shape =>
      rw [shape] at sorted
      exact (mergeFrom_separated first rest sorted).1

theorem mergeIntervals_ordered (intervals : List Interval) :
    Ordered (mergeIntervals intervals) :=
  (mergeIntervals_separated intervals).ordered

/-- Lists that cover the same seconds merge into the same list. -/
theorem mergeIntervals_congr {left right : List Interval}
    (same : ∀ point, Covers left point ↔ Covers right point) :
    mergeIntervals left = mergeIntervals right := by
  apply (mergeIntervals_separated left).unique (mergeIntervals_separated right)
  intro point
  rw [covers_mergeIntervals, covers_mergeIntervals, same]

private theorem foldl_lengths (intervals : List Interval) (total : ℤ) :
    intervals.foldl (fun total interval => total + (interval.2 - interval.1)) total =
      total + lengths intervals := by
  induction intervals generalizing total with
  | nil => simp [lengths]
  | cons interval rest ih =>
      rw [List.foldl_cons, ih]
      simp only [lengths, List.map_cons, List.sum_cons]
      omega

/-- The total is the number of seconds covered, each counted once. -/
theorem totalSeconds_eq_card (intervals : List Interval) :
    totalSeconds intervals = (points intervals).card := by
  rw [totalSeconds, foldl_lengths, zero_add, (mergeIntervals_ordered intervals).lengths_eq_card]
  rw [points_congr (covers_mergeIntervals intervals)]

theorem totalSeconds_nonneg (intervals : List Interval) : 0 ≤ totalSeconds intervals := by
  rw [totalSeconds_eq_card]
  exact Int.natCast_nonneg _

theorem totalSeconds_congr {left right : List Interval}
    (same : ∀ point, Covers left point ↔ Covers right point) :
    totalSeconds left = totalSeconds right := by
  rw [totalSeconds_eq_card, totalSeconds_eq_card, points_congr same]

theorem totalSeconds_mono {inner outer : List Interval}
    (inside : ∀ point, Covers inner point → Covers outer point) :
    totalSeconds inner ≤ totalSeconds outer := by
  rw [totalSeconds_eq_card, totalSeconds_eq_card]
  refine Int.ofNat_le.mpr (Finset.card_le_card ?_)
  intro point member
  exact (mem_points outer point).mpr (inside point ((mem_points inner point).mp member))

theorem totalSeconds_eq_zero_iff (intervals : List Interval) :
    totalSeconds intervals = 0 ↔ ∀ point, ¬ Covers intervals point := by
  rw [totalSeconds_eq_card, Int.natCast_eq_zero, Finset.card_eq_zero, Finset.eq_empty_iff_forall_notMem]
  simp

/-- The inner loop against one interval `x`, given what the loop after it covers. -/
private theorem covers_intersectWith (x : Interval) (xs ys : List Interval)
    (leftOrdered : Ordered (x :: xs)) (rightOrdered : Ordered ys) (point : ℤ)
    (next : List Interval → List Interval)
    (nextCovers : ∀ others, Ordered others →
      (Covers (next others) point ↔ Covers xs point ∧ Covers others point)) :
    Covers (intersectWith x next ys) point ↔ Covers (x :: xs) point ∧ Covers ys point := by
  induction ys with
  | nil => simp [intersectWith]
  | cons y ys ih =>
      have recursive := ih rightOrdered.tail
      have advanced := nextCovers (y :: ys) rightOrdered
      have leftAfter := leftOrdered.head_before point
      have rightAfter := rightOrdered.head_before point
      -- Whichever pointer advances, the interval it leaves cannot meet the other tail.
      have body : Covers (if x.2 < y.2 then next (y :: ys) else intersectWith x next ys) point ∨
          (max x.1 y.1 ≤ point ∧ point < min x.2 y.2) ↔
          Covers (x :: xs) point ∧ Covers (y :: ys) point := by
        simp only [covers_cons] at recursive advanced ⊢
        by_cases leftFirst : x.2 < y.2
        · rw [if_pos leftFirst, advanced]
          constructor
          · rintro (⟨inTail, inRight⟩ | inBoth)
            · exact ⟨.inr inTail, inRight⟩
            · exact ⟨.inl (by omega), .inl (by omega)⟩
          · rintro ⟨inHead | inTail, inFirst | inRest⟩
            · exact .inr (by omega)
            · exact absurd (rightAfter inRest) (by omega)
            · exact .inl ⟨inTail, .inl inFirst⟩
            · exact .inl ⟨inTail, .inr inRest⟩
        · rw [if_neg leftFirst, recursive]
          constructor
          · rintro (⟨inLeft, inTail⟩ | inBoth)
            · exact ⟨inLeft, .inr inTail⟩
            · exact ⟨.inl (by omega), .inl (by omega)⟩
          · rintro ⟨inHead | inTail, inFirst | inRest⟩
            · exact .inr (by omega)
            · exact .inl ⟨.inl inHead, inRest⟩
            · exact absurd (leftAfter inTail) (by omega)
            · exact .inl ⟨.inr inTail, inRest⟩
      rw [← body, intersectWith]
      by_cases meets : min x.2 y.2 > max x.1 y.1
      · rw [if_pos meets, covers_cons, or_comm]
      · rw [if_neg meets]
        exact ⟨.inl, fun either => either.resolve_right (by omega)⟩

private theorem covers_intersectLoop (xs ys : List Interval)
    (leftOrdered : Ordered xs) (rightOrdered : Ordered ys) (point : ℤ) :
    Covers (intersectLoop xs ys) point ↔ Covers xs point ∧ Covers ys point := by
  induction xs generalizing ys with
  | nil => simp [intersectLoop]
  | cons x xs ih =>
      rw [intersectLoop]
      exact covers_intersectWith x xs ys leftOrdered rightOrdered point _
        fun others othersOrdered => ih others leftOrdered.tail othersOrdered

@[simp] theorem covers_intersectIntervals (a b : List Interval) (point : ℤ) :
    Covers (intersectIntervals a b) point ↔ Covers a point ∧ Covers b point := by
  rw [intersectIntervals, covers_intersectLoop _ _ (mergeIntervals_ordered a)
    (mergeIntervals_ordered b), covers_mergeIntervals, covers_mergeIntervals]

@[simp] theorem covers_clipIntervals (intervals : List Interval) (start stop point : ℤ) :
    Covers (clipIntervals intervals start stop) point ↔
      Covers intervals point ∧ start ≤ point ∧ point < stop := by
  rw [clipIntervals, covers_filter_proper]
  simp only [Covers, List.mem_map]
  constructor
  · rintro ⟨clipped, ⟨interval, member, rfl⟩, lower, upper⟩
    exact ⟨⟨interval, member, by omega⟩, by omega⟩
  · rintro ⟨⟨interval, member, inside⟩, bounds⟩
    exact ⟨_, ⟨interval, member, rfl⟩, by omega⟩

private theorem covers_complementFrom (stop cursor : ℤ) (holes : List Interval)
    (ordered : Ordered holes) (within : ∀ hole ∈ holes, cursor ≤ hole.1 ∧ hole.2 ≤ stop)
    (point : ℤ) :
    Covers (complementFrom stop cursor holes) point ↔
      (cursor ≤ point ∧ point < stop) ∧ ¬ Covers holes point := by
  induction holes generalizing cursor with
  | nil => by_cases open' : cursor < stop <;> simp [complementFrom, open']; omega
  | cons hole rest ih =>
      have proper := ordered.proper hole (by simp)
      have bounds := within hole (by simp)
      have after := ordered.head_before point
      have advanced : max cursor hole.2 = hole.2 := by omega
      have restWithin : ∀ other ∈ rest, hole.2 ≤ other.1 ∧ other.2 ≤ stop := fun other member =>
        ⟨(List.pairwise_cons.mp ordered.apart).1 other member, (within other (.tail _ member)).2⟩
      have recursive := ih hole.2 ordered.tail restWithin
      rw [complementFrom, advanced]
      by_cases leaves : hole.1 > cursor
      · rw [if_pos leaves, covers_cons, covers_cons, recursive]
        constructor
        · rintro (before | ⟨inside, uncovered⟩)
          · refine ⟨by omega, ?_⟩
            rintro (inHole | inRest)
            · omega
            · exact absurd (after inRest) (by omega)
          · exact ⟨by omega, fun either => either.elim (by omega) uncovered⟩
        · rintro ⟨inside, uncovered⟩
          by_cases early : point < hole.1
          · exact .inl (by omega)
          · have late : hole.2 ≤ point := by
              by_contra inHole
              exact uncovered (.inl (by omega))
            exact .inr ⟨by omega, fun inRest => uncovered (.inr inRest)⟩
      · rw [if_neg leaves, covers_cons, recursive]
        constructor
        · rintro ⟨inside, uncovered⟩
          exact ⟨by omega, fun either => either.elim (by omega) uncovered⟩
        · rintro ⟨inside, uncovered⟩
          have late : hole.2 ≤ point := by
            by_contra inHole
            exact uncovered (.inl (by omega))
          exact ⟨by omega, fun inRest => uncovered (.inr inRest)⟩

/-- Merged intervals end no later than their inputs do. -/
private theorem mergeFrom_within (last : Interval) (rest : List Interval) (lower upper : ℤ)
    (within : ∀ interval ∈ last :: rest, lower ≤ interval.1 ∧ interval.2 ≤ upper) :
    ∀ interval ∈ mergeFrom last rest, lower ≤ interval.1 ∧ interval.2 ≤ upper := by
  induction rest generalizing last with
  | nil => simpa [mergeFrom] using within
  | cons next rest ih =>
      have lastWithin := within last (by simp)
      have nextWithin := within next (by simp)
      by_cases touching : next.1 ≤ last.2
      · rw [mergeFrom, if_pos touching]
        apply ih
        intro interval member
        rcases List.mem_cons.mp member with rfl | inRest
        · exact ⟨lastWithin.1, max_le lastWithin.2 nextWithin.2⟩
        · exact within interval (.tail _ (.tail _ inRest))
      · rw [mergeFrom, if_neg touching]
        intro interval member
        rcases List.mem_cons.mp member with rfl | inRest
        · exact lastWithin
        · exact ih next (fun other inside => within other (.tail _ inside)) interval inRest

theorem mergeIntervals_within (intervals : List Interval) (lower upper : ℤ)
    (within : ∀ interval ∈ intervals, lower ≤ interval.1 ∧ interval.2 ≤ upper) :
    ∀ interval ∈ mergeIntervals intervals, lower ≤ interval.1 ∧ interval.2 ≤ upper := by
  unfold mergeIntervals
  split
  · simp
  · next first rest shape =>
      apply mergeFrom_within
      intro interval member
      rw [← shape, (sortByStart_perm _).mem_iff] at member
      exact within interval (List.mem_of_mem_filter member)

@[simp] theorem covers_complementIntervals (holes : List Interval) (start stop point : ℤ) :
    Covers (complementIntervals holes start stop) point ↔
      (start ≤ point ∧ point < stop) ∧ ¬ Covers holes point := by
  have within : ∀ hole ∈ mergeIntervals (clipIntervals holes start stop),
      start ≤ hole.1 ∧ hole.2 ≤ stop := by
    apply mergeIntervals_within
    intro hole member
    obtain ⟨source, _, rfl⟩ := List.mem_map.mp (List.mem_of_mem_filter member)
    exact ⟨le_max_right _ _, min_le_right _ _⟩
  rw [complementIntervals, covers_complementFrom _ _ _ (mergeIntervals_ordered _) within,
    covers_mergeIntervals, covers_clipIntervals]
  tauto

/-- Clipped seconds and their complement add up to the window. -/
theorem totalSeconds_complementIntervals (holes : List Interval) (start stop : ℤ)
    (forward : start ≤ stop) :
    totalSeconds (complementIntervals holes start stop) +
      totalSeconds (clipIntervals holes start stop) = stop - start := by
  have disjoint : Disjoint (points (complementIntervals holes start stop))
      (points (clipIntervals holes start stop)) := by
    rw [Finset.disjoint_left]
    intro point outside inside
    rw [mem_points, covers_complementIntervals] at outside
    rw [mem_points, covers_clipIntervals] at inside
    exact outside.2 inside.1
  have together : points (complementIntervals holes start stop) ∪
      points (clipIntervals holes start stop) = Finset.Ico start stop := by
    ext point
    simp only [Finset.mem_union, mem_points, covers_complementIntervals, covers_clipIntervals,
      Finset.mem_Ico]
    tauto
  have counted := Finset.card_union_of_disjoint disjoint
  rw [together, Int.card_Ico] at counted
  rw [totalSeconds_eq_card, totalSeconds_eq_card]
  omega

end ZabbixPortal.Sli
