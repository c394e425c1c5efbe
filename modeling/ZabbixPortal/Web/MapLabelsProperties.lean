import ZabbixPortal.Foundation.Greedy
import ZabbixPortal.Foundation.TopOf
import ZabbixPortal.Web.MapLabels

/-! No name on a map covers another one, an element or a badge, and a name is left out only when each of
its places is taken by one of these. -/

set_option autoImplicit false

namespace ZabbixPortal.Web

open Foundation

theorem hits_comm (a b : Box) : hits a b = hits b a := by
  unfold hits
  rw [Bool.eq_iff_iff]
  simp only [Bool.and_eq_true, decide_eq_true_eq]
  constructor
  · intro both
    exact ⟨⟨⟨both.1.1.2, both.1.1.1⟩, both.2⟩, both.1.2⟩
  · intro both
    exact ⟨⟨⟨both.1.1.2, both.1.1.1⟩, both.2⟩, both.1.2⟩

theorem isClear_iff (solid placed : List Box) (box : Box) : isClear solid placed box = true ↔
    (∀ o ∈ solid, ¬ hits box o) ∧ ∀ p ∈ placed, ¬ hits box p := by
  simp [isClear]

theorem firstClear_some {solid placed : List Box} {item : LabelItem} {found : ℚ × Box}
    (first : firstClear solid placed item = some found) :
    found.1 ∈ shifts item.lines.length ∧
      labelBox item.x item.y item.lines found.1 = some found.2 ∧ isClear solid placed found.2 := by
  obtain ⟨dy, tried, own⟩ := List.exists_of_findSome?_eq_some first
  obtain ⟨box, measured, clear⟩ := Option.bind_eq_some_iff.mp own
  split at clear
  · next isFree =>
      cases clear
      exact ⟨tried, measured, isFree⟩
  · cases clear

theorem firstClear_none {solid placed : List Box} {item : LabelItem}
    (absent : firstClear solid placed item = none) {dy : ℚ} (tried : dy ∈ shifts item.lines.length)
    {box : Box} (measured : labelBox item.x item.y item.lines dy = some box) :
    (∃ o ∈ solid, hits box o) ∨ ∃ p ∈ placed, hits box p := by
  have own := List.findSome?_eq_none_iff.mp absent dy tried
  rw [measured, Option.bind_some] at own
  have notClear : ¬ isClear solid placed box := fun clear => by
    rw [if_pos clear] at own
    cases own
  rw [isClear_iff, not_and_or] at notClear
  simpa using notClear

theorem labelBox_of_not_drawn {lines : List (List UInt16)} (nothing : drawn lines = []) (x y dy : ℚ) :
    labelBox x y lines dy = none := by
  unfold labelBox
  rw [nothing]
  rfl

section Placed

variable (solid : List Box)

def boxFor (placed : List Box) (item : LabelItem) : Option Box :=
  if drawn item.lines = [] then none else (firstClear solid placed item).map Prod.snd

def placementFor (placed : List Box) (item : LabelItem) : LabelPlacement :=
  if drawn item.lines = [] then ⟨0, false⟩
  else
    match firstClear solid placed item with
    | some found => ⟨found.1, false⟩
    | none => ⟨0, true⟩

theorem Placing.next_eq (state : Placing) (item : LabelItem) : state.next solid item =
    ⟨state.placed ++ (boxFor solid state.placed item).toList,
      state.out.set item.id (placementFor solid state.placed item)⟩ := by
  unfold Placing.next boxFor placementFor
  by_cases nothing : drawn item.lines = []
  · simp only [if_pos nothing, Option.toList_none, List.append_nil]
  · simp only [if_neg nothing]
    cases firstClear solid state.placed item with
    | none => simp
    | some found => rfl

theorem placed_foldl (order : List LabelItem) :
    (order.foldl (Placing.next solid) ⟨[], .empty⟩).placed = greedy (boxFor solid) order := by
  induction order using List.reverseRecOn with
  | nil => rfl
  | append_singleton order item ih => rw [List.foldl_concat, Placing.next_eq, greedy_concat, ih]

/-- Each item keeps what it got in its turn. -/
theorem out_foldl {before after : List LabelItem} {item : LabelItem}
    (distinct : ((before ++ item :: after).map LabelItem.id).Nodup) :
    ((before ++ item :: after).foldl (Placing.next solid) ⟨[], .empty⟩).out.get? item.id =
      some (placementFor solid (greedy (boxFor solid) before) item) := by
  induction after using List.reverseRecOn with
  | nil => rw [List.foldl_concat, Placing.next_eq, OrderedMap.get?_set_self, placed_foldl]
  | append_singleton after last ih =>
      rw [← List.cons_append, ← List.append_assoc] at distinct ⊢
      rw [List.foldl_concat, Placing.next_eq]
      rw [List.map_append] at distinct
      obtain ⟨earlier, -, apart⟩ := List.nodup_append.mp distinct
      have other : item.id ≠ last.id := by
        refine apart item.id ?_ last.id (by simp)
        exact List.mem_map_of_mem (by simp)
      rw [OrderedMap.get?_set, if_neg other]
      exact ih earlier

def shownBox (out : OrderedMap String LabelPlacement) (item : LabelItem) : Option Box :=
  match out.get? item.id with
  | some placement => if placement.hidden then none else labelBox item.x item.y item.lines placement.dy
  | none => none

theorem shownBox_foldl {before after : List LabelItem} {item : LabelItem}
    (distinct : ((before ++ item :: after).map LabelItem.id).Nodup) :
    shownBox ((before ++ item :: after).foldl (Placing.next solid) ⟨[], .empty⟩).out item =
      boxFor solid (greedy (boxFor solid) before) item := by
  unfold shownBox
  simp only [out_foldl solid distinct]
  generalize greedy (boxFor solid) before = placed
  unfold placementFor boxFor
  by_cases nothing : drawn item.lines = []
  · simp only [if_pos nothing, labelBox_of_not_drawn nothing, Bool.false_eq_true, if_false]
  · simp only [if_neg nothing]
    cases first : firstClear solid placed item with
    | none => rfl
    | some found =>
        obtain ⟨_, measured, _⟩ := firstClear_some first
        simp only [Option.map_some, Bool.false_eq_true, if_false, measured]

theorem isClear_of_boxFor {placed : List Box} {item : LabelItem} {box : Box}
    (took : boxFor solid placed item = some box) : isClear solid placed box := by
  unfold boxFor at took
  split at took
  · cases took
  · obtain ⟨found, first, rfl⟩ := Option.map_eq_some_iff.mp took
    exact (firstClear_some first).2.2

/-- Two labels are apart: the later one was placed clear of the earlier one. -/
theorem not_hits_of_turns {before between : List LabelItem} {first second : LabelItem}
    {box other : Box} (took : boxFor solid (greedy (boxFor solid) before) first = some box)
    (tookOther : boxFor solid (greedy (boxFor solid) (before ++ first :: between)) second = some other) :
    ¬ hits other box :=
  ((isClear_iff _ _ _).mp (isClear_of_boxFor solid tookOther)).2 box (mem_greedy_of_turn took)

end Placed

section Results

variable (localeCompare : String → String → Ordering)

/-- Before another element: of a higher rank, or of the same and above it, or beside it and to its left. -/
def ComesBefore (b a : LabelItem) : Prop :=
  a.rank < b.rank ∨ (a.rank = b.rank ∧ (b.y < a.y ∨ (b.y = a.y ∧ b.x ≤ a.x)))

def visibleBox (items : List LabelItem) (item : LabelItem) : Option Box :=
  shownBox (placeLabels localeCompare items) item

structure KeepsClear (items : List LabelItem) : Prop where
  apart : ∀ a ∈ items, ∀ b ∈ items, a.id ≠ b.id → ∀ box other,
    visibleBox localeCompare items a = some box → visibleBox localeCompare items b = some other →
      ¬ hits box other
  offElements : ∀ a ∈ items, ∀ box, visibleBox localeCompare items a = some box →
    ∀ b ∈ items, ∀ o ∈ obstacles b, ¬ hits box o
  /-- A label is left out only when each of its places hits an element or a label placed before. -/
  leftOut : ∀ a ∈ items, ∀ placement, (placeLabels localeCompare items).get? a.id = some placement →
    placement.hidden → ∀ dy ∈ shifts a.lines.length, ∀ box, labelBox a.x a.y a.lines dy = some box →
      (∃ b ∈ items, ∃ o ∈ obstacles b, hits box o) ∨
        ∃ b ∈ items, b.id ≠ a.id ∧ ComesBefore b a ∧
          ∃ other, visibleBox localeCompare items b = some other ∧ hits box other
  /-- One that no other comes before is left out only for elements and badges. -/
  highest : ∀ a ∈ items, (∀ b ∈ items, b.id ≠ a.id → ¬ ComesBefore b a) → ∀ placement,
    (placeLabels localeCompare items).get? a.id = some placement → placement.hidden →
      ∀ dy ∈ shifts a.lines.length, ∀ box, labelBox a.x a.y a.lines dy = some box →
        ∃ b ∈ items, ∃ o ∈ obstacles b, hits box o
  /-- A label that is not left out is in one of its places. -/
  places : ∀ a ∈ items, ∃ placement, (placeLabels localeCompare items).get? a.id = some placement ∧
    (drawn a.lines ≠ [] → placement.hidden = false → placement.dy ∈ shifts a.lines.length)

instance transCmp_rank : Std.TransCmp fun a b : LabelItem => compareNumbers b.rank a.rank where
  eq_swap := Std.OrientedCmp.eq_swap
  isLE_trans first second := Std.TransCmp.isLE_trans second first

instance transCmp_y : Std.TransCmp fun a b : LabelItem => compareNumbers a.y b.y where
  eq_swap := Std.OrientedCmp.eq_swap
  isLE_trans := Std.TransCmp.isLE_trans

instance transCmp_x : Std.TransCmp fun a b : LabelItem => compareNumbers a.x b.x where
  eq_swap := Std.OrientedCmp.eq_swap
  isLE_trans := Std.TransCmp.isLE_trans

instance transCmp_id [Std.TransCmp localeCompare] :
    Std.TransCmp fun a b : LabelItem => localeCompare a.id b.id where
  eq_swap := Std.OrientedCmp.eq_swap
  isLE_trans := Std.TransCmp.isLE_trans

instance transCmp_compareItems [Std.TransCmp localeCompare] : Std.TransCmp (compareItems localeCompare) :=
  inferInstanceAs <| Std.TransCmp <|
    compareLex (fun a b : LabelItem => compareNumbers b.rank a.rank) <|
    compareLex (fun a b : LabelItem => compareNumbers a.y b.y) <|
    compareLex (fun a b : LabelItem => compareNumbers a.x b.x) fun a b => localeCompare a.id b.id

theorem compareNumbers_cases (left right : ℚ) :
    (left < right ∧ compareNumbers left right = .lt) ∨ (left = right ∧ compareNumbers left right = .eq) ∨
      (right < left ∧ compareNumbers left right = .gt) := by
  unfold compareNumbers
  rcases lt_trichotomy left right with less | same | more
  · exact .inl ⟨less, if_pos less⟩
  · exact .inr (.inl ⟨same, by simp [same]⟩)
  · exact .inr (.inr ⟨more, by simp [more, more.not_gt]⟩)

theorem comesBefore_of_compareItems {b a : LabelItem} (before : compareItems localeCompare b a ≠ .gt) :
    ComesBefore b a := by
  unfold compareItems at before
  rcases compareNumbers_cases a.rank b.rank with ⟨higher, _⟩ | ⟨same, order⟩ | ⟨_, order⟩
  · exact .inl higher
  · rw [order, Ordering.eq_then] at before
    refine .inr ⟨same, ?_⟩
    rcases compareNumbers_cases b.y a.y with ⟨above, _⟩ | ⟨beside, order⟩ | ⟨_, order⟩
    · exact .inl above
    · rw [order, Ordering.eq_then] at before
      refine .inr ⟨beside, ?_⟩
      rcases compareNumbers_cases b.x a.x with ⟨left, _⟩ | ⟨equal, _⟩ | ⟨_, order⟩
      · exact left.le
      · exact equal.le
      · rw [order] at before
        exact absurd rfl before
    · rw [order] at before
      exact absurd rfl before
  · rw [order] at before
    exact absurd rfl before

/-- Elements that compare the same have ids that do. -/
theorem id_of_compareItems_eq {a b : LabelItem} (same : compareItems localeCompare a b = .eq) :
    localeCompare a.id b.id = .eq := by
  unfold compareItems at same
  simp only [Ordering.then_eq_eq] at same
  exact same.2.2.2

variable {items : List LabelItem}

theorem nodup_order (distinct : (items.map LabelItem.id).Nodup) :
    ((sortBy (compareItems localeCompare) items).map LabelItem.id).Nodup :=
  ((sortBy_perm _ items).map LabelItem.id).nodup_iff.mpr distinct

/-- The turn of an element, with those before it. -/
theorem exists_turn {a : LabelItem} (member : a ∈ items) :
    ∃ before after, sortBy (compareItems localeCompare) items = before ++ a :: after :=
  List.append_of_mem ((mem_sortBy _ items a).mpr member)

theorem visibleBox_of_turn (distinct : (items.map LabelItem.id).Nodup) {before after : List LabelItem}
    {a : LabelItem} (turn : sortBy (compareItems localeCompare) items = before ++ a :: after) :
    visibleBox localeCompare items a = boxFor (items.flatMap obstacles)
      (greedy (boxFor (items.flatMap obstacles)) before) a := by
  have nodup := nodup_order localeCompare distinct
  unfold visibleBox placeLabels
  dsimp only
  rw [turn] at nodup ⊢
  exact shownBox_foldl _ nodup

theorem get?_of_turn (distinct : (items.map LabelItem.id).Nodup) {before after : List LabelItem}
    {a : LabelItem} (turn : sortBy (compareItems localeCompare) items = before ++ a :: after) :
    (placeLabels localeCompare items).get? a.id = some (placementFor (items.flatMap obstacles)
      (greedy (boxFor (items.flatMap obstacles)) before) a) := by
  have nodup := nodup_order localeCompare distinct
  unfold placeLabels
  dsimp only
  rw [turn] at nodup ⊢
  exact out_foldl _ nodup

theorem visible_apart (distinct : (items.map LabelItem.id).Nodup) {a b : LabelItem} (inA : a ∈ items)
    (inB : b ∈ items) (differ : a.id ≠ b.id) {box other : Box}
    (boxA : visibleBox localeCompare items a = some box)
    (boxB : visibleBox localeCompare items b = some other) : ¬ hits box other := by
  obtain ⟨before, after, turn⟩ := exists_turn localeCompare inA
  have inOrder : b ∈ before ++ a :: after := turn ▸ (mem_sortBy _ items b).mpr inB
  rw [visibleBox_of_turn localeCompare distinct turn] at boxA
  cases List.mem_append.mp inOrder with
  | inl earlier =>
      obtain ⟨front, between, rfl⟩ := List.append_of_mem earlier
      have turnB : sortBy (compareItems localeCompare) items = front ++ b :: (between ++ a :: after) := by
        rw [turn, List.append_assoc, List.cons_append]
      rw [visibleBox_of_turn localeCompare distinct turnB] at boxB
      exact not_hits_of_turns _ boxB boxA
  | inr later =>
      cases List.mem_cons.mp later with
      | inl same => exact absurd (congrArg LabelItem.id same.symm) differ
      | inr behind =>
          obtain ⟨between, rest, rfl⟩ := List.append_of_mem behind
          have turnB : sortBy (compareItems localeCompare) items =
              (before ++ a :: between) ++ b :: rest := by
            rw [turn, List.append_assoc, List.cons_append]
          rw [visibleBox_of_turn localeCompare distinct turnB] at boxB
          rw [hits_comm]
          exact not_hits_of_turns _ boxA boxB

theorem hit_of_hidden [Std.TransCmp localeCompare] (distinct : (items.map LabelItem.id).Nodup)
    {a : LabelItem} (inA : a ∈ items) {placement : LabelPlacement}
    (got : (placeLabels localeCompare items).get? a.id = some placement) (hidden : placement.hidden)
    {dy : ℚ} (tried : dy ∈ shifts a.lines.length) {box : Box}
    (measured : labelBox a.x a.y a.lines dy = some box) :
    (∃ b ∈ items, ∃ o ∈ obstacles b, hits box o) ∨
      ∃ b ∈ items, b.id ≠ a.id ∧ ComesBefore b a ∧
        ∃ other, visibleBox localeCompare items b = some other ∧ hits box other := by
  obtain ⟨before, after, turn⟩ := exists_turn localeCompare inA
  rw [get?_of_turn localeCompare distinct turn] at got
  cases got
  unfold placementFor at hidden
  split at hidden
  · cases hidden
  · split at hidden
    · cases hidden
    · next absent =>
        cases firstClear_none absent tried measured with
        | inl solid =>
            obtain ⟨o, isSolid, hit⟩ := solid
            obtain ⟨b, inB, own⟩ := List.mem_flatMap.mp isSolid
            exact .inl ⟨b, inB, o, own, hit⟩
        | inr placed =>
            obtain ⟨other, isPlaced, hit⟩ := placed
            obtain ⟨front, b, between, rfl, took⟩ := mem_greedy_iff.mp isPlaced
            have turnB : sortBy (compareItems localeCompare) items =
                front ++ b :: (between ++ a :: after) := by
              rw [turn, List.append_assoc, List.cons_append]
            have sorted := pairwise_sortBy (compareItems localeCompare) items
            have nodup := nodup_order localeCompare distinct
            rw [turnB] at sorted nodup
            have ordered := (List.pairwise_cons.mp (List.pairwise_append.mp sorted).2.1).1 a (by simp)
            rw [List.map_append, List.map_cons] at nodup
            have fresh := (List.nodup_cons.mp (List.nodup_append.mp nodup).2.1).1
            have inB : b ∈ sortBy (compareItems localeCompare) items := by
              rw [turnB]
              simp
            refine .inr ⟨b, (mem_sortBy _ items b).mp inB, ?_,
              comesBefore_of_compareItems localeCompare ordered, other, ?_, hit⟩
            · intro same
              exact fresh (List.mem_map.mpr ⟨a, by simp, same.symm⟩)
            · rw [visibleBox_of_turn localeCompare distinct turnB, took]

theorem sortBy_eq_of_perm [Std.TransCmp localeCompare] {other : List LabelItem}
    (tells : ∀ a ∈ items, ∀ b ∈ items, localeCompare a.id b.id = .eq → a = b) (same : other.Perm items) :
    sortBy (compareItems localeCompare) other = sortBy (compareItems localeCompare) items := by
  have perm := ((sortBy_perm (compareItems localeCompare) other).trans same).trans
    (sortBy_perm (compareItems localeCompare) items).symm
  refine perm.eq_of_pairwise ?_ (pairwise_sortBy _ other) (pairwise_sortBy _ items)
  intro a b inOther inItems le ge
  have inA : a ∈ items := same.subset ((mem_sortBy _ other a).mp inOther)
  have inB : b ∈ items := (mem_sortBy _ items b).mp inItems
  refine tells a inA b inB (id_of_compareItems_eq localeCompare ?_)
  cases order : compareItems localeCompare a b with
  | eq => rfl
  | gt => exact absurd order le
  | lt =>
      have back : compareItems localeCompare b a = .gt := Std.OrientedCmp.gt_of_lt order
      exact absurd back ge

/-- The places do not depend on the order in which the elements' boxes are listed. -/
theorem next_congr {solid other : List Box} (same : ∀ o, o ∈ solid ↔ o ∈ other) :
    Placing.next solid = Placing.next other := by
  have clear : isClear solid = isClear other := by
    funext placed box
    rw [Bool.eq_iff_iff, isClear_iff, isClear_iff]
    simp only [same]
  funext state item
  unfold Placing.next firstClear
  rw [clear]

theorem placeLabels_perm [Std.TransCmp localeCompare] {other : List LabelItem}
    (tells : ∀ a ∈ items, ∀ b ∈ items, localeCompare a.id b.id = .eq → a = b) (same : other.Perm items) :
    placeLabels localeCompare other = placeLabels localeCompare items := by
  have boxes : ∀ o, o ∈ other.flatMap obstacles ↔ o ∈ items.flatMap obstacles := fun o =>
    (same.flatMap_right obstacles).mem_iff
  unfold placeLabels
  dsimp only
  rw [sortBy_eq_of_perm localeCompare tells same, next_congr boxes]

/-- Names on a map overlap nothing and are left out only where they must be; and where the ids can be told
apart, the elements may come in any order. -/
theorem placeLabels_keepsClear [Std.TransCmp localeCompare] (distinct : (items.map LabelItem.id).Nodup) :
    KeepsClear localeCompare items ∧
      ((∀ a ∈ items, ∀ b ∈ items, localeCompare a.id b.id = .eq → a.id = b.id) →
        ∀ other, other.Perm items → placeLabels localeCompare other = placeLabels localeCompare items) := by
  refine ⟨⟨?_, ?_, ?_, ?_, ?_⟩, ?_⟩
  · intro a inA b inB differ box other boxA boxB
    exact visible_apart localeCompare distinct inA inB differ boxA boxB
  · intro a inA box boxA b inB o own
    obtain ⟨before, after, turn⟩ := exists_turn localeCompare inA
    rw [visibleBox_of_turn localeCompare distinct turn] at boxA
    exact ((isClear_iff _ _ _).mp (isClear_of_boxFor _ boxA)).1 o (List.mem_flatMap.mpr ⟨b, inB, own⟩)
  · intro a inA placement got hidden dy tried box measured
    exact hit_of_hidden localeCompare distinct inA got hidden tried measured
  · intro a inA first placement got hidden dy tried box measured
    cases hit_of_hidden localeCompare distinct inA got hidden tried measured with
    | inl solid => exact solid
    | inr earlier =>
        obtain ⟨b, inB, differ, before, _⟩ := earlier
        exact absurd before (first b inB differ)
  · intro a inA
    obtain ⟨before, after, turn⟩ := exists_turn localeCompare inA
    refine ⟨_, get?_of_turn localeCompare distinct turn, ?_⟩
    unfold placementFor
    intro nonempty shown
    rw [if_neg nonempty] at shown ⊢
    split at shown
    · next found first => exact (firstClear_some first).1
    · cases shown
  · intro tells other same
    refine placeLabels_perm localeCompare (fun a inA b inB equal => ?_) same
    exact List.inj_on_of_nodup_map distinct inA inB (tells a inA b inB equal)

end Results

section Witnesses

/-- `é` as one character and as a letter with its accent are the same. -/
def composedCompare (a b : String) : Ordering :=
  compare (a.toList.flatMap fun c => if c = 'é' then ['e', Char.ofNat 0x301] else [c])
    (b.toList.flatMap fun c => if c = 'é' then ['e', Char.ofNat 0x301] else [c])

instance transCmp_composedCompare : Std.TransCmp composedCompare :=
  inferInstanceAs <| Std.TransCmp <| compareOn fun text : String =>
    text.toList.flatMap fun c => if c = 'é' then ['e', Char.ofNat 0x301] else [c]

def atCorner (id : String) : LabelItem :=
  { id, x := 0, y := 0, lines := [[0x61]], rank := 0, badge := false }

/-- Two elements in one spot whose ids compare as the same: the one listed first has its name in place. -/
theorem placeLabels_sameSpot : "é" ≠ "e\u0301" ∧
    [atCorner "e\u0301", atCorner "é"].Perm [atCorner "é", atCorner "e\u0301"] ∧
    (placeLabels composedCompare [atCorner "é", atCorner "e\u0301"]).get? "é" = some ⟨0, false⟩ ∧
    (placeLabels composedCompare [atCorner "e\u0301", atCorner "é"]).get? "é" = some ⟨-52, false⟩ := by
  refine ⟨by decide, .swap _ _ [], by decide +kernel, by decide +kernel⟩

/-- Two elements in one spot with ids that can be told apart. -/
theorem placeLabels_keepsClear_sameSpot :
    KeepsClear composedCompare [atCorner "11", atCorner "12"] ∧
      placeLabels composedCompare [atCorner "12", atCorner "11"] =
        placeLabels composedCompare [atCorner "11", atCorner "12"] := by
  have distinct : ([atCorner "11", atCorner "12"].map LabelItem.id).Nodup := by decide
  obtain ⟨keeps, anyOrder⟩ := placeLabels_keepsClear composedCompare distinct
  refine ⟨keeps, anyOrder ?_ _ (.swap _ _ [])⟩
  simp only [List.forall_mem_cons, List.not_mem_nil, false_imp_iff, implies_true, and_true]
  decide +kernel

end Witnesses

end ZabbixPortal.Web
