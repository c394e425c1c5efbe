import ZabbixPortal.Sli.Coverage
import ZabbixPortal.Sli.Trends

/-! What the reads of `icmpCoverage` find of the rows Zabbix holds, whatever order they
are listed in and whatever order the requests end in. -/

set_option autoImplicit false

namespace ZabbixPortal.Sli

open Foundation Foundation.HalfOpen

/-- The trend and history rows Zabbix holds; a trend row is clocked on its hour. -/
structure CoverageStore where
  trends : List ZTrend
  history : List ZHistory
  hourly : ∀ row ∈ trends, hourFloor row.clock = row.clock

/-- Each answer lists the rows asked for, in some order, and every request ends. -/
structure CoverageApi.Lists (api : CoverageApi) (store : CoverageStore) : Prop where
  trends : ∀ ids lower upper, (api.trendGet ids lower upper).Perm
    (store.trends.filter fun row => row.itemid ∈ ids ∧ lower ≤ row.clock ∧ row.clock ≤ upper)
  history : ∀ ids lower upper, (api.historyGet ids lower upper).Perm
    (store.history.filter fun row => row.itemid ∈ ids ∧ lower ≤ row.clock ∧ row.clock ≤ upper)
  trendEnds : ∀ slices, (api.trendEnds slices).Perm slices
  historyEnds : ∀ parts, (api.historyEnds parts).Perm parts

theorem hourFloor_le (t : ℤ) : hourFloor t ≤ t ∧ t < hourFloor t + 3600 := by
  unfold hourFloor
  omega

theorem hourFloor_eq_iff {hour t : ℤ} (aligned : hourFloor hour = hour) :
    hourFloor t = hour ↔ hour ≤ t ∧ t < hour + 3600 := by
  unfold hourFloor at aligned ⊢
  omega

theorem hourFloor_idem (t : ℤ) : hourFloor (hourFloor t) = hourFloor t := by
  unfold hourFloor
  omega

section Items

variable {icmpItems : List IcmpItem}

/-- Each host's item stands under its host, and is a ping item that was listed. -/
private theorem mem_foldl_keepPing {items : List IcmpItem} {byHost : OrderedMap String IcmpItem}
    {entry : String × IcmpItem} (member : entry ∈ (items.foldl keepPing byHost).entries) :
    entry ∈ byHost.entries ∨ (entry.2 ∈ items ∧ entry.2.hostid = entry.1) := by
  induction items generalizing byHost with
  | nil => exact .inl member
  | cons item rest ih =>
      have kept : ∀ other ∈ (keepPing byHost item).entries,
          other ∈ byHost.entries ∨ other = (item.hostid, item) := by
        intro other inKept
        unfold keepPing at inKept
        have replaced := OrderedMap.mem_entries_set byHost item.hostid item other
        split at inKept
        · rcases replaced.mp inKept with new | ⟨old, _⟩
          · exact .inr new
          · exact .inl old
        · split at inKept
          · rcases replaced.mp inKept with new | ⟨old, _⟩
            · exact .inr new
            · exact .inl old
          · exact .inl inKept
      rcases ih member with before | ⟨later, same⟩
      · rcases kept entry before with old | rfl
        · exact .inl old
        · exact .inr ⟨List.mem_cons_self, rfl⟩
      · exact .inr ⟨List.mem_cons_of_mem _ later, same⟩

theorem entry_itemByHost {entry : String × IcmpItem}
    (member : entry ∈ (itemByHost icmpItems).entries) :
    entry.2 ∈ icmpItems ∧ entry.2.hostid = entry.1 := by
  rcases mem_foldl_keepPing member with impossible | ⟨listed, same⟩
  · cases impossible
  · exact ⟨List.mem_of_mem_filter listed, same⟩

def chosenItems (icmpItems : List IcmpItem) : List IcmpItem := (itemByHost icmpItems).values

theorem mem_chosenItems {item : IcmpItem} (member : item ∈ chosenItems icmpItems) :
    (item.hostid, item) ∈ (itemByHost icmpItems).entries := by
  obtain ⟨⟨hostid, value⟩, inside, rfl⟩ := List.mem_map.mp member
  have same : value.hostid = hostid := (entry_itemByHost inside).2
  rw [← same] at inside
  exact inside

theorem mem_icmpItems_of_chosen {item : IcmpItem} (member : item ∈ chosenItems icmpItems) :
    item ∈ icmpItems :=
  (entry_itemByHost (mem_chosenItems member)).1

theorem chosenItems_hostids (icmpItems : List IcmpItem) :
    ((chosenItems icmpItems).map (·.hostid)).Nodup := by
  have same : (chosenItems icmpItems).map (·.hostid) = (itemByHost icmpItems).keys := by
    rw [chosenItems, OrderedMap.values, OrderedMap.keys, List.map_map]
    apply List.map_congr_left
    intro entry member
    exact (entry_itemByHost member).2
  rw [same]
  exact (itemByHost icmpItems).keys_nodup

theorem chosenItems_itemids (distinct : (icmpItems.map (·.itemid)).Nodup) :
    ((chosenItems icmpItems).map (·.itemid)).Nodup := by
  apply List.Nodup.map_on
  · intro left inLeft right inRight same
    exact List.inj_on_of_nodup_map distinct (mem_icmpItems_of_chosen inLeft)
      (mem_icmpItems_of_chosen inRight) same
  · exact (chosenItems_hostids icmpItems).of_map _

theorem entries_hostByItem (distinct : (icmpItems.map (·.itemid)).Nodup) :
    (hostByItem icmpItems).entries =
      (chosenItems icmpItems).map fun item => (item.itemid, item) := by
  apply OrderedMap.entries_ofList
  rw [List.map_map]
  exact chosenItems_itemids distinct

theorem keys_hostByItem (distinct : (icmpItems.map (·.itemid)).Nodup) :
    (hostByItem icmpItems).keys = (chosenItems icmpItems).map (·.itemid) := by
  rw [OrderedMap.keys, entries_hostByItem distinct, List.map_map]
  rfl

end Items

namespace CoverageApi.Lists

variable {api : CoverageApi} {store : CoverageStore} {itemids : List String}
  {windowFrom windowEnd : ℤ}

theorem mem_trends (lists : api.Lists store) (distinct : itemids.Nodup)
    (forward : windowFrom < windowEnd) (row : ZTrend) :
    row ∈ api.trends itemids windowFrom windowEnd ↔
      row ∈ store.trends ∧ row.itemid ∈ itemids ∧ hourFloor windowFrom ≤ row.clock ∧
        row.clock ≤ windowEnd := by
  have started := (hourFloor_le windowFrom).1
  have range : hourFloor windowFrom ≤ windowEnd := by omega
  rw [← asked_iff distinct range]
  unfold CoverageApi.trends
  rw [List.mem_flatMap]
  constructor
  · rintro ⟨slice, ended, answered⟩
    obtain ⟨stored, matching⟩ := List.mem_filter.mp ((lists.trends _ _ _).mem_iff.mp answered)
    exact ⟨stored, slice, (lists.trendEnds _).mem_iff.mp ended, by simpa using matching⟩
  · rintro ⟨stored, slice, sent, matching⟩
    refine ⟨slice, (lists.trendEnds _).mem_iff.mpr sent, (lists.trends _ _ _).mem_iff.mpr ?_⟩
    exact List.mem_filter.mpr ⟨stored, by simpa using matching⟩

/-- One request asks about an item, so its samples come once. -/
theorem history_of_item (lists : api.Lists store) (distinct : itemids.Nodup) {itemid : String}
    (member : itemid ∈ itemids) (tailFrom : ℤ) :
    ((api.history itemids tailFrom windowEnd).filter fun row => row.itemid = itemid).Perm
      (store.history.filter fun row =>
        row.itemid = itemid ∧ tailFrom ≤ row.clock ∧ row.clock ≤ windowEnd) := by
  have whole : (chunk 35 itemids).flatten = itemids := chunk_flatten 35 (by decide) itemids
  have parts := lists.historyEnds (chunk 35 itemids)
  have ended : (api.historyEnds (chunk 35 itemids)).flatten.Perm itemids := by
    rw [← whole]
    exact whole.symm ▸ parts.flatten
  have inside : itemid ∈ (api.historyEnds (chunk 35 itemids)).flatten := ended.mem_iff.mpr member
  have once : (api.historyEnds (chunk 35 itemids)).flatten.Nodup := ended.nodup_iff.mpr distinct
  clear parts ended whole
  unfold CoverageApi.history
  revert inside once
  generalize api.historyEnds (chunk 35 itemids) = requests
  intro inside once
  induction requests with
  | nil => cases inside
  | cons ids rest ih =>
      have answered := (lists.history ids tailFrom windowEnd).filter fun row => row.itemid = itemid
      rw [List.filter_filter] at answered
      rw [List.flatten_cons, List.nodup_append'] at once
      obtain ⟨_, restOnce, apart⟩ := once
      rw [List.flatMap_cons, List.filter_append]
      by_cases here : itemid ∈ ids
      · have others : (rest.flatMap fun ids => api.historyGet ids tailFrom windowEnd).filter
            (fun row => row.itemid = itemid) = [] := by
          rw [List.filter_eq_nil_iff]
          intro row member own
          obtain ⟨other, inRest, inAnswer⟩ := List.mem_flatMap.mp member
          obtain ⟨_, matching⟩ := List.mem_filter.mp ((lists.history _ _ _).mem_iff.mp inAnswer)
          have asked : row.itemid ∈ other := by
            simp only [decide_eq_true_eq] at matching
            exact matching.1
          rw [show row.itemid = itemid by simpa using own] at asked
          exact apart here (List.mem_flatten.mpr ⟨other, inRest, asked⟩)
        rw [others, List.append_nil]
        refine answered.trans ?_
        apply List.Perm.of_eq
        apply List.filter_congr
        intro row _
        rw [← Bool.decide_and, decide_eq_decide]
        constructor
        · rintro ⟨own, _, bounds⟩
          exact ⟨own, bounds⟩
        · rintro ⟨own, bounds⟩
          exact ⟨own, own ▸ here, bounds⟩
      · have bare : (api.historyGet ids tailFrom windowEnd).filter
            (fun row => row.itemid = itemid) = [] := by
          have empty : store.history.filter (fun row => decide (row.itemid = itemid) &&
              decide (row.itemid ∈ ids ∧ tailFrom ≤ row.clock ∧ row.clock ≤ windowEnd)) = [] := by
            rw [List.filter_eq_nil_iff]
            intro row _ kept
            rw [← Bool.decide_and, decide_eq_true_iff] at kept
            exact here (kept.1 ▸ kept.2.1)
          rw [empty] at answered
          exact answered.eq_nil
        rw [bare, List.nil_append]
        rw [List.flatten_cons, List.mem_append] at inside
        exact ih (inside.resolve_left here) restOnce

end CoverageApi.Lists

section Last

private theorem foldl_last (rows : List ZTrend) (last : Option ℤ) :
    match rows.foldl (fun last row => some (max (last.getD row.clock) row.clock)) last with
    | none => rows = [] ∧ last = none
    | some hour => (last = some hour ∨ ∃ row ∈ rows, row.clock = hour) ∧
        (∀ before, last = some before → before ≤ hour) ∧ ∀ row ∈ rows, row.clock ≤ hour := by
  induction rows generalizing last with
  | nil => cases last <;> simp
  | cons row rest ih =>
      have next := ih (some (max (last.getD row.clock) row.clock))
      rw [List.foldl_cons]
      revert next
      generalize rest.foldl _ _ = final
      intro next
      cases final with
      | none => exact absurd next.2 (by simp)
      | some hour =>
          obtain ⟨reached, above, bounded⟩ := next
          have larger := above _ rfl
          refine ⟨?_, ?_, ?_⟩
          · rcases reached with same | ⟨other, inRest, same⟩
            · cases last with
              | none =>
                  refine .inr ⟨row, List.mem_cons_self, ?_⟩
                  simpa using same
              | some before =>
                  rcases max_choice before row.clock with first | second
                  · left
                    rw [Option.getD_some, first] at same
                    exact same
                  · refine .inr ⟨row, List.mem_cons_self, ?_⟩
                    rw [Option.getD_some, second] at same
                    exact Option.some.inj same
            · exact .inr ⟨other, List.mem_cons_of_mem _ inRest, same⟩
          · rintro before rfl
            exact (le_max_left _ _).trans larger
          · intro other member
            rcases List.mem_cons.mp member with rfl | inRest
            · exact (le_max_right _ _).trans larger
            · exact bounded other inRest

theorem lastTrendHour_eq_none {rows : List ZTrend} (last : lastTrendHour rows = none) :
    rows = [] := by
  have found := foldl_last rows none
  rw [show rows.foldl _ _ = none from last] at found
  exact found.1

theorem lastTrendHour_eq_some {rows : List ZTrend} {hour : ℤ}
    (last : lastTrendHour rows = some hour) :
    (∃ row ∈ rows, row.clock = hour) ∧ ∀ row ∈ rows, row.clock ≤ hour := by
  have found := foldl_last rows none
  rw [show rows.foldl _ _ = some hour from last] at found
  obtain ⟨reached, _, bounded⟩ := found
  exact ⟨reached.resolve_left (by simp), bounded⟩

/-- The last hour depends on which rows there are, not on their order. -/
theorem lastTrendHour_congr {left right : List ZTrend} (same : ∀ row, row ∈ left ↔ row ∈ right) :
    lastTrendHour left = lastTrendHour right := by
  cases leftLast : lastTrendHour left with
  | none =>
      have empty := lastTrendHour_eq_none leftLast
      have other : right = [] := by
        rw [List.eq_nil_iff_forall_not_mem]
        intro row member
        rw [← same, empty] at member
        cases member
      rw [other]
      rfl
  | some hour =>
      obtain ⟨⟨row, inLeft, reached⟩, bounded⟩ := lastTrendHour_eq_some leftLast
      cases rightLast : lastTrendHour right with
      | none =>
          rw [same, lastTrendHour_eq_none rightLast] at inLeft
          cases inLeft
      | some other =>
          obtain ⟨⟨further, inRight, reachedRight⟩, boundedRight⟩ := lastTrendHour_eq_some rightLast
          have below := bounded further ((same further).mpr inRight)
          have above := boundedRight row ((same row).mp inLeft)
          have hours : hour = other := by omega
          rw [hours]

end Last

section History

/-- The counts of an item are those of its own samples, hour by hour. -/
theorem historyCounts_of_item (rows : List ZHistory) (itemid : String) :
    ((historyCounts rows).get? itemid).getD .empty =
      countBy (fun row => hourFloor row.clock) (rows.filter fun row => row.itemid = itemid) :=
  foldBy_getD (fun row : ZHistory => row.itemid) OrderedMap.empty _ rows itemid

end History

end ZabbixPortal.Sli
