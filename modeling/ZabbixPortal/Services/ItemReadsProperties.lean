import ZabbixPortal.Foundation.Joined
import ZabbixPortal.Foundation.TwoRuns
import ZabbixPortal.Services.ItemReads
import ZabbixPortal.Sli.Trends

/-! What the item routes read of two Zabbix states that differ only in the values of interface
items: a viewer cannot tell the two apart, but by the capacity report. -/

set_option autoImplicit false

namespace ZabbixPortal.Services

open Foundation Core

structure SameButInterfaces (left right : ZabbixState) : Prop where
  items : left.items = right.items
  reachable : left.reachable = right.reachable
  last : ∀ item ∈ left.items, isNetworkKey item.key_ = false →
    ∀ now, left.last now item.itemid = right.last now item.itemid
  history : ∀ item ∈ left.items, isNetworkKey item.key_ = false →
    ∀ now, left.history now item.itemid = right.history now item.itemid
  trends : ∀ item ∈ left.items, isNetworkKey item.key_ = false →
    ∀ now, left.trends now item.itemid = right.trends now item.itemid

def AreIds (ids : List String) : Prop := ids ≠ [] ∧ ∀ id ∈ ids, isId id = true

def NoInterface (items : List ItemConfig) (ids : List String) : Prop :=
  ∀ item ∈ items, item.itemid ∈ ids → isNetworkKey item.key_ = false

section Alike

variable {γ β : Type} (search : ZabbixSearch) (items : List ItemConfig)

/-- Two values under one key that a viewer cannot tell apart. Those of the capacity report may
differ at will, and the pages of operators. -/
inductive ContentAlike (key : String) : Content γ β → Content γ β → Prop where
  | items {a b : List ItemRow}
      (cut : withoutNetworkItems ItemRow.key_ a = withoutNetworkItems ItemRow.key_ b) :
      ContentAlike key (.items a) (.items b)
  | latestPage {a b : LatestPage} (cut : key.toList.getLast? = some 'v' → a = b) :
      ContentAlike key (.latestPage a) (.latestPage b)
  | latestIds {rows : List LatestId}
      (flagged : ∀ row ∈ rows, row.net = false →
        ∃ item ∈ items, item.itemid = row.id ∧ isNetworkKey item.key_ = false) :
      ContentAlike key (.latestIds rows) (.latestIds rows)
  | latest {a b : LatestItems} (truncated : a.truncated = b.truncated)
      (cut : withoutNetworkItems LatestRow.key_ a.items =
        withoutNetworkItems LatestRow.key_ b.items) :
      ContentAlike key (.latest a) (.latest b)
  | itemKeys {rows : List (String × String)}
      (exact : ∀ ids, AreIds ids → key = itemKeysKey ids →
        ∀ item ∈ items, item.itemid ∈ ids → (item.itemid, item.key_) ∈ rows) :
      ContentAlike key (.itemKeys rows) (.itemKeys rows)
  | graph {a b : γ}
      (drawn : ∀ ids start stop points, AreIds ids → key = graphKey ids start stop points →
        NoInterface items ids → a = b) :
      ContentAlike key (.graph a) (.graph b)
  | capacity {a b : CapacityReport} : ContentAlike key (.capacity a) (.capacity b)
  | elsewhere {a b : β} : ContentAlike key (.elsewhere a) (.elsewhere b)

def KeyedRead.WellFormed : KeyedRead β → Prop
  | .itemKeys ids => AreIds ids
  | .graph ids _ _ _ => AreIds ids
  | _ => True

end Alike

/-! ## Keys -/

section Keys

variable {ids others : List String}

theorem isDigit_of_isId {id : String} (valid : isId id = true) :
    ∀ c ∈ id.toList, c.isDigit = true := by
  unfold isId at valid
  rw [Bool.and_eq_true] at valid
  exact List.all_eq_true.mp valid.2

theorem notMem_of_isId {id : String} {mark : Char} (valid : isId id = true)
    (plain : mark.isDigit = false) : mark ∉ id.toList := by
  intro member
  rw [isDigit_of_isId valid mark member] at plain
  cases plain

theorem joined_inj (valid : AreIds ids) (valid' : AreIds others)
    (same : joined ids = joined others) : ids = others := by
  have parts : ∀ {ids : List String}, AreIds ids →
      ((joined ids).toList.splitOn ',').map String.ofList = ids := by
    intro ids valid
    have apart : ∀ part ∈ ids.map String.toList, ',' ∉ part := by
      intro part member
      obtain ⟨id, inIds, rfl⟩ := List.mem_map.mp member
      exact notMem_of_isId (valid.2 id inIds) (by decide)
    rw [joined, String.toList_ofList, List.splitOn_intercalate ',' apart (by simp [valid.1]),
      List.map_map]
    simp [Function.comp_def]
  rw [← parts valid, ← parts valid', same]

theorem colon_notMem_joined (valid : AreIds ids) : ':' ∉ (joined ids).toList := by
  intro member
  rw [joined, String.toList_ofList] at member
  rcases mem_intercalate member with isMark | ⟨part, inParts, inPart⟩
  · cases isMark
  · obtain ⟨id, inIds, rfl⟩ := List.mem_map.mp inParts
    exact notMem_of_isId (valid.2 id inIds) (by decide) inPart

theorem itemKeysKey_inj (valid : AreIds ids) (valid' : AreIds others)
    (same : itemKeysKey ids = itemKeysKey others) : ids = others := by
  refine joined_inj valid valid' (String.toList_inj.mp ?_)
  have letters := congrArg String.toList same
  unfold itemKeysKey at letters
  rw [String.toList_append, String.toList_append] at letters
  exact List.append_cancel_left letters

theorem graphKey_ids {start stop points start' stop' points' : ℤ} (valid : AreIds ids)
    (valid' : AreIds others)
    (same : graphKey ids start stop points = graphKey others start' stop' points') :
    ids = others := by
  have before : ∀ {ids : List String} {start stop points : ℤ}, AreIds ids →
      ((graphKey ids start stop points).toList.drop 6).takeWhile (fun c => c ≠ ':') =
        (joined ids).toList := by
    intro ids start stop points valid
    have plain : ∀ c ∈ (joined ids).toList, decide (c ≠ ':') = true := by
      rintro c member
      refine decide_eq_true ?_
      rintro rfl
      exact colon_notMem_joined valid member
    have spelled : (graphKey ids start stop points).toList.drop 6 = (joined ids).toList ++
        ':' :: ((toString start).toList ++ ':' :: ((toString stop).toList ++
          ':' :: (toString points).toList)) := by
      simp [graphKey]
    rw [spelled, List.takeWhile_append_of_pos plain, List.takeWhile_cons_of_neg (by decide),
      List.append_nil]
  refine joined_inj valid valid' (String.toList_inj.mp ?_)
  rw [← before valid, ← before valid', same]

end Keys

/-! ## Query texts -/

section Parsing

variable {ids parts : List String} {name : String}

theorem isId_of_requireId {value : Option String} {id : String}
    (read : requireId value name = .ok id) : isId id = true := by
  unfold requireId at read
  split at read
  · next found =>
      cases read
      exact (Option.filter_eq_some_iff.mp found).2
  · cases read

theorem areIds_of_requireIds (nonempty : parts ≠ []) (read : requireIds parts name = .ok ids) :
    AreIds ids := by
  have each : ∀ {parts all : List String},
      (parts.mapM fun part => requireId (some part) name) = .ok all →
      all.length = parts.length ∧ ∀ id ∈ all, isId id = true := by
    intro parts
    induction parts with
    | nil =>
        intro all read
        cases read
        exact ⟨rfl, by simp⟩
    | cons part parts ih =>
        intro all read
        rw [List.mapM_cons] at read
        cases first : requireId (some part) name with
        | error refusal =>
            rw [first] at read
            cases read
        | ok id =>
            rw [first] at read
            cases rest : parts.mapM fun part => requireId (some part) name with
            | error refusal =>
                rw [rest] at read
                cases read
            | ok later =>
                rw [rest] at read
                cases read
                obtain ⟨length, valid⟩ := ih rest
                refine ⟨congrArg (· + 1) length, fun other member => ?_⟩
                cases List.mem_cons.mp member with
                | inl same => exact same ▸ isId_of_requireId first
                | inr inLater => exact valid other inLater
  unfold requireIds at read
  cases mapped : parts.mapM fun part => requireId (some part) name with
  | error refusal =>
      rw [mapped] at read
      cases read
  | ok all =>
      rw [mapped] at read
      cases read
      obtain ⟨length, valid⟩ := each mapped
      refine ⟨fun empty => nonempty ?_, fun id member => valid id (List.mem_eraseDups.mp member)⟩
      cases all with
      | nil => exact List.length_eq_zero_iff.mp length.symm
      | cons id rest =>
          have member : id ∈ (id :: rest).eraseDups := List.mem_eraseDups.mpr List.mem_cons_self
          rw [empty] at member
          cases member

end Parsing

/-! ## Reads -/

section Reads

variable {γ β : Type} {around : Surroundings γ β} {left right : ZabbixState} {now : ℤ}

/-- Rows that differ only for interface items are the same without these. -/
theorem withoutNetworkItems_map {α : Type} {key : α → String} {row row' : ItemConfig → α}
    {items : List ItemConfig} (keys : ∀ item, key (row item) = item.key_)
    (keys' : ∀ item, key (row' item) = item.key_)
    (same : ∀ item ∈ items, isNetworkKey item.key_ = false → row item = row' item) :
    withoutNetworkItems key (items.map row) = withoutNetworkItems key (items.map row') := by
  have cut : ∀ {row : ItemConfig → α}, (∀ item, key (row item) = item.key_) →
      withoutNetworkItems key (items.map row) =
        (items.filter fun item => !isNetworkKey item.key_).map row := by
    intro row keys
    rw [withoutNetworkItems, List.filter_map]
    simp only [Function.comp_def, keys]
  rw [cut keys, cut keys']
  refine List.map_congr_left fun item member => ?_
  obtain ⟨inItems, plain⟩ := List.mem_filter.mp member
  exact same item inItems (by simpa using plain)

theorem findItems_cut (states : SameButInterfaces left right) (q : ItemQuery) :
    withoutNetworkItems ItemRow.key_ (findItems around left now q) =
      withoutNetworkItems ItemRow.key_ (findItems around right now q) := by
  unfold findItems
  dsimp only
  rw [← states.items]
  refine withoutNetworkItems_map (fun _ => rfl) (fun _ => rfl) fun item member plain => ?_
  have inItems : item ∈ left.items := by
    split at member
    · exact (mem_of_mem_itemGet (List.mem_of_mem_filter member)).1
    · exact (mem_of_mem_itemGet member).1
  rw [itemRow, itemRow, states.last item inItems plain now]

theorem latestRow_eq (states : SameButInterfaces left right) {item : ItemConfig}
    (inItems : item ∈ left.items) (plain : isNetworkKey item.key_ = false) :
    latestRow left now item = latestRow right now item := by
  rw [latestRow, latestRow, states.last item inItems plain now]

theorem latestItems_cut (states : SameButInterfaces left right) (filter : LatestFilter)
    (text : Option String) :
    (latestItems around left now filter text).truncated =
        (latestItems around right now filter text).truncated ∧
      withoutNetworkItems LatestRow.key_ (latestItems around left now filter text).items =
        withoutNetworkItems LatestRow.key_ (latestItems around right now filter text).items := by
  unfold latestItems
  dsimp only
  rw [← states.items]
  refine ⟨rfl, withoutNetworkItems_map (fun _ => rfl) (fun _ => rfl) fun item member plain => ?_⟩
  exact latestRow_eq states (mem_of_mem_itemGet member).1 plain

theorem latestIdRows_flagged (filter : LatestFilter) (needle : String) :
    ∀ row ∈ latestIdRows around left filter needle, row.net = false →
      ∃ item ∈ left.items, item.itemid = row.id ∧ isNetworkKey item.key_ = false := by
  intro row member plain
  obtain ⟨item, sorted, rfl⟩ := List.mem_map.mp member
  exact ⟨item, (mem_of_mem_itemGet ((mem_sortBy _ _ _).mp sorted)).1, rfl, plain⟩

theorem mem_itemKeyRows {ids : List String} {item : ItemConfig} (inItems : item ∈ left.items)
    (wanted : item.itemid ∈ ids) : (item.itemid, item.key_) ∈ itemKeyRows around left ids :=
  List.mem_map.mpr ⟨item, mem_itemGet_itemids.mpr ⟨inItems, wanted⟩, rfl⟩

theorem fetchTrendsSliced_congr {ids : List String} {start stop : ℤ}
    (same : ∀ id ∈ ids, left.trends now id = right.trends now id) :
    fetchTrendsSliced left now ids start stop = fetchTrendsSliced right now ids start stop := by
  unfold fetchTrendsSliced
  cases backward : decide (stop < start) with
  | true =>
      rw [Sli.trendSlices, if_pos (.inr (of_decide_eq_true backward))]
      rfl
  | false =>
      have forward := not_lt.mp (of_decide_eq_false backward)
      refine List.flatMap_congr fun slice inSlices => ?_
      have rows : slice.itemids.eraseDups.flatMap (left.trends now) =
          slice.itemids.eraseDups.flatMap (right.trends now) :=
        List.flatMap_congr fun id inSlice =>
          same id (Sli.trendSlices_known forward inSlices (List.mem_eraseDups.mp inSlice))
      rw [trendGet, trendGet, rows]

/-- A graph is refused alike, and of items that are none of them interfaces drawn alike. -/
theorem getGraph_alike (states : SameButInterfaces left right) (ids : List String)
    (start stop points : ℤ) :
    ResultsAlike (fun a b => NoInterface left.items ids → a = b)
      (getGraph around left now ids start stop points)
      (getGraph around right now ids start stop points) := by
  unfold getGraph
  dsimp only
  rw [← states.items]
  generalize found : itemGet around.search left.items { itemids := some ids, webitems := true } =
    items
  split
  · exact .error _
  · next known =>
      split
      · exact .error _
      · refine .ok fun plain => ?_
        have empty : ids.filter (fun id =>
            !(OrderedMap.ofList (items.map fun item => (item.itemid, item))).contains id) = [] := by
          simpa using known
        have ofId : ∀ {id : String} {item : ItemConfig},
            (OrderedMap.ofList (items.map fun item => (item.itemid, item))).get? id = some item →
            item ∈ left.items ∧ item.itemid = id ∧ item.itemid ∈ ids := by
          intro id item inMap
          have entry := OrderedMap.mem_of_mem_ofList
            ((OrderedMap.get?_eq_some_iff _ _ _).mp inMap)
          obtain ⟨other, member, same⟩ := List.mem_map.mp entry
          cases same
          have wanted := mem_itemGet_itemids.mp (found ▸ member)
          exact ⟨wanted.1, rfl, wanted.2⟩
        have trends : ∀ id ∈ ids, left.trends now id = right.trends now id := by
          intro id member
          have isKnown := List.filter_eq_nil_iff.mp empty id member
          rw [Bool.not_eq_true', Bool.not_eq_false, OrderedMap.contains,
            Option.isSome_iff_exists] at isKnown
          obtain ⟨item, inMap⟩ := isKnown
          obtain ⟨inItems, rfl, wanted⟩ := ofId inMap
          exact states.trends item inItems (plain item inItems wanted) now
        rw [fetchTrendsSliced_congr trends]
        refine congrArg (fun series => around.draw { start, stop, points, series })
          (List.map_congr_left fun item member => ?_)
        obtain ⟨id, _, inMap⟩ := List.mem_filterMap.mp member
        obtain ⟨inItems, _, wanted⟩ := ofId inMap
        rw [readSeries, readSeries, states.history item inItems (plain item inItems wanted) now]

theorem key_request (read : KeyedRead β) (now later : ℤ) :
    (read.request now).key = (read.request later).key := by
  cases read <;> rfl

theorem fetchRead_alike (states : SameButInterfaces left right) {read : KeyedRead β}
    (wellFormed : read.WellFormed) :
    ResultsAlike (ContentAlike left.items (read.request now).key) (fetchRead around left now read)
      (fetchRead around right now read) := by
  unfold fetchRead
  rw [← states.reachable]
  split
  · cases read with
    | items query => exact .ok (.items (findItems_cut states query))
    | latestIds filter needle =>
        have same : latestIdRows around right filter needle =
            latestIdRows around left filter needle := by
          rw [latestIdRows, latestIdRows, states.items]
        dsimp only
        rw [same]
        exact .ok (.latestIds (latestIdRows_flagged filter needle))
    | latest filter text =>
        obtain ⟨truncated, cut⟩ := @latestItems_cut _ _ around _ _ now states filter text
        exact .ok (.latest truncated cut)
    | itemKeys ids =>
        have same : itemKeyRows around right ids = itemKeyRows around left ids := by
          rw [itemKeyRows, itemKeyRows, states.items]
        dsimp only
        rw [same]
        refine .ok (.itemKeys fun others valid isKey item inItems wanted => ?_)
        cases itemKeysKey_inj wellFormed valid isKey
        exact mem_itemKeyRows inItems wanted
    | graph ids start stop points =>
        have drawn := @getGraph_alike _ _ around _ _ now states ids start stop points
        dsimp only
        generalize getGraph around left now ids start stop points = first at drawn ⊢
        generalize getGraph around right now ids start stop points = second at drawn ⊢
        cases drawn with
        | error refusal => exact .error refusal
        | ok same =>
            refine .ok (.graph fun others start' stop' points' valid isKey plain => ?_)
            cases graphKey_ids wellFormed valid isKey
            exact same plain
    | capacity days top => exact .ok .capacity
    | elsewhere read => exact .ok .elsewhere
  · exact .error Refusal.unavailable

end Reads

end ZabbixPortal.Services
