import Mathlib.Data.List.Nodup
import Mathlib.Data.List.Perm.Basic
import Mathlib.Data.List.Perm.Subperm

/-! Maps that keep their keys in insertion order, as a JavaScript `Map` does.
Setting a key that is present keeps its place; deleting and setting it again
moves it to the end. -/

set_option autoImplicit false

namespace ZabbixPortal.Foundation

/-- Entries in insertion order. Distinct keys are part of the value. -/
structure OrderedMap (κ α : Type) where
  entries : List (κ × α)
  distinct : (entries.map Prod.fst).Nodup
deriving DecidableEq

namespace OrderedMap

variable {κ α : Type}

def empty : OrderedMap κ α := ⟨[], by simp⟩

instance : Inhabited (OrderedMap κ α) := ⟨empty⟩

def keys (map : OrderedMap κ α) : List κ := map.entries.map Prod.fst

def values (map : OrderedMap κ α) : List α := map.entries.map Prod.snd

def size (map : OrderedMap κ α) : Nat := map.entries.length

theorem keys_nodup (map : OrderedMap κ α) : map.keys.Nodup := map.distinct

@[simp] theorem entries_empty : (empty : OrderedMap κ α).entries = [] := rfl

def mapValues (map : OrderedMap κ α) (change : κ → α → α) : OrderedMap κ α :=
  ⟨map.entries.map fun entry => (entry.1, change entry.1 entry.2), by
    rw [List.map_map]
    exact map.distinct⟩

def filter (map : OrderedMap κ α) (keep : κ × α → Bool) : OrderedMap κ α :=
  ⟨map.entries.filter keep,
    map.distinct.sublist (List.filter_sublist.map Prod.fst)⟩

@[simp] theorem entries_filter (map : OrderedMap κ α) (keep : κ × α → Bool) :
    (map.filter keep).entries = map.entries.filter keep := rfl

theorem size_filter_le (map : OrderedMap κ α) (keep : κ × α → Bool) :
    (map.filter keep).size ≤ map.size :=
  List.length_filter_le _ _

private theorem keys_extend (entries : List (κ × α)) (key : κ) (value : α)
    (distinct : (entries.map Prod.fst).Nodup) (absent : key ∉ entries.map Prod.fst) :
    ((entries ++ [(key, value)]).map Prod.fst).Nodup := by
  rw [List.map_append, List.nodup_append]
  refine ⟨distinct, by simp, ?_⟩
  intro other member added inSingleton equal
  have same : added = key := by simpa using inSingleton
  exact absent (same ▸ equal ▸ member)

variable [DecidableEq κ]

def get? (map : OrderedMap κ α) (key : κ) : Option α :=
  (map.entries.find? fun entry => entry.1 = key).map Prod.snd

def contains (map : OrderedMap κ α) (key : κ) : Bool := (map.get? key).isSome

def delete (map : OrderedMap κ α) (key : κ) : OrderedMap κ α :=
  map.filter fun entry => entry.1 ≠ key

private theorem keys_update (entries : List (κ × α)) (key : κ) (value : α) :
    (entries.map fun entry => if entry.1 = key then (key, value) else entry).map Prod.fst =
      entries.map Prod.fst := by
  rw [List.map_map]
  refine List.map_congr_left fun entry _ => ?_
  by_cases same : entry.1 = key <;> simp [same]

/-- Replace the value in place when the key is present, else append it. -/
def set (map : OrderedMap κ α) (key : κ) (value : α) : OrderedMap κ α :=
  if present : key ∈ map.entries.map Prod.fst then
    ⟨map.entries.map fun entry => if entry.1 = key then (key, value) else entry,
      (keys_update map.entries key value).symm ▸ map.distinct⟩
  else
    ⟨map.entries ++ [(key, value)], keys_extend map.entries key value map.distinct present⟩

def ofList (pairs : List (κ × α)) : OrderedMap κ α :=
  pairs.foldl (fun map pair => map.set pair.1 pair.2) empty

def dropFirst (map : OrderedMap κ α) : OrderedMap κ α :=
  match map.keys.head? with
  | none => map
  | some key => map.delete key

def addAll (key : α → κ) (map : OrderedMap κ α) (items : List α) : OrderedMap κ α :=
  items.foldl (fun map item => map.set (key item) item) map

def firstBy (key : α → κ) (items : List α) : OrderedMap κ α :=
  items.foldl (fun map item => if map.contains (key item) then map else map.set (key item) item)
    empty

@[simp] theorem get?_empty (key : κ) : (empty : OrderedMap κ α).get? key = none := rfl

/-- Lookup and membership agree because keys are distinct. -/
theorem get?_eq_some_iff (map : OrderedMap κ α) (key : κ) (value : α) :
    map.get? key = some value ↔ (key, value) ∈ map.entries := by
  unfold get?
  constructor
  · intro found
    obtain ⟨entry, selected, rfl⟩ := Option.map_eq_some_iff.mp found
    have matched : entry.1 = key := by simpa using List.find?_some selected
    exact matched ▸ List.mem_of_find?_eq_some selected
  · intro member
    cases selected : map.entries.find? fun entry => entry.1 = key with
    | none =>
        have excluded := List.find?_eq_none.mp selected (key, value) member
        simp at excluded
    | some entry =>
        have matched : entry.1 = key := by simpa using List.find?_some selected
        have inside := List.mem_of_find?_eq_some selected
        have same := List.inj_on_of_nodup_map map.distinct inside member matched
        rw [same]
        rfl

theorem get?_eq_none_iff (map : OrderedMap κ α) (key : κ) :
    map.get? key = none ↔ key ∉ map.keys := by
  rw [Option.eq_none_iff_forall_ne_some]
  simp only [ne_eq, get?_eq_some_iff, keys, List.mem_map, not_exists, not_and]
  constructor
  · rintro absent ⟨other, value⟩ member rfl
    exact absent value member
  · intro absent value member
    exact absent (key, value) member rfl

theorem get?_mapValues (map : OrderedMap κ α) (change : κ → α → α) (key : κ) :
    (map.mapValues change).get? key = (map.get? key).map (change key) := by
  ext found
  rw [get?_eq_some_iff, Option.map_eq_some_iff]
  simp only [mapValues, List.mem_map, get?_eq_some_iff]
  constructor
  · rintro ⟨⟨other, value⟩, member, same⟩
    cases same
    exact ⟨value, member, rfl⟩
  · rintro ⟨value, member, rfl⟩
    exact ⟨(key, value), member, rfl⟩

theorem mem_keys_of_get? {map : OrderedMap κ α} {key : κ} {value : α}
    (found : map.get? key = some value) : key ∈ map.keys :=
  List.mem_map.mpr ⟨(key, value), (get?_eq_some_iff map key value).mp found, rfl⟩

theorem contains_iff (map : OrderedMap κ α) (key : κ) :
    map.contains key = true ↔ ∃ value, map.get? key = some value := by
  rw [contains, Option.isSome_iff_exists]

theorem mem_entries_delete (map : OrderedMap κ α) (key : κ) (entry : κ × α) :
    entry ∈ (map.delete key).entries ↔ entry ∈ map.entries ∧ entry.1 ≠ key := by
  simp [delete]

theorem mem_entries_set (map : OrderedMap κ α) (key : κ) (value : α) (entry : κ × α) :
    entry ∈ (map.set key value).entries ↔
      entry = (key, value) ∨ (entry ∈ map.entries ∧ entry.1 ≠ key) := by
  unfold set
  split
  · next present =>
      obtain ⟨previous, previousMember, previousKey⟩ := List.mem_map.mp present
      simp only [List.mem_map]
      constructor
      · rintro ⟨source, member, rfl⟩
        by_cases same : source.1 = key
        · simp [same]
        · simp [same, member]
      · rintro (rfl | ⟨member, different⟩)
        · exact ⟨previous, previousMember, by simp [previousKey]⟩
        · exact ⟨entry, member, by simp [different]⟩
  · next absent =>
      have kept : ∀ member : entry ∈ map.entries, entry.1 ≠ key := fun member same =>
        absent (List.mem_map.mpr ⟨entry, member, same⟩)
      simp only [List.mem_append, List.mem_singleton]
      constructor
      · rintro (member | rfl)
        · exact .inr ⟨member, kept member⟩
        · exact .inl rfl
      · rintro (rfl | ⟨member, _⟩)
        · exact .inr rfl
        · exact .inl member

theorem get?_set (map : OrderedMap κ α) (key other : κ) (value : α) :
    (map.set key value).get? other = if other = key then some value else map.get? other := by
  ext found
  rw [get?_eq_some_iff, mem_entries_set]
  by_cases same : other = key
  · subst other
    simp [eq_comm]
  · simp [same, get?_eq_some_iff]

@[simp] theorem get?_set_self (map : OrderedMap κ α) (key : κ) (value : α) :
    (map.set key value).get? key = some value := by
  simp [get?_set]

theorem get?_delete (map : OrderedMap κ α) (key other : κ) :
    (map.delete key).get? other = if other = key then none else map.get? other := by
  ext found
  rw [get?_eq_some_iff, mem_entries_delete]
  by_cases same : other = key <;> simp [same, get?_eq_some_iff]

@[simp] theorem get?_delete_self (map : OrderedMap κ α) (key : κ) :
    (map.delete key).get? key = none := by
  simp [get?_delete]

theorem size_set (map : OrderedMap κ α) (key : κ) (value : α) :
    (map.set key value).size = map.size + if key ∈ map.keys then 0 else 1 := by
  unfold set size keys
  split <;> simp

theorem entries_set_of_absent (map : OrderedMap κ α) {key : κ} (value : α)
    (absent : key ∉ map.keys) : (map.set key value).entries = map.entries ++ [(key, value)] := by
  rw [set, dif_neg (show key ∉ map.entries.map Prod.fst from absent)]

/-- Dropping the oldest entry drops just that one: its key occurs nowhere else. -/
theorem entries_dropFirst (map : OrderedMap κ α) : map.dropFirst.entries = map.entries.tail := by
  obtain ⟨entries, distinct⟩ := map
  cases entries with
  | nil => rfl
  | cons entry rest =>
      have parts := List.nodup_cons.mp distinct
      have others : ∀ other ∈ rest, other.1 ≠ entry.1 := fun other member same =>
        parts.1 (same ▸ List.mem_map_of_mem member)
      simp only [dropFirst, keys, List.map_cons, List.head?_cons, delete, filter, List.tail_cons]
      rw [List.filter_cons_of_neg (by simp)]
      exact List.filter_eq_self.mpr fun other member => by simpa using others other member

theorem size_dropFirst (map : OrderedMap κ α) : map.dropFirst.size = map.size - 1 := by
  rw [size, entries_dropFirst, List.length_tail, size]

theorem get?_dropFirst (map : OrderedMap κ α) (key : κ) (kept : map.keys.head? ≠ some key) :
    map.dropFirst.get? key = map.get? key := by
  unfold dropFirst
  split
  · rfl
  · next first isFirst =>
      have different : key ≠ first := by
        rintro rfl
        exact kept isFirst
      rw [get?_delete, if_neg different]

theorem mem_keys_set (map : OrderedMap κ α) (key other : κ) (value : α) :
    other ∈ (map.set key value).keys ↔ other = key ∨ other ∈ map.keys := by
  have decided : ∀ candidate : κ, candidate ∈ map.keys ↔ map.get? candidate ≠ none := by
    intro candidate
    rw [ne_eq, get?_eq_none_iff, not_not]
  have updated : other ∈ (map.set key value).keys ↔ (map.set key value).get? other ≠ none := by
    rw [ne_eq, get?_eq_none_iff, not_not]
  rw [updated, decided, get?_set]
  by_cases same : other = key <;> simp [same]

theorem get?_filter (map : OrderedMap κ α) (keep : κ × α → Bool) (key : κ) :
    (map.filter keep).get? key = (map.get? key).filter fun value => keep (key, value) := by
  ext found
  rw [get?_eq_some_iff]
  simp [Option.filter_eq_some_iff, get?_eq_some_iff]

/-- Looking up a map filtered by a predicate on keys alone. -/
theorem get?_filter_key (map : OrderedMap κ α) (keep : κ → Bool) (key : κ) :
    (map.filter fun entry => keep entry.1).get? key =
      if keep key then map.get? key else none := by
  ext found
  rw [get?_eq_some_iff]
  simp only [entries_filter, List.mem_filter]
  by_cases kept : keep key = true <;> simp [kept, get?_eq_some_iff]

/-- Setting pairs that agree on a key leaves the key with their value. -/
theorem get?_foldl_set (pairs : List (κ × α)) (map : OrderedMap κ α) {key : κ} {value : α}
    (agree : ∀ pair ∈ pairs, pair.1 = key → pair.2 = value)
    (present : map.get? key = some value ∨ ∃ pair ∈ pairs, pair.1 = key) :
    (pairs.foldl (fun map pair => map.set pair.1 pair.2) map).get? key = some value := by
  induction pairs generalizing map with
  | nil => exact present.resolve_right (by simp)
  | cons pair rest ih =>
      refine ih _ (fun other member => agree other (.tail _ member)) ?_
      by_cases same : pair.1 = key
      · exact .inl (by rw [get?_set, if_pos same.symm, agree pair List.mem_cons_self same])
      · rcases present with found | ⟨other, member, otherKey⟩
        · exact .inl (by rw [get?_set, if_neg (Ne.symm same), found])
        · rcases List.mem_cons.mp member with rfl | later
          · exact absurd otherKey same
          · exact .inr ⟨other, later, otherKey⟩

/-- A map built from pairs with distinct keys answers with those pairs. -/
theorem get?_ofList (pairs : List (κ × α)) (distinct : (pairs.map Prod.fst).Nodup)
    {key : κ} {value : α} (member : (key, value) ∈ pairs) :
    (ofList pairs).get? key = some value := by
  refine get?_foldl_set pairs empty (fun pair inside same => ?_) (.inr ⟨_, member, rfl⟩)
  rw [List.inj_on_of_nodup_map distinct inside member same]

private theorem mem_entries_foldl_set (pairs : List (κ × α)) (map : OrderedMap κ α)
    {entry : κ × α}
    (member : entry ∈ (pairs.foldl (fun map pair => map.set pair.1 pair.2) map).entries) :
    entry ∈ map.entries ∨ entry ∈ pairs := by
  induction pairs generalizing map with
  | nil => exact .inl member
  | cons pair rest ih =>
      rcases ih _ member with before | later
      · rcases (mem_entries_set _ _ _ _).mp before with same | ⟨kept, _⟩
        · exact .inr (same ▸ List.mem_cons_self)
        · exact .inl kept
      · exact .inr (.tail _ later)

theorem mem_of_mem_ofList {pairs : List (κ × α)} {entry : κ × α}
    (member : entry ∈ (ofList pairs).entries) : entry ∈ pairs :=
  (mem_entries_foldl_set pairs empty member).resolve_left (by simp)

theorem entries_foldl_set {pairs : List (κ × α)} (map : OrderedMap κ α)
    (distinct : (map.keys ++ pairs.map Prod.fst).Nodup) :
    (pairs.foldl (fun map pair => map.set pair.1 pair.2) map).entries = map.entries ++ pairs := by
  induction pairs generalizing map with
  | nil => simp
  | cons pair rest ih =>
      have absent : pair.1 ∉ map.keys := by
        intro present
        exact (List.nodup_append'.mp distinct).2.2 present (by simp)
      have added : (map.set pair.1 pair.2).entries = map.entries ++ [pair] :=
        entries_set_of_absent map pair.2 absent
      have keys : (map.set pair.1 pair.2).keys = map.keys ++ [pair.1] := by
        rw [OrderedMap.keys, added, List.map_append]
        rfl
      rw [List.foldl_cons, ih, added, List.append_assoc]
      · rfl
      · rw [keys, List.append_assoc]
        exact distinct

/-- Pairs with distinct keys are the entries of the map built from them. -/
theorem entries_ofList {pairs : List (κ × α)} (distinct : (pairs.map Prod.fst).Nodup) :
    (ofList pairs).entries = pairs :=
  (entries_foldl_set empty (by simpa [keys] using distinct)).trans (List.nil_append _)

/-- The values are what the keys answer. -/
theorem values_eq_map_keys (map : OrderedMap κ α) (fallback : α) :
    map.values = map.keys.map fun key => (map.get? key).getD fallback := by
  rw [values, keys, List.map_map]
  apply List.map_congr_left
  intro entry member
  have found : map.get? entry.1 = some entry.2 := (get?_eq_some_iff _ _ _).mpr member
  rw [Function.comp_apply, found, Option.getD_some]

private theorem mem_entries_addAll {key : α → κ} {items : List α} {map : OrderedMap κ α}
    {entry : κ × α} (member : entry ∈ (addAll key map items).entries) :
    entry ∈ map.entries ∨ (entry.2 ∈ items ∧ key entry.2 = entry.1) := by
  induction items generalizing map with
  | nil => exact .inl member
  | cons item rest ih =>
      rcases ih member with before | ⟨later, same⟩
      · rcases (mem_entries_set _ _ _ _).mp before with rfl | ⟨kept, _⟩
        · exact .inr ⟨List.mem_cons_self, rfl⟩
        · exact .inl kept
      · exact .inr ⟨.tail _ later, same⟩

theorem addAll_append (key : α → κ) (map : OrderedMap κ α) (first second : List α) :
    addAll key (addAll key map first) second = addAll key map (first ++ second) :=
  List.foldl_append.symm

/-- A value of an index is one of its items, under the item's key. -/
theorem addAll_entry {key : α → κ} {items : List α} {entry : κ × α}
    (member : entry ∈ (addAll key empty items).entries) :
    entry.2 ∈ items ∧ key entry.2 = entry.1 := by
  rcases mem_entries_addAll member with absurd' | found
  · cases absurd'
  · exact found

private theorem get?_addAll_of_mem {key : α → κ} {items : List α} (map : OrderedMap κ α)
    (injective : ∀ left ∈ items, ∀ right ∈ items, key left = key right → left = right)
    {item : α} (member : item ∈ items ∨
      (map.get? (key item) = some item ∧ ∀ other ∈ items, key other = key item → other = item)) :
    (addAll key map items).get? (key item) = some item := by
  induction items generalizing map with
  | nil => exact (member.resolve_left (by simp)).1
  | cons first rest ih =>
      have restInjective : ∀ left ∈ rest, ∀ right ∈ rest, key left = key right → left = right :=
        fun left inLeft right inRight => injective left (.tail _ inLeft) right (.tail _ inRight)
      refine ih (map.set (key first) first) restInjective ?_
      by_cases later : item ∈ rest
      · exact .inl later
      · refine .inr ?_
        rcases member with inList | ⟨found, agrees⟩
        · have same : item = first := (List.mem_cons.mp inList).resolve_right later
          subst same
          refine ⟨get?_set_self _ _ _, fun other inRest sameKey => ?_⟩
          exact injective other (.tail _ inRest) item List.mem_cons_self sameKey
        · refine ⟨?_, fun other inRest => agrees other (.tail _ inRest)⟩
          rw [get?_set]
          split
          · next sameKey => rw [agrees first List.mem_cons_self sameKey.symm]
          · exact found

/-- Indexing by a key that tells the items apart keeps all of them. -/
theorem mem_values_addAll (key : α → κ) {items : List α}
    (injective : ∀ left ∈ items, ∀ right ∈ items, key left = key right → left = right) (item : α) :
    item ∈ (addAll key empty items).values ↔ item ∈ items := by
  constructor
  · intro member
    obtain ⟨entry, inside, rfl⟩ := List.mem_map.mp member
    exact (addAll_entry inside).1
  · intro member
    have found := get?_addAll_of_mem empty injective (.inl member)
    exact List.mem_map.mpr ⟨(key item, item), (get?_eq_some_iff _ _ _).mp found, rfl⟩

/-- The keys of an index's values are its keys, so no two are the same. -/
theorem addAll_values_nodup (key : α → κ) (items : List α) :
    ((addAll key empty items).values.map key).Nodup := by
  have keys : (addAll key empty items).values.map key = (addAll key empty items).keys := by
    rw [values, OrderedMap.keys, List.map_map]
    exact List.map_congr_left fun entry member => (addAll_entry member).2
  rw [keys]
  exact keys_nodup _

private theorem get?_foldl_first (key : α → κ) (items : List α) (map : OrderedMap κ α)
    (wanted : κ) :
    (items.foldl (fun map item => if map.contains (key item) then map
      else map.set (key item) item) map).get? wanted =
      (map.get? wanted).or (items.find? fun item => key item = wanted) := by
  induction items generalizing map with
  | nil => simp
  | cons item rest ih =>
      rw [List.foldl_cons, ih]
      by_cases same : key item = wanted
      · subst wanted
        cases present : map.get? (key item) with
        | none => simp [contains, present]
        | some value => simp [contains, present]
      · cases present : map.get? (key item) with
        | none => simp [contains, present, same, get?_set, Ne.symm same]
        | some value => simp [contains, present, same]

theorem get?_firstBy (key : α → κ) (items : List α) (wanted : κ) :
    (firstBy key items).get? wanted = items.find? fun item => key item = wanted := by
  rw [firstBy, get?_foldl_first, get?_empty, Option.none_or]

theorem mem_values_firstBy (key : α → κ) {items : List α} (item : α) :
    item ∈ (firstBy key items).values ↔
      (items.find? fun other => key other = key item) = some item := by
  constructor
  · intro member
    obtain ⟨⟨wanted, value⟩, inside, rfl⟩ := List.mem_map.mp member
    have found := (get?_eq_some_iff _ _ _).mpr inside
    rw [get?_firstBy] at found
    have same : key value = wanted := by simpa using List.find?_some found
    subst same
    exact found
  · intro found
    rw [← get?_firstBy, get?_eq_some_iff] at found
    exact List.mem_map.mpr ⟨_, found, rfl⟩

end OrderedMap

end ZabbixPortal.Foundation
