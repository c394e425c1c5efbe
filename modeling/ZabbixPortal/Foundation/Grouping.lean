import ZabbixPortal.Foundation.OrderedMap
import Mathlib.Data.List.Perm.Lattice

/-! Grouping a list into buckets by a key. Buckets appear in the order their
first member does, and each keeps the order of the list. -/

set_option autoImplicit false

namespace ZabbixPortal.Foundation

open OrderedMap

variable {α κ : Type} [DecidableEq κ]

def addToBucket (key : α → κ) (buckets : OrderedMap κ (List α)) (item : α) :
    OrderedMap κ (List α) :=
  buckets.set (key item) ((buckets.get? (key item)).getD [] ++ [item])

def groupBy (key : α → κ) (items : List α) : OrderedMap κ (List α) :=
  items.foldl (addToBucket key) OrderedMap.empty

private theorem getD_foldl_addToBucket (key : α → κ) (items : List α)
    (buckets : OrderedMap κ (List α)) (wanted : κ) :
    ((items.foldl (addToBucket key) buckets).get? wanted).getD [] =
      (buckets.get? wanted).getD [] ++ items.filter fun item => key item = wanted := by
  induction items generalizing buckets with
  | nil => simp
  | cons item rest ih =>
      rw [List.foldl_cons, ih, addToBucket, get?_set]
      by_cases same : wanted = key item
      · subst wanted
        simp
      · simp [same, Ne.symm same]

private theorem mem_keys_foldl_addToBucket (key : α → κ) (items : List α)
    (buckets : OrderedMap κ (List α)) (wanted : κ) :
    wanted ∈ (items.foldl (addToBucket key) buckets).keys ↔
      wanted ∈ buckets.keys ∨ ∃ item ∈ items, key item = wanted := by
  induction items generalizing buckets with
  | nil => simp
  | cons item rest ih =>
      rw [List.foldl_cons, ih, addToBucket, mem_keys_set]
      simp only [List.mem_cons, exists_eq_or_imp]
      tauto

@[simp] theorem mem_keys_groupBy (key : α → κ) (items : List α) (wanted : κ) :
    wanted ∈ (groupBy key items).keys ↔ ∃ item ∈ items, key item = wanted := by
  rw [groupBy, mem_keys_foldl_addToBucket]
  simp [OrderedMap.keys]

/-- A bucket holds exactly the items with its key, in their order. -/
theorem groupBy_bucket {key : α → κ} {items : List α} {wanted : κ} {bucket : List α}
    (member : (wanted, bucket) ∈ (groupBy key items).entries) :
    bucket = items.filter fun item => key item = wanted := by
  have found := (get?_eq_some_iff _ _ _).mpr member
  have content := getD_foldl_addToBucket key items OrderedMap.empty wanted
  rw [← groupBy, found] at content
  simpa using content

theorem groupBy_get? (key : α → κ) (items : List α) (wanted : κ) :
    ((groupBy key items).get? wanted).getD [] = items.filter fun item => key item = wanted := by
  simpa [groupBy] using getD_foldl_addToBucket key items OrderedMap.empty wanted

theorem groupBy_bucket_ne_nil {key : α → κ} {items : List α} {wanted : κ} {bucket : List α}
    (member : (wanted, bucket) ∈ (groupBy key items).entries) : bucket ≠ [] := by
  have present : wanted ∈ (groupBy key items).keys := List.mem_map_of_mem (f := Prod.fst) member
  obtain ⟨item, inside, same⟩ := (mem_keys_groupBy key items wanted).mp present
  rw [groupBy_bucket member]
  exact List.ne_nil_of_mem (List.mem_filter.mpr ⟨inside, by simpa using same⟩)

/-- Every bucket of the grouping is one of the entries, under its own key. -/
theorem groupBy_entry_of_mem (key : α → κ) {items : List α} {item : α} (member : item ∈ items) :
    (key item, items.filter fun other => key other = key item) ∈ (groupBy key items).entries := by
  have present : key item ∈ (groupBy key items).keys :=
    (mem_keys_groupBy key items _).mpr ⟨item, member, rfl⟩
  obtain ⟨⟨other, bucket⟩, inside, rfl⟩ := List.mem_map.mp present
  rw [← groupBy_bucket inside]
  exact inside

/-- A map of running results: each item is folded into the result under its key. -/
def foldBy {β : Type} (key : α → κ) (start : β) (step : β → α → β) (items : List α) :
    OrderedMap κ β :=
  items.foldl
    (fun map item => map.set (key item) (step ((map.get? (key item)).getD start) item)) empty

theorem getD_foldl_foldBy {β : Type} (key : α → κ) (start : β) (step : β → α → β)
    (items : List α) (map : OrderedMap κ β) (wanted : κ) :
    ((items.foldl
        (fun map item => map.set (key item) (step ((map.get? (key item)).getD start) item))
        map).get? wanted).getD start =
      (items.filter fun item => key item = wanted).foldl step
        ((map.get? wanted).getD start) := by
  induction items generalizing map with
  | nil => simp
  | cons item rest ih =>
      rw [List.foldl_cons, ih, get?_set]
      by_cases same : wanted = key item
      · subst wanted
        simp
      · simp [same, Ne.symm same]

/-- The result under a key is that of folding its own items, in their order. -/
theorem foldBy_getD {β : Type} (key : α → κ) (start : β) (step : β → α → β) (items : List α)
    (wanted : κ) :
    ((foldBy key start step items).get? wanted).getD start =
      (items.filter fun item => key item = wanted).foldl step start := by
  simpa [foldBy] using getD_foldl_foldBy key start step items OrderedMap.empty wanted

/-- A key of its own selects its item alone. -/
theorem filter_key_eq_singleton {key : α → κ} {items : List α} {item : α}
    (distinct : (items.map key).Nodup) (member : item ∈ items) :
    (items.filter fun other => key other = key item) = [item] := by
  induction items with
  | nil => cases member
  | cons first rest ih =>
      rw [List.map_cons, List.nodup_cons] at distinct
      rcases List.mem_cons.mp member with rfl | inRest
      · have others : (rest.filter fun other => key other = key item) = [] := by
          rw [List.filter_eq_nil_iff]
          intro other inside same
          exact distinct.1 (List.mem_map.mpr ⟨other, inside, of_decide_eq_true same⟩)
        rw [List.filter_cons, if_pos (decide_eq_true rfl), others]
      · have different : ¬ key first = key item := fun same =>
          distinct.1 (List.mem_map.mpr ⟨item, inRest, same.symm⟩)
        rw [List.filter_cons_of_neg (by simpa using different), ih distinct.2 inRest]

theorem mem_keys_foldl_foldBy {β : Type} (key : α → κ) (start : β) (step : β → α → β)
    (items : List α) (map : OrderedMap κ β) (wanted : κ) :
    wanted ∈ (items.foldl
        (fun map item => map.set (key item) (step ((map.get? (key item)).getD start) item))
        map).keys ↔ wanted ∈ map.keys ∨ ∃ item ∈ items, key item = wanted := by
  induction items generalizing map with
  | nil => simp
  | cons item rest ih =>
      rw [List.foldl_cons, ih, mem_keys_set]
      simp only [List.mem_cons, exists_eq_or_imp]
      constructor
      · rintro ((same | before) | later)
        · exact .inr (.inl same.symm)
        · exact .inl before
        · exact .inr (.inr later)
      · rintro (before | same | later)
        · exact .inl (.inr before)
        · exact .inl (.inl same.symm)
        · exact .inr later

def countBy (key : α → κ) (items : List α) : OrderedMap κ Nat :=
  foldBy key 0 (fun count _ => count + 1) items

theorem mem_entries_countBy (key : α → κ) (items : List α) (entry : κ × Nat) :
    entry ∈ (countBy key items).entries ↔
      0 < entry.2 ∧ entry.2 = (items.filter fun item => key item = entry.1).length := by
  have counted : ∀ (part : List α) (start : Nat),
      part.foldl (fun count _ => count + 1) start = start + part.length := by
    intro part
    induction part with
    | nil => simp
    | cons first rest ih =>
        intro start
        rw [List.foldl_cons, ih, List.length_cons]
        omega
  have value := foldBy_getD key 0 (fun count _ => count + 1) items entry.1
  rw [counted, Nat.zero_add] at value
  have listed : entry.1 ∈ (countBy key items).keys ↔ ∃ item ∈ items, key item = entry.1 := by
    have keys := mem_keys_foldl_foldBy key 0 (fun count _ => count + 1) items empty entry.1
    refine keys.trans (or_iff_right ?_)
    simp [OrderedMap.keys]
  have filled : (∃ item ∈ items, key item = entry.1) ↔
      0 < (items.filter fun item => key item = entry.1).length := by
    simp [List.length_pos_iff_exists_mem]
  rw [filled] at listed
  obtain ⟨wanted, count⟩ := entry
  dsimp only at value listed ⊢
  rw [← get?_eq_some_iff]
  constructor
  · intro found
    have positive := listed.mp (mem_keys_of_get? found)
    rw [countBy] at found
    rw [found] at value
    rw [← value] at positive
    exact ⟨positive, value⟩
  · rintro ⟨positive, same⟩
    rw [same] at positive
    cases found : (countBy key items).get? wanted with
    | none => exact absurd (listed.mpr positive) ((get?_eq_none_iff _ _).mp found)
    | some other =>
        rw [countBy] at found
        rw [found] at value
        rw [same, ← value]
        rfl

/-- Distinct keys that cover a list split it into its parts. -/
theorem perm_flatMap_filter (key : α → κ) (wanted : List κ) (items : List α)
    (distinct : wanted.Nodup) (covered : ∀ item ∈ items, key item ∈ wanted) :
    (wanted.flatMap fun candidate => items.filter fun item => key item = candidate).Perm
      items := by
  induction wanted generalizing items with
  | nil =>
      have empty : items = [] := List.eq_nil_iff_forall_not_mem.mpr fun item member =>
        absurd (covered item member) (by simp)
      simp [empty]
  | cons candidate rest ih =>
      have parts := List.nodup_cons.mp distinct
      have others := ih (items.filter fun item => ¬ key item = candidate) parts.2 (by
        intro item member
        obtain ⟨inside, different⟩ := List.mem_filter.mp member
        rcases List.mem_cons.mp (covered item inside) with same | later
        · simp [same] at different
        · exact later)
      have unaffected : (rest.flatMap fun other =>
            (items.filter fun item => ¬ key item = candidate).filter
              fun item => key item = other) =
          rest.flatMap fun other => items.filter fun item => key item = other := by
        refine List.flatMap_congr fun other member => ?_
        rw [List.filter_filter]
        refine List.filter_congr fun item _ => ?_
        have different : other ≠ candidate := fun same => parts.1 (same ▸ member)
        by_cases same : key item = other
        · simp [same, different]
        · simp [same]
      rw [List.flatMap_cons, ← unaffected]
      refine (List.Perm.append_left _ others).trans ?_
      simpa using List.filter_append_perm (fun item => decide (key item = candidate)) items

/-- The buckets put together are the list again. -/
theorem groupBy_perm (key : α → κ) (items : List α) :
    ((groupBy key items).entries.flatMap Prod.snd).Perm items := by
  have buckets : (groupBy key items).entries.flatMap Prod.snd =
      (groupBy key items).keys.flatMap fun candidate =>
        items.filter fun item => key item = candidate := by
    rw [OrderedMap.keys, List.flatMap_map]
    exact List.flatMap_congr fun entry member => groupBy_bucket member
  rw [buckets]
  refine perm_flatMap_filter key _ items (groupBy key items).keys_nodup ?_
  intro item member
  exact (mem_keys_groupBy key items _).mpr ⟨item, member, rfl⟩

/-- What each bucket contributes, item by item, adds up to what the list does. -/
theorem groupBy_flatMap_perm {β : Type} {key : α → κ} {items : List α}
    {entries : List (κ × List α)} (same : entries.Perm (groupBy key items).entries)
    (each : κ × List α → List β) (keep : α → Bool) (value : α → β)
    (bucketwise : ∀ entry ∈ (groupBy key items).entries,
      (each entry).Perm ((entry.2.filter keep).map value)) :
    (entries.flatMap each).Perm ((items.filter keep).map value) := by
  have together : (groupBy key items).entries.flatMap
        (fun entry => (entry.2.filter keep).map value) =
      (((groupBy key items).entries.flatMap Prod.snd).filter keep).map value := by
    rw [List.filter_flatMap, List.map_flatMap]
  have split := (same.flatMap_right each).trans (List.Perm.flatMap_left _ bucketwise)
  rw [together] at split
  exact split.trans (((groupBy_perm key items).filter keep).map value)

end ZabbixPortal.Foundation
