import ZabbixPortal.Foundation.OrderedMap
import Mathlib.Data.List.Induction
import Mathlib.Data.List.Nodup

/-! The first item of each key, by a walk that keeps the keys it has seen. -/

set_option autoImplicit false

namespace ZabbixPortal.Foundation

variable {α κ : Type} [DecidableEq κ] (key : α → κ)

def keepFirst (walk : List α × List κ) (item : α) : List α × List κ :=
  if key item ∈ walk.2 then walk else (walk.1 ++ [item], walk.2 ++ [key item])

def firsts (items : List α) : List α := (items.foldl (keepFirst key) ([], [])).1

/-- The keys seen are those of the items kept, each once, and those of all items so far. -/
structure Walked (items : List α) (walk : List α × List κ) : Prop where
  keys : walk.1.map key = walk.2
  nodup : walk.2.Nodup
  kept : ∀ item ∈ walk.1, item ∈ items
  seen : ∀ item ∈ items, key item ∈ walk.2

variable {key} {items : List α}

theorem Walked.next {walk : List α × List κ} (walked : Walked key items walk) (item : α) :
    Walked key (items ++ [item]) (keepFirst key walk item) := by
  have grows : ∀ other ∈ walk.1, other ∈ items ++ [item] := fun other member =>
    List.mem_append_left _ (walked.kept other member)
  unfold keepFirst
  by_cases seen : key item ∈ walk.2
  · rw [if_pos seen]
    refine ⟨walked.keys, walked.nodup, grows, fun other member => ?_⟩
    cases List.mem_append.mp member with
    | inl earlier => exact walked.seen other earlier
    | inr own => exact (List.mem_singleton.mp own) ▸ seen
  · rw [if_neg seen]
    refine ⟨?_, ?_, fun other member => ?_, fun other member => ?_⟩
    · simp only [List.map_append, List.map_cons, List.map_nil, walked.keys]
    · exact List.nodup_append.mpr ⟨walked.nodup, List.nodup_singleton _, fun first among second own same =>
        seen ((List.mem_singleton.mp own) ▸ same ▸ among)⟩
    · cases List.mem_append.mp member with
      | inl earlier => exact grows other earlier
      | inr own => exact List.mem_append_right _ own
    · cases List.mem_append.mp member with
      | inl earlier => exact List.mem_append_left _ (walked.seen other earlier)
      | inr own => exact List.mem_append_right _ (by rw [List.mem_singleton.mp own]; exact List.mem_singleton_self _)

theorem walked_foldl (key : α → κ) (items : List α) :
    Walked key items (items.foldl (keepFirst key) ([], [])) := by
  induction items using List.reverseRecOn with
  | nil => exact ⟨rfl, List.nodup_nil, fun _ member => member, fun _ member => absurd member List.not_mem_nil⟩
  | append_singleton items item ih =>
      rw [List.foldl_append]
      exact ih.next item

theorem nodup_map_firsts (items : List α) : ((firsts key items).map key).Nodup := by
  have walked := walked_foldl key items
  unfold firsts
  rw [walked.keys]
  exact walked.nodup

theorem mem_of_mem_firsts {item : α} (kept : item ∈ firsts key items) : item ∈ items :=
  (walked_foldl key items).kept item kept

/-- Each item has one of its key among those that are kept. -/
theorem exists_mem_firsts (key : α → κ) {item : α} (member : item ∈ items) :
    ∃ kept ∈ firsts key items, key kept = key item := by
  have walked := walked_foldl key items
  have seen := walked.seen item member
  rw [← walked.keys] at seen
  exact List.mem_map.mp seen

/-- Erasing what has come before leaves each item once. -/
theorem nodup_eraseDups {α : Type} [BEq α] [LawfulBEq α] (items : List α) :
    items.eraseDups.Nodup := by
  induction length : items.length using Nat.strongRecOn generalizing items with
  | ind count ih =>
      cases items with
      | nil => exact .nil
      | cons item rest =>
          rw [List.eraseDups_cons]
          have shorter := List.length_filter_le (fun other => !other == item) rest
          refine List.nodup_cons.mpr ⟨fun again => ?_, ih _ ?_ _ rfl⟩
          · have kept := (List.mem_filter.mp (List.mem_eraseDups.mp again)).2
            simp at kept
          · rw [← length, List.length_cons]
            omega

end ZabbixPortal.Foundation

/-! Folds in which the last item of a kind decides. -/

namespace ZabbixPortal.Foundation

variable {α β σ κ : Type}

def lastOf (kind : α → Bool) (items : List α) : Option α := (items.filter kind).getLast?

theorem lastOf_cons_of_pos {kind : α → Bool} {item : α} (own : kind item = true)
    (rest : List α) : lastOf kind (item :: rest) = some ((lastOf kind rest).getD item) := by
  rw [lastOf, List.filter_cons_of_pos own, List.getLast?_cons]
  rfl

theorem lastOf_cons_of_neg {kind : α → Bool} {item : α} (other : ¬ kind item = true)
    (rest : List α) : lastOf kind (item :: rest) = lastOf kind rest := by
  rw [lastOf, List.filter_cons_of_neg other]
  rfl

theorem mem_of_lastOf {kind : α → Bool} {items : List α} {item : α}
    (last : lastOf kind items = some item) : item ∈ items ∧ kind item = true :=
  List.mem_filter.mp (List.mem_of_getLast? last)

theorem lastOf_eq_none_iff {kind : α → Bool} {items : List α} :
    lastOf kind items = none ↔ ∀ item ∈ items, ¬ kind item = true := by
  rw [lastOf, List.getLast?_eq_none_iff, List.filter_eq_nil_iff]

/-- A field that each item of a kind sets, and no other item changes. -/
theorem foldl_last (field : σ → β) (step : σ → α → σ) {kind : α → Bool} {said : α → β}
    (sets : ∀ state item, field (step state item) = if kind item then said item else field state)
    (items : List α) (start : σ) :
    field (items.foldl step start) = ((lastOf kind items).map said).getD (field start) := by
  induction items generalizing start with
  | nil => rfl
  | cons item rest ih =>
      rw [List.foldl_cons, ih, sets]
      by_cases own : kind item = true
      · rw [if_pos own, lastOf_cons_of_pos own]
        cases lastOf kind rest <;> rfl
      · rw [if_neg own, lastOf_cons_of_neg own]

variable [DecidableEq κ]

/-- Setting keys in turn leaves the last value of each. -/
theorem get?_foldl_set_last (key : α → κ) (value : α → β) (items : List α)
    (map : OrderedMap κ β) (wanted : κ) :
    (items.foldl (fun map item => map.set (key item) (value item)) map).get? wanted =
      ((lastOf (fun item => key item = wanted) items).map fun item => some (value item)).getD
        (map.get? wanted) := by
  refine foldl_last (fun map : OrderedMap κ β => map.get? wanted) _ (fun map item => ?_) items map
  rw [OrderedMap.get?_set]
  by_cases same : key item = wanted
  · simp [same]
  · simp [same, Ne.symm same]

end ZabbixPortal.Foundation
