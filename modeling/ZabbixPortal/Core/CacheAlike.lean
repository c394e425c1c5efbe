import ZabbixPortal.Core.CacheAccounting
import Mathlib.Data.List.Forall2

/-! Two caches that hold the same keys in the same order and differ only in their values. As
long as neither has to drop an entry for its bytes, what is done to both keeps them alike. -/

set_option autoImplicit false

namespace ZabbixPortal.Core

open Foundation

theorem find?_related {α β : Type} {related : α → β → Prop} {left : List α} {right : List β}
    {wanted : α → Bool} {wanted' : β → Bool}
    (same : ∀ a b, related a b → wanted a = wanted' b)
    (pairs : List.Forall₂ related left right) :
    Option.Rel related (left.find? wanted) (right.find? wanted') := by
  induction pairs with
  | nil => exact .none
  | @cons a b left right first rest ih =>
      rw [List.find?_cons, List.find?_cons, same a b first]
      cases wanted' b with
      | true => exact .some first
      | false => exact ih

variable {α : Type}

/-- Two entries that differ only in their values and the sizes of these. -/
structure Entry.Alike (alike : α → α → Prop) (left right : Entry α) : Prop where
  t : left.t = right.t
  pinned : left.pinned = right.pinned
  refreshing : left.refreshing = right.refreshing
  v : alike left.v right.v

namespace Cache

inductive FoundAlike (alike : α → α → Prop) : Found α → Found α → Prop where
  | fresh {left right : Entry α} (entries : left.Alike alike right) :
      FoundAlike alike (.fresh left) (.fresh right)
  | stale {left right : Entry α} (entries : left.Alike alike right) :
      FoundAlike alike (.stale left) (.stale right)
  | missing : FoundAlike alike .missing .missing

structure Alike (alike : String → α → α → Prop) (left right : Cache α) : Prop where
  entries : List.Forall₂ (fun a b => a.1 = b.1 ∧ a.2.Alike (alike a.1) b.2)
    left.store.entries right.store.entries
  holds : left.holds = right.holds

def hasRoom (cache : Cache α) (key : String) (entry : Entry α) : Bool :=
  (cache.inserted key entry).heldBytes ≤ MAX_BYTES ∧
    (cache.inserted key entry).pinnedBytes ≤ MAX_PINNED_BYTES

namespace Alike

variable {alike : String → α → α → Prop} {left right : Cache α}

theorem empty : Alike alike (Cache.empty : Cache α) Cache.empty := ⟨.nil, rfl⟩

theorem size (same : Alike alike left right) : left.store.size = right.store.size :=
  same.entries.length_eq

theorem keys (same : Alike alike left right) : left.store.keys = right.store.keys := by
  have pairs := same.entries
  unfold OrderedMap.keys
  generalize left.store.entries = entries, right.store.entries = entries' at pairs ⊢
  induction pairs with
  | nil => rfl
  | cons first _ ih => rw [List.map_cons, List.map_cons, first.1, ih]

theorem get? (same : Alike alike left right) (key : String) :
    Option.Rel (Entry.Alike (alike key)) (left.store.get? key) (right.store.get? key) := by
  unfold OrderedMap.get?
  have found := @find?_related _ _ _ _ _ (fun entry => decide (entry.1 = key))
    (fun entry => decide (entry.1 = key)) (fun a b related => by rw [related.1]) same.entries
  have isKey : ∀ entry,
      left.store.entries.find? (fun entry => decide (entry.1 = key)) = some entry →
      entry.1 = key := fun entry inLeft => by simpa using List.find?_some inLeft
  generalize left.store.entries.find? (fun entry => decide (entry.1 = key)) = first,
    right.store.entries.find? (fun entry => decide (entry.1 = key)) = second at found isKey ⊢
  cases found with
  | none => exact .none
  | some related => exact .some (isKey _ rfl ▸ related.2)

theorem discard (same : Alike alike left right) (key : String) :
    Alike alike (left.discard key) (right.discard key) := by
  refine ⟨?_, ?_⟩
  · rw [entries_discard, entries_discard]
    exact List.rel_filter (fun a b related => by dsimp only; rw [related.1]) same.entries
  · have kept : ∀ cache : Cache α, (cache.discard key).holds = cache.holds := by
      intro cache
      unfold Cache.discard
      cases cache.store.get? key <;> rfl
    rw [kept, kept, same.holds]

theorem oldest (same : Alike alike left right) {want : Entry α → Bool}
    (reads : ∀ a b : Entry α, a.pinned = b.pinned → want a = want b) :
    left.oldest want = right.oldest want := by
  unfold Cache.oldest
  have found := @find?_related _ _ _ _ _ (fun entry => want entry.2) (fun entry => want entry.2)
    (fun a b related => reads a.2 b.2 related.2.pinned) same.entries
  generalize left.store.entries.find? (fun entry => want entry.2) = first,
    right.store.entries.find? (fun entry => want entry.2) = second at found ⊢
  cases found with
  | none => rfl
  | some related => exact congrArg some related.1

theorem evictOldest (passes : Nat) (same : Alike alike left right)
    (room : left.heldBytes ≤ MAX_BYTES) (room' : right.heldBytes ≤ MAX_BYTES) :
    Alike alike (evictOldest passes left) (evictOldest passes right) := by
  induction passes generalizing left right with
  | zero => exact same
  | succ passes ih =>
      have victims : (left.oldest fun entry => !entry.pinned).or (left.oldest fun _ => true) =
          (right.oldest fun entry => !entry.pinned).or (right.oldest fun _ => true) := by
        rw [same.oldest fun a b pinned => by rw [pinned], same.oldest fun _ _ _ => rfl]
      have finished : (left.store.size > MAX_ENTRIES ∨ left.heldBytes > MAX_BYTES) ↔
          (right.store.size > MAX_ENTRIES ∨ right.heldBytes > MAX_BYTES) := by
        rw [same.size]
        exact or_congr Iff.rfl ⟨fun past => absurd past (Int.not_lt.mpr room),
          fun past => absurd past (Int.not_lt.mpr room')⟩
      unfold Cache.evictOldest
      rw [← victims, if_congr finished rfl rfl]
      generalize (left.oldest fun entry => !entry.pinned).or (left.oldest fun _ => true) = victim
      split
      · cases victim with
        | none => exact same
        | some key =>
            exact ih (same.discard key) (Int.le_trans (discard_le left key).1 room)
              (Int.le_trans (discard_le right key).1 room')
      · exact same

theorem inserted (same : Alike alike left right) (key : String) {entry entry' : Entry α}
    (entries : entry.Alike (alike key) entry') :
    Alike alike (left.inserted key entry) (right.inserted key entry') := by
  have kept := same.discard key
  refine ⟨?_, kept.holds⟩
  rw [entries_inserted, entries_inserted]
  exact List.rel_append kept.entries (.cons ⟨rfl, entries⟩ .nil)

theorem remember (same : Alike alike left right) (key : String) {entry entry' : Entry α}
    (entries : entry.Alike (alike key) entry') (room : left.hasRoom key entry = true)
    (room' : right.hasRoom key entry' = true) :
    Alike alike (left.remember key entry) (right.remember key entry') := by
  have bytes := of_decide_eq_true room
  have bytes' := of_decide_eq_true room'
  have joined := same.inserted key entries
  rw [remember_eq, remember_eq]
  unfold Cache.evict
  dsimp only
  rw [evictPinned_under _ bytes.2, evictPinned_under _ bytes'.2, joined.size]
  exact joined.evictOldest _ bytes.1 bytes'.1

theorem dropEnded (same : Alike alike left right) (now : ℤ) :
    Alike alike (left.dropEnded now) (right.dropEnded now) :=
  ⟨same.entries, by rw [Cache.dropEnded, Cache.dropEnded, same.holds]⟩

theorem isHeld (same : Alike alike left right) (key : String) (now : ℤ) :
    left.isHeld key now = right.isHeld key now := by
  rw [Cache.isHeld, Cache.isHeld, (same.dropEnded now).holds]

theorem lookup (same : Alike alike left right) (key : String) (ttlMs : ℤ) (options : CacheOptions)
    (held : Bool) (now : ℤ) :
    FoundAlike (alike key) (left.lookup key ttlMs options held now)
      (right.lookup key ttlMs options held now) := by
  have found := same.get? key
  unfold Cache.lookup
  generalize left.store.get? key = first, right.store.get? key = second at found ⊢
  cases found with
  | none => exact .missing
  | some entries =>
      dsimp only
      rw [entries.t]
      split
      · exact .fresh entries
      · split
        · exact .stale entries
        · exact .missing

theorem foldl_discard (same : Alike alike left right) (keys : List String) :
    Alike alike (keys.foldl Cache.discard left) (keys.foldl Cache.discard right) := by
  induction keys generalizing left right with
  | nil => exact same
  | cons key rest ih => exact ih (same.discard key)

theorem invalidate (same : Alike alike left right) (start : String) (holdMs : Option ℤ) (now : ℤ) :
    Alike alike (left.invalidate start holdMs now) (right.invalidate start holdMs now) := by
  have dropped := same.foldl_discard (left.store.keys.filter fun key => startsWith key start)
  have holds := dropped.holds
  unfold Cache.invalidate
  dsimp only
  rw [← same.keys]
  by_cases everything : start = ""
  · rw [if_pos everything, if_pos everything]
    cases holdMs with
    | none => exact ⟨dropped.entries, rfl⟩
    | some holdMs =>
        dsimp only
        split
        · exact ⟨dropped.entries, rfl⟩
        · exact ⟨dropped.entries, rfl⟩
  · rw [if_neg everything, if_neg everything]
    cases holdMs with
    | none => exact ⟨dropped.entries, holds⟩
    | some holdMs =>
        dsimp only
        split
        · exact ⟨dropped.entries, by dsimp only; rw [holds]⟩
        · exact ⟨dropped.entries, holds⟩

end Alike

/-- An entry that is in the store already takes no more room. -/
theorem hasRoom_of_stored {cache : Cache α} {key : String} {entry : Entry α} {refreshing : Bool}
    (within : WithinCaps cache) (stored : cache.store.get? key = some entry) :
    cache.hasRoom key { entry with refreshing } = true := by
  have counters := discard_of_get? stored
  refine decide_eq_true ⟨?_, ?_⟩
  · have same : (cache.inserted key { entry with refreshing }).heldBytes = cache.heldBytes := by
      unfold Cache.inserted
      dsimp only
      rw [counters.1, Int.sub_add_cancel]
    exact same ▸ within.bytes
  · have same : (cache.inserted key { entry with refreshing }).pinnedBytes = cache.pinnedBytes := by
      unfold Cache.inserted
      dsimp only
      rw [counters.2]
      cases entry.pinned with
      | true => exact Int.sub_add_cancel _ _
      | false => rfl
    exact same ▸ within.pinned

end Cache

end ZabbixPortal.Core
