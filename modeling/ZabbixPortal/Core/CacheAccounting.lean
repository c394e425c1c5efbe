import Mathlib.Algebra.BigOperators.Group.List.Basic
import Mathlib.Algebra.GroupWithZero.Nat
import ZabbixPortal.Core.CacheProperties
import ZabbixPortal.Foundation.Runs

/-! What the two counters of the cache count, what its caps bound, and which entries
eviction takes. -/

set_option autoImplicit false

namespace ZabbixPortal.Core.Cache

open Foundation

variable {α : Type} {cache : Cache α} {key : String} {entry : Entry α}

def bytesOf (entries : List (String × Entry α)) : Nat :=
  (entries.map fun entry => entry.2.bytes).sum

def pinnedBytesOf (entries : List (String × Entry α)) : Nat :=
  bytesOf (entries.filter fun entry => entry.2.pinned)

structure Accounts (cache : Cache α) : Prop where
  held : cache.heldBytes = bytesOf cache.store.entries
  pinned : cache.pinnedBytes = pinnedBytesOf cache.store.entries

structure WithinCaps (cache : Cache α) : Prop where
  entries : cache.store.size ≤ MAX_ENTRIES
  bytes : cache.heldBytes ≤ MAX_BYTES
  pinned : cache.pinnedBytes ≤ MAX_PINNED_BYTES

section Bytes

variable {left right : List (String × Entry α)}

@[simp] theorem bytesOf_append : bytesOf (left ++ right) = bytesOf left + bytesOf right := by
  rw [bytesOf, List.map_append, List.sum_append]
  rfl

@[simp] theorem bytesOf_cons (first : String × Entry α) :
    bytesOf (first :: right) = first.2.bytes + bytesOf right := by
  rw [bytesOf, List.map_cons, List.sum_cons]
  rfl

@[simp] theorem bytesOf_nil : bytesOf ([] : List (String × Entry α)) = 0 := rfl

theorem bytesOf_perm (same : left.Perm right) : bytesOf left = bytesOf right :=
  (same.map _).sum_eq

theorem bytesOf_sublist (part : left.Sublist right) : bytesOf left ≤ bytesOf right := by
  induction part with
  | slnil => exact Nat.le_refl _
  | cons first _ ih =>
      rw [bytesOf_cons]
      omega
  | cons_cons first _ ih =>
      rw [bytesOf_cons, bytesOf_cons]
      omega

theorem pinnedBytesOf_perm (same : left.Perm right) : pinnedBytesOf left = pinnedBytesOf right :=
  bytesOf_perm (same.filter _)

@[simp] theorem pinnedBytesOf_append :
    pinnedBytesOf (left ++ right) = pinnedBytesOf left + pinnedBytesOf right := by
  rw [pinnedBytesOf, List.filter_append, bytesOf_append]
  rfl

theorem pinnedBytesOf_cons (first : String × Entry α) :
    pinnedBytesOf (first :: right) =
      (if first.2.pinned then first.2.bytes else 0) + pinnedBytesOf right := by
  unfold pinnedBytesOf
  rw [List.filter_cons]
  split
  · exact bytesOf_cons first
  · exact (Nat.zero_add _).symm

end Bytes

section Discard

theorem entries_discard (cache : Cache α) (key : String) :
    (cache.discard key).store.entries = cache.store.entries.filter fun entry => entry.1 ≠ key := by
  unfold discard
  cases found : cache.store.get? key with
  | none =>
      refine (List.filter_eq_self.mpr fun entry member => decide_eq_true ?_).symm
      rintro rfl
      have inStore := (OrderedMap.get?_eq_some_iff _ _ _).mpr member
      exact nomatch found.symm.trans inStore
  | some entry => rfl

/-- The stored entry of a key and the others. -/
theorem perm_discard (found : cache.store.get? key = some entry) :
    cache.store.entries.Perm ((key, entry) :: (cache.discard key).store.entries) := by
  rw [entries_discard]
  have member := (OrderedMap.get?_eq_some_iff _ _ _).mp found
  obtain ⟨early, late, split⟩ := List.append_of_mem member
  have distinct := cache.store.distinct
  rw [split, List.map_append, List.map_cons, List.nodup_append] at distinct
  obtain ⟨_, lateDistinct, apart⟩ := distinct
  have others : ∀ other ∈ early ++ late, other.1 ≠ key := by
    intro other inOthers same
    cases List.mem_append.mp inOthers with
    | inl inEarly =>
        exact apart other.1 (List.mem_map_of_mem inEarly) key List.mem_cons_self same
    | inr inLate =>
        have isKey : other.1 ∈ late.map Prod.fst := List.mem_map_of_mem inLate
        exact (List.nodup_cons.mp lateDistinct).1 (same ▸ isKey)
  have kept : (cache.store.entries.filter fun entry => entry.1 ≠ key) = early ++ late := by
    rw [split, List.filter_append, List.filter_cons_of_neg (by simp), ← List.filter_append]
    exact List.filter_eq_self.mpr fun other inOthers => decide_eq_true (others other inOthers)
  rw [kept, split]
  exact List.perm_middle

theorem discard_of_get? (found : cache.store.get? key = some entry) :
    (cache.discard key).heldBytes = cache.heldBytes - entry.bytes ∧
      (cache.discard key).pinnedBytes =
        if entry.pinned then cache.pinnedBytes - entry.bytes else cache.pinnedBytes := by
  unfold discard
  rw [found]
  exact ⟨rfl, rfl⟩

theorem discard_of_none (absent : cache.store.get? key = none) : cache.discard key = cache := by
  unfold discard
  rw [absent]

theorem Accounts.discard (accounts : Accounts cache) (key : String) :
    Accounts (cache.discard key) := by
  cases found : cache.store.get? key with
  | none => exact (discard_of_none found).symm ▸ accounts
  | some entry =>
      have counters := discard_of_get? found
      have split := perm_discard found
      have held := accounts.held
      have pinned := accounts.pinned
      rw [bytesOf_perm split, bytesOf_cons] at held
      rw [pinnedBytesOf_perm split, pinnedBytesOf_cons] at pinned
      dsimp only at held pinned
      refine ⟨?_, ?_⟩
      · rw [counters.1, held]
        omega
      · rw [counters.2]
        cases isPinned : entry.pinned with
        | true =>
            simp only [isPinned, if_true] at pinned ⊢
            omega
        | false =>
            simp only [isPinned, if_neg (show ¬false = true by decide)] at pinned ⊢
            omega

theorem size_discard (cache : Cache α) (key : String) :
    (cache.discard key).store.size ≤ cache.store.size := by
  rw [OrderedMap.size, entries_discard]
  exact List.length_filter_le _ _

theorem size_discard_of_get? (found : cache.store.get? key = some entry) :
    (cache.discard key).store.size + 1 = cache.store.size := by
  rw [OrderedMap.size, OrderedMap.size, (perm_discard found).length_eq, List.length_cons]

theorem discard_le (cache : Cache α) (key : String) :
    (cache.discard key).heldBytes ≤ cache.heldBytes ∧
      (cache.discard key).pinnedBytes ≤ cache.pinnedBytes := by
  cases found : cache.store.get? key with
  | none =>
      rw [discard_of_none found]
      exact ⟨Int.le_refl _, Int.le_refl _⟩
  | some entry =>
      have counters := discard_of_get? found
      rw [counters.1, counters.2]
      refine ⟨by omega, ?_⟩
      split <;> omega

theorem WithinCaps.discard (within : WithinCaps cache) (key : String) :
    WithinCaps (cache.discard key) :=
  ⟨Nat.le_trans (size_discard cache key) within.entries,
    Int.le_trans (discard_le cache key).1 within.bytes,
    Int.le_trans (discard_le cache key).2 within.pinned⟩

end Discard

section Invalidate

/-- Invalidating drops entries and does nothing else to the store and its counters. -/
theorem invalidate_store (cache : Cache α) (start : String) (holdMs : Option ℤ) (now : ℤ) :
    ∃ keys : List String,
      (cache.invalidate start holdMs now).store = (keys.foldl discard cache).store ∧
      (cache.invalidate start holdMs now).heldBytes = (keys.foldl discard cache).heldBytes ∧
      (cache.invalidate start holdMs now).pinnedBytes = (keys.foldl discard cache).pinnedBytes := by
  refine ⟨cache.store.keys.filter fun key => startsWith key start, ?_⟩
  unfold invalidate
  cases holdMs with
  | none => dsimp only; split <;> exact ⟨rfl, rfl, rfl⟩
  | some holdMs => dsimp only; split <;> split <;> exact ⟨rfl, rfl, rfl⟩

theorem Accounts.invalidate (accounts : Accounts cache) (start : String) (holdMs : Option ℤ)
    (now : ℤ) : Accounts (cache.invalidate start holdMs now) := by
  obtain ⟨keys, store, held, pinned⟩ := invalidate_store cache start holdMs now
  have dropped : Accounts (keys.foldl Cache.discard cache) :=
    List.foldlRecOn _ _ accounts fun _ kept key _ => kept.discard key
  exact ⟨by rw [held, store, dropped.held], by rw [pinned, store, dropped.pinned]⟩

theorem WithinCaps.invalidate (within : WithinCaps cache) (start : String) (holdMs : Option ℤ)
    (now : ℤ) : WithinCaps (cache.invalidate start holdMs now) := by
  obtain ⟨keys, store, held, pinned⟩ := invalidate_store cache start holdMs now
  have dropped : WithinCaps (keys.foldl Cache.discard cache) :=
    List.foldlRecOn _ _ within fun _ kept key _ => kept.discard key
  exact ⟨store ▸ dropped.entries, held ▸ dropped.bytes, pinned ▸ dropped.pinned⟩

end Invalidate

section Insert

/-- A cache right after an entry went in, before anything is evicted for it. -/
def inserted (cache : Cache α) (key : String) (entry : Entry α) : Cache α :=
  let cache := cache.discard key
  { cache with
    store := cache.store.set key entry
    heldBytes := cache.heldBytes + entry.bytes
    pinnedBytes := if entry.pinned then cache.pinnedBytes + entry.bytes else cache.pinnedBytes }

theorem remember_eq (cache : Cache α) (key : String) (entry : Entry α) :
    cache.remember key entry = (cache.inserted key entry).evict := rfl

theorem entries_inserted (cache : Cache α) (key : String) (entry : Entry α) :
    (cache.inserted key entry).store.entries =
      (cache.discard key).store.entries ++ [(key, entry)] := by
  refine OrderedMap.entries_set_of_absent _ _ ?_
  rw [← OrderedMap.get?_eq_none_iff, discard_get?, if_pos rfl]

theorem Accounts.inserted (accounts : Accounts cache) (key : String) (entry : Entry α) :
    Accounts (cache.inserted key entry) := by
  have kept := accounts.discard key
  refine ⟨?_, ?_⟩
  · rw [entries_inserted, bytesOf_append, Cache.inserted]
    dsimp only
    rw [kept.held, bytesOf_cons, bytesOf_nil, Nat.add_zero, Int.natCast_add]
  · rw [entries_inserted, pinnedBytesOf_append, pinnedBytesOf_cons, Cache.inserted]
    dsimp only
    rw [kept.pinned]
    split
    · simp [pinnedBytesOf]
    · simp [pinnedBytesOf]

end Insert

section Oldest

theorem oldest_some {want : Entry α → Bool} (found : cache.oldest want = some key) :
    ∃ entry, cache.store.get? key = some entry ∧ want entry = true := by
  unfold oldest at found
  obtain ⟨⟨other, entry⟩, first, rfl⟩ := Option.map_eq_some_iff.mp found
  exact ⟨entry, (OrderedMap.get?_eq_some_iff _ _ _).mpr (List.mem_of_find?_eq_some first),
    by simpa using List.find?_some first⟩

theorem oldest_none {want : Entry α → Bool} (absent : cache.oldest want = none) :
    ∀ entry ∈ cache.store.entries, want entry.2 = false := by
  unfold oldest at absent
  intro entry member
  simpa using List.find?_eq_none.mp (Option.map_eq_none_iff.mp absent) entry member

/-- The last entry is the oldest only of those the others are not among. -/
theorem oldest_last {want : Entry α → Bool} {others : List (String × Entry α)}
    (entries : cache.store.entries = others ++ [(key, entry)])
    (found : cache.oldest want = some key) : ∀ other ∈ others, want other.2 = false := by
  unfold oldest at found
  rw [entries, List.find?_append] at found
  cases early : others.find? fun entry => want entry.2 with
  | none =>
      intro other member
      simpa using List.find?_eq_none.mp early other member
  | some first =>
      rw [early, Option.some_or] at found
      have isKey : first.1 = key := Option.some.inj found
      have distinct := cache.store.distinct
      rw [entries, List.map_append, List.nodup_append] at distinct
      exact absurd isKey (distinct.2.2 _ (List.mem_map_of_mem (List.mem_of_find?_eq_some early)) _
        List.mem_cons_self)

def victim (cache : Cache α) : Option String :=
  (cache.oldest fun entry => !entry.pinned).or (cache.oldest fun _ => true)

theorem victim_some (found : cache.victim = some key) :
    (cache.oldest fun entry => !entry.pinned) = some key ∨
      (∀ entry ∈ cache.store.entries, entry.2.pinned = true) ∧
        (cache.oldest fun _ => true) = some key := by
  unfold victim at found
  cases unpinned : cache.oldest fun entry => !entry.pinned with
  | some first =>
      rw [unpinned, Option.some_or] at found
      exact .inl found
  | none =>
      rw [unpinned, Option.none_or] at found
      refine .inr ⟨fun entry member => ?_, found⟩
      simpa using oldest_none unpinned entry member

theorem victim_none (absent : cache.victim = none) : cache.store.entries = [] := by
  unfold victim at absent
  rw [Option.or_eq_none_iff] at absent
  refine List.eq_nil_iff_forall_not_mem.mpr fun entry member => ?_
  cases oldest_none absent.2 entry member

end Oldest

section Evict

def EvictsPinned (cache : Cache α) (key : String) (next : Cache α) : Prop :=
  cache.pinnedBytes > MAX_PINNED_BYTES ∧ (cache.oldest fun entry => entry.pinned) = some key ∧
    next = cache.discard key

def EvictsOldest (cache : Cache α) (key : String) (next : Cache α) : Prop :=
  (cache.store.size > MAX_ENTRIES ∨ cache.heldBytes > MAX_BYTES) ∧ cache.victim = some key ∧
    next = cache.discard key

theorem evictPinned_run (passes : Nat) (cache : Cache α) :
    ∃ victims, Run EvictsPinned cache victims (evictPinned passes cache) := by
  induction passes generalizing cache with
  | zero => exact ⟨[], .nil cache⟩
  | succ passes ih =>
      unfold evictPinned
      split
      · next finished =>
          split
          · exact ⟨[], .nil cache⟩
          · next key found =>
              obtain ⟨victims, run⟩ := ih (cache.discard key)
              exact ⟨key :: victims, run.cons ⟨finished, found, rfl⟩⟩
      · exact ⟨[], .nil cache⟩

theorem evictOldest_run (passes : Nat) (cache : Cache α) :
    ∃ victims, Run EvictsOldest cache victims (evictOldest passes cache) := by
  induction passes generalizing cache with
  | zero => exact ⟨[], .nil cache⟩
  | succ passes ih =>
      unfold evictOldest
      split
      · next finished =>
          split
          · exact ⟨[], .nil cache⟩
          · next key found =>
              obtain ⟨victims, run⟩ := ih (cache.discard key)
              exact ⟨key :: victims, run.cons ⟨finished, found, rfl⟩⟩
      · exact ⟨[], .nil cache⟩

/-- A property of caches that dropping an entry keeps is kept by eviction. -/
theorem evict_keeps (holds : Cache α → Prop)
    (dropping : ∀ cache key, holds cache → holds (cache.discard key)) (before : holds cache) :
    holds cache.evict := by
  obtain ⟨early, pinned⟩ := evictPinned_run cache.store.size cache
  obtain ⟨late, oldest⟩ := evictOldest_run (evictPinned cache.store.size cache).store.size
    (evictPinned cache.store.size cache)
  refine oldest.invariant holds (fun state key _ kept ⟨_, _, same⟩ =>
    same ▸ dropping state key kept) ?_
  exact pinned.invariant holds (fun state key _ kept ⟨_, _, same⟩ =>
    same ▸ dropping state key kept) before

theorem Accounts.evict (accounts : Accounts cache) : Accounts cache.evict :=
  evict_keeps Accounts (fun _ key kept => kept.discard key) accounts

theorem pinnedBytes_le_of_none (accounts : Accounts cache)
    (never : ∀ entry ∈ cache.store.entries, entry.2.pinned = false) :
    cache.pinnedBytes ≤ MAX_PINNED_BYTES := by
  have nothing : (cache.store.entries.filter fun entry => entry.2.pinned) = [] :=
    List.filter_eq_nil_iff.mpr fun entry member => by simp [never entry member]
  rw [accounts.pinned, pinnedBytesOf, nothing, bytesOf_nil]
  decide

theorem under_of_empty (accounts : Accounts cache) (nothing : cache.store.entries = []) :
    cache.store.size ≤ MAX_ENTRIES ∧ cache.heldBytes ≤ MAX_BYTES := by
  rw [OrderedMap.size, accounts.held, nothing, bytesOf_nil, List.length_nil]
  decide

/-- As many passes as there are entries bring the pinned bytes under their cap. -/
theorem evictPinned_enough (passes : Nat) (accounts : Accounts cache)
    (enough : cache.store.size ≤ passes) :
    (evictPinned passes cache).pinnedBytes ≤ MAX_PINNED_BYTES := by
  induction passes generalizing cache with
  | zero =>
      have nothing := List.length_eq_zero_iff.mp (Nat.le_zero.mp enough)
      exact pinnedBytes_le_of_none accounts fun entry member => nomatch nothing ▸ member
  | succ passes ih =>
      unfold evictPinned
      split
      · split
        · next absent => exact pinnedBytes_le_of_none accounts (oldest_none absent)
        · next key found =>
            obtain ⟨entry, inStore, _⟩ := oldest_some found
            have smaller := size_discard_of_get? inStore
            exact ih (accounts.discard key) (by omega)
      · next under => exact Int.not_lt.mp under

theorem evictOldest_enough (passes : Nat) (accounts : Accounts cache)
    (enough : cache.store.size ≤ passes) :
    (evictOldest passes cache).store.size ≤ MAX_ENTRIES ∧
      (evictOldest passes cache).heldBytes ≤ MAX_BYTES := by
  induction passes generalizing cache with
  | zero => exact under_of_empty accounts (List.length_eq_zero_iff.mp (Nat.le_zero.mp enough))
  | succ passes ih =>
      unfold evictOldest
      split
      · split
        · next absent => exact under_of_empty accounts (victim_none absent)
        · next key found =>
            have inStore : ∃ entry, cache.store.get? key = some entry := by
              rcases victim_some found with unpinned | ⟨_, oldest⟩
              · exact (oldest_some unpinned).imp fun _ facts => facts.1
              · exact (oldest_some oldest).imp fun _ facts => facts.1
            obtain ⟨entry, inStore⟩ := inStore
            have smaller := size_discard_of_get? inStore
            exact ih (accounts.discard key) (by omega)
      · next under =>
          rw [not_or] at under
          exact ⟨Nat.not_lt.mp under.1, Int.not_lt.mp under.2⟩

theorem WithinCaps.evict (accounts : Accounts cache) : WithinCaps cache.evict := by
  have early : Accounts (evictPinned cache.store.size cache) := by
    obtain ⟨victims, run⟩ := evictPinned_run cache.store.size cache
    exact run.invariant Accounts (fun _ key _ kept ⟨_, _, same⟩ => same ▸ kept.discard key) accounts
  have under := evictPinned_enough cache.store.size accounts (Nat.le_refl _)
  have late := evictOldest_enough _ early (Nat.le_refl _)
  refine ⟨late.1, late.2, ?_⟩
  obtain ⟨victims, run⟩ := evictOldest_run (evictPinned cache.store.size cache).store.size
    (evictPinned cache.store.size cache)
  exact run.invariant (fun state => state.pinnedBytes ≤ MAX_PINNED_BYTES)
    (fun state key _ kept ⟨_, _, same⟩ => same ▸ Int.le_trans (discard_le state key).2 kept) under

theorem Accounts.remember (accounts : Accounts cache) (key : String) (entry : Entry α) :
    Accounts (cache.remember key entry) := (accounts.inserted key entry).evict

theorem WithinCaps.remember (accounts : Accounts cache) (key : String) (entry : Entry α) :
    WithinCaps (cache.remember key entry) := WithinCaps.evict (accounts.inserted key entry)

/-- An entry dropped because a cap that counts it has no room for it. -/
def EvictsForRoom (cache : Cache α) (key : String) (next : Cache α) : Prop :=
  ∃ entry, cache.store.get? key = some entry ∧ next = cache.discard key ∧
    (entry.pinned = true ∧ cache.pinnedBytes > MAX_PINNED_BYTES ∨
      cache.store.size > MAX_ENTRIES ∨ cache.heldBytes > MAX_BYTES)

/-- A pinned entry dropped only when no unpinned one is left. -/
def EvictsUnpinnedFirst (cache : Cache α) (key : String) (next : Cache α) : Prop :=
  next = cache.discard key ∧ ∀ entry, cache.store.get? key = some entry → entry.pinned = true →
    ∀ other kept, cache.store.get? other = some kept → kept.pinned = true

theorem evict_for_room (cache : Cache α) : ∃ victims, Run EvictsForRoom cache victims cache.evict := by
  obtain ⟨early, pinned⟩ := evictPinned_run cache.store.size cache
  obtain ⟨late, oldest⟩ := evictOldest_run (evictPinned cache.store.size cache).store.size
    (evictPinned cache.store.size cache)
  refine ⟨early ++ late, (pinned.weaken ?_).append (oldest.weaken ?_)⟩
  · rintro state key next ⟨finished, found, same⟩
    obtain ⟨entry, inStore, isPinned⟩ := oldest_some found
    exact ⟨entry, inStore, same, .inl ⟨isPinned, finished⟩⟩
  · rintro state key next ⟨finished, found, same⟩
    rcases victim_some found with unpinned | ⟨_, oldest⟩
    · obtain ⟨entry, inStore, _⟩ := oldest_some unpinned
      exact ⟨entry, inStore, same, .inr finished⟩
    · obtain ⟨entry, inStore, _⟩ := oldest_some oldest
      exact ⟨entry, inStore, same, .inr finished⟩

theorem evictPinned_under (passes : Nat) (under : cache.pinnedBytes ≤ MAX_PINNED_BYTES) :
    evictPinned passes cache = cache := by
  cases passes with
  | zero => rfl
  | succ passes => exact if_neg (Int.not_lt.mpr under)

/-- Below the pinned cap only the second loop runs. -/
theorem evict_unpinned_first (under : cache.pinnedBytes ≤ MAX_PINNED_BYTES) :
    ∃ victims, Run EvictsUnpinnedFirst cache victims cache.evict := by
  unfold evict
  dsimp only
  rw [evictPinned_under _ under]
  obtain ⟨victims, run⟩ := evictOldest_run cache.store.size cache
  refine ⟨victims, run.weaken ?_⟩
  rintro state key next ⟨_, found, same⟩
  refine ⟨same, fun entry inStore pinned other kept inOther => ?_⟩
  rcases victim_some found with unpinned | ⟨all, _⟩
  · obtain ⟨victim, inStoreToo, free⟩ := oldest_some unpinned
    cases inStore.symm.trans inStoreToo
    rw [pinned] at free
    cases free
  · exact all _ ((OrderedMap.get?_eq_some_iff _ _ _).mp inOther)

end Evict

end ZabbixPortal.Core.Cache
