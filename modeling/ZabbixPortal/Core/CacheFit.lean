import ZabbixPortal.Core.CacheAccounting

/-! Which values survive being stored: those that fit beside what is evicted after them. -/

set_option autoImplicit false

namespace ZabbixPortal.Core.Cache

open Foundation

variable {α : Type} {cache : Cache α} {key : String} {entry : Entry α}
  {others : List (String × Entry α)}

structure EndsWith (cache : Cache α) (others : List (String × Entry α)) (key : String)
    (entry : Entry α) : Prop where
  accounts : Accounts cache
  entries : cache.store.entries = others ++ [(key, entry)]

def pinnedCount (entries : List (String × Entry α)) : Nat :=
  (entries.filter fun entry => entry.2.pinned).length

/-- There is room for a value under every cap that counts it, beside the entries that are
evicted after it: none for a pinned one, the pinned ones of other keys for an unpinned one. -/
def Fits (cache : Cache α) (key : String) (bytes : Nat) (pin : Bool) : Prop :=
  if pin then bytes ≤ MAX_PINNED_BYTES
  else (cache.discard key).pinnedBytes + bytes ≤ MAX_BYTES ∧
    pinnedCount (cache.discard key).store.entries < MAX_ENTRIES

theorem EndsWith.get? (ends : EndsWith cache others key entry) :
    cache.store.get? key = some entry :=
  (OrderedMap.get?_eq_some_iff _ _ _).mpr (ends.entries ▸ List.mem_append_right _ List.mem_cons_self)

theorem EndsWith.discard (ends : EndsWith cache others key entry) {victim : String}
    (different : victim ≠ key) :
    EndsWith (cache.discard victim) (others.filter fun other => other.1 ≠ victim) key entry := by
  refine ⟨ends.accounts.discard victim, ?_⟩
  rw [entries_discard, ends.entries, List.filter_append]
  exact congrArg _ (List.filter_cons_of_pos (decide_eq_true different.symm))

theorem bytes_of_unpinned_none (all : ∀ other ∈ others, other.2.pinned = true) :
    pinnedBytesOf others = bytesOf others ∧ pinnedCount others = others.length := by
  unfold pinnedBytesOf pinnedCount
  rw [List.filter_eq_self.mpr all]
  exact ⟨rfl, rfl⟩

section Pinned

/-- A pinned entry that fits under the pinned cap alone outlasts the first loop. -/
theorem evictsPinned_spares (small : entry.bytes ≤ MAX_PINNED_BYTES)
    {next : Cache α} {victim : String} (ends : EndsWith cache others key entry)
    (step : EvictsPinned cache victim next) : ∃ left, EndsWith next left key entry := by
  obtain ⟨finished, found, rfl⟩ := step
  refine ⟨_, ends.discard ?_⟩
  rintro rfl
  have never := oldest_last ends.entries found
  have nothing : (others.filter fun other => other.2.pinned) = [] :=
    List.filter_eq_nil_iff.mpr fun other member => by simp [never other member]
  have pinned := ends.accounts.pinned
  rw [ends.entries, pinnedBytesOf_append, pinnedBytesOf_cons, pinnedBytesOf, nothing] at pinned
  simp only [bytesOf_nil, pinnedBytesOf, List.filter_nil] at pinned
  split at pinned <;> omega

/-- A pinned entry that fits under the byte cap alone outlasts the second loop. -/
theorem evictsOldest_spares_pinned (isPinned : entry.pinned = true)
    (small : entry.bytes ≤ MAX_BYTES) {next : Cache α} {victim : String}
    (ends : EndsWith cache others key entry) (step : EvictsOldest cache victim next) :
    ∃ left, EndsWith next left key entry := by
  obtain ⟨finished, found, rfl⟩ := step
  refine ⟨_, ends.discard ?_⟩
  rintro rfl
  have alone : others = [] := by
    rcases victim_some found with unpinned | ⟨_, oldest⟩
    · obtain ⟨stored, inStore, free⟩ := oldest_some unpinned
      cases ends.get?.symm.trans inStore
      rw [isPinned] at free
      cases free
    · refine List.eq_nil_iff_forall_not_mem.mpr fun other member => ?_
      cases oldest_last ends.entries oldest other member
  have held := ends.accounts.held
  have size := congrArg List.length ends.entries
  rw [ends.entries, alone, List.nil_append, bytesOf_cons, bytesOf_nil, Nat.add_zero] at held
  rw [alone] at size
  have one : cache.store.size = 1 := size
  rcases finished with many | heavy
  · rw [one] at many
    exact absurd many (by decide)
  · dsimp only at held
    omega

end Pinned

section Unpinned

structure LeavesRoom (others : List (String × Entry α)) (bytes : Nat) : Prop where
  bytes : ((pinnedBytesOf others : ℤ) + bytes) ≤ MAX_BYTES
  count : pinnedCount others < MAX_ENTRIES

theorem LeavesRoom.filter {bytes : Nat} (room : LeavesRoom others bytes)
    (keep : String × Entry α → Bool) : LeavesRoom (others.filter keep) bytes := by
  have part : ((others.filter keep).filter fun other => other.2.pinned).Sublist
      (others.filter fun other => other.2.pinned) := List.filter_sublist.filter _
  have fewer := bytesOf_sublist part
  have before := room.bytes
  unfold pinnedBytesOf at before
  refine ⟨?_, Nat.lt_of_le_of_lt part.length_le room.count⟩
  unfold pinnedBytesOf
  omega

/-- An unpinned entry that the pinned ones leave room for outlasts the second loop. -/
theorem evictsOldest_spares_unpinned {next : Cache α} {victim : String}
    (ends : EndsWith cache others key entry) (room : LeavesRoom others entry.bytes) (step : EvictsOldest cache victim next) :
    ∃ left, EndsWith next left key entry ∧ LeavesRoom left entry.bytes := by
  obtain ⟨finished, found, rfl⟩ := step
  refine ⟨_, ends.discard ?_, room.filter _⟩
  rintro rfl
  have all : ∀ other ∈ others, other.2.pinned = true := by
    rcases victim_some found with oldest | ⟨all, _⟩
    · intro other member
      simpa using oldest_last ends.entries oldest other member
    · exact fun other member => all other (ends.entries ▸ List.mem_append_left _ member)
  have held := ends.accounts.held
  have size := congrArg List.length ends.entries
  have sums := bytes_of_unpinned_none all
  rw [ends.entries, bytesOf_append, bytesOf_cons, bytesOf_nil] at held
  rw [List.length_append, List.length_singleton] at size
  have count := room.count
  have bytes := room.bytes
  rw [sums.2] at count
  rw [sums.1] at bytes
  rcases finished with many | heavy
  · unfold OrderedMap.size at many
    omega
  · dsimp only at held
    omega

/-- While an unpinned entry is stored no pinned one is dropped. -/
theorem evictsOldest_keeps_pinned (unpinned : entry.pinned = false) {next : Cache α}
    {victim : String} (step : EvictsOldest cache victim next)
    (stays : next.store.get? key = some entry) :
    cache.store.get? key = some entry ∧
      (next.store.entries.filter fun other => other.2.pinned) =
        cache.store.entries.filter fun other => other.2.pinned := by
  obtain ⟨_, found, rfl⟩ := step
  rw [discard_get?] at stays
  split at stays
  · cases stays
  · refine ⟨stays, ?_⟩
    rw [entries_discard, List.filter_filter]
    refine List.filter_congr fun other member => ?_
    cases pinned : other.2.pinned with
    | false => rfl
    | true =>
        have different : other.1 ≠ victim := by
          rintro rfl
          have inStore := (OrderedMap.get?_eq_some_iff _ _ _).mpr member
          rcases victim_some found with oldest | ⟨all, _⟩
          · obtain ⟨stored, inStoreToo, free⟩ := oldest_some oldest
            cases inStore.symm.trans inStoreToo
            rw [pinned] at free
            cases free
          · have isPinned := all _ ((OrderedMap.get?_eq_some_iff _ _ _).mp stays)
            cases unpinned.symm.trans isPinned
        simpa using different

end Unpinned

section Kept

/-- A stored entry counts towards the caps. -/
theorem Accounts.bytes_le (accounts : Accounts cache) (found : cache.store.get? key = some entry) :
    (entry.pinned = true → (entry.bytes : ℤ) ≤ cache.pinnedBytes) ∧
      (entry.pinned = false → pinnedCount cache.store.entries < cache.store.size ∧
        pinnedBytesOf cache.store.entries + (entry.bytes : ℤ) ≤ cache.heldBytes) := by
  have split := perm_discard found
  have held := accounts.held
  have pinned := accounts.pinned
  rw [bytesOf_perm split, bytesOf_cons] at held
  rw [pinnedBytesOf_perm split, pinnedBytesOf_cons] at pinned
  dsimp only at held pinned
  refine ⟨fun isPinned => ?_, fun unpinned => ?_⟩
  · rw [isPinned, if_pos rfl] at pinned
    omega
  · have count : pinnedCount cache.store.entries =
        pinnedCount (cache.discard key).store.entries := by
      unfold pinnedCount
      rw [(split.filter _).length_eq, List.filter_cons_of_neg (by rw [unpinned]; decide)]
    have fewer : pinnedCount (cache.discard key).store.entries ≤
        (cache.discard key).store.entries.length := List.length_filter_le _ _
    have less : pinnedBytesOf (cache.discard key).store.entries ≤
        bytesOf (cache.discard key).store.entries := bytesOf_sublist List.filter_sublist
    have size := size_discard_of_get? found
    refine ⟨?_, ?_⟩
    · rw [count]
      unfold OrderedMap.size at size ⊢
      omega
    · rw [pinnedBytesOf_perm split, pinnedBytesOf_cons, unpinned, if_neg (by decide)]
      omega

theorem EndsWith.inserted (accounts : Accounts cache) (key : String) (entry : Entry α) :
    EndsWith (cache.inserted key entry) (cache.discard key).store.entries key entry :=
  ⟨accounts.inserted key entry, entries_inserted cache key entry⟩

theorem evict_unpinned (within : WithinCaps cache) (unpinned : entry.pinned = false) :
    (cache.inserted key entry).evict =
      evictOldest (cache.inserted key entry).store.size (cache.inserted key entry) := by
  have under : (cache.inserted key entry).pinnedBytes ≤ MAX_PINNED_BYTES := by
    unfold Cache.inserted
    dsimp only
    rw [if_neg (by rw [unpinned]; decide)]
    exact Int.le_trans (discard_le cache key).2 within.pinned
  unfold evict
  dsimp only
  rw [evictPinned_under _ under]

theorem remember_pinned_iff (accounts : Accounts cache) (isPinned : entry.pinned = true) :
    (cache.remember key entry).store.get? key = some entry ↔ entry.bytes ≤ MAX_PINNED_BYTES := by
  constructor
  · intro found
    have kept := accounts.remember key entry
    have within := (WithinCaps.remember accounts key entry).pinned
    exact Int.le_trans ((kept.bytes_le found).1 isPinned) within
  · intro small
    rw [remember_eq, evict]
    obtain ⟨early, pinned⟩ := evictPinned_run (cache.inserted key entry).store.size
      (cache.inserted key entry)
    have middle := pinned.invariant (fun state => ∃ left, EndsWith state left key entry)
      (fun _ _ _ ⟨_, ends⟩ step => evictsPinned_spares small ends step)
      ⟨_, EndsWith.inserted accounts key entry⟩
    generalize evictPinned (cache.inserted key entry).store.size (cache.inserted key entry) =
      between at middle
    obtain ⟨late, oldest⟩ := evictOldest_run between.store.size between
    have small : entry.bytes ≤ MAX_BYTES := Int.le_trans small (by decide)
    have last := oldest.invariant (fun state => ∃ left, EndsWith state left key entry)
      (fun _ _ _ ⟨_, ends⟩ step => evictsOldest_spares_pinned isPinned small ends step) middle
    obtain ⟨_, ends⟩ := last
    exact ends.get?

theorem remember_unpinned_iff (accounts : Accounts cache) (within : WithinCaps cache)
    (unpinned : entry.pinned = false) :
    (cache.remember key entry).store.get? key = some entry ↔
      (cache.discard key).pinnedBytes + entry.bytes ≤ MAX_BYTES ∧
        pinnedCount (cache.discard key).store.entries < MAX_ENTRIES := by
  have last := (accounts.discard key).pinned
  obtain ⟨victims, run⟩ := evictOldest_run (cache.inserted key entry).store.size
    (cache.inserted key entry)
  rw [← evict_unpinned within unpinned, ← remember_eq] at run
  constructor
  · intro found
    have kept := run.invariant (fun state => state.store.get? key = some entry →
        (state.store.entries.filter fun other => other.2.pinned) =
          (cache.inserted key entry).store.entries.filter fun other => other.2.pinned)
      (fun state victim next kept step stays => by
        have before := evictsOldest_keeps_pinned unpinned step stays
        exact before.2.trans (kept before.1)) (fun _ => rfl) found
    rw [entries_inserted, List.filter_append,
      List.filter_cons_of_neg (by rw [unpinned]; decide), List.filter_nil, List.append_nil] at kept
    have counts := ((accounts.remember key entry).bytes_le found).2 unpinned
    have caps := WithinCaps.remember accounts key entry
    have entriesCap := caps.entries
    have bytesCap := caps.bytes
    unfold pinnedCount pinnedBytesOf at counts
    rw [kept] at counts
    refine ⟨?_, ?_⟩
    · rw [last]
      unfold pinnedBytesOf
      omega
    · unfold pinnedCount
      omega
  · rintro ⟨bytes, count⟩
    have stays := run.invariant
      (fun state => ∃ left, EndsWith state left key entry ∧ LeavesRoom left entry.bytes)
      (fun _ _ _ ⟨_, ends, room⟩ step => evictsOldest_spares_unpinned ends room step)
      ⟨_, EndsWith.inserted accounts key entry, last ▸ bytes, count⟩
    obtain ⟨_, ends, _⟩ := stays
    exact ends.get?

/-- A value no larger than the whole budget is in the store right after it was kept, and
nothing was dropped that a cap had room for, exactly when it fits. -/
theorem keep_iff_fits (approxBytes : α → Nat) (accounts : Accounts cache)
    (within : WithinCaps cache) (key : String) (v : α) (pin : Bool) (now : ℤ)
    (small : approxBytes v ≤ MAX_BYTES) :
    let entry : Entry α :=
      { t := now, v, bytes := approxBytes v, pinned := pin, refreshing := false }
    let kept := cache.keep approxBytes key v pin now
    (kept.store.get? key = some entry ∧
      ∃ victims, Run EvictsForRoom (cache.inserted key entry) victims kept) ↔
      Fits cache key (approxBytes v) pin := by
  intro entry kept
  have remembered : kept = cache.remember key entry := if_neg (Int.not_lt.mpr small)
  have room : ∃ victims, Run EvictsForRoom (cache.inserted key entry) victims
      (cache.remember key entry) := evict_for_room _
  rw [remembered, and_iff_left room]
  cases pin with
  | true => exact remember_pinned_iff accounts rfl
  | false => exact remember_unpinned_iff accounts within rfl

end Kept

end ZabbixPortal.Core.Cache
