import ZabbixPortal.Core.Cache

/-! What the operations of the cache can add, keep and drop. -/

set_option autoImplicit false

namespace ZabbixPortal.Core.Cache

open Foundation

variable {α : Type} {cache : Cache α} {key other start : String} {entry stored : Entry α}

theorem discard_get? :
    (cache.discard key).store.get? other =
      if other = key then none else cache.store.get? other := by
  unfold discard
  cases found : cache.store.get? key with
  | none =>
      by_cases same : other = key
      · rw [if_pos same, same]
        exact found
      · rw [if_neg same]
  | some entry => exact OrderedMap.get?_delete _ _ _

structure Keeps (before after : Cache α) : Prop where
  stored : ∀ key entry, after.store.get? key = some entry → before.store.get? key = some entry
  inflight : after.inflight = before.inflight
  holds : after.holds = before.holds

theorem Keeps.refl (cache : Cache α) : Keeps cache cache := ⟨fun _ _ found => found, rfl, rfl⟩

theorem Keeps.trans {first second third : Cache α} (left : Keeps first second)
    (right : Keeps second third) : Keeps first third :=
  ⟨fun key entry found => left.stored key entry (right.stored key entry found),
    right.inflight.trans left.inflight, right.holds.trans left.holds⟩

theorem Keeps.discard (cache : Cache α) (key : String) : Keeps cache (cache.discard key) := by
  refine ⟨fun other entry found => ?_, ?_, ?_⟩
  · rw [discard_get?] at found
    split at found
    · cases found
    · exact found
  · unfold Cache.discard
    split <;> rfl
  · unfold Cache.discard
    split <;> rfl

theorem Keeps.evictPinned (passes : Nat) (cache : Cache α) :
    Keeps cache (evictPinned passes cache) := by
  induction passes generalizing cache with
  | zero => exact .refl cache
  | succ passes ih =>
      unfold Cache.evictPinned
      split
      · split
        · exact .refl cache
        · exact (Keeps.discard cache _).trans (ih _)
      · exact .refl cache

theorem Keeps.evictOldest (passes : Nat) (cache : Cache α) :
    Keeps cache (evictOldest passes cache) := by
  induction passes generalizing cache with
  | zero => exact .refl cache
  | succ passes ih =>
      unfold Cache.evictOldest
      split
      · split
        · exact .refl cache
        · exact (Keeps.discard cache _).trans (ih _)
      · exact .refl cache

theorem Keeps.evict (cache : Cache α) : Keeps cache cache.evict :=
  (Keeps.evictPinned _ cache).trans (Keeps.evictOldest _ _)

/-- Remembering adds one entry; eviction may drop it again, and others with it. -/
theorem remember_get? (found : (cache.remember key entry).store.get? other = some stored) :
    (other = key ∧ stored = entry) ∨ (other ≠ key ∧ cache.store.get? other = some stored) := by
  have before := (Keeps.evict _).stored other stored found
  dsimp only at before
  rw [OrderedMap.get?_set] at before
  split at before
  · next same => exact .inl ⟨same, (Option.some.inj before).symm⟩
  · next different =>
      rw [discard_get?, if_neg different] at before
      exact .inr ⟨different, before⟩

theorem remember_inflight : (cache.remember key entry).inflight = cache.inflight :=
  (Keeps.evict _).inflight.trans (Keeps.discard cache key).inflight

section Keep

variable {approxBytes : α → Nat} {v : α} {pin : Bool} {now : ℤ}

theorem keep_get? (found : (cache.keep approxBytes key v pin now).store.get? other = some stored) :
    (other = key ∧ stored.v = v) ∨ (other ≠ key ∧ cache.store.get? other = some stored) := by
  unfold keep at found
  dsimp only at found
  split at found
  · rw [discard_get?] at found
    split at found
    · cases found
    · next different => exact .inr ⟨different, found⟩
  · cases remember_get? found with
    | inl added => exact .inl ⟨added.1, congrArg Entry.v added.2⟩
    | inr kept => exact .inr kept

theorem keep_inflight : (cache.keep approxBytes key v pin now).inflight = cache.inflight := by
  unfold keep
  dsimp only
  split
  · exact (Keeps.discard cache key).inflight
  · exact remember_inflight

end Keep

section Invalidate

variable {holdMs : Option ℤ} {now : ℤ}

private theorem foldl_discard (keys : List String) (cache : Cache α) :
    Keeps cache (keys.foldl discard cache) ∧
      ∀ key ∈ keys, (keys.foldl discard cache).store.get? key = none := by
  induction keys generalizing cache with
  | nil => exact ⟨.refl cache, fun _ member => nomatch member⟩
  | cons key rest ih =>
      have dropped := ih (cache.discard key)
      refine ⟨(Keeps.discard cache key).trans dropped.1, fun other member => ?_⟩
      cases List.mem_cons.mp member with
      | inr later => exact dropped.2 other later
      | inl same =>
          cases found : (rest.foldl discard (cache.discard key)).store.get? other with
          | none => exact found
          | some entry =>
              have kept := dropped.1.stored other entry found
              rw [discard_get?, if_pos same] at kept
              cases kept

private theorem invalidate_maps :
    (cache.invalidate start holdMs now).store =
        ((cache.store.keys.filter fun key => startsWith key start).foldl discard cache).store ∧
      (cache.invalidate start holdMs now).inflight =
        ((cache.store.keys.filter fun key => startsWith key start).foldl discard
          cache).inflight.filter fun flight => !startsWith flight.1 start := by
  unfold invalidate
  cases holdMs with
  | none => dsimp only; split <;> exact ⟨rfl, rfl⟩
  | some holdMs => dsimp only; split <;> split <;> exact ⟨rfl, rfl⟩

/-- No entry under the prefix is left, and no other entry is changed. -/
theorem invalidate_get?
    (found : (cache.invalidate start holdMs now).store.get? key = some entry) :
    startsWith key start = false ∧ cache.store.get? key = some entry := by
  rw [invalidate_maps.1] at found
  have dropped := foldl_discard (cache.store.keys.filter fun key => startsWith key start) cache
  have before := dropped.1.stored key entry found
  refine ⟨?_, before⟩
  cases matched : startsWith key start with
  | false => rfl
  | true =>
      have isKey := OrderedMap.mem_keys_of_get? before
      have absent := dropped.2 key (List.mem_filter.mpr ⟨isKey, matched⟩)
      rw [found] at absent
      cases absent

/-- The fetches under the prefix are no longer registered; the others stay. -/
theorem invalidate_inflight_get? {flight : Nat} :
    (cache.invalidate start holdMs now).inflight.get? key = some flight ↔
      startsWith key start = false ∧ cache.inflight.get? key = some flight := by
  have dropped := foldl_discard (cache.store.keys.filter fun key => startsWith key start) cache
  rw [invalidate_maps.2, dropped.1.inflight,
    OrderedMap.get?_filter_key cache.inflight fun key => !startsWith key start]
  cases startsWith key start <;> simp

theorem mem_cancelledBy {flight : Nat} :
    flight ∈ cache.cancelledBy start ↔
      ∃ key, cache.inflight.get? key = some flight ∧ startsWith key start = true := by
  unfold cancelledBy
  simp only [List.mem_map, List.mem_filter]
  constructor
  · rintro ⟨⟨key, number⟩, ⟨member, matched⟩, rfl⟩
    exact ⟨key, (OrderedMap.get?_eq_some_iff _ _ _).mpr member, matched⟩
  · rintro ⟨key, found, matched⟩
    exact ⟨(key, flight), ⟨(OrderedMap.get?_eq_some_iff _ _ _).mp found, matched⟩, rfl⟩

end Invalidate

section Lookup

variable {ttlMs : ℤ} {options : CacheOptions} {held : Bool} {now : ℤ}

theorem lt_ttlOf {age : ℤ} :
    age < ttlOf ttlMs held ↔ age < ttlMs ∧ (held = true → age < HOLD_TTL_MS) := by
  unfold ttlOf
  cases held with
  | true =>
      simp only [↓reduceIte, forall_const]
      omega
  | false => simp

theorem lookup_fresh (found : cache.lookup key ttlMs options held now = .fresh entry) :
    cache.store.get? key = some entry ∧ now - entry.t < ttlOf ttlMs held := by
  unfold lookup at found
  split at found
  · cases found
  · next inStore =>
      split at found
      · next young =>
          cases found
          exact ⟨inStore, young⟩
      · split at found <;> cases found

theorem lookup_stale (found : cache.lookup key ttlMs options held now = .stale entry) :
    cache.store.get? key = some entry ∧ held = false ∧
      now - entry.t < ttlMs + max 0 (options.staleMs.getD 0) := by
  unfold lookup at found
  split at found
  · cases found
  · next inStore =>
      split at found
      · cases found
      · next old =>
          split at found
          · next young =>
              cases found
              cases held with
              | true => exact absurd (by simpa [staleWindow] using young) old
              | false => exact ⟨inStore, rfl, young⟩
          · cases found

/-- A call that finds nothing to answer with found no entry young enough for it. -/
theorem lookup_missing (found : cache.lookup key ttlMs options held now = .missing)
    (inStore : cache.store.get? key = some entry) :
    ¬ now - entry.t < ttlOf ttlMs held ∧
      ¬ (held = false ∧ now - entry.t < ttlMs + max 0 (options.staleMs.getD 0)) := by
  unfold lookup at found
  rw [inStore] at found
  dsimp only at found
  split at found
  · cases found
  · next old =>
      split at found
      · cases found
      · next older =>
          refine ⟨old, ?_⟩
          rintro ⟨rfl, young⟩
          exact older young

end Lookup

end ZabbixPortal.Core.Cache
