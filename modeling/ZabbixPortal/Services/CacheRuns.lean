import Mathlib.Data.List.Induction
import ZabbixPortal.Core.CacheFit
import ZabbixPortal.Foundation.Runs
import ZabbixPortal.Services.CachedReads

/-! The cache's accounts, caps and order over every run, and what storing a value costs. -/

set_option autoImplicit false

namespace ZabbixPortal.Services

open Foundation Core

variable {α : Type}

def usedKey (approxBytes : α → Nat) (system : CacheSystem α) (turn : ℤ × CacheAction α) :
    Option String :=
  match turn.2 with
  | .call { key, ttlMs, options } _ =>
      match system.cache.lookup key ttlMs options (system.cache.isHeld key turn.1) turn.1 with
      | .fresh _ | .stale _ => some key
      | .missing => none
  | .settle number outcome =>
      (system.flights.get? number).bind fun flight =>
        outcome.bind fun content =>
          if flight.settled.isSome || flight.cancelled || approxBytes content > MAX_BYTES then none
          else some flight.key
  | .resume call =>
      (system.waiting.find? fun waiting => waiting.call.begunAt = call).bind fun waiting =>
        ((system.flights.get? waiting.flight).bind (·.settled)).bind fun settlement =>
          let { key, options, .. } := waiting.call.request
          if settlement.result.isNone && options.staleIfError && !waiting.call.held &&
              system.cache.store.contains key then
            some key
          else none
  | .invalidate _ _ | .writeBack => none

def usesFrom (approxBytes : α → Nat) (system : CacheSystem α) :
    List (ℤ × CacheAction α) → List String
  | [] => []
  | turn :: rest =>
      (usedKey approxBytes system turn).toList ++
        usesFrom approxBytes (system.step approxBytes turn) rest

theorem usesFrom_concat (approxBytes : α → Nat) (system : CacheSystem α)
    (turns : List (ℤ × CacheAction α)) (turn : ℤ × CacheAction α) :
    usesFrom approxBytes system (turns ++ [turn]) =
      usesFrom approxBytes system turns ++
        (usedKey approxBytes (turns.foldl (CacheSystem.step approxBytes) system) turn).toList := by
  induction turns generalizing system with
  | nil => simp [usesFrom]
  | cons first rest ih =>
      rw [List.cons_append, usesFrom, ih, usesFrom, List.append_assoc]
      rfl

/-- What holds of the store: its counters are right, it is within its caps, and its keys
are in the order of their last use. -/
structure Sound (uses : List String) (cache : Cache (Fetched α)) : Prop where
  accounts : cache.Accounts
  within : cache.WithinCaps
  ordered : cache.store.keys.Sublist uses.dedup

section Cache

variable {uses : List String} {cache after : Cache (Fetched α)}

theorem Sound.empty : Sound [] (Cache.empty : Cache (Fetched α)) :=
  ⟨⟨rfl, rfl⟩, ⟨Nat.zero_le _, show (0 : ℤ) ≤ MAX_BYTES by decide,
    show (0 : ℤ) ≤ MAX_PINNED_BYTES by decide⟩, List.Sublist.slnil⟩

/-- A cache with the same store and counters. -/
theorem Sound.ofStore (sound : Sound uses cache) (store : after.store = cache.store)
    (held : after.heldBytes = cache.heldBytes) (pinned : after.pinnedBytes = cache.pinnedBytes) :
    Sound uses after := by
  obtain ⟨accounts, within, ordered⟩ := sound
  refine ⟨⟨?_, ?_⟩, ⟨?_, ?_, ?_⟩, ?_⟩
  · rw [held, store, accounts.held]
  · rw [pinned, store, accounts.pinned]
  · exact store ▸ within.entries
  · exact held ▸ within.bytes
  · exact pinned ▸ within.pinned
  · exact store ▸ ordered

theorem keys_discard (cache : Cache (Fetched α)) (key : String) :
    (cache.discard key).store.keys = cache.store.keys.filter fun other => other ≠ key := by
  rw [OrderedMap.keys, Cache.entries_discard, OrderedMap.keys, List.filter_map]
  rfl

theorem Sound.discard (sound : Sound uses cache) (key : String) : Sound uses (cache.discard key) :=
  ⟨sound.accounts.discard key, sound.within.discard key,
    (keys_discard cache key) ▸ List.filter_sublist.trans sound.ordered⟩

theorem Sound.remember (sound : Sound uses cache) (key : String) (entry : Entry (Fetched α)) :
    Sound (uses ++ [key]) (cache.remember key entry) := by
  refine ⟨sound.accounts.remember key entry, Cache.WithinCaps.remember sound.accounts key entry, ?_⟩
  have inserted : (cache.inserted key entry).store.keys =
      (cache.store.keys.filter fun other => other ≠ key) ++ [key] := by
    rw [OrderedMap.keys, Cache.entries_inserted, List.map_append, ← keys_discard]
    rfl
  have ordered := sublist_dedup_use sound.ordered key
  rw [← inserted] at ordered
  rw [Cache.remember_eq]
  exact Cache.evict_keeps (fun state => state.store.keys.Sublist (uses ++ [key]).dedup) (fun state other kept => (keys_discard state other) ▸ List.filter_sublist.trans kept) ordered

theorem Sound.keep (approxBytes : Fetched α → Nat) (sound : Sound uses cache) (key : String)
    (value : Fetched α) (pin : Bool) (now : ℤ) :
    Sound (uses ++ if approxBytes value > MAX_BYTES then [] else [key])
      (cache.keep approxBytes key value pin now) := by
  unfold Cache.keep
  dsimp only
  split
  · exact (List.append_nil uses).symm ▸ sound.discard key
  · exact sound.remember key _

theorem Sound.invalidate (sound : Sound uses cache) (start : String) (holdMs : Option ℤ)
    (now : ℤ) : Sound uses (cache.invalidate start holdMs now) := by
  have dropped : Sound uses ((cache.store.keys.filter fun key => startsWith key start).foldl
      Cache.discard cache) :=
    List.foldlRecOn _ _ sound fun _ kept key _ => kept.discard key
  unfold Cache.invalidate
  cases holdMs with
  | none => dsimp only; split <;> exact dropped.ofStore rfl rfl rfl
  | some holdMs => dsimp only; split <;> split <;> exact dropped.ofStore rfl rfl rfl

end Cache

section Steps

variable {approxBytes : α → Nat} {uses : List String} {system : CacheSystem α} {now : ℤ}

theorem Sound.call (sound : Sound uses system.cache) (request : Request) (parent : Option Nat) :
    Sound (uses ++ (usedKey approxBytes system (now, .call request parent)).toList)
      (system.call now request parent).cache := by
  have opened : Sound uses (system.cache.dropEnded now) := sound.ofStore rfl rfl rfl
  have looked : (system.cache.dropEnded now).lookup request.key = system.cache.lookup request.key :=
    rfl
  unfold CacheSystem.call usedKey
  dsimp only
  rw [looked]
  cases system.cache.lookup request.key request.ttlMs request.options
      (system.cache.isHeld request.key now) now with
  | fresh entry =>
      dsimp only [CacheSystem.answer, Option.toList]
      exact opened.remember request.key entry
  | stale entry =>
      have remembered := opened.remember request.key { entry with
        refreshing := entry.refreshing || (!entry.refreshing &&
          !(system.cache.dropEnded now).inflight.contains request.key) }
      dsimp only [CacheSystem.answer, CacheSystem.refreshBehind, Option.toList]
      generalize (system.cache.dropEnded now).remember request.key _ = cache at remembered ⊢
      split
      · exact remembered.ofStore rfl rfl rfl
      · exact remembered
  | missing =>
      dsimp only [Option.toList]
      rw [List.append_nil]
      unfold CacheSystem.await
      split <;> exact opened.ofStore rfl rfl rfl

theorem deregister_sound {cache : Cache (Fetched α)} (sound : Sound uses cache) (key : String)
    (number : Nat) : Sound uses (CacheSystem.deregister cache key number) := by
  unfold CacheSystem.deregister
  split
  · exact sound.ofStore rfl rfl rfl
  · exact sound

theorem Sound.settle (sound : Sound uses system.cache) (number : Nat) (outcome : Option α) :
    Sound (uses ++ (usedKey approxBytes system (now, .settle number outcome)).toList)
      (system.settle approxBytes now number outcome).cache := by
  unfold CacheSystem.settle usedKey
  dsimp only
  cases system.flights.get? number with
  | none => exact (List.append_nil uses).symm ▸ sound
  | some flight =>
      dsimp only [Option.bind_some]
      cases settled : flight.settled.isSome with
      | true =>
          cases outcome <;> exact (List.append_nil uses).symm ▸ sound
      | false =>
          rw [if_neg (show ¬false = true by decide)]
          refine deregister_sound ?_ _ _
          cases outcome with
          | none => exact (List.append_nil uses).symm ▸ sound
          | some content =>
              dsimp only [Option.bind_some, Option.map_some, CacheSystem.keepResult]
              cases cancelled : flight.cancelled with
              | true => exact (List.append_nil uses).symm ▸ sound
              | false =>
                  have kept := sound.keep (fun value => approxBytes value.content)
                    flight.key { content, origin := .fetch number flight.reads } flight.pin now
                  rw [if_neg (show ¬false = true by decide)]
                  simp only [Bool.false_or, decide_eq_true_eq]
                  split
                  · next large => rwa [if_pos large] at kept
                  · next small => rwa [if_neg small] at kept

theorem Sound.resume (sound : Sound uses system.cache) (number : Nat) :
    Sound (uses ++ (usedKey approxBytes system (now, .resume number)).toList)
      (system.resume now number).cache := by
  unfold CacheSystem.resume usedKey
  dsimp only
  cases system.waiting.find? fun waiting => waiting.call.begunAt = number with
  | none => exact (List.append_nil uses).symm ▸ sound
  | some waiting =>
      dsimp only [Option.bind_some]
      cases (system.flights.get? waiting.flight).bind (·.settled) with
      | none => exact (List.append_nil uses).symm ▸ sound
      | some settlement =>
          dsimp only [Option.bind_some]
          cases settlement.result with
          | some value => exact (List.append_nil uses).symm ▸ sound
          | none =>
              cases allowed : waiting.call.request.options.staleIfError && !waiting.call.held with
              | false =>
                  simp only [Option.isNone_none, Bool.true_and, allowed, Bool.false_and]
                  exact (List.append_nil uses).symm ▸ sound
              | true =>
                  cases found : system.cache.store.get? waiting.call.request.key with
                  | none =>
                      simp only [Option.isNone_none, Bool.true_and, allowed,
                        OrderedMap.contains, found]
                      exact (List.append_nil uses).symm ▸ sound
                  | some last =>
                      simp only [Option.isNone_none, Bool.true_and, allowed,
                        OrderedMap.contains, found]
                      exact sound.remember _ last

theorem Sound.step (sound : Sound uses system.cache) (turn : ℤ × CacheAction α) :
    Sound (uses ++ (usedKey approxBytes system turn).toList)
      (system.step approxBytes turn).cache := by
  obtain ⟨now, action⟩ := turn
  cases action with
  | call request parent => exact sound.call request parent
  | settle flight outcome => exact sound.settle flight outcome
  | resume call => exact sound.resume call
  | invalidate start holdMs =>
      exact (List.append_nil uses).symm ▸ sound.invalidate start holdMs now
  | writeBack =>
      have swept : Sound uses (system.invalidateAll now STALE_AFTER_WRITE).cache :=
        List.foldlRecOn (motive := fun left : CacheSystem α => Sound uses left.cache)
          STALE_AFTER_WRITE _ sound fun _ kept start _ => kept.invalidate start (some WRITE_HOLD_MS) now
      exact (List.append_nil uses).symm ▸ swept

theorem Sound.run (approxBytes : α → Nat) (turns : List (ℤ × CacheAction α)) :
    Sound (usesFrom approxBytes .idle turns) (CacheSystem.run approxBytes turns).cache := by
  induction turns using List.reverseRecOn with
  | nil => exact .empty
  | append_singleton turns turn ih =>
      have split : CacheSystem.run approxBytes (turns ++ [turn]) =
          (CacheSystem.run approxBytes turns).step approxBytes turn := List.foldl_concat ..
      rw [usesFrom_concat, split]
      exact ih.step turn

end Steps

/-- After any run: the counters are the sums over the store, the caps hold, the store is in
the order of last use, and an insertion that leaves the pinned bytes within their cap drops
a pinned entry only when no unpinned one is left. -/
theorem cache_accounts (approxBytes : α → Nat) (turns : List (ℤ × CacheAction α)) :
    let cache := (CacheSystem.run approxBytes turns).cache
    cache.Accounts ∧ cache.WithinCaps ∧
      cache.store.keys.Sublist (usesFrom approxBytes .idle turns).dedup ∧
      ∀ key entry, (cache.inserted key entry).pinnedBytes ≤ MAX_PINNED_BYTES →
        ∃ victims, Run Cache.EvictsUnpinnedFirst (cache.inserted key entry) victims
          (cache.remember key entry) := by
  have sound := Sound.run approxBytes turns
  exact ⟨sound.accounts, sound.within, sound.ordered,
    fun key entry under => Cache.evict_unpinned_first under⟩

/-- In every reachable state: a fetched value no larger than the whole budget is in the
store right after it was stored, with nothing dropped that a cap had room for, exactly when
it fits under its own caps. -/
theorem stores_value_iff (approxBytes : α → Nat) (turns : List (ℤ × CacheAction α)) (key : String)
    (value : Fetched α) (pin : Bool) (now : ℤ) (small : approxBytes value.content ≤ MAX_BYTES) :
    let cache := (CacheSystem.run approxBytes turns).cache
    let entry : Entry (Fetched α) :=
      { t := now, v := value, bytes := approxBytes value.content, pinned := pin
        refreshing := false }
    let kept := cache.keep (fun v => approxBytes v.content) key value pin now
    (kept.store.get? key = some entry ∧
      ∃ victims, Run Cache.EvictsForRoom (cache.inserted key entry) victims kept) ↔
      cache.Fits key (approxBytes value.content) pin := by
  have sound := Sound.run approxBytes turns
  exact Cache.keep_iff_fits (fun v => approxBytes v.content) sound.accounts sound.within key value
    pin now small

section TooLarge

/-! Values are their own sizes in bytes. A closed month's report is pinned, and a report of
40 MB is fetched after it. -/

def pinning : CacheOptions := { staleMs := none, staleIfError := false, pin := true }

def reportsPinned : List (ℤ × CacheAction Nat) :=
  [(0, .call { key := "june", ttlMs := 1000, options := pinning } none), (1, .settle 0 (some 5000)),
    (2, .call { key := "year", ttlMs := 1000, options := pinning } none)]

theorem stores_value_small :
    let cache := (CacheSystem.run id reportsPinned).cache
    let value : Fetched Nat := { content := 70, origin := .fetch 2 [] }
    let entry : Entry (Fetched Nat) :=
      { t := 3, v := value, bytes := 70, pinned := true, refreshing := false }
    let kept := cache.keep (fun v => v.content) "year" value true 3
    (kept.store.get? "year" = some entry ∧
      ∃ victims, Run Cache.EvictsForRoom (cache.inserted "year" entry) victims kept) ↔
      cache.Fits "year" 70 true :=
  stores_value_iff id reportsPinned "year" { content := 70, origin := .fetch 2 [] } true 3
    (by decide)

/-- The large report is not kept, and the small one is gone for it. -/
theorem large_report_empties_the_cache :
    let cache := (CacheSystem.run id reportsPinned).cache
    let kept := cache.keep (fun v => v.content) "year" { content := 40 * 1024 * 1024, origin := .fetch 2 [] }
      true 3
    cache.store.keys = ["june"] ∧ (40 * 1024 * 1024 : ℤ) ≤ MAX_BYTES ∧
      kept.store.get? "year" = none ∧ kept.store.keys = [] := by
  decide +kernel

end TooLarge

end ZabbixPortal.Services
