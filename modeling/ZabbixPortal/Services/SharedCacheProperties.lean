import ZabbixPortal.Services.ItemReadsProperties
import ZabbixPortal.Services.ViewerRoutes

/-! The shared caches of two portals side by side: a read through both keeps them alike, as long
as neither has to drop an entry for its bytes. -/

set_option autoImplicit false

namespace ZabbixPortal.Services

open Foundation Core

section Shared

variable {γ β : Type} (items : List ItemConfig)

structure Related (left right : SharedCache γ β) : Prop where
  cache : left.cache.Alike (ContentAlike items) right.cache
  accounts : left.cache.Accounts
  accounts' : right.cache.Accounts
  within : left.cache.WithinCaps
  within' : right.cache.WithinCaps
  refreshing : left.refreshing = right.refreshing
  wellFormed : ∀ read ∈ left.refreshing, read.WellFormed

def StaysWithin (shared : SharedCache γ β) : Prop := shared.withinBytes = true

end Shared

section Cached

variable {γ β : Type} {items : List ItemConfig} {around : Surroundings γ β} {now : ℤ}
  {left right shared : SharedCache γ β}

@[simp] theorem withinBytes_refreshBehind (key : String) (entry : Entry (Content γ β))
    (behind : Option (KeyedRead β)) :
    (shared.refreshBehind key entry behind).withinBytes = shared.withinBytes := by
  unfold SharedCache.refreshBehind
  dsimp only
  split <;> rfl

theorem staysWithin_of_keep {approxBytes : Content γ β → Nat} {request : Request}
    {v : Content γ β} (after : StaysWithin (shared.keep approxBytes request v now)) :
    StaysWithin shared ∧ shared.cache.hasRoom request.key
      { t := now, v, bytes := approxBytes v, pinned := request.options.pin, refreshing := false }
        = true := by
  rw [StaysWithin, SharedCache.keep, Bool.and_eq_true] at after
  exact after

/-- A failed fetch leaves the state as it is or stores an entry again. -/
theorem staysWithin_of_last {refusal : Refusal} {key : String}
    {last : Option (Entry (Content γ β))}
    (after : StaysWithin (match last with
      | none => ((.error refusal, shared) : Except Refusal (Content γ β) × SharedCache γ β)
      | some entry => (.ok entry.v, shared.remember key entry)).2) : StaysWithin shared := by
  cases last with
  | none => exact after
  | some entry => exact after

theorem persists_cached {request : Request} {behind : Option (KeyedRead β)}
    {fetch : Route γ β (Content γ β)} (persists : fetch.Persists StaysWithin) :
    (cached around now request behind fetch).Persists StaysWithin := by
  intro shared after
  unfold cached at after
  dsimp only at after
  split at after
  · exact after
  · rw [StaysWithin, withinBytes_refreshBehind] at after
    exact after
  · have before : ∀ {result : Except Refusal (Content γ β)} {next : SharedCache γ β},
        fetch (({ shared with cache := shared.cache.dropEnded now } :
          SharedCache γ β).landed request.key) = (result, next) →
        StaysWithin next → StaysWithin shared := by
      intro result next ran valid
      exact persists (({ shared with cache := shared.cache.dropEnded now } :
        SharedCache γ β).landed request.key) (by rw [ran]; exact valid)
    split at after
    · next ran => exact before ran (staysWithin_of_keep after).1
    · next ran => exact before ran (staysWithin_of_last after)

namespace Related

theorem empty : Related items (SharedCache.empty : SharedCache γ β) .empty where
  cache := .empty
  accounts := ⟨rfl, rfl⟩
  accounts' := ⟨rfl, rfl⟩
  within := ⟨Nat.zero_le _, (by decide : (0 : ℤ) ≤ MAX_BYTES),
    (by decide : (0 : ℤ) ≤ MAX_PINNED_BYTES)⟩
  within' := ⟨Nat.zero_le _, (by decide : (0 : ℤ) ≤ MAX_BYTES),
    (by decide : (0 : ℤ) ≤ MAX_PINNED_BYTES)⟩
  refreshing := rfl
  wellFormed := by simp [SharedCache.empty]

theorem dropEnded (states : Related items left right) (now : ℤ) :
    Related items { left with cache := left.cache.dropEnded now }
      { right with cache := right.cache.dropEnded now } where
  cache := states.cache.dropEnded now
  accounts := ⟨states.accounts.held, states.accounts.pinned⟩
  accounts' := ⟨states.accounts'.held, states.accounts'.pinned⟩
  within := ⟨states.within.entries, states.within.bytes, states.within.pinned⟩
  within' := ⟨states.within'.entries, states.within'.bytes, states.within'.pinned⟩
  refreshing := states.refreshing
  wellFormed := states.wellFormed

theorem landed (states : Related items left right) (key : String) :
    Related items (left.landed key) (right.landed key) where
  cache := states.cache
  accounts := states.accounts
  accounts' := states.accounts'
  within := states.within
  within' := states.within'
  refreshing := by rw [SharedCache.landed, SharedCache.landed, states.refreshing]
  wellFormed read member := states.wellFormed read (List.mem_of_mem_filter member)

theorem remember (states : Related items left right) {key : String}
    {entry entry' : Entry (Content γ β)} (entries : entry.Alike (ContentAlike items key) entry')
    (room : left.cache.hasRoom key entry = true) (room' : right.cache.hasRoom key entry' = true) :
    Related items (left.remember key entry) (right.remember key entry') where
  cache := states.cache.remember key entries room room'
  accounts := states.accounts.remember key entry
  accounts' := states.accounts'.remember key entry'
  within := .remember states.accounts key entry
  within' := .remember states.accounts' key entry'
  refreshing := states.refreshing
  wellFormed := states.wellFormed

/-- A value that has room is kept, whatever its size. -/
theorem keep_of_hasRoom {α : Type} {approxBytes : α → Nat} {cache : Cache α} {key : String} {v : α}
    {pin : Bool} (accounts : cache.Accounts)
    (room : cache.hasRoom key
      { t := now, v, bytes := approxBytes v, pinned := pin, refreshing := false } = true) :
    cache.keep approxBytes key v pin now = cache.remember key
      { t := now, v, bytes := approxBytes v, pinned := pin, refreshing := false } := by
  have bytes := (of_decide_eq_true room).1
  have held : 0 ≤ (cache.discard key).heldBytes := by
    rw [(accounts.discard key).held]
    exact Int.natCast_nonneg _
  unfold Cache.inserted at bytes
  dsimp only at bytes
  unfold Cache.keep
  dsimp only
  rw [if_neg (by omega)]

theorem keep (states : Related items left right) {request : Request} {v v' : Content γ β}
    (values : ContentAlike items request.key v v')
    (after : StaysWithin (left.keep around.approxBytes request v now))
    (after' : StaysWithin (right.keep around.approxBytes request v' now)) :
    Related items (left.keep around.approxBytes request v now)
      (right.keep around.approxBytes request v' now) := by
  have room := (staysWithin_of_keep after).2
  have room' := (staysWithin_of_keep after').2
  have kept := @remember _ _ _ _ _ states request.key
    { t := now, v, bytes := around.approxBytes v, pinned := request.options.pin
      refreshing := false }
    { t := now, v := v', bytes := around.approxBytes v', pinned := request.options.pin
      refreshing := false } ⟨rfl, rfl, rfl, values⟩ room room'
  unfold SharedCache.keep
  dsimp only
  rw [keep_of_hasRoom states.accounts room, keep_of_hasRoom states.accounts' room']
  exact ⟨kept.cache, kept.accounts, kept.accounts', kept.within, kept.within', kept.refreshing,
    kept.wellFormed⟩

theorem remember_stored (states : Related items left right) {key : String}
    {entry entry' : Entry (Content γ β)} {refreshing : Bool}
    (entries : entry.Alike (ContentAlike items key) entry')
    (stored : left.cache.store.get? key = some entry)
    (stored' : right.cache.store.get? key = some entry') :
    Related items (left.remember key { entry with refreshing })
      (right.remember key { entry' with refreshing }) :=
  states.remember ⟨entries.t, entries.pinned, rfl, entries.v⟩
    (Cache.hasRoom_of_stored states.within stored) (Cache.hasRoom_of_stored states.within' stored')

theorem refreshBehind (states : Related items left right) {key : String}
    {entry entry' : Entry (Content γ β)} {behind : Option (KeyedRead β)}
    (wellFormed : ∀ read ∈ behind, read.WellFormed)
    (entries : entry.Alike (ContentAlike items key) entry')
    (stored : left.cache.store.get? key = some entry)
    (stored' : right.cache.store.get? key = some entry') :
    Related items (left.refreshBehind key entry behind)
      (right.refreshBehind key entry' behind) := by
  have same : left.isRefreshing key = right.isRefreshing key := by
    rw [SharedCache.isRefreshing, SharedCache.isRefreshing, states.refreshing]
  unfold SharedCache.refreshBehind
  dsimp only
  rw [← same, ← entries.refreshing]
  have kept := @remember_stored _ _ _ _ _ states key entry entry'
    (entry.refreshing || (!entry.refreshing && !left.isRefreshing key)) entries stored stored'
  split
  · refine ⟨kept.cache, kept.accounts, kept.accounts', kept.within, kept.within', ?_, ?_⟩
    · exact congrArg (· ++ behind.toList) kept.refreshing
    · intro read member
      cases List.mem_append.mp member with
      | inl before => exact kept.wellFormed read before
      | inr added => exact wellFormed read (Option.mem_toList.mp added)
  · exact kept

end Related

theorem lockstep_cached {request : Request} {behind : Option (KeyedRead β)}
    {fetch fetch' : Route γ β (Content γ β)} (wellFormed : ∀ read ∈ behind, read.WellFormed)
    (fetches : Lockstep StaysWithin (Related items) (ContentAlike items request.key) fetch fetch') :
    Lockstep StaysWithin (Related items) (ContentAlike items request.key)
      (cached around now request behind fetch) (cached around now request behind fetch') := by
  intro left right states after after'
  have open' := states.dropEnded now
  have held := states.cache.isHeld request.key now
  have found := open'.cache.lookup request.key request.ttlMs request.options
    (left.cache.isHeld request.key now) now
  unfold cached at after after' ⊢
  dsimp only at after after' found ⊢
  rw [← held] at after' ⊢
  generalize inLeft : (left.cache.dropEnded now).lookup request.key request.ttlMs request.options
    (left.cache.isHeld request.key now) now = leftFound at found after ⊢
  generalize inRight : (right.cache.dropEnded now).lookup request.key request.ttlMs request.options
    (left.cache.isHeld request.key now) now = rightFound at found after' ⊢
  cases found with
  | fresh entries =>
      have stored := (Cache.lookup_fresh inLeft).1
      have stored' := (Cache.lookup_fresh inRight).1
      exact ⟨open'.remember entries (Cache.hasRoom_of_stored open'.within stored)
        (Cache.hasRoom_of_stored open'.within' stored'), .ok entries.v⟩
  | stale entries =>
      exact ⟨open'.refreshBehind wellFormed entries (Cache.lookup_stale inLeft).1
        (Cache.lookup_stale inRight).1, .ok entries.v⟩
  | missing =>
      have both := fetches _ _ (open'.landed request.key)
      dsimp only at after after' ⊢
      generalize fetch (({ left with cache := left.cache.dropEnded now } :
        SharedCache γ β).landed request.key) = ran at both after ⊢
      generalize fetch' (({ right with cache := right.cache.dropEnded now } :
        SharedCache γ β).landed request.key) = ran' at both after' ⊢
      match ran, ran' with
      | (.ok v, s), (.ok v', t) =>
          obtain ⟨kept, results⟩ := both (staysWithin_of_keep after).1
            (staysWithin_of_keep after').1
          cases results with
          | ok values => exact ⟨kept.keep values after after', .ok values⟩
      | (.ok v, s), (.error e, t) =>
          obtain ⟨_, results⟩ := both (staysWithin_of_keep after).1 (staysWithin_of_last after')
          cases results
      | (.error e, s), (.ok v, t) =>
          obtain ⟨_, results⟩ := both (staysWithin_of_last after) (staysWithin_of_keep after').1
          cases results
      | (.error e, s), (.error e', t) =>
          obtain ⟨kept, results⟩ := both (staysWithin_of_last after) (staysWithin_of_last after')
          cases results
          have last := kept.cache.get? request.key
          dsimp only at last ⊢
          cases request.options.staleIfError && !left.cache.isHeld request.key now with
          | false => exact ⟨kept, .error e⟩
          | true =>
              rw [if_pos rfl, if_pos rfl]
              generalize inLeft : s.cache.store.get? request.key = first at last ⊢
              generalize inRight : t.cache.store.get? request.key = second at last ⊢
              cases last with
              | none => exact ⟨kept, .error e⟩
              | some entries =>
                  exact ⟨kept.remember entries (Cache.hasRoom_of_stored kept.within inLeft)
                    (Cache.hasRoom_of_stored kept.within' inRight), .ok entries.v⟩

variable {leftState rightState : ZabbixState}

theorem persists_readCached (read : KeyedRead β) (state : ZabbixState) :
    (readCached around state now read).Persists StaysWithin :=
  persists_cached fun _ => id

theorem lockstep_readCached (states : SameButInterfaces leftState rightState) {read : KeyedRead β}
    (wellFormed : read.WellFormed) :
    Lockstep StaysWithin (Related leftState.items)
      (ContentAlike leftState.items (read.request (toSeconds now)).key)
      (readCached around leftState now read) (readCached around rightState now read) := by
  refine lockstep_cached (fun other same => ?_) fun _ _ kept _ _ =>
    ⟨kept, fetchRead_alike states wellFormed⟩
  cases same
  exact wellFormed

end Cached

end ZabbixPortal.Services
