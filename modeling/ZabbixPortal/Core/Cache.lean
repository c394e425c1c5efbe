import ZabbixPortal.Foundation.OrderedMap
import ZabbixPortal.Foundation.Text
import Mathlib.Data.Int.Notation

/-! The cache of values read from Zabbix: its store with the entry and byte caps, the
fetches it has in flight and the holds of writes. Times are milliseconds. -/

set_option autoImplicit false

namespace ZabbixPortal.Core

open Foundation

def MAX_ENTRIES : Nat := 500

def MAX_BYTES : ℤ := 64 * 1024 * 1024

def MAX_PINNED_BYTES : ℤ := MAX_BYTES / 2

def HOLD_TTL_MS : ℤ := 2000

structure Entry (α : Type) where
  t : ℤ
  v : α
  /-- `approxBytes(v)`, measured once. -/
  bytes : Nat
  pinned : Bool
  /-- The value's one background refresh has started. -/
  refreshing : Bool
deriving DecidableEq, Repr

structure CacheOptions where
  staleMs : Option ℤ
  staleIfError : Bool
  pin : Bool
deriving DecidableEq, Repr

/-- `cached(key, ttlMs, fn)` with no options. -/
def CacheOptions.plain : CacheOptions := { staleMs := none, staleIfError := false, pin := false }

/-- The maps of the module. Fetches in flight are known by number. -/
structure Cache (α : Type) where
  store : OrderedMap String (Entry α)
  heldBytes : ℤ
  pinnedBytes : ℤ
  inflight : OrderedMap String Nat
  /-- Invalidated prefix to when its hold ends. -/
  holds : OrderedMap String ℤ

namespace Cache

variable {α : Type}

def empty : Cache α :=
  { store := .empty, heldBytes := 0, pinnedBytes := 0, inflight := .empty, holds := .empty }

def discard (cache : Cache α) (key : String) : Cache α :=
  match cache.store.get? key with
  | none => cache
  | some entry =>
      { cache with
        store := cache.store.delete key
        heldBytes := cache.heldBytes - entry.bytes
        pinnedBytes := if entry.pinned then cache.pinnedBytes - entry.bytes else cache.pinnedBytes }

/-- The least recently used key, among the entries `want` accepts. -/
def oldest (cache : Cache α) (want : Entry α → Bool) : Option String :=
  (cache.store.entries.find? fun entry => want entry.2).map Prod.fst

/-- The first loop of `evict`. Every pass discards an entry, so there are no more passes
than entries. -/
def evictPinned : Nat → Cache α → Cache α
  | 0, cache => cache
  | passes + 1, cache =>
      if cache.pinnedBytes > MAX_PINNED_BYTES then
        match cache.oldest fun entry => entry.pinned with
        | none => cache
        | some key => evictPinned passes (cache.discard key)
      else cache

/-- The second loop of `evict`: unpinned entries before pinned ones. -/
def evictOldest : Nat → Cache α → Cache α
  | 0, cache => cache
  | passes + 1, cache =>
      if cache.store.size > MAX_ENTRIES ∨ cache.heldBytes > MAX_BYTES then
        match (cache.oldest fun entry => !entry.pinned).or (cache.oldest fun _ => true) with
        | none => cache
        | some key => evictOldest passes (cache.discard key)
      else cache

def evict (cache : Cache α) : Cache α :=
  let cache := evictPinned cache.store.size cache
  evictOldest cache.store.size cache

def remember (cache : Cache α) (key : String) (entry : Entry α) : Cache α :=
  let cache := cache.discard key
  evict
    { cache with
      store := cache.store.set key entry
      heldBytes := cache.heldBytes + entry.bytes
      pinnedBytes := if entry.pinned then cache.pinnedBytes + entry.bytes else cache.pinnedBytes }

def keep (approxBytes : α → Nat) (cache : Cache α) (key : String) (v : α) (pin : Bool) (now : ℤ) :
    Cache α :=
  let bytes := approxBytes v
  if bytes > MAX_BYTES then cache.discard key
  else cache.remember key { t := now, v, bytes, pinned := pin, refreshing := false }

def dropEnded (cache : Cache α) (now : ℤ) : Cache α :=
  { cache with holds := cache.holds.filter fun hold => !decide (hold.2 ≤ now) }

def isHeld (cache : Cache α) (key : String) (now : ℤ) : Bool :=
  (cache.dropEnded now).holds.entries.any fun hold => startsWith key hold.1

inductive Found (α : Type) where
  | fresh (entry : Entry α)
  | stale (entry : Entry α)
  | missing

def ttlOf (ttlMs : ℤ) (held : Bool) : ℤ := if held then min ttlMs HOLD_TTL_MS else ttlMs

def staleWindow (options : CacheOptions) (held : Bool) : ℤ :=
  if held then 0 else max 0 (options.staleMs.getD 0)

def lookup (cache : Cache α) (key : String) (ttlMs : ℤ) (options : CacheOptions) (held : Bool)
    (now : ℤ) : Found α :=
  match cache.store.get? key with
  | none => .missing
  | some entry =>
      if now - entry.t < ttlOf ttlMs held then .fresh entry
      else if now - entry.t < ttlOf ttlMs held + staleWindow options held then .stale entry
      else .missing

def cancelledBy (cache : Cache α) (start : String) : List Nat :=
  (cache.inflight.entries.filter fun flight => startsWith flight.1 start).map Prod.snd

def invalidate (cache : Cache α) (start : String) (holdMs : Option ℤ) (now : ℤ) : Cache α :=
  let keys := cache.store.keys.filter fun key => startsWith key start
  let cache := keys.foldl discard cache
  let cache :=
    { cache with inflight := cache.inflight.filter fun flight => !startsWith flight.1 start }
  let cache := if start = "" then { cache with holds := .empty } else cache
  match holdMs with
  | none => cache
  | some holdMs =>
      if holdMs > 0 then
        { cache with
          holds := cache.holds.set start (max ((cache.holds.get? start).getD 0) (now + holdMs)) }
      else cache

end Cache

end ZabbixPortal.Core
