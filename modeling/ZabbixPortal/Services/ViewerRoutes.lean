import ZabbixPortal.Core.CacheAlike
import ZabbixPortal.Foundation.TwoRuns
import ZabbixPortal.Services.ItemReads

/-! The routes that answer a viewer with items, over the one cache all roles share. Requests come
one after another; behind them run the refreshes of stale answers, each of which ends at any later
time. Times are milliseconds, and Unix seconds where Zabbix is asked. -/

set_option autoImplicit false

namespace ZabbixPortal.Services

open Foundation Core
open Security (Role)

/-! ## The shared cache -/

structure SharedCache (γ β : Type) where
  cache : Cache (Content γ β)
  /-- The background refreshes that are not over. -/
  refreshing : List (KeyedRead β)
  /-- No entry has had to go for its bytes so far; the code keeps no such note. -/
  withinBytes : Bool

namespace SharedCache

variable {γ β : Type}

def empty : SharedCache γ β := { cache := .empty, refreshing := [], withinBytes := true }

def keep (approxBytes : Content γ β → Nat) (shared : SharedCache γ β) (request : Request)
    (v : Content γ β) (now : ℤ) : SharedCache γ β :=
  let pin := request.options.pin
  let entry : Entry (Content γ β) :=
    { t := now, v, bytes := approxBytes v, pinned := pin, refreshing := false }
  { shared with
    cache := shared.cache.keep approxBytes request.key v pin now
    withinBytes := shared.withinBytes && shared.cache.hasRoom request.key entry }

def remember (shared : SharedCache γ β) (key : String) (entry : Entry (Content γ β)) :
    SharedCache γ β :=
  { shared with cache := shared.cache.remember key entry }

def isRefreshing (shared : SharedCache γ β) (key : String) : Bool :=
  shared.refreshing.any fun read => (read.request 0).key = key

def refreshBehind (shared : SharedCache γ β) (key : String) (entry : Entry (Content γ β))
    (behind : Option (KeyedRead β)) : SharedCache γ β :=
  let starts := !entry.refreshing && !shared.isRefreshing key
  let shared := shared.remember key { entry with refreshing := entry.refreshing || starts }
  if starts then { shared with refreshing := shared.refreshing ++ behind.toList } else shared

def landed (shared : SharedCache γ β) (key : String) : SharedCache γ β :=
  { shared with refreshing := shared.refreshing.filter fun read => (read.request 0).key ≠ key }

/-- A write-back drops what shows problem state, and the fetches of it are not kept. -/
def wroteBack (shared : SharedCache γ β) (now : ℤ) : SharedCache γ β :=
  { shared with
    cache := STALE_AFTER_WRITE.foldl
      (fun cache start => cache.invalidate start (some WRITE_HOLD_MS) now) shared.cache
    refreshing := shared.refreshing.filter fun read => !isStaleAfterWrite (read.request 0).key }

end SharedCache

abbrev Route (γ β α : Type) := Stateful (SharedCache γ β) Refusal α

def toSeconds (now : ℤ) : ℤ := now / 1000

section Routes

variable {γ β : Type} (around : Surroundings γ β) (state : ZabbixState) (now : ℤ)

/-- `cached(key, ttlMs, fn, options)`. A fetch of the key that is under way ends here. -/
def cached (request : Request) (behind : Option (KeyedRead β)) (fetch : Route γ β (Content γ β)) :
    Route γ β (Content γ β) := fun shared =>
  let held := shared.cache.isHeld request.key now
  let shared := { shared with cache := shared.cache.dropEnded now }
  match shared.cache.lookup request.key request.ttlMs request.options held now with
  | .fresh entry => (.ok entry.v, shared.remember request.key entry)
  | .stale entry => (.ok entry.v, shared.refreshBehind request.key entry behind)
  | .missing =>
      match fetch (shared.landed request.key) with
      | (.ok v, shared) => (.ok v, shared.keep around.approxBytes request v now)
      | (.error refusal, shared) =>
          let last := shared.cache.store.get? request.key
          match if request.options.staleIfError && !held then last else none with
          | none => (.error refusal, shared)
          | some entry => (.ok entry.v, shared.remember request.key entry)

def readCached (read : KeyedRead β) : Route γ β (Content γ β) :=
  cached around now (read.request (toSeconds now)) (some read) fun shared =>
    (fetchRead around state (toSeconds now) read, shared)

/-- A background refresh ends: a value is kept, and a failure leaves the old one. -/
def refreshed (key : String) (shared : SharedCache γ β) : SharedCache γ β :=
  match shared.refreshing.find? fun read => (read.request 0).key = key with
  | none => shared
  | some read =>
      match fetchRead around state (toSeconds now) read with
      | .ok v =>
          (shared.landed key).keep around.approxBytes (read.request (toSeconds now)) v now
      | .error _ => shared.landed key

/-! ## The routes -/

structure ItemsParams where
  hostid : Option String
  search : Option String
  graphable : Option String
  itemids : Option String

structure LatestParams where
  hostid : Option String
  groupid : Option String
  search : Option String
  page : Option String
  pageSize : Option String

structure GraphParams where
  itemids : Option String
  hours : Option String
  start : Option String
  stop : Option String
  month : Option String
  points : Option String

structure CapacityParams where
  days : Option String
  top : Option String

def parseDeepLink (raw : Option String) : Except Refusal (Option (List String)) :=
  match raw.filter (· ≠ "") with
  | none => .ok none
  | some raw => do
      let ids ← requireIds (commaParts raw) "itemids"
      if ids.length > MAX_ITEMIDS then
        .error (.badRequest "At most 50 itemids per request.")
      else .ok (some ids)

def parseItemQuery (q : ItemsParams) : Except Refusal ItemQuery := do
  let itemids ← parseDeepLink q.itemids
  let hostid ← if itemids.isSome then optionalId q.hostid "hostid"
    else (requireId q.hostid "hostid").map some
  .ok { hostid, itemids, search := q.search
        graphable := q.graphable = some "1" || q.graphable = some "true" }

/-- `GET /api/items`. Cut after the cache, which holds one list for every role. -/
def serveItems (role : Role) (q : ItemsParams) : Route γ β (Content γ β) := do
  match parseItemQuery q with
  | .error refusal => throw refusal
  | .ok query =>
      match ← readCached around state now (.items query) with
      | .items rows =>
          pure (.items (if hidesNetwork role then withoutNetworkItems ItemRow.key_ rows else rows))
      -- Nothing else is kept under these keys.
      | _ => throw .unavailable

structure LatestPageQuery where
  filter : LatestFilter
  needle : String
  page : ℤ
  pageSize : ℤ
  /-- Without the interface items. -/
  hide : Bool

def LatestPageQuery.request (q : LatestPageQuery) : Request :=
  { key := "latest:p:" ++ orEmpty q.filter.hostid ++ ":" ++ orEmpty q.filter.groupid ++ ":" ++
      q.needle ++ ":" ++ toString q.page ++ ":" ++ toString q.pageSize ++ ":" ++
      (if q.hide then "v" else "o")
    ttlMs := 15000
    options := .plain }

def latestDetails (ids : List String) : List LatestRow :=
  let details := itemGet around.search state.items { itemids := some ids, webitems := true }
  let byId := OrderedMap.ofList (details.map fun item => (item.itemid, item))
  (ids.filterMap byId.get?).map (latestRow state (toSeconds now))

def LatestPageQuery.ids (q : LatestPageQuery) (all : List LatestId) : List String :=
  (if q.hide then all.filter fun row => !row.net else all).map fun row => row.id

def LatestPageQuery.slice (q : LatestPageQuery) (all : List LatestId) : List String :=
  ((q.ids all).drop ((q.page - 1) * q.pageSize).toNat).take q.pageSize.toNat

/-- A page: one light read of every id, then the details of the page. -/
def fetchLatestPage (q : LatestPageQuery) : Route γ β (Content γ β) := do
  match ← readCached around state now (.latestIds q.filter q.needle) with
  | .latestIds all =>
      if q.slice all ≠ [] ∧ state.reachable (toSeconds now) = false then throw .unavailable
      else
        pure (.latestPage
          { items := latestDetails around state now (q.slice all)
            truncated := all.length ≥ LATEST_ID_LIMIT
            total := (q.ids all).length
            page := q.page
            pageSize := q.pageSize })
  | _ => throw .unavailable

def getLatestPage (q : LatestPageQuery) : Route γ β (Content γ β) := do
  match ← cached around now q.request none (fetchLatestPage around state now q) with
  | .latestPage page => pure (.latestPage page)
  | _ => throw .unavailable

/-- Latest data without `page`, cut after the cache. -/
def getLatestItems (filter : LatestFilter) (text : Option String) (hide : Bool) :
    Route γ β (Content γ β) := do
  match ← readCached around state now (.latest filter text) with
  | .latest list =>
      pure (.latest (if hide then
        { list with items := withoutNetworkItems LatestRow.key_ list.items } else list))
  | _ => throw .unavailable

def parseLatestFilter (q : LatestParams) : Except Refusal LatestFilter := do
  let _ ← optionalId q.hostid "hostid"
  let _ ← optionalId q.groupid "groupid"
  .ok { hostid := q.hostid, groupid := q.groupid }

def serveLatest (role : Role) (q : LatestParams) : Route γ β (Content γ β) := do
  let paged := orEmpty q.page ≠ ""
  let pageSize := intParam q.pageSize 100 25 500
  if orEmpty q.hostid = "" ∧ orEmpty q.groupid = "" then
    if paged then
      pure (.latestPage { items := [], truncated := false, total := 0, page := 1, pageSize })
    else pure (.latest { items := [], truncated := false })
  else
    match parseLatestFilter q with
    | .error refusal => throw refusal
    | .ok filter =>
        if paged then
          getLatestPage around state now
            { filter
              needle := String.ofList (trim (orEmpty q.search).toList)
              page := intParam q.page 1 1 1000000
              pageSize
              hide := hidesNetwork role }
        else getLatestItems around state now filter q.search (hidesNetwork role)

def parseItemIds (raw : Option String) : Except Refusal (List String) :=
  let ids := (commaParts (orEmpty raw)).filter (· ≠ "")
  if ids = [] then
    .error (.badRequest "itemids is required (comma-separated Zabbix item ids).")
  else if ids.length > MAX_GRAPH_ITEMS then
    .error (.badRequest "At most 4 items can be graphed together.")
  else requireIds ids "itemids"

def minuteFloor (t : ℤ) : ℤ := t / 60 * 60

def minuteCeil (t : ℤ) : ℤ := -(-t / 60) * 60

/-- `Number(text)` when it is a whole number above 0. -/
def timestamp (text : Option String) : Option ℤ :=
  ((text.bind toNumber).filter fun n => n.den = 1 && 0 < n).map fun n => n.num

def parseRange (q : GraphParams) (now : ℤ) : Except Refusal (ℤ × ℤ) :=
  if orEmpty q.month ≠ "" then
    match Sli.monthBounds (orEmpty q.month) around.zone with
    | .error message => .error (.badRequest message)
    | .ok bounds =>
        if bounds.1 ≥ now then .error (.badRequest "month is in the future.")
        else .ok (bounds.1, min bounds.2 (minuteCeil now))
  else if orEmpty q.start ≠ "" ∨ orEmpty q.stop ≠ "" then
    match timestamp q.start, timestamp q.stop with
    | some start, some stop =>
        if start ≥ stop then .error (.badRequest "from must be before to.")
        else if stop - start > MAX_RANGE then
          .error (.badRequest "The range may not exceed 400 days.")
        else .ok (minuteFloor start, minuteCeil stop)
    | _, _ => .error (.badRequest "from and to must both be Unix timestamps in seconds.")
  else .ok (minuteCeil now - intParam q.hours 24 1 8760 * 3600, minuteCeil now)

/-- Whether any of these items is an interface item, by a lookup that is kept for a while. -/
def hasNetworkItem (ids : List String) : Route γ β Bool := do
  let ids := sortBy compareCodeUnits ids.eraseDups
  if ids = [] then pure false
  else
    match ← readCached around state now (.itemKeys ids) with
    | .itemKeys rows => pure (rows.any fun row => isNetworkKey row.2)
    | _ => throw .unavailable

/-- An operator or admin costs no lookup. -/
def networkItemsDenied (role : Role) (ids : List String) : Route γ β (Option String) := do
  if !hidesNetwork role then pure none
  else if ← hasNetworkItem around state now ids then
    pure (some ("Network interface data needs the \"operator\" role; you are signed in as \"" ++
      roleText role ++ "\"."))
  else pure none

def readGraph (ids : List String) (q : GraphParams) : Route γ β (Content γ β) := do
  match parseRange around q (toSeconds now) with
  | .error refusal => throw refusal
  | .ok (start, stop) =>
      match ← readCached around state now
        (.graph ids start stop (intParam q.points 1500 200 3000)) with
      | .graph graph => pure (.graph graph)
      | _ => throw .unavailable

def serveGraph (role : Role) (q : GraphParams) : Route γ β (Content γ β) := do
  match parseItemIds q.itemids with
  | .error refusal => throw refusal
  | .ok ids =>
      match ← networkItemsDenied around state now role ids with
      | some message => throw (.forbidden message)
      | none => readGraph around state now ids q

/-- `GET /api/reports/capacity`, the same for every role. -/
def serveCapacity (q : CapacityParams) : Route γ β (Content γ β) := do
  match ← readCached around state now
    (.capacity (intParam q.days 7 1 365) (intParam q.top 10 1 50)) with
  | .capacity report => pure (.capacity report)
  | _ => throw .unavailable

end Routes

/-! ## Runs -/

inductive Asked (β : Type) where
  | items (query : ItemsParams)
  | latest (query : LatestParams)
  | graph (query : GraphParams)
  | capacity (query : CapacityParams)
  /-- Of another route, which reads through the cache. -/
  | elsewhere (read : OtherRead β)

inductive PortalEvent (β : Type) where
  | request (role : Role) (asked : Asked β)
  | refreshed (key : String)
  | wroteBack

structure Answered (γ β : Type) where
  role : Role
  asked : Asked β
  reply : Except Refusal (Content γ β)

structure ItemPortal (γ β : Type) where
  shared : SharedCache γ β
  log : List (Answered γ β)

namespace ItemPortal

variable {γ β : Type} (around : Surroundings γ β) (state : ZabbixState)

def serve (now : ℤ) (role : Role) : Asked β → Route γ β (Content γ β)
  | .items query => serveItems around state now role query
  | .latest query => serveLatest around state now role query
  | .graph query => serveGraph around state now role query
  | .capacity query => serveCapacity around state now query
  | .elsewhere read => readCached around state now (.elsewhere read)

def step (portal : ItemPortal γ β) (turn : ℤ × PortalEvent β) : ItemPortal γ β :=
  match turn.2 with
  | .request role asked =>
      let served := serve around state turn.1 role asked portal.shared
      { shared := served.2, log := portal.log ++ [{ role, asked, reply := served.1 }] }
  | .refreshed key => { portal with shared := refreshed around state turn.1 key portal.shared }
  | .wroteBack => { portal with shared := portal.shared.wroteBack turn.1 }

def run (turns : List (ℤ × PortalEvent β)) : ItemPortal γ β :=
  turns.foldl (step around state) { shared := .empty, log := [] }

end ItemPortal

def Asked.isItemRoute {β : Type} : Asked β → Bool
  | .elsewhere _ => false
  | _ => true

def ItemPortal.viewerAnswers {γ β : Type} (portal : ItemPortal γ β) :
    List (Except Refusal (Content γ β)) :=
  (portal.log.filter fun entry => entry.role = .viewer && entry.asked.isItemRoute).map
    fun entry => entry.reply

end ZabbixPortal.Services
