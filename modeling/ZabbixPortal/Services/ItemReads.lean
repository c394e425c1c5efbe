import ZabbixPortal.Security.Auth
import ZabbixPortal.Services.CachedReads
import ZabbixPortal.Services.Capacity
import ZabbixPortal.Sli.Time

/-! What the item routes read of Zabbix, and under which keys the cache keeps it. Times are Unix
seconds. -/

set_option autoImplicit false

namespace ZabbixPortal.Services

open Foundation Core
open Security (Role roleAllows)

/-! ## What a viewer may not read -/

/-- Interface items: `net.if.in[...]`, `net.if.out[...]`, `net.if.speed[...]` and their like. -/
def isNetworkKey (key : String) : Bool := startsWith key "net.if"

def hidesNetwork (role : Role) : Bool := !roleAllows role .operator

def withoutNetworkItems {α : Type} (key : α → String) (items : List α) : List α :=
  items.filter fun item => !isNetworkKey (key item)

inductive Refusal where
  | badRequest (message : String)
  | forbidden (message : String)
  /-- Zabbix did not answer. -/
  | unavailable
deriving DecidableEq, Repr

def roleText : Role → String
  | .viewer => "viewer"
  | .operator => "operator"
  | .admin => "admin"

/-! ## Query texts -/

/-- `/^\d+$/` -/
def isId (value : String) : Bool := value ≠ "" && value.toList.all Char.isDigit

def requireId (value : Option String) (name : String) : Except Refusal String :=
  match value.filter isId with
  | some id => .ok id
  | none => .error (.badRequest (name ++ " is required and must be a numeric Zabbix id."))

def optionalId (value : Option String) (name : String) : Except Refusal (Option String) :=
  if value.getD "" = "" then .ok none else (requireId value name).map some

/-- An integer parameter: out of range it is clamped, and not a number it is the fallback. -/
def intParam (value : Option String) (fallback least most : ℤ) : ℤ :=
  let parsed := value.bind fun text =>
    if trim text.toList = [] then none else (toNumber text).map fun n => n.num.tdiv n.den
  min (max (parsed.getD fallback) least) most

def commaParts (raw : String) : List String :=
  (raw.toList.splitOn ',').map fun part => String.ofList (trim part)

def joined (ids : List String) : String :=
  String.ofList ([','].intercalate (ids.map String.toList))

def requireIds (parts : List String) (name : String) : Except Refusal (List String) :=
  (parts.mapM fun part => requireId (some part) name).map List.eraseDups

/-! ## Answers -/

structure ItemRow where
  itemid : String
  name : String
  key_ : String
  value_type : String
  units : String
  lastvalue : String
  lastclock : String
  state : String
  status : String
  delay : String
  flags : String
  tags : List (String × String)
  /-- Id and name, when items are read by their ids. -/
  hosts : Option (String × String)
deriving DecidableEq, Repr

structure LatestRow where
  itemid : String
  name : String
  key_ : String
  lastvalue : String
  lastclock : String
  prevvalue : String
  units : String
  value_type : String
  state : String
  hosts : String × String
deriving DecidableEq, Repr

structure LatestPage where
  items : List LatestRow
  truncated : Bool
  total : Nat
  page : ℤ
  pageSize : ℤ
deriving DecidableEq, Repr

structure LatestItems where
  items : List LatestRow
  truncated : Bool
deriving DecidableEq, Repr

/-- An id of the light first pass of a page. -/
structure LatestId where
  id : String
  net : Bool
deriving DecidableEq, Repr

/-- What is kept under the keys of the cache: `γ` is what a graph is drawn as and `β` what the
other routes keep. -/
inductive Content (γ β : Type) where
  | items (rows : List ItemRow)
  | latestPage (page : LatestPage)
  | latestIds (rows : List LatestId)
  | latest (list : LatestItems)
  | itemKeys (rows : List (String × String))
  | graph (graph : γ)
  | capacity (report : CapacityReport)
  | elsewhere (value : β)

/-! ## Reads of Zabbix -/

structure ItemQuery where
  hostid : Option String
  itemids : Option (List String)
  search : Option String
  graphable : Bool
deriving DecidableEq, Repr

structure LatestFilter where
  hostid : Option String
  groupid : Option String
deriving DecidableEq, Repr

structure OtherRead (β : Type) where
  request : Request
  fetch : ZabbixState → ℤ → β
  apart : ∀ start ∈ ["items:", "latest:", "itemkeys:", "graph:", "capacity:"],
    startsWith request.key start = false

inductive KeyedRead (β : Type) where
  | items (query : ItemQuery)
  | latestIds (filter : LatestFilter) (needle : String)
  | latest (filter : LatestFilter) (search : Option String)
  | itemKeys (ids : List String)
  | graph (ids : List String) (start stop points : ℤ)
  | capacity (days top : ℤ)
  | elsewhere (read : OtherRead β)

def LATEST_LIMIT : Nat := 500
def LATEST_ID_LIMIT : Nat := 20000
def MAX_ITEMIDS : Nat := 50
def DAY : ℤ := 86400
def HISTORY_PAGE : Nat := 100000
def MAX_RANGE : ℤ := 400 * DAY
def HISTORY_FILL_WINDOW : ℤ := 7 * DAY
def MAX_GRAPH_ITEMS : Nat := 4
def CAPACITY_TTL : ℤ := 300000

def orEmpty (text : Option String) : String := text.getD ""

def itemKeysKey (ids : List String) : String := "itemkeys:" ++ joined ids

def graphKey (ids : List String) (start stop points : ℤ) : String :=
  "graph:" ++ joined ids ++ ":" ++ toString start ++ ":" ++ toString stop ++ ":" ++ toString points

/-- The key a read is kept under and how; `now` in seconds. -/
def KeyedRead.request {β : Type} (now : ℤ) : KeyedRead β → Request
  | .items q =>
      { key := "items:" ++ orEmpty q.hostid ++ ":" ++ orEmpty q.search ++ ":" ++
          (if q.graphable then "1" else "0") ++ ":" ++ ((q.itemids.map joined).getD "")
        ttlMs := 30000
        options := .plain }
  | .latestIds filter needle =>
      { key := "latest:ids:" ++ orEmpty filter.hostid ++ ":" ++ orEmpty filter.groupid ++ ":" ++
          needle
        ttlMs := 15000
        options := .plain }
  | .latest filter search =>
      { key := "latest:" ++ orEmpty filter.hostid ++ ":" ++ orEmpty filter.groupid ++ ":" ++
          orEmpty search
        ttlMs := 15000
        options := .plain }
  | .itemKeys ids => { key := itemKeysKey ids, ttlMs := 300000, options := .plain }
  | .graph ids start stop points =>
      { key := graphKey ids start stop points
        ttlMs := if stop ≥ now - 60 then 15000 else 600000
        options := .plain }
  | .capacity days top =>
      { key := "capacity:" ++ toString days ++ ":" ++ toString top
        ttlMs := CAPACITY_TTL
        options := { staleMs := some CAPACITY_TTL, staleIfError := true, pin := false } }
  | .elsewhere read => read.request

/-- What a graph of an item is drawn from: its hourly trends and its history. -/
structure SeriesRead where
  item : ItemConfig
  trends : List TrendRow
  history : List HistoryRow

structure GraphRead where
  start : ℤ
  stop : ℤ
  points : ℤ
  series : List SeriesRead

/-- What the portal runs on: Zabbix's searches, the browser's order of names, the zone of months,
what a graph is drawn as from the rows that were read, and the size of a value. -/
structure Surroundings (γ β : Type) where
  search : ZabbixSearch
  naturalCompare : String → String → Ordering
  zone : Sli.Zone
  draw : GraphRead → γ
  approxBytes : Content γ β → Nat

section Fetches

variable {γ β : Type} (around : Surroundings γ β) (state : ZabbixState) (now : ℤ)

def LatestFilter.params (filter : LatestFilter) : ItemParams :=
  { hostids := (filter.hostid.filter (· ≠ "")).map fun id => [id]
    groupids := (filter.groupid.filter (· ≠ "")).map fun id => [id] }

def isGraphable (item : ItemConfig) : Bool :=
  (item.value_type = "0" || item.value_type = "3") && item.status = "0" && item.state = "0"

def itemRow (withHosts : Bool) (item : ItemConfig) : ItemRow :=
  let last := state.last now item.itemid
  { itemid := item.itemid, name := item.name, key_ := item.key_, value_type := item.value_type
    units := item.units, lastvalue := last.lastvalue, lastclock := last.lastclock
    state := item.state, status := item.status, delay := item.delay, flags := item.flags
    tags := item.tags, hosts := if withHosts then some (item.hostid, item.host) else none }

def latestRow (item : ItemConfig) : LatestRow :=
  let last := state.last now item.itemid
  { itemid := item.itemid, name := item.name, key_ := item.key_, lastvalue := last.lastvalue
    lastclock := last.lastclock, prevvalue := last.prevvalue, units := item.units
    value_type := item.value_type, state := item.state, hosts := (item.hostid, item.host) }

/-- Items for one host or by their ids, the same list for every role. -/
def findItems (q : ItemQuery) : List ItemRow :=
  let items := itemGet around.search state.items
    { hostids := (q.hostid.filter (· ≠ "")).map fun id => [id]
      itemids := q.itemids
      searchKey := q.search.filter (· ≠ "")
      graphable := q.graphable
      webitems := true
      sortByName := true }
  (if q.graphable then items.filter isGraphable else items).map
    (itemRow state now q.itemids.isSome)

def latestIdRows (filter : LatestFilter) (needle : String) : List LatestId :=
  let wanted := if needle = "" then none else some needle
  let rows := itemGet around.search state.items
    { filter.params with
      searchName := wanted
      searchKey := wanted
      searchByAny := true
      monitored := true
      webitems := true
      limit := some LATEST_ID_LIMIT }
  (sortBy (fun a b => (around.naturalCompare a.name b.name).then
    (around.naturalCompare a.itemid b.itemid)) rows).map
    fun item => { id := item.itemid, net := isNetworkKey item.key_ }

def latestItems (filter : LatestFilter) (text : Option String) : LatestItems :=
  let items := itemGet around.search state.items
    { filter.params with
      searchName := text.filter (· ≠ "")
      monitored := true
      webitems := true
      sortByName := true
      limit := some LATEST_LIMIT }
  { items := items.map (latestRow state now), truncated := items.length ≥ LATEST_LIMIT }

def itemKeyRows (ids : List String) : List (String × String) :=
  (itemGet around.search state.items { itemids := some ids, webitems := true }).map
    fun item => (item.itemid, item.key_)

/-- History over `[start, stop]`, halving the window whenever a page comes back full. -/
def fetchHistory (rows : List HistoryRow) (start stop : ℤ) : List HistoryRow :=
  let page := historyGet rows start stop HISTORY_PAGE
  if page.length < HISTORY_PAGE ∨ stop - start < 2 then page
  else
    let mid := (start + stop) / 2
    fetchHistory rows start mid ++ fetchHistory rows (mid + 1) stop
termination_by (stop - start).toNat

/-- The rows a graph of an item is drawn from: history for up to a day, longer trends with history
for the recent span they miss. -/
def readSeries (trendRows : List TrendRow) (start stop : ℤ) (item : ItemConfig) : SeriesRead :=
  let history := state.history now item.itemid
  if stop - start > DAY then
    let trends := sortBy (fun a b : TrendRow => compare a.clock b.clock)
      (trendRows.filter fun row => row.itemid = item.itemid)
    let missing := (trends.getLast?.map fun row => row.clock + 3600).getD start
    let fillFrom := max (max start missing) (now - HISTORY_FILL_WINDOW)
    { item, trends
      history := if fillFrom < stop then fetchHistory history fillFrom (stop - 1) else [] }
  else { item, trends := [], history := fetchHistory history start (stop - 1) }

def getGraph (ids : List String) (start stop points : ℤ) : Except Refusal γ :=
  let items := itemGet around.search state.items { itemids := some ids, webitems := true }
  let byId := OrderedMap.ofList (items.map fun item => (item.itemid, item))
  let missing := ids.filter fun id => !byId.contains id
  let ordered := ids.filterMap byId.get?
  let nonNumeric := ordered.filter fun item => item.value_type ≠ "0" && item.value_type ≠ "3"
  if missing ≠ [] then
    .error (.badRequest ("Unknown itemids: " ++ ", ".intercalate missing ++ "."))
  else if nonNumeric ≠ [] then
    .error (.badRequest ("Only numeric items can be graphed; not: " ++
      ", ".intercalate (nonNumeric.map fun item => item.name) ++ "."))
  else
    let trendRows := if stop - start > DAY then fetchTrendsSliced state now ids start (stop - 1)
      else []
    .ok (around.draw
      { start, stop, points, series := ordered.map (readSeries state now trendRows start stop) })

def fetchRead (read : KeyedRead β) : Except Refusal (Content γ β) :=
  if state.reachable now then
    match read with
    | .items query => .ok (.items (findItems around state now query))
    | .latestIds filter needle => .ok (.latestIds (latestIdRows around state filter needle))
    | .latest filter text => .ok (.latest (latestItems around state now filter text))
    | .itemKeys ids => .ok (.itemKeys (itemKeyRows around state ids))
    | .graph ids start stop points =>
        (getGraph around state now ids start stop points).map .graph
    | .capacity days top => .ok (.capacity (getCapacity around.search state now days top.toNat))
    | .elsewhere read => .ok (.elsewhere (read.fetch state now))
  else .error .unavailable

end Fetches

end ZabbixPortal.Services
