import ZabbixPortal.Foundation.Number
import ZabbixPortal.Foundation.Sorting

/-! What Zabbix holds of the items it collects, and how it answers the reads the portal makes of
them. Times are Unix seconds; history and trend values are the numbers their texts name. -/

set_option autoImplicit false

namespace ZabbixPortal.Services

open Foundation

/-- The configuration of an item. It is on one host, which may be in several groups. -/
structure ItemConfig where
  itemid : String
  name : String
  key_ : String
  value_type : String
  units : String
  state : String
  status : String
  delay : String
  flags : String
  tags : List (String × String)
  hostid : String
  host : String
  groupids : List String
  /-- Enabled, on a host that is monitored. -/
  monitored : Bool
  /-- Of a web scenario: answered only to a read with `webitems`. -/
  web : Bool
deriving DecidableEq, Repr

structure LastValue where
  lastvalue : String
  lastclock : String
  prevvalue : String
deriving DecidableEq, Repr

structure HistoryRow where
  clock : ℤ
  value : ℚ
deriving DecidableEq, Repr

structure TrendRow where
  itemid : String
  clock : ℤ
  num : Nat
  value_min : ℚ
  value_avg : ℚ
  value_max : ℚ
deriving DecidableEq, Repr

/-- What Zabbix holds. The items stay as they are configured; their values come and go. -/
structure ZabbixState where
  items : List ItemConfig
  /-- Whether Zabbix answers at a time. -/
  reachable : ℤ → Bool
  last : ℤ → String → LastValue
  /-- The history of an item at a time, by clock. -/
  history : ℤ → String → List HistoryRow
  trends : ℤ → String → List TrendRow

structure ZabbixSearch where
  /-- `text` holds `needle`. -/
  contains : String → String → Bool
  /-- `text` starts with `needle`. -/
  starts : String → String → Bool
  byName : ItemConfig → ItemConfig → Ordering

/-- What an `item.get` asks for; an absent member asks for nothing. -/
structure ItemParams where
  hostids : Option (List String) := none
  groupids : Option (List String) := none
  itemids : Option (List String) := none
  searchKey : Option String := none
  searchName : Option String := none
  searchByAny : Bool := false
  startSearch : Bool := false
  /-- `filter: { value_type: ['0', '3'], status: '0', state: '0' }` -/
  graphable : Bool := false
  monitored : Bool := false
  webitems : Bool := false
  sortByName : Bool := false
  limit : Option Nat := none

/-- An absent list of wanted values asks for nothing. -/
def asks (wanted : Option (List String)) (offered : List String) : Bool :=
  match wanted with
  | none => true
  | some values => offered.any fun value => value ∈ values

/-- The `search` of a read: every field it names, or any of them. -/
def ItemParams.searches (search : ZabbixSearch) (params : ItemParams) (item : ItemConfig) : Bool :=
  let found (text needle : String) :=
    if params.startSearch then search.starts text needle else search.contains text needle
  let fields := params.searchKey.toList.map (found item.key_) ++
    params.searchName.toList.map (found item.name)
  if params.searchByAny then fields.isEmpty || fields.any id else fields.all id

def ItemParams.wants (search : ZabbixSearch) (params : ItemParams) (item : ItemConfig) : Bool :=
  asks params.hostids [item.hostid] && asks params.groupids item.groupids &&
    asks params.itemids [item.itemid] && params.searches search item &&
    (!params.graphable ||
      (item.value_type = "0" || item.value_type = "3") && item.status = "0" && item.state = "0") &&
    (!params.monitored || item.monitored) && (params.webitems || !item.web)

def itemGet (search : ZabbixSearch) (items : List ItemConfig) (params : ItemParams) :
    List ItemConfig :=
  let found := items.filter (params.wants search)
  let found := if params.sortByName then sortBy search.byName found else found
  match params.limit with
  | none => found
  | some limit => found.take limit

/-- `history.get` of one item over `[start, stop]`, oldest first. -/
def historyGet (rows : List HistoryRow) (start stop : ℤ) (limit : Nat) : List HistoryRow :=
  (rows.filter fun row => start ≤ row.clock ∧ row.clock ≤ stop).take limit

def trendGet (trends : String → List TrendRow) (itemids : List String) (start stop : ℤ) :
    List TrendRow :=
  (itemids.eraseDups.flatMap trends).filter fun row => start ≤ row.clock ∧ row.clock ≤ stop

theorem mem_of_mem_itemGet {search : ZabbixSearch} {items : List ItemConfig} {params : ItemParams}
    {item : ItemConfig} (member : item ∈ itemGet search items params) :
    item ∈ items ∧ params.wants search item = true := by
  have found : item ∈ items.filter (params.wants search) := by
    unfold itemGet at member
    dsimp only at member
    have sorted : item ∈ (if params.sortByName then
        sortBy search.byName (items.filter (params.wants search))
        else items.filter (params.wants search)) := by
      cases limit : params.limit with
      | none => rwa [limit] at member
      | some count =>
          rw [limit] at member
          exact List.mem_of_mem_take member
    split at sorted
    · exact (mem_sortBy _ _ _).mp sorted
    · exact sorted
  exact List.mem_filter.mp found

/-- A read by ids that asks for nothing else is answered with every item of these ids. -/
theorem mem_itemGet_itemids {search : ZabbixSearch} {items : List ItemConfig} {ids : List String}
    {item : ItemConfig} :
    item ∈ itemGet search items { itemids := some ids, webitems := true } ↔
      item ∈ items ∧ item.itemid ∈ ids := by
  have wanted : ItemParams.wants search { itemids := some ids, webitems := true } item =
      decide (item.itemid ∈ ids) := by
    simp [ItemParams.wants, ItemParams.searches, asks]
  unfold itemGet
  dsimp only
  rw [if_neg (by decide), List.mem_filter, wanted, decide_eq_true_iff]

end ZabbixPortal.Services
