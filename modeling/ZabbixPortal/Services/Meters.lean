import ZabbixPortal.Foundation.Firsts
import ZabbixPortal.Foundation.Number
import ZabbixPortal.Foundation.OrderedMap
import ZabbixPortal.Foundation.Pattern
import ZabbixPortal.Foundation.Sorting

/-! The gauges of a Zabbix dashboard as meters: one for each item, and for those without one, one for
each title. -/

set_option autoImplicit false

namespace ZabbixPortal.Services

open Foundation

structure ThresholdText where
  threshold : String
  color : String
deriving DecidableEq, Repr

/-- A gauge widget as the dashboard holds it, before the item it points at is known. -/
structure MeterDefinition where
  title : String
  page : String
  itemid : Option String
  min : Option String
  max : Option String
  thresholds : List ThresholdText
deriving DecidableEq, Repr

/-- A place on a page; Zabbix gives it as text or as a number. -/
inductive Position
  | text (value : String)
  | number (value : ℚ)

structure ZField where
  type : String
  name : String
  value : String

structure ZWidget where
  type : String
  name : Option String
  x : Option Position
  y : Option Position
  fields : Option (List ZField)

structure ZPage where
  name : Option String
  widgets : Option (List ZWidget)

structure ZDashboard where
  pages : Option (List ZPage)

/-- Zabbix field type of an item reference. -/
def FIELD_ITEM : String := "4"

/-- `Number(value ?? 0)` -/
def coordinate : Option Position → Option ℚ
  | none => some 0
  | some (.text value) => toNumber value
  | some (.number value) => some value

/-- How two coordinates differ; what is no number differs from nothing. -/
def difference : Option ℚ → Option ℚ → Ordering
  | some a, some b => compareNumbers a b
  | _, _ => .eq

/-- Top row down, left to right. -/
def compareWidgets (a b : ZWidget) : Ordering :=
  (difference (coordinate a.y) (coordinate b.y)).then (difference (coordinate a.x) (coordinate b.x))

structure Gauge where
  page : ZPage
  pageIndex : Nat
  widget : ZWidget

def Gauge.fields (gauge : Gauge) : List ZField := gauge.widget.fields.getD []

def Gauge.get (gauge : Gauge) (name : String) : Option String :=
  (gauge.fields.find? fun f => f.name = name).map ZField.value

def Gauge.itemid (gauge : Gauge) : Option String :=
  (gauge.fields.find? fun f => f.type = FIELD_ITEM).map ZField.value

def Gauge.title (gauge : Gauge) : String := .ofList (trim (gauge.widget.name.getD "").toList)

def gaugesOf (dashboard : ZDashboard) : List Gauge :=
  (dashboard.pages.getD []).zipIdx.flatMap fun page =>
    (sortBy compareWidgets ((page.1.widgets.getD []).filter fun w => w.type = "gauge")).map fun w =>
      ⟨page.1, page.2, w⟩

/-- `^thresholds\.(\d+)\.(threshold|color)$` -/
def thresholdField : Pattern :=
  .sequence [.word (· = ·) "thresholds.".toList, .group 1 (.repeated Char.isDigit 1 none true),
    .one (· = '.'), .group 2 (.choice [.word (· = ·) "threshold".toList, .word (· = ·) "color".toList]), .stop]

def thresholdPart (f : ZField) : Option (List Char × List Char) := do
  let found ← thresholdField.exec f.name.toList
  let index ← found.group? 1
  let half ← found.group? 2
  return (index, half)

def addHalf (byIndex : OrderedMap (List Char) (Option String × Option String)) (f : ZField) :
    OrderedMap (List Char) (Option String × Option String) :=
  match thresholdPart f with
  | none => byIndex
  | some (index, half) =>
      let entry := (byIndex.get? index).getD (none, none)
      byIndex.set index (if half = "threshold".toList then (some f.value, entry.2) else (entry.1, some f.value))

def thresholdsOf (fields : List ZField) : List ThresholdText :=
  (fields.foldl addHalf .empty).values.filterMap fun entry =>
    match entry with
    | (some threshold, some color) => some ⟨threshold, color⟩
    | _ => none

/-- `page.name?.trim() || 'Page n'` -/
def pageTitle (page : ZPage) (pageIndex : Nat) : String :=
  let name := trim (page.name.getD "").toList
  if name = [] then s!"Page {pageIndex + 1}" else .ofList name

def Gauge.definition (gauge : Gauge) : MeterDefinition where
  title := gauge.title
  page := pageTitle gauge.page gauge.pageIndex
  itemid := gauge.itemid
  min := gauge.get "min"
  max := gauge.get "max"
  thresholds := thresholdsOf gauge.fields

section Keys

-- `toLowerCase`
variable (lower : List Char → List Char)

def isKeyChar (c : Char) : Bool := ('a' ≤ c && c ≤ 'z') || ('0' ≤ c && c ≤ '9')

/-- Letters and digits only. -/
def titleKey (title : String) : String := .ofList ((lower title.toList).filter isKeyChar)

def itemOf (itemid : Option String) : Option String := itemid.filter fun id => id ≠ ""

def gaugeKey (gauge : Gauge) : String :=
  match itemOf gauge.itemid with
  | some itemid => "item:" ++ itemid
  | none => "title:" ++ titleKey lower gauge.title

/-- The gauge widgets, one meter for each item: a later page that repeats it adds nothing, and a widget
with no item is repeated only by its title. -/
def definitionsFrom (dashboard : ZDashboard) : List MeterDefinition :=
  (firsts (gaugeKey lower) (gaugesOf dashboard)).map Gauge.definition

def meterId (d : MeterDefinition) : String :=
  match itemOf d.itemid with
  | some itemid => "item-" ++ itemid
  | none => "title-" ++ if titleKey lower d.title = "" then "untitled" else titleKey lower d.title

end Keys

end ZabbixPortal.Services
