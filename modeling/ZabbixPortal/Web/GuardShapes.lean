import ZabbixPortal.Foundation.Contractive
import ZabbixPortal.Foundation.OrderedMap
import Mathlib.Data.Rat.Defs

/-! The checks that an answer has the shape a page relies on. Each one answers the first
misfit it meets, under a path from the value it was given. -/

set_option autoImplicit false

namespace ZabbixPortal.Web.Guards

open Foundation

abbrev Key := List Char

/-- A parsed JSON text. The members of an object stand as `Object.entries` lists them, and a
number that is not finite (`1e999`) is none. -/
inductive Json where
  | null
  | flag (value : Bool)
  | number (value : Option ℚ)
  | text (value : String)
  | list (items : List Json)
  | object (members : List (Key × Json))

namespace Json

mutual

def depth : Json → Nat
  | .list items => depthOfItems items + 1
  | .object members => depthOfMembers members + 1
  | _ => 0

def depthOfItems : List Json → Nat
  | [] => 0
  | item :: rest => max item.depth (depthOfItems rest)

def depthOfMembers : List (Key × Json) → Nat
  | [] => 0
  | (_, value) :: rest => max value.depth (depthOfMembers rest)

end

def depthOf : Option Json → Nat
  | none => 0
  | some value => value.depth

theorem depth_item {items : List Json} {item : Json} (member : item ∈ items) :
    item.depth < (Json.list items).depth := by
  suffices bounded : item.depth ≤ depthOfItems items from Nat.lt_succ_of_le bounded
  induction items with
  | nil => exact absurd member List.not_mem_nil
  | cons head rest ih =>
      cases List.mem_cons.mp member with
      | inl same => exact same ▸ Nat.le_max_left _ _
      | inr later => exact (ih later).trans (Nat.le_max_right _ _)

theorem depth_member {members : List (Key × Json)} {entry : Key × Json}
    (member : entry ∈ members) : entry.2.depth < (Json.object members).depth := by
  suffices bounded : entry.2.depth ≤ depthOfMembers members from Nat.lt_succ_of_le bounded
  induction members with
  | nil => exact absurd member List.not_mem_nil
  | cons head rest ih =>
      cases List.mem_cons.mp member with
      | inl same => exact same ▸ Nat.le_max_left _ _
      | inr later => exact (ih later).trans (Nat.le_max_right _ _)

/-- `v[key]`, of an object whose inherited names no check asks for. -/
def field (members : List (Key × Json)) (key : Key) : Option Json := members.lookup key

theorem mem_of_field {members : List (Key × Json)} {key : Key} {value : Json}
    (found : field members key = some value) : (key, value) ∈ members := by
  induction members with
  | nil => cases found
  | cons head rest ih =>
      rw [field, List.lookup_cons] at found
      cases same : key == head.1 with
      | true =>
          rw [same] at found
          have equal : key = head.1 := eq_of_beq same
          cases found
          exact List.mem_cons.mpr (.inl (by rw [equal]))
      | false =>
          rw [same] at found
          exact List.mem_cons_of_mem _ (ih found)

theorem depth_field (members : List (Key × Json)) (key : Key) :
    depthOf (field members key) < (Json.object members).depth := by
  cases found : field members key with
  | none => exact Nat.succ_pos _
  | some value => exact depth_member (mem_of_field found)

end Json

structure Misfit where
  path : List Char
  why : String
deriving DecidableEq, Repr

/-- A check of a value; none is undefined. -/
abbrev Check := Option Json → Option Misfit

/-- `why` of `bad`. -/
def whyBad (value : Option Json) (kind : String) : String :=
  if value.isNone then "is missing" else "is not " ++ kind

def bad (value : Option Json) (kind : String) : Misfit := ⟨[], whyBad value kind⟩

def join (head rest : List Char) : List Char :=
  if rest = [] then head
  else if head = [] then rest
  else if rest.head? = some '[' then head ++ rest
  else head ++ '.' :: rest

def under (head : List Char) (m : Misfit) : Misfit := ⟨join head m.path, m.why⟩

def indexText (i : Nat) : List Char := '[' :: (Nat.toDigits 10 i ++ [']'])

def text : Check
  | some (.text _) => none
  | v => some (bad v "text")

def num : Check
  | some (.number (some _)) => none
  | v => some (bad v "a number")

def flag : Check
  | some (.flag _) => none
  | v => some (bad v "true or false")

def opt (check : Check) : Check
  | none => none
  | v => check v

def orNull (check : Check) : Check
  | some .null => none
  | v => check v

def listOf (item : Check) : Check
  | some (.list items) =>
      items.zipIdx.findSome? fun entry =>
        (item (some entry.1)).map (under (indexText entry.2))
  | v => some (bad v "a list")

def recordOf (value : Check) : Check
  | some (.object members) =>
      members.findSome? fun entry => (value (some entry.2)).map (under entry.1)
  | v => some (bad v "an object")

def shape (fields : List (Key × Check)) : Check
  | some (.object members) =>
      fields.findSome? fun entry => (entry.2 (Json.field members entry.1)).map (under entry.1)
  | v => some (bad v "an object")

def misfit (check : Check) (value : Option Json) : Option String :=
  (check value).map fun m =>
    (if m.path = [] then "the answer" else String.ofList m.path) ++ " " ++ m.why

section Kinds

variable (ν : Type)

/-- A check as the source writes it. `lazy` is a check of the fields of a shape, by its name. -/
inductive Kind where
  | text
  | num
  | flag
  | opt (kind : Kind)
  | orNull (kind : Kind)
  | listOf (kind : Kind)
  | recordOf (kind : Kind)
  | shape (fields : List (Key × Kind))
  | lazy (name : ν)

end Kinds

namespace Kind

variable {ν : Type}

mutual

def check (named : ν → Check) : Kind ν → Check
  | .text => Guards.text
  | .num => Guards.num
  | .flag => Guards.flag
  | .opt kind => Guards.opt (check named kind)
  | .orNull kind => Guards.orNull (check named kind)
  | .listOf kind => Guards.listOf (check named kind)
  | .recordOf kind => Guards.recordOf (check named kind)
  | .shape fields => Guards.shape (checks named fields)
  | .lazy name => named name

def checks (named : ν → Check) : List (Key × Kind ν) → List (Key × Check)
  | [] => []
  | (key, kind) :: rest => (key, check named kind) :: checks named rest

end

theorem checks_eq_map (named : ν → Check) (fields : List (Key × Kind ν)) :
    checks named fields = fields.map fun entry => (entry.1, entry.2.check named) := by
  induction fields with
  | nil => rfl
  | cons head rest ih => rw [checks, ih, List.map_cons]

variable (table : ν → List (Key × Kind ν))

/-- One unfolding of every name: the check of its own fields. -/
def unfoldNames (named : ν × Option Json → Option Misfit) (call : ν × Option Json) :
    Option Misfit :=
  Guards.shape (checks (fun name value => named (name, value)) (table call.1)) call.2

/-- The checks behind the names, each calling itself and the others through its fields. -/
def named (name : ν) (value : Option Json) : Option Misfit :=
  fixOf (fun call => Json.depthOf call.2) (unfoldNames table) (fun _ => none) (name, value)

def run (kind : Kind ν) : Check := kind.check (named table)

end Kind

inductive NodeName where
  | serviceNode
  | derivedNode
deriving DecidableEq, Repr

section Services

private abbrev Fields := List (Key × Kind NodeName)

def tag : Kind NodeName := .shape [("tag".toList, .text), ("value".toList, .text)]

def sliGap : Kind NodeName := .shape [("from".toList, .num), ("to".toList, .num)]

def serviceSla : Kind NodeName :=
  .shape [("slaid".toList, .text), ("name".toList, .text), ("slo".toList, .num),
    ("sli".toList, .num), ("errorBudget".toList, .num), ("meeting".toList, .flag)]

def serviceFields : Fields :=
  [("serviceid".toList, .text), ("name".toList, .text), ("status".toList, .num),
    ("algorithm".toList, .text), ("description".toList, .opt .text),
    ("tags".toList, .listOf tag),
    ("problems".toList, .listOf (.shape [("eventid".toList, .text), ("name".toList, .text),
      ("severity".toList, .text)])),
    ("sla".toList, .opt serviceSla), ("children".toList, .listOf (.lazy .serviceNode)),
    ("worst".toList, .num), ("descendants".toList, .num)]

/-- `{ ...fields, ...own }`: a name that is there keeps its place. -/
def spread (fields own : Fields) : Fields := (OrderedMap.ofList (fields ++ own)).entries

def derivedFields : Fields :=
  spread serviceFields [("kind".toList, .text), ("hostid".toList, .opt .text),
    ("dataStatus".toList, .text), ("coverage".toList, .orNull .num),
    ("children".toList, .listOf (.lazy .derivedNode))]

def nodeFields : NodeName → Fields
  | .serviceNode => serviceFields
  | .derivedNode => derivedFields

def services : Kind NodeName :=
  .shape [("tree".toList, .listOf (.lazy .serviceNode)), ("total".toList, .num),
    ("degraded".toList, .num), ("worst".toList, .num)]

def derivedServices : Kind NodeName :=
  .shape [("tree".toList, .listOf (.lazy .derivedNode)), ("total".toList, .num),
    ("degraded".toList, .num), ("worst".toList, .num), ("source".toList, .text),
    ("label".toList, .text), ("month".toList, .text), ("profile".toList, .text),
    ("target".toList, .num), ("closed".toList, .flag), ("gaps".toList, .listOf sliGap),
    ("noDataWindows".toList, .listOf sliGap)]

end Services

end ZabbixPortal.Web.Guards
