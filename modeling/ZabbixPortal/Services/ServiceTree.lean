import ZabbixPortal.Foundation.Number
import ZabbixPortal.Foundation.OrderedMap
import ZabbixPortal.Foundation.Sorting
import ZabbixPortal.Foundation.Walks

/-! The Zabbix service tree: the services as a hierarchy, a shared one under each of its parents,
with the SLA each is measured against. -/

set_option autoImplicit false

namespace ZabbixPortal.Services

open Foundation

structure ServiceProblem where
  eventid : String
  name : String
  severity : String
deriving DecidableEq, Repr

/-- A row of `service.get`. The status and the place in the order are the numbers Zabbix writes
as text; of a parent or a child only the id is read. -/
structure ZService where
  serviceid : String
  name : String
  /-- -1 is OK, otherwise a severity. -/
  status : ℤ
  algorithm : String
  sortorder : ℤ
  description : String
  parents : List String
  children : List String
  tags : List (String × String)
  problemEvents : List ServiceProblem
deriving DecidableEq, Repr

structure ServiceSla where
  slaid : String
  name : String
  slo : Option ℚ
  sli : ℚ
  errorBudget : ℚ
  meeting : Bool
deriving DecidableEq, Repr

structure ZSla where
  slaid : String
  name : String
  slo : String
deriving DecidableEq, Repr

/-- What `sla.getsli` says of one period: the services, and a figure and budget for each. -/
structure ZSli where
  serviceids : List String
  sli : List (ℚ × ℚ)
deriving DecidableEq, Repr

def slaRow (sla : ZSla) (cell : Option (ℚ × ℚ)) : ServiceSla :=
  let slo := toNumber sla.slo
  let achieved := (cell.map (·.1)).getD 0
  { slaid := sla.slaid
    name := sla.name
    slo
    sli := achieved
    errorBudget := (cell.map (·.2)).getD 0
    meeting := slo.any (· ≤ achieved) }

/-- The SLA each service is measured against: the first, if several apply. -/
def slaByService (slas : List (ZSla × ZSli)) : OrderedMap String ServiceSla :=
  slas.foldl (fun out (sla, sli) =>
    sli.serviceids.zipIdx.foldl (fun out (serviceid, i) =>
      if out.contains serviceid then out
      else out.set serviceid (slaRow sla sli.sli[i]?)) out) .empty

structure ServiceInfo where
  serviceid : String
  name : String
  status : ℤ
  algorithm : String
  description : Option String
  tags : List (String × String)
  problems : List ServiceProblem
  sla : Option ServiceSla
  /-- Worst status anywhere in this subtree, including itself. -/
  worst : ℤ
  /-- How many services sit below this one. -/
  descendants : Nat
deriving DecidableEq, Repr

inductive ServiceTree where
  | node (info : ServiceInfo) (children : List ServiceTree)

namespace ServiceTree

def info : ServiceTree → ServiceInfo
  | .node info _ => info

def children : ServiceTree → List ServiceTree
  | .node _ children => children

end ServiceTree

structure ServicesResponse where
  tree : List ServiceTree
  total : Nat
  /-- Services currently carrying a problem. -/
  degraded : Nat
  worst : ℤ

def MAX_DEPTH : Nat := 12

section Build

variable (localeCompare : String → String → Ordering) (slas : OrderedMap String ServiceSla)
  (services : List ZService)

def compareServices (a b : ZService) : Ordering :=
  (compare a.sortorder b.sortorder).then (localeCompare a.name b.name)

def serviceById : OrderedMap String ZService :=
  .ofList (services.map fun s => (s.serviceid, s))

def knownChildren (svc : ZService) : List ZService :=
  svc.children.filterMap (serviceById services).get?

def ownInfo (svc : ZService) : ServiceInfo :=
  { serviceid := svc.serviceid
    name := svc.name
    status := svc.status
    algorithm := svc.algorithm
    description := if svc.description = "" then none else some svc.description
    tags := svc.tags
    problems := svc.problemEvents
    sla := slas.get? svc.serviceid
    worst := svc.status
    descendants := 0 }

/-- `build`, with the levels that are left before `MAX_DEPTH`: the node and the ids of the
services below it, each once. -/
def build : Nat → List String → ZService → ServiceTree × List String
  | 0, _, svc => (.node (ownInfo slas svc) [], [])
  | left + 1, path, svc =>
      let nextPath := svc.serviceid :: path
      let kids := sortBy (compareServices localeCompare)
        ((knownChildren services svc).filter fun c => c.serviceid ∉ nextPath)
      let built := kids.map (build left nextPath)
      let below := (built.flatMap fun (child, ids) => child.info.serviceid :: ids).dedup
      (.node { ownInfo slas svc with
          worst := (built.map fun part => part.1.info.worst).foldl max svc.status
          descendants := below.length } (built.map (·.1)), below)

/-- The services nothing else contains: the top-level business view. -/
def rootServices : List ZService :=
  sortBy (compareServices localeCompare) (services.filter fun s => s.parents.isEmpty)

def getServiceTree : ServicesResponse :=
  { tree := (rootServices localeCompare services).map fun r =>
      (build localeCompare slas services MAX_DEPTH [] r).1
    total := services.length
    degraded := (services.filter fun s => s.status ≥ 0).length
    worst := (services.map (·.status)).foldl max (-1) }

end Build

end ZabbixPortal.Services
