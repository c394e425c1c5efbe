import ZabbixPortal.Domain.Problems
import ZabbixPortal.Sli.Engine

/-! A service tree built from the estate itself: business services, then the sites
with their devices by class, WAN legs under their redundant paths. -/

set_option autoImplicit false

namespace ZabbixPortal.Sli

open Foundation Domain

inductive DerivedKind where
  | root | business | site | classGroup | wanPath | host | web
deriving DecidableEq, Repr

structure ServiceSla where
  slo : ℚ
  sli : ℚ
  errorBudget : ℚ
  meeting : Bool
deriving DecidableEq

structure NodeProblem where
  eventid : String
  name : String
  severity : Nat
deriving DecidableEq, Repr

structure NodeInfo where
  serviceid : String
  name : String
  kind : DerivedKind
  hostid : Option String
  /-- -1 is OK, otherwise a severity. -/
  status : ℤ
  problems : List NodeProblem
  sla : Option ServiceSla
  worst : ℤ
  descendants : Nat
  dataStatus : DataStatus
  coverage : Option ℚ
deriving DecidableEq

inductive DerivedServiceNode where
  | node (info : NodeInfo) (children : List DerivedServiceNode)

namespace DerivedServiceNode

def info : DerivedServiceNode → NodeInfo
  | .node info _ => info

def children : DerivedServiceNode → List DerivedServiceNode
  | .node _ children => children

mutual

def subtree : DerivedServiceNode → List DerivedServiceNode
  | .node info children => .node info children :: subtrees children

def subtrees : List DerivedServiceNode → List DerivedServiceNode
  | [] => []
  | child :: rest => subtree child ++ subtrees rest

end

def update (change : NodeInfo → NodeInfo) : DerivedServiceNode → DerivedServiceNode
  | .node info children => .node (change info) children

end DerivedServiceNode

open DerivedServiceNode

def slaFor (sli errorBudget : Option ℚ) (target : ℚ) : Option ServiceSla :=
  sli.map fun sli =>
    { slo := target, sli, errorBudget := errorBudget.getD 0, meeting := sli ≥ target }

def groupStatus (hosts : List SliHost) : DataStatus :=
  if hosts.isEmpty ∨ hosts.all fun h => h.dataStatus = .nodata then .nodata
  else if hosts.any fun h => h.dataStatus ≠ .ok then .incomplete
  else .ok

def budget (hosts : List SliHost) : Option ℚ :=
  if hosts.any fun h => h.errorBudget.isSome then
    some (hosts.map fun h => h.errorBudget.getD 0).sum
  else none

def bySeverity {α : Type} (severity : α → Nat) (items : List α) : List α :=
  sortBy (fun a b => compare (severity b) (severity a)) items

/-- `finish`: what a node takes from its children. -/
def finish (info : NodeInfo) (children : List DerivedServiceNode) : DerivedServiceNode :=
  .node { info with
    worst := (children.map fun c => c.info.worst).foldl max info.status
    descendants := ((subtrees children).map fun n => n.info.serviceid).dedup.length
    problems :=
      if info.problems.isEmpty then
        (bySeverity NodeProblem.severity (children.flatMap fun c => c.info.problems)).take 5
      else info.problems } children

def problemsByHost (problems : List ZbxProblem) : OrderedMap String (List ZbxProblem) :=
  (groupBy (fun p => p.hostid.getD "") (problems.filter fun p => p.hostid.getD "" ≠ ""))

section Build

variable (intl : Intl) (report : SliReport) (problems : List ZbxProblem)

def hostNode (h : SliHost) : DerivedServiceNode :=
  let listed := ((problemsByHost problems).get? h.hostid).getD []
  let ordered := bySeverity ZbxProblem.severity listed
  finish {
    serviceid := "derived:host:" ++ h.hostid
    name := h.name
    kind := .host
    hostid := some h.hostid
    status := (ordered.head?.map fun p => (p.severity : ℤ)).getD (-1)
    problems := (ordered.take 5).map fun p => ⟨p.eventid, p.name, p.severity⟩
    sla := slaFor h.sli h.errorBudget report.target
    worst := -1
    descendants := 0
    dataStatus := h.dataStatus
    coverage := some h.coverage } []

def webNode (w : SliWeb) : DerivedServiceNode :=
  finish {
    serviceid := "derived:web:" ++ w.itemid
    name := "Web check: " ++ w.name
    kind := .web
    hostid := none
    status := -1
    problems := []
    sla := slaFor w.sli none report.target
    worst := -1
    descendants := 0
    dataStatus := w.dataStatus
    coverage := some w.coverage } []

def groupNode (id name : String) (kind : DerivedKind) (hosts : List SliHost)
    (children : List DerivedServiceNode) (group : Option SliGroup) : DerivedServiceNode :=
  let g := group.getD (aggregate (.node id) name hosts report.target)
  let measured := hosts.filter fun h => h.sli.isSome
  finish {
    serviceid := id
    name
    kind
    hostid := none
    status := -1
    problems := []
    sla := slaFor g.sli (budget measured) report.target
    worst := -1
    descendants := 0
    dataStatus := groupStatus hosts
    coverage :=
      if measured.isEmpty then none
      else some ((measured.map fun h => h.coverage).sum / measured.length) } children

def isBusiness (h : SliHost) : Bool := h.deviceClass = .web || h.deviceClass = .server

def byName (hosts : List SliHost) : List SliHost :=
  sortBy (fun a b => intl.naturalCompare a.name b.name) hosts

def businessHosts : List SliHost := byName intl (report.hosts.filter isBusiness)

/-- Web checks are measured too, so they are part of the mean. -/
def businessFigures : List ℚ :=
  (report.web.map (·.sli) ++ (businessHosts intl report).map (·.sli)).filterMap id

def businessNode : DerivedServiceNode :=
  let hosts := businessHosts intl report
  let node := groupNode report "derived:business" "Business services" .business hosts
    (report.web.map (webNode report) ++ hosts.map (hostNode report problems)) none
  match mean (businessFigures intl report) with
  | none => node
  | some sli => node.update fun info => { info with
      sla := slaFor (some sli) none report.target
      dataStatus := if report.web.any fun w => w.dataStatus = .ok then .ok else .incomplete }

def legsIn (members : List SliHost) (p : SliPath) : List SliHost :=
  byName intl (members.filter fun m => p.legs.any fun l => l.hostid = m.hostid)

def pathNode (members : List SliHost) (p : SliPath) : DerivedServiceNode :=
  let legs := legsIn intl members p
  (groupNode report ("derived:wan:" ++ p.name) ("WAN path: " ++ p.name) .wanPath legs
    (legs.map (hostNode report problems)) none).update fun info => { info with
      sla := slaFor p.sli none report.target
      dataStatus := p.dataStatus
      coverage := some p.coverage }

/-- Members that are a leg of no path at all, wherever that path is shown. -/
def looseLegs (members : List SliHost) : List SliHost :=
  byName intl (members.filter fun m =>
    !(report.wanPaths.any fun p => p.legs.any fun l => l.hostid = m.hostid))

def classNode (code : Nat) (cls : DeviceClass) (members : List SliHost) : DerivedServiceNode :=
  let id := s!"derived:site:{code}:{cls.text}"
  let label := DEVICE_CLASS_LABELS cls
  if cls ≠ .wanLink then
    groupNode report id label .classGroup members
      ((byName intl members).map (hostNode report problems)) none
  else
    let pathNodes := (report.wanPaths.filter fun p => p.site.map (·.code) = some code).map
      (pathNode intl report problems members)
    groupNode report id label .classGroup members
      (pathNodes ++ (looseLegs intl report members).map (hostNode report problems)) none

/-- WAN links first, then the classes by name. -/
def compareClasses (a b : DeviceClass × List SliHost) : Ordering :=
  if a.1 = .wanLink then .lt
  else if b.1 = .wanLink then .gt
  else intl.naturalCompare a.1.text b.1.text

def classNodes (code : Nat) (hosts : List SliHost) : List DerivedServiceNode :=
  (sortBy (compareClasses intl) (groupBy (·.deviceClass) hosts).entries).map fun (cls, members) =>
    classNode intl report problems code cls members

def siteNameOf (hosts : List SliHost) : String :=
  ((hosts.head?.bind (·.site)).map (·.name)).getD ""

def siteNode (code : Nat) (hosts : List SliHost) : DerivedServiceNode :=
  groupNode report s!"derived:site:{code}" s!"{code} · {siteNameOf hosts}" .site hosts
    (classNodes intl report problems code hosts)
    (report.sites.find? fun s => s.key = .site (some code))

/-- The devices of each site, business hosts left out. -/
def bySite : OrderedMap Nat (List SliHost) :=
  groupBy (fun h => (h.site.map (·.code)).getD 0)
    (report.hosts.filter fun h => !isBusiness h && h.site.isSome)

def unassigned : List SliHost :=
  report.hosts.filter fun h => !isBusiness h && h.site.isNone

def siteNodes : List DerivedServiceNode :=
  (sortBy (fun a b => compare a.1 b.1) (bySite report).entries).map fun (code, hosts) =>
    siteNode intl report problems code hosts

def unassignedNodes : List DerivedServiceNode :=
  let hosts := unassigned report
  if hosts.isEmpty then []
  else [groupNode report "derived:unassigned" "Unassigned" .site hosts
    ((byName intl hosts).map (hostNode report problems)) none]

def businessNodes : List DerivedServiceNode :=
  if (businessHosts intl report).isEmpty ∧ report.web.isEmpty then []
  else [businessNode intl report problems]

def rootNode : DerivedServiceNode :=
  groupNode report "derived:estate" "HCML estate" .root report.hosts
    (businessNodes intl report problems ++
      (siteNodes intl report problems ++ unassignedNodes intl report problems))
    (some report.overall)

structure DerivedServicesResponse where
  tree : List DerivedServiceNode
  total : Nat
  /-- Nodes that carry a problem themselves. -/
  degraded : Nat
  worst : ℤ
  month : String
  profile : SliProfile
  target : ℚ
  closed : Bool
  gaps : List Interval
  noDataWindows : List Interval

def buildDerivedTree (month : String) : DerivedServicesResponse :=
  let root := rootNode intl report problems
  { tree := [root]
    total := root.subtree.length
    degraded := (root.subtree.filter fun n => n.info.status ≥ 0).length
    worst := root.info.worst
    month
    profile := report.profile
    target := report.target
    closed := report.closed
    gaps := report.gaps
    noDataWindows := report.noDataWindows }

end Build

end ZabbixPortal.Sli
