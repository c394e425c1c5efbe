import ZabbixPortal.Domain.Naming
import ZabbixPortal.Sli.Tree

/-! The device and web leaves of the derived tree: which devices each part of the tree
shows, and that together these are all but the legs shown nowhere. -/

set_option autoImplicit false

namespace ZabbixPortal.Sli

open Foundation Domain DerivedServiceNode

namespace DerivedServiceNode

theorem subtrees_eq_flatMap (nodes : List DerivedServiceNode) :
    subtrees nodes = nodes.flatMap subtree := by
  induction nodes with
  | nil => rw [subtrees, List.flatMap_nil]
  | cons node rest ih => rw [subtrees, ih, List.flatMap_cons]

/-- A device or a web check, which the other nodes group. -/
def isLeaf (info : NodeInfo) : Bool := info.kind = .host || info.kind = .web

def leaves (node : DerivedServiceNode) : List NodeInfo :=
  (node.subtree.map info).filter isLeaf

theorem leaves_node (own : NodeInfo) (children : List DerivedServiceNode) :
    (DerivedServiceNode.node own children).leaves =
      [own].filter isLeaf ++ children.flatMap leaves := by
  rw [leaves, subtree, subtrees_eq_flatMap, List.map_cons, List.map_flatMap,
    ← List.singleton_append, List.filter_append, List.filter_flatMap]
  rfl

@[simp] theorem info_update (change : NodeInfo → NodeInfo) (node : DerivedServiceNode) :
    (node.update change).info = change node.info := by
  cases node
  rfl

theorem leaves_update {change : NodeInfo → NodeInfo} (node : DerivedServiceNode)
    (sameKind : ∀ own, (change own).kind = own.kind) (inner : isLeaf node.info = false) :
    (node.update change).leaves = node.leaves := by
  obtain ⟨own, children⟩ := node
  have unchanged : isLeaf (change own) = isLeaf own := by simp [isLeaf, sameKind]
  have outside : isLeaf own = false := inner
  rw [update, leaves_node, leaves_node]
  simp [unchanged, outside]

theorem mem_subtree_node (own : NodeInfo) (children : List DerivedServiceNode)
    (node : DerivedServiceNode) :
    node ∈ (DerivedServiceNode.node own children).subtree ↔
      node = .node own children ∨ ∃ child ∈ children, node ∈ child.subtree := by
  rw [subtree, List.mem_cons, subtrees_eq_flatMap, List.mem_flatMap]

def Below (holds : DerivedServiceNode → Prop) (node : DerivedServiceNode) : Prop :=
  ∀ inner ∈ node.subtree, holds inner

theorem below_node (holds : DerivedServiceNode → Prop) (own : NodeInfo)
    (children : List DerivedServiceNode) :
    Below holds (.node own children) ↔
      holds (.node own children) ∧ ∀ child ∈ children, Below holds child := by
  constructor
  · intro all
    refine ⟨all _ ((mem_subtree_node _ _ _).mpr (.inl rfl)), fun child member inner inside => ?_⟩
    exact all inner ((mem_subtree_node _ _ _).mpr (.inr ⟨child, member, inside⟩))
  · rintro ⟨self, below⟩ inner inside
    rcases (mem_subtree_node _ _ _).mp inside with rfl | ⟨child, member, later⟩
    · exact self
    · exact below child member inner later

theorem below_iff_children (holds : DerivedServiceNode → Prop) (node : DerivedServiceNode) :
    Below holds node ↔ holds node ∧ ∀ child ∈ node.children, Below holds child := by
  obtain ⟨own, children⟩ := node
  exact below_node holds own children

@[simp] theorem children_update (change : NodeInfo → NodeInfo) (node : DerivedServiceNode) :
    (node.update change).children = node.children := by
  cases node
  rfl

end DerivedServiceNode

section Shapes

variable (report : SliReport) (problems : List ZbxProblem)

def hostLeaf (h : SliHost) : NodeInfo := (hostNode report problems h).info

def webLeaf (w : SliWeb) : NodeInfo := (webNode report w).info

@[simp] theorem leaves_hostNode (h : SliHost) :
    (hostNode report problems h).leaves = [hostLeaf report problems h] := by
  simp [hostLeaf, hostNode, finish, leaves_node, isLeaf, DerivedServiceNode.info]

@[simp] theorem leaves_webNode (w : SliWeb) : (webNode report w).leaves = [webLeaf report w] := by
  simp [webLeaf, webNode, finish, leaves_node, isLeaf, DerivedServiceNode.info]

theorem leaves_hostNodes (hosts : List SliHost) :
    (hosts.map (hostNode report problems)).flatMap leaves =
      hosts.map (hostLeaf report problems) := by
  rw [List.flatMap_map, List.map_eq_flatMap]
  exact List.flatMap_congr fun h _ => leaves_hostNode report problems h

theorem leaves_webNodes (web : List SliWeb) :
    (web.map (webNode report)).flatMap leaves = web.map (webLeaf report) := by
  rw [List.flatMap_map, List.map_eq_flatMap]
  exact List.flatMap_congr fun w _ => leaves_webNode report w

@[simp] theorem groupNode_kind (id name : String) (kind : DerivedKind) (hosts : List SliHost)
    (children : List DerivedServiceNode) (group : Option SliGroup) :
    (groupNode report id name kind hosts children group).info.kind = kind := rfl

theorem leaves_groupNode (id name : String) {kind : DerivedKind} (hosts : List SliHost)
    (children : List DerivedServiceNode) (group : Option SliGroup)
    (inner : kind ≠ .host ∧ kind ≠ .web) :
    (groupNode report id name kind hosts children group).leaves = children.flatMap leaves := by
  unfold groupNode finish
  rw [leaves_node]
  simp [isLeaf, inner.1, inner.2]

end Shapes

def pathOf (intl : Intl) (host : SliHost) : Option String :=
  (wanPairKey intl host.name).map (·.path)

/-- The first leg of a path in report order: the one that gives the path its site. -/
def firstLeg (intl : Intl) (hosts : List SliHost) (path : String) : Option SliHost :=
  hosts.find? fun host => pathOf intl host = some path

/-- A device with a place in the tree: not a leg at another site than its path's. -/
def shown (intl : Intl) (hosts : List SliHost) (host : SliHost) : Bool :=
  match pathOf intl host, host.site with
  | some path, some site =>
      ((firstLeg intl hosts path).bind (·.site)).map (·.code) = some site.code
  | _, _ => true

/-- A report whose devices and WAN paths are those of one list of named hosts. -/
structure OwnHosts (intl : Intl) (report : SliReport) : Prop where
  distinct : (report.hosts.map (·.hostid)).Nodup
  classed : ∀ host ∈ report.hosts, host.deviceClass = deviceClass intl host.name host.category
  paths : ∃ (downByHost coveredByHost : OrderedMap String (List Interval)) (window : ℤ)
    (profile : SliProfile) (estateSeconds : ℤ), report.wanPaths =
      buildWanPaths intl report.hosts downByHost coveredByHost window profile estateSeconds

/-- Every computed report is such a report. -/
theorem Estate.report_ownHosts (intl : Intl) (estate : Estate) (month : Option String)
    (windowTo : ℤ) (closed : Bool) (web : List SliWeb) (now : ℤ) :
    OwnHosts intl (estate.report intl month windowTo closed web now) where
  distinct := by
    have rows : ((estate.hosts intl).map (·.hostid)).Perm (estate.inputs.map (·.hostid)) := by
      refine ((sortBy_perm _ _).map _).trans ?_
      rw [List.map_map]
      exact List.Perm.refl _
    exact rows.nodup_iff.mpr estate.distinct
  classed := by
    intro host member
    obtain ⟨input, _, rfl⟩ := List.mem_map.mp ((mem_sortBy _ _ _).mp member)
    simp only [SliContext.hostRow]
  paths := ⟨_, _, _, _, _, rfl⟩

section Paths

variable {intl : Intl} {report : SliReport}

theorem pathLegs_hosts {hosts : List SliHost} {path : String} {legs : List (SliHost × WanPair)}
    (member : (path, legs) ∈ (pathLegs intl hosts).entries) :
    legs.map Prod.fst = hosts.filter fun host => pathOf intl host = some path := by
  rw [groupBy_bucket member]
  clear member
  induction hosts with
  | nil => rfl
  | cons host rest ih =>
      cases pair : wanPairKey intl host.name with
      | none => simpa [pair, pathOf] using ih
      | some pair' =>
          by_cases same : pair'.path = path
          · simpa [pair, pathOf, same] using ih
          · simpa [pair, pathOf, same] using ih

/-- A path of the report: its legs are the hosts named for it, its site the first's. -/
theorem OwnHosts.path_of_mem (own : OwnHosts intl report) {path : SliPath}
    (member : path ∈ report.wanPaths) :
    path.site = (firstLeg intl report.hosts path.name).bind (·.site) ∧
      (∃ host ∈ report.hosts, pathOf intl host = some path.name) ∧
      ∀ host ∈ report.hosts,
        (path.legs.any fun leg => leg.hostid = host.hostid) = true ↔
          pathOf intl host = some path.name := by
  obtain ⟨downByHost, coveredByHost, window, profile, estateSeconds, built⟩ := own.paths
  rw [built, buildWanPaths, mem_sortBy, List.mem_map] at member
  obtain ⟨⟨name, legs⟩, entry, rfl⟩ := member
  have hosts := pathLegs_hosts entry
  have nonempty := groupBy_bucket_ne_nil entry
  refine ⟨?_, ?_, ?_⟩
  · simp only [wanPath, hosts, List.head?_filter, firstLeg]
  · obtain ⟨leg, inLegs⟩ := List.exists_mem_of_ne_nil _ nonempty
    have inHosts : leg.1 ∈ legs.map Prod.fst := List.mem_map_of_mem inLegs
    rw [hosts, List.mem_filter] at inHosts
    exact ⟨leg.1, inHosts.1, of_decide_eq_true inHosts.2⟩
  · intro host inReport
    simp only [wanPath, List.any_eq_true, mem_sortBy, List.mem_map, decide_eq_true_eq]
    constructor
    · rintro ⟨_, ⟨leg, inLegs, rfl⟩, sameId⟩
      have inHosts : leg.1 ∈ legs.map Prod.fst := List.mem_map_of_mem inLegs
      rw [hosts, List.mem_filter] at inHosts
      have same := List.inj_on_of_nodup_map own.distinct inHosts.1 inReport sameId
      have named : pathOf intl leg.1 = some name := by simpa using inHosts.2
      rwa [same] at named
    · intro named
      have inHosts : host ∈ legs.map Prod.fst := by
        rw [hosts, List.mem_filter]
        exact ⟨inReport, by simpa using named⟩
      obtain ⟨leg, inLegs, rfl⟩ := List.mem_map.mp inHosts
      exact ⟨_, ⟨leg, inLegs, rfl⟩, rfl⟩

theorem OwnHosts.path_names_nodup (own : OwnHosts intl report) :
    (report.wanPaths.map (·.name)).Nodup := by
  obtain ⟨downByHost, coveredByHost, window, profile, estateSeconds, built⟩ := own.paths
  rw [built, buildWanPaths]
  refine ((sortBy_perm _ _).map _).nodup_iff.mpr ?_
  rw [List.map_map]
  exact (pathLegs intl report.hosts).distinct

/-- Every leg's path is one of the report. -/
theorem OwnHosts.path_exists (own : OwnHosts intl report) {host : SliHost}
    (member : host ∈ report.hosts) {name : String} (named : pathOf intl host = some name) :
    ∃ path ∈ report.wanPaths, path.name = name := by
  obtain ⟨downByHost, coveredByHost, window, profile, estateSeconds, built⟩ := own.paths
  obtain ⟨pair, found, rfl⟩ := Option.map_eq_some_iff.mp named
  have inside : (host, pair) ∈ report.hosts.filterMap fun host =>
      (wanPairKey intl host.name).map fun pair => (host, pair) :=
    List.mem_filterMap.mpr ⟨host, member, by rw [found, Option.map_some]⟩
  have entry := groupBy_entry_of_mem (fun leg : SliHost × WanPair => leg.2.path) inside
  rw [built]
  exact ⟨_, (mem_sortBy _ _ _).mpr (List.mem_map.mpr ⟨_, entry, rfl⟩), rfl⟩

theorem OwnHosts.leg_class (own : OwnHosts intl report) {host : SliHost}
    (member : host ∈ report.hosts) {name : String} (named : pathOf intl host = some name) :
    host.deviceClass = .wanLink := by
  obtain ⟨pair, found, _⟩ := Option.map_eq_some_iff.mp named
  rw [own.classed host member]
  exact deviceClass_of_wanPairKey intl host.name host.category found

theorem OwnHosts.shown_of_class (own : OwnHosts intl report) {host : SliHost}
    (member : host ∈ report.hosts) (other : host.deviceClass ≠ .wanLink) :
    shown intl report.hosts host = true := by
  unfold shown
  split
  · next path _ named _ => exact absurd (own.leg_class member named) other
  · rfl

end Paths

section Leaves

variable {intl : Intl} {report : SliReport} (problems : List ZbxProblem)

theorem byName_perm (intl : Intl) (hosts : List SliHost) : (byName intl hosts).Perm hosts :=
  sortBy_perm _ _

/-- The WAN class of a site: legs under the paths shown there, and legs of no path. -/
private theorem wan_members_perm (own : OwnHosts intl report) {code : Nat}
    {members : List SliHost} (inReport : ∀ m ∈ members, m ∈ report.hosts)
    (atSite : ∀ m ∈ members, m.site.map (·.code) = some code) :
    ((report.wanPaths.filter fun p => p.site.map (·.code) = some code).flatMap
        (legsIn intl members) ++ looseLegs intl report members).Perm
      (members.filter (shown intl report.hosts)) := by
  let wanted : List (Option String) :=
    (report.wanPaths.filter fun p => p.site.map (·.code) = some code).map fun p => some p.name
  have wantedNodup : wanted.Nodup := by
    have names := own.path_names_nodup.sublist
      ((List.filter_sublist (p := fun p : SliPath => p.site.map (·.code) = some code)).map
        (·.name))
    have lifted := names.map (Option.some_injective _)
    rw [List.map_map] at lifted
    exact lifted
  have legs : ∀ p ∈ report.wanPaths,
      (members.filter fun m => p.legs.any fun l => l.hostid = m.hostid) =
        members.filter fun m => pathOf intl m = some p.name := by
    intro p inPaths
    refine List.filter_congr fun m inMembers => ?_
    have decided := (own.path_of_mem inPaths).2.2 m (inReport m inMembers)
    exact Bool.eq_iff_iff.mpr (decided.trans (by simp))
  have atPaths : ((report.wanPaths.filter fun p => p.site.map (·.code) = some code).flatMap
        (legsIn intl members)).Perm
      (members.filter fun m => pathOf intl m ∈ wanted) := by
    have each : (report.wanPaths.filter fun p => p.site.map (·.code) = some code).flatMap
          (fun p => (members.filter fun m => pathOf intl m ∈ wanted).filter
            fun m => pathOf intl m = some p.name) =
        wanted.flatMap fun candidate =>
          (members.filter fun m => pathOf intl m ∈ wanted).filter
            fun m => pathOf intl m = candidate := by
      rw [List.flatMap_map]
    refine List.Perm.trans (List.Perm.flatMap_left _ fun p inFiltered => ?_)
      (each ▸ perm_flatMap_filter (pathOf intl) wanted _ wantedNodup ?_)
    · have inPaths := List.mem_of_mem_filter inFiltered
      refine (byName_perm intl _).trans ?_
      rw [legs p inPaths, List.filter_filter]
      refine List.Perm.of_eq (List.filter_congr fun m _ => ?_)
      have isWanted : some p.name ∈ wanted := List.mem_map_of_mem inFiltered
      by_cases named : pathOf intl m = some p.name
      · simp [named, isWanted]
      · simp [named]
    · intro m member
      simpa using (List.mem_filter.mp member).2
  have loose : (looseLegs intl report members).Perm
      (members.filter fun m => pathOf intl m = none) := by
    refine (byName_perm intl _).trans (List.Perm.of_eq (List.filter_congr fun m inMembers => ?_))
    cases named : pathOf intl m with
    | none =>
        have outside : ¬ ∃ p ∈ report.wanPaths,
            (p.legs.any fun l => l.hostid = m.hostid) = true := by
          rintro ⟨p, inPaths, isLeg⟩
          have decided := ((own.path_of_mem inPaths).2.2 m (inReport m inMembers)).mp isLeg
          exact absurd (named.symm.trans decided) (by simp)
        rw [← List.any_eq_true] at outside
        simp [outside]
    | some name =>
        obtain ⟨p, inPaths, sameName⟩ := own.path_exists (inReport m inMembers) named
        have isLeg := ((own.path_of_mem inPaths).2.2 m (inReport m inMembers)).mpr
          (sameName ▸ named)
        have inside : (report.wanPaths.any fun p => p.legs.any fun l => l.hostid = m.hostid) =
            true := List.any_eq_true.mpr ⟨p, inPaths, isLeg⟩
        simp [inside]
  -- A shown leg is a leg of no path, or its path is one of those shown at the site.
  have split : (members.filter (shown intl report.hosts)).Perm
      ((members.filter fun m => pathOf intl m ∈ wanted) ++
        members.filter fun m => pathOf intl m = none) := by
    have parts := (List.filter_append_perm (fun m => decide (pathOf intl m = none))
      (members.filter (shown intl report.hosts))).symm
    rw [List.filter_filter, List.filter_filter] at parts
    refine (parts.trans List.perm_append_comm).trans (List.Perm.of_eq ?_)
    refine congrArg₂ (· ++ ·) ?_ ?_
    · refine List.filter_congr fun m inMembers => ?_
      cases named : pathOf intl m with
      | none => simp [wanted]
      | some name =>
          obtain ⟨site, hasSite, sameCode⟩ := Option.map_eq_some_iff.mp (atSite m inMembers)
          have isWanted : some name ∈ wanted ↔
              ((firstLeg intl report.hosts name).bind (·.site)).map (·.code) = some code := by
            simp only [wanted, List.mem_map, List.mem_filter, Option.some.injEq,
              decide_eq_true_eq]
            constructor
            · rintro ⟨p, ⟨inPaths, siteHere⟩, rfl⟩
              rwa [(own.path_of_mem inPaths).1] at siteHere
            · intro siteHere
              obtain ⟨p, inPaths, rfl⟩ := own.path_exists (inReport m inMembers) named
              exact ⟨p, ⟨inPaths, by rwa [(own.path_of_mem inPaths).1]⟩, rfl⟩
          simp [shown, named, hasSite, sameCode, isWanted]
    · refine List.filter_congr fun m _ => ?_
      cases named : pathOf intl m with
      | none => simp [shown, named]
      | some name => simp
  exact (atPaths.append loose).trans split.symm

theorem leaves_pathNode (members : List SliHost) (p : SliPath) :
    (pathNode intl report problems members p).leaves =
      (legsIn intl members p).map (hostLeaf report problems) := by
  unfold pathNode
  simp only
  rw [leaves_update, leaves_groupNode _ _ _ _ _ _ (by decide), leaves_hostNodes]
  · exact fun _ => rfl
  · simp [isLeaf]

theorem leaves_classNode_perm (own : OwnHosts intl report) {code : Nat} {cls : DeviceClass}
    {members : List SliHost} (inReport : ∀ m ∈ members, m ∈ report.hosts)
    (atSite : ∀ m ∈ members, m.site.map (·.code) = some code)
    (inClass : ∀ m ∈ members, m.deviceClass = cls) :
    (classNode intl report problems code cls members).leaves.Perm
      ((members.filter (shown intl report.hosts)).map (hostLeaf report problems)) := by
  unfold classNode
  split
  · next other =>
      have all : members.filter (shown intl report.hosts) = members :=
        List.filter_eq_self.mpr fun m inMembers =>
          own.shown_of_class (inReport m inMembers) (inClass m inMembers ▸ other)
      rw [leaves_groupNode _ _ _ _ _ _ (by decide), leaves_hostNodes, all]
      exact (byName_perm intl members).map _
  · rw [leaves_groupNode _ _ _ _ _ _ (by decide), List.flatMap_append, leaves_hostNodes,
      List.flatMap_map]
    simp only [leaves_pathNode]
    rw [← List.map_flatMap, ← List.map_append]
    exact (wan_members_perm own inReport atSite).map _

theorem leaves_siteNode_perm (own : OwnHosts intl report) {code : Nat} {hosts : List SliHost}
    (inReport : ∀ h ∈ hosts, h ∈ report.hosts)
    (atSite : ∀ h ∈ hosts, h.site.map (·.code) = some code) :
    (siteNode intl report problems code hosts).leaves.Perm
      ((hosts.filter (shown intl report.hosts)).map (hostLeaf report problems)) := by
  unfold siteNode
  rw [leaves_groupNode _ _ _ _ _ _ (by decide), classNodes, List.flatMap_map]
  refine groupBy_flatMap_perm (sortBy_perm _ _) _ _ _ ?_
  rintro ⟨cls, members⟩ entry
  have content := groupBy_bucket entry
  have inHosts : ∀ m ∈ members, m ∈ hosts ∧ m.deviceClass = cls := by
    intro m inMembers
    rw [content] at inMembers
    simpa using inMembers
  exact leaves_classNode_perm problems own (fun m inside => inReport m (inHosts m inside).1)
    (fun m inside => atSite m (inHosts m inside).1) fun m inside => (inHosts m inside).2

/-- The hosts of a site node: those of the site that are not business hosts. -/
theorem bySite_entry {code : Nat} {hosts : List SliHost}
    (entry : (code, hosts) ∈ (bySite report).entries) :
    hosts = report.hosts.filter fun h =>
      !isBusiness h && decide (h.site.map (·.code) = some code) := by
  rw [groupBy_bucket entry, List.filter_filter]
  refine List.filter_congr fun h _ => ?_
  cases h.site <;> simp [Bool.and_comm]

theorem leaves_businessNode :
    (businessNode intl report problems).leaves =
      report.web.map (webLeaf report) ++
        (businessHosts intl report).map (hostLeaf report problems) := by
  have grouped : ∀ hosts : List SliHost,
      (groupNode report "derived:business" "Business services" .business hosts
        (report.web.map (webNode report) ++ hosts.map (hostNode report problems)) none).leaves =
        report.web.map (webLeaf report) ++ hosts.map (hostLeaf report problems) := by
    intro hosts
    rw [leaves_groupNode _ _ _ _ _ _ (by decide), List.flatMap_append, leaves_webNodes,
      leaves_hostNodes]
  unfold businessNode
  simp only
  split
  · exact grouped _
  · rw [leaves_update, grouped]
    · exact fun _ => rfl
    · simp [isLeaf]

private theorem leaves_businessNodes :
    (businessNodes intl report problems).flatMap leaves =
      report.web.map (webLeaf report) ++
        (businessHosts intl report).map (hostLeaf report problems) := by
  unfold businessNodes
  split
  · next absent =>
      rw [List.isEmpty_iff, List.isEmpty_iff] at absent
      simp [absent.1, absent.2]
  · rw [List.flatMap_singleton, leaves_businessNode]

private theorem leaves_siteNodes_perm (own : OwnHosts intl report) :
    ((siteNodes intl report problems).flatMap leaves).Perm
      (((report.hosts.filter fun h => !isBusiness h && h.site.isSome).filter
        (shown intl report.hosts)).map (hostLeaf report problems)) := by
  rw [siteNodes, List.flatMap_map]
  refine groupBy_flatMap_perm (sortBy_perm _ _) _ _ _ ?_
  rintro ⟨code, hosts⟩ entry
  have content := bySite_entry entry
  have inside : ∀ h ∈ hosts, h ∈ report.hosts ∧ h.site.map (·.code) = some code := by
    intro h member
    rw [content, List.mem_filter] at member
    exact ⟨member.1, of_decide_eq_true (Bool.and_eq_true_iff.mp member.2).2⟩
  exact leaves_siteNode_perm problems own (fun h member => (inside h member).1)
    fun h member => (inside h member).2

private theorem leaves_unassignedNodes_perm (intl : Intl) (report : SliReport)
    (problems : List ZbxProblem) :
    ((unassignedNodes intl report problems).flatMap leaves).Perm
      ((unassigned report).map (hostLeaf report problems)) := by
  unfold unassignedNodes
  simp only
  split
  · next absent =>
      rw [List.isEmpty_iff] at absent
      simp [absent]
  · rw [List.flatMap_singleton, leaves_groupNode _ _ _ _ _ _ (by decide), leaves_hostNodes]
    exact (byName_perm intl _).map _

/-- The leaves of the whole tree: the web checks and every device that is shown. -/
theorem leaves_rootNode_perm (own : OwnHosts intl report) :
    (rootNode intl report problems).leaves.Perm
      (report.web.map (webLeaf report) ++
        (report.hosts.filter (shown intl report.hosts)).map (hostLeaf report problems)) := by
  unfold rootNode
  rw [leaves_groupNode _ _ _ _ _ _ (by decide), List.flatMap_append, List.flatMap_append,
    leaves_businessNodes, List.append_assoc]
  refine List.Perm.append_left _ ?_
  have business : ((businessHosts intl report).map (hostLeaf report problems)).Perm
      (((report.hosts.filter (shown intl report.hosts)).filter isBusiness).map
        (hostLeaf report problems)) := by
    refine ((byName_perm intl _).map _).trans (List.Perm.of_eq ?_)
    rw [List.filter_filter]
    refine congrArg _ (List.filter_congr fun h member => ?_)
    by_cases is : isBusiness h = true
    · have other : h.deviceClass ≠ .wanLink := by
        intro leg
        simp [isBusiness, leg] at is
      simp [is, own.shown_of_class member other]
    · simp [is]
  have apart : ((report.hosts.filter fun h => !isBusiness h && h.site.isSome).filter
        (shown intl report.hosts) ++ unassigned report).Perm
      ((report.hosts.filter (shown intl report.hosts)).filter fun h => !isBusiness h) := by
    have parts := List.filter_append_perm (fun h : SliHost => h.site.isSome)
      ((report.hosts.filter (shown intl report.hosts)).filter fun h => !isBusiness h)
    refine List.Perm.trans (List.Perm.of_eq ?_) parts
    simp only [List.filter_filter, unassigned]
    refine congrArg₂ (· ++ ·) ?_ ?_
    · refine List.filter_congr fun h _ => ?_
      cases isBusiness h <;> cases h.site.isSome <;> cases shown intl report.hosts h <;> rfl
    · refine List.filter_congr fun h _ => ?_
      cases site : h.site with
      | none => cases isBusiness h <;> simp [shown, site]
      | some site => simp
  have devices := (leaves_siteNodes_perm problems own).append
    (leaves_unassignedNodes_perm intl report problems)
  rw [← List.map_append] at devices
  refine (business.append (devices.trans (apart.map _))).trans ?_
  rw [← List.map_append]
  exact (List.filter_append_perm isBusiness _).map _

end Leaves

end ZabbixPortal.Sli
