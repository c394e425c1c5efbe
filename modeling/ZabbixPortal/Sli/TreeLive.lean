import ZabbixPortal.Foundation.TopOf
import ZabbixPortal.Sli.TreeDevices
import ZabbixPortal.Sli.TreeIds

/-! The live status of the derived tree: what a node takes from the open problems of the
devices under it, at every level. -/

set_option autoImplicit false

namespace ZabbixPortal.Sli

open Foundation Domain DerivedServiceNode

def openOf (problems : List ZbxProblem) (hostid : String) : List NodeProblem :=
  (problems.filter fun p => p.hostid.getD "" ≠ "" && decide (p.hostid.getD "" = hostid)).map
    fun p => ⟨p.eventid, p.name, p.severity⟩

def openUnder (problems : List ZbxProblem) (node : DerivedServiceNode) : List NodeProblem :=
  (hostLeaves node).flatMap (openOf problems)

/-- The highest severity, and -1 of no problem. -/
def WorstOf (problems : List NodeProblem) (worst : ℤ) : Prop :=
  (problems = [] ∧ worst = -1) ∨
    (∃ p ∈ problems, worst = p.severity) ∧ ∀ p ∈ problems, (p.severity : ℤ) ≤ worst

/-- The number of nodes below a node, each id once. -/
def idsBelow (node : DerivedServiceNode) : Nat :=
  ((subtrees node.children).map fun n => n.info.serviceid).dedup.length

/-- The nodes `buildDerivedTree` puts together: devices, web checks, groups of what is built
already, and groups whose figures were changed afterwards. -/
inductive Built (report : SliReport) (problems : List ZbxProblem) : DerivedServiceNode → Prop where
  | host (h : SliHost) : Built report problems (hostNode report problems h)
  | web (w : SliWeb) : Built report problems (webNode report w)
  | group (id name : String) {kind : DerivedKind} (hosts : List SliHost)
      {children : List DerivedServiceNode} (group : Option SliGroup)
      (inner : kind ≠ .host ∧ kind ≠ .web) (below : ∀ child ∈ children, Built report problems child) :
      Built report problems (groupNode report id name kind hosts children group)
  | rated {node : DerivedServiceNode} (change : NodeInfo → NodeInfo) (inner : isLeaf node.info = false)
      (keeps : ∀ info : NodeInfo, (change info).kind = info.kind ∧
        (change info).status = info.status ∧ (change info).worst = info.worst ∧
        (change info).descendants = info.descendants ∧ (change info).problems = info.problems ∧
        (change info).serviceid = info.serviceid)
      (before : Built report problems node) : Built report problems (node.update change)

section Shapes

variable {intl : Intl} {report : SliReport} (problems : List ZbxProblem)

theorem built_hostNodes (hosts : List SliHost) :
    ∀ child ∈ hosts.map (hostNode report problems), Built report problems child := by
  intro child member
  obtain ⟨h, -, rfl⟩ := List.mem_map.mp member
  exact .host h

theorem built_pathNode (members : List SliHost) (p : SliPath) :
    Built report problems (pathNode intl report problems members p) := by
  have grouped : Built report problems (groupNode report ("derived:wan:" ++ p.name)
      ("WAN path: " ++ p.name) .wanPath (legsIn intl members p)
      ((legsIn intl members p).map (hostNode report problems)) none) :=
    .group _ _ _ _ (by decide) (built_hostNodes problems _)
  unfold pathNode
  exact .rated _ rfl (fun _ => ⟨rfl, rfl, rfl, rfl, rfl, rfl⟩) grouped

theorem built_classNode (code : Nat) (cls : DeviceClass) (members : List SliHost) :
    Built report problems (classNode intl report problems code cls members) := by
  unfold classNode
  split
  · exact .group _ _ _ _ (by decide) (built_hostNodes problems _)
  · refine .group _ _ _ _ (by decide) fun child member => ?_
    rcases List.mem_append.mp member with inPaths | loose
    · obtain ⟨p, -, rfl⟩ := List.mem_map.mp inPaths
      exact built_pathNode problems members p
    · exact built_hostNodes problems _ child loose

theorem built_siteNode (code : Nat) (hosts : List SliHost) :
    Built report problems (siteNode intl report problems code hosts) := by
  refine .group _ _ _ _ (by decide) fun child member => ?_
  obtain ⟨entry, -, rfl⟩ := List.mem_map.mp member
  exact built_classNode problems code entry.1 entry.2

theorem built_businessNode : Built report problems (businessNode intl report problems) := by
  have grouped : Built report problems (groupNode report "derived:business" "Business services"
      .business (businessHosts intl report) (report.web.map (webNode report) ++
        (businessHosts intl report).map (hostNode report problems)) none) := by
    refine .group _ _ _ _ (by decide) fun child member => ?_
    rcases List.mem_append.mp member with inWeb | inHosts
    · obtain ⟨w, -, rfl⟩ := List.mem_map.mp inWeb
      exact .web w
    · exact built_hostNodes problems _ child inHosts
  unfold businessNode
  simp only
  split
  · exact grouped
  · exact .rated _ rfl (fun _ => ⟨rfl, rfl, rfl, rfl, rfl, rfl⟩) grouped

theorem built_rootNode : Built report problems (rootNode intl report problems) := by
  refine .group _ _ _ _ (by decide) fun child member => ?_
  rcases List.mem_append.mp member with inBusiness | rest
  · unfold businessNodes at inBusiness
    split at inBusiness
    · cases inBusiness
    · rw [List.mem_singleton.mp inBusiness]
      exact built_businessNode problems
  · rcases List.mem_append.mp rest with inSites | loose
    · obtain ⟨entry, -, rfl⟩ := List.mem_map.mp inSites
      exact built_siteNode problems entry.1 entry.2
    · unfold unassignedNodes at loose
      simp only at loose
      split at loose
      · cases loose
      · rw [List.mem_singleton.mp loose]
        exact .group _ _ _ _ (by decide) (built_hostNodes problems _)

variable {problems}

/-- Everything below a node that is built is built. -/
theorem Built.everywhere {node : DerivedServiceNode} (built : Built report problems node) :
    Below (Built report problems) node := by
  induction built with
  | host h => exact (below_node _ _ _).mpr ⟨.host h, fun child impossible => nomatch impossible⟩
  | web w => exact (below_node _ _ _).mpr ⟨.web w, fun child impossible => nomatch impossible⟩
  | group id name hosts group inner below ih =>
      exact (below_node _ _ _).mpr ⟨.group id name hosts group inner below, ih⟩
  | rated change inner keeps before ih =>
      rw [below_iff_children, children_update]
      exact ⟨.rated change inner keeps before, ((below_iff_children _ _).mp ih).2⟩

theorem hostLeaves_groupNode (id name : String) {kind : DerivedKind} (hosts : List SliHost)
    (children : List DerivedServiceNode) (group : Option SliGroup)
    (inner : kind ≠ .host ∧ kind ≠ .web) :
    hostLeaves (groupNode report id name kind hosts children group) =
      children.flatMap hostLeaves := by
  rw [hostLeaves, leaves_groupNode _ _ _ _ _ _ inner, List.filter_flatMap, List.filterMap_flatMap]
  rfl

theorem openUnder_groupNode (id name : String) {kind : DerivedKind} (hosts : List SliHost)
    (children : List DerivedServiceNode) (group : Option SliGroup)
    (inner : kind ≠ .host ∧ kind ≠ .web) :
    openUnder problems (groupNode report id name kind hosts children group) =
      children.flatMap (openUnder problems) := by
  rw [openUnder, hostLeaves_groupNode _ _ _ _ _ inner, List.flatMap_assoc]
  rfl

theorem hostLeaves_hostNode (h : SliHost) :
    hostLeaves (hostNode report problems h) = [h.hostid] := by
  rw [hostLeaves, leaves_hostNode]
  rfl

theorem hostLeaves_webNode (w : SliWeb) : hostLeaves (webNode report w) = [] := by
  rw [hostLeaves, leaves_webNode]
  rfl

theorem hostLeaves_update {node : DerivedServiceNode} {change : NodeInfo → NodeInfo}
    (inner : isLeaf node.info = false) (sameKind : ∀ info, (change info).kind = info.kind) :
    hostLeaves (node.update change) = hostLeaves node := by
  rw [hostLeaves, hostLeaves, leaves_update node sameKind inner]

end Shapes

/-! ## The worst problem -/

theorem WorstOf.append {left right : List NodeProblem} {leftWorst rightWorst : ℤ}
    (first : WorstOf left leftWorst) (second : WorstOf right rightWorst) :
    WorstOf (left ++ right) (max leftWorst rightWorst) := by
  rcases first with ⟨rfl, rfl⟩ | ⟨⟨p, inLeft, rfl⟩, aboveLeft⟩ <;>
    rcases second with ⟨rfl, rfl⟩ | ⟨⟨q, inRight, rfl⟩, aboveRight⟩
  · exact .inl ⟨rfl, rfl⟩
  · have higher : max (-1) (q.severity : ℤ) = q.severity := max_eq_right (by omega)
    rw [higher]
    exact .inr ⟨⟨q, inRight, rfl⟩, aboveRight⟩
  · have higher : max (p.severity : ℤ) (-1) = p.severity := max_eq_left (by omega)
    rw [higher, List.append_nil]
    exact .inr ⟨⟨p, inLeft, rfl⟩, aboveLeft⟩
  · refine .inr ⟨?_, fun r member => ?_⟩
    · rcases max_choice (p.severity : ℤ) q.severity with same | same
      · exact ⟨p, List.mem_append_left _ inLeft, same⟩
      · exact ⟨q, List.mem_append_right _ inRight, same⟩
    · rcases List.mem_append.mp member with inside | inside
      · exact (aboveLeft r inside).trans (le_max_left _ _)
      · exact (aboveRight r inside).trans (le_max_right _ _)

theorem worstOf_foldl {ι : Type} {items : List ι} {open' : ι → List NodeProblem} {worst : ι → ℤ}
    (each : ∀ item ∈ items, WorstOf (open' item) (worst item)) {start : List NodeProblem}
    {startWorst : ℤ} (first : WorstOf start startWorst) :
    WorstOf (start ++ items.flatMap open') ((items.map worst).foldl max startWorst) := by
  induction items generalizing start startWorst with
  | nil =>
      rw [List.flatMap_nil, List.append_nil]
      exact first
  | cons item items ih =>
      rw [List.flatMap_cons, ← List.append_assoc, List.map_cons, List.foldl_cons]
      exact ih (fun other member => each other (List.mem_cons_of_mem _ member))
        (first.append (each item List.mem_cons_self))

section Live

variable {report : SliReport} {problems : List ZbxProblem}

theorem openOf_eq (problems : List ZbxProblem) (hostid : String) :
    openOf problems hostid = (((problemsByHost problems).get? hostid).getD []).map
      fun p => ⟨p.eventid, p.name, p.severity⟩ := by
  rw [openOf, problemsByHost, groupBy_get?, List.filter_filter]
  refine congrArg _ (List.filter_congr fun p _ => ?_)
  rw [Bool.and_comm]

theorem openUnder_hostNode (h : SliHost) :
    openUnder problems (hostNode report problems h) = openOf problems h.hostid := by
  rw [openUnder, hostLeaves_hostNode, List.flatMap_singleton]

theorem openUnder_webNode (w : SliWeb) : openUnder problems (webNode report w) = [] := by
  rw [openUnder, hostLeaves_webNode, List.flatMap_nil]

theorem bySeverity_perm (severity : ZbxProblem → Nat) (listed : List ZbxProblem) :
    (bySeverity severity listed).Perm listed := sortBy_perm _ _

theorem hostNode_status (h : SliHost) :
    WorstOf (openOf problems h.hostid) (hostNode report problems h).info.status := by
  rw [openOf_eq]
  have status : (hostNode report problems h).info.status = ((bySeverity ZbxProblem.severity
      (((problemsByHost problems).get? h.hostid).getD [])).head?.map
        fun p => (p.severity : ℤ)).getD (-1) := rfl
  rw [status]
  generalize ((problemsByHost problems).get? h.hostid).getD [] = listed
  have sorted := pairwise_sortBy_rank ZbxProblem.severity listed
  have same := bySeverity_perm ZbxProblem.severity listed
  rw [show sortBy _ listed = bySeverity ZbxProblem.severity listed from rfl] at sorted
  cases ordered : bySeverity ZbxProblem.severity listed with
  | nil =>
      rw [ordered] at same
      rw [List.nil_perm.mp same]
      exact .inl ⟨rfl, rfl⟩
  | cons first rest =>
      rw [ordered] at sorted same
      refine .inr ⟨⟨_, List.mem_map_of_mem (same.mem_iff.mp List.mem_cons_self), rfl⟩, ?_⟩
      intro p member
      obtain ⟨q, inListed, rfl⟩ := List.mem_map.mp member
      rcases List.mem_cons.mp (same.mem_iff.mpr inListed) with rfl | inRest
      · exact le_refl _
      · exact Int.ofNat_le.mpr ((List.pairwise_cons.mp sorted).1 q inRest)

/-- A node's worst is the highest severity of an open problem of a device under it. -/
theorem Built.worst {node : DerivedServiceNode} (built : Built report problems node) :
    WorstOf (openUnder problems node) node.info.worst := by
  induction built with
  | host h =>
      rw [openUnder_hostNode]
      exact hostNode_status h
  | web w =>
      rw [openUnder_webNode]
      exact .inl ⟨rfl, rfl⟩
  | group id name hosts group inner below ih =>
      rw [openUnder_groupNode _ _ _ _ _ inner]
      exact worstOf_foldl ih (.inl ⟨rfl, rfl⟩)
  | rated change inner keeps before ih =>
      rw [info_update, (keeps _).2.2.1, openUnder, hostLeaves_update inner fun info => (keeps info).1]
      exact ih

/-- A node lists the five most severe open problems of the devices under it. -/
theorem Built.topProblems {node : DerivedServiceNode} (built : Built report problems node) :
    TopOf 5 NodeProblem.severity (openUnder problems node) node.info.problems := by
  induction built with
  | host h =>
      rw [openUnder_hostNode, openOf_eq]
      have listed : (hostNode report problems h).info.problems = ((bySeverity ZbxProblem.severity
          (((problemsByHost problems).get? h.hostid).getD [])).map
            fun p => (⟨p.eventid, p.name, p.severity⟩ : NodeProblem)).take 5 := by
        rw [← List.map_take]
        simp only [hostNode, finish, info, List.flatMap_nil]
        split
        · next nothing => rw [List.isEmpty_iff.mp nothing]; rfl
        · rfl
      rw [listed]
      refine TopOf.of_sorted ((bySeverity_perm _ _).map _) (List.pairwise_map.mpr ?_)
      exact pairwise_sortBy_rank ZbxProblem.severity _
  | web w =>
      rw [openUnder_webNode]
      exact ⟨[], List.Perm.refl _, List.Pairwise.nil, fun _ member => absurd member List.not_mem_nil, rfl⟩
  | @group id name kind hosts children group inner below ih =>
      rw [openUnder_groupNode _ _ _ _ _ inner]
      exact TopOf.merge children (openUnder problems) (fun child => child.info.problems) ih
        (sortBy_perm _ _) (pairwise_sortBy_rank NodeProblem.severity _)
  | rated change inner keeps before ih =>
      rw [info_update, (keeps _).2.2.2.2.1, openUnder,
        hostLeaves_update inner fun info => (keeps info).1]
      exact ih

theorem Built.descendants {node : DerivedServiceNode} (built : Built report problems node) :
    node.info.descendants = idsBelow node := by
  induction built with
  | host h => rfl
  | web w => rfl
  | group id name hosts group inner below ih => rfl
  | rated change inner keeps before ih =>
      rw [info_update, (keeps _).2.2.2.1, idsBelow, children_update]
      exact ih

theorem subtree_eq (node : DerivedServiceNode) :
    node.subtree = node :: node.children.flatMap subtree := by
  obtain ⟨own, children⟩ := node
  rw [subtree, subtrees_eq_flatMap]
  rfl

/-- The nodes that carry a problem themselves are the devices with an open problem. -/
theorem Built.degraded {node : DerivedServiceNode} (built : Built report problems node) :
    (node.subtree.countP fun n => n.info.status ≥ 0) =
      (hostLeaves node).countP fun hostid => openOf problems hostid ≠ [] := by
  induction built with
  | host h =>
      have whole : (hostNode report problems h).subtree = [hostNode report problems h] := rfl
      have carries : (hostNode report problems h).info.status ≥ 0 ↔
          openOf problems h.hostid ≠ [] := by
        rcases @hostNode_status report problems h with
          ⟨empty, status⟩ | ⟨⟨p, member, status⟩, -⟩
        · rw [empty, status]
          decide
        · rw [status]
          exact iff_of_true (Int.natCast_nonneg _) (List.ne_nil_of_mem member)
      rw [hostLeaves_hostNode, whole]
      simp only [List.countP_singleton, carries]
  | web w =>
      rw [hostLeaves_webNode]
      rfl
  | @group id name kind hosts children group inner below ih =>
      have own : ¬ (groupNode report id name kind hosts children group).info.status ≥ 0 := by
        have status : (groupNode report id name kind hosts children group).info.status = -1 := rfl
        rw [status]
        decide
      have children' : (groupNode report id name kind hosts children group).children =
          children := rfl
      rw [subtree_eq, children', List.countP_cons_of_neg (by simpa using own),
        hostLeaves_groupNode _ _ _ _ _ inner, List.countP_flatMap, List.countP_flatMap]
      exact congrArg List.sum (List.map_congr_left ih)
  | @rated node change inner keeps before ih =>
      rw [hostLeaves_update inner fun info => (keeps info).1, ← ih, subtree_eq, subtree_eq node,
        children_update, List.countP_cons, List.countP_cons, info_update, (keeps _).2.1]

/-- What is below a node is part of its subtree, in the same order. -/
theorem subtree_sublist (node inner : DerivedServiceNode) (inside : inner ∈ node.subtree) :
    inner.subtree.Sublist node.subtree := by
  match node with
  | .node own children =>
      rcases (mem_subtree_node _ _ _).mp inside with rfl | ⟨child, member, later⟩
      · exact List.Sublist.refl _
      · have within := subtree_sublist child inner later
        obtain ⟨before, after, rfl⟩ := List.append_of_mem member
        rw [subtree, subtrees_eq_flatMap, List.flatMap_append, List.flatMap_cons]
        exact (within.trans ((List.sublist_append_left _ _).trans
          (List.sublist_append_right _ _))).cons _
  termination_by sizeOf node
  decreasing_by
    have smaller := List.sizeOf_lt_of_mem member
    simp only [DerivedServiceNode.node.sizeOf_spec]
    omega

theorem hostLeaves_sublist {node inner : DerivedServiceNode} (inside : inner ∈ node.subtree) :
    (hostLeaves inner).Sublist (hostLeaves node) :=
  ((((subtree_sublist node inner inside).map info).filter _).filter _).filterMap _

/-- With distinct ids a node's descendants are the nodes below it. -/
theorem Built.descendants_of_nodup {node : DerivedServiceNode}
    (built : Built report problems node)
    (distinct : (node.subtree.map fun n => n.info.serviceid).Nodup) :
    node.info.descendants + 1 = node.subtree.length := by
  have counted := built.descendants
  obtain ⟨own, children⟩ := node
  rw [subtree, List.map_cons, List.nodup_cons] at distinct
  have ids : idsBelow (.node own children) = (subtrees children).length := by
    rw [idsBelow, show (DerivedServiceNode.node own children).children = children from rfl,
      distinct.2.dedup, List.length_map]
  rw [counted, ids, subtree, List.length_cons]

end Live

/-- Worst, descendants and the five problems of every node are those of what is below it, no
device or id is there twice, and the totals count the tree. -/
theorem live_status_rolls_up (intl : Intl) (report : SliReport) (problems : List ZbxProblem)
    (month : String) (own : OwnHosts intl report)
    (webDistinct : (report.web.map (·.itemid)).Nodup) :
    ∃ root, (buildDerivedTree intl report problems month).tree = [root] ∧
      (∀ node ∈ root.subtree,
        WorstOf (openUnder problems node) node.info.worst ∧
        (node.subtree.map fun n => n.info.serviceid).Nodup ∧
        node.info.descendants + 1 = node.subtree.length ∧
        (hostLeaves node).Nodup ∧
        TopOf 5 NodeProblem.severity (openUnder problems node) node.info.problems) ∧
      (buildDerivedTree intl report problems month).total = 1 + root.info.descendants ∧
      (buildDerivedTree intl report problems month).degraded =
        (hostLeaves root).countP fun hostid => openOf problems hostid ≠ [] := by
  have built : Built report problems (rootNode intl report problems) := built_rootNode problems
  have ids := rootNode_ids_nodup problems own webDistinct
  have devices : (hostLeaves (rootNode intl report problems)).Nodup :=
    (hostLeaves_rootNode_perm own problems).nodup_iff.mpr
      (own.distinct.sublist (List.filter_sublist.map _))
  refine ⟨rootNode intl report problems, rfl, fun node inside => ?_, ?_, ?_⟩
  · have here := built.everywhere node inside
    have distinct := ids.sublist ((subtree_sublist _ node inside).map fun n => n.info.serviceid)
    exact ⟨here.worst, distinct, here.descendants_of_nodup distinct,
      devices.sublist (hostLeaves_sublist inside), here.topProblems⟩
  · have counted := built.descendants_of_nodup ids
    rw [Nat.add_comm, counted]
    rfl
  · rw [← built.degraded, List.countP_eq_length_filter]
    rfl

def legProblem : ZbxProblem :=
  { eventid := "1", objectid := "", name := "Unavailable by ICMP ping", severity := 4, clock := 0,
    r_eventid := none, acknowledged := false, suppressed := false, hostid := some "10" }

/-- At the report of one path whose first leg has a problem. -/
theorem live_status_rolls_up_leg :
    ∃ root, (buildDerivedTree asciiIntl splitReport [legProblem] "").tree = [root] ∧
      (∀ node ∈ root.subtree,
        WorstOf (openUnder [legProblem] node) node.info.worst ∧
        (node.subtree.map fun n => n.info.serviceid).Nodup ∧
        node.info.descendants + 1 = node.subtree.length ∧
        (hostLeaves node).Nodup ∧
        TopOf 5 NodeProblem.severity (openUnder [legProblem] node) node.info.problems) ∧
      (buildDerivedTree asciiIntl splitReport [legProblem] "").total = 1 + root.info.descendants ∧
      (buildDerivedTree asciiIntl splitReport [legProblem] "").degraded =
        (hostLeaves root).countP fun hostid => openOf [legProblem] hostid ≠ [] :=
  live_status_rolls_up asciiIntl splitReport [legProblem] ""
    (splitPath.report_ownHosts asciiIntl none 100 true [] 100) List.nodup_nil

end ZabbixPortal.Sli
