import ZabbixPortal.Sli.TreeFigures

/-! When the data status of the tree's site, class and business nodes is that of the devices
and web checks they show. -/

set_option autoImplicit false

namespace ZabbixPortal.Sli

open Foundation Domain DerivedServiceNode

/-- No data where nothing has any, ok where everything is, and incomplete otherwise. -/
def StatusMatches (node : DerivedServiceNode) : Prop :=
  (node.info.dataStatus = .nodata ↔ ∀ leaf ∈ node.leaves, leaf.dataStatus = .nodata) ∧
  (node.info.dataStatus = .ok ↔ node.leaves ≠ [] ∧ ∀ leaf ∈ node.leaves, leaf.dataStatus = .ok)

def rollUp (statuses : List DataStatus) : DataStatus :=
  if statuses.all (· = .nodata) then .nodata
  else if statuses.any (· ≠ .ok) then .incomplete
  else .ok

theorem rollUp_eq_nodata_iff (statuses : List DataStatus) :
    rollUp statuses = .nodata ↔ ∀ status ∈ statuses, status = .nodata := by
  rw [rollUp]
  split
  · next blank => simpa using blank
  · next left =>
      refine iff_of_false (by split <;> decide) ?_
      simpa using left

theorem rollUp_eq_ok_iff (statuses : List DataStatus) :
    rollUp statuses = .ok ↔ statuses ≠ [] ∧ ∀ status ∈ statuses, status = .ok := by
  rw [rollUp]
  split
  · next blank =>
      refine iff_of_false (by decide) ?_
      rintro ⟨nonempty, all⟩
      obtain ⟨status, member⟩ := List.exists_mem_of_ne_nil _ nonempty
      have nodata : status = .nodata := by simpa using List.all_eq_true.mp blank status member
      exact absurd ((all status member).symm.trans nodata) (by decide)
  · next left =>
      split
      · next other =>
          refine iff_of_false (by decide) fun both => ?_
          obtain ⟨status, member, notOk⟩ := List.any_eq_true.mp other
          exact (of_decide_eq_true notOk) (both.2 status member)
      · next all =>
          refine iff_of_true rfl ⟨?_, by simpa using all⟩
          rintro rfl
          exact left rfl

theorem dataStatus_eq_iff (left right : DataStatus) :
    left = right ↔ (left = .nodata ↔ right = .nodata) ∧ (left = .ok ↔ right = .ok) := by
  cases left <;> cases right <;> decide

theorem rollUp_congr {left right : List DataStatus}
    (same : ∀ status, status ∈ left ↔ status ∈ right) : rollUp left = rollUp right := by
  have empty : left = [] ↔ right = [] := by
    simp only [List.eq_nil_iff_forall_not_mem, same]
  rw [dataStatus_eq_iff, rollUp_eq_nodata_iff, rollUp_eq_nodata_iff, rollUp_eq_ok_iff,
    rollUp_eq_ok_iff]
  simp only [same, ne_eq, empty, and_self]

theorem groupStatus_eq (hosts : List SliHost) :
    groupStatus hosts = rollUp (hosts.map (·.dataStatus)) := by
  cases hosts with
  | nil => rfl
  | cons first rest => simp [groupStatus, rollUp]

theorem statusMatches_iff (node : DerivedServiceNode) :
    StatusMatches node ↔ node.info.dataStatus = rollUp (node.leaves.map (·.dataStatus)) := by
  rw [dataStatus_eq_iff, rollUp_eq_nodata_iff, rollUp_eq_ok_iff, StatusMatches]
  simp only [List.forall_mem_map, ne_eq, List.map_eq_nil_iff]

section Nodes

variable {intl : Intl} {report : SliReport} (problems : List ZbxProblem)

theorem statuses_of_hostLeaves (hosts : List SliHost) :
    (hosts.map (hostLeaf report problems)).map (·.dataStatus) = hosts.map (·.dataStatus) := by
  rw [List.map_map]
  rfl

theorem statuses_of_webLeaves (web : List SliWeb) :
    (web.map (webLeaf report)).map (·.dataStatus) = web.map (·.dataStatus) := by
  rw [List.map_map]
  rfl

/-- A host its site's node shows: legs of a path are under the path's site only. -/
def shownAt (report : SliReport) (code : Nat) (m : SliHost) : Bool :=
  m.deviceClass ≠ .wanLink ||
    (report.wanPaths.any fun p =>
      p.site.map (·.code) = some code && p.legs.any fun l => l.hostid = m.hostid) ||
    !(report.wanPaths.any fun p => p.legs.any fun l => l.hostid = m.hostid)

theorem mem_leaves_classNode {code : Nat} {cls : DeviceClass} {members : List SliHost}
    (inClass : ∀ m ∈ members, m.deviceClass = cls) (leaf : NodeInfo) :
    leaf ∈ (classNode intl report problems code cls members).leaves ↔
      leaf ∈ (members.filter (shownAt report code)).map (hostLeaf report problems) := by
  have byName : ∀ hosts, ∀ m, m ∈ byName intl hosts ↔ m ∈ hosts := fun hosts m =>
    (byName_perm intl hosts).mem_iff
  unfold classNode
  split
  · next other =>
      have all : members.filter (shownAt report code) = members :=
        List.filter_eq_self.mpr fun m inMembers => by
          simp [shownAt, inClass m inMembers, other]
      rw [leaves_groupNode _ _ _ _ _ _ (by decide), leaves_hostNodes, all]
      simp only [List.mem_map, byName]
  · next leg =>
      have leg : cls = .wanLink := not_not.mp leg
      rw [leaves_groupNode _ _ _ _ _ _ (by decide), List.flatMap_append, leaves_hostNodes,
        List.flatMap_map]
      simp only [leaves_pathNode, List.mem_append, List.mem_flatMap, List.mem_map, legsIn, looseLegs,
        byName, List.mem_filter]
      constructor
      · rintro (⟨p, ⟨inPaths, here⟩, m, ⟨member, isLeg⟩, rfl⟩ | ⟨m, ⟨member, loose⟩, rfl⟩)
        · refine ⟨m, ⟨member, ?_⟩, rfl⟩
          have shownHere : (report.wanPaths.any fun p =>
              p.site.map (·.code) = some code && p.legs.any fun l => l.hostid = m.hostid) = true :=
            List.any_eq_true.mpr ⟨p, inPaths, by rw [here, isLeg]; rfl⟩
          rw [shownAt, shownHere, Bool.or_true, Bool.true_or]
        · exact ⟨m, ⟨member, by rw [shownAt, loose, Bool.or_true]⟩, rfl⟩
      · rintro ⟨m, ⟨member, shown⟩, rfl⟩
        have isWan : decide (m.deviceClass ≠ .wanLink) = false := by
          simp [inClass m member, leg]
        rw [shownAt, isWan, Bool.false_or, Bool.or_eq_true] at shown
        rcases shown with here | loose
        · obtain ⟨p, inPaths, both⟩ := List.any_eq_true.mp here
          rw [Bool.and_eq_true] at both
          exact .inl ⟨p, ⟨inPaths, both.1⟩, m, ⟨member, both.2⟩, rfl⟩
        · exact .inr ⟨m, ⟨member, loose⟩, rfl⟩

theorem mem_leaves_siteNode {code : Nat} {hosts : List SliHost} (leaf : NodeInfo) :
    leaf ∈ (siteNode intl report problems code hosts).leaves ↔
      leaf ∈ (hosts.filter (shownAt report code)).map (hostLeaf report problems) := by
  unfold siteNode
  rw [leaves_groupNode _ _ _ _ _ _ (by decide), classNodes, List.flatMap_map]
  simp only [List.mem_flatMap, mem_sortBy]
  constructor
  · rintro ⟨⟨cls, members⟩, entry, inClass⟩
    have content := groupBy_bucket entry
    rw [mem_leaves_classNode problems (fun m member => by
      rw [content] at member
      simpa using (List.mem_filter.mp member).2)] at inClass
    obtain ⟨m, member, rfl⟩ := List.mem_map.mp inClass
    obtain ⟨inMembers, shown⟩ := List.mem_filter.mp member
    rw [content] at inMembers
    exact List.mem_map_of_mem (List.mem_filter.mpr ⟨List.mem_of_mem_filter inMembers, shown⟩)
  · intro inHosts
    obtain ⟨m, member, rfl⟩ := List.mem_map.mp inHosts
    obtain ⟨inHosts, shown⟩ := List.mem_filter.mp member
    refine ⟨_, groupBy_entry_of_mem (·.deviceClass) inHosts, ?_⟩
    rw [mem_leaves_classNode problems fun other inside => by
      simpa using (List.mem_filter.mp inside).2]
    exact List.mem_map_of_mem (List.mem_filter.mpr
      ⟨List.mem_filter.mpr ⟨inHosts, by simp⟩, shown⟩)

/-- Every site, class and business node of a subtree has the status of what it shows. -/
def StatusesBelow : DerivedServiceNode → Prop :=
  Below fun node => isGroup node.info.kind = true → StatusMatches node

theorem statusesBelow_groupNode (id name : String) (kind : DerivedKind) (hosts : List SliHost)
    (children : List DerivedServiceNode) (group : Option SliGroup) :
    StatusesBelow (groupNode report id name kind hosts children group) ↔
      (isGroup kind = true →
        StatusMatches (groupNode report id name kind hosts children group)) ∧
        ∀ child ∈ children, StatusesBelow child := by
  unfold groupNode finish
  exact below_node _ _ _

theorem statusesBelow_of_ungrouped {node : DerivedServiceNode}
    (ungrouped : isGroup node.info.kind = false)
    (children : ∀ child ∈ node.children, StatusesBelow child) : StatusesBelow node := by
  refine (below_iff_children _ _).mpr ⟨fun group => ?_, children⟩
  rw [ungrouped] at group
  cases group

theorem statusesBelow_hostNodes (hosts : List SliHost) :
    ∀ child ∈ hosts.map (hostNode report problems), StatusesBelow child := by
  intro child member
  obtain ⟨h, -, rfl⟩ := List.mem_map.mp member
  exact statusesBelow_of_ungrouped rfl fun child nothing => nomatch nothing

theorem statusesBelow_webNodes (web : List SliWeb) :
    ∀ child ∈ web.map (webNode report), StatusesBelow child := by
  intro child member
  obtain ⟨w, -, rfl⟩ := List.mem_map.mp member
  exact statusesBelow_of_ungrouped rfl fun child nothing => nomatch nothing

theorem statusesBelow_pathNode (members : List SliHost) (p : SliPath) :
    StatusesBelow (pathNode intl report problems members p) :=
  statusesBelow_of_ungrouped rfl (statusesBelow_hostNodes problems _)

/-- A group of hosts that shows some of them has their status when the others do not change it. -/
theorem statusMatches_of_hosts {node : DerivedServiceNode} {hosts shownHosts : List SliHost}
    (status : node.info.dataStatus = groupStatus hosts)
    (leaves : ∀ leaf, leaf ∈ node.leaves ↔ leaf ∈ shownHosts.map (hostLeaf report problems)) :
    StatusMatches node ↔
      rollUp (hosts.map (·.dataStatus)) = rollUp (shownHosts.map (·.dataStatus)) := by
  have same : rollUp (node.leaves.map (·.dataStatus)) = rollUp (shownHosts.map (·.dataStatus)) := by
    rw [← @statuses_of_hostLeaves report problems]
    exact rollUp_congr fun status => by simp only [List.mem_map, leaves]
  rw [statusMatches_iff, status, groupStatus_eq, same]

theorem statusMatches_classNode_iff {code : Nat} {cls : DeviceClass} {members : List SliHost}
    (inClass : ∀ m ∈ members, m.deviceClass = cls) :
    StatusMatches (classNode intl report problems code cls members) ↔
      rollUp (members.map (·.dataStatus)) =
        rollUp ((members.filter (shownAt report code)).map (·.dataStatus)) := by
  refine statusMatches_of_hosts problems ?_ (mem_leaves_classNode problems inClass)
  unfold classNode
  split <;> rfl

theorem statusesBelow_classNode_iff {code : Nat} {cls : DeviceClass} {members : List SliHost}
    (inClass : ∀ m ∈ members, m.deviceClass = cls) :
    StatusesBelow (classNode intl report problems code cls members) ↔
      rollUp (members.map (·.dataStatus)) =
        rollUp ((members.filter (shownAt report code)).map (·.dataStatus)) := by
  have below : ∀ child ∈ (classNode intl report problems code cls members).children,
      StatusesBelow child := by
    unfold classNode
    split
    · exact statusesBelow_hostNodes problems _
    · intro child member
      rcases List.mem_append.mp member with inPaths | loose
      · obtain ⟨p, -, rfl⟩ := List.mem_map.mp inPaths
        exact statusesBelow_pathNode problems members p
      · exact statusesBelow_hostNodes problems _ child loose
  have group : isGroup (classNode intl report problems code cls members).info.kind = true := by
    unfold classNode
    split <;> rfl
  rw [← @statusMatches_classNode_iff intl report problems code cls members inClass, StatusesBelow,
    below_iff_children]
  exact ⟨fun both => both.1 group, fun self => ⟨fun _ => self, below⟩⟩

/-- The legs of a site whose path is shown elsewhere change neither its status nor that of its
WAN links. -/
def LegsElsewhereAgree (report : SliReport) : Prop :=
  ∀ entry ∈ (bySite report).entries,
    rollUp (entry.2.map (·.dataStatus)) =
        rollUp ((entry.2.filter (shownAt report entry.1)).map (·.dataStatus)) ∧
      rollUp ((entry.2.filter fun m => m.deviceClass = .wanLink).map (·.dataStatus)) =
        rollUp (((entry.2.filter fun m => m.deviceClass = .wanLink).filter
          (shownAt report entry.1)).map (·.dataStatus))

theorem statusesBelow_siteNode_iff (code : Nat) (hosts : List SliHost) :
    StatusesBelow (siteNode intl report problems code hosts) ↔
      rollUp (hosts.map (·.dataStatus)) =
          rollUp ((hosts.filter (shownAt report code)).map (·.dataStatus)) ∧
        rollUp ((hosts.filter fun m => m.deviceClass = .wanLink).map (·.dataStatus)) =
          rollUp (((hosts.filter fun m => m.deviceClass = .wanLink).filter
            (shownAt report code)).map (·.dataStatus)) := by
  have self : StatusMatches (siteNode intl report problems code hosts) ↔
      rollUp (hosts.map (·.dataStatus)) =
        rollUp ((hosts.filter (shownAt report code)).map (·.dataStatus)) :=
    statusMatches_of_hosts problems rfl (mem_leaves_siteNode problems)
  have classes : (∀ child ∈ classNodes intl report problems code hosts, StatusesBelow child) ↔
      rollUp ((hosts.filter fun m => m.deviceClass = .wanLink).map (·.dataStatus)) =
        rollUp (((hosts.filter fun m => m.deviceClass = .wanLink).filter
          (shownAt report code)).map (·.dataStatus)) := by
    have inClass : ∀ cls, ∀ m ∈ hosts.filter fun m => m.deviceClass = cls,
        m.deviceClass = cls := fun cls m member => by
      simpa using (List.mem_filter.mp member).2
    simp only [classNodes, List.forall_mem_map, mem_sortBy]
    constructor
    · intro all
      by_cases empty : ∃ m ∈ hosts, m.deviceClass = .wanLink
      · obtain ⟨m, member, isWan⟩ := empty
        have entry := groupBy_entry_of_mem (·.deviceClass) member
        rw [isWan] at entry
        exact (statusesBelow_classNode_iff problems (inClass .wanLink)).mp (all _ entry)
      · have bare : (hosts.filter fun m => m.deviceClass = .wanLink) = [] := by
          rw [List.filter_eq_nil_iff]
          intro m member isWan
          exact empty ⟨m, member, of_decide_eq_true isWan⟩
        rw [bare]
        rfl
    · rintro legs ⟨cls, members⟩ entry
      have content := groupBy_bucket entry
      subst content
      refine (statusesBelow_classNode_iff problems (inClass cls)).mpr ?_
      by_cases isWan : cls = .wanLink
      · subst isWan
        exact legs
      · have all : (hosts.filter fun m => m.deviceClass = cls).filter (shownAt report code) =
            hosts.filter fun m => m.deviceClass = cls :=
          List.filter_eq_self.mpr fun m member => by simp [shownAt, inClass cls m member, isWan]
        rw [all]
  rw [← self, ← classes, siteNode, statusesBelow_groupNode]
  exact ⟨fun both => ⟨both.1 rfl, both.2⟩, fun both => ⟨fun _ => both.1, both.2⟩⟩

theorem statusesBelow_unassignedNodes :
    ∀ child ∈ unassignedNodes intl report problems, StatusesBelow child := by
  unfold unassignedNodes
  simp only
  split
  · exact fun child impossible => nomatch impossible
  · intro child member
    have shows : ∀ leaf, leaf ∈ (groupNode report "derived:unassigned" "Unassigned" .site
        (unassigned report) ((byName intl (unassigned report)).map (hostNode report problems))
        none).leaves ↔ leaf ∈ (unassigned report).map (hostLeaf report problems) := by
      intro leaf
      rw [leaves_groupNode _ _ _ _ _ _ (by decide), leaves_hostNodes]
      exact ((byName_perm intl _).map _).mem_iff
    rw [List.mem_singleton.mp member, statusesBelow_groupNode]
    exact ⟨fun _ => (statusMatches_of_hosts problems rfl shows).mpr rfl,
      statusesBelow_hostNodes problems _⟩

/-- When the business node's status is that of its web checks and hosts: by its figures and web
checks it is ok or incomplete, whatever the hosts say. -/
def BusinessAgrees (report : SliReport) : Prop :=
  let hosts := report.hosts.filter isBusiness
  let statuses := report.web.map (·.dataStatus) ++ hosts.map (·.dataStatus)
  if (∃ h ∈ hosts, h.sli ≠ none) ∨ ∃ w ∈ report.web, w.sli ≠ none then
    if ∃ w ∈ report.web, w.dataStatus = .ok then ∀ status ∈ statuses, status = .ok
    else (∃ status ∈ statuses, status ≠ .nodata) ∧
      (report.web ≠ [] ∨ ∃ h ∈ hosts, h.dataStatus ≠ .ok)
  else rollUp (hosts.map (·.dataStatus)) = rollUp statuses

private theorem businessStatus_iff (web : List SliWeb) (hosts : List SliHost) :
    ((if web.any fun w => w.dataStatus = .ok then DataStatus.ok else .incomplete) =
        rollUp (web.map (·.dataStatus) ++ hosts.map (·.dataStatus))) ↔
      if ∃ w ∈ web, w.dataStatus = .ok then
        ∀ status ∈ web.map (·.dataStatus) ++ hosts.map (·.dataStatus), status = .ok
      else (∃ status ∈ web.map (·.dataStatus) ++ hosts.map (·.dataStatus), status ≠ .nodata) ∧
        (web ≠ [] ∨ ∃ h ∈ hosts, h.dataStatus ≠ .ok) := by
  by_cases up : ∃ w ∈ web, w.dataStatus = .ok
  · obtain ⟨w, inWeb, isOk⟩ := up
    have anyOk : (web.any fun w => w.dataStatus = .ok) = true :=
      List.any_eq_true.mpr ⟨w, inWeb, decide_eq_true isOk⟩
    have nonempty : web.map (·.dataStatus) ++ hosts.map (·.dataStatus) ≠ [] :=
      List.ne_nil_of_mem (List.mem_append_left _ (List.mem_map_of_mem inWeb))
    rw [if_pos anyOk, if_pos ⟨w, inWeb, isOk⟩, eq_comm, rollUp_eq_ok_iff]
    exact and_iff_right nonempty
  · have noneOk : ¬ (web.any fun w => w.dataStatus = .ok) = true := by
      intro anyOk
      obtain ⟨w, inWeb, isOk⟩ := List.any_eq_true.mp anyOk
      exact up ⟨w, inWeb, of_decide_eq_true isOk⟩
    have others : ¬ (∀ status ∈ web.map (·.dataStatus) ++ hosts.map (·.dataStatus), status = .ok) ↔
        web ≠ [] ∨ ∃ h ∈ hosts, h.dataStatus ≠ .ok := by
      constructor
      · intro notAll
        by_cases empty : web = []
        · subst empty
          refine .inr ?_
          by_contra allOk
          push Not at allOk
          exact notAll (by simpa using allOk)
        · exact .inl empty
      · rintro (nonempty | ⟨h, inHosts, notOk⟩) all
        · obtain ⟨w, inWeb⟩ := List.exists_mem_of_ne_nil _ nonempty
          exact up ⟨w, inWeb, all _ (List.mem_append_left _ (List.mem_map_of_mem inWeb))⟩
        · exact notOk (all _ (List.mem_append_right _ (List.mem_map_of_mem inHosts)))
    rw [if_neg noneOk, if_neg up, ← others, dataStatus_eq_iff, rollUp_eq_nodata_iff,
      rollUp_eq_ok_iff]
    generalize web.map (·.dataStatus) ++ hosts.map (·.dataStatus) = statuses
    constructor
    · rintro ⟨nodata, ok⟩
      have found : ∃ status ∈ statuses, status ≠ .nodata := by
        by_contra all
        push Not at all
        exact absurd (nodata.mpr all) (by decide)
      refine ⟨found, fun all => ?_⟩
      obtain ⟨status, member, -⟩ := found
      exact absurd (ok.mpr ⟨List.ne_nil_of_mem member, all⟩) (by decide)
    · rintro ⟨⟨status, member, hasData⟩, notAll⟩
      exact ⟨iff_of_false (by decide) fun all => hasData (all status member),
        iff_of_false (by decide) fun both => notAll both.2⟩

theorem statusMatches_businessNode_iff :
    StatusMatches (businessNode intl report problems) ↔ BusinessAgrees report := by
  have figures : businessFigures intl report ≠ [] ↔
      (∃ h ∈ report.hosts.filter isBusiness, h.sli ≠ none) ∨ ∃ w ∈ report.web, w.sli ≠ none := by
    have member : ∀ h, h ∈ businessHosts intl report ↔ h ∈ report.hosts.filter isBusiness :=
      fun h => (byName_perm intl _).mem_iff
    have nonempty : ∀ list : List ℚ, list ≠ [] ↔ ∃ figure, figure ∈ list := fun list =>
      ⟨List.exists_mem_of_ne_nil list, fun ⟨_, inside⟩ => List.ne_nil_of_mem inside⟩
    rw [businessFigures, nonempty]
    simp only [List.mem_filterMap, List.mem_append, List.mem_map, member, id]
    constructor
    · rintro ⟨figure, sli, ⟨w, inWeb, rfl⟩ | ⟨h, inHosts, rfl⟩, present⟩
      · exact .inr ⟨w, inWeb, by rw [present]; exact Option.some_ne_none figure⟩
      · exact .inl ⟨h, inHosts, by rw [present]; exact Option.some_ne_none figure⟩
    · rintro (⟨h, inHosts, present⟩ | ⟨w, inWeb, present⟩)
      · obtain ⟨figure, isFigure⟩ := Option.ne_none_iff_exists'.mp present
        exact ⟨figure, _, .inr ⟨h, inHosts, rfl⟩, isFigure⟩
      · obtain ⟨figure, isFigure⟩ := Option.ne_none_iff_exists'.mp present
        exact ⟨figure, _, .inl ⟨w, inWeb, rfl⟩, isFigure⟩
  have hostStatuses : ∀ status,
      status ∈ (businessHosts intl report).map (·.dataStatus) ↔
        status ∈ (report.hosts.filter isBusiness).map (·.dataStatus) := fun status =>
    ((byName_perm intl _).map _).mem_iff
  have leaves : rollUp ((businessNode intl report problems).leaves.map (·.dataStatus)) =
      rollUp (report.web.map (·.dataStatus) ++
        (report.hosts.filter isBusiness).map (·.dataStatus)) := by
    rw [leaves_businessNode, List.map_append, statuses_of_webLeaves, statuses_of_hostLeaves]
    exact rollUp_congr fun status => by rw [List.mem_append, List.mem_append, hostStatuses]
  rw [statusMatches_iff, leaves, BusinessAgrees]
  cases figure : mean (businessFigures intl report) with
  | none =>
      have status : (businessNode intl report problems).info.dataStatus =
          groupStatus (businessHosts intl report) := by
        simp only [businessNode, figure]
        rfl
      rw [if_neg fun present => figures.mpr present ((mean_eq_none_iff _).mp figure), status,
        groupStatus_eq, rollUp_congr hostStatuses]
  | some sli =>
      have filled : businessFigures intl report ≠ [] := fun empty => by
        rw [(mean_eq_none_iff _).mpr empty] at figure
        cases figure
      have status : (businessNode intl report problems).info.dataStatus =
          if report.web.any fun w => w.dataStatus = .ok then .ok else .incomplete := by
        simp only [businessNode, figure, info_update]
      rw [if_pos (figures.mp filled), status]
      exact businessStatus_iff report.web (report.hosts.filter isBusiness)

theorem statusesBelow_businessNode_iff :
    StatusesBelow (businessNode intl report problems) ↔ BusinessAgrees report := by
  have below : ∀ child ∈ (businessNode intl report problems).children, StatusesBelow child := by
    have children : (businessNode intl report problems).children =
        report.web.map (webNode report) ++
          (businessHosts intl report).map (hostNode report problems) := by
      unfold businessNode
      simp only
      split
      · rfl
      · rw [children_update]
        rfl
    rw [children]
    intro child member
    rcases List.mem_append.mp member with inWeb | inHosts
    · exact statusesBelow_webNodes report.web child inWeb
    · exact statusesBelow_hostNodes problems _ child inHosts
  have group : isGroup (businessNode intl report problems).info.kind = true := by
    unfold businessNode
    simp only
    split
    · rfl
    · rw [info_update]
      rfl
  rw [← @statusMatches_businessNode_iff intl report problems, StatusesBelow, below_iff_children]
  exact ⟨fun both => both.1 group, fun self => ⟨fun _ => self, below⟩⟩

end Nodes

theorem statusesBelow_rootNode_iff (intl : Intl) (report : SliReport)
    (problems : List ZbxProblem) :
    StatusesBelow (rootNode intl report problems) ↔
      BusinessAgrees report ∧ LegsElsewhereAgree report := by
  have business : (∀ child ∈ businessNodes intl report problems, StatusesBelow child) ↔
      BusinessAgrees report := by
    unfold businessNodes
    split
    · next absent =>
        rw [List.isEmpty_iff, List.isEmpty_iff] at absent
        have noHosts : report.hosts.filter isBusiness = [] :=
          List.perm_nil.mp ((byName_perm intl _).symm.trans (List.Perm.of_eq absent.1))
        simp [BusinessAgrees, noHosts, absent.2]
    · rw [List.forall_mem_singleton, statusesBelow_businessNode_iff]
  have sites : (∀ child ∈ siteNodes intl report problems, StatusesBelow child) ↔
      LegsElsewhereAgree report := by
    simp only [siteNodes, List.forall_mem_map, mem_sortBy, statusesBelow_siteNode_iff]
    rfl
  rw [rootNode, statusesBelow_groupNode, ← business, ← sites]
  constructor
  · rintro ⟨-, all⟩
    exact ⟨fun child member => all child (List.mem_append_left _ member), fun child member =>
      all child (List.mem_append_right _ (List.mem_append_left _ member))⟩
  · rintro ⟨inBusiness, inSites⟩
    refine ⟨fun group => absurd group (by decide), fun child member => ?_⟩
    rcases List.mem_append.mp member with first | rest
    · exact inBusiness child first
    · rcases List.mem_append.mp rest with second | third
      · exact inSites child second
      · exact statusesBelow_unassignedNodes problems child third

/-- Every site, class and business node has the status of the devices and web checks under it
exactly when the business rule gives theirs and legs shown elsewhere do not matter. -/
theorem tree_statuses_match_iff (intl : Intl) (report : SliReport) (problems : List ZbxProblem)
    (month : String) :
    (∀ node ∈ (buildDerivedTree intl report problems month).tree, StatusesBelow node) ↔
      BusinessAgrees report ∧ LegsElsewhereAgree report := by
  rw [← statusesBelow_rootNode_iff intl report problems]
  exact List.forall_mem_singleton

/-- A server measured throughout, no web check: the business node above it is incomplete. -/
theorem measured_server_is_incomplete :
    (businessNode asciiIntl mixedReport []).info.dataStatus = .incomplete ∧
      (businessNode asciiIntl mixedReport []).leaves.map (·.dataStatus) = [.ok] ∧
      ¬ ∀ node ∈ (buildDerivedTree asciiIntl mixedReport [] "").tree, StatusesBelow node := by
  have status : (businessNode asciiIntl mixedReport []).info.dataStatus = .incomplete := by
    decide +kernel
  have leaves : (businessNode asciiIntl mixedReport []).leaves.map (·.dataStatus) = [.ok] := by
    decide +kernel
  refine ⟨status, leaves, fun all => ?_⟩
  have root : StatusesBelow (rootNode asciiIntl mixedReport []) := List.forall_mem_singleton.mp all
  have agrees := ((statusesBelow_rootNode_iff asciiIntl mixedReport []).mp root).1
  have matches' := (@statusMatches_businessNode_iff asciiIntl mixedReport []).mpr agrees
  rw [statusMatches_iff, status, leaves] at matches'
  exact absurd matches' (by decide)

end ZabbixPortal.Sli
