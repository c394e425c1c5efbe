import ZabbixPortal.Sli.TreeDevices

/-! Whether the figure of a tree node is the mean of what the node shows. -/

set_option autoImplicit false

namespace ZabbixPortal.Sli

open Foundation Domain DerivedServiceNode

def leafFigures (node : DerivedServiceNode) : List ℚ :=
  node.leaves.filterMap fun leaf => leaf.sla.map (·.sli)

/-- The node's figure is the plain mean of its leaves' and absent when they have none. -/
def MeanOfLeaves (node : DerivedServiceNode) : Prop :=
  node.info.sla.map (·.sli) = mean (leafFigures node)

def isGroup (kind : DerivedKind) : Bool :=
  kind = .site || kind = .classGroup || kind = .business

/-- Every site, class and business node of a subtree has the mean of its leaves. -/
def MeansBelow (node : DerivedServiceNode) : Prop :=
  ∀ inner ∈ node.subtree, isGroup inner.info.kind = true → MeanOfLeaves inner

def figuresOf (hosts : List SliHost) : List ℚ := hosts.filterMap (·.sli)

section Nodes

variable {intl : Intl} {report : SliReport} (problems : List ZbxProblem)

theorem slaFor_sli (sli errorBudget : Option ℚ) (target : ℚ) :
    (slaFor sli errorBudget target).map (·.sli) = sli := by
  cases sli <;> rfl

@[simp] theorem hostLeaf_figure (h : SliHost) :
    (hostLeaf report problems h).sla.map (·.sli) = h.sli := slaFor_sli _ _ _

@[simp] theorem webLeaf_figure (w : SliWeb) : (webLeaf report w).sla.map (·.sli) = w.sli :=
  slaFor_sli _ _ _

theorem figures_of_hostLeaves (hosts : List SliHost) :
    ((hosts.map (hostLeaf report problems)).filterMap fun leaf => leaf.sla.map (·.sli)) =
      figuresOf hosts := by
  rw [List.filterMap_map]
  exact List.filterMap_congr fun h _ => hostLeaf_figure problems h

theorem figures_of_webLeaves (web : List SliWeb) :
    ((web.map (webLeaf report)).filterMap fun leaf => leaf.sla.map (·.sli)) =
      web.filterMap (·.sli) := by
  rw [List.filterMap_map]
  exact List.filterMap_congr fun w _ => webLeaf_figure w

/-- The figure of a group that shows the hosts it is aggregated from. -/
theorem mean_of_leaves_perm {node : DerivedServiceNode} (hosts : List SliHost)
    {shownHosts : List SliHost} (figure : node.info.sla.map (·.sli) = mean (figuresOf hosts))
    (leaves : node.leaves.Perm (shownHosts.map (hostLeaf report problems))) :
    MeanOfLeaves node ↔ mean (figuresOf hosts) = mean (figuresOf shownHosts) := by
  have figures := leaves.filterMap fun leaf => leaf.sla.map (·.sli)
  rw [figures_of_hostLeaves] at figures
  rw [MeanOfLeaves, figure, leafFigures, mean_perm figures]

theorem meansBelow_node (own : NodeInfo) (children : List DerivedServiceNode) :
    MeansBelow (.node own children) ↔
      (isGroup own.kind = true → MeanOfLeaves (.node own children)) ∧
        ∀ child ∈ children, MeansBelow child :=
  below_node (fun inner => isGroup inner.info.kind = true → MeanOfLeaves inner) own children

theorem meansBelow_update {change : NodeInfo → NodeInfo} (node : DerivedServiceNode) :
    MeansBelow (node.update change) ↔
      (isGroup (node.update change).info.kind = true → MeanOfLeaves (node.update change)) ∧
        ∀ child ∈ node.children, MeansBelow child := by
  obtain ⟨own, children⟩ := node
  exact meansBelow_node _ _

theorem meansBelow_groupNode (id name : String) (kind : DerivedKind) (hosts : List SliHost)
    (children : List DerivedServiceNode) (group : Option SliGroup) :
    MeansBelow (groupNode report id name kind hosts children group) ↔
      (isGroup kind = true →
        MeanOfLeaves (groupNode report id name kind hosts children group)) ∧
        ∀ child ∈ children, MeansBelow child := by
  unfold groupNode finish
  exact meansBelow_node _ _

theorem groupNode_figure (id name : String) (kind : DerivedKind) (hosts : List SliHost)
    (children : List DerivedServiceNode) :
    (groupNode report id name kind hosts children none).info.sla.map (·.sli) =
      mean (figuresOf hosts) := slaFor_sli _ _ _

theorem meansBelow_hostNode (h : SliHost) : MeansBelow (hostNode report problems h) := by
  unfold hostNode finish
  exact (meansBelow_node _ _).mpr ⟨fun group => absurd group (by simp [isGroup]), by simp⟩

theorem meansBelow_webNode (w : SliWeb) : MeansBelow (webNode report w) := by
  unfold webNode finish
  exact (meansBelow_node _ _).mpr ⟨fun group => absurd group (by simp [isGroup]), by simp⟩

theorem meansBelow_hostNodes (hosts : List SliHost) :
    ∀ child ∈ hosts.map (hostNode report problems), MeansBelow child := by
  intro child member
  obtain ⟨h, _, rfl⟩ := List.mem_map.mp member
  exact meansBelow_hostNode problems h

theorem meansBelow_pathNode (members : List SliHost) (p : SliPath) :
    MeansBelow (pathNode intl report problems members p) := by
  unfold pathNode
  simp only
  rw [meansBelow_update]
  exact ⟨fun group => absurd group (by simp [isGroup]), meansBelow_hostNodes problems _⟩

theorem meansBelow_classNode (own : OwnHosts intl report)
    (placed : LegsAtPathSite intl report.hosts) {code : Nat} {cls : DeviceClass}
    {members : List SliHost} (inReport : ∀ m ∈ members, m ∈ report.hosts)
    (atSite : ∀ m ∈ members, m.site.map (·.code) = some code)
    (inClass : ∀ m ∈ members, m.deviceClass = cls) :
    MeansBelow (classNode intl report problems code cls members) := by
  have all : members.filter (shown intl report.hosts) = members :=
    List.filter_eq_self.mpr fun m inMembers =>
      (legsAtPathSite_iff_shown intl report.hosts).mp placed m (inReport m inMembers)
  have leaves := leaves_classNode_perm problems own inReport atSite inClass
  rw [all] at leaves
  have self : MeanOfLeaves (classNode intl report problems code cls members) := by
    refine (mean_of_leaves_perm problems members ?_ leaves).mpr rfl
    unfold classNode
    split <;> exact groupNode_figure _ _ _ _ _
  unfold classNode at self ⊢
  split at self
  · next other =>
      rw [if_pos other]
      exact (meansBelow_groupNode _ _ _ _ _ _).mpr
        ⟨fun _ => self, meansBelow_hostNodes problems _⟩
  · next leg =>
      rw [if_neg leg]
      refine (meansBelow_groupNode _ _ _ _ _ _).mpr ⟨fun _ => self, fun child member => ?_⟩
      rcases List.mem_append.mp member with inPaths | loose
      · obtain ⟨p, _, rfl⟩ := List.mem_map.mp inPaths
        exact meansBelow_pathNode problems members p
      · exact meansBelow_hostNodes problems _ child loose

/-- The business node's own mean counts the web checks as well. -/
theorem meansBelow_businessNode : MeansBelow (businessNode intl report problems) := by
  have figures : leafFigures (businessNode intl report problems) =
      businessFigures intl report := by
    rw [leafFigures, leaves_businessNode, List.filterMap_append, figures_of_webLeaves,
      figures_of_hostLeaves, businessFigures, List.filterMap_append, List.filterMap_map,
      List.filterMap_map]
    rfl
  have below : ∀ child ∈ report.web.map (webNode report) ++
      (businessHosts intl report).map (hostNode report problems), MeansBelow child := by
    intro child member
    rcases List.mem_append.mp member with inWeb | inHosts
    · obtain ⟨w, _, rfl⟩ := List.mem_map.mp inWeb
      exact meansBelow_webNode w
    · exact meansBelow_hostNodes problems _ child inHosts
  have self : MeanOfLeaves (businessNode intl report problems) := by
    rw [MeanOfLeaves, figures]
    unfold businessNode
    simp only
    split
    · next absent =>
        rw [groupNode_figure, absent, mean_eq_none_iff]
        have empty := (mean_eq_none_iff _).mp absent
        rw [businessFigures, List.filterMap_append, List.append_eq_nil_iff,
          List.filterMap_map] at empty
        have hosts : figuresOf (businessHosts intl report) = [] := by
          have second := empty.2
          rw [List.filterMap_map] at second
          exact second
        exact hosts
    · next sli found =>
        rw [found, info_update]
        exact slaFor_sli (some sli) none report.target
  unfold businessNode at self ⊢
  simp only at self ⊢
  split at self
  · exact (meansBelow_groupNode _ _ _ _ _ _).mpr ⟨fun _ => self, below⟩
  · exact (meansBelow_update _).mpr ⟨fun _ => self, below⟩

end Nodes

section Sites

variable {intl : Intl} {report : SliReport}

def hostsAt (report : SliReport) (code : Nat) : List SliHost :=
  report.hosts.filter fun h => h.site.map (·.code) = some code

/-- The figures of the site's hosts its node leaves to the business services. -/
def businessFiguresAt (report : SliReport) (code : Nat) : List ℚ :=
  figuresOf ((hostsAt report code).filter isBusiness)

def ownFiguresAt (report : SliReport) (code : Nat) : List ℚ :=
  figuresOf ((hostsAt report code).filter fun h => !isBusiness h)

/-- The site's group in the report takes in its business hosts. -/
theorem site_group (grouped : report.sites = sitesOf report.hosts report.target) {code : Nat}
    {h : SliHost} (member : h ∈ hostsAt report code) :
    ∃ group, (report.sites.find? fun s => s.key = .site (some code)) = some group ∧
      group.sli = mean (figuresOf (hostsAt report code)) := by
  obtain ⟨inReport, atSite⟩ := List.mem_filter.mp member
  have entry := groupBy_entry_of_mem (fun host : SliHost => host.site.map (·.code)) inReport
  rw [of_decide_eq_true atSite] at entry
  have present : (report.sites.find? fun s => s.key = .site (some code)).isSome = true := by
    rw [List.find?_isSome, grouped]
    refine ⟨_, (mem_sortBy _ _ _).mpr (List.mem_map_of_mem entry), ?_⟩
    simp [aggregate]
  obtain ⟨group, found⟩ := Option.isSome_iff_exists.mp present
  refine ⟨group, found, ?_⟩
  have key : group.key = .site (some code) := by simpa using List.find?_some found
  have inSites := List.mem_of_find?_eq_some found
  rw [grouped, sitesOf, mem_sortBy, groupHosts, List.mem_map] at inSites
  obtain ⟨⟨other, bucket⟩, inside, rfl⟩ := inSites
  have sameCode : other = some code := by
    have sites : GroupKey.site other = .site (some code) := key
    injection sites
  have content := groupBy_bucket inside
  rw [sameCode] at content
  rw [content]
  rfl

/-- A site's node has the mean of its leaves exactly when its business hosts leave
that mean alone. -/
theorem meanOfLeaves_siteNode_iff (problems : List ZbxProblem) (own : OwnHosts intl report)
    (grouped : report.sites = sitesOf report.hosts report.target)
    (placed : LegsAtPathSite intl report.hosts) {code : Nat} {hosts : List SliHost}
    (entry : (code, hosts) ∈ (bySite report).entries) :
    MeanOfLeaves (siteNode intl report problems code hosts) ↔
      businessFiguresAt report code = [] ∨
        (ownFiguresAt report code ≠ [] ∧
          mean (businessFiguresAt report code) = mean (ownFiguresAt report code)) := by
  have content : hosts = (hostsAt report code).filter fun h => !isBusiness h := by
    rw [bySite_entry entry, hostsAt, List.filter_filter]
  have inside : ∀ h ∈ hosts, h ∈ report.hosts ∧ h.site.map (·.code) = some code := by
    intro h member
    rw [content, hostsAt, List.filter_filter, List.mem_filter] at member
    exact ⟨member.1, of_decide_eq_true (Bool.and_eq_true_iff.mp member.2).2⟩
  have all : hosts.filter (shown intl report.hosts) = hosts :=
    List.filter_eq_self.mpr fun h member =>
      (legsAtPathSite_iff_shown intl report.hosts).mp placed h (inside h member).1
  have leaves := leaves_siteNode_perm problems own (fun h member => (inside h member).1)
    fun h member => (inside h member).2
  rw [all] at leaves
  obtain ⟨first, isFirst⟩ := List.exists_mem_of_ne_nil _ (groupBy_bucket_ne_nil entry)
  have firstAt : first ∈ hostsAt report code :=
    List.mem_filter.mpr ⟨(inside first isFirst).1, decide_eq_true (inside first isFirst).2⟩
  obtain ⟨group, found, figure⟩ := site_group grouped firstAt
  have nodeFigure : (siteNode intl report problems code hosts).info.sla.map (·.sli) =
      mean (figuresOf (hostsAt report code)) := by
    rw [← figure, siteNode, found]
    exact slaFor_sli _ _ _
  have split : (figuresOf (hostsAt report code)).Perm
      (ownFiguresAt report code ++ businessFiguresAt report code) := by
    have parts := List.filter_append_perm (fun h => !isBusiness h) (hostsAt report code)
    simp only [Bool.not_not] at parts
    have figures := (parts.symm).filterMap (·.sli)
    rwa [List.filterMap_append] at figures
  rw [mean_of_leaves_perm problems _ nodeFigure leaves, mean_perm split, content]
  exact mean_append_eq_iff _ _

/-- Every site that has a node: its business hosts leave its mean alone. -/
def BusinessKeepsSiteMeans (report : SliReport) : Prop :=
  ∀ code, (∃ h ∈ hostsAt report code, isBusiness h = false) →
    businessFiguresAt report code = [] ∨
      (ownFiguresAt report code ≠ [] ∧
        mean (businessFiguresAt report code) = mean (ownFiguresAt report code))

theorem meansBelow_siteNode_iff (problems : List ZbxProblem) (own : OwnHosts intl report)
    (placed : LegsAtPathSite intl report.hosts) {code : Nat} {hosts : List SliHost}
    (entry : (code, hosts) ∈ (bySite report).entries) :
    MeansBelow (siteNode intl report problems code hosts) ↔
      MeanOfLeaves (siteNode intl report problems code hosts) := by
  have inside : ∀ h ∈ hosts, h ∈ report.hosts ∧ h.site.map (·.code) = some code := by
    intro h member
    rw [bySite_entry entry, List.mem_filter] at member
    exact ⟨member.1, of_decide_eq_true (Bool.and_eq_true_iff.mp member.2).2⟩
  unfold siteNode
  rw [meansBelow_groupNode]
  refine ⟨fun both => both.1 rfl, fun self => ⟨fun _ => self, fun child member => ?_⟩⟩
  obtain ⟨⟨cls, members⟩, classEntry, rfl⟩ := List.mem_map.mp member
  have content := groupBy_bucket ((mem_sortBy _ _ _).mp classEntry)
  have inHosts : ∀ m ∈ members, m ∈ hosts ∧ m.deviceClass = cls := by
    intro m inMembers
    rw [content] at inMembers
    simpa using inMembers
  exact meansBelow_classNode problems own placed (fun m isIn => (inside m (inHosts m isIn).1).1)
    (fun m isIn => (inside m (inHosts m isIn).1).2) fun m isIn => (inHosts m isIn).2

theorem bySite_has_entry {code : Nat} :
    (∃ hosts, (code, hosts) ∈ (bySite report).entries) ↔
      ∃ h ∈ hostsAt report code, isBusiness h = false := by
  have keys : (∃ hosts, (code, hosts) ∈ (bySite report).entries) ↔ code ∈ (bySite report).keys := by
    simp [OrderedMap.keys]
  rw [keys, bySite, mem_keys_groupBy]
  simp only [hostsAt, List.mem_filter, Bool.and_eq_true, Bool.not_eq_true', decide_eq_true_eq]
  constructor
  · rintro ⟨h, ⟨inReport, other, sited⟩, same⟩
    obtain ⟨site, hasSite⟩ := Option.isSome_iff_exists.mp sited
    exact ⟨h, ⟨inReport, by simpa [hasSite] using same⟩, other⟩
  · rintro ⟨h, ⟨inReport, atSite⟩, other⟩
    obtain ⟨site, hasSite, same⟩ := Option.map_eq_some_iff.mp atSite
    exact ⟨h, ⟨inReport, other, by simp [hasSite]⟩, by simp [hasSite, same]⟩

/-- Every group node of the tree has the mean of what it shows exactly when no site's
business hosts move its mean. -/
theorem tree_figures_are_means_iff (intl : Intl) (report : SliReport) (problems : List ZbxProblem)
    (month : String) (own : OwnHosts intl report)
    (grouped : report.sites = sitesOf report.hosts report.target)
    (placed : LegsAtPathSite intl report.hosts) :
    (∀ node ∈ (buildDerivedTree intl report problems month).tree, MeansBelow node) ↔
      BusinessKeepsSiteMeans report := by
  have whole : (∀ node ∈ (buildDerivedTree intl report problems month).tree, MeansBelow node) ↔
      MeansBelow (rootNode intl report problems) := List.forall_mem_singleton
  rw [whole, rootNode, meansBelow_groupNode]
  constructor
  · rintro ⟨_, below⟩ code nonBusiness
    obtain ⟨hosts, entry⟩ := bySite_has_entry.mpr nonBusiness
    have member : siteNode intl report problems code hosts ∈ siteNodes intl report problems :=
      List.mem_map.mpr ⟨(code, hosts), (mem_sortBy _ _ _).mpr entry, rfl⟩
    have means := below _ (List.mem_append_right _ (List.mem_append_left _ member))
    exact (meanOfLeaves_siteNode_iff problems own grouped placed entry).mp
      ((meansBelow_siteNode_iff problems own placed entry).mp means)
  · intro kept
    refine ⟨fun group => absurd group (by simp [isGroup]), fun child member => ?_⟩
    rcases List.mem_append.mp member with inBusiness | later
    · unfold businessNodes at inBusiness
      split at inBusiness
      · cases inBusiness
      · rw [List.mem_singleton.mp inBusiness]
        exact meansBelow_businessNode problems
    rcases List.mem_append.mp later with inSites | inUnassigned
    · obtain ⟨⟨code, hosts⟩, sorted, rfl⟩ := List.mem_map.mp inSites
      have entry := (mem_sortBy _ _ _).mp sorted
      have nonBusiness := bySite_has_entry.mp ⟨hosts, entry⟩
      exact (meansBelow_siteNode_iff problems own placed entry).mpr
        ((meanOfLeaves_siteNode_iff problems own grouped placed entry).mpr (kept code nonBusiness))
    · unfold unassignedNodes at inUnassigned
      simp only at inUnassigned
      split at inUnassigned
      · cases inUnassigned
      · rw [List.mem_singleton.mp inUnassigned, meansBelow_groupNode]
        refine ⟨fun _ => ?_, meansBelow_hostNodes problems _⟩
        have leaves : (groupNode report "derived:unassigned" "Unassigned" .site
            (unassigned report) ((byName intl (unassigned report)).map
              (hostNode report problems)) none).leaves.Perm
            ((unassigned report).map (hostLeaf report problems)) := by
          rw [leaves_groupNode _ _ _ _ _ _ (by decide), leaves_hostNodes]
          exact (byName_perm intl _).map _
        exact (mean_of_leaves_perm problems _ (groupNode_figure _ _ _ _ _) leaves).mpr rfl

end Sites

section MixedSite

/-! A switch and a server at Jakarta, the server down for half of the window. -/

def mixedHost (hostid name : String) (down : List Interval) : HostInput :=
  { hostid, name, hostStatus := "0", category := "ICMP Ping", triggerids := [], down,
    incidents := 0, collected := [], maintenance := [], measured := true }

def mixedSite : Estate where
  context := { profile := .hcmlReport, windowFrom := 0, windowEnd := 100, target := 99,
               minCoverage := 1 / 10, noDataWindows := [], gaps := [], forward := zero_le_hundred }
  inputs := [mixedHost "10" "1.2.1 CORESWITCH" [],
    mixedHost "11" "SERVER : JAKARTA DC" [(0, 50)]]
  distinct := by decide

def mixedReport : SliReport := mixedSite.report asciiIntl none 100 true [] 100

def mixedSiteNode : DerivedServiceNode :=
  siteNode asciiIntl mixedReport [] 1 ((hostsAt mixedReport 1).filter fun h => !isBusiness h)

/-- Jakarta shows one switch of 100 and says 75, the server's half counted in. -/
theorem mixed_site_is_not_mean :
    OwnHosts asciiIntl mixedReport ∧ mixedReport.sites = sitesOf mixedReport.hosts mixedReport.target ∧
      mixedSiteNode.info.sla.map (·.sli) = some 75 ∧ leafFigures mixedSiteNode = [100] ∧
      ¬ ∀ node ∈ (buildDerivedTree asciiIntl mixedReport [] "").tree, MeansBelow node := by
  have figure : mixedSiteNode.info.sla.map (·.sli) = some 75 := by decide +kernel
  have leaves : leafFigures mixedSiteNode = [100] := by decide +kernel
  refine ⟨mixedSite.report_ownHosts asciiIntl none 100 true [] 100, rfl, figure, leaves, ?_⟩
  intro all
  have root : MeansBelow (rootNode asciiIntl mixedReport []) := all _ List.mem_cons_self
  rw [rootNode, meansBelow_groupNode] at root
  have entry : (1, (hostsAt mixedReport 1).filter fun h => !isBusiness h) ∈
      (bySite mixedReport).entries := by decide +kernel
  have member : mixedSiteNode ∈ siteNodes asciiIntl mixedReport [] :=
    List.mem_map.mpr ⟨_, (mem_sortBy _ _ _).mpr entry, rfl⟩
  have means := root.2 _ (List.mem_append_right _ (List.mem_append_left _ member))
  have self : MeanOfLeaves mixedSiteNode :=
    means mixedSiteNode (by
      unfold mixedSiteNode siteNode groupNode finish
      exact (mem_subtree_node _ _ _).mpr (.inl rfl)) rfl
  rw [MeanOfLeaves, figure, leaves] at self
  revert self
  decide +kernel

private theorem mixed_legs_placed : LegsAtPathSite asciiIntl mixedReport.hosts := by
  rw [legsAtPathSite_iff_shown]
  decide +kernel

/-- The characterisation at that report. -/
theorem tree_figures_are_means_iff_mixed :
    (∀ node ∈ (buildDerivedTree asciiIntl mixedReport [] "").tree, MeansBelow node) ↔
      BusinessKeepsSiteMeans mixedReport :=
  tree_figures_are_means_iff asciiIntl mixedReport [] ""
    (mixedSite.report_ownHosts asciiIntl none 100 true [] 100) rfl mixed_legs_placed

end MixedSite

end ZabbixPortal.Sli
