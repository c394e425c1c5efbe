import ZabbixPortal.Sli.TreeLeaves

/-! The derived tree shows every device once, except legs whose own site is not that
of their path. -/

set_option autoImplicit false

namespace ZabbixPortal.Sli

open Foundation Domain DerivedServiceNode

def hostLeaves (node : DerivedServiceNode) : List String :=
  (node.leaves.filter fun leaf => leaf.kind = .host).filterMap (·.hostid)

def ShowsEveryHostOnce (intl : Intl) (report : SliReport) (problems : List ZbxProblem)
    (month : String) : Prop :=
  ∀ host ∈ report.hosts,
    ((buildDerivedTree intl report problems month).tree.flatMap hostLeaves).count host.hostid = 1

/-- Every leg with a site has the site of the first leg of its path. -/
def LegsAtPathSite (intl : Intl) (hosts : List SliHost) : Prop :=
  ∀ host ∈ hosts, ∀ pair, wanPairKey intl host.name = some pair → ∀ site, host.site = some site →
    ((firstLeg intl hosts pair.path).bind (·.site)).map (·.code) = some site.code

theorem legsAtPathSite_iff_shown (intl : Intl) (hosts : List SliHost) :
    LegsAtPathSite intl hosts ↔ ∀ host ∈ hosts, shown intl hosts host = true := by
  refine forall_congr' fun host => forall_congr' fun _ => ?_
  unfold shown pathOf
  constructor
  · intro placed
    split
    · next path site named hasSite =>
        obtain ⟨pair, found, rfl⟩ := Option.map_eq_some_iff.mp named
        simpa using placed pair found site hasSite
    · rfl
  · intro placed pair found site hasSite
    rw [found, hasSite] at placed
    simpa using placed

theorem hostLeaves_rootNode_perm {intl : Intl} {report : SliReport} (own : OwnHosts intl report)
    (problems : List ZbxProblem) :
    (hostLeaves (rootNode intl report problems)).Perm
      ((report.hosts.filter (shown intl report.hosts)).map (·.hostid)) := by
  have leaves := ((leaves_rootNode_perm problems own).filter fun leaf =>
    leaf.kind = .host).filterMap (·.hostid)
  refine leaves.trans (List.Perm.of_eq ?_)
  have web : (report.web.map (webLeaf report)).filter (fun leaf => leaf.kind = .host) = [] := by
    simp [List.filter_eq_nil_iff, webLeaf, webNode, finish, info]
  have devices : ∀ hosts : List SliHost,
      ((hosts.map (hostLeaf report problems)).filter fun leaf => leaf.kind = .host).filterMap
        (·.hostid) = hosts.map (·.hostid) := by
    intro hosts
    induction hosts with
    | nil => rfl
    | cons host rest ih =>
        have kind : (hostLeaf report problems host).kind = .host := rfl
        have hostid : (hostLeaf report problems host).hostid = some host.hostid := rfl
        simp [kind, hostid, ih]
  rw [List.filter_append, web, List.nil_append, devices]

/-- No device is lost or repeated exactly when every leg lies at its path's site. -/
theorem shows_every_host_once_iff (intl : Intl) (report : SliReport) (problems : List ZbxProblem)
    (month : String) (own : OwnHosts intl report) :
    ShowsEveryHostOnce intl report problems month ↔ LegsAtPathSite intl report.hosts := by
  rw [legsAtPathSite_iff_shown]
  refine forall_congr' fun host => forall_congr' fun member => ?_
  have tree : (buildDerivedTree intl report problems month).tree.flatMap hostLeaves =
      hostLeaves (rootNode intl report problems) := List.flatMap_singleton _ _
  have distinct : ((report.hosts.filter (shown intl report.hosts)).map (·.hostid)).Nodup :=
    own.distinct.sublist (List.filter_sublist.map _)
  rw [tree, (hostLeaves_rootNode_perm own problems).count_eq, distinct.count]
  constructor
  · intro once
    have present : host.hostid ∈
        (report.hosts.filter (shown intl report.hosts)).map (·.hostid) := by
      by_contra absent
      rw [if_neg absent] at once
      exact absurd once (by decide)
    obtain ⟨other, inside, sameId⟩ := List.mem_map.mp present
    obtain ⟨inReport, isShown⟩ := List.mem_filter.mp inside
    rwa [List.inj_on_of_nodup_map own.distinct inReport member sameId] at isShown
  · intro isShown
    exact if_pos (List.mem_map.mpr ⟨host, List.mem_filter.mpr ⟨member, isShown⟩, rfl⟩)

section SplitPath

/-! The two legs of one path, one provider named for Jakarta and one for Surabaya. -/

def splitLeg (hostid name : String) : HostInput :=
  { hostid, name, hostStatus := "0", category := "ICMP Ping", triggerids := [], down := [],
    incidents := 0, collected := [], maintenance := [], measured := true }

def splitPath : Estate where
  context := { profile := .hcmlReport, windowFrom := 0, windowEnd := 100, target := 99,
               minCoverage := 1 / 10, noDataWindows := [], gaps := [], forward := zero_le_hundred }
  inputs := [splitLeg "10" "INET : FOO WAN 1 (JKT NET)", splitLeg "11" "INET : FOO WAN 2 (SBY NET)"]
  distinct := by decide

def splitReport : SliReport := splitPath.report asciiIntl none 100 true [] 100

/-- The second leg is in no leaf of the tree. -/
theorem split_path_loses_leg :
    OwnHosts asciiIntl splitReport ∧
      splitReport.hosts.map (·.hostid) = ["10", "11"] ∧
      (buildDerivedTree asciiIntl splitReport [] "").tree.flatMap hostLeaves = ["10"] ∧
      ¬ ShowsEveryHostOnce asciiIntl splitReport [] "" := by
  have hosts : splitReport.hosts.map (·.hostid) = ["10", "11"] := by decide +kernel
  have leaves : (buildDerivedTree asciiIntl splitReport [] "").tree.flatMap hostLeaves = ["10"] := by
    decide +kernel
  refine ⟨splitPath.report_ownHosts asciiIntl none 100 true [] 100, hosts, leaves, fun all => ?_⟩
  have inside : "11" ∈ splitReport.hosts.map (·.hostid) := by rw [hosts]; decide
  obtain ⟨host, member, sameId⟩ := List.mem_map.mp inside
  have once := all host member
  rw [leaves, sameId] at once
  exact absurd once (by decide)

/-- The characterisation at that report. -/
theorem shows_every_host_once_iff_split :
    ShowsEveryHostOnce asciiIntl splitReport [] "" ↔ LegsAtPathSite asciiIntl splitReport.hosts :=
  shows_every_host_once_iff asciiIntl splitReport [] ""
    (splitPath.report_ownHosts asciiIntl none 100 true [] 100)

end SplitPath

end ZabbixPortal.Sli
