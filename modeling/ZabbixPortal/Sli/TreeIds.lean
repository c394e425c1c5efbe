import ZabbixPortal.Sli.TreeLeaves

/-! The ids of the derived tree: one kind of key for each kind of node, and no two nodes of a
tree with the same one. -/

set_option autoImplicit false

namespace ZabbixPortal.Sli

open Foundation Domain DerivedServiceNode

inductive NodeKey where
  | estate
  | business
  | unassigned
  | site (code : Nat)
  | classGroup (code : Nat) (cls : DeviceClass)
  | wanPath (name : String)
  | host (hostid : String)
  | web (itemid : String)
deriving DecidableEq

namespace NodeKey

def text : NodeKey → String
  | estate => "derived:estate"
  | business => "derived:business"
  | unassigned => "derived:unassigned"
  | site code => s!"derived:site:{code}"
  | classGroup code cls => s!"derived:site:{code}:{cls.text}"
  | wanPath name => "derived:wan:" ++ name
  | host hostid => "derived:host:" ++ hostid
  | web itemid => "derived:web:" ++ itemid

def tail : NodeKey → List Char
  | estate => ['e', 's', 't', 'a', 't', 'e']
  | business => ['b', 'u', 's', 'i', 'n', 'e', 's', 's']
  | unassigned => ['u', 'n', 'a', 's', 's', 'i', 'g', 'n', 'e', 'd']
  | site code => 's' :: 'i' :: 't' :: 'e' :: ':' :: Nat.toDigits 10 code
  | classGroup code cls =>
      's' :: 'i' :: 't' :: 'e' :: ':' :: (Nat.toDigits 10 code ++ ':' :: cls.text.toList)
  | wanPath name => 'w' :: 'a' :: 'n' :: ':' :: name.toList
  | host hostid => 'h' :: 'o' :: 's' :: 't' :: ':' :: hostid.toList
  | web itemid => 'w' :: 'e' :: 'b' :: ':' :: itemid.toList

theorem text_tail (key : NodeKey) :
    key.text.toList = ['d', 'e', 'r', 'i', 'v', 'e', 'd', ':'] ++ key.tail := by
  cases key with
  | estate => rfl
  | business => rfl
  | unassigned => rfl
  | site code =>
      have parts : (site code).text = "derived:site:" ++ toString code := rfl
      rw [parts, String.toList_append, Nat.toString_eq_repr, Nat.toList_repr]
      rfl
  | classGroup code cls =>
      have parts : (classGroup code cls).text =
          "derived:site:" ++ toString code ++ ":" ++ cls.text := rfl
      rw [parts, String.toList_append, String.toList_append, String.toList_append,
        Nat.toString_eq_repr, Nat.toList_repr, List.append_assoc, List.append_assoc]
      rfl
  | wanPath name =>
      have parts : (wanPath name).text = "derived:wan:" ++ name := rfl
      rw [parts, String.toList_append]
      rfl
  | host hostid =>
      have parts : (host hostid).text = "derived:host:" ++ hostid := rfl
      rw [parts, String.toList_append]
      rfl
  | web itemid =>
      have parts : (web itemid).text = "derived:web:" ++ itemid := rfl
      rw [parts, String.toList_append]
      rfl

private theorem toDigits_injective {left right : Nat}
    (same : Nat.toDigits 10 left = Nat.toDigits 10 right) : left = right := by
  have read := congrArg (fun digits => Nat.ofDigitChars 10 digits 0) same
  simpa only [Nat.ofDigitChars_ten_toDigits] using read

private theorem colon_not_mem_toDigits (code : Nat) : ':' ∉ Nat.toDigits 10 code := fun member =>
  absurd (Nat.isDigit_of_mem_toDigits (by decide) (by decide) member) (by decide)

theorem classText_injective {left right : DeviceClass} (same : left.text = right.text) :
    left = right := by
  cases left <;> cases right <;> first | rfl | exact absurd same (by decide)

private theorem append_colon_inj {front other behind more : List Char} (plain : ':' ∉ front)
    (otherPlain : ':' ∉ other) (same : front ++ ':' :: behind = other ++ ':' :: more) :
    front = other ∧ behind = more := by
  induction front generalizing other with
  | nil =>
      cases other with
      | nil => exact ⟨rfl, (List.cons.inj same).2⟩
      | cons c other => exact absurd (List.cons.inj same).1.symm (by rintro rfl; simp at otherPlain)
  | cons c front ih =>
      cases other with
      | nil => exact absurd (List.cons.inj same).1 (by rintro rfl; simp at plain)
      | cons d other =>
          obtain ⟨rfl, rest⟩ := List.cons.inj same
          obtain ⟨fronts, behinds⟩ := ih (fun member => plain (List.mem_cons_of_mem c member))
            (fun member => otherPlain (List.mem_cons_of_mem c member)) rest
          exact ⟨by rw [fronts], behinds⟩

private theorem tail_injective {left right : NodeKey} (same : left.tail = right.tail) :
    left = right := by
  cases left <;> cases right <;> simp [tail] at same ⊢
  case site.site code other => exact toDigits_injective same
  case site.classGroup code other cls =>
    exact colon_not_mem_toDigits code (by rw [same]; simp)
  case classGroup.site code cls other =>
    exact colon_not_mem_toDigits other (by rw [← same]; simp)
  case classGroup.classGroup code cls other otherCls =>
    obtain ⟨digits, behind⟩ := append_colon_inj (colon_not_mem_toDigits code)
      (colon_not_mem_toDigits other) same
    exact ⟨toDigits_injective digits, classText_injective (String.ext behind)⟩
  case wanPath.wanPath name other => exact String.ext same
  case host.host hostid other => exact String.ext same
  case web.web itemid other => exact String.ext same

theorem text_injective {left right : NodeKey} (same : left.text = right.text) : left = right := by
  have whole := congrArg String.toList same
  rw [text_tail, text_tail] at whole
  exact tail_injective (List.append_cancel_left whole)

end NodeKey

def groupIds (node : DerivedServiceNode) : List String :=
  ((node.subtree.map info).filter fun own => !isLeaf own).map (·.serviceid)

/-- The ids of a subtree are those of its leaves and of its groups. -/
theorem subtree_ids_perm (node : DerivedServiceNode) :
    (node.subtree.map fun n => n.info.serviceid).Perm
      (node.leaves.map (·.serviceid) ++ groupIds node) := by
  have parts := (List.filter_append_perm isLeaf (node.subtree.map info)).symm.map (·.serviceid)
  rw [List.map_map, List.map_append] at parts
  exact parts

section Keys

variable {intl : Intl} {report : SliReport} (problems : List ZbxProblem)

theorem groupIds_node (own : NodeInfo) (children : List DerivedServiceNode) :
    groupIds (.node own children) =
      ([own].filter fun own => !isLeaf own).map (·.serviceid) ++ children.flatMap groupIds := by
  rw [groupIds, subtree, subtrees_eq_flatMap, List.map_cons, List.map_flatMap,
    ← List.singleton_append, List.filter_append, List.filter_flatMap, List.map_append,
    List.map_flatMap]
  rfl

theorem groupIds_groupNode (id name : String) {kind : DerivedKind} (hosts : List SliHost)
    (children : List DerivedServiceNode) (group : Option SliGroup)
    (inner : kind ≠ .host ∧ kind ≠ .web) :
    groupIds (groupNode report id name kind hosts children group) =
      id :: children.flatMap groupIds := by
  unfold groupNode finish
  rw [groupIds_node]
  simp [isLeaf, inner]

theorem groupIds_hostNodes (hosts : List SliHost) :
    (hosts.map (hostNode report problems)).flatMap groupIds = [] := by
  rw [List.flatMap_eq_nil_iff]
  intro node member
  obtain ⟨h, -, rfl⟩ := List.mem_map.mp member
  rfl

theorem groupIds_webNodes (web : List SliWeb) :
    (web.map (webNode report)).flatMap groupIds = [] := by
  rw [List.flatMap_eq_nil_iff]
  intro node member
  obtain ⟨w, -, rfl⟩ := List.mem_map.mp member
  rfl

theorem groupIds_update {node : DerivedServiceNode} {change : NodeInfo → NodeInfo}
    (keeps : ∀ own, isLeaf (change own) = isLeaf own ∧ (change own).serviceid = own.serviceid) :
    groupIds (node.update change) = groupIds node := by
  obtain ⟨own, children⟩ := node
  rw [update, groupIds_node, groupIds_node]
  congr 1
  cases leaf : isLeaf own <;> simp [keeps, leaf]

def pathKeys (report : SliReport) (code : Nat) : List NodeKey :=
  (report.wanPaths.filter fun p => p.site.map (·.code) = some code).map fun p => .wanPath p.name

def classKeys (report : SliReport) (code : Nat) (cls : DeviceClass) : List NodeKey :=
  .classGroup code cls :: if cls = .wanLink then pathKeys report code else []

def siteKeys (intl : Intl) (report : SliReport) (code : Nat) (hosts : List SliHost) :
    List NodeKey :=
  .site code :: (sortBy (compareClasses intl) (groupBy (·.deviceClass) hosts).entries).flatMap
    fun entry => classKeys report code entry.1

def groupKeys (intl : Intl) (report : SliReport) : List NodeKey :=
  .estate ::
    ((if (businessHosts intl report).isEmpty ∧ report.web.isEmpty then [] else [.business]) ++
      ((sortBy (fun a b => compare a.1 b.1) (bySite report).entries).flatMap
          (fun entry => siteKeys intl report entry.1 entry.2) ++
        if (unassigned report).isEmpty then [] else [.unassigned]))

theorem groupIds_pathNode (members : List SliHost) (p : SliPath) :
    groupIds (pathNode intl report problems members p) = [(NodeKey.wanPath p.name).text] := by
  have grouped : groupIds (groupNode report ("derived:wan:" ++ p.name) ("WAN path: " ++ p.name)
      .wanPath (legsIn intl members p) ((legsIn intl members p).map (hostNode report problems))
      none) = [(NodeKey.wanPath p.name).text] := by
    rw [groupIds_groupNode _ _ _ _ _ (by decide), groupIds_hostNodes]
    rfl
  unfold pathNode
  refine (groupIds_update ?_).trans grouped
  exact fun _ => ⟨rfl, rfl⟩

theorem groupIds_classNode (code : Nat) (cls : DeviceClass) (members : List SliHost) :
    groupIds (classNode intl report problems code cls members) =
      (classKeys report code cls).map NodeKey.text := by
  have paths : ((report.wanPaths.filter fun p => p.site.map (·.code) = some code).map
      (pathNode intl report problems members)).flatMap groupIds =
        (pathKeys report code).map NodeKey.text := by
    rw [pathKeys, List.flatMap_map, List.map_map, List.map_eq_flatMap]
    exact List.flatMap_congr fun p _ => groupIds_pathNode problems members p
  by_cases leg : cls = .wanLink
  · rw [classNode, if_neg (not_not.mpr leg), groupIds_groupNode _ _ _ _ _ (by decide),
      List.flatMap_append, groupIds_hostNodes, paths, List.append_nil, classKeys, if_pos leg]
    rfl
  · rw [classNode, if_pos leg, groupIds_groupNode _ _ _ _ _ (by decide), groupIds_hostNodes,
      classKeys, if_neg leg]
    rfl

theorem groupIds_siteNode (code : Nat) (hosts : List SliHost) :
    groupIds (siteNode intl report problems code hosts) =
      (siteKeys intl report code hosts).map NodeKey.text := by
  unfold siteNode siteKeys
  rw [groupIds_groupNode _ _ _ _ _ (by decide), classNodes, List.flatMap_map, List.map_cons,
    List.map_flatMap]
  simp only [groupIds_classNode]
  rfl

theorem groupIds_businessNode :
    groupIds (businessNode intl report problems) = [NodeKey.business.text] := by
  have grouped : groupIds (groupNode report "derived:business" "Business services" .business
      (businessHosts intl report) (report.web.map (webNode report) ++
        (businessHosts intl report).map (hostNode report problems)) none) =
      [NodeKey.business.text] := by
    rw [groupIds_groupNode _ _ _ _ _ (by decide), List.flatMap_append, groupIds_webNodes,
      groupIds_hostNodes]
    rfl
  unfold businessNode
  simp only
  split
  · exact grouped
  · refine (groupIds_update ?_).trans grouped
    exact fun _ => ⟨rfl, rfl⟩

theorem groupIds_rootNode :
    groupIds (rootNode intl report problems) = (groupKeys intl report).map NodeKey.text := by
  have business : (businessNodes intl report problems).flatMap groupIds =
      (if (businessHosts intl report).isEmpty ∧ report.web.isEmpty then []
        else [NodeKey.business]).map NodeKey.text := by
    unfold businessNodes
    split
    · rfl
    · rw [List.flatMap_singleton, groupIds_businessNode]
      rfl
  have loose : (unassignedNodes intl report problems).flatMap groupIds =
      (if (unassigned report).isEmpty then [] else [NodeKey.unassigned]).map NodeKey.text := by
    unfold unassignedNodes
    simp only
    split
    · rfl
    · rw [List.flatMap_singleton, groupIds_groupNode _ _ _ _ _ (by decide), groupIds_hostNodes]
      rfl
  have sites : (siteNodes intl report problems).flatMap groupIds =
      ((sortBy (fun a b => compare a.1 b.1) (bySite report).entries).flatMap
        fun entry => siteKeys intl report entry.1 entry.2).map NodeKey.text := by
    rw [siteNodes, List.flatMap_map, List.map_flatMap]
    simp only [groupIds_siteNode]
  rw [rootNode, groupIds_groupNode _ _ _ _ _ (by decide), List.flatMap_append,
    List.flatMap_append, business, loose, sites, groupKeys, List.map_cons, List.map_append,
    List.map_append]
  rfl

theorem mem_siteKeys {code : Nat} {hosts : List SliHost} {key : NodeKey}
    (member : key ∈ siteKeys intl report code hosts) :
    key = .site code ∨ (∃ cls, key = .classGroup code cls) ∨
      ∃ p ∈ report.wanPaths, p.site.map (·.code) = some code ∧ key = .wanPath p.name := by
  rcases List.mem_cons.mp member with rfl | inClasses
  · exact .inl rfl
  · obtain ⟨entry, -, inClass⟩ := List.mem_flatMap.mp inClasses
    rcases List.mem_cons.mp inClass with rfl | inPaths
    · exact .inr (.inl ⟨entry.1, rfl⟩)
    · split at inPaths
      · obtain ⟨p, shownHere, rfl⟩ := List.mem_map.mp inPaths
        obtain ⟨inReport, here⟩ := List.mem_filter.mp shownHere
        exact .inr (.inr ⟨p, inReport, of_decide_eq_true here, rfl⟩)
      · cases inPaths

theorem pathKeys_nodup (own : OwnHosts intl report) (code : Nat) : (pathKeys report code).Nodup := by
  have names := own.path_names_nodup.sublist
    ((List.filter_sublist (p := fun p : SliPath => p.site.map (·.code) = some code)).map (·.name))
  have keys := names.map (f := NodeKey.wanPath) fun left right same => NodeKey.wanPath.inj same
  rwa [List.map_map] at keys

theorem siteKeys_nodup (own : OwnHosts intl report) (code : Nat) (hosts : List SliHost) :
    (siteKeys intl report code hosts).Nodup := by
  have classes : ((sortBy (compareClasses intl) (groupBy (·.deviceClass) hosts).entries).map
      Prod.fst).Nodup :=
    ((sortBy_perm _ _).map Prod.fst).nodup_iff.mpr (groupBy (·.deviceClass) hosts).distinct
  refine List.nodup_cons.mpr ⟨fun member => ?_, List.nodup_flatMap.mpr ⟨fun entry _ => ?_, ?_⟩⟩
  · obtain ⟨entry, -, inClass⟩ := List.mem_flatMap.mp member
    simp [classKeys, pathKeys] at inClass
  · refine List.nodup_cons.mpr ⟨fun member => ?_, ?_⟩
    · simp [pathKeys] at member
    · split
      · exact pathKeys_nodup own code
      · exact List.nodup_nil
  · refine (List.pairwise_map.mp classes).imp fun {first second} other key inFirst inSecond => ?_
    rcases List.mem_cons.mp inFirst with rfl | firstPaths <;>
      rcases List.mem_cons.mp inSecond with same | secondPaths
    · exact other (NodeKey.classGroup.inj same).2
    · simp [pathKeys] at secondPaths
    · subst same
      simp [pathKeys] at firstPaths
    · split at firstPaths
      · split at secondPaths
        · next isWan otherIsWan => exact other (isWan.trans otherIsWan.symm)
        · cases secondPaths
      · cases firstPaths

theorem groupKeys_nodup (own : OwnHosts intl report) : (groupKeys intl report).Nodup := by
  have codes : ((sortBy (fun a b => compare a.1 b.1) (bySite report).entries).map Prod.fst).Nodup :=
    ((sortBy_perm _ _).map Prod.fst).nodup_iff.mpr (bySite report).distinct
  have sites : ((sortBy (fun a b => compare a.1 b.1) (bySite report).entries).flatMap
      fun entry => siteKeys intl report entry.1 entry.2).Nodup := by
    refine List.nodup_flatMap.mpr ⟨fun entry _ => siteKeys_nodup own entry.1 entry.2, ?_⟩
    refine (List.pairwise_map.mp codes).imp fun {first second} other key inFirst inSecond => ?_
    rcases mem_siteKeys inFirst with rfl | ⟨cls, rfl⟩ | ⟨p, inPaths, here, rfl⟩
    · rcases mem_siteKeys inSecond with same | ⟨_, same⟩ | ⟨_, _, _, same⟩
      · exact other (NodeKey.site.inj same)
      · cases same
      · cases same
    · rcases mem_siteKeys inSecond with same | ⟨_, same⟩ | ⟨_, _, _, same⟩
      · cases same
      · exact other (NodeKey.classGroup.inj same).1
      · cases same
    · rcases mem_siteKeys inSecond with same | ⟨_, same⟩ | ⟨q, alsoPath, there, same⟩
      · cases same
      · cases same
      · have samePath := List.inj_on_of_nodup_map own.path_names_nodup inPaths alsoPath
          (NodeKey.wanPath.inj same)
        rw [samePath, there] at here
        exact other (Option.some.inj here).symm
  have siteForm : ∀ key ∈ (sortBy (fun a b => compare a.1 b.1) (bySite report).entries).flatMap
      (fun entry => siteKeys intl report entry.1 entry.2),
      key ≠ .estate ∧ key ≠ .business ∧ key ≠ .unassigned := by
    intro key member
    obtain ⟨entry, -, inSite⟩ := List.mem_flatMap.mp member
    rcases mem_siteKeys inSite with rfl | ⟨cls, rfl⟩ | ⟨p, -, -, rfl⟩ <;> simp
  unfold groupKeys
  generalize (sortBy (fun a b => compare a.1 b.1) (bySite report).entries).flatMap
    (fun entry => siteKeys intl report entry.1 entry.2) = siteList at sites siteForm ⊢
  have noEstate : NodeKey.estate ∉ siteList := fun member => (siteForm _ member).1 rfl
  have noBusiness : NodeKey.business ∉ siteList := fun member => (siteForm _ member).2.1 rfl
  have noUnassigned : NodeKey.unassigned ∉ siteList := fun member => (siteForm _ member).2.2 rfl
  have tail : (siteList ++ [NodeKey.unassigned]).Nodup :=
    List.nodup_append.mpr ⟨sites, List.nodup_singleton _, fun key member other single same => by
      rw [List.mem_singleton.mp single] at same
      exact noUnassigned (same ▸ member)⟩
  split <;> split <;> simp [noEstate, noBusiness, sites, tail]

def leafKeys (intl : Intl) (report : SliReport) : List NodeKey :=
  report.web.map (fun w => .web w.itemid) ++
    (report.hosts.filter (shown intl report.hosts)).map fun h => .host h.hostid

theorem leafIds_rootNode_perm (own : OwnHosts intl report) :
    ((rootNode intl report problems).leaves.map (·.serviceid)).Perm
      ((leafKeys intl report).map NodeKey.text) := by
  have leaves := (leaves_rootNode_perm problems own).map (·.serviceid)
  rw [List.map_append, List.map_map, List.map_map] at leaves
  rw [leafKeys, List.map_append, List.map_map, List.map_map]
  exact leaves

theorem leafKeys_nodup (own : OwnHosts intl report)
    (webDistinct : (report.web.map (·.itemid)).Nodup) : (leafKeys intl report).Nodup := by
  have web := webDistinct.map (f := NodeKey.web) fun left right same => NodeKey.web.inj same
  have hosts := (own.distinct.sublist ((List.filter_sublist (p := shown intl report.hosts)).map
    (·.hostid))).map (f := NodeKey.host) fun left right same => NodeKey.host.inj same
  rw [List.map_map] at web hosts
  refine List.nodup_append.mpr ⟨web, hosts, fun key inWeb other inHosts => ?_⟩
  obtain ⟨w, -, rfl⟩ := List.mem_map.mp inWeb
  obtain ⟨h, -, rfl⟩ := List.mem_map.mp inHosts
  exact fun same => nomatch same

theorem leafKeys_apart {key : NodeKey} (leaf : key ∈ leafKeys intl report) :
    key ∉ groupKeys intl report := by
  have form : (∃ itemid, key = .web itemid) ∨ ∃ hostid, key = .host hostid := by
    rcases List.mem_append.mp leaf with inWeb | inHosts
    · obtain ⟨w, -, rfl⟩ := List.mem_map.mp inWeb
      exact .inl ⟨w.itemid, rfl⟩
    · obtain ⟨h, -, rfl⟩ := List.mem_map.mp inHosts
      exact .inr ⟨h.hostid, rfl⟩
  intro member
  rcases List.mem_cons.mp member with rfl | later
  · simp at form
  · rcases List.mem_append.mp later with inBusiness | rest
    · split at inBusiness
      · cases inBusiness
      · rw [List.mem_singleton.mp inBusiness] at form
        simp at form
    · rcases List.mem_append.mp rest with inSites | loose
      · obtain ⟨entry, -, inSite⟩ := List.mem_flatMap.mp inSites
        rcases mem_siteKeys inSite with rfl | ⟨cls, rfl⟩ | ⟨p, -, -, rfl⟩ <;> simp at form
      · split at loose
        · cases loose
        · rw [List.mem_singleton.mp loose] at form
          simp at form

/-- No two nodes of the tree have the same id. -/
theorem rootNode_ids_nodup (own : OwnHosts intl report)
    (webDistinct : (report.web.map (·.itemid)).Nodup) :
    ((rootNode intl report problems).subtree.map fun n => n.info.serviceid).Nodup := by
  have keys : (leafKeys intl report ++ groupKeys intl report).Nodup :=
    List.nodup_append.mpr ⟨leafKeys_nodup own webDistinct, groupKeys_nodup own,
      fun key leaf other group same => leafKeys_apart leaf (same ▸ group)⟩
  have ids := keys.map (f := NodeKey.text) fun left right same => NodeKey.text_injective same
  rw [List.map_append, ← groupIds_rootNode problems] at ids
  refine ((subtree_ids_perm _).trans ?_).nodup_iff.mpr ids
  exact (leafIds_rootNode_perm problems own).append_right _

end Keys

end ZabbixPortal.Sli
