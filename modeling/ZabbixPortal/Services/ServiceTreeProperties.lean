import ZabbixPortal.Foundation.TopOf
import ZabbixPortal.Services.ServiceTree
import Mathlib.Data.Set.Card

/-! The service tree unfolds the service graph: no path of it passes a service twice, and below a
root whose graph has no cycle and is not too deep nothing is cut, so the statuses and the counts
are those of the services themselves. -/

set_option autoImplicit false

namespace ZabbixPortal.Services

open Foundation Relation

/-- A path of ids from a node down to a leaf. -/
inductive ServiceTree.PathOf : ServiceTree → List String → Prop where
  | leaf (info : ServiceInfo) : PathOf (.node info []) [info.serviceid]
  | step (info : ServiceInfo) {children : List ServiceTree} {child : ServiceTree}
      {ids : List String} (member : child ∈ children) (below : PathOf child ids) :
      PathOf (.node info children) (info.serviceid :: ids)

inductive ServiceTree.Shows : ServiceTree → String → Prop where
  | top (info : ServiceInfo) (children : List ServiceTree) : Shows (.node info children) info.serviceid
  | inside (info : ServiceInfo) {children : List ServiceTree} {child : ServiceTree} {id : String}
      (member : child ∈ children) (shown : Shows child id) : Shows (.node info children) id

section Graph

variable (localeCompare : String → String → Ordering) (slas : OrderedMap String ServiceSla)
  (services : List ZService)

def Leads (parent child : ZService) : Prop := child ∈ knownChildren services parent

/-- A tree that shows a service and, without a cut, everything below it. -/
inductive Unfolds : ZService → ServiceTree → Prop where
  | node {svc : ZService} {worst : ℤ} {descendants : Nat} {kids : List ZService}
      {children : List ServiceTree}
      (highest : IsGreatest {status | ∃ t, ReflTransGen (Leads services) svc t ∧ t.status = status}
        worst)
      (distinct : {t | TransGen (Leads services) svc t}.encard = descendants)
      (same : kids.Perm (knownChildren services svc))
      (ordered : kids.Pairwise fun a b => compareServices localeCompare a b ≠ .gt)
      (shown : List.Forall₂ Unfolds kids children) :
      Unfolds svc (.node { ownInfo slas svc with worst, descendants } children)

variable {localeCompare} {slas} {services}

/-! ## Paths -/

theorem build_serviceid (left : Nat) (path : List String) (svc : ZService) :
    (build localeCompare slas services left path svc).1.info.serviceid = svc.serviceid := by
  cases left <;> rfl

def builtChildren (localeCompare : String → String → Ordering)
    (slas : OrderedMap String ServiceSla) (services : List ZService) (left : Nat)
    (path : List String) (svc : ZService) : List (ServiceTree × List String) :=
  (sortBy (compareServices localeCompare) ((knownChildren services svc).filter fun c =>
    c.serviceid ∉ svc.serviceid :: path)).map (build localeCompare slas services left
      (svc.serviceid :: path))

theorem mem_builtChildren {left : Nat} {path : List String} {svc : ZService}
    {part : ServiceTree × List String} :
    part ∈ builtChildren localeCompare slas services left path svc ↔
      ∃ kid ∈ knownChildren services svc, kid.serviceid ∉ svc.serviceid :: path ∧
        build localeCompare slas services left (svc.serviceid :: path) kid = part := by
  simp only [builtChildren, List.mem_map, mem_sortBy, List.mem_filter, decide_eq_true_eq, and_assoc]

/-- On a path every service differs from those above it, and there is a level for each. -/
theorem pathOf_build {left : Nat} {path : List String} {svc : ZService} {ids : List String}
    (fresh : svc.serviceid ∉ path)
    (walk : (build localeCompare slas services left path svc).1.PathOf ids) :
    ids.Nodup ∧ (∀ id ∈ ids, id ∉ path) ∧ ids.length ≤ left + 1 := by
  induction left generalizing path svc ids with
  | zero =>
      cases walk with
      | leaf info =>
          have same : (ownInfo slas svc).serviceid = svc.serviceid := rfl
          rw [same]
          exact ⟨List.nodup_singleton _, by simpa using fresh, by simp⟩
      | step info member below => cases member
  | succ left ih =>
      have parts : (build localeCompare slas services (left + 1) path svc).1.children =
          (builtChildren localeCompare slas services left path svc).map (·.1) := rfl
      have own := @build_serviceid localeCompare slas services (left + 1) path svc
      generalize build localeCompare slas services (left + 1) path svc = built at walk parts own
      obtain ⟨tree, found⟩ := built
      cases walk with
      | leaf info =>
          have same : info.serviceid = svc.serviceid := own
          rw [same]
          exact ⟨List.nodup_singleton _, by simpa using fresh, by simp⟩
      | @step info children child ids member below =>
          have same : info.serviceid = svc.serviceid := own
          have listed : children =
              (builtChildren localeCompare slas services left path svc).map (·.1) := parts
          rw [listed] at member
          obtain ⟨part, inParts, rfl⟩ := List.mem_map.mp member
          obtain ⟨kid, -, apart, rfl⟩ := mem_builtChildren.mp inParts
          obtain ⟨distinct, outside, short⟩ := ih apart below
          rw [same]
          refine ⟨List.nodup_cons.mpr ⟨fun repeated => ?_, distinct⟩, fun id inIds => ?_, ?_⟩
          · exact outside _ repeated List.mem_cons_self
          · rcases List.mem_cons.mp inIds with rfl | later
            · exact fresh
            · exact fun inPath => outside id later (List.mem_cons_of_mem _ inPath)
          · rw [List.length_cons]
            omega

/-! ## What is reached -/

section Distinct

variable (distinct : (services.map (·.serviceid)).Nodup)

include distinct

theorem serviceById_eq_some_iff (id : String) (svc : ZService) :
    (serviceById services).get? id = some svc ↔ svc ∈ services ∧ svc.serviceid = id := by
  have keys : ((services.map fun s => (s.serviceid, s)).map Prod.fst).Nodup := by
    rw [List.map_map]
    exact distinct
  constructor
  · intro found
    have inPairs := OrderedMap.mem_of_mem_ofList ((OrderedMap.get?_eq_some_iff _ _ _).mp found)
    obtain ⟨s, member, pair⟩ := List.mem_map.mp inPairs
    cases pair
    exact ⟨member, rfl⟩
  · rintro ⟨member, rfl⟩
    exact OrderedMap.get?_ofList _ keys (List.mem_map.mpr ⟨svc, member, rfl⟩)

theorem leads_iff (parent child : ZService) :
    Leads services parent child ↔ child ∈ services ∧ child.serviceid ∈ parent.children := by
  unfold Leads knownChildren
  rw [List.mem_filterMap]
  constructor
  · rintro ⟨id, listed, found⟩
    obtain ⟨member, rfl⟩ := (serviceById_eq_some_iff distinct id child).mp found
    exact ⟨member, listed⟩
  · rintro ⟨member, listed⟩
    exact ⟨_, listed, (serviceById_eq_some_iff distinct _ child).mpr ⟨member, rfl⟩⟩

theorem mem_of_reached {svc t : ZService} (known : svc ∈ services)
    (reached : ReflTransGen (Leads services) svc t) : t ∈ services := by
  cases reached with
  | refl => exact known
  | tail _ leads => exact ((leads_iff distinct _ _).mp leads).1

theorem eq_of_serviceid {left right : ZService} (inLeft : left ∈ services)
    (inRight : right ∈ services) (same : left.serviceid = right.serviceid) : left = right :=
  List.inj_on_of_nodup_map distinct inLeft inRight same

/-- Below a service on no cycle nothing is cut. -/
theorem filter_knownChildren {path : List String} {svc : ZService} (known : svc ∈ services)
    (acyclic : NoCycleBelow (Leads services) svc)
    (fresh : ∀ t, ReflTransGen (Leads services) svc t → t.serviceid ∉ path) :
    (knownChildren services svc).filter (fun c => c.serviceid ∉ svc.serviceid :: path) =
      knownChildren services svc := by
  refine List.filter_eq_self.mpr fun kid listed => decide_eq_true ?_
  have leads : Leads services svc kid := listed
  intro repeated
  rcases List.mem_cons.mp repeated with own | above
  · have inServices := ((leads_iff distinct svc kid).mp leads).1
    have same := eq_of_serviceid distinct inServices known own
    subst same
    exact acyclic kid ReflTransGen.refl (TransGen.single leads)
  · exact fresh kid (ReflTransGen.single leads) above

theorem fresh_below {path : List String} {svc kid : ZService} (known : svc ∈ services)
    (acyclic : NoCycleBelow (Leads services) svc)
    (fresh : ∀ t, ReflTransGen (Leads services) svc t → t.serviceid ∉ path)
    (leads : Leads services svc kid) :
    ∀ t, ReflTransGen (Leads services) kid t → t.serviceid ∉ svc.serviceid :: path := by
  intro t reached repeated
  rcases List.mem_cons.mp repeated with own | above
  · have inServices := mem_of_reached distinct known (ReflTransGen.head leads reached)
    have same := eq_of_serviceid distinct inServices known own
    subst same
    exact acyclic t ReflTransGen.refl (TransGen.head' leads reached)
  · exact fresh t (ReflTransGen.head leads reached) above

/-- A list of the ids below a service counts the services. -/
theorem encard_below {svc : ZService} (known : svc ∈ services) {ids : List String}
    (once : ids.Nodup)
    (exact' : ∀ id, id ∈ ids ↔ ∃ t, TransGen (Leads services) svc t ∧ t.serviceid = id) :
    {t | TransGen (Leads services) svc t}.encard = ids.length := by
  have injective : Set.InjOn (fun t : ZService => t.serviceid)
      {t | TransGen (Leads services) svc t} := by
    intro left inLeft right inRight same
    exact eq_of_serviceid distinct (mem_of_reached distinct known inLeft.to_reflTransGen)
      (mem_of_reached distinct known inRight.to_reflTransGen) same
  have image : (fun t : ZService => t.serviceid) '' {t | TransGen (Leads services) svc t} =
      ids.toFinset := by
    ext id
    simp only [Set.mem_image, Set.mem_ofPred_eq, List.coe_toFinset]
    exact (exact' id).symm
  rw [← injective.encard_image, image, Set.encard_coe_eq_coe_finsetCard,
    List.toFinset_card_of_nodup once]

end Distinct

/-! ## What a tree shows -/

instance transCmp_name [Std.TransCmp localeCompare] :
    Std.TransCmp fun a b : ZService => localeCompare a.name b.name where
  eq_swap := Std.OrientedCmp.eq_swap
  isLE_trans := Std.TransCmp.isLE_trans

instance transCmp_compareServices [Std.TransCmp localeCompare] :
    Std.TransCmp (compareServices localeCompare) :=
  inferInstanceAs <| Std.TransCmp <| compareLex (compareOn ZService.sortorder)
    fun a b => localeCompare a.name b.name

theorem Unfolds.isGreatest {svc : ZService} {tree : ServiceTree}
    (unfolds : Unfolds localeCompare slas services svc tree) :
    IsGreatest {status | ∃ t, ReflTransGen (Leads services) svc t ∧ t.status = status}
      tree.info.worst := by
  cases unfolds with
  | node highest distinct same ordered shown => exact highest

theorem exists_shown {kids : List ZService} {children : List ServiceTree}
    (shown : List.Forall₂ (Unfolds localeCompare slas services) kids children) {kid : ZService}
    (member : kid ∈ kids) : ∃ child ∈ children, Unfolds localeCompare slas services kid child := by
  induction shown with
  | nil => cases member
  | @cons first child kids children unfolds rest ih =>
      rcases List.mem_cons.mp member with rfl | later
      · exact ⟨child, List.mem_cons_self, unfolds⟩
      · obtain ⟨other, inRest, found⟩ := ih later
        exact ⟨other, List.mem_cons_of_mem _ inRest, found⟩

/-- Every service that is reached is shown. -/
theorem Unfolds.shows {svc t : ZService} (reached : ReflTransGen (Leads services) svc t) :
    ∀ {tree : ServiceTree}, Unfolds localeCompare slas services svc tree →
      tree.Shows t.serviceid := by
  induction reached using ReflTransGen.head_induction_on with
  | refl =>
      intro tree unfolds
      cases unfolds with
      | node highest distinct same ordered shown => exact .top _ _
  | head leads _ ih =>
      intro tree unfolds
      cases unfolds with
      | node highest distinct same ordered shown =>
          obtain ⟨child, member, below⟩ := exists_shown shown (same.mem_iff.mpr leads)
          exact .inside _ member (ih below)

/-- The highest status at or below a service, from those at or below its children. -/
theorem statuses_eq (svc : ZService) (kids : List ZService)
    (same : kids.Perm (knownChildren services svc)) :
    {status | ∃ t, ReflTransGen (Leads services) svc t ∧ t.status = status} =
      {svc.status} ∪ {status | ∃ kid ∈ kids,
        status ∈ {status | ∃ t, ReflTransGen (Leads services) kid t ∧ t.status = status}} := by
  ext status
  simp only [Set.mem_ofPred_eq, Set.mem_union, Set.mem_singleton_iff]
  constructor
  · rintro ⟨t, reached, rfl⟩
    rcases ReflTransGen.cases_head reached with rfl | ⟨kid, leads, rest⟩
    · exact .inl rfl
    · exact .inr ⟨kid, same.mem_iff.mpr leads, t, rest, rfl⟩
  · rintro (rfl | ⟨kid, member, t, rest, rfl⟩)
    · exact ⟨svc, ReflTransGen.refl, rfl⟩
    · exact ⟨t, ReflTransGen.head (same.mem_iff.mp member) rest, rfl⟩

theorem unfolds_childless {svc : ZService} (childless : knownChildren services svc = []) :
    Unfolds localeCompare slas services svc (.node (ownInfo slas svc) []) := by
  have same : ([] : List ZService).Perm (knownChildren services svc) := by rw [childless]
  have empty : {t | TransGen (Leads services) svc t} = ∅ := by
    ext t
    rw [Set.mem_ofPred_eq, TransGen.head'_iff]
    constructor
    · rintro ⟨kid, leads, -⟩
      exact absurd (same.mem_iff.mpr leads) List.not_mem_nil
    · exact False.elim
  have highest : IsGreatest {status | ∃ t, ReflTransGen (Leads services) svc t ∧
      t.status = status} svc.status := by
    rw [statuses_eq svc [] same]
    simp
  have count : {t | TransGen (Leads services) svc t}.encard = ((0 : Nat) : ENat) := by
    rw [empty]
    simp
  exact .node highest count same List.Pairwise.nil .nil

theorem mem_tree_of_root {root : ZService} (known : root ∈ services) (top : root.parents = []) :
    (build localeCompare slas services MAX_DEPTH [] root).1 ∈
      (getServiceTree localeCompare slas services).tree := by
  refine List.mem_map.mpr ⟨root, ?_, rfl⟩
  rw [rootServices, mem_sortBy, List.mem_filter, top]
  exact ⟨known, rfl⟩

section Faithful

variable [Std.TransCmp localeCompare] (distinct : (services.map (·.serviceid)).Nodup)

include distinct

theorem build_unfolds {left : Nat} {path : List String} {svc : ZService} (known : svc ∈ services)
    (acyclic : NoCycleBelow (Leads services) svc) (within : PathsWithin (Leads services) left svc)
    (fresh : ∀ t, ReflTransGen (Leads services) svc t → t.serviceid ∉ path) :
    Unfolds localeCompare slas services svc (build localeCompare slas services left path svc).1 ∧
      ∀ id, id ∈ (build localeCompare slas services left path svc).2 ↔
        ∃ t, TransGen (Leads services) svc t ∧ t.serviceid = id := by
  induction left generalizing path svc with
  | zero =>
      have childless : knownChildren services svc = [] :=
        List.eq_nil_iff_forall_not_mem.mpr fun t => within.not_step acyclic
      refine ⟨unfolds_childless childless, fun id => ?_⟩
      constructor
      · intro member
        cases member
      · rintro ⟨t, reached, -⟩
        obtain ⟨kid, leads, -⟩ := TransGen.head'_iff.mp reached
        exact absurd leads (within.not_step acyclic)
  | succ left ih =>
      have kept := filter_knownChildren distinct known acyclic fresh
      have each : ∀ kid, Leads services svc kid → _ := fun kid leads =>
        ih ((leads_iff distinct svc kid).mp leads).1 (acyclic.of_step leads)
          (within.of_step acyclic leads) (fresh_below distinct known acyclic fresh leads)
      have same := sortBy_perm (compareServices localeCompare) (knownChildren services svc)
      have ordered := pairwise_sortBy (compareServices localeCompare) (knownChildren services svc)
      simp only [build, kept]
      generalize sortBy (compareServices localeCompare) (knownChildren services svc) = kids at *
      have below : ∀ id, (id ∈ ((kids.map (build localeCompare slas services left
          (svc.serviceid :: path))).flatMap fun part =>
            part.1.info.serviceid :: part.2).dedup) ↔
          ∃ t, TransGen (Leads services) svc t ∧ t.serviceid = id := by
        intro id
        rw [List.mem_dedup, List.mem_flatMap]
        constructor
        · rintro ⟨part, member, listed⟩
          obtain ⟨kid, inKids, rfl⟩ := List.mem_map.mp member
          have leads : Leads services svc kid := same.mem_iff.mp inKids
          rcases List.mem_cons.mp listed with own | deeper
          · rw [build_serviceid] at own
            exact ⟨kid, TransGen.single leads, own.symm⟩
          · obtain ⟨t, reached, rfl⟩ := ((each kid leads).2 id).mp deeper
            exact ⟨t, TransGen.head leads reached, rfl⟩
        · rintro ⟨t, reached, rfl⟩
          obtain ⟨kid, leads, rest⟩ := TransGen.head'_iff.mp reached
          refine ⟨_, List.mem_map.mpr ⟨kid, same.mem_iff.mpr leads, rfl⟩, ?_⟩
          rw [build_serviceid]
          rcases reflTransGen_iff_eq_or_transGen.mp rest with rfl | deeper
          · exact List.mem_cons_self
          · exact List.mem_cons_of_mem _ (((each kid leads).2 _).mpr ⟨t, deeper, rfl⟩)
      refine ⟨.node ?_ (encard_below distinct known (List.nodup_dedup _) below) same ordered ?_,
        below⟩
      · rw [statuses_eq svc kids same, List.map_map]
        exact isGreatest_foldl_max (fun kid member =>
          (each kid (same.mem_iff.mp member)).1.isGreatest) isGreatest_singleton
      · rw [List.map_map, List.forall₂_map_right_iff, List.forall₂_same]
        exact fun kid member => (each kid (same.mem_iff.mp member)).1

/-- No path of the answer passes a service twice or is longer than the levels allow; and the tree
of a root above no cycle and no longer path unfolds everything below it. -/
theorem getServiceTree_unfolds :
    (∀ tree ∈ (getServiceTree localeCompare slas services).tree, ∀ ids, tree.PathOf ids →
      ids.Nodup ∧ ids.length ≤ MAX_DEPTH + 1) ∧
    ∀ root ∈ services, root.parents = [] → NoCycleBelow (Leads services) root →
      PathsWithin (Leads services) MAX_DEPTH root →
      ∃ tree ∈ (getServiceTree localeCompare slas services).tree,
        Unfolds localeCompare slas services root tree ∧
          ∀ t, ReflTransGen (Leads services) root t → tree.Shows t.serviceid := by
  constructor
  · intro tree member ids walk
    obtain ⟨root, -, rfl⟩ := List.mem_map.mp member
    obtain ⟨once, -, short⟩ := pathOf_build List.not_mem_nil walk
    exact ⟨once, short⟩
  · intro root known top acyclic within
    have unfolds := (@build_unfolds localeCompare slas services _ distinct MAX_DEPTH [] root known
      acyclic within fun t _ => List.not_mem_nil).1
    exact ⟨_, mem_tree_of_root known top, unfolds, fun t reached => unfolds.shows reached⟩

end Faithful

end Graph

def portalService : ZService := ⟨"1", "portal", -1, "0", 0, "", [], ["2", "3", "99"], [], []⟩

/-- Under the portal two services that share a third, and a link to a service Zabbix does not
list; beside it two services that contain each other. -/
def sharedServices : List ZService :=
  [portalService,
    ⟨"2", "network", -1, "0", 2, "", ["1"], ["4"], [], []⟩,
    ⟨"3", "database", 2, "0", 1, "", ["1"], ["4"], [], []⟩,
    ⟨"4", "power", 4, "0", 3, "", ["2", "3"], [], [], []⟩,
    ⟨"5", "left", 0, "0", 4, "", ["6"], ["6"], [], []⟩,
    ⟨"6", "right", 0, "0", 5, "", ["5"], ["5"], [], []⟩]

theorem getServiceTree_unfolds_shared :
    ∃ tree ∈ (getServiceTree compare .empty sharedServices).tree,
      Unfolds compare .empty sharedServices portalService tree ∧ tree.Shows "4" := by
  have distinct : (sharedServices.map (·.serviceid)).Nodup := by decide
  have known : portalService ∈ sharedServices := List.mem_cons_self
  -- The two that contain each other are not reached; below the portal every link goes down.
  have links : ∀ a ∈ sharedServices, a.serviceid ∈ ["1", "2", "3", "4"] →
      ∀ b ∈ sharedServices, b.serviceid ∈ a.children →
        b.serviceid ∈ ["1", "2", "3", "4"] ∧
          3 - b.sortorder.toNat < 3 - a.sortorder.toNat := by decide
  have reachable : ∀ a, ReflTransGen (Leads sharedServices) portalService a →
      a ∈ sharedServices ∧ a.serviceid ∈ ["1", "2", "3", "4"] := by
    intro a reached
    induction reached with
    | refl => exact ⟨known, by decide⟩
    | tail _ link ih =>
        obtain ⟨inServices, listed⟩ := (leads_iff distinct _ _).mp link
        exact ⟨inServices, (links _ ih.1 ih.2 _ inServices listed).1⟩
  have down : ∀ a b, ReflTransGen (Leads sharedServices) portalService a →
      Leads sharedServices a b → 3 - b.sortorder.toNat < 3 - a.sortorder.toNat := by
    intro a b reached link
    obtain ⟨inServices, listed⟩ := (leads_iff distinct _ _).mp link
    exact (links a (reachable a reached).1 (reachable a reached).2 b inServices listed).2
  obtain ⟨tree, member, unfolds, shows⟩ :=
    (@getServiceTree_unfolds compare .empty sharedServices _ distinct).2 portalService known rfl
      (noCycleBelow_of_rank down) (pathsWithin_of_rank down (by decide))
  let network : ZService := ⟨"2", "network", -1, "0", 2, "", ["1"], ["4"], [], []⟩
  let power : ZService := ⟨"4", "power", 4, "0", 3, "", ["2", "3"], [], [], []⟩
  have first : Leads sharedServices portalService network := (leads_iff distinct _ _).mpr (by decide)
  have second : Leads sharedServices network power := (leads_iff distinct _ _).mpr (by decide)
  exact ⟨tree, member, unfolds, shows power (ReflTransGen.head first (ReflTransGen.single second))⟩

end ZabbixPortal.Services
