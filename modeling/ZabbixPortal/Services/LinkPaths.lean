import ZabbixPortal.Foundation.Firsts
import ZabbixPortal.Domain.Naming
import ZabbixPortal.Services.Links

/-! The redundant paths of the links page: which links are a path's legs, and when the path is
down. Legs that are down beside legs of unknown state make a path down although not every leg
is. -/

set_option autoImplicit false

namespace ZabbixPortal.Services

open Foundation Domain

/-- A path is down when all its legs are, and a link is a leg of one path if it has a group and
of none otherwise. -/
def PathsTell (response : LinksResponse) : Prop :=
  (∀ path ∈ response.paths, path.state = .down ↔
    ∀ leg ∈ path.links, leg.state ≠ .up ∧ leg.state ≠ .degraded ∧ leg.state ≠ .unknown) ∧
  ∀ link ∈ response.links, (response.paths.filter fun path => link ∈ path.links).length =
    if link.group.isSome then 1 else 0

section Said

def lastNamed (name : String) (items : List ZItem) : Option ZItem :=
  lastOf (fun item => (parseKey item.key_).name = name) items

def saidState (thresholds : LinkThresholds) (now : ℤ) (items : List ZItem) : LinkState :=
  classify thresholds ((lastNamed "icmpping" items).bind fun item => item.pingAnswer now)
    ((lastNamed "icmppingloss" items).bind fun item => item.value now)

/-- The group the tags of the items name, or else the host's name. -/
def saidGroup (intl : Intl) (hostName : String) (items : List ZItem) : Option String :=
  (nonEmpty ((lastOf (fun t => t.tag = "link_group") (items.flatMap (·.tags))).map
    (·.value))).or (nonEmpty ((wanPairKey intl hostName).map (·.path)))

theorem stitch_loss (now : ℤ) (metrics : LinkMetrics) (item : ZItem) :
    (metrics.stitch now item).loss =
      if (parseKey item.key_).name = "icmppingloss" then item.value now else metrics.loss := by
  unfold LinkMetrics.stitch
  dsimp only
  by_cases ping : (parseKey item.key_).name = "icmpping"
  · have other : (parseKey item.key_).name ≠ "icmppingloss" := by
      rw [ping]
      decide
    rw [if_pos ping, if_neg other]
  · rw [if_neg ping]
    split
    · rfl
    split
    · split
      · rfl
      split <;> rfl
    · rfl

theorem stitch_tags (now : ℤ) (metrics : LinkMetrics) (item : ZItem) :
    (metrics.stitch now item).tags =
      item.tags.foldl (fun tags t => tags.set t.tag t.value) metrics.tags := by
  unfold LinkMetrics.stitch
  dsimp only
  split
  · rfl
  split
  · rfl
  split
  · split
    · rfl
    split <;> rfl
  · rfl

theorem tags_foldl_stitch (now : ℤ) (items : List ZItem) (metrics : LinkMetrics) :
    (items.foldl (LinkMetrics.stitch now) metrics).tags =
      (items.flatMap (·.tags)).foldl (fun tags t => tags.set t.tag t.value) metrics.tags := by
  induction items generalizing metrics with
  | nil => rfl
  | cons item rest ih =>
      rw [List.foldl_cons, ih, stitch_tags, List.flatMap_cons, List.foldl_append]

variable (intl : Intl) (thresholds : LinkThresholds) (now : ℤ) (id : String) (first : LinkRow)
  (rows : List LinkRow)

theorem linkOf_state :
    (linkOf intl thresholds now id first rows).state =
      saidState thresholds now (rows.map (·.item)) := by
  have up := @foldl_last _ _ _ LinkMetrics.up (LinkMetrics.stitch now)
    (fun item => (parseKey item.key_).name = "icmpping") (fun item => item.pingAnswer now)
    (fun metrics item => by simpa using LinkMetrics.stitch_up now metrics item)
    (rows.map (·.item)) .start
  have loss := @foldl_last _ _ _ LinkMetrics.loss (LinkMetrics.stitch now)
    (fun item => (parseKey item.key_).name = "icmppingloss") (fun item => item.value now)
    (fun metrics item => by simpa using stitch_loss now metrics item)
    (rows.map (·.item)) .start
  unfold linkOf saidState lastNamed
  dsimp only
  rw [up, loss]
  congr 1
  · cases lastOf (fun item => decide ((parseKey item.key_).name = "icmpping"))
      (rows.map (·.item)) <;> rfl
  · cases lastOf (fun item => decide ((parseKey item.key_).name = "icmppingloss"))
      (rows.map (·.item)) <;> rfl

theorem linkOf_group :
    (linkOf intl thresholds now id first rows).group =
      saidGroup intl first.host.name (rows.map (·.item)) := by
  unfold linkOf saidGroup
  dsimp only
  rw [tags_foldl_stitch, get?_foldl_set_last (fun t : ItemTag => t.tag) (fun t => t.value)]
  cases lastOf (fun t : ItemTag => decide (t.tag = "link_group"))
    ((rows.map (·.item)).flatMap (·.tags)) <;> rfl

end Said

section Rows

variable (intl : Intl) (localeCompare : String → String → Ordering)
  (thresholds : LinkThresholds) (items : List ZItem) (now : ℤ)

def itemsBeside (row : LinkRow) : List ZItem :=
  (rowsOf items row.host.hostid row.target).map (·.item)

def hostNameOf (row : LinkRow) : String :=
  (((rowsOf items row.host.hostid row.target).head?).map (·.host.name)).getD ""

def rowState (row : LinkRow) : LinkState := saidState thresholds now (itemsBeside items row)

def rowGroup (row : LinkRow) : Option String :=
  saidGroup intl (hostNameOf items row) (itemsBeside items row)

/-- A path whose legs are down or of unknown state, some of each. -/
def MixedLegs (name : String) : Prop :=
  (∃ row ∈ items.filterMap linkRow, rowGroup intl items row = some name ∧
    rowState thresholds items now row = .down) ∧
  (∃ row ∈ items.filterMap linkRow, rowGroup intl items row = some name ∧
    rowState thresholds items now row = .unknown) ∧
  ∀ row ∈ items.filterMap linkRow, rowGroup intl items row = some name →
    rowState thresholds items now row = .down ∨ rowState thresholds items now row = .unknown

variable {intl localeCompare thresholds items now}

/-- A link has the state and the group its rows say. -/
theorem link_of_row {link : Link} (listed : link ∈ linksOf intl localeCompare thresholds items now)
    {row : LinkRow} (sameHost : row.host.hostid = link.hostid) (sameTarget : row.target = link.target) :
    link.state = rowState thresholds items now row ∧ link.group = rowGroup intl items row := by
  obtain ⟨first, atHead, made⟩ := linksOf_head intl localeCompare thresholds items now listed
  rw [rowState, rowGroup, hostNameOf, itemsBeside, sameHost, sameTarget, atHead]
  exact ⟨(congrArg Link.state made).trans (linkOf_state intl thresholds now _ first _),
    (congrArg Link.group made).trans (linkOf_group intl thresholds now _ first _)⟩

theorem row_of_link {link : Link} (listed : link ∈ linksOf intl localeCompare thresholds items now) :
    ∃ row ∈ items.filterMap linkRow, link.state = rowState thresholds items now row ∧
      link.group = rowGroup intl items row := by
  obtain ⟨row, beside, _⟩ := mem_linksOf intl localeCompare thresholds items now listed
  obtain ⟨member, own⟩ := List.mem_filter.mp beside
  obtain ⟨sameHost, sameTarget⟩ := of_decide_eq_true own
  exact ⟨row, member, link_of_row listed sameHost sameTarget⟩

theorem exists_link_of_row {row : LinkRow} (member : row ∈ items.filterMap linkRow) :
    ∃ link ∈ linksOf intl localeCompare thresholds items now,
      link.state = rowState thresholds items now row ∧ link.group = rowGroup intl items row := by
  obtain ⟨link, listed, sameHost, sameTarget⟩ :=
    exists_link intl localeCompare thresholds items now member
  exact ⟨link, listed, link_of_row listed sameHost.symm sameTarget.symm⟩

end Rows

section Paths

variable (localeCompare : String → String → Ordering) (links : List Link)

def legsOf (name : String) : List Link := links.filter fun link => link.group = some name

theorem bucket_legs {members : List (String × Link)} {name : String}
    (bucket : members = (links.filterMap fun link => link.group.map fun group => (group, link)).filter
      fun member => member.1 = name) : members.map Prod.snd = legsOf links name := by
  subst bucket
  induction links with
  | nil => rfl
  | cons link rest ih =>
      rw [legsOf] at ih ⊢
      cases grouped : link.group with
      | none =>
          rw [List.filterMap_cons_none (by rw [grouped]; rfl), ih,
            List.filter_cons_of_neg (by simp [grouped])]
      | some group =>
          rw [List.filterMap_cons_some (by rw [grouped]; rfl)]
          by_cases own : group = name
          · rw [List.filter_cons_of_pos (by simpa using own), List.map_cons, ih,
              List.filter_cons_of_pos (by simpa [grouped] using own)]
          · rw [List.filter_cons_of_neg (by simpa using own), ih,
              List.filter_cons_of_neg (by simpa [grouped] using own)]

/-- The paths are the groups of the links, each with all links of the group. -/
theorem mem_linkPaths {path : LinkPath} (listed : path ∈ linkPaths localeCompare links) :
    path.links = legsOf links path.name ∧ path.links ≠ [] ∧ path.state = pathState path.links := by
  rw [linkPaths, mem_sortBy] at listed
  obtain ⟨⟨name, members⟩, entry, rfl⟩ := List.mem_map.mp listed
  refine ⟨bucket_legs links (groupBy_bucket entry), fun empty => ?_, rfl⟩
  exact groupBy_bucket_ne_nil entry (List.map_eq_nil_iff.mp empty)

theorem linkPaths_names_nodup : ((linkPaths localeCompare links).map (·.name)).Nodup := by
  rw [linkPaths, ((sortBy_perm _ _).map _).nodup_iff, List.map_map]
  exact (groupBy _ _).keys_nodup

theorem exists_path {link : Link} (listed : link ∈ links) {group : String}
    (grouped : link.group = some group) : ∃ path ∈ linkPaths localeCompare links, path.name = group := by
  have member : (group, link) ∈ links.filterMap fun link =>
      link.group.map fun group => (group, link) :=
    List.mem_filterMap.mpr ⟨link, listed, by rw [grouped]; rfl⟩
  have entry := groupBy_entry_of_mem Prod.fst member
  refine ⟨_, (mem_sortBy _ _ _).mpr (List.mem_map.mpr ⟨_, entry, rfl⟩), rfl⟩

/-- A link with a group is a leg of the one path of that name, a link without of none. -/
theorem paths_with_link {link : Link} (listed : link ∈ links) :
    ((linkPaths localeCompare links).filter fun path => link ∈ path.links).length =
      if link.group.isSome then 1 else 0 := by
  have legs : ∀ path ∈ linkPaths localeCompare links,
      (link ∈ path.links ↔ link.group = some path.name) := by
    intro path member
    rw [(mem_linkPaths localeCompare links member).1, legsOf, List.mem_filter]
    simp [listed]
  cases grouped : link.group with
  | none =>
      have never : ∀ path ∈ linkPaths localeCompare links, ¬ decide (link ∈ path.links) = true := by
        intro path member isLeg
        have own := (legs path member).mp (of_decide_eq_true isLeg)
        rw [grouped] at own
        cases own
      rw [List.filter_eq_nil_iff.mpr never]
      rfl
  | some group =>
      obtain ⟨path, member, rfl⟩ := exists_path localeCompare links listed grouped
      have same : ((linkPaths localeCompare links).filter fun other => link ∈ other.links) =
          (linkPaths localeCompare links).filter fun other => other.name = path.name := by
        refine List.filter_congr fun other inPaths => ?_
        rw [decide_eq_decide, legs other inPaths, grouped, Option.some.injEq, eq_comm]
      rw [same, filter_key_eq_singleton (linkPaths_names_nodup localeCompare links) member]
      rfl

end Paths

section PathState

variable {members : List Link}

/-- Without a leg that is up or degraded, a path is down unless the state of every leg is
unknown. -/
theorem pathState_eq_down_iff : pathState members = .down ↔
    (∀ leg ∈ members, leg.state = .down ∨ leg.state = .unknown) ∧
      ∃ leg ∈ members, leg.state ≠ .unknown := by
  have others : ∀ state : LinkState, state = .down ∨ state = .unknown ↔
      state ≠ .up ∧ state ≠ .degraded := by
    intro state
    cases state <;> decide
  unfold pathState
  simp only [List.any_eq_true, List.all_eq_true, decide_eq_true_eq]
  constructor
  · intro down
    split at down
    · split at down <;> cases down
    · next noneUp =>
        split at down
        · cases down
        · next noneDegraded =>
            split at down
            · cases down
            · next known =>
                push Not at known noneUp noneDegraded
                exact ⟨fun leg member =>
                  (others _).mpr ⟨noneUp leg member, noneDegraded leg member⟩, known⟩
  · rintro ⟨lost, leg, member, known⟩
    have noneUp : ¬ ∃ leg ∈ members, leg.state = .up := by
      rintro ⟨leg, member, up⟩
      exact ((others _).mp (lost leg member)).1 up
    have noneDegraded : ¬ ∃ leg ∈ members, leg.state = .degraded := by
      rintro ⟨leg, member, degraded⟩
      exact ((others _).mp (lost leg member)).2 degraded
    rw [if_neg noneUp, if_neg noneDegraded, if_neg fun all => known (all leg member)]

/-- A path tells when all its legs are down, unless down legs stand beside unknown ones only. -/
theorem pathState_tells_iff (nonempty : members ≠ []) :
    (pathState members = .down ↔
      ∀ leg ∈ members, leg.state ≠ .up ∧ leg.state ≠ .degraded ∧ leg.state ≠ .unknown) ↔
    ¬ ((∃ leg ∈ members, leg.state = .down) ∧ (∃ leg ∈ members, leg.state = .unknown) ∧
      ∀ leg ∈ members, leg.state = .down ∨ leg.state = .unknown) := by
  rw [pathState_eq_down_iff]
  constructor
  · rintro tells ⟨⟨leg, member, down⟩, ⟨other, inPath, unknown⟩, lost⟩
    have all := tells.mp ⟨lost, leg, member, by rw [down]; decide⟩
    exact (all other inPath).2.2 unknown
  · intro unmixed
    constructor
    · rintro ⟨lost, leg, member, known⟩ other inPath
      have down : leg.state = .down := (lost leg member).resolve_right known
      have noneUnknown : other.state ≠ .unknown := fun unknown =>
        unmixed ⟨⟨leg, member, down⟩, ⟨other, inPath, unknown⟩, lost⟩
      rw [(lost other inPath).resolve_right noneUnknown]
      decide
    · intro all
      have down : ∀ leg ∈ members, leg.state = .down := by
        intro leg member
        have states := all leg member
        cases state : leg.state <;> simp_all
      obtain ⟨leg, member⟩ := List.exists_mem_of_ne_nil _ nonempty
      exact ⟨fun other inPath => .inl (down other inPath), leg, member, by
        rw [down leg member]; decide⟩

end PathState

section Tell

variable (intl : Intl) (localeCompare : String → String → Ordering)
  (thresholds : LinkThresholds) (items : List ZItem) (now : ℤ)

theorem legs_iff_rows {name : String} {holds : LinkState → Prop} :
    (∃ leg ∈ legsOf (linksOf intl localeCompare thresholds items now) name, holds leg.state) ↔
      ∃ row ∈ items.filterMap linkRow, rowGroup intl items row = some name ∧
        holds (rowState thresholds items now row) := by
  constructor
  · rintro ⟨leg, inGroup, state⟩
    obtain ⟨listed, grouped⟩ := List.mem_filter.mp inGroup
    obtain ⟨row, member, sameState, sameGroup⟩ := row_of_link listed
    exact ⟨row, member, sameGroup ▸ of_decide_eq_true grouped, sameState ▸ state⟩
  · rintro ⟨row, member, grouped, state⟩
    obtain ⟨leg, listed, sameState, sameGroup⟩ :=
      @exists_link_of_row intl localeCompare thresholds items now row member
    exact ⟨leg, List.mem_filter.mpr ⟨listed, decide_eq_true (sameGroup.trans grouped)⟩,
      sameState ▸ state⟩

theorem mixed_legs_iff (name : String) :
    ((∃ leg ∈ legsOf (linksOf intl localeCompare thresholds items now) name, leg.state = .down) ∧
      (∃ leg ∈ legsOf (linksOf intl localeCompare thresholds items now) name,
        leg.state = .unknown) ∧
      ∀ leg ∈ legsOf (linksOf intl localeCompare thresholds items now) name,
        leg.state = .down ∨ leg.state = .unknown) ↔
    MixedLegs intl thresholds items now name := by
  have others := not_congr (@legs_iff_rows intl localeCompare thresholds items now name
    fun state => ¬ (state = .down ∨ state = .unknown))
  push Not at others
  have all : (∀ leg ∈ legsOf (linksOf intl localeCompare thresholds items now) name,
      leg.state = .down ∨ leg.state = .unknown) ↔
      ∀ row ∈ items.filterMap linkRow, rowGroup intl items row = some name →
        rowState thresholds items now row = .down ∨
          rowState thresholds items now row = .unknown := by
    simpa only [or_iff_not_imp_left] using others
  rw [MixedLegs, all, ← @legs_iff_rows intl localeCompare thresholds items now name fun state =>
    state = .down, ← @legs_iff_rows intl localeCompare thresholds items now name fun state =>
    state = .unknown]

/-- The paths tell which redundant paths are down exactly when no path has legs that are down
beside legs of unknown state, and no others. -/
theorem paths_tell_iff :
    PathsTell (getLinks intl localeCompare thresholds items now) ↔
      ∀ name, ¬ MixedLegs intl thresholds items now name := by
  have members : ∀ link ∈ (getLinks intl localeCompare thresholds items now).links,
      ((getLinks intl localeCompare thresholds items now).paths.filter fun path =>
        link ∈ path.links).length = if link.group.isSome then 1 else 0 :=
    fun _ listed => paths_with_link localeCompare _ listed
  rw [PathsTell, and_iff_left members]
  constructor
  · intro tells name mixed
    rw [← mixed_legs_iff intl localeCompare] at mixed
    obtain ⟨leg, inGroup, _⟩ := mixed.1
    obtain ⟨listed, grouped⟩ := List.mem_filter.mp inGroup
    obtain ⟨path, member, rfl⟩ :=
      exists_path localeCompare _ listed (of_decide_eq_true grouped)
    obtain ⟨legs, nonempty, state⟩ := mem_linkPaths localeCompare _ member
    have told := tells path member
    rw [state, pathState_tells_iff nonempty, legs] at told
    exact told mixed
  · intro unmixed path member
    obtain ⟨legs, nonempty, state⟩ := mem_linkPaths localeCompare _ member
    rw [state, pathState_tells_iff nonempty, legs, mixed_legs_iff intl localeCompare]
    exact unmixed path.name

theorem ten_digits : "10".toList.all Char.isDigit = true := by decide

theorem eleven_digits : "11".toList.all Char.isDigit = true := by decide

/-- One leg of a pair answers no ping, nothing recent is known of the other. -/
def mixedPair : List ZItem :=
  [{ name := "ICMP ping", key_ := "icmpping", lastvalue := some "0", lastclock := some "1000",
     state := some "0", delay := some "1m", hosts := [⟨⟨"10", ten_digits⟩, "INET : SAMPANG WAN 1"⟩],
     tags := [] },
   { name := "ICMP ping", key_ := "icmpping", lastvalue := some "1", lastclock := some "0",
     state := some "0", delay := some "1m", hosts := [⟨⟨"11", eleven_digits⟩, "INET : SAMPANG WAN 2"⟩],
     tags := [] }]

theorem unknown_leg_counts_as_down :
    ¬ PathsTell (getLinks asciiIntl (fun a b => compare a.toList b.toList) ⟨5, 20⟩ mixedPair
      1000) := by
  intro tells
  have one : ∀ path ∈ (getLinks asciiIntl (fun a b => compare a.toList b.toList) ⟨5, 20⟩ mixedPair
      1000).paths, path.state = .down ∧ ∃ leg ∈ path.links, leg.state = .unknown := by
    decide +kernel
  have nonempty : (getLinks asciiIntl (fun a b => compare a.toList b.toList) ⟨5, 20⟩ mixedPair
      1000).paths ≠ [] := by
    decide +kernel
  obtain ⟨path, member⟩ := List.exists_mem_of_ne_nil _ nonempty
  obtain ⟨down, leg, isLeg, unknown⟩ := one path member
  exact ((tells.1 path member).mp down leg isLeg).2.2 unknown

end Tell

end ZabbixPortal.Services
