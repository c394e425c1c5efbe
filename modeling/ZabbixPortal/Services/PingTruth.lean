import ZabbixPortal.Domain.Naming
import ZabbixPortal.Domain.Reachability
import ZabbixPortal.Services.Links

/-! One truth about ping: the Sites page and the Links page read the same ICMP items.
They tell the same story of a host exactly when its own pings are of one mind. -/

set_option autoImplicit false

namespace ZabbixPortal.Services

open Foundation Domain Sli

/-- An ICMP item as Zabbix holds it; each page asks for its own part of it. -/
structure PolledItem where
  itemid : String
  host : LinkHost
  name : String
  key_ : String
  lastvalue : String
  lastclock : String
  state : String
  delay : String
  tags : List ItemTag
deriving DecidableEq

namespace PolledItem

def icmpItem (item : PolledItem) : IcmpItem where
  itemid := item.itemid
  hostid := item.host.hostid
  key_ := item.key_
  lastvalue := item.lastvalue
  lastclock := item.lastclock
  state := item.state
  delay := item.delay

def linkItem (item : PolledItem) : ZItem where
  name := item.name
  key_ := item.key_
  lastvalue := some item.lastvalue
  lastclock := some item.lastclock
  state := some item.state
  delay := some item.delay
  hosts := [item.host]
  tags := item.tags

/-- An `icmpping` item with no parameters or an empty first one. -/
def pingsItself (item : PolledItem) : Bool :=
  (parseKey item.key_).name = "icmpping" ∧ (parseKey item.key_).target = ""

def isOwnPing (hostid : ZabbixId) (item : PolledItem) : Bool :=
  item.host.hostid = hostid ∧ item.pingsItself

end PolledItem

def sitesUp (items : List PolledItem) (now : ℤ) (hostid : ZabbixId) : Option Bool :=
  upOf (foldIcmp (items.map (·.icmpItem)) now) hostid

section PingTruth

variable (intl : Intl) (localeCompare : String → String → Ordering)
  (thresholds : LinkThresholds) (now : ℤ) (hostid : ZabbixId)

def ownLink (items : List PolledItem) : Option Link :=
  linkTo intl localeCompare thresholds (items.map (·.linkItem)) now hostid ""

/-- In whatever order the items come, the Sites page has one up state for the host,
has it from the pings of the host itself alone, and the host's own link has it too. -/
def OneTruth (items : List PolledItem) : Prop :=
  ∀ reordered : List PolledItem, reordered.Perm items →
    sitesUp reordered now hostid = sitesUp items now hostid ∧
    sitesUp reordered now hostid =
      sitesUp (reordered.filter fun item => item.isOwnPing hostid) now hostid ∧
    (ownLink intl localeCompare thresholds now hostid reordered).map (·.up) =
      some (sitesUp reordered now hostid)

/-- A fresh ping of the host that the Sites page may take its state from: one that
`pingsHost` accepts, or any when it accepts none of them. -/
def Eligible (items : List PolledItem) (item : PolledItem) : Prop :=
  item ∈ items ∧ item.host.hostid = hostid ∧ (item.icmpItem.answer now).isSome ∧
    (pingsHost item.key_ ∨ ∀ other ∈ items, other.host.hostid = hostid →
      (other.icmpItem.answer now).isSome → pingsHost other.key_ = false)

/-- All own pings of the host, fresh or not, give the link one reading; every ping the
Sites page may take its state from gives that reading too, among all the items and
among the own pings alone. -/
def Unanimous (items : List PolledItem) : Prop :=
  ∃ up : Option Bool,
    (∀ item ∈ items, item.isOwnPing hostid → item.linkItem.pingAnswer now = up) ∧
    (∀ item, Eligible now hostid items item → item.icmpItem.answer now = up) ∧
    (∀ item, Eligible now hostid (items.filter fun item => item.isOwnPing hostid) item →
      item.icmpItem.answer now = up)

variable {now hostid}

theorem sitesUp_eq (items : List PolledItem) :
    sitesUp items now hostid =
      ((items.filter fun item => item.host.hostid = hostid ∧ pingsHost item.key_).findSome?
          fun item => item.icmpItem.answer now).or
        ((items.filter fun item => item.host.hostid = hostid ∧ !pingsHost item.key_).findSome?
          fun item => item.icmpItem.answer now) := by
  rw [sitesUp, upOf_foldIcmp]
  simp only [List.filter_map, List.filter_filter, List.findSome?_map]
  congr 2 <;>
  · refine List.filter_congr fun item _ => ?_
    simp [PolledItem.icmpItem]

/-- The key of an own ping is a ping to `foldIcmp` too. -/
theorem isPing_of_pingsItself {item : PolledItem} (own : item.pingsItself = true) :
    isPing item.key_ = true := by
  have name : (parseKey item.key_).name = "icmpping" := by
    simp only [PolledItem.pingsItself, decide_eq_true_eq] at own
    exact own.1
  unfold parseKey at name
  dsimp only at name
  split at name
  · have plain : item.key_ = "icmpping" := name
    rw [plain]
    decide
  · next bracketed =>
      have opened : '[' ∈ item.key_.toList := by simpa using bracketed
      have letters : item.key_.toList.take (item.key_.toList.idxOf '[') = "icmpping".toList := by
        rw [← name, String.toList_ofList]
      have bracket : item.key_.toList.drop (item.key_.toList.idxOf '[') =
          '[' :: item.key_.toList.drop (item.key_.toList.idxOf '[' + 1) := by
        have inside := List.idxOf_lt_length_of_mem opened
        rw [List.drop_eq_getElem_cons inside, List.getElem_idxOf inside]
      obtain ⟨parameters, shape⟩ :
          ∃ parameters, item.key_.toList = "icmpping".toList ++ '[' :: parameters := by
        refine ⟨item.key_.toList.drop (item.key_.toList.idxOf '[' + 1), ?_⟩
        rw [← letters, ← bracket, List.take_append_drop]
      rw [isPing, startsWith, startsWith, startsWith, shape]
      rfl

theorem answer_isSome_of_pingAnswer {item : PolledItem} (own : item.pingsItself = true)
    {up : Bool} (read : item.linkItem.pingAnswer now = some up) :
    (item.icmpItem.answer now).isSome = true := by
  obtain ⟨value, valued, _⟩ := Option.map_eq_some_iff.mp read
  have fresh : item.icmpItem.fresh now = true := by
    unfold ZItem.value at valued
    split at valued
    · next fresh => exact fresh
    · cases valued
  have ping : isPing item.icmpItem.key_ = true := isPing_of_pingsItself own
  rw [IcmpItem.answer, fresh, ping]
  rfl

/-- When every ping the state may come from agrees with the own pings, the state is
what they say. -/
theorem sitesUp_of_agreement {items : List PolledItem} {up : Option Bool} {own : PolledItem}
    (member : own ∈ items) (isOwn : own.isOwnPing hostid = true)
    (read : own.linkItem.pingAnswer now = up)
    (agree : ∀ item, Eligible now hostid items item → item.icmpItem.answer now = up) :
    sitesUp items now hostid = up := by
  rw [sitesUp_eq]
  cases accepted : (items.filter fun item =>
      item.host.hostid = hostid ∧ pingsHost item.key_).findSome?
        fun item => item.icmpItem.answer now with
  | some answer =>
      obtain ⟨item, inside, answered⟩ := List.exists_of_findSome?_eq_some accepted
      obtain ⟨listed, sameHost, pings⟩ :
          item ∈ items ∧ item.host.hostid = hostid ∧ pingsHost item.key_ = true := by
        simpa using inside
      have eligible : Eligible now hostid items item :=
        ⟨listed, sameHost, by rw [answered]; rfl, .inl pings⟩
      rw [← agree item eligible, answered]
      rfl
  | none =>
      have rejected : ∀ other ∈ items, other.host.hostid = hostid →
          (other.icmpItem.answer now).isSome → pingsHost other.key_ = false := by
        intro other listed sameHost answered
        refine Bool.eq_false_iff.mpr fun pings => ?_
        have inside : other ∈ items.filter fun item =>
            item.host.hostid = hostid ∧ pingsHost item.key_ := by
          simpa using ⟨listed, sameHost, pings⟩
        rw [List.findSome?_eq_none_iff.mp accepted other inside] at answered
        cases answered
      cases others : (items.filter fun item =>
          item.host.hostid = hostid ∧ !pingsHost item.key_).findSome?
            fun item => item.icmpItem.answer now with
      | some answer =>
          obtain ⟨item, inside, answered⟩ := List.exists_of_findSome?_eq_some others
          obtain ⟨listed, sameHost, _⟩ :
              item ∈ items ∧ item.host.hostid = hostid ∧ pingsHost item.key_ = false := by
            simpa using inside
          have eligible : Eligible now hostid items item :=
            ⟨listed, sameHost, by rw [answered]; rfl, .inr rejected⟩
          rw [← agree item eligible, answered]
          rfl
      | none =>
          obtain ⟨sameHost, itself⟩ : own.host.hostid = hostid ∧ own.pingsItself = true := by
            simpa [PolledItem.isOwnPing] using isOwn
          cases up with
          | none => rfl
          | some up =>
              have answered := answer_isSome_of_pingAnswer itself read
              have inside : own ∈ items.filter fun item =>
                  item.host.hostid = hostid ∧ !pingsHost item.key_ := by
                simpa using ⟨member, sameHost, rejected own member sameHost answered⟩
              rw [List.findSome?_eq_none_iff.mp others own inside] at answered
              cases answered

/-- An eligible ping that comes first gives the state. -/
theorem sitesUp_of_first {item : PolledItem} {rest : List PolledItem}
    (eligible : Eligible now hostid (item :: rest) item) :
    sitesUp (item :: rest) now hostid = item.icmpItem.answer now := by
  obtain ⟨_, sameHost, answered, accepted⟩ := eligible
  obtain ⟨answer, answers⟩ := Option.isSome_iff_exists.mp answered
  rw [sitesUp_eq]
  by_cases pings : pingsHost item.key_ = true
  · rw [List.filter_cons_of_pos (by simpa using ⟨sameHost, pings⟩), List.findSome?_cons, answers]
    rfl
  · have refusal : pingsHost item.key_ = false := Bool.eq_false_iff.mpr pings
    have rejected := accepted.resolve_left pings
    have nothing : ((item :: rest).filter fun item =>
        item.host.hostid = hostid ∧ pingsHost item.key_).findSome?
          (fun item => item.icmpItem.answer now) = none := by
      refine List.findSome?_eq_none_iff.mpr fun other inside => ?_
      obtain ⟨listed, otherHost, otherPings⟩ : other ∈ item :: rest ∧
          other.host.hostid = hostid ∧ pingsHost other.key_ = true := by
        simpa using inside
      by_contra left
      have refused := rejected other listed otherHost (Option.isSome_iff_ne_none.mpr left)
      rw [otherPings] at refused
      cases refused
    rw [nothing, List.filter_cons_of_pos (by simpa using ⟨sameHost, refusal⟩),
      List.findSome?_cons, answers]
    rfl

theorem Eligible.of_perm {items reordered : List PolledItem} {item : PolledItem}
    (same : reordered.Perm items) (eligible : Eligible now hostid items item) :
    Eligible now hostid reordered item := by
  obtain ⟨listed, sameHost, answered, accepted⟩ := eligible
  refine ⟨same.mem_iff.mpr listed, sameHost, answered, ?_⟩
  exact accepted.imp_right fun rejected other member => rejected other (same.mem_iff.mp member)

/-- The row an item makes, and whether it is one of the host's own `icmpping` rows. -/
private theorem linkRow_linkItem (item : PolledItem) :
    linkRow item.linkItem =
      if startsWith (parseKey item.key_).name "icmpping" then
        some ⟨item.host, (parseKey item.key_).target, item.linkItem⟩
      else none := rfl

/-- The rows of a host's own link are its own items, in their order. -/
theorem rowsOf_own (items : List PolledItem) :
    (((rowsOf (items.map (·.linkItem)) hostid "").map (·.item)).filter fun item =>
        (parseKey item.key_).name = "icmpping") =
      (items.filter fun item => item.isOwnPing hostid).map (·.linkItem) := by
  induction items with
  | nil => rfl
  | cons item rest ih =>
      unfold rowsOf at ih ⊢
      rw [List.map_cons, List.filterMap_cons, linkRow_linkItem, List.filter_cons]
      have own : item.isOwnPing hostid = decide (item.host.hostid = hostid ∧
          (parseKey item.key_).name = "icmpping" ∧ (parseKey item.key_).target = "") := by
        simp [PolledItem.isOwnPing, PolledItem.pingsItself]
      rw [own]
      by_cases name : (parseKey item.key_).name = "icmpping"
      · have icmp : startsWith (parseKey item.key_).name "icmpping" = true := by
          rw [name]
          decide
        rw [if_pos icmp]
        by_cases here : item.host.hostid = hostid ∧ (parseKey item.key_).target = ""
        · have named : (parseKey item.linkItem.key_).name = "icmpping" := name
          rw [List.filter_cons_of_pos (by simpa using here), List.map_cons,
            List.filter_cons_of_pos (by simpa using named), ih]
          simp [here, name]
        · rw [List.filter_cons_of_neg (by simpa using here), ih, if_neg]
          simpa [name] using here
      · rw [if_neg (by simp [name] : ¬ decide (item.host.hostid = hostid ∧
          (parseKey item.key_).name = "icmpping" ∧ (parseKey item.key_).target = "") = true)]
        by_cases icmp : startsWith (parseKey item.key_).name "icmpping" = true
        · rw [if_pos icmp]
          by_cases here : item.host.hostid = hostid ∧ (parseKey item.key_).target = ""
          · have other : (parseKey item.linkItem.key_).name ≠ "icmpping" := name
            rw [List.filter_cons_of_pos (by simpa using here), List.map_cons,
              List.filter_cons_of_neg (by simpa using other), ih]
          · rw [List.filter_cons_of_neg (by simpa using here), ih]
        · rw [if_neg icmp]
          exact ih

/-- The host's own link has the reading of the last of its own pings. -/
theorem ownLink_up {items : List PolledItem} {own : PolledItem} (member : own ∈ items)
    (isOwn : own.isOwnPing hostid = true) :
    (ownLink intl localeCompare thresholds now hostid items).map (·.up) =
      some ((items.filter fun item => item.isOwnPing hostid).getLast?.bind fun item =>
        item.linkItem.pingAnswer now) := by
  have rows : _ = (items.filter fun item => item.isOwnPing hostid).map (·.linkItem) :=
    rowsOf_own items
  have filled : rowsOf (items.map (·.linkItem)) hostid "" ≠ [] := by
    intro bare
    rw [bare] at rows
    have inside : own ∈ items.filter fun item => item.isOwnPing hostid :=
      List.mem_filter.mpr ⟨member, isOwn⟩
    have empty := List.map_eq_nil_iff.mp rows.symm
    rw [empty] at inside
    cases inside
  rw [ownLink, linkTo_up intl localeCompare thresholds _ now filled, rows, List.getLast?_map,
    Option.bind_map]
  rfl

/-- A host with pings of its own has one truth about them exactly when they are
unanimous: no stale one, no second one of another mind, and no ping to another target
standing in for them. -/
theorem one_truth_iff (items : List PolledItem)
    (pinged : ∃ item ∈ items, item.isOwnPing hostid = true) :
    OneTruth intl localeCompare thresholds now hostid items ↔ Unanimous now hostid items := by
  constructor
  · intro truth
    refine ⟨sitesUp items now hostid, ?_, ?_, ?_⟩
    · -- The link takes the last own ping, so put the one in question there.
      intro item member own
      have same : (items.erase item ++ [item]).Perm items :=
        List.perm_append_comm.trans (List.perm_cons_erase member).symm
      obtain ⟨unchanged, _, linked⟩ := truth _ same
      have last : item ∈ items.erase item ++ [item] :=
        List.mem_append_right (items.erase item) (List.mem_singleton_self item)
      have read : (ownLink intl localeCompare thresholds now hostid _).map (·.up) = _ :=
        ownLink_up intl localeCompare thresholds last own
      rw [linked, unchanged, List.filter_append,
        List.filter_cons_of_pos (by simpa using own), List.filter_nil, List.getLast?_concat]
        at read
      exact (Option.some.inj read).symm
    · -- The Sites page takes the first eligible ping, so put that one first.
      intro item eligible
      have same := (List.perm_cons_erase eligible.1).symm
      rw [← (truth _ same).1, sitesUp_of_first (eligible.of_perm same)]
    · intro item eligible
      obtain ⟨member, own⟩ := List.mem_filter.mp eligible.1
      have same := (List.perm_cons_erase member).symm
      obtain ⟨unchanged, alone, _⟩ := truth _ same
      have first := eligible.of_perm (same.filter fun item => item.isOwnPing hostid)
      rw [List.filter_cons_of_pos (by simpa using own)] at alone first
      rw [← unchanged, alone, sitesUp_of_first first]
  · rintro ⟨up, readings, answers, alone⟩ reordered same
    obtain ⟨own, member, isOwn⟩ := pinged
    have read := readings own member isOwn
    have inReordered : own ∈ reordered := same.mem_iff.mpr member
    have first : sitesUp reordered now hostid = up :=
      sitesUp_of_agreement inReordered isOwn read fun item eligible =>
        answers item (eligible.of_perm same.symm)
    have ownOnly : sitesUp (reordered.filter fun item => item.isOwnPing hostid) now hostid = up :=
      sitesUp_of_agreement (List.mem_filter.mpr ⟨inReordered, isOwn⟩) isOwn read
        fun item eligible => alone item (eligible.of_perm (same.symm.filter _))
    refine ⟨first.trans (sitesUp_of_agreement member isOwn read answers).symm,
      first.trans ownOnly.symm, ?_⟩
    rw [ownLink_up intl localeCompare thresholds inReordered isOwn, first]
    obtain ⟨last, atEnd⟩ : ∃ last, (reordered.filter fun item =>
        item.isOwnPing hostid).getLast? = some last :=
      List.getLast?_isSome.mpr (List.ne_nil_of_mem (List.mem_filter.mpr ⟨inReordered, isOwn⟩))
        |> Option.isSome_iff_exists.mp
    obtain ⟨listed, lastOwn⟩ := List.mem_filter.mp (List.mem_of_getLast? atEnd)
    rw [atEnd, Option.bind_some, readings last (same.mem_iff.mp listed) lastOwn]

end PingTruth

private def polled (itemid key value clock : String) : PolledItem where
  itemid
  host := ⟨⟨"10", by decide⟩, "01.SBY ROUTER"⟩
  name := "ICMP ping"
  key_ := key
  lastvalue := value
  lastclock := clock
  state := "0"
  delay := "1m"
  tags := []

/-- Two pings of the router, and one through it to a device that is gone. -/
def twoOwnPings : List PolledItem :=
  [polled "501" "icmpping[10.9.9.9]" "0" "1700000000", polled "500" "icmpping[,3]" "1" "1700000000",
    polled "502" "icmpping" "1" "1700000030"]

theorem one_truth_iff_twoOwnPings :
    OneTruth asciiIntl compareCodeUnits ⟨2, 10⟩ 1700000060 ⟨"10", by decide⟩ twoOwnPings := by
  have own : polled "500" "icmpping[,3]" "1" "1700000000" ∈ twoOwnPings := by simp [twoOwnPings]
  refine (one_truth_iff asciiIntl compareCodeUnits ⟨2, 10⟩ _ ⟨_, own, by decide⟩).mpr ?_
  -- the ping to the other target is not eligible beside one of the router's own
  have read : ∀ item ∈ twoOwnPings, pingsHost item.key_ = true →
      item.linkItem.pingAnswer 1700000060 = some true ∧
        item.icmpItem.answer 1700000060 = some true := by
    decide +kernel
  have eligible : ∀ items item, polled "500" "icmpping[,3]" "1" "1700000000" ∈ items →
      (∀ item ∈ items, item ∈ twoOwnPings) →
        Eligible 1700000060 ⟨"10", by decide⟩ items item →
          item.icmpItem.answer 1700000060 = some true := by
    intro items item beside among eligible
    obtain ⟨member, -, -, pings | unaccepted⟩ := eligible
    · exact (read item (among item member) pings).2
    · exact absurd (unaccepted _ beside rfl (by rw [(read _ own (by decide)).2]; rfl)) (by decide)
  refine ⟨some true, ?_, fun item => eligible _ item own fun _ member => member, fun item =>
    eligible _ item (List.mem_filter.mpr ⟨own, by decide⟩) fun _ => List.mem_of_mem_filter⟩
  have mind : ∀ item ∈ twoOwnPings, item.isOwnPing ⟨"10", by decide⟩ = true →
      pingsHost item.key_ = true := by
    decide +kernel
  exact fun item member isOwn => (read item member (mind item member isOwn)).1

/-- The router's own ping stopped two hours ago; a ping of another device through it
still comes in and finds that device gone. -/
theorem other_target_speaks_for_the_host :
    let items := [polled "500" "icmpping" "1" "1699992800",
      polled "501" "icmpping[10.9.9.9]" "0" "1700000000"]
    (∃ item ∈ items, item.isOwnPing ⟨"10", by decide⟩ = true) ∧
      sitesUp items 1700000060 ⟨"10", by decide⟩ = some false ∧
      (ownLink asciiIntl compareCodeUnits ⟨2, 10⟩ 1700000060 ⟨"10", by decide⟩ items).map (·.up) =
        some none ∧
      ¬ OneTruth asciiIntl compareCodeUnits ⟨2, 10⟩ 1700000060 ⟨"10", by decide⟩ items := by
  intro items
  have sites : sitesUp items 1700000060 ⟨"10", by decide⟩ = some false := by decide +kernel
  have link : (ownLink asciiIntl compareCodeUnits ⟨2, 10⟩ 1700000060 ⟨"10", by decide⟩
      items).map (·.up) = some none := by decide +kernel
  refine ⟨⟨_, List.mem_cons_self, by decide⟩, sites, link, fun truth => ?_⟩
  have agree := (truth items (List.Perm.refl _)).2.2
  rw [sites, link] at agree
  cases agree

end ZabbixPortal.Services
