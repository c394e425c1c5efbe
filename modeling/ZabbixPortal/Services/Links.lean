import ZabbixPortal.Domain.Naming
import ZabbixPortal.Domain.Reachability
import Mathlib.Algebra.Order.Floor.Ring
import Mathlib.Data.Rat.Floor

/-! Link and WAN health: one link is one pair of a host and a ping target, stitched
together from its ICMP items, and links of one group are one redundant path. -/

set_option autoImplicit false

namespace ZabbixPortal.Services

open Foundation Domain

inductive LinkState where
  | up
  | degraded
  | down
  | unknown
deriving DecidableEq, Repr

structure LinkHost where
  hostid : ZabbixId
  name : String
deriving DecidableEq

structure ItemTag where
  tag : String
  value : String
deriving DecidableEq

structure ZItem where
  name : String
  key_ : String
  lastvalue : Option String
  lastclock : Option String
  state : Option String
  delay : Option String
  hosts : List LinkHost
  tags : List ItemTag
deriving DecidableEq

structure Link where
  id : String
  hostid : ZabbixId
  host : String
  /-- The far end, empty for the host itself. -/
  target : String
  label : String
  up : Option Bool
  loss : Option ℚ
  latency : Option ℚ
  jitter : Option ℚ
  state : LinkState
  group : Option String
  role : Option String
  lastclock : Option String
deriving DecidableEq

structure LinkPath where
  name : String
  links : List Link
  state : LinkState
deriving DecidableEq

structure LinkThresholds where
  lossWarn : ℚ
  lossCrit : ℚ
deriving DecidableEq

structure LinksResponse where
  links : List Link
  paths : List LinkPath
  summary : LinkState → Nat
  thresholds : LinkThresholds

structure ItemKey where
  name : String
  params : List String
deriving DecidableEq

/-- `s.trim().replace(/^"(.*)"$/, '$1')` -/
def unquoted (param : List Char) : String :=
  let text := trim param
  let inner := text.tail.dropLast
  if text.length ≥ 2 ∧ text.head? = some '"' ∧ text.getLast? = some '"' ∧ inner.all isDot then
    String.ofList inner
  else String.ofList text

/-- `icmppingsec[10.0.0.1,3,,,,max]` as its name and parameters. Without a closing
bracket the last character is lost, as `slice` to minus one loses it. -/
def parseKey (key : String) : ItemKey :=
  let text := key.toList
  if !text.contains '[' then ⟨key, []⟩
  else
    let opened := text.idxOf '['
    let stop := if text.contains ']' then text.length - 1 - text.reverse.idxOf ']'
      else text.length - 1
    { name := String.ofList (text.take opened)
      params := (((text.take stop).drop (opened + 1)).splitOn ',').map unquoted }

def ItemKey.target (key : ItemKey) : String := key.params.head?.getD ""

def num (value : Option String) : Option ℚ :=
  value.bind fun text => if text = "" then none else toNumber text

def toMs (seconds : Option ℚ) : Option ℚ :=
  seconds.map fun seconds => (⌊seconds * 1000 * 100 + 1 / 2⌋ : ℚ) / 100

def classify (thresholds : LinkThresholds) (up : Option Bool) (loss : Option ℚ) : LinkState :=
  if up = some false then .down
  else
    match loss with
    | some loss =>
        if loss ≥ thresholds.lossCrit then .down
        else if loss ≥ thresholds.lossWarn then .degraded
        else .up
    | none => if up = none then .unknown else .up

def RANK : LinkState → Nat
  | .down => 3
  | .degraded => 2
  | .unknown => 1
  | .up => 0

structure LinkMetrics where
  up : Option Bool
  loss : Option ℚ
  latency : Option ℚ
  rttMin : Option ℚ
  rttMax : Option ℚ
  label : String
  lastclock : Option String
  tags : OrderedMap String String

def LinkMetrics.start : LinkMetrics := ⟨none, none, none, none, none, "", none, .empty⟩

def ZItem.fresh (item : ZItem) (now : ℤ) : Bool :=
  isFresh item.lastclock item.state item.delay now

def ZItem.value (item : ZItem) (now : ℤ) : Option ℚ :=
  if item.fresh now then num item.lastvalue else none

def ZItem.pingAnswer (item : ZItem) (now : ℤ) : Option Bool :=
  (item.value now).map fun value => value = 1

/-- One item stitched in. Without fresh data the metric is unknown, and the last item
of a kind gives it. -/
def LinkMetrics.stitch (now : ℤ) (metrics : LinkMetrics) (item : ZItem) : LinkMetrics :=
  let key := parseKey item.key_
  let fresh := item.fresh now
  let v := item.value now
  let later := match metrics.lastclock with
    | none => true
    | some clock => clock = "" ||
        (toNumber (item.lastclock.getD "")).getD 0 > (toNumber clock).getD 0
  let metrics := { metrics with
    tags := item.tags.foldl (fun tags t => tags.set t.tag t.value) metrics.tags
    lastclock := if fresh && later then item.lastclock else metrics.lastclock }
  if key.name = "icmpping" then
    { metrics with
      up := item.pingAnswer now
      label := if metrics.label = "" then item.name else metrics.label }
  else if key.name = "icmppingloss" then
    { metrics with loss := v, label := if item.name = "" then metrics.label else item.name }
  else if key.name = "icmppingsec" then
    let mode := key.params[5]?.getD ""
    if mode = "min" then { metrics with rttMin := v }
    else if mode = "max" then { metrics with rttMax := v }
    else { metrics with latency := v }
  else metrics

structure LinkRow where
  host : LinkHost
  target : String
  item : ZItem

/-- Items without a host, and keys that are no `icmpping…`, are left out. -/
def linkRow (item : ZItem) : Option LinkRow :=
  item.hosts.head?.bind fun host =>
    let key := parseKey item.key_
    if startsWith key.name "icmpping" then some ⟨host, key.target, item⟩ else none

def linkId (hostid : ZabbixId) (target : String) : String := hostid.text ++ ":" ++ target

def LinkRow.id (row : LinkRow) : String := linkId row.host.hostid row.target

def groupRows (items : List ZItem) : OrderedMap String (List LinkRow) :=
  groupBy LinkRow.id (items.filterMap linkRow)

/-- The empty text counts as absent, as `||` reads it. -/
def nonEmpty (text : Option String) : Option String := text.filter fun text => text ≠ ""

def wanRole (wan : WanPair) : String :=
  let provider := (nonEmpty wan.provider).map fun provider => s!" ({provider})"
  s!"WAN {wan.leg}" ++ provider.getD ""

def linkOf (intl : Intl) (thresholds : LinkThresholds) (now : ℤ) (id : String)
    (first : LinkRow) (rows : List LinkRow) : Link :=
  let metrics := (rows.map (·.item)).foldl (LinkMetrics.stitch now) .start
  let host := first.host
  let wan := wanPairKey intl host.name
  { id
    hostid := host.hostid
    host := host.name
    target := first.target
    label :=
      if metrics.label ≠ "" then metrics.label
      else if first.target ≠ "" then s!"{host.name} → {first.target}"
      else host.name
    up := metrics.up
    loss := metrics.loss
    latency := toMs metrics.latency
    jitter := toMs (metrics.rttMin.bind fun least => metrics.rttMax.map fun most => most - least)
    state := classify thresholds metrics.up metrics.loss
    group := (nonEmpty (metrics.tags.get? "link_group")).or (nonEmpty (wan.map (·.path)))
    role := (nonEmpty (metrics.tags.get? "link_role")).or (wan.map wanRole)
    lastclock := metrics.lastclock }

/-- Worst first, then noisiest by loss, then by label. -/
def compareLinks (localeCompare : String → String → Ordering) (a b : Link) : Ordering :=
  (compare (RANK b.state) (RANK a.state)).then
    ((compareNumbers (b.loss.getD 0) (a.loss.getD 0)).then (localeCompare a.label b.label))

/-- A main and redundant pair is only really down when both legs are. -/
def pathState (members : List Link) : LinkState :=
  if members.any fun member => member.state = .up then
    if members.all fun member => member.state = .up then .up else .degraded
  else if members.any fun member => member.state = .degraded then .degraded
  else if members.all fun member => member.state = .unknown then .unknown
  else .down

def linkPaths (localeCompare : String → String → Ordering) (links : List Link) : List LinkPath :=
  let members := links.filterMap fun link => link.group.map fun group => (group, link)
  sortBy (fun a b => (compare (RANK b.state) (RANK a.state)).then (localeCompare a.name b.name))
    ((groupBy Prod.fst members).entries.map fun (name, members) =>
      { name, links := members.map Prod.snd, state := pathState (members.map Prod.snd) })

def linksOf (intl : Intl) (localeCompare : String → String → Ordering)
    (thresholds : LinkThresholds) (items : List ZItem) (now : ℤ) : List Link :=
  sortBy (compareLinks localeCompare)
    ((groupRows items).entries.filterMap fun (id, rows) =>
      rows.head?.map fun first => linkOf intl thresholds now id first rows)

def getLinks (intl : Intl) (localeCompare : String → String → Ordering)
    (thresholds : LinkThresholds) (items : List ZItem) (now : ℤ) : LinksResponse :=
  let links := linksOf intl localeCompare thresholds items now
  { links
    paths := linkPaths localeCompare links
    summary := fun state => (links.filter fun link => link.state = state).length
    thresholds }

/-! What a link says: its up state is that of the last `icmpping` item under its host
and target, and there is one link for each such pair. -/

theorem linkId_injective {hostid other : ZabbixId} {target far : String}
    (same : linkId hostid target = linkId other far) : hostid = other ∧ target = far := by
  have texts : hostid.text.toList ++ ':' :: target.toList =
      other.text.toList ++ ':' :: far.toList := by
    have lists := congrArg String.toList same
    simpa [linkId] using lists
  have noColon : ∀ id : ZabbixId, ':' ∉ id.text.toList := by
    intro id member
    exact absurd (List.all_eq_true.mp id.digits ':' member) (by decide)
  have before : hostid.text.toList = other.text.toList := by
    have taken := congrArg (List.takeWhile (· ≠ ':')) texts
    have plain : ∀ (id : ZabbixId) (rest : List Char),
        (id.text.toList ++ ':' :: rest).takeWhile (· ≠ ':') = id.text.toList := by
      intro id rest
      rw [List.takeWhile_append_of_pos]
      · simp
      · intro c member
        have different : c ≠ ':' := fun equal => noColon id (equal ▸ member)
        simpa using different
    rw [plain, plain] at taken
    exact taken
  rw [before] at texts
  have after : target.toList = far.toList := by simpa using texts
  refine ⟨?_, String.toList_inj.mp after⟩
  cases hostid
  cases other
  cases String.toList_inj.mp before
  rfl

theorem LinkMetrics.stitch_up (now : ℤ) (metrics : LinkMetrics) (item : ZItem) :
    (metrics.stitch now item).up =
      if (parseKey item.key_).name = "icmpping" then item.pingAnswer now else metrics.up := by
  unfold LinkMetrics.stitch
  dsimp only
  by_cases ping : (parseKey item.key_).name = "icmpping"
  · rw [if_pos ping, if_pos ping]
  · rw [if_neg ping, if_neg ping]
    split
    · rfl
    split
    · split
      · rfl
      split <;> rfl
    · rfl

/-- The last `icmpping` item decides, fresh or not. -/
theorem up_foldl_stitch (now : ℤ) (items : List ZItem) (metrics : LinkMetrics) :
    (items.foldl (LinkMetrics.stitch now) metrics).up =
      match (items.filter fun item => (parseKey item.key_).name = "icmpping").getLast? with
      | none => metrics.up
      | some item => item.pingAnswer now := by
  induction items generalizing metrics with
  | nil => rfl
  | cons item rest ih =>
      rw [List.foldl_cons, ih, LinkMetrics.stitch_up]
      by_cases ping : (parseKey item.key_).name = "icmpping"
      · rw [List.filter_cons_of_pos (by simpa using ping), List.getLast?_cons]
        cases (rest.filter fun item => (parseKey item.key_).name = "icmpping").getLast? with
        | none => simp [ping]
        | some last => rfl
      · rw [List.filter_cons_of_neg (by simpa using ping)]
        simp [ping]

section OneLink

variable (intl : Intl) (localeCompare : String → String → Ordering)
  (thresholds : LinkThresholds) (items : List ZItem) (now : ℤ)

def rowsOf (hostid : ZabbixId) (target : String) : List LinkRow :=
  (items.filterMap linkRow).filter fun row => row.host.hostid = hostid ∧ row.target = target

theorem linksOf_head {link : Link} (listed : link ∈ linksOf intl localeCompare thresholds items now) :
    ∃ first, (rowsOf items link.hostid link.target).head? = some first ∧
      link = linkOf intl thresholds now (linkId link.hostid link.target) first
        (rowsOf items link.hostid link.target) := by
  rw [linksOf, mem_sortBy] at listed
  obtain ⟨⟨id, rows⟩, entry, made⟩ := List.mem_filterMap.mp listed
  obtain ⟨first, atHead, rfl⟩ := Option.map_eq_some_iff.mp made
  have content := groupBy_bucket entry
  have member : first ∈ rows := List.mem_of_mem_head? atHead
  have own : first.id = id := by
    rw [content] at member
    simpa using (List.mem_filter.mp member).2
  have bucket : rows = rowsOf items first.host.hostid first.target := by
    rw [content, rowsOf]
    refine List.filter_congr fun row _ => ?_
    rw [← own]
    simp only [decide_eq_decide]
    constructor
    · intro same
      exact linkId_injective same
    · rintro ⟨sameHost, sameTarget⟩
      rw [LinkRow.id, sameHost, sameTarget]
      rfl
  refine ⟨first, bucket ▸ atHead, ?_⟩
  change linkOf intl thresholds now id first rows =
    linkOf intl thresholds now first.id first (rowsOf items first.host.hostid first.target)
  rw [own, ← bucket]

theorem mem_linksOf {link : Link} (listed : link ∈ linksOf intl localeCompare thresholds items now) :
    ∃ first ∈ rowsOf items link.hostid link.target,
      link = linkOf intl thresholds now (linkId link.hostid link.target) first
        (rowsOf items link.hostid link.target) := by
  obtain ⟨first, atHead, made⟩ := linksOf_head intl localeCompare thresholds items now listed
  exact ⟨first, List.mem_of_mem_head? atHead, made⟩

/-- A host and target with an item have a link. -/
theorem exists_link {row : LinkRow} (listed : row ∈ items.filterMap linkRow) :
    ∃ link ∈ linksOf intl localeCompare thresholds items now,
      link.hostid = row.host.hostid ∧ link.target = row.target := by
  have entry := groupBy_entry_of_mem LinkRow.id listed
  have filled := groupBy_bucket_ne_nil entry
  obtain ⟨first, rest, shape⟩ := List.exists_cons_of_ne_nil filled
  have own : first.id = row.id := by
    have member : first ∈ (items.filterMap linkRow).filter fun other => other.id = row.id :=
      shape ▸ List.mem_cons_self
    simpa using (List.mem_filter.mp member).2
  obtain ⟨sameHost, sameTarget⟩ := linkId_injective own
  refine ⟨linkOf intl thresholds now row.id first (first :: rest), ?_, sameHost, sameTarget⟩
  rw [linksOf, mem_sortBy]
  refine List.mem_filterMap.mpr ⟨(row.id, first :: rest), shape ▸ entry, rfl⟩

def linkTo (hostid : ZabbixId) (target : String) : Option Link :=
  (getLinks intl localeCompare thresholds items now).links.find? fun link =>
    link.hostid = hostid ∧ link.target = target

/-- What a link says is what the last `icmpping` item of its rows says. -/
theorem linkTo_up {hostid : ZabbixId} {target : String}
    (nonempty : rowsOf items hostid target ≠ []) :
    (linkTo intl localeCompare thresholds items now hostid target).map (·.up) =
      some ((((rowsOf items hostid target).map (·.item)).filter fun item =>
        (parseKey item.key_).name = "icmpping").getLast?.bind fun item => item.pingAnswer now) := by
  obtain ⟨row, member⟩ := List.exists_mem_of_ne_nil _ nonempty
  obtain ⟨listed, own⟩ := List.mem_filter.mp member
  obtain ⟨rfl, rfl⟩ : row.host.hostid = hostid ∧ row.target = target := by simpa using own
  obtain ⟨known, inLinks, sameHost, sameTarget⟩ :=
    exists_link intl localeCompare thresholds items now listed
  cases found : linkTo intl localeCompare thresholds items now row.host.hostid row.target with
  | none =>
      have missing := List.find?_eq_none.mp found known inLinks
      simp [sameHost, sameTarget] at missing
  | some link =>
      obtain ⟨linkHost, linkTarget⟩ :
          link.hostid = row.host.hostid ∧ link.target = row.target := by
        simpa using List.find?_some found
      obtain ⟨first, _, made⟩ := mem_linksOf intl localeCompare thresholds items now
        (List.mem_of_find?_eq_some found)
      have read := up_foldl_stitch now ((rowsOf items link.hostid link.target).map (·.item)) .start
      have same : link.up =
          (((rowsOf items link.hostid link.target).map (·.item)).foldl
            (LinkMetrics.stitch now) .start).up := congrArg Link.up made
      rw [Option.map_some, same, read, linkHost, linkTarget]
      cases (((rowsOf items row.host.hostid row.target).map (·.item)).filter fun item =>
        (parseKey item.key_).name = "icmpping").getLast? <;> rfl

end OneLink

end ZabbixPortal.Services
