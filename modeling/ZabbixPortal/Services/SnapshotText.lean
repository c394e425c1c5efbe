import Mathlib
import ZabbixPortal.Services.PromptLines

/-! The snapshot of the estate as plain text: eight blocks, each within its own budget. -/

set_option autoImplicit false

namespace ZabbixPortal.Services

open Foundation Domain

def NO_DATA : String := "No data"

/-- `toFixed`: half up, the sign kept apart. -/
def toFixed (value : ℚ) (digits : Nat) : List Char :=
  let scaled := (|value| * 10 ^ digits + 1 / 2).floor.toNat
  let text := (toString (scaled / 10 ^ digits)).toList
  let decimals := (toString (scaled % 10 ^ digits)).toList
  (if value < 0 then ['-'] else []) ++ text ++
    if digits = 0 then [] else '.' :: (List.replicate (digits - decimals.length) '0' ++ decimals)

/-- `replace(/(\.\d{2}\d*?)0+$/, '$1')` -/
def dropZeros (text : List Char) : List Char :=
  let whole := text.takeWhile (· ≠ '.')
  let decimals := (text.dropWhile (· ≠ '.')).tail
  if decimals.length < 2 then text
  else whole ++ '.' :: (decimals.take 2 ++ ((decimals.drop 2).reverse.dropWhile (· = '0')).reverse)

/-- A percentage with as many decimals as keep it on its side of the target. -/
def percentText (value target : Option ℚ) : String :=
  match value with
  | none => NO_DATA
  | some value =>
      let atLeast (reached : Option ℚ) : Bool :=
        match reached, target with
        | some reached, some target => target ≤ reached
        | _, _ => false
      let met := atLeast (some value)
      match [2, 4, 6, 8].find? fun d =>
          atLeast (toNumber (.ofList (toFixed value d))) == met with
      | some digits => .ofList (dropZeros (toFixed value digits)) ++ "%"
      | none =>
          let cut := (|value| * 10 ^ 8).floor
          .ofList (toFixed ((if value < 0 then -cut else cut) / 10 ^ 8) 8) ++ "%"

def SNAPSHOT_CHAR_CAP : ℤ := 5500

namespace BUDGET

def estate : ℤ := 350
def whole : ℤ := 650
def sites : ℤ := 900
def recent : ℤ := 550
def unreachable : ℤ := 850
def sla : ℤ := 700
def services : ℤ := 400
def problems : ℤ := 1850

end BUDGET

def RECENT_CAP : Nat := 8

def PROBLEM_CAP : Nat := 20

def HOSTS_PER_SITE_LINE : Nat := 4

def DEFAULT_ZONE : String := "Asia/Jakarta"

/-- `Math.round(seconds / 60)`, for the seconds of an error budget. -/
def minutes (seconds : ℚ) : String := toString (seconds / 60 + 1 / 2).floor ++ " min"

structure ZbxSla where
  slaid : String
  name : String
  slo : String
  status : String
deriving DecidableEq, Repr

structure SlaSli where
  name : String
  sli : Option ℚ
  errorBudget : ℚ
deriving DecidableEq, Repr

/-- A service with what it depends on; `-1` is a status of OK. -/
inductive ServiceNode where
  | mk (serviceid name : String) (status : ℤ) (problems : List String) (children : List ServiceNode)

namespace ServiceNode

def serviceid : ServiceNode → String | mk id _ _ _ _ => id
def name : ServiceNode → String | mk _ name _ _ _ => name
def status : ServiceNode → ℤ | mk _ _ status _ _ => status
def problems : ServiceNode → List String | mk _ _ _ problems _ => problems

end ServiceNode

mutual

/-- Every service once: a shared one sits under two parents. -/
def flattenNode (seen : OrderedMap String ServiceNode) : ServiceNode → OrderedMap String ServiceNode
  | .mk id name status problems children =>
      if seen.contains id then seen
      else flattenNodes (seen.set id (.mk id name status problems children)) children

def flattenNodes (seen : OrderedMap String ServiceNode) :
    List ServiceNode → OrderedMap String ServiceNode
  | [] => seen
  | node :: rest => flattenNodes (flattenNode seen node) rest

end

/-- What a snapshot is built from. A read of the SLAs or the services may have failed, and a
derived summary may have failed or missed its deadline. No array holds `2 ^ 32` items. -/
structure SnapshotEstate where
  now : ℤ
  timezone : String
  problems : List PromptProblem
  sites : List PromptSite
  /-- Every SLA with what `getSli` answers for it, nothing when it fails. -/
  slas : Option (List (ZbxSla × List SlaSli))
  services : Option (List ServiceNode)
  derivedSla : Option (List String)
  derivedServices : Option (List String)
  problems_fit : problems.length < 2 ^ 32
  sites_fit : sites.length < 2 ^ 32
  hosts_fit : (sites.flatMap (·.hosts)).length < 2 ^ 32

section Lines

variable (intl : PromptIntl)

def snapshotZone (timezone : String) : String :=
  if intl.knowsZone timezone then timezone else DEFAULT_ZONE

def snapshotDay (timezone : String) (clock : ℤ) : String :=
  intl.date (snapshotZone intl timezone) clock

/-- "Wed, 7 Oct 2026, 15:00 WIB (Asia/Jakarta)" -/
def snapshotClock (timezone : String) (at' : ℤ) : String :=
  let zone := snapshotZone intl timezone
  let clock := intl.dateTime zone at'
  match intl.zoneName zone at' with
  | none => clock ++ " (" ++ zone ++ ")"
  | some short =>
      if short ≠ "" ∧ short ≠ zone then clock ++ " " ++ short ++ " (" ++ zone ++ ")"
      else clock ++ " (" ++ zone ++ ")"

def siteLine (s : PromptSite) : String :=
  let c := stateCounts s.hosts
  let high := s.bySeverity 5 + s.bySeverity 4
  let bits := [toString s.total ++ " host" ++ if s.total = 1 then "" else "s"] ++
    (if c .down ≠ 0 then [toString (c .down) ++ " unreachable"] else []) ++
    (if c .degraded ≠ 0 then [toString (c .degraded) ++ " SNMP silent (no ping alarm)"] else []) ++
    (if c .nodata ≠ 0 then [toString (c .nodata) ++ " no data"] else []) ++
    [toString s.problems ++ " problems"] ++
    (if high ≠ 0 then [toString high ++ " High/Disaster"] else []) ++
    ["worst " ++ if s.worst ≥ 0 then sevName s.worst else "none"]
  "- " ++ promptText intl (some s.name) (some HOST_NAME_MAX) ++ ": " ++ ", ".intercalate bits

def slaLines (sla : ZbxSla) (rows : List SlaSli) : List String :=
  let target := toNumber sla.slo
  let slaName := promptText intl (some sla.name) (some PROBLEM_NAME_MAX)
  if rows = [] then ["- " ++ slaName ++ " (target " ++ sla.slo ++ "%): no services attached"]
  else rows.map fun r =>
    let met : Bool :=
      match r.sli, target with
      | some sli, some target => target ≤ sli
      | _, _ => false
    "- " ++ slaName ++ " (target " ++ sla.slo ++ "%): " ++
      promptText intl (some r.name) (some PROBLEM_NAME_MAX) ++ " " ++ percentText r.sli target ++
      ", " ++ (if met then "on target" else "MISSED") ++ ", error budget " ++
      (if r.errorBudget < 0 then "exceeded by " else "left ") ++ minutes |r.errorBudget|

def serviceLine (n : ServiceNode) : String :=
  let causes := "; ".intercalate
    ((n.problems.map fun name => promptText intl (some name) (some PROBLEM_NAME_MAX)).take 3)
  "- " ++ promptText intl (some n.name) (some PROBLEM_NAME_MAX) ++ ": " ++ sevName n.status ++
    if causes ≠ "" then ", caused by: " ++ causes else ""

end Lines

namespace SnapshotEstate

variable (intl : PromptIntl) (estate : SnapshotEstate)

def openOnes : List PromptProblem :=
  estate.problems.filter fun p => p.toZbxProblem.isOpen && !p.suppressed

def hosts : List PromptHost := estate.sites.flatMap (·.hosts)

def estateBlock : Block :=
  let problems := estate.openOnes
  let all := stateCounts estate.hosts
  let unacknowledged := (problems.filter fun p => !p.acknowledged).length
  let lines := [
    "ESTATE: " ++ toString (estate.sites.map (·.total)).sum ++ " hosts at " ++
      toString estate.sites.length ++ " sites; " ++ toString (all .up) ++ " reachable, " ++
      toString (all .down) ++ " unreachable" ++
      (if all .degraded ≠ 0 then
        ", " ++ toString (all .degraded) ++ " SNMP silent without a ping alarm" else "") ++
      ", " ++ toString (all .nodata) ++ " with no availability data" ++
      (if all .disabled ≠ 0 then ", " ++ toString (all .disabled) ++ " disabled" else "") ++ ".",
    "Open problems: " ++ toString problems.length ++ " (" ++
      severityList (severityCounts problems) false ++ "); " ++ toString unacknowledged ++
      " not acknowledged."]
  sectionOf ("SNAPSHOT taken " ++ snapshotClock intl estate.timezone estate.now) lines
    BUDGET.estate andMore lines.length

def wholeBlock : Block :=
  let lines := wholeListLines intl estate.openOnes estate.hosts (snapshotDay intl estate.timezone)
  sectionOf ("ALL " ++ toString estate.openOnes.length ++ " OPEN PROBLEMS, COUNTED:") lines
    BUDGET.whole andMore lines.length

def realServices : Bool :=
  match estate.services with
  | none => false
  | some tree => (flattenNodes .empty tree).size > 0

/-- The SLAs in use: `none` when they could not be read. -/
def enabledSlas : Option (List (ZbxSla × List SlaSli)) :=
  estate.slas.map fun slas => slas.filter fun sla => sla.1.status ≠ "0"

def degradedServices : List ServiceNode :=
  ((flattenNodes .empty (estate.services.getD [])).values).filter fun n => n.status ≥ 0

def note : String :=
  if estate.services.isSome then
    "Zabbix has no services configured, so figures below are derived by the portal."
  else "Zabbix service data unavailable right now; figures below are derived by the portal."

def slaOut : List String :=
  if estate.realServices then
    match estate.enabledSlas with
    | none => ["- Zabbix SLA data unavailable right now"]
    | some enabled =>
        (if enabled = [] then ["- no SLAs defined in Zabbix"] else []) ++
          enabled.flatMap fun (sla, rows) => slaLines intl sla rows
  else
    match estate.derivedSla.map (·.map fun line => promptText intl (some line) none) with
    | some (line :: rest) => line :: rest
    | _ => ["- " ++ estate.note, "- derived SLA not available yet (still computing)"]

def svcOut : List String :=
  if estate.realServices then
    if estate.degradedServices = [] then ["- none, all services OK"]
    else estate.degradedServices.map (serviceLine intl)
  else
    match estate.derivedServices.map (·.map fun line => promptText intl (some line) none) with
    | none => ["- derived services not available yet (still computing)"]
    | some [] => ["- none, all services OK"]
    | some lines => lines

def complete : Bool :=
  estate.realServices ||
    (estate.derivedSla.any (· ≠ []) && estate.derivedServices.isSome)

def slaBlock : Block :=
  sectionOf "SLA:" (estate.slaOut intl) BUDGET.sla andMore (estate.slaOut intl).length

def servicesBlock : Block :=
  sectionOf "DEGRADED SERVICES:" (estate.svcOut intl) BUDGET.services andMore
    (estate.svcOut intl).length

def slack : ℤ :=
  BUDGET.sla - textLength (estate.slaBlock intl).text +
    (BUDGET.services - textLength (estate.servicesBlock intl).text)

def siteExtra : ℤ := min (estate.slack intl) 500

def unreachableExtra : ℤ := min (estate.slack intl - estate.siteExtra intl) 400

/-- The three sites with the most of something. -/
def top (count : PromptSite → Nat) : String :=
  let ranked := sortBy (fun a b => compare (count b) (count a))
    (estate.sites.filter fun s => count s > 0)
  ", ".intercalate <| (ranked.take 3).map fun s =>
    promptText intl (some s.name) (some HOST_NAME_MAX) ++ " " ++ toString (count s)

def sitesBlock : Block :=
  let byProblems := estate.top intl (·.problems)
  let byDown := estate.top intl fun s => stateCounts s.hosts .down
  let lines := (if byProblems ≠ "" then ["- Most open problems: " ++ byProblems] else []) ++
    (if byDown ≠ "" then ["- Most unreachable hosts: " ++ byDown] else []) ++
    if estate.sites = [] then ["- none"] else estate.sites.map (siteLine intl)
  sectionOf ("SITES (" ++ toString estate.sites.length ++
      ", worst first: highest open severity, then most hosts down):") lines
    (BUDGET.sites + estate.siteExtra intl)
    (fun left _ => "- …and " ++ toString left ++ " more sites") lines.length

/-- New in the last 24 h, newest first. -/
def recent : List PromptProblem :=
  sortBy (fun a b : PromptProblem => compare b.clock a.clock)
    (estate.openOnes.filter fun p => estate.now - p.clock ≤ 86400)

def recentBlock : Block :=
  let recent := estate.recent
  sectionOf ("NEW IN LAST 24 H: " ++ toString recent.length ++ " problems opened" ++
      if recent ≠ [] then
        " (" ++ severityList (severityCounts recent) true ++ "), newest first:" else ".")
    ((recent.take RECENT_CAP).map fun p => problemLine intl p estate.now) BUDGET.recent
    (fun left _ => "- …and " ++ toString left ++ " older ones from the last 24 h") recent.length

def unreachableLabel (h : PromptHost) : String :=
  let hostName := promptText intl (some h.name) (some HOST_NAME_MAX)
  match stateSince h (availabilitySince estate.openOnes) with
  | none => hostName
  | some clock => hostName ++ " (" ++ downFor clock estate.now ++ ")"

/-- The unreachable hosts by the site their name says, then those that are only silent. -/
def unreachableLines : List String :=
  let placed := estate.sites.flatMap fun s => s.hosts.map fun h => (s, h)
  let down := placed.filter fun (_, h) => h.state = .down
  let silent := (placed.filter fun (_, h) => h.state = .degraded).map fun (_, h) =>
    estate.unreachableLabel intl h
  let siteOf (placed : PromptSite × PromptHost) : String :=
    let site := (siteFromHostName intl.toIntl placed.2.name).map (·.name)
    promptText intl (some (site.getD placed.1.name)) (some HOST_NAME_MAX)
  let bySite := (groupBy siteOf down).entries.map fun (name, part) =>
    (name, part.map fun (_, h) => estate.unreachableLabel intl h)
  let ranked := sortBy (fun a b =>
    (compare b.2.length a.2.length).then (intl.naturalCompare a.1 b.1)) bySite
  (ranked.map fun (name, list) =>
    let sorted := sortBy intl.naturalCompare list
    "- " ++ name ++ " (" ++ toString sorted.length ++ "): " ++
      ", ".intercalate (sorted.take HOSTS_PER_SITE_LINE) ++
      if sorted.length > HOSTS_PER_SITE_LINE then
        " +" ++ toString (sorted.length - HOSTS_PER_SITE_LINE) ++ " more" else "") ++
  if silent = [] then []
  else ["- Not down, SNMP silent, no ping alarm (" ++ toString silent.length ++ "): " ++
    ", ".intercalate (sortBy intl.naturalCompare silent)]

def unreachableBlock : Block :=
  let lines := estate.unreachableLines intl
  let shown := if lines = [] then ["- none"] else lines
  sectionOf ("UNREACHABLE HOSTS (" ++ toString (stateCounts estate.hosts .down) ++
      ", by site; how long down in brackets):") shown
    (BUDGET.unreachable + estate.unreachableExtra intl)
    (fun left _ => "- …and " ++ toString left ++ " more sites with unreachable hosts") shown.length

/-- What the blocks before the problems take, with the blank lines after them. -/
def used : ℤ :=
  ([estate.estateBlock intl, estate.wholeBlock intl, estate.slaBlock intl,
    estate.servicesBlock intl, estate.sitesBlock intl, estate.recentBlock intl,
    estate.unreachableBlock intl].map fun block => (textLength block.text : ℤ) + 2).sum

def problemBudget : ℤ := min BUDGET.problems (SNAPSHOT_CHAR_CAP - estate.used intl)

def ordered : List PromptProblem := sortBy worstFirst estate.openOnes

def listed : List String :=
  (estate.ordered.take PROBLEM_CAP).map fun p => problemLine intl p estate.now

/-- The title says how many are listed, or a model takes the list for all of them. -/
def problemsTitle (shown : Nat) : String :=
  if estate.ordered.length ≤ shown then
    "OPEN PROBLEMS (" ++ toString estate.ordered.length ++ ", worst first):"
  else if shown ≠ 0 then
    "OPEN PROBLEMS (" ++ toString estate.ordered.length ++ ", worst first; only the worst " ++
      toString shown ++ " are listed):"
  else "OPEN PROBLEMS (" ++ toString estate.ordered.length ++ "; none listed, no room left):"

def problemSection (lines : List String) (shown : Nat) : Block :=
  sectionOf (estate.problemsTitle shown) (if estate.ordered = [] then ["- none"] else lines)
    (estate.problemBudget intl)
    (fun left shown => "- …and " ++ toString left ++ " more not listed (of those: " ++
      severityList (severityCounts (estate.ordered.drop shown)) true ++ ")")
    (max estate.ordered.length 1)

/-- `match(/^- \[/gm)`: the lines that list a problem. -/
def listedLines (text : String) : Nat :=
  ((text.toList.splitOnP fun c => !isDot c).filter fun line =>
    "- [".toList.isPrefixOf line).length

def fitted : Nat :=
  listedLines (estate.problemSection intl (estate.listed intl) (estate.listed intl).length).text

def problemsBlock : Block :=
  estate.problemSection intl ((estate.listed intl).take (estate.fitted intl)) (estate.fitted intl)

def blocks : List Block :=
  [estate.estateBlock intl, estate.wholeBlock intl, estate.sitesBlock intl,
    estate.recentBlock intl, estate.unreachableBlock intl, estate.slaBlock intl,
    estate.servicesBlock intl, estate.problemsBlock intl]

end SnapshotEstate

structure SnapshotMeta where
  generatedAt : ℤ
  hosts : Nat
  sites : Nat
  problems : Nat
  unacknowledged : Nat
  slas : Nat
  degradedServices : Nat
  truncated : Bool
deriving DecidableEq, Repr

structure BuiltSnapshot where
  text : String
  sizes : List Nat
  info : SnapshotMeta
  complete : Bool
deriving DecidableEq, Repr

def buildSnapshot (intl : PromptIntl) (estate : SnapshotEstate) : BuiltSnapshot :=
  let blocks := estate.blocks intl
  let text := "\n\n".intercalate (blocks.map (·.text))
  { text
    sizes := blocks.map (fun block => textLength block.text) ++ [textLength text]
    info := {
      generatedAt := estate.now * 1000
      hosts := (estate.sites.map (·.total)).sum
      sites := estate.sites.length
      problems := estate.openOnes.length
      unacknowledged := (estate.openOnes.filter fun p => !p.acknowledged).length
      slas := (estate.enabledSlas.getD []).length
      degradedServices := if estate.realServices then estate.degradedServices.length else 0
      truncated := blocks.any (·.truncated) }
    complete := estate.complete }

end ZabbixPortal.Services
