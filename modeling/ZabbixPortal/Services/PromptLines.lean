import ZabbixPortal.Domain.Naming
import ZabbixPortal.Domain.Problems
import ZabbixPortal.Foundation.Grouping
import ZabbixPortal.Foundation.Number
import ZabbixPortal.Foundation.Sorting
import ZabbixPortal.Services.AssistantSnapshot

/-! Zabbix facts as plain prompt lines, and a block of lines that stops at its character
budget and says how much it left out. -/

set_option autoImplicit false

namespace ZabbixPortal.Services

open Foundation Domain

/-- The runtime's tables and formats a prompt is written with. What it writes of an instant
in a zone it knows is short. -/
structure PromptIntl extends Intl where
  /-- `\p{Cf}` -/
  isFormat : Char → Bool
  knowsZone : String → Bool
  dateTime : String → ℤ → String
  zoneName : String → ℤ → Option String
  date : String → ℤ → String
  zone_short : ∀ zone, knowsZone zone = true → textLength zone ≤ 64
  dateTime_short : ∀ zone at', textLength (dateTime zone at') ≤ 64
  zoneName_short : ∀ zone at' name, zoneName zone at' = some name → textLength name ≤ 64

def HOST_NAME_MAX : Nat := 80

def PROBLEM_NAME_MAX : Nat := 200

/-- Each run of at least so many such characters, replaced by one character. -/
def replaceRuns (matching : Char → Bool) (least : Nat) (by' : Char) (text : List Char) :
    List Char :=
  (text.splitBy fun a b => matching a && matching b).flatMap fun run =>
    if run.all matching && least ≤ run.length then [by'] else run

def isControl (c : Char) : Bool := c.toNat < 32 || (127 ≤ c.toNat && c.toNat < 160)

def trimEnd (text : List Char) : List Char := (text.reverse.dropWhile isSpace).reverse

/-- Zabbix text as one plain line, cut to `max` characters when there is one. -/
def promptText (intl : PromptIntl) (value : Option String) (max : Option Nat) : String :=
  let spaced := (value.getD "").toList.map fun c =>
    if isControl c || c.toNat == 0x2028 || c.toNat == 0x2029 then ' ' else c
  let visible := spaced.filter fun c => !intl.isFormat c
  let unfenced := replaceRuns (· == '~') 3 '~' visible
  let flat := trim (replaceRuns isSpace 1 ' ' unfenced)
  match max with
  | none => .ofList flat
  | some max =>
      if flat.length > max then .ofList (trimEnd (flat.take (max - 1)) ++ ['…']) else .ofList flat

def orText (text other : String) : String := if text = "" then other else text

def roundTo (unit seconds : ℤ) : ℤ := (2 * seconds + unit) / (2 * unit)

/-- A compact age: "45 min", "3h", "2d", "7d 23h". -/
def age (clock nowSeconds : ℤ) : String :=
  let s := max 0 (nowSeconds - clock)
  if s < 3600 - 30 then toString (roundTo 60 s) ++ " min"
  else
    let hours := max 1 (roundTo 3600 s)
    if hours < 24 then toString hours ++ "h"
    else
      let d := hours / 24
      let h := hours % 24
      if h ≠ 0 then toString d ++ "d " ++ toString h ++ "h" else toString d ++ "d"

def downFor (clock now : ℤ) : String :=
  if now - clock ≥ 172800 then toString (roundTo 86400 (now - clock)) ++ "d" else age clock now

def sevName (sev : ℤ) : String :=
  match sev with
  | 0 => "Not classified"
  | 1 => "Information"
  | 2 => "Warning"
  | 3 => "Average"
  | 4 => "High"
  | 5 => "Disaster"
  | sev => "severity " ++ toString sev

structure Block where
  text : String
  truncated : Bool
deriving DecidableEq, Repr

/-- The loop of `section`: whole lines while the next one, with the tail it would need,
fits. -/
def addLines (budget : ℤ) (more : ℤ → Nat → String) (total : Nat) :
    String → Nat → List String → String × Nat
  | text, shown, [] => (text, shown)
  | text, shown, line :: rest =>
      let left : ℤ := total - shown - 1
      let tail := if left > 0 then "\n" ++ more left (shown + 1) else ""
      if ((textLength text + 1 + textLength line + textLength tail : ℕ) : ℤ) > budget then
        (text, shown)
      else addLines budget more total (text ++ "\n" ++ line) (shown + 1) rest

def sectionOf (title : String) (lines : List String) (budget : ℤ) (more : ℤ → Nat → String)
    (total : Nat) : Block :=
  let (text, shown) := addLines budget more total title 0 lines
  let left : ℤ := total - shown
  if left > 0 then
    let tail := more left shown
    -- A tail that cannot fit even alone is dropped rather than overflowing.
    if ((textLength text + 1 + textLength tail : ℕ) : ℤ) ≤ budget then
      ⟨text ++ "\n" ++ tail, true⟩
    else ⟨text, true⟩
  else ⟨text, false⟩

/-- What `section` writes of the rest unless told otherwise. -/
def andMore (left : ℤ) (_shown : Nat) : String := "- …and " ++ toString left ++ " more"

structure PromptProblem extends ZbxProblem where
  host : Option String
  opdata : Option String
deriving DecidableEq, Repr

def severityCounts (problems : List PromptProblem) (severity : Nat) : Nat :=
  (problems.filter fun p => p.severity = severity).length

/-- "Disaster 0, High 10, Average 31, Warning 600", worst first. -/
def severityList (counts : Nat → Nat) (skipZero : Bool) : String :=
  ", ".intercalate <| ([5, 4, 3, 2, 1, 0].filter fun s => !skipZero || counts s ≠ 0).map fun s =>
    sevName (s : Nat) ++ " " ++ toString (counts s)

def hostLabel (intl : PromptIntl) (p : PromptProblem) : String :=
  orText (promptText intl p.host (some HOST_NAME_MAX)) "unknown host"

def problemLine (intl : PromptIntl) (p : PromptProblem) (now : ℤ) : String :=
  let opdata := p.opdata.getD ""
  let live :=
    if opdata ≠ "" ∧ textLength opdata ≤ 30 then promptText intl (some opdata) (some 30) else ""
  let shown := if live ≠ "" then " (" ++ live ++ ")" else ""
  let ack := if p.acknowledged then "acked" else "not acked"
  "- [" ++ sevName p.severity ++ "] " ++ hostLabel intl p ++ ": " ++
    promptText intl (some p.name) (some PROBLEM_NAME_MAX) ++ shown ++ "; open " ++
    age p.clock now ++ ", " ++ ack

def worstFirst (a b : PromptProblem) : Ordering :=
  (compare b.severity a.severity).then (compare b.clock a.clock)

/-! What takes a little work to know: hosts per state, since when a host has been down, and
counts over every open problem. -/

structure PromptHost extends SiteHost where
  name : String
deriving DecidableEq, Repr

structure PromptSite where
  name : String
  total : Nat
  problems : Nat
  bySeverity : Nat → Nat
  worst : ℤ
  hosts : List PromptHost

def mentions (words : List String) (name : String) : Bool :=
  let lower := name.toList.map Char.toLower
  words.any fun word => lower.tails.any word.toList.isPrefixOf

/-- Problem names that mean "this host cannot be reached". -/
def UNAVAILABLE_PROBLEM (name : String) : Bool :=
  mentions ["unavailable by icmp", "not available", "unreachable", "no snmp data"] name

def stateCounts (hosts : List PromptHost) (state : HostState) : Nat :=
  (hosts.filter fun h => h.state = state).length

structure Since where
  icmp : Option ℤ
  other : Option ℤ
deriving DecidableEq, Repr

/-- When each host's open availability problems began: the oldest ICMP one and the oldest
other one. -/
def availabilitySince (problems : List PromptProblem) : OrderedMap String Since :=
  let concerned := problems.filter fun p => p.hostid.getD "" ≠ "" && UNAVAILABLE_PROBLEM p.name
  foldBy (fun p : PromptProblem => p.hostid.getD "") ⟨none, none⟩
    (fun entry p =>
      if mentions ["icmp"] p.name then
        { entry with icmp := some (min (entry.icmp.getD p.clock) p.clock) }
      else { entry with other := some (min (entry.other.getD p.clock) p.clock) })
    concerned

def stateSince (h : PromptHost) (since : OrderedMap String Since) : Option ℤ :=
  let s := (since.get? h.hostid).getD ⟨none, none⟩
  match h.state with
  | .down => s.icmp <|> s.other
  | .degraded => s.other
  | _ => none

def OLDEST : List String := ["Oldest open", "2nd oldest open", "3rd oldest open"]

def problemKey (p : PromptProblem) : String := orText (p.hostid.getD "") (p.host.getD "")

/-- Counted over every open problem, which the list of the worst is not. -/
def wholeListLines (intl : PromptIntl) (problems : List PromptProblem) (hosts : List PromptHost)
    (day : ℤ → String) : List String :=
  let monitored := hosts.filter fun h => h.state ≠ .disabled
  let withProblems := problems.filterMap fun p => p.hostid.filter (· ≠ "")
  let free := monitored.filter fun h => h.hostid ∉ withProblems
  let counted := "- Hosts with no open problem: " ++ toString free.length ++ " of " ++
    toString monitored.length ++ " monitored"
  if problems = [] then [counted]
  else
    let perHost := (groupBy problemKey (problems.filter fun p => problemKey p ≠ "")).values.map
      fun part => (((part.head?.map (hostLabel intl)).getD ""), part.length)
    let busiest := (sortBy (fun a b =>
      (compare b.2 a.2).then (intl.naturalCompare a.1 b.1)) perHost).take 5
    let oldest := (sortBy (fun a b : PromptProblem => compare a.clock b.clock) problems).take
      OLDEST.length
    [counted,
      "- Hosts with the most open problems: " ++ ", ".intercalate
        (busiest.map fun (name, count) => name ++ " " ++ toString count)] ++
      (OLDEST.zip oldest).map fun (rank, p) =>
        "- " ++ rank ++ ": [" ++ sevName p.severity ++ "] " ++ hostLabel intl p ++ ": " ++
          promptText intl (some p.name) (some 100) ++ "; open since " ++ day p.clock

end ZabbixPortal.Services
