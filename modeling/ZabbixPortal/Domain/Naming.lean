import ZabbixPortal.Foundation.Pattern
import ZabbixPortal.Foundation.Text
import Mathlib.Data.List.Forall2

/-! What a host's name says about it. Devices are `<site>.<class>[.<seq>] NAME`,
services `<TYPE> : NAME`; the class comes from the prefix, then the monitoring
template, then words in the name. -/

set_option autoImplicit false

namespace ZabbixPortal.Domain

open Foundation

/-- What `.` matches: anything but a line terminator. -/
def isDot (c : Char) : Bool :=
  !(c == '\n' || c == '\r' || c.toNat == 0x2028 || c.toNat == 0x2029)

/-- The runtime's Unicode data: upper case per character and the collation
`Intl.Collator('en', numeric, base)` gives. Letters outside ASCII are left to it;
the laws are what every Unicode table keeps. -/
structure Intl where
  upper : Char → List Char
  toLowerCase : List Char → List Char
  naturalCompare : String → String → Ordering
  upper_ascii : ∀ c : Char, c.toNat < 128 → upper c = [c.toUpper]
  upper_space : ∀ c : Char, isSpace c = true → upper c = [c]

def Intl.toUpperCase (intl : Intl) (text : List Char) : List Char :=
  text.flatMap intl.upper

structure SiteRef where
  code : Nat
  name : String
deriving DecidableEq, Repr

structure Site extends SiteRef where
  aliases : List String
deriving DecidableEq, Repr

def SITES : List Site := [
  { code := 1, name := "Jakarta", aliases := ["JAKARTA", "JKT", "IDX"] },
  { code := 2, name := "Surabaya", aliases := ["SURABAYA", "SBY"] },
  { code := 3, name := "SSB / Sampang", aliases := ["SAMPANG", "SSB", "SAM"] },
  { code := 4, name := "FPSO KAS3 & BD-WHP", aliases := ["FPSO", "KAS3", "BDW"] },
  { code := 5, name := "Pasuruan / GMS", aliases := ["PASURUAN", "GMS", "PAS"] },
  { code := 6, name := "Sumenep", aliases := ["SUMENEP", "SUP", "STP"] },
  { code := 7, name := "Sapudi", aliases := ["SAPUDI"] },
  { code := 8, name := "MDA", aliases := ["MDA"] },
  { code := 9, name := "MBH", aliases := ["MBH"] },
  { code := 10, name := "FPU", aliases := ["FPU"] },
  { code := 11, name := "MOPU / MAC", aliases := ["MOPU", "MAC"] },
  { code := 12, name := "Porong", aliases := ["PORONG", "POR"] },
  { code := 13, name := "Tanjung Wangi", aliases := ["TJWB", "TANJUNG WANGI"] },
  { code := 14, name := "TWSB", aliases := ["TWSB"] }]

/-- A letter of a pattern written in upper case, compared as the `i` flag does. -/
def sameLetter (letter c : Char) : Bool := c.toUpper == letter

def exactLetter (letter c : Char) : Bool := c == letter

private def spaces : Pattern := .repeated isSpace 0 none true

private def char (c : Char) : Pattern := .one (exactLetter c)

/-- `^\s*<prefix>\s*:` with the letters compared by `same`. -/
def servicePrefix (same : Char → Char → Bool) (letters : String) : Pattern :=
  .seq spaces (.seq (.word same letters.toList) (.seq spaces (char ':')))

/-- `^\s*(\d{1,2})\.` -/
def codedName : Pattern :=
  .sequence [spaces, .group 1 (.repeated Char.isDigit 1 (some 2) true), char '.']

/-- `^\s*(INET|SERVER)\s*:\s*(.+)$`, ignoring case. -/
def serviceName : Pattern :=
  .sequence [spaces,
    .group 1 (.alt (.word sameLetter "INET".toList) (.word sameLetter "SERVER".toList)),
    spaces, char ':', spaces, .group 2 (.repeated isDot 1 none true), .stop]

/-- `\b<name>\b` -/
def aliasWord (name : String) : Pattern :=
  .sequence [.boundary, .word exactLetter name.toList, .boundary]

def digitsValue (digits : List Char) : Nat :=
  digits.foldl (fun value digit => 10 * value + (digit.toNat - '0'.toNat)) 0

def siteFromHostName (intl : Intl) (name : String) : Option SiteRef :=
  match codedName.exec name.toList with
  | some coded =>
      let code := digitsValue ((coded.group? 1).getD [])
      (SITES.find? fun site => site.code = code).map (·.toSiteRef)
  | none =>
      match serviceName.exec name.toList with
      | some service =>
          let words := intl.toUpperCase ((service.group? 2).getD [])
          (SITES.find? fun site => site.aliases.any fun name => (aliasWord name).test words).map
            (·.toSiteRef)
      | none => none

inductive DeviceClass where
  | firewall | switch | accessPoint | repeater | wanLink | web | server | other
deriving DecidableEq, Repr

/-- The class as the source spells it, which is also what it sorts by. -/
def DeviceClass.text : DeviceClass → String
  | .firewall => "firewall"
  | .switch => "switch"
  | .accessPoint => "access-point"
  | .repeater => "repeater"
  | .wanLink => "wan-link"
  | .web => "web"
  | .server => "server"
  | .other => "other"

def DEVICE_CLASS_LABELS : DeviceClass → String
  | .firewall => "Firewalls"
  | .switch => "Switches"
  | .accessPoint => "Access points"
  | .repeater => "Radio repeaters"
  | .wanLink => "WAN links"
  | .web => "Web services"
  | .server => "Servers"
  | .other => "Other"

private def text (letters : String) : Pattern := .word exactLetter letters.toList

private def digit : Pattern := .one Char.isDigit

private def whole (letters : String) : Pattern :=
  .sequence [.boundary, text letters, .boundary]

/-- `ARUBA|WICTR|\bWAC\b` -/
def accessPointWords : Pattern := .choice [text "ARUBA", text "WICTR", whole "WAC"]

/-- `FW\d|\bFW\b|\bFG|FGT|FGR|FORTI` -/
def firewallWords : Pattern :=
  .choice [.seq (text "FW") digit, whole "FW", .seq .boundary (text "FG"), text "FGT", text "FGR",
    text "FORTI"]

/-- `SWITCH|\bSW\b|_CS\d|_IE\d|-IE\d|ACS|CS2960|MOXA|BRIDGE` -/
def switchWords : Pattern :=
  .choice [text "SWITCH", whole "SW", .seq (text "_CS") digit, .seq (text "_IE") digit,
    .seq (text "-IE") digit, text "ACS", text "CS2960", text "MOXA", text "BRIDGE"]

/-- What kind of device a host is. The service prefixes are unambiguous and win;
then the monitoring template; then words in the name. -/
def deviceClass (intl : Intl) (name templateName : String) : DeviceClass :=
  let n := intl.toUpperCase name.toList
  let t := intl.toUpperCase templateName.toList
  if (servicePrefix exactLetter "INET").exec n ≠ none then .wanLink
  else if (servicePrefix exactLetter "WEB").exec n ≠ none then .web
  else if (servicePrefix exactLetter "SERVER").exec n ≠ none then .server
  else if (text "REPEATER").test n then .repeater
  else if (text "FORTIGATE").test t then .firewall
  else if (text "CISCO IOS").test t then .switch
  else if accessPointWords.test n then .accessPoint
  else if firewallWords.test n then .firewall
  else if switchWords.test n then .switch
  else if (text "GENERIC BY SNMP").test t then .accessPoint
  else .other

def CATEGORY_ORDER : List String :=
  ["Cisco IOS by SNMP", "ICMP Ping", "Generic by SNMP", "FortiGate by SNMP"]

def sameIgnoringCase (intl : Intl) (left right : List Char) : Bool :=
  intl.toLowerCase left = intl.toLowerCase right

def categoryLabel (intl : Intl) (templateName : Option String) : String :=
  match templateName with
  | none => "Other"
  | some templateName =>
      if templateName = "" then "Other"
      else
        let t := trim templateName.toList
        (CATEGORY_ORDER.find? fun c => sameIgnoringCase intl c.toList t).getD (String.ofList t)

structure WanPair where
  path : String
  leg : String
  provider : Option String
deriving DecidableEq, Repr

/-- `(.+?)\s+(?:WAN|INTERNET)\s*(\d+)\b\s*(?:\((.+)\))?\s*$`, ignoring case. -/
def wanPairTail : Pattern :=
  .sequence [spaces, .group 1 (.repeated isDot 1 none false), .repeated isSpace 1 none true,
    .alt (.word sameLetter "WAN".toList) (.word sameLetter "INTERNET".toList), spaces,
    .group 2 (.repeated Char.isDigit 1 none true), .boundary, spaces,
    .optional (.sequence [char '(', .group 3 (.repeated isDot 1 none true), char ')']),
    spaces, .stop]

/-- `INET : SAMPANG WAN 1` and `INET : SAMPANG WAN 2` are two legs of one path. The
path and the leg, or none for anything that is not a WAN leg. -/
def wanPairKey (intl : Intl) (name : String) : Option WanPair :=
  (Pattern.exec (.seq (servicePrefix sameLetter "INET") wanPairTail) name.toList).map fun found => {
    path := String.ofList (intl.toUpperCase (trim ((found.group? 1).getD [])))
    leg := String.ofList ((found.group? 2).getD [])
    provider := (found.group? 3).map fun provider => String.ofList (trim provider) }

/-! The naming rules agree where they read the same prefix: a WAN leg by
`wanPairKey` is a WAN link by `deviceClass`, whatever the letter case. -/

/-- The Unicode data cut down to ASCII letters, for names that use no others. -/
def asciiIntl : Intl where
  upper c := [c.toUpper]
  toLowerCase text := text.map Char.toLower
  naturalCompare left right := compare left.toList right.toList
  upper_ascii _ _ := rfl
  upper_space c space := by rw [toUpper_of_isSpace c space]

def HasServicePrefix (same : Char → Char → Bool) (letters text : List Char) : Prop :=
  ∃ leading word middle rest, text = leading ++ (word ++ (middle ++ ':' :: rest)) ∧
    (∀ c ∈ leading, isSpace c = true) ∧ (∀ c ∈ middle, isSpace c = true) ∧
    List.Forall₂ (fun letter c => same letter c = true) letters word

theorem servicePrefix_parts {same : Char → Char → Bool} {letters : String} {text : List Char}
    {final : Cursor}
    (matched : final ∈ (servicePrefix same letters).run (Cursor.atStart text)) :
    HasServicePrefix same letters.toList text := by
  obtain ⟨first, atFirst, matched⟩ := (mem_run_seq _ _ _ _).mp matched
  obtain ⟨second, atSecond, matched⟩ := (mem_run_seq _ _ _ _).mp matched
  obtain ⟨third, atThird, matched⟩ := (mem_run_seq _ _ _ _).mp matched
  obtain ⟨leading, split, leadingSpace⟩ := rest_of_mem_run_repeated atFirst
  obtain ⟨word, wordSplit, letterwise⟩ := rest_of_mem_run_word atSecond
  obtain ⟨middle, middleSplit, middleSpace⟩ := rest_of_mem_run_repeated atThird
  obtain ⟨c, rest, shape, colon, _⟩ := (mem_run_one _ _ _).mp matched
  have isColon : c = ':' := by simpa [exactLetter] using colon
  refine ⟨leading, word, middle, rest, ?_, leadingSpace, middleSpace, letterwise⟩
  rw [← isColon, ← shape, ← middleSplit, ← wordSplit]
  exact split

theorem servicePrefix_of_parts {same : Char → Char → Bool} {letters : String} {text : List Char}
    (parts : HasServicePrefix same letters.toList text) :
    (servicePrefix same letters).exec text ≠ none := by
  obtain ⟨leading, word, middle, rest, rfl, leadingSpace, middleSpace, letterwise⟩ := parts
  rw [exec_ne_none_iff]
  obtain ⟨first, atFirst, firstRest⟩ := exists_mem_run_repeated isSpace true leading
    (word ++ (middle ++ ':' :: rest)) none [] leadingSpace
  rcases first with ⟨firstBefore, firstText, firstGroups⟩
  cases firstRest
  obtain ⟨second, atSecond, secondRest⟩ := exists_mem_run_word same letters.toList word
    (middle ++ ':' :: rest) letterwise firstBefore firstGroups
  rcases second with ⟨secondBefore, secondText, secondGroups⟩
  cases secondRest
  obtain ⟨third, atThird, thirdRest⟩ := exists_mem_run_repeated isSpace true middle
    (':' :: rest) secondBefore secondGroups middleSpace
  rcases third with ⟨thirdBefore, thirdText, thirdGroups⟩
  cases thirdRest
  refine ⟨⟨some ':', rest, thirdGroups⟩, ?_⟩
  refine (mem_run_seq _ _ _ _).mpr ⟨_, atFirst, (mem_run_seq _ _ _ _).mpr ⟨_, atSecond, ?_⟩⟩
  refine (mem_run_seq _ _ _ _).mpr ⟨_, atThird, ?_⟩
  exact (mem_run_one _ _ _).mpr ⟨':', rest, rfl, by simp [exactLetter], rfl⟩

private theorem toUpperCase_spaces (intl : Intl) {spaces : List Char}
    (space : ∀ c ∈ spaces, isSpace c = true) : intl.toUpperCase spaces = spaces := by
  induction spaces with
  | nil => rfl
  | cons c rest ih =>
      have first := intl.upper_space c (space c (by simp))
      have later := ih fun other member => space other (.tail _ member)
      simp only [Intl.toUpperCase] at later ⊢
      rw [List.flatMap_cons, first, later, List.singleton_append]

/-- A letter the `i` flag accepts is ASCII, so upper case turns it into the letter
of the pattern. -/
private theorem upper_of_sameLetter (intl : Intl) {letter c : Char} (ascii : letter.toNat < 128)
    (same : sameLetter letter c = true) : intl.upper c = [letter] := by
  have equal : c.toUpper = letter := by simpa [sameLetter] using same
  have small : c.toNat < 128 := by
    by_cases lower : c.val ≥ 'a'.val ∧ c.val ≤ 'z'.val
    · have atMost : c.toNat ≤ 122 := UInt32.le_iff_toNat_le.mp lower.2
      omega
    · have unchanged : c.toUpper = c := dif_neg lower
      rw [← unchanged, equal]
      exact ascii
  rw [intl.upper_ascii c small, equal]

private theorem toUpperCase_word (intl : Intl) {letters word : List Char}
    (ascii : ∀ letter ∈ letters, letter.toNat < 128)
    (letterwise : List.Forall₂ (fun letter c => sameLetter letter c = true) letters word) :
    intl.toUpperCase word = letters := by
  induction letterwise with
  | nil => rfl
  | @cons letter c letters word same _ ih =>
      have first := upper_of_sameLetter intl (ascii letter (by simp)) same
      have later := ih fun other member => ascii other (.tail _ member)
      simp only [Intl.toUpperCase] at later ⊢
      rw [List.flatMap_cons, first, later, List.singleton_append]

/-- Upper case keeps a service prefix, now spelled exactly. -/
theorem HasServicePrefix.toUpperCase (intl : Intl) {letters text : List Char}
    (ascii : ∀ letter ∈ letters, letter.toNat < 128)
    (parts : HasServicePrefix sameLetter letters text) :
    HasServicePrefix exactLetter letters (intl.toUpperCase text) := by
  obtain ⟨leading, word, middle, rest, rfl, leadingSpace, middleSpace, letterwise⟩ := parts
  have colon : intl.upper ':' = [':'] := intl.upper_ascii ':' (by decide)
  have exact : List.Forall₂ (fun letter c => exactLetter letter c = true) letters letters :=
    List.forall₂_same.mpr fun letter _ => by simp [exactLetter]
  refine ⟨leading, letters, middle, intl.toUpperCase rest, ?_, leadingSpace, middleSpace, exact⟩
  have leadingUpper := toUpperCase_spaces intl leadingSpace
  have middleUpper := toUpperCase_spaces intl middleSpace
  have wordUpper := toUpperCase_word intl ascii letterwise
  simp only [Intl.toUpperCase] at leadingUpper middleUpper wordUpper ⊢
  rw [List.flatMap_append, List.flatMap_append, List.flatMap_append, List.flatMap_cons,
    leadingUpper, middleUpper, wordUpper, colon, List.singleton_append]

/-- Every WAN leg is classed as a WAN link. -/
theorem deviceClass_of_wanPairKey (intl : Intl) (name templateName : String) {pair : WanPair}
    (leg : wanPairKey intl name = some pair) :
    deviceClass intl name templateName = .wanLink := by
  obtain ⟨final, found, _⟩ := Option.map_eq_some_iff.mp leg
  have matched := List.mem_of_head? found
  obtain ⟨middle, before, _⟩ := (mem_run_seq _ _ _ _).mp matched
  have parts := (servicePrefix_parts before).toUpperCase intl (forall_mem_of_all (by decide))
  rw [deviceClass, if_pos (servicePrefix_of_parts parts)]

end ZabbixPortal.Domain
