import ZabbixPortal.Foundation.JsonText
import ZabbixPortal.Foundation.Sorting
import ZabbixPortal.Services.Stream
import ZabbixPortal.Foundation.Joined
import Mathlib.Data.List.Induction

/-! The frames of the live stream as text, the lists the page reads from them, and what the page
compares of a list. -/

set_option autoImplicit false

namespace ZabbixPortal

open Foundation

namespace Services

/-- The members of an object; those that are undefined are not written. -/
def definedOf (fields : List (String × Option String)) : List JsonText.Member :=
  fields.filterMap fun entry => entry.2.map fun text => (entry.1.toList, text.toList)

def members (p : LiveProblem) : List JsonText.Member :=
  definedOf [("eventid", some p.eventid), ("objectid", some p.objectid), ("object", some p.object),
    ("name", some p.name), ("severity", some p.severity), ("clock", some p.clock),
    ("r_eventid", p.r_eventid), ("acknowledged", some p.acknowledged),
    ("suppressed", p.suppressed), ("host", p.host), ("hostid", p.hostid)]

def frameText (problems : List ProblemRow) : String :=
  String.ofList (JsonText.stringify ((frameJson problems).map members))

end Services

namespace Web

structure Problem where
  eventid : String
  objectid : String
  object : String
  name : String
  severity : String
  clock : String
  r_eventid : Option String
  acknowledged : String
  suppressed : Option String
  host : Option String
  hostid : Option String
deriving DecidableEq, Repr

def field (record : List JsonText.Member) (key : String) : Option String :=
  (record.lookup key.toList).map String.ofList

/-- The problem in a parsed object; none where a field that must be there is not. -/
def problemOf (record : List JsonText.Member) : Option Problem := do
  some {
    eventid := ← field record "eventid"
    objectid := ← field record "objectid"
    object := ← field record "object"
    name := ← field record "name"
    severity := ← field record "severity"
    clock := ← field record "clock"
    r_eventid := field record "r_eventid"
    acknowledged := ← field record "acknowledged"
    suppressed := field record "suppressed"
    host := field record "host"
    hostid := field record "hostid" }

def readFrame (data : String) : Option (List Problem) :=
  (JsonText.parse data.toList).bind fun records => records.mapM problemOf

/-- What the frames of the live stream say about a list, as one comparable text. -/
def changeKey (problems : List Problem) : String :=
  "|".intercalate <| sortBy compareCodeUnits <| problems.map fun p =>
    ":".intercalate [p.eventid, p.severity, p.acknowledged, p.suppressed.getD "",
      p.r_eventid.getD ""]

end Web

end ZabbixPortal

/-! What counts as a live change: the key both sides compare, and when a read is sent. -/

namespace ZabbixPortal.Web

open Foundation Services

/-! ## The key -/

def standing (p : ProblemRow) : List String :=
  [p.eventid, p.severity, p.acknowledged, p.suppressed.getD "", p.r_eventid.getD ""]

/-- No compared field has a mark of the key. -/
def Plain (problems : List ProblemRow) : Prop :=
  ∀ p ∈ problems, ∀ text ∈ standing p, ':' ∉ text.toList ∧ '|' ∉ text.toList

def standingKey (p : ProblemRow) : String := ":".intercalate (standing p)

theorem fingerprint_eq (problems : List ProblemRow) :
    fingerprint problems =
      "|".intercalate (sortBy compareCodeUnits (problems.map standingKey)) := rfl

def fieldsOf (key : String) : List String := (key.toList.splitOn ':').map String.ofList

theorem toList_standingKey (p : ProblemRow) :
    (standingKey p).toList = [':'].intercalate ((standing p).map String.toList) := by
  rw [standingKey, String.toList_intercalate]
  rfl

theorem fieldsOf_standingKey {problems : List ProblemRow} (plain : Plain problems) {p : ProblemRow}
    (member : p ∈ problems) : fieldsOf (standingKey p) = standing p := by
  have apart : ∀ part ∈ (standing p).map String.toList, ':' ∉ part := by
    intro part inside
    obtain ⟨text, inStanding, rfl⟩ := List.mem_map.mp inside
    exact (plain p member text inStanding).1
  rw [fieldsOf, toList_standingKey, List.splitOn_intercalate ':' apart (by simp [standing]),
    List.map_map]
  simp [Function.comp_def]

/-- A key has no bar, and is not empty. -/
theorem standingKey_plain {problems : List ProblemRow} (plain : Plain problems) {p : ProblemRow}
    (member : p ∈ problems) : '|' ∉ (standingKey p).toList ∧ (standingKey p).toList ≠ [] := by
  rw [toList_standingKey]
  constructor
  · intro bar
    rcases mem_intercalate bar with isMark | ⟨part, inParts, inPart⟩
    · cases isMark
    · obtain ⟨text, inStanding, rfl⟩ := List.mem_map.mp inParts
      exact (plain p member text inStanding).2 inPart
  · simp [standing, List.intercalate_cons_cons]

/-- Two lists have one fingerprint exactly when they are one list up to order, names and hosts. -/
theorem fingerprint_eq_iff {problems others : List ProblemRow} (plain : Plain problems)
    (plain' : Plain others) :
    fingerprint problems = fingerprint others ↔
      (problems.map standing).Perm (others.map standing) := by
  constructor
  · intro same
    rw [fingerprint_eq, fingerprint_eq] at same
    have letters := congrArg String.toList same
    rw [String.toList_intercalate, String.toList_intercalate] at letters
    have fine : ∀ {problems : List ProblemRow}, Plain problems →
        ∀ part ∈ (sortBy compareCodeUnits (problems.map standingKey)).map String.toList,
          '|' ∉ part ∧ part ≠ [] := by
      intro problems plain part inside
      obtain ⟨key, inKeys, rfl⟩ := List.mem_map.mp inside
      rw [mem_sortBy] at inKeys
      obtain ⟨p, member, rfl⟩ := List.mem_map.mp inKeys
      exact standingKey_plain plain member
    have parts := intercalate_inj (fine plain) (fine plain') letters
    have sorted := List.map_injective_iff.mpr (fun _ _ => String.toList_inj.mp) parts
    have keys : (problems.map standingKey).Perm (others.map standingKey) := by
      have left := sortBy_perm compareCodeUnits (problems.map standingKey)
      have right := sortBy_perm compareCodeUnits (others.map standingKey)
      rw [sorted] at left
      exact left.symm.trans right
    have back : ∀ {problems : List ProblemRow}, Plain problems →
        (problems.map standingKey).map fieldsOf = problems.map standing := by
      intro problems plain
      rw [List.map_map]
      exact List.map_congr_left fun p member => fieldsOf_standingKey plain member
    have fields := keys.map fieldsOf
    rwa [back plain, back plain'] at fields
  · intro same
    have keys := same.map (":".intercalate ·)
    rw [List.map_map, List.map_map] at keys
    rw [fingerprint_eq, fingerprint_eq]
    exact congrArg _ (sortBy_compareCodeUnits keys)

/-! ## The frames -/

theorem definedOf_cons (key : String) (value : Option String)
    (rest : List (String × Option String)) :
    definedOf ((key, value) :: rest) = (value.map fun text => (key.toList, text.toList)).toList ++
      definedOf rest := by
  cases value <;> simp [definedOf]

theorem field_definedOf_cons (key : String) (value : Option String)
    (rest : List (String × Option String)) (wanted : String) :
    field (definedOf ((key, value) :: rest)) wanted =
      if wanted = key then value.or (field (definedOf rest) wanted) else field (definedOf rest) wanted := by
  rw [definedOf_cons]
  unfold field
  cases value with
  | none => simp
  | some text =>
      by_cases same : wanted = key
      · simp [same]
      · have other : (wanted.toList == key.toList) = false := by
          simpa [String.toList_inj] using same
        simp [same, List.lookup_cons, other]

@[simp] theorem field_definedOf_nil (wanted : String) : field (definedOf []) wanted = none := rfl

def onPage (p : LiveProblem) : Problem :=
  { eventid := p.eventid, objectid := p.objectid, object := p.object, name := p.name,
    severity := p.severity, clock := p.clock, r_eventid := p.r_eventid,
    acknowledged := p.acknowledged, suppressed := p.suppressed, host := p.host, hostid := p.hostid }

theorem problemOf_members (p : LiveProblem) : problemOf (members p) = some (onPage p) := by
  simp [problemOf, members, field_definedOf_cons, onPage]

/-- The page reads the list a frame was written from. -/
theorem readFrame_frameText (problems : List ProblemRow) :
    readFrame (frameText problems) = some ((frameJson problems).map onPage) := by
  have each : ∀ list : List LiveProblem,
      (list.map members).mapM problemOf = some (list.map onPage) := by
    intro list
    induction list with
    | nil => rfl
    | cons p rest ih => simp [List.mapM_cons, problemOf_members, ih]
  rw [readFrame, frameText, String.toList_ofList, JsonText.parse_stringify]
  exact each _

/-- The text of a frame tells the lists apart. -/
theorem frameText_eq_iff (problems others : List ProblemRow) :
    frameText problems = frameText others ↔ frameJson problems = frameJson others := by
  constructor
  · intro same
    have lists := (readFrame_frameText problems).symm.trans
      ((congrArg readFrame same).trans (readFrame_frameText others))
    have pages : Function.Injective onPage := by
      intro left right equal
      obtain ⟨⟩ := left
      obtain ⟨⟩ := right
      simpa [onPage] using equal
    exact List.map_injective_iff.mpr pages (Option.some.inj lists)
  · intro same
    rw [frameText, frameText, same]

/-- The page's key of a frame is the server's fingerprint of the list it was sent. -/
theorem changeKey_onPage (problems : List ProblemRow) :
    changeKey ((frameJson problems).map onPage) = fingerprint problems := by
  unfold changeKey fingerprint frameJson
  rw [List.map_map, List.map_map]
  rfl

/-! ## The reads -/

structure ListRead where
  now : ℤ
  problems : List ProblemRow

def sends (last : Option Sent) (read : ListRead) : Bool :=
  shouldSend last (fingerprint read.problems) (frameJson read.problems) read.now

/-- The list last sent, as it is kept to compare the next with. -/
def sentOf (read : ListRead) : Sent :=
  ⟨fingerprint read.problems, frameJson read.problems, read.now⟩

def afterRead (last : Option Sent) (read : ListRead) : Option Sent :=
  if sends last read then some (sentOf read) else last

def lastSent (reads : List ListRead) : Option Sent := reads.foldl afterRead none

/-- A live read in the hub keeps and sends by the same rule. -/
theorem lastSent_apply {ρ : Type} (rows : ρ → List ProblemRow) (hub : Hub ρ) (read : Read)
    (unforced : read.force = false) (problems : ρ) (instant : Instant) :
    (hub.apply rows read (.list problems) instant).lastSent =
      afterRead hub.lastSent ⟨instant.now, rows problems⟩ := by
  unfold Hub.apply afterRead sends
  simp only [unforced, Bool.not_false, Bool.true_and]
  by_cases due : shouldSend hub.lastSent (fingerprint (rows problems)) (frameJson (rows problems))
      instant.now = true
  · simp [due, Hub.broadcast, sentOf]
  · simp [due]

/-- The read whose list was the last to be sent. -/
def SentLast (reads : List ListRead) (sent : ListRead) : Prop :=
  ∃ early later, reads = early ++ sent :: later ∧ sends (lastSent early) sent = true ∧
    ∀ front read back, later = front ++ read :: back →
      sends (lastSent (early ++ sent :: front)) read = false

theorem lastSent_append (reads more : List ListRead) :
    lastSent (reads ++ more) = more.foldl afterRead (lastSent reads) := by
  simp [lastSent]

theorem SentLast.kept {reads : List ListRead} {sent : ListRead} (last : SentLast reads sent) :
    lastSent reads = some (sentOf sent) := by
  obtain ⟨early, later, rfl, own, unsent⟩ := last
  induction later using List.reverseRecOn with
  | nil => simp [lastSent_append, afterRead, own]
  | append_singleton later read ih =>
      have before := ih fun front other back split =>
        unsent front other (back ++ [read]) (by rw [split]; simp)
      have quiet := unsent later read [] rfl
      rw [← List.cons_append, ← List.append_assoc, lastSent_append, List.foldl_cons, List.foldl_nil,
        afterRead, if_neg (by simp [quiet]), before]

/-- The list differs from the one last sent, but not in what a screen must show at once. -/
def OnlyNamesDiffer (sent read : ListRead) : Prop :=
  fingerprint read.problems = fingerprint sent.problems ∧
    frameText read.problems ≠ frameText sent.problems

theorem sends_of_fingerprint {sent read : ListRead}
    (differs : fingerprint read.problems ≠ fingerprint sent.problems) :
    sends (some (sentOf sent)) read = true := by
  simp [sends, shouldSend, sentOf, differs.symm]

theorem not_sends_of_same {sent read : ListRead}
    (same : frameText read.problems = frameText sent.problems) :
    sends (some (sentOf sent)) read = false := by
  have json := (frameText_eq_iff _ _).mp same
  have keys : fingerprint read.problems = fingerprint sent.problems := by
    rw [← changeKey_onPage, json, changeKey_onPage]
  simp [sends, shouldSend, sentOf, json, keys]

theorem sends_onlyNames {sent read : ListRead} (only : OnlyNamesDiffer sent read) :
    sends (some (sentOf sent)) read = true ↔ sent.now + MAX_QUIET_MS < read.now + TICK_MS := by
  have json : ¬ frameJson sent.problems = frameJson read.problems :=
    fun same => only.2 ((frameText_eq_iff _ _).mpr same.symm)
  have keys : ¬ fingerprint sent.problems ≠ fingerprint read.problems := not_not.mpr only.1.symm
  unfold sends shouldSend sentOf
  dsimp only
  rw [if_neg keys, if_neg json, decide_eq_true_iff]
  omega

/-- By induction on the reads: while they differ in names only, one is sent in time, or the
first of them at once. -/
theorem exists_sent_in_time {sent : ListRead} {differing : List ListRead}
    (nonempty : differing ≠ []) (only : ∀ read ∈ differing, OnlyNamesDiffer sent read)
    (close : differing.IsChain fun earlier later => later.now ≤ earlier.now + TICK_MS)
    (reaches : ∀ last, differing.getLast? = some last →
      sent.now + MAX_QUIET_MS < last.now + TICK_MS) :
    ∃ front read back, differing = front ++ read :: back ∧
      sends (front.foldl afterRead (some (sentOf sent))) read = true ∧
        (front = [] ∨ read.now ≤ sent.now + MAX_QUIET_MS) := by
  induction differing with
  | nil => exact absurd rfl nonempty
  | cons first rest ih =>
      by_cases due : sends (some (sentOf sent)) first = true
      · exact ⟨[], first, rest, rfl, due, .inl rfl⟩
      · have early := (sends_onlyNames (only first List.mem_cons_self)).not.mp due
        cases rest with
        | nil => exact absurd (reaches first rfl) early
        | cons second more =>
            obtain ⟨step, later⟩ := List.isChain_cons_cons.mp close
            obtain ⟨front, read, back, split, sentNow, inTime⟩ := ih (List.cons_ne_nil _ _)
              (fun read member => only read (.tail _ member)) later
              (fun last found => reaches last (by rw [List.getLast?_cons_cons, found]))
            refine ⟨first :: front, read, back, by rw [split]; rfl, ?_, .inr ?_⟩
            · rw [List.foldl_cons, afterRead, if_neg due]
              exact sentNow
            · rcases inTime with isFirst | inTime
              · rw [isFirst] at split
                cases split
                omega
              · exact inTime

/-- What counts as a live change, on both sides and over the reads. -/
structure CountsChanges : Prop where
  key : ∀ problems others, Plain problems → Plain others →
    (fingerprint problems = fingerprint others ↔
      (problems.map standing).Perm (others.map standing))
  page : ∀ problems, ∃ list, readFrame (frameText problems) = some list ∧
    changeKey list = fingerprint problems
  atOnce : ∀ reads sent read, SentLast reads sent →
    fingerprint read.problems ≠ fingerprint sent.problems → sends (lastSent reads) read = true
  neverAgain : ∀ reads sent read, SentLast reads sent →
    frameText read.problems = frameText sent.problems → sends (lastSent reads) read = false
  inTime : ∀ reads sent differing, SentLast reads sent → differing ≠ [] →
    (∀ read ∈ differing, OnlyNamesDiffer sent read) →
      differing.IsChain (fun earlier later => later.now ≤ earlier.now + 5000) →
        (∀ last, differing.getLast? = some last → sent.now + 30000 < last.now + 5000) →
          ∃ front read back, differing = front ++ read :: back ∧
            sends (lastSent (reads ++ front)) read = true ∧
              (front = [] ∨ read.now ≤ sent.now + 30000)

theorem countsChanges : CountsChanges where
  key := fun _ _ plain plain' => fingerprint_eq_iff plain plain'
  page := fun problems => ⟨_, readFrame_frameText problems, changeKey_onPage problems⟩
  atOnce := by
    intro reads sent read last differs
    rw [last.kept]
    exact sends_of_fingerprint differs
  neverAgain := by
    intro reads sent read last same
    rw [last.kept]
    exact not_sends_of_same same
  inTime := by
    intro reads sent differing last nonempty only close reaches
    obtain ⟨front, read, back, split, due, inTime⟩ := exists_sent_in_time nonempty only close reaches
    refine ⟨front, read, back, split, ?_, inTime⟩
    rw [lastSent_append, last.kept]
    exact due

section Examples

def row (name : String) : ProblemRow :=
  { eventid := "5", objectid := "9", object := "0", name, severity := "4", clock := "1",
    r_eventid := none, acknowledged := "0", suppressed := some "0", host := none, hostid := none,
    opdata := none, tags := [] }

def readAt (now : ℤ) (name : String) : ListRead := ⟨now, [row name]⟩

theorem sentLast_first : SentLast [readAt 0 "Link down"] (readAt 0 "Link down") :=
  ⟨[], [], rfl, by decide +kernel, fun front read back split => by simp at split⟩

theorem onlyNames_wan (now : ℤ) :
    OnlyNamesDiffer (readAt 0 "Link down") (readAt now "Link down (WAN)") := by
  refine ⟨?_, ?_⟩
  · change fingerprint [row "Link down (WAN)"] = fingerprint [row "Link down"]
    decide +kernel
  · change frameText [row "Link down (WAN)"] ≠ frameText [row "Link down"]
    decide +kernel

/-- Six reads after the one that is sent, five seconds apart, all with the other name. -/
def renamedForGood : List ListRead :=
  [5000, 10000, 15000, 20000, 25000, 30000].map fun now => readAt now "Link down (WAN)"

theorem countsChanges_renamedForGood :
    ∃ front read back, renamedForGood = front ++ read :: back ∧
      sends (lastSent ([readAt 0 "Link down"] ++ front)) read = true ∧
        (front = [] ∨ read.now ≤ 30000) := by
  refine countsChanges.inTime [readAt 0 "Link down"] (readAt 0 "Link down") renamedForGood
    sentLast_first (by simp [renamedForGood]) ?_ (by simp [renamedForGood, readAt]) ?_
  · intro read member
    obtain ⟨now, -, rfl⟩ := List.mem_map.mp member
    exact onlyNames_wan now
  · intro last isLast
    cases isLast
    decide

/-- Eight reads, five seconds apart; only the second has another name. -/
def renamed : List ListRead :=
  [readAt 0 "Link down", readAt 5000 "Link down (WAN)"] ++
    [10000, 15000, 20000, 25000, 30000, 35000].map fun now => readAt now "Link down"

/-- A name that is back by the next read is never sent. -/
theorem renamed_not_sent :
    SentLast [readAt 0 "Link down"] (readAt 0 "Link down") ∧
      OnlyNamesDiffer (readAt 0 "Link down") (readAt 5000 "Link down (WAN)") ∧
      renamed.IsChain (fun earlier later => later.now ≤ earlier.now + TICK_MS) ∧
      ∀ n : Fin 7, sends (lastSent (renamed.take (n + 1))) (renamed.get (n.succ)) = false :=
  ⟨sentLast_first, onlyNames_wan 5000, by decide +kernel, by decide +kernel⟩

end Examples

end ZabbixPortal.Web
