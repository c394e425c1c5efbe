import ZabbixPortal.Foundation.OrderedMap
import ZabbixPortal.Sli.Time

/-! The caps on the AI routes: calls a minute for each key, and tokens a day for each caller and
for the portal. -/

set_option autoImplicit false

namespace ZabbixPortal.Clients

open Foundation Sli

/-- Who a call counts against: the signed-in user, or the client address when auth is off. -/
inductive Caller where
  | user (sub : String)
  | address (ip : String)
deriving DecidableEq, Repr

def Caller.name : Caller → String
  | .user sub => "user:" ++ sub
  | .address ip => "ip:" ++ ip

/-- `callerOf`, from the subject of a verified token and the address of the request. -/
def callerOf (sub : Option String) (ip : String) : Caller :=
  match sub with
  | some sub => if sub = "" then .address ip else .user sub
  | none => .address ip

/-! ## Calls a minute -/

def WINDOW_MS : ℤ := 60000

/-- Bounds the table when every call comes from a new address. -/
def MAX_KEYS : ℕ := 5000

structure MinuteWindow where
  count : ℕ
  resetAt : ℤ
deriving DecidableEq, Repr

namespace MinuteLimit

/-- The table: the oldest key is always first. -/
abbrev MinuteWindows := OrderedMap String MinuteWindow

def downTo (most : ℕ) (windows : MinuteWindows) : MinuteWindows :=
  if windows.size > most then downTo most windows.dropFirst else windows
termination_by windows.size
decreasing_by
  rw [OrderedMap.size_dropFirst]
  omega

def prune (windows : MinuteWindows) (now : ℤ) : MinuteWindows :=
  downTo MAX_KEYS (windows.filter fun entry => decide (now < entry.2.resetAt))

def wait (window : MinuteWindow) (now : ℤ) : ℤ :=
  max 1 ((window.resetAt - now + 999) / 1000)

def startMinute (windows : MinuteWindows) (key : String) (now : ℤ) : MinuteWindows :=
  let started := (windows.delete key).set key ⟨1, now + WINDOW_MS⟩
  if started.size > MAX_KEYS then prune started now else started

/-- Count a call: none when it may go ahead, else the seconds until this key's minute is over. -/
def take (max : ℕ) (windows : MinuteWindows) (key : String) (now : ℤ) :
    MinuteWindows × Option ℤ :=
  match windows.get? key with
  | none => (startMinute windows key now, none)
  | some window =>
      if window.resetAt ≤ now then (startMinute windows key now, none)
      else if window.count ≥ max then (windows, some (wait window now))
      else (windows.set key { window with count := window.count + 1 }, none)

end MinuteLimit

/-! ## Tokens a day -/

structure BudgetLimits where
  /-- Tokens one caller may use a day; 0 is no limit. -/
  perUser : ℤ
  /-- Tokens everyone together may use a day; 0 is no limit. -/
  total : ℤ
deriving DecidableEq, Repr

structure BudgetRefusal where
  message : String
  /-- Seconds until the day rolls over. -/
  retryAfter : ℤ
deriving DecidableEq, Repr

structure Today where
  key : String
  secondsLeft : ℤ
deriving DecidableEq, Repr

/-- The zone of a name; an unknown one reads as UTC. -/
def zoneNamed (zones : String → Option Zone) (zone : String) : Option Zone :=
  (zones zone).or (zones "UTC")

def dayKey (date : CivilDate) : String :=
  toString date.year ++ "-" ++ toString date.month ++ "-" ++ toString date.day

def dayIn (zones : String → Option Zone) (zone : String) (nowMs : ℤ) : Today :=
  let seconds := nowMs / 1000
  match zoneNamed zones zone with
  | some tz =>
      -- `zonedDate`, whose year is this one for any time since the year 1.
      let date := tz.localDate seconds
      { key := dayKey date
        secondsLeft := max 1 (zonedDayStart date.year date.month (date.day + 1) tz - seconds) }
  | none => ⟨toString (seconds / 86400), 86400 - seconds.tmod 86400⟩

/-- A wait in words a reader can use: "about 5 hours", "about 40 minutes". -/
def inWords (seconds : ℤ) : String :=
  if seconds ≥ 5400 then "about " ++ toString ((2 * seconds + 3600) / 7200) ++ " hours"
  else
    let minutes := max 1 ((2 * seconds + 60) / 120)
    "about " ++ toString minutes ++ " minute" ++ if minutes = 1 then "" else "s"

/-- Not a caller name, so the portal total shares the table. -/
def ALL : String := "*"

structure DailyTokens where
  day : String
  used : OrderedMap String ℤ
deriving DecidableEq

namespace DailyTokens

def new : DailyTokens := ⟨"", .empty⟩

/-- Start over when the calendar day has changed. -/
def today (tokens : DailyTokens) (today : Today) : DailyTokens :=
  if today.key ≠ tokens.day then ⟨today.key, .empty⟩ else tokens

def usedOf (tokens : DailyTokens) (name : String) : ℤ := (tokens.used.get? name).getD 0

/-- Why this caller may not start another call today, or none when they may. -/
def refusal (tokens : DailyTokens) (limits : BudgetLimits) (zone : String) (today : Today)
    (caller : String) : DailyTokens × Option BudgetRefusal :=
  let tokens := tokens.today today
  let again := " It starts again at midnight (" ++ zone ++ "), " ++ inWords today.secondsLeft ++
    " from now. The rest of the portal still works."
  if limits.perUser > 0 ∧ tokens.usedOf caller ≥ limits.perUser then
    (tokens, some ⟨"You have used your share of AI answers for today." ++ again,
      today.secondsLeft⟩)
  else if limits.total > 0 ∧ tokens.usedOf ALL ≥ limits.total then
    (tokens, some ⟨"The portal has used all of its AI answers for today." ++ again,
      today.secondsLeft⟩)
  else (tokens, none)

def record (tokens : DailyTokens) (today : Today) (caller : String) (amount : ℤ) : DailyTokens :=
  if ¬ amount > 0 then tokens
  else
    let tokens := tokens.today today
    let own := { tokens with used := tokens.used.set caller (tokens.usedOf caller + amount) }
    { own with used := own.used.set ALL (own.usedOf ALL + amount) }

def usedBy (tokens : DailyTokens) (today : Today) (caller : Option String) : DailyTokens × ℤ :=
  let tokens := tokens.today today
  (tokens, tokens.usedOf (caller.getD ALL))

end DailyTokens

end ZabbixPortal.Clients
