import ZabbixPortal.Sli.Intervals

/-! The period a report is about: how `computeSli` checks the request and clips it to
now, and the settings both profiles read. -/

set_option autoImplicit false

namespace ZabbixPortal.Sli

inductive SliProfile where
  | hcmlReport
  | availability
deriving DecidableEq, Repr

/-- The strict profile counts only collected time. -/
def SliProfile.strict (profile : SliProfile) : Bool := profile = .availability

/-- The period as asked for: a month, whose bounds the calendar gives, or a window. -/
structure SliRequest where
  profile : SliProfile
  month : Option String
  bounds : Option (ℤ × ℤ)

inductive BadRequest where
  | noWindow
  | notStarted
  | tooOld
deriving DecidableEq, Repr

def BadRequest.message : BadRequest → String
  | .noWindow => "A month (YYYY-MM) or a from/to window is required."
  | .notStarted => "That period has not started yet."
  | .tooOld => "Zabbix keeps events for about a year; pick a later period."

structure SliWindow (now : ℤ) where
  windowFrom : ℤ
  windowTo : ℤ
  forward : windowFrom < windowTo
  started : windowFrom ≤ now
  recent : now - 400 * 86400 ≤ windowFrom

namespace SliWindow

variable {now : ℤ}

def windowEnd (window : SliWindow now) : ℤ := min window.windowTo now

def closed (window : SliWindow now) : Bool := window.windowTo ≤ now

/-- HCML's report clips a problem still open at month end to the last second. -/
def endClip (window : SliWindow now) (profile : SliProfile) : ℤ :=
  if !profile.strict && window.closed then window.windowTo - 1 else window.windowEnd

theorem windowEnd_le_now (window : SliWindow now) : window.windowEnd ≤ now := min_le_right _ _

theorem windowFrom_le_windowEnd (window : SliWindow now) :
    window.windowFrom ≤ window.windowEnd :=
  le_min window.forward.le window.started

/-- Events are read up to the second before `end`, and none of them is clipped. -/
theorem windowEnd_bounds (window : SliWindow now) (profile : SliProfile) :
    window.endClip profile ≤ window.windowEnd ∧
      window.windowEnd - 1 ≤ window.endClip profile := by
  have ended := window.windowEnd_le_now
  unfold endClip windowEnd closed
  split
  · next clipped =>
      have past : window.windowTo ≤ now := by simpa using (Bool.and_eq_true_iff.mp clipped).2
      omega
  · omega

end SliWindow

/-- The checks `computeSli` makes before it reads anything. -/
def sliWindow (calendar : String → ℤ × ℤ) (request : SliRequest) (now : ℤ) :
    Except BadRequest (SliWindow now) :=
  let bounds := match request.month with
    | some month => some (calendar month)
    | none => request.bounds
  match bounds with
  | none => .error .noWindow
  | some (windowFrom, windowTo) =>
      if forward : windowFrom < windowTo then
        if started : windowFrom ≤ now then
          if recent : now - 400 * 86400 ≤ windowFrom then
            .ok ⟨windowFrom, windowTo, forward, started, recent⟩
          else .error .tooOld
        else .error .notStarted
      else .error .noWindow

end ZabbixPortal.Sli
