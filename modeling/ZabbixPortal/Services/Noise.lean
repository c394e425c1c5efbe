import ZabbixPortal.Foundation.Grouping
import ZabbixPortal.Services.Availability
import ZabbixPortal.Services.GraphSeriesProperties

/-! The alert noise report: the triggers that fired in a window, the loudest first, with what
tells noise from a real fault. Figures are exact. -/

set_option autoImplicit false

namespace ZabbixPortal.Services

open Foundation Sli

inductive NoiseFlag where
  | flapping
  | unactioned
  | chronic
deriving DecidableEq, Repr

structure NoisyTrigger where
  objectid : Nat
  name : String
  host : String
  hostid : String
  severity : Nat
  count : Nat
  medianDuration : ℤ
  shortLived : Nat
  ackRate : ℚ
  totalDuration : ℤ
  longest : ℤ
  stillOpen : Bool
  flags : List NoiseFlag
deriving DecidableEq, Repr

structure NoiseThresholds where
  shortSeconds : ℤ
  minCount : Nat
deriving DecidableEq, Repr

structure NoiseReport where
  window : ReportWindow
  windowSeconds : ℤ
  minSeverity : ℤ
  truncated : Bool
  totalEvents : Nat
  distinctTriggers : Nat
  /-- How many of the loudest triggers, and what share of all events is theirs. -/
  topN : Nat
  percentOfEvents : ℤ
  counts : NoiseFlag → Nat
  thresholds : NoiseThresholds
  /-- Triggers before the list was cut. -/
  total : Nat
  triggers : List NoisyTrigger

namespace Noise

/-- The middle number, or the rounded mean of the two middle ones; 0 of no numbers. -/
def median (values : List ℤ) : ℤ :=
  let s := sortBy compare values
  let mid := s.length / 2
  if s.length % 2 = 1 then s[mid]?.getD 0
  else jsRound (((s[mid - 1]?.getD 0 + s[mid]?.getD 0 : ℤ) : ℚ) / 2)

/-- `b.count - a.count || b.totalDuration - a.totalDuration` -/
def loudestFirst (a b : NoisyTrigger) : Ordering :=
  (compare b.count a.count).then (compare b.totalDuration a.totalDuration)

end Noise

/-- The loudest triggers of a full report; every other figure still covers all of them. -/
def topNoise (report : NoiseReport) (top : Nat) : NoiseReport :=
  if report.triggers.length ≤ top then report
  else { report with triggers := report.triggers.take top }

/-! ## What the report says -/

namespace EventHistory

variable (history : EventHistory)

def share (window : ReportWindow) (p : ProblemEvent) : ℤ :=
  history.stop window p - max p.clock window.windowFrom

end EventHistory

namespace Noise

section Figures

/-! ### Figures -/

/-- The newest of some incidents, the first of those that began together. -/
theorem newest (first : Incident) (rest : List Incident) :
    rest.foldl (fun a b => if b.start > a.start then b else a) first ∈ first :: rest ∧
      ∀ i ∈ first :: rest,
        i.start ≤ (rest.foldl (fun a b => if b.start > a.start then b else a) first).start := by
  induction rest generalizing first with
  | nil => exact ⟨List.mem_cons_self, fun i own => (List.mem_singleton.mp own) ▸ le_rfl⟩
  | cons next rest ih =>
      rw [List.foldl_cons]
      by_cases later : next.start > first.start
      · rw [if_pos later]
        obtain ⟨member, above⟩ := ih next
        refine ⟨List.mem_cons_of_mem _ member, fun i inList => ?_⟩
        cases List.mem_cons.mp inList with
        | inl own => exact own ▸ later.le.trans (above next List.mem_cons_self)
        | inr others => exact above i others
      · rw [if_neg later]
        obtain ⟨member, above⟩ := ih first
        refine ⟨?_, fun i inList => ?_⟩
        · cases List.mem_cons.mp member with
          | inl own =>
              rw [own]
              exact List.mem_cons_self
          | inr others => exact List.mem_cons_of_mem _ (List.mem_cons_of_mem _ others)
        · cases List.mem_cons.mp inList with
          | inl own => exact above i (own ▸ List.mem_cons_self)
          | inr others =>
              cases List.mem_cons.mp others with
              | inl own => exact own ▸ (not_lt.mp later).trans (above first List.mem_cons_self)
              | inr inRest => exact above i (List.mem_cons_of_mem _ inRest)

end Figures

end Noise

namespace EventHistory

section Triggers

/-! ### The rows -/

variable {history : EventHistory} {window : ReportWindow} {thresholds : NoiseThresholds}

end Triggers

end EventHistory

section Report

/-! ### The report -/

instance transCmp_count : Std.TransCmp fun a b : NoisyTrigger => compare b.count a.count where
  eq_swap := Std.OrientedCmp.eq_swap
  isLE_trans first second := Std.TransCmp.isLE_trans second first

instance transCmp_totalDuration :
    Std.TransCmp fun a b : NoisyTrigger => compare b.totalDuration a.totalDuration where
  eq_swap := Std.OrientedCmp.eq_swap
  isLE_trans first second := Std.TransCmp.isLE_trans second first

instance transCmp_loudestFirst : Std.TransCmp Noise.loudestFirst :=
  inferInstanceAs (Std.TransCmp (compareLex
    (fun a b : NoisyTrigger => compare b.count a.count)
    fun a b : NoisyTrigger => compare b.totalDuration a.totalDuration))

end Report

end ZabbixPortal.Services
