import Mathlib.Order.Basic
import Mathlib.Data.Nat.Basic

/-! Loops: a step taken while there is one, the search for the longest that holds by bisection, and
the way back to the last place where something holds. -/

set_option autoImplicit false

namespace ZabbixPortal.Foundation

section Steps

variable {State : Type}

/-- A loop with so much fuel; a state without a step is where it ends. -/
def runLoop (step : State → Option State) : Nat → State → Option State
  | 0, _ => none
  | fuel + 1, state =>
      match step state with
      | none => some state
      | some next => runLoop step fuel next

/-- A loop whose steps keep an invariant and bring a measure down ends, with the invariant. -/
theorem exists_runLoop (step : State → Option State) (holds : State → Prop) (measure : State → Nat)
    (kept : ∀ state next, holds state → step state = some next →
      holds next ∧ measure next < measure state)
    {fuel : Nat} (state : State) (start : holds state) (enough : measure state < fuel) :
    ∃ last, runLoop step fuel state = some last ∧ holds last ∧ step last = none := by
  induction fuel generalizing state with
  | zero => exact absurd enough (Nat.not_lt_zero _)
  | succ fuel ih =>
      cases taken : step state with
      | none => exact ⟨state, by rw [runLoop, taken], start, taken⟩
      | some next =>
          obtain ⟨still, less⟩ := kept state next start taken
          obtain ⟨last, ends, holdsLast, noStep⟩ := ih next still (by omega)
          exact ⟨last, by rw [runLoop, taken]; exact ends, holdsLast, noStep⟩

end Steps

section Searches

/-- The greatest number up to `hi` for which something holds, or `lo`, by bisection. -/
def bisect (fits : Nat → Bool) (lo hi : Nat) : Nat :=
  if lo < hi then
    let mid := (lo + hi + 1) / 2
    if fits mid then bisect fits mid hi else bisect fits lo (mid - 1)
  else lo
termination_by hi - lo

structure IsLongest (fits : Nat → Bool) (lo hi found : Nat) : Prop where
  lower : lo ≤ found
  upper : found ≤ hi
  reached : found = lo ∨ fits found = true
  longer : ∀ {k : Nat}, found < k → k ≤ hi → fits k = false

/-- Bisection finds the longest of what only gets harder to fit. -/
theorem isLongest_bisect {fits : Nat → Bool} {lo hi : Nat} (ordered : lo ≤ hi)
    (mono : ∀ {k l : Nat}, lo < k → k ≤ l → fits l = true → fits k = true) :
    IsLongest fits lo hi (bisect fits lo hi) := by
  induction lo, hi using bisect.induct fits with
  | case1 lo hi below mid fitsMid ih =>
      have least : lo < mid := by omega
      have most : mid ≤ hi := by omega
      have rest := ih most fun above => mono (Nat.lt_trans least above)
      rw [bisect, if_pos below, if_pos fitsMid]
      refine ⟨Nat.le_trans (Nat.le_of_lt least) rest.lower, rest.upper, ?_, rest.longer⟩
      rcases rest.reached with same | found
      · rw [same]
        exact .inr fitsMid
      · exact .inr found
  | case2 lo hi below mid notMid ih =>
      have least : lo < mid := by omega
      have most : mid ≤ hi := by omega
      have rest := ih (by omega) fun above => mono above
      rw [bisect, if_pos below, if_neg notMid]
      refine ⟨rest.lower, Nat.le_trans rest.upper (by omega), rest.reached, ?_⟩
      intro k longer within
      by_cases short : k ≤ mid - 1
      · exact rest.longer longer short
      · rw [← Bool.not_eq_true]
        exact fun fitsK => notMid (mono least (by omega) fitsK)
  | case3 lo hi notBelow =>
      rw [bisect, if_neg notBelow]
      exact ⟨Nat.le_refl lo, ordered, .inl rfl, fun longer within => by omega⟩

/-- From a place back to the last one where something holds, or to `lo`. -/
def backUp (holds : Nat → Bool) (lo : Nat) : Nat → Nat
  | 0 => 0
  | place + 1 => if lo < place + 1 && !holds (place + 1) then backUp holds lo place else place + 1

theorem backUp_spec (holds : Nat → Bool) {lo place : Nat} (ordered : lo ≤ place) :
    lo ≤ backUp holds lo place ∧ backUp holds lo place ≤ place ∧
      (backUp holds lo place = lo ∨ holds (backUp holds lo place) = true) ∧
        ∀ k, backUp holds lo place < k → k ≤ place → holds k = false := by
  induction place with
  | zero =>
      have empty : lo = 0 := by omega
      rw [backUp, empty]
      exact ⟨Nat.le_refl 0, Nat.le_refl 0, .inl rfl, fun k above within => by omega⟩
  | succ place ih =>
      rw [backUp]
      split
      · next goesOn =>
          rw [Bool.and_eq_true, decide_eq_true_iff, Bool.not_eq_true'] at goesOn
          obtain ⟨lower, upper, found, later⟩ := ih (by omega)
          refine ⟨lower, Nat.le_trans upper (Nat.le_succ place), found, ?_⟩
          intro k above within
          by_cases last : k = place + 1
          · rw [last]
            exact goesOn.2
          · exact later k above (by omega)
      · next stops =>
          refine ⟨ordered, Nat.le_refl _, ?_, fun k above within => by omega⟩
          by_cases same : lo < place + 1
          · refine .inr ?_
            cases found : holds (place + 1) with
            | true => rfl
            | false => exact absurd (by rw [decide_eq_true same, found]; rfl) stops
          · exact .inl (by omega)

end Searches

end ZabbixPortal.Foundation
