import Mathlib.Logic.Function.Iterate

/-! Functions that call themselves on things of a lower rank only. An operator that reads its
argument below the rank it answers at has exactly one fixed point, found by applying it to
anything as often as the rank asks for. -/

set_option autoImplicit false

namespace ZabbixPortal.Foundation

variable {α β : Type} (rank : α → Nat)

def AgreeBelow (bound : Nat) (left right : α → β) : Prop :=
  ∀ a, rank a < bound → left a = right a

/-- What an operator answers at a rank depends on its argument below that rank only. -/
def Contractive (step : (α → β) → α → β) : Prop :=
  ∀ bound left right, AgreeBelow rank bound left right →
    AgreeBelow rank (bound + 1) (step left) (step right)

def fixOf (step : (α → β) → α → β) (start : α → β) (a : α) : β := step^[rank a + 1] start a

variable {rank} {step : (α → β) → α → β}

theorem Contractive.iterate_agree (contractive : Contractive rank step) (left right : α → β)
    (bound : Nat) : AgreeBelow rank bound (step^[bound] left) (step^[bound] right) := by
  induction bound with
  | zero => exact fun a below => absurd below (Nat.not_lt_zero _)
  | succ bound ih =>
      rw [Function.iterate_succ_apply', Function.iterate_succ_apply']
      exact contractive bound _ _ ih

/-- More applications than the rank asks for change nothing. -/
theorem Contractive.iterate_eq (contractive : Contractive rank step) (start : α → β) (a : α)
    {times : Nat} (enough : rank a < times) : step^[times] start a = fixOf rank step start a := by
  obtain ⟨more, rfl⟩ := Nat.exists_eq_add_of_lt enough
  have split : step^[rank a + more + 1] start = step^[rank a + 1] (step^[more] start) := by
    rw [← Function.iterate_add_apply, Nat.add_right_comm]
  rw [split]
  exact contractive.iterate_agree _ _ (rank a + 1) a (Nat.lt_succ_self _)

theorem Contractive.fixOf_eq (contractive : Contractive rank step) (start : α → β) :
    step (fixOf rank step start) = fixOf rank step start := by
  funext a
  have agree : AgreeBelow rank (rank a) (fixOf rank step start) (step^[rank a] start) :=
    fun b below => (contractive.iterate_eq start b below).symm
  calc step (fixOf rank step start) a
      = step (step^[rank a] start) a := contractive _ _ _ agree a (Nat.lt_succ_self _)
    _ = step^[rank a + 1] start a := by rw [Function.iterate_succ_apply']
    _ = fixOf rank step start a := rfl

theorem Contractive.fixOf_unique (contractive : Contractive rank step) (start other : α → β)
    (fixed : step other = other) : other = fixOf rank step start := by
  funext a
  have same : ∀ times, step^[times] other = other := fun times => Function.iterate_fixed fixed times
  calc other a = step^[rank a + 1] other a := by rw [same]
    _ = step^[rank a + 1] start a :=
        contractive.iterate_agree _ _ (rank a + 1) a (Nat.lt_succ_self _)

end ZabbixPortal.Foundation
