import Mathlib.Combinatorics.Enumerative.DoubleCounting
import Mathlib.Order.Interval.Finset.Nat

/-! Numbers marked on the members of a list, each member with at most one. -/

set_option autoImplicit false

namespace ZabbixPortal.Foundation

variable {α : Type} {bears : α → Nat → Prop}

def Marked (bears : α → Nat → Prop) (first stop : Nat) (members : List α) : Prop :=
  ∀ number, first ≤ number → number < stop → ∃ member ∈ members, bears member number

theorem Marked.mono {first stop : Nat} {members more : List α}
    (marked : Marked bears first stop members) (inside : members ⊆ more) :
    Marked bears first stop more := by
  intro number lower upper
  obtain ⟨member, isMember, mark⟩ := marked number lower upper
  exact ⟨member, inside isMember, mark⟩

theorem Marked.succ {first stop : Nat} {members : List α}
    (marked : Marked bears first stop members) {member : α} (mark : bears member stop) :
    Marked bears first (stop + 1) (member :: members) := by
  intro number lower upper
  rcases Nat.lt_succ_iff_lt_or_eq.mp upper with before | rfl
  · obtain ⟨other, isMember, own⟩ := marked number lower before
    exact ⟨other, .tail _ isMember, own⟩
  · exact ⟨member, List.mem_cons_self, mark⟩

/-- There are no more numbers than members. -/
theorem Marked.le_length (unique : ∀ member number other, bears member number →
      bears member other → number = other) {first stop : Nat} {members : List α}
    (marked : Marked bears first stop members) : stop ≤ first + members.length := by
  classical
  have counted : (Finset.Ico first stop).card ≤ members.toFinset.card := by
    refine Finset.card_le_card_of_forall_subsingleton (fun number member => bears member number)
      (fun number inside => ?_) fun member _ number own other otherOwn =>
        unique member number other own.2 otherOwn.2
    obtain ⟨lower, upper⟩ := Finset.mem_Ico.mp inside
    obtain ⟨member, isMember, mark⟩ := marked number lower upper
    exact ⟨member, List.mem_toFinset.mpr isMember, mark⟩
  rw [Nat.card_Ico] at counted
  have distinct := members.toFinset_card_le
  omega

end ZabbixPortal.Foundation
