import ZabbixPortal.Foundation.Firsts
import ZabbixPortal.Foundation.TopOf
import ZabbixPortal.Services.Capacity
import ZabbixPortal.Services.GraphSamples

/-! What the capacity report tells of CPU, memory and disks: the busiest hosts, each by its busiest
item, with the mean and the peak of its hours. -/

set_option autoImplicit false

namespace ZabbixPortal.Services

open Foundation Sli

section Sums

/-! ### Running figures -/

variable {α : Type}

structure Figures (avg most : α → ℚ) (own : List α) (a : Aggregate) : Prop where
  sum : a.sum = (own.map avg).sum
  n : a.n = own.length
  max : ∃ peak, a.max = some peak ∧ IsGreatest {value | ∃ row ∈ own, most row = value} peak

theorem Figures.perm {avg most : α → ℚ} {own other : List α} {a : Aggregate}
    (figures : Figures avg most own a) (same : own.Perm other) : Figures avg most other a where
  sum := figures.sum.trans (same.map avg).sum_eq
  n := figures.n.trans same.length_eq
  max := by
    obtain ⟨peak, isPeak, greatest⟩ := figures.max
    refine ⟨peak, isPeak, ?_⟩
    simpa only [same.mem_iff] using greatest

end Sums

section Hosts

/-! ### One row a host -/

instance transCmp_busiest :
    Std.TransCmp fun a b : CapacityRow => compareNumbers b.avg a.avg where
  eq_swap := Std.OrientedCmp.eq_swap
  isLE_trans first second := Std.TransCmp.isLE_trans second first

end Hosts

section Metrics

/-! ### The metrics -/

variable {search : ZabbixSearch} {state : ZabbixState} {now : ℤ} {days : ℤ} {top : Nat}
  {arrived : List TrendRow}

def hoursOf (state : ZabbixState) (now days : ℤ) (item : ItemConfig) : List TrendRow :=
  inRange TrendRow.clock (now - days * 86400) now (state.trends now item.itemid)

end Metrics

end ZabbixPortal.Services
