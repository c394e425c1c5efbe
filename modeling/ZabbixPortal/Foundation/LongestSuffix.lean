import Mathlib.Data.List.Infix

/-! The longest suffix of a list that has a property. -/

set_option autoImplicit false

namespace ZabbixPortal.Foundation

variable {α : Type}

/-- A suffix has the property and every suffix that has it is one of its own. -/
structure IsLongestSuffix (holds : List α → Prop) (whole part : List α) : Prop where
  suffix : part <:+ whole
  own : holds part
  longest : ∀ other, other <:+ whole → holds other → other <:+ part

namespace IsLongestSuffix

variable {holds narrower : List α → Prop} {whole middle part : List α}

theorem length_le (longest : IsLongestSuffix holds whole part) {other : List α}
    (suffix : other <:+ whole) (own : holds other) : other.length ≤ part.length :=
  (longest.longest other suffix own).length_le

/-- A suffix may be sought within the longest one that has a property which suffixes keep. -/
theorem within (outer : IsLongestSuffix holds whole middle)
    (kept : ∀ shorter longer, shorter <:+ longer → holds longer → holds shorter)
    (inner : IsLongestSuffix narrower middle part) :
    IsLongestSuffix (fun items => holds items ∧ narrower items) whole part where
  suffix := inner.suffix.trans outer.suffix
  own := ⟨kept part middle inner.suffix outer.own, inner.own⟩
  longest other suffix both := inner.longest other (outer.longest other suffix both.1) both.2

theorem whole_of_holds (own : holds whole) : IsLongestSuffix holds whole whole :=
  ⟨List.suffix_rfl, own, fun _ suffix _ => suffix⟩

/-- The first item may go when the property does not hold with it. -/
theorem cons {item : α} (fails : ¬ holds (item :: whole)) (longest : IsLongestSuffix holds whole part) :
    IsLongestSuffix holds (item :: whole) part where
  suffix := longest.suffix.trans (List.suffix_cons item whole)
  own := longest.own
  longest other suffix own := by
    cases List.suffix_cons_iff.mp suffix with
    | inl all => exact absurd (all ▸ own) fails
    | inr rest => exact longest.longest other rest own

/-- When a property that suffixes keep holds of a suffix and not with the item before it, no longer one
has it. -/
theorem of_maximal {item : α} (kept : ∀ shorter longer, shorter <:+ longer → holds longer → holds shorter)
    (suffix : item :: part <:+ whole) (own : holds part) (fails : ¬ holds (item :: part)) :
    IsLongestSuffix holds whole part where
  suffix := (List.suffix_cons item part).trans suffix
  own
  longest other isSuffix holdsOther := by
    cases List.suffix_or_suffix_of_suffix isSuffix suffix with
    | inl within =>
        cases List.suffix_cons_iff.mp within with
        | inl all => exact absurd (all ▸ holdsOther) fails
        | inr rest => exact rest
    | inr longer => exact absurd (kept _ _ longer holdsOther) fails

end IsLongestSuffix

end ZabbixPortal.Foundation
