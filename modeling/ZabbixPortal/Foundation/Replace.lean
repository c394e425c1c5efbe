import Mathlib.Init

/-! A global replacement: the matches of a pattern of fixed width are replaced from the left,
and the search goes on behind each of them. -/

set_option autoImplicit false

namespace ZabbixPortal.Foundation

section Replace

variable {α : Type} (width : Nat) (found : List α → Option (List α))

/-- Items still to be skipped belong to the match before them. -/
def replaceFrom : Nat → List α → List α
  | _, [] => []
  | skip + 1, _ :: rest => replaceFrom skip rest
  | 0, item :: rest =>
      match found (item :: rest) with
      | some replacement => replacement ++ replaceFrom (width - 1) rest
      | none => item :: replaceFrom 0 rest

def replaceAll (text : List α) : List α := replaceFrom width found 0 text

@[simp] theorem replaceAll_nil : replaceAll width found [] = [] := rfl

theorem replaceFrom_eq (skip : Nat) (text : List α) :
    replaceFrom width found skip text = replaceAll width found (text.drop skip) := by
  induction text generalizing skip with
  | nil => simp [replaceAll, replaceFrom]
  | cons item rest ih =>
      cases skip with
      | zero => rfl
      | succ skip => rw [replaceFrom, ih, List.drop_succ_cons]

variable {width found}

theorem replaceAll_of_some {item : α} {rest replacement : List α} (positive : 0 < width)
    (here : found (item :: rest) = some replacement) :
    replaceAll width found (item :: rest) =
      replacement ++ replaceAll width found ((item :: rest).drop width) := by
  obtain ⟨more, rfl⟩ := Nat.exists_eq_add_of_le' positive
  rw [replaceAll, replaceFrom, here]
  simp only [Nat.add_sub_cancel, replaceFrom_eq, List.drop_succ_cons]

theorem replaceAll_of_none {item : α} {rest : List α} (absent : found (item :: rest) = none) :
    replaceAll width found (item :: rest) = item :: replaceAll width found rest := by
  rw [replaceAll, replaceFrom, absent]
  rfl

/-- Where nothing is found at any place of a front part, that part stays. -/
theorem replaceAll_append {front rest : List α}
    (absent : ∀ before after, front = before ++ after → after ≠ [] → found (after ++ rest) = none) :
    replaceAll width found (front ++ rest) = front ++ replaceAll width found rest := by
  induction front with
  | nil => rfl
  | cons item front ih =>
      have later : ∀ before after, front = before ++ after → after ≠ [] →
          found (after ++ rest) = none := fun before after split nonempty =>
        absent (item :: before) after (by rw [split]; rfl) nonempty
      have here : found (item :: (front ++ rest)) = none :=
        absent [] (item :: front) rfl (List.cons_ne_nil item front)
      rw [List.cons_append, replaceAll_of_none here, ih later, List.cons_append]

end Replace

end ZabbixPortal.Foundation
