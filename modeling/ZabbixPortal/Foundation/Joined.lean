import Mathlib.Data.List.Basic

/-! Lists joined at a mark, and cut there again. -/

set_option autoImplicit false

namespace ZabbixPortal.Foundation

variable {α : Type} {mark : α} {parts : List (List α)}

theorem intercalate_concat (nonempty : parts ≠ []) (part : List α) :
    [mark].intercalate (parts ++ [part]) = [mark].intercalate parts ++ mark :: part := by
  induction parts with
  | nil => exact absurd rfl nonempty
  | cons first rest ih =>
      cases rest with
      | nil => simp [List.intercalate_cons_cons]
      | cons second more =>
          rw [List.cons_append, List.cons_append, List.intercalate_cons_cons,
            List.intercalate_cons_cons, ← List.cons_append, ih (List.cons_ne_nil _ _),
            List.append_assoc, List.append_assoc, List.append_assoc]

theorem mem_intercalate {item : α}
    (member : item ∈ [mark].intercalate parts) : item = mark ∨ ∃ part ∈ parts, item ∈ part := by
  induction parts with
  | nil => cases member
  | cons first rest ih =>
      cases rest with
      | nil =>
          rw [List.intercalate_singleton] at member
          exact .inr ⟨first, List.mem_cons_self, member⟩
      | cons second rest =>
          rw [List.intercalate_cons_cons, List.mem_append, List.mem_append,
            List.mem_singleton] at member
          obtain (inFirst | isMark) | later := member
          · exact .inr ⟨first, List.mem_cons_self, inFirst⟩
          · exact .inl isMark
          · exact (ih later).imp_right fun ⟨part, inRest, inPart⟩ =>
              ⟨part, List.mem_cons_of_mem _ inRest, inPart⟩

/-- The parts of a list with a mark between them, where the last has none. -/
theorem append_mark_inj {left right front back : List α} (plain : mark ∉ front)
    (other : mark ∉ back) (same : left ++ mark :: front = right ++ mark :: back) :
    left = right ∧ front = back := by
  rcases List.append_eq_append_iff.mp same with ⟨between, joined, rest⟩ | ⟨between, joined, rest⟩
  · cases between with
    | nil =>
        rw [List.nil_append] at rest
        exact ⟨by rw [joined, List.append_nil], List.tail_eq_of_cons_eq rest⟩
    | cons c between =>
        have tail : front = between ++ mark :: back := List.tail_eq_of_cons_eq rest
        exact absurd (by rw [tail]; simp) plain
  · cases between with
    | nil =>
        rw [List.nil_append] at rest
        exact ⟨by rw [joined, List.append_nil], (List.tail_eq_of_cons_eq rest).symm⟩
    | cons c between =>
        have tail : back = between ++ mark :: front := List.tail_eq_of_cons_eq rest
        exact absurd (by rw [tail]; simp) other

variable [DecidableEq α]

/-- Without the marks the parts are left. -/
theorem filter_intercalate (plain : ∀ part ∈ parts, mark ∉ part) :
    ([mark].intercalate parts).filter (· ≠ mark) = parts.flatten := by
  have kept : ∀ part ∈ parts, part.filter (· ≠ mark) = part := fun part member =>
    List.filter_eq_self.mpr fun item inside =>
      decide_eq_true fun same => plain part member (same ▸ inside)
  induction parts with
  | nil => rfl
  | cons first rest ih =>
      have own := kept first List.mem_cons_self
      have others := ih (fun part member => plain part (.tail _ member))
        fun part member => kept part (.tail _ member)
      cases rest with
      | nil => rw [List.intercalate_singleton, own, List.flatten_singleton]
      | cons second more =>
          rw [List.intercalate_cons_cons, List.filter_append, List.filter_append, own, others]
          simp

/-- Parts that are not empty and have no mark can be told from what they are joined to. -/
theorem intercalate_inj {others : List (List α)} (plain : ∀ part ∈ parts, mark ∉ part ∧ part ≠ [])
    (plain' : ∀ part ∈ others, mark ∉ part ∧ part ≠ [])
    (same : [mark].intercalate parts = [mark].intercalate others) : parts = others := by
  have filled : ∀ {parts : List (List α)}, (∀ part ∈ parts, mark ∉ part ∧ part ≠ []) →
      [mark].intercalate parts = [] → parts = [] := by
    intro parts plain empty
    cases parts with
    | nil => rfl
    | cons first rest =>
        have nonempty := (plain first List.mem_cons_self).2
        cases rest with
        | nil =>
            rw [List.intercalate_singleton] at empty
            exact absurd empty nonempty
        | cons second more =>
            rw [List.intercalate_cons_cons] at empty
            simp [nonempty] at empty
  by_cases bare : others = []
  · rw [bare] at same ⊢
    exact filled plain same
  · have listed : parts ≠ [] := by
      intro empty
      rw [empty] at same
      exact bare (filled plain' same.symm)
    have whole := List.splitOn_intercalate mark (fun part member => (plain part member).1) listed
    have whole' := List.splitOn_intercalate mark (fun part member => (plain' part member).1) bare
    rw [← whole, same, whole']

theorem not_mem_of_mem_splitOn {whole part : List α} (member : part ∈ whole.splitOn mark) :
    mark ∉ part := by
  induction whole generalizing part with
  | nil =>
      rw [List.splitOn_nil, List.mem_singleton] at member
      rw [member]
      exact List.not_mem_nil
  | cons item rest ih =>
      rw [List.splitOn_cons_eq_if_modifyHead] at member
      split at member
      · rcases List.mem_cons.mp member with rfl | later
        · exact List.not_mem_nil
        · exact ih later
      · next other =>
          cases shape : rest.splitOn mark with
          | nil => exact absurd shape (List.splitOn_ne_nil mark rest)
          | cons first more =>
              rw [shape, List.modifyHead_cons] at member
              rcases List.mem_cons.mp member with rfl | later
              · have plain : mark ∉ first := ih (by rw [shape]; exact List.mem_cons_self)
                intro inside
                rcases List.mem_cons.mp inside with same | inFirst
                · rw [same, beq_self_eq_true] at other
                  exact other rfl
                · exact plain inFirst
              · exact ih (by rw [shape]; exact .tail _ later)

/-- The parts of a list together hold what is no mark. -/
theorem flatten_splitOn (whole : List α) :
    (whole.splitOn mark).flatten = whole.filter (· ≠ mark) := by
  have plain : ∀ part ∈ whole.splitOn mark, mark ∉ part := fun _ member =>
    not_mem_of_mem_splitOn member
  have joined := filter_intercalate plain
  rw [List.intercalate_splitOn] at joined
  exact joined.symm

end ZabbixPortal.Foundation
