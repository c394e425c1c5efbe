import Mathlib.Data.List.Induction

/-! Items that are served one after another, each with what is left for it by those before it. -/

set_option autoImplicit false

namespace ZabbixPortal.Foundation

variable {α β : Type} {choose : List β → α → Option β}

def greedy (choose : List β → α → Option β) (items : List α) : List β :=
  items.foldl (fun taken item => taken ++ (choose taken item).toList) []

theorem greedy_concat (items : List α) (item : α) :
    greedy choose (items ++ [item]) = greedy choose items ++ (choose (greedy choose items) item).toList := by
  unfold greedy
  rw [List.foldl_append]
  rfl

/-- What is taken is what some item took in its turn. -/
theorem mem_greedy_iff {items : List α} {taken : β} : taken ∈ greedy choose items ↔
    ∃ before item after, items = before ++ item :: after ∧ choose (greedy choose before) item = some taken := by
  induction items using List.reverseRecOn with
  | nil => simp [greedy]
  | append_singleton items last ih =>
      rw [greedy_concat, List.mem_append, ih, Option.mem_toList]
      constructor
      · intro either
        cases either with
        | inl earlier =>
            obtain ⟨before, item, after, split, took⟩ := earlier
            exact ⟨before, item, after ++ [last], by rw [split]; simp, took⟩
        | inr own => exact ⟨items, last, [], rfl, own⟩
      · intro turn
        obtain ⟨before, item, after, split, took⟩ := turn
        cases List.eq_nil_or_concat after with
        | inl empty =>
            subst empty
            obtain ⟨rfl, same⟩ := List.append_inj' split rfl
            cases same
            exact .inr took
        | inr more =>
            obtain ⟨rest, final, rfl⟩ := more
            rw [List.concat_eq_append, ← List.cons_append, ← List.append_assoc] at split
            exact .inl ⟨before, item, rest, (List.append_inj' split rfl).1, took⟩

/-- What an earlier item took is there when a later one's turn comes. -/
theorem mem_greedy_of_turn {before between : List α} {item : α} {taken : β}
    (took : choose (greedy choose before) item = some taken) :
    taken ∈ greedy choose (before ++ item :: between) :=
  mem_greedy_iff.mpr ⟨before, item, between, rfl, took⟩

end ZabbixPortal.Foundation
