import ZabbixPortal.Foundation.Pattern

/-! Which characters a greedy pattern takes first, and which it can take at all. -/

set_option autoImplicit false

namespace ZabbixPortal.Foundation

/-- The pattern's first try reads the text down to `rest` and captures `found`, newest first. -/
def Reads (pattern : Pattern) (text rest : List Char) (found : List (Nat × List Char)) : Prop :=
  ∀ before groups, ∃ before',
    (pattern.run ⟨before, text, groups⟩).head? = some ⟨before', rest, found ++ groups⟩

namespace Reads

variable {first second body : Pattern} {text middle taken rest : List Char}
variable {found foundMore : List (Nat × List Char)}

theorem empty (text : List Char) : Reads .empty text text [] := fun before _ => ⟨before, rfl⟩

theorem stop : Reads .stop [] [] [] := fun before _ => ⟨before, rfl⟩

theorem seq (firstReads : Reads first text middle found)
    (secondReads : Reads second middle rest foundMore) :
    Reads (.seq first second) text rest (foundMore ++ found) := by
  intro before groups
  obtain ⟨between, firstHead⟩ := firstReads before groups
  obtain ⟨after, secondHead⟩ := secondReads between (found ++ groups)
  refine ⟨after, ?_⟩
  obtain ⟨others, shape⟩ := List.head?_eq_some_iff.mp firstHead
  rw [List.append_assoc, Pattern.run_seq, shape, List.flatMap_cons, List.head?_append, secondHead]
  rfl

theorem group (index : Nat) (bodyReads : Reads body (taken ++ rest) rest found) :
    Reads (.group index body) (taken ++ rest) rest ((index, taken) :: found) := by
  intro before groups
  obtain ⟨after, head⟩ := bodyReads before groups
  refine ⟨after, ?_⟩
  have captured : (taken ++ rest).take ((taken ++ rest).length - rest.length) = taken := by
    rw [List.length_append, Nat.add_sub_cancel, List.take_left]
  rw [Pattern.run_group, List.head?_map, head, Option.map_some, Cursor.capture, captured]
  rfl

section Repeated

variable {accepts : Char → Bool} {least : Nat}

/-- Counts up to a limit, the largest first. -/
theorem head?_counts {limit : Nat} (enough : least ≤ limit) :
    ((List.range (limit + 1)).filter fun count => least ≤ count).reverse.head? = some limit := by
  rw [List.range_succ, List.filter_append, List.filter_singleton, decide_eq_true enough,
    cond_true, List.reverse_append]
  rfl

theorem available (accepted : ∀ c ∈ taken, accepts c = true)
    (stops : ∀ c ∈ rest.head?, accepts c = false) :
    ((taken ++ rest).takeWhile accepts).length = taken.length := by
  have empty : rest.takeWhile accepts = [] := by
    cases rest with
    | nil => rfl
    | cons c rest => rw [List.takeWhile_cons, stops c rfl]; rfl
  rw [List.takeWhile_append_of_pos accepted, empty, List.append_nil]

private theorem advanced (taken rest : List Char) (before : Option Char)
    (groups : List (Nat × List Char)) :
    ∃ before', (Cursor.mk before (taken ++ rest) groups).advance taken.length =
      ⟨before', rest, groups⟩ := by
  refine ⟨taken.getLast?.or before, ?_⟩
  rw [Cursor.advance, List.take_left, List.drop_left]

theorem repeated (enough : least ≤ taken.length) (accepted : ∀ c ∈ taken, accepts c = true)
    (stops : ∀ c ∈ rest.head?, accepts c = false) :
    Reads (.repeated accepts least none true) (taken ++ rest) rest [] := by
  intro before groups
  obtain ⟨after, moved⟩ := advanced taken rest before groups
  refine ⟨after, ?_⟩
  rw [Pattern.run_repeated, List.head?_map, repetitions]
  dsimp only
  rw [available accepted stops, if_pos rfl, head?_counts enough, Option.map_some, moved]
  rfl

/-- A bounded repetition that takes what it may, or all there is. -/
theorem repeatedUpTo {most : Nat} (enough : least ≤ taken.length) (bounded : taken.length ≤ most)
    (accepted : ∀ c ∈ taken, accepts c = true)
    (stops : taken.length = most ∨ ∀ c ∈ rest.head?, accepts c = false) :
    Reads (.repeated accepts least (some most) true) (taken ++ rest) rest [] := by
  intro before groups
  obtain ⟨after, moved⟩ := advanced taken rest before groups
  refine ⟨after, ?_⟩
  have limit : min most ((taken ++ rest).takeWhile accepts).length = taken.length := by
    rcases stops with full | ends
    · rw [List.takeWhile_append_of_pos accepted, List.length_append, ← full]
      exact Nat.min_eq_left (Nat.le_add_right _ _)
    · rw [available accepted ends]
      exact Nat.min_eq_right bounded
  rw [Pattern.run_repeated, List.head?_map, repetitions]
  dsimp only
  rw [limit, if_pos rfl, head?_counts enough, Option.map_some, moved]
  rfl

end Repeated

theorem exec {pattern : Pattern} (reads : Reads pattern text [] found) :
    ∃ before, pattern.exec text = some ⟨before, [], found⟩ := by
  obtain ⟨before, head⟩ := reads none []
  rw [List.append_nil] at head
  exact ⟨before, head⟩

end Reads

def Pattern.accepted : Pattern → Char → Bool
  | .empty, _ => false
  | .one accepts, c => accepts c
  | .repeated accepts _ _ _, c => accepts c
  | .seq first second, c => first.accepted c || second.accepted c
  | .alt first second, c => first.accepted c || second.accepted c
  | .group _ body, c => body.accepted c
  | .boundary, _ => false
  | .stop, _ => false

/-- What a pattern takes, its classes accept. -/
theorem accepted_of_mem_run {pattern : Pattern} {cursor final : Cursor}
    (matched : final ∈ pattern.run cursor) :
    ∃ taken, cursor.rest = taken ++ final.rest ∧ ∀ c ∈ taken, pattern.accepted c = true := by
  induction pattern generalizing cursor final with
  | empty =>
      have same : final = cursor := by simpa [Pattern.run_empty] using matched
      exact ⟨[], by rw [same]; rfl, by simp⟩
  | one accepts =>
      obtain ⟨c, rest, shape, own, rfl⟩ := (mem_run_one accepts cursor final).mp matched
      exact ⟨[c], shape, fun d member => by rwa [List.mem_singleton.mp member]⟩
  | repeated accepts least most greedy =>
      obtain ⟨count, isCount, rfl⟩ := List.mem_map.mp matched
      have few : count ≤ (cursor.rest.takeWhile accepts).length := by
        unfold repetitions at isCount
        cases most <;> cases greedy <;>
          simp only [Bool.false_eq_true, ↓reduceIte, List.mem_reverse, List.mem_filter,
            List.mem_range] at isCount <;> omega
      refine ⟨cursor.rest.take count, (List.take_append_drop count cursor.rest).symm, ?_⟩
      intro c member
      have leading : cursor.rest.take count <+: cursor.rest.takeWhile accepts :=
        List.prefix_of_prefix_length_le (List.take_prefix _ _) (List.takeWhile_prefix _)
          ((List.length_take_le _ _).trans few)
      exact List.mem_takeWhile_imp (leading.subset member)
  | seq first second ihFirst ihSecond =>
      obtain ⟨middle, inFirst, inSecond⟩ := (mem_run_seq _ _ _ _).mp matched
      obtain ⟨taken, shape, own⟩ := ihFirst inFirst
      obtain ⟨more, shapeMore, ownMore⟩ := ihSecond inSecond
      refine ⟨taken ++ more, by rw [shape, shapeMore, List.append_assoc], fun c member => ?_⟩
      rcases List.mem_append.mp member with inTaken | inMore
      · exact Bool.or_eq_true_iff.mpr (.inl (own c inTaken))
      · exact Bool.or_eq_true_iff.mpr (.inr (ownMore c inMore))
  | alt first second ihFirst ihSecond =>
      rcases List.mem_append.mp matched with inFirst | inSecond
      · obtain ⟨taken, shape, own⟩ := ihFirst inFirst
        exact ⟨taken, shape, fun c member => Bool.or_eq_true_iff.mpr (.inl (own c member))⟩
      · obtain ⟨taken, shape, own⟩ := ihSecond inSecond
        exact ⟨taken, shape, fun c member => Bool.or_eq_true_iff.mpr (.inr (own c member))⟩
  | group index body ih =>
      obtain ⟨closed, inBody, rfl⟩ := List.mem_map.mp matched
      obtain ⟨taken, shape, own⟩ := ih inBody
      exact ⟨taken, shape, own⟩
  | boundary =>
      have same : final = cursor := by
        rw [Pattern.run_boundary] at matched
        split at matched
        · cases matched
        · exact List.mem_singleton.mp matched
      exact ⟨[], by rw [same]; rfl, by simp⟩
  | stop =>
      have same : final = cursor := by
        rw [Pattern.run_stop] at matched
        split at matched
        · exact List.mem_singleton.mp matched
        · cases matched
      exact ⟨[], by rw [same]; rfl, by simp⟩

/-- A sequence that ends at the end of the text leaves nothing. -/
theorem rest_of_mem_run_stop {parts : List Pattern} {cursor final : Cursor}
    (matched : final ∈ (Pattern.sequence (parts ++ [.stop])).run cursor) : final.rest = [] := by
  induction parts generalizing cursor with
  | nil =>
      obtain ⟨middle, stopped, later⟩ := (mem_run_seq _ _ _ _).mp matched
      have same : final = middle := List.mem_singleton.mp later
      rw [Pattern.run_stop] at stopped
      split at stopped
      · next ended =>
          rw [same, List.mem_singleton.mp stopped]
          exact List.isEmpty_iff.mp ended
      · cases stopped
  | cons part parts ih =>
      obtain ⟨middle, -, later⟩ := (mem_run_seq _ _ _ _).mp matched
      exact ih later

/-- A pattern that reads the whole text accepts each of its characters. -/
theorem exec_eq_none_of_mem (parts : List Pattern) {text : List Char} {c : Char} (member : c ∈ text)
    (foreign : (Pattern.sequence (parts ++ [.stop])).accepted c = false) :
    (Pattern.sequence (parts ++ [.stop])).exec text = none := by
  by_contra read
  obtain ⟨final, matched⟩ := (exec_ne_none_iff _ _).mp read
  obtain ⟨taken, shape, own⟩ := accepted_of_mem_run matched
  rw [rest_of_mem_run_stop matched, List.append_nil] at shape
  have inTaken : c ∈ taken := by
    rw [← shape]
    exact member
  rw [own c inTaken] at foreign
  cases foreign

end ZabbixPortal.Foundation
