import Mathlib.Init
import Mathlib.Data.List.Induction
import Mathlib.Data.Option.Basic
import Mathlib.Data.List.Dedup

/-! Runs of a labelled step relation, the rule that carries an invariant along one, and
what holds at every step of a list of steps. -/

set_option autoImplicit false

namespace ZabbixPortal.Foundation

variable {State Label : Type} {step : State → Label → State → Prop}

/-- The states reached by taking labelled steps one after another. -/
inductive Run (step : State → Label → State → Prop) : State → List Label → State → Prop where
  | nil (state : State) : Run step state [] state
  | snoc {first middle last : State} {labels : List Label} {label : Label} :
      Run step first labels middle → step middle label last →
      Run step first (labels ++ [label]) last

theorem Run.cons {first middle last : State} {label : Label} {labels : List Label}
    (front : step first label middle) (run : Run step middle labels last) :
    Run step first (label :: labels) last := by
  induction run with
  | nil => exact .snoc (.nil first) front
  | snoc _ later ih => exact .snoc ih later

theorem Run.append {first middle last : State} {early late : List Label}
    (left : Run step first early middle) (right : Run step middle late last) :
    Run step first (early ++ late) last := by
  induction right with
  | nil => exact (List.append_nil early).symm ▸ left
  | snoc _ later ih => exact (List.append_assoc early _ _) ▸ .snoc ih later

/-- A run of steps is one of weaker steps. -/
theorem Run.weaken {weaker : State → Label → State → Prop}
    (implies : ∀ state label next, step state label next → weaker state label next)
    {first last : State} {labels : List Label} (run : Run step first labels last) :
    Run weaker first labels last := by
  induction run with
  | nil => exact .nil _
  | snoc _ later ih => exact .snoc ih (implies _ _ _ later)

/-- What every step preserves holds at the end of a run that starts with it. -/
theorem Run.invariant (holds : State → Prop)
    (preserved : ∀ state label next, holds state → step state label next → holds next)
    {first last : State} {labels : List Label} (run : Run step first labels last)
    (start : holds first) : holds last := by
  induction run with
  | nil => exact start
  | snoc _ last ih => exact preserved _ _ _ ih last

/-- The steps of a run only take labels it lists. -/
theorem Run.invariant_of_labels (holds : State → Prop) (allowed : Label → Prop)
    (preserved : ∀ state label next, holds state → allowed label → step state label next →
      holds next)
    {first last : State} {labels : List Label} (run : Run step first labels last)
    (labelled : ∀ label ∈ labels, allowed label) (start : holds first) : holds last := by
  induction run with
  | nil => exact start
  | snoc _ last ih =>
      refine preserved _ _ _ (ih fun label member => labelled label (by simp [member])) ?_ last
      exact labelled _ (by simp)

/-- What holds of every item and of the items before it, one item at a time. -/
theorem forall_split_snoc {α : Type} {holds : List α → α → Prop} {items : List α} {last : α} :
    (∀ before item after, items ++ [last] = before ++ item :: after → holds before item) ↔
      (∀ before item after, items = before ++ item :: after → holds before item) ∧
        holds items last := by
  constructor
  · intro all
    refine ⟨fun before item after split => all before item (after ++ [last]) ?_,
      all items last [] rfl⟩
    rw [split, List.append_assoc, List.cons_append]
  · rintro ⟨earlier, own⟩ before item after split
    cases List.eq_nil_or_concat after with
    | inl empty =>
        subst empty
        obtain ⟨rfl, same⟩ := List.append_inj' split rfl
        exact (List.singleton_inj.mp same) ▸ own
    | inr more =>
        obtain ⟨rest, final, rfl⟩ := more
        rw [List.concat_eq_append, ← List.cons_append, ← List.append_assoc] at split
        exact earlier before item rest (List.append_inj' split rfl).1

def withPast {α : Type} (past : List α) : List α → List (List α × α)
  | [] => []
  | item :: rest => (past, item) :: withPast (past ++ [item]) rest

theorem withPast_snoc {α : Type} (past items : List α) (last : α) :
    withPast past (items ++ [last]) = withPast past items ++ [(past ++ items, last)] := by
  induction items generalizing past with
  | nil => simp [withPast]
  | cons item rest ih => simp [withPast, ih]

theorem mem_withPast {α : Type} (past before : List α) (item : α) (after : List α) :
    (past ++ before, item) ∈ withPast past (before ++ item :: after) := by
  induction before generalizing past with
  | nil => simp [withPast]
  | cons first before ih =>
      have later := ih (past ++ [first])
      rw [List.append_assoc, List.singleton_append] at later
      exact List.mem_cons_of_mem _ later

end ZabbixPortal.Foundation

/-! A slot of a machine's state that some steps set and others empty: what it holds was set by
the last step that set it, and every step since has kept it. -/

namespace ZabbixPortal.Foundation

variable {State Event β : Type} (step : State → Event → State) (slot : State → Option β)
  (sets : State → Event → Option β) (keeps : State → Event → β → Bool)

def SlotLaw : Prop :=
  ∀ state event, slot (step state event) = (sets state event).or ((slot state).filter (keeps state event))

def Kept (start : State) (events : List Event) (value : β) : Prop :=
  ∀ before event after, events = before ++ event :: after →
    sets (before.foldl step start) event = none ∧
      keeps (before.foldl step start) event value = true

def SetBefore (start : State) (events : List Event) (value : β) : Prop :=
  ∃ before event after, events = before ++ event :: after ∧
    sets (before.foldl step start) event = some value ∧
    Kept step sets keeps (step (before.foldl step start) event) after value

variable {step slot sets keeps}

theorem kept_snoc {start : State} {events : List Event} {event : Event} {value : β} :
    Kept step sets keeps start (events ++ [event]) value ↔
      Kept step sets keeps start events value ∧
        sets (events.foldl step start) event = none ∧
        keeps (events.foldl step start) event value = true := by
  constructor
  · intro kept
    refine ⟨fun before own after split => kept before own (after ++ [event]) ?_,
      kept events event [] rfl⟩
    rw [split, List.append_assoc, List.cons_append]
  · rintro ⟨earlier, last⟩ before own after split
    cases List.eq_nil_or_concat after with
    | inl empty =>
        subst empty
        obtain ⟨rfl, same⟩ := List.append_inj' split rfl
        exact List.singleton_inj.mp same ▸ last
    | inr more =>
        obtain ⟨rest, final, rfl⟩ := more
        rw [List.concat_eq_append, ← List.cons_append, ← List.append_assoc] at split
        exact earlier before own rest (List.append_inj' split rfl).1

theorem slot_iff (law : SlotLaw step slot sets keeps) {start : State} (empty : slot start = none)
    (events : List Event) (value : β) :
    slot (events.foldl step start) = some value ↔
      SetBefore step sets keeps start events value := by
  induction events using List.reverseRecOn with
  | nil =>
      rw [List.foldl_nil, empty]
      constructor
      · intro held
        cases held
      · rintro ⟨before, event, after, split, _⟩
        simp at split
  | append_singleton events event ih =>
      rw [List.foldl_append, List.foldl_cons, List.foldl_nil, law, Option.or_eq_some_iff,
        Option.filter_eq_some_iff, ih]
      constructor
      · rintro (set | ⟨unset, ⟨before, own, after, split, found, kept⟩, keep⟩)
        · exact ⟨events, event, [], rfl, set, fun _ _ _ split => by simp at split⟩
        · refine ⟨before, own, after ++ [event], by rw [split]; simp, found, ?_⟩
          refine kept_snoc.mpr ⟨kept, ?_⟩
          rw [split, List.foldl_append] at unset keep
          exact ⟨unset, keep⟩
      · rintro ⟨before, own, after, split, found, kept⟩
        cases List.eq_nil_or_concat after with
        | inl bare =>
            subst bare
            obtain ⟨rfl, same⟩ := List.append_inj' split rfl
            exact .inl (List.singleton_inj.mp same ▸ found)
        | inr more =>
            obtain ⟨rest, final, rfl⟩ := more
            rw [List.concat_eq_append, ← List.cons_append, ← List.append_assoc] at split
            obtain ⟨rfl, same⟩ := List.append_inj' split rfl
            obtain rfl := List.singleton_inj.mp same
            rw [List.concat_eq_append] at kept
            obtain ⟨earlier, unset, keep⟩ := kept_snoc.mp kept
            refine .inr ⟨?_, ⟨before, own, rest, rfl, found, earlier⟩, ?_⟩
            · rw [List.foldl_append]; exact unset
            · rw [List.foldl_append]; exact keep

end ZabbixPortal.Foundation

/-! Items in the order they were last used: `List.dedup` of the list of uses, which keeps
the last of every item. -/

namespace ZabbixPortal.Foundation

variable {α : Type} [DecidableEq α]

/-- Using an item moves it to the end. -/
theorem dedup_use (uses : List α) (item : α) :
    (uses ++ [item]).dedup = (uses.dedup.filter fun other => other ≠ item) ++ [item] := by
  induction uses with
  | nil => rfl
  | cons first rest ih =>
      rw [List.cons_append]
      by_cases again : first ∈ rest
      · rw [List.dedup_cons_of_mem (List.mem_append_left _ again), List.dedup_cons_of_mem again, ih]
      · rw [List.dedup_cons_of_notMem again]
        by_cases same : first = item
        · subst same
          rw [List.dedup_cons_of_mem (List.mem_append_right _ List.mem_cons_self), ih,
            List.filter_cons_of_neg (by simp)]
        · have fresh : first ∉ rest ++ [item] := by
            intro member
            cases List.mem_append.mp member with
            | inl inRest => exact again inRest
            | inr isItem => exact same (List.mem_singleton.mp isItem)
          rw [List.dedup_cons_of_notMem fresh, ih, List.filter_cons_of_pos (by simpa using same),
            List.cons_append]

/-- Keys kept in the order of their last use stay so when one is used, in place of its old
place. -/
theorem sublist_dedup_use {keys uses : List α} (ordered : keys.Sublist uses.dedup) (item : α) :
    ((keys.filter fun other => other ≠ item) ++ [item]).Sublist (uses ++ [item]).dedup := by
  rw [dedup_use]
  exact (ordered.filter _).append (List.Sublist.refl _)

end ZabbixPortal.Foundation
