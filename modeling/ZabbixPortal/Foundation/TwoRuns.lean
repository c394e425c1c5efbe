import Mathlib.Init

/-! Two stateful computations run side by side from related states: rules under which the states
stay related and the results alike. Nothing is said of runs that end in a state that is not
`valid`, which no computation leaves again. -/

set_option autoImplicit false

namespace ZabbixPortal.Foundation

/-- A computation on a state that keeps the state when it fails. -/
abbrev Stateful (σ ε α : Type) := ExceptT ε (StateM σ) α

namespace Stateful

variable {σ ε α β : Type} {valid : σ → Prop}

theorem bind_run (f : Stateful σ ε α) (k : α → Stateful σ ε β) (s : σ) :
    (f >>= k) s = match f s with
      | (.ok a, s') => k a s'
      | (.error e, s') => (.error e, s') := by
  change ExceptT.bindCont k (f s).1 (f s).2 = _
  generalize f s = ran
  obtain ⟨result, after⟩ := ran
  cases result <;> rfl

def Persists (valid : σ → Prop) (f : Stateful σ ε α) : Prop := ∀ s, valid (f s).2 → valid s

namespace Persists

theorem pure (a : α) : Persists valid (pure a : Stateful σ ε α) := fun _ => id

theorem throw (e : ε) : Persists valid (throw e : Stateful σ ε α) := fun _ => id

theorem bind {f : Stateful σ ε α} {k : α → Stateful σ ε β} (first : Persists valid f)
    (next : ∀ a, Persists valid (k a)) : Persists valid (f >>= k) := by
  intro s after
  rw [bind_run] at after
  refine first s ?_
  generalize f s = ran at after
  match ran, after with
  | (.ok a, _), after => exact next a _ after
  | (.error _, _), after => exact after

end Persists

end Stateful

inductive ResultsAlike {ε α β : Type} (alike : α → β → Prop) : Except ε α → Except ε β → Prop where
  | ok {a : α} {b : β} (values : alike a b) : ResultsAlike alike (.ok a) (.ok b)
  | error (e : ε) : ResultsAlike alike (.error e) (.error e)

theorem ResultsAlike.eq {ε α : Type} {left right : Except ε α}
    (same : ResultsAlike (fun a b => a = b) left right) : left = right := by
  cases same with
  | ok values => exact congrArg Except.ok values
  | error e => rfl

theorem ResultsAlike.mono {ε α β : Type} {alike weaker : α → β → Prop} {left : Except ε α}
    {right : Except ε β} (results : ResultsAlike alike left right)
    (weak : ∀ a b, alike a b → weaker a b) : ResultsAlike weaker left right := by
  cases results with
  | ok values => exact .ok (weak _ _ values)
  | error e => exact .error e

def Lockstep {σ ε α β : Type} (valid : σ → Prop) (related : σ → σ → Prop)
    (alike : α → β → Prop) (left : Stateful σ ε α) (right : Stateful σ ε β) : Prop :=
  ∀ s t, related s t → valid (left s).2 → valid (right t).2 →
    related (left s).2 (right t).2 ∧ ResultsAlike alike (left s).1 (right t).1

namespace Lockstep

variable {σ ε α β γ δ : Type} {valid : σ → Prop} {related : σ → σ → Prop}
  {alike : α → β → Prop} {alike' : γ → δ → Prop}

theorem pure {a : α} {b : β} (values : alike a b) :
    Lockstep valid related alike (pure a : Stateful σ ε α) (pure b) :=
  fun _ _ states _ _ => ⟨states, .ok values⟩

theorem throw (e : ε) :
    Lockstep valid related alike (throw e : Stateful σ ε α) (throw e : Stateful σ ε β) :=
  fun _ _ states _ _ => ⟨states, .error e⟩

theorem weaken {weaker : α → β → Prop} {left : Stateful σ ε α} {right : Stateful σ ε β}
    (step : Lockstep valid related alike left right) (weak : ∀ a b, alike a b → weaker a b) :
    Lockstep valid related weaker left right := by
  intro s t states after after'
  obtain ⟨kept, results⟩ := step s t states after after'
  exact ⟨kept, results.mono weak⟩

theorem bind {left : Stateful σ ε α} {right : Stateful σ ε β} {next : α → Stateful σ ε γ}
    {next' : β → Stateful σ ε δ} (first : Lockstep valid related alike left right)
    (persists : ∀ a, (next a).Persists valid) (persists' : ∀ b, (next' b).Persists valid)
    (rest : ∀ a b, alike a b → Lockstep valid related alike' (next a) (next' b)) :
    Lockstep valid related alike' (left >>= next) (right >>= next') := by
  intro s t states after after'
  have both := first s t states
  rw [Stateful.bind_run] at after ⊢
  rw [Stateful.bind_run] at after' ⊢
  generalize left s = ran at both after ⊢
  generalize right t = ran' at both after' ⊢
  match ran, ran' with
  | (.ok a, s'), (.ok b, t') =>
      obtain ⟨kept, results⟩ := both (persists a s' after) (persists' b t' after')
      cases results with
      | ok values => exact rest a b values s' t' kept after after'
  | (.ok a, s'), (.error e, t') =>
      obtain ⟨_, results⟩ := both (persists a s' after) after'
      cases results
  | (.error e, s'), (.ok b, t') =>
      obtain ⟨_, results⟩ := both after (persists' b t' after')
      cases results
  | (.error e, s'), (.error e', t') =>
      obtain ⟨kept, results⟩ := both after after'
      cases results
      exact ⟨kept, .error e⟩

end Lockstep

end ZabbixPortal.Foundation
