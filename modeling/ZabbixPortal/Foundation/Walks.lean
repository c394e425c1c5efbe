import Mathlib.Data.List.Chain
import Mathlib.Data.List.Nodup
import Mathlib.Logic.Relation

/-! Paths of a step relation below a point: without cycles, and no longer than some number of
links. -/

set_option autoImplicit false

namespace ZabbixPortal.Foundation

open Relation

section Walks

variable {α : Type} (step : α → α → Prop)

def NoCycleBelow (start : α) : Prop := ∀ point, ReflTransGen step start point →
  ¬ TransGen step point point

/-- No path, which passes no point twice, has more than so many links. -/
def PathsWithin (links : Nat) (start : α) : Prop :=
  ∀ path, (start :: path).IsChain step → (start :: path).Nodup → path.length ≤ links

variable {step} {start next : α}

theorem NoCycleBelow.of_step (acyclic : NoCycleBelow step start) (leads : step start next) :
    NoCycleBelow step next := fun point reached =>
  acyclic point (ReflTransGen.head leads reached)

/-- Without cycles a walk passes no point twice. -/
theorem NoCycleBelow.nodup {path : List α} (acyclic : NoCycleBelow step start)
    (chain : (start :: path).IsChain step) : (start :: path).Nodup := by
  have later : (start :: path).Pairwise (TransGen step) :=
    List.isChain_iff_pairwise.mp (chain.imp fun _ _ leads => TransGen.single leads)
  refine List.Pairwise.imp_of_mem ?_ later
  intro left right inPath _ leads same
  subst same
  have reached : ReflTransGen step start left := by
    rcases List.mem_cons.mp inPath with rfl | behind
    · exact ReflTransGen.refl
    · exact ((List.pairwise_cons.mp later).1 left behind).to_reflTransGen
  exact acyclic left reached leads

theorem PathsWithin.of_step {links : Nat} (within : PathsWithin step (links + 1) start)
    (acyclic : NoCycleBelow step start) (leads : step start next) :
    PathsWithin step links next := by
  intro path chain _
  have longer : (start :: next :: path).IsChain step := List.IsChain.cons_cons leads chain
  have bound := within (next :: path) longer (acyclic.nodup longer)
  rw [List.length_cons] at bound
  omega

theorem PathsWithin.not_step (within : PathsWithin step 0 start)
    (acyclic : NoCycleBelow step start) : ¬ step start next := by
  intro leads
  have chain : [start, next].IsChain step := List.isChain_pair.mpr leads
  have bound := within [next] chain (acyclic.nodup chain)
  rw [List.length_singleton] at bound
  omega

/-- Where every link goes down in rank there is no cycle, and no path is longer than the rank it
starts at. -/
theorem noCycleBelow_of_rank {rank : α → Nat}
    (down : ∀ a b, ReflTransGen step start a → step a b → rank b < rank a) :
    NoCycleBelow step start := by
  have lower : ∀ {a b}, ReflTransGen step start a → TransGen step a b → rank b < rank a := by
    intro a b reached walk
    induction walk with
    | single leads => exact down _ _ reached leads
    | tail before leads ih =>
        have further := down _ _ (reached.trans before.to_reflTransGen) leads
        omega
  intro point reached cycle
  exact lt_irrefl _ (lower reached cycle)

theorem pathsWithin_of_rank {rank : α → Nat} {links : Nat}
    (down : ∀ a b, ReflTransGen step start a → step a b → rank b < rank a)
    (low : rank start ≤ links) : PathsWithin step links start := by
  intro path chain once
  induction path generalizing start links with
  | nil => exact Nat.zero_le _
  | cons next path ih =>
      obtain ⟨leads, rest⟩ := List.isChain_cons_cons.mp chain
      have lower := down start next ReflTransGen.refl leads
      have shorter := @ih next (links - 1) (fun a b reached => down a b (ReflTransGen.head leads reached))
        (by omega) rest (List.nodup_cons.mp once).2
      rw [List.length_cons]
      omega

end Walks

end ZabbixPortal.Foundation
