import ZabbixPortal.Foundation.Runs
import Mathlib.Data.Rat.Floor
import Mathlib.Data.List.Perm.Basic
import Mathlib.Data.List.Range

/-! `mapLimit`: workers that share one cursor over the items, each with one call of `fn` open. -/

set_option autoImplicit false

namespace ZabbixPortal.Sli

inductive Limit
  | nan
  | minusInfinity
  | finite (value : ℚ)
  | infinity

/-- How many workers there are: `Math.max(1, Math.min(limit, items.length))`, as an array's length. -/
def workersOf (limit : Limit) (items : Nat) : Nat :=
  match limit with
  | .nan => 0
  | .minusInfinity => 1
  | .finite value => ⌊max 1 (min value items)⌋₊
  | .infinity => max 1 items

structure Settling (Out Error : Type) where
  index : Nat
  outcome : Except Error Out

structure MapLimit (In Out Error : Type) where
  items : List In
  /-- The slots of the result; those that no value has come for are empty. -/
  out : List (Option Out)
  next : Nat
  /-- The calls of `fn` that have been made. -/
  calls : List (In × Nat)
  /-- The calls that are open, each with a worker that waits for it. -/
  opened : List Nat
  /-- The workers that have found no more items. -/
  ended : Nat
  workers : Nat
  /-- What the promise settled with, once it has: `out`, or the first error. -/
  result : Option (Except Error (List (Option Out)))

namespace MapLimit

variable {In Out Error : Type} (m : MapLimit In Out Error)

def advance : MapLimit In Out Error :=
  match m.items[m.next]? with
  | some item =>
      { m with next := m.next + 1, calls := m.calls ++ [(item, m.next)], opened := m.opened ++ [m.next] }
  | none => { m with ended := m.ended + 1 }

def resolve : MapLimit In Out Error :=
  if m.ended = m.workers ∧ m.result.isNone then { m with result := some (.ok m.out) } else m

def start (items : List In) (limit : Limit) : MapLimit In Out Error :=
  let workers := workersOf limit items.length
  let begun : MapLimit In Out Error :=
    { items, out := List.replicate items.length none, next := 0, calls := [], opened := [], ended := 0,
      workers, result := none }
  (advance^[workers] begun).resolve

/-- A call settles: its worker fills the slot and goes on, or fails and `Promise.all` with it. -/
def settle (settling : Settling Out Error) : Option (MapLimit In Out Error) :=
  if settling.index ∈ m.opened then
    let left := { m with opened := m.opened.erase settling.index }
    match settling.outcome with
    | .ok value => some ({ left with out := left.out.set settling.index (some value) }.advance.resolve)
    | .error error => some { left with result := some (left.result.getD (.error error)) }
  else none

end MapLimit

/-! `mapLimit` calls `fn` once for each item and in order, with no more calls open than the limit, and
its result has each outcome in its item's place. -/

open Foundation

variable {In Out Error : Type}

def Settling.error? (settling : Settling Out Error) : Option Error :=
  match settling.outcome with
  | .ok _ => none
  | .error error => some error

def failedCalls (events : List (Settling Out Error)) : Nat :=
  events.countP fun settling => settling.error?.isSome

namespace MapLimit

variable {m next : MapLimit In Out Error} {events : List (Settling Out Error)} {busy : Nat}

/-- What holds of the cursor, the calls and the slots after these events while `busy` workers have
begun. -/
structure Shared (m : MapLimit In Out Error) (events : List (Settling Out Error)) (busy : Nat) :
    Prop where
  within : m.next ≤ m.items.length
  calls : m.calls = m.items.zipIdx.take m.next
  /-- Each call is open or has settled. -/
  each : (m.opened ++ events.map Settling.index).Perm (List.range m.next)
  /-- Each worker waits for its call, has ended or has failed. -/
  count : m.opened.length + m.ended + failedCalls events = busy
  exhausted : m.ended ≠ 0 → m.next = m.items.length
  slots : m.out.length = m.items.length
  filled : ∀ settling ∈ events, ∀ value, settling.outcome = .ok value →
    m.out[settling.index]? = some (some value)

theorem Shared.advance (shared : m.Shared events busy) : m.advance.Shared events (busy + 1) := by
  unfold MapLimit.advance
  have count := shared.count
  cases found : m.items[m.next]? with
  | none =>
      have beyond : m.items.length ≤ m.next := List.getElem?_eq_none_iff.mp found
      exact ⟨shared.within, shared.calls, shared.each, by simp only; omega,
        fun _ => shared.within.antisymm beyond, shared.slots, shared.filled⟩
  | some item =>
      obtain ⟨bound, same⟩ := List.getElem?_eq_some_iff.mp found
      refine ⟨bound, ?_, ?_, ?_, ?_, shared.slots, shared.filled⟩
      · have own : m.items.zipIdx[m.next]? = some (item, m.next) := by
          simp [List.getElem?_zipIdx, found]
        simp only [List.take_add_one, own, Option.toList_some, shared.calls]
      · have moved : (m.opened ++ [m.next] ++ events.map Settling.index).Perm
            (m.opened ++ events.map Settling.index ++ [m.next]) := by
          simp only [List.append_assoc]
          exact List.Perm.append_left m.opened List.perm_append_comm
        simp only [List.range_succ]
        exact moved.trans (shared.each.append_right [m.next])
      · simp only [List.length_append, List.length_singleton]
        omega
      · intro reached
        exact absurd (shared.exhausted reached) (Nat.ne_of_lt bound)

/-- A call that settles is no longer open. -/
theorem Shared.each_settle (shared : m.Shared events busy) {settling : Settling Out Error}
    (open_ : settling.index ∈ m.opened) :
    (m.opened.erase settling.index ++ (events ++ [settling]).map Settling.index).Perm
      (List.range m.next) := by
  have moved : (m.opened.erase settling.index ++ (events ++ [settling]).map Settling.index).Perm
      (settling.index :: m.opened.erase settling.index ++ events.map Settling.index) := by
    simp only [List.map_append, List.map_cons, List.map_nil, ← List.append_assoc]
    exact List.perm_append_singleton settling.index _
  have back : (settling.index :: m.opened.erase settling.index).Perm m.opened :=
    (List.perm_cons_erase open_).symm
  exact moved.trans ((back.append_right _).trans shared.each)

theorem Shared.fail (shared : m.Shared events busy) {settling : Settling Out Error} {error : Error}
    (open_ : settling.index ∈ m.opened) (failed : settling.outcome = .error error)
    (result : Option (Except Error (List (Option Out)))) :
    Shared { m with opened := m.opened.erase settling.index, result } (events ++ [settling]) busy := by
  refine ⟨shared.within, shared.calls, shared.each_settle open_, ?_, shared.exhausted, shared.slots, ?_⟩
  · have count := shared.count
    have positive := List.length_pos_of_mem open_
    simp only [failedCalls, List.countP_append, List.length_erase_of_mem open_, List.countP_singleton,
      Settling.error?, failed, Option.isSome_some, if_true] at count ⊢
    omega
  · intro other member value settled
    cases List.mem_append.mp member with
    | inl earlier => exact shared.filled other earlier value settled
    | inr own =>
        cases List.mem_singleton.mp own
        exact absurd (failed.symm.trans settled) (by simp)

theorem Shared.fill (shared : m.Shared events (busy + 1)) {settling : Settling Out Error} {value : Out}
    (open_ : settling.index ∈ m.opened) (done : settling.outcome = .ok value) :
    Shared { m with opened := m.opened.erase settling.index,
                    out := m.out.set settling.index (some value) } (events ++ [settling]) busy := by
  refine ⟨shared.within, shared.calls, shared.each_settle open_, ?_, shared.exhausted,
    (List.length_set ..).trans shared.slots, ?_⟩
  · have count := shared.count
    have positive := List.length_pos_of_mem open_
    simp only [failedCalls, List.countP_append, List.length_erase_of_mem open_, List.countP_singleton,
      Settling.error?, done, Option.isSome_none, Bool.false_eq_true, if_false] at count ⊢
    omega
  · have nodup : (m.opened ++ events.map Settling.index).Nodup :=
      shared.each.nodup_iff.mpr List.nodup_range
    intro other member result settled
    cases List.mem_append.mp member with
    | inl earlier =>
        have apart : settling.index ≠ other.index :=
          (List.nodup_append.mp nodup).2.2 _ open_ _ (List.mem_map_of_mem earlier)
        simp only [List.getElem?_set_ne apart]
        exact shared.filled other earlier result settled
    | inr own =>
        cases List.mem_singleton.mp own
        have called : settling.index ∈ List.range m.next :=
          shared.each.subset (List.mem_append_left _ open_)
        have bound : settling.index < m.out.length := by
          rw [shared.slots]
          exact (List.mem_range.mp called).trans_le shared.within
        have same : value = result := Except.ok.inj (done.symm.trans settled)
        simp only [List.getElem?_set_self bound, same]

/-- What the promise has settled with: the first error, or the slots once every worker has ended. -/
def answerAfter (m : MapLimit In Out Error) (events : List (Settling Out Error)) :
    Option (Except Error (List (Option Out))) :=
  match events.findSome? Settling.error? with
  | some error => some (.error error)
  | none => if m.ended = m.workers then some (.ok m.out) else none

structure Kept (m : MapLimit In Out Error) (events : List (Settling Out Error)) : Prop where
  shared : m.Shared events m.workers
  answer : m.result = m.answerAfter events

theorem advance_same (m : MapLimit In Out Error) : m.advance.items = m.items ∧
    m.advance.workers = m.workers ∧ m.advance.result = m.result ∧ m.advance.out = m.out := by
  unfold advance
  cases m.items[m.next]? <;> exact ⟨rfl, rfl, rfl, rfl⟩

theorem resolve_same (m : MapLimit In Out Error) : m.resolve.items = m.items ∧
    m.resolve.workers = m.workers := by
  unfold resolve
  split <;> exact ⟨rfl, rfl⟩

theorem Shared.resolve (shared : m.Shared events busy) : m.resolve.Shared events busy := by
  unfold MapLimit.resolve
  split
  · exact ⟨shared.within, shared.calls, shared.each, shared.count, shared.exhausted, shared.slots,
      shared.filled⟩
  · exact shared

/-- The answer of a call none of whose workers has failed. -/
theorem answer_resolve (pending : m.result = none)
    (fine : events.findSome? Settling.error? = none) :
    m.resolve.result = m.resolve.answerAfter events := by
  unfold answerAfter resolve
  rw [fine]
  by_cases all : m.ended = m.workers
  · simp [all, pending]
  · simp [all, pending]

theorem resolve_of_isSome (settled : m.result.isSome) : m.resolve = m := by
  unfold resolve
  have notNone : ¬ m.result.isNone := by
    simpa [Option.isSome_iff_ne_none] using settled
  rw [if_neg fun both => notNone both.2]

theorem Kept.settle (kept : m.Kept events) {settling : Settling Out Error}
    (taken : m.settle settling = some next) :
    next.Kept (events ++ [settling]) ∧ next.items = m.items ∧ next.workers = m.workers := by
  unfold MapLimit.settle at taken
  split at taken
  · next open_ =>
      have count := kept.shared.count
      have positive := List.length_pos_of_mem open_
      cases outcome : settling.outcome with
      | error error =>
          simp only [outcome, Option.some.injEq] at taken
          subst taken
          refine ⟨⟨kept.shared.fail open_ outcome _, ?_⟩, rfl, rfl⟩
          have answer := kept.answer
          unfold answerAfter at answer ⊢
          have own : [settling].findSome? Settling.error? = some error := by
            simp [Settling.error?, outcome]
          rw [List.findSome?_append, own]
          cases first : events.findSome? Settling.error? with
          | none =>
              have busy : m.ended ≠ m.workers := by omega
              simp only [first, if_neg busy] at answer
              simp only [answer, Option.getD_none, Option.none_or]
          | some earlier =>
              simp only [first] at answer
              simp only [answer, Option.getD_some, Option.some_or]
      | ok value =>
          simp only [outcome, Option.some.injEq] at taken
          have one : m.workers - 1 + 1 = m.workers := by omega
          have filled := (one.symm ▸ kept.shared).fill open_ outcome
          have advanced := one ▸ filled.advance
          obtain ⟨items, workers, result, _⟩ := advance_same
            { m with opened := m.opened.erase settling.index,
                     out := m.out.set settling.index (some value) }
          obtain ⟨sameItems, sameWorkers⟩ := resolve_same (MapLimit.advance
            { m with opened := m.opened.erase settling.index,
                     out := m.out.set settling.index (some value) })
          subst taken
          refine ⟨⟨?_, ?_⟩, sameItems.trans items, sameWorkers.trans workers⟩
          · rw [sameWorkers, workers]
            exact advanced.resolve
          · have answer := kept.answer
            have own : [settling].findSome? Settling.error? = none := by
              simp [Settling.error?, outcome]
            cases first : events.findSome? Settling.error? with
            | none =>
                have busy : m.ended ≠ m.workers := by omega
                unfold answerAfter at answer
                simp only [first, if_neg busy] at answer
                refine answer_resolve (result.trans answer) ?_
                rw [List.findSome?_append, first, own]
                rfl
            | some earlier =>
                unfold answerAfter at answer
                simp only [first] at answer
                rw [resolve_of_isSome (by rw [result, answer]; rfl)]
                unfold answerAfter
                rw [List.findSome?_append, first]
                exact result.trans answer
  · cases taken

theorem advances_shared (shared : m.Shared [] 0) (turns : Nat) :
    Shared (MapLimit.advance^[turns] m) [] turns ∧ (MapLimit.advance^[turns] m).items = m.items ∧
      (MapLimit.advance^[turns] m).workers = m.workers ∧
      (MapLimit.advance^[turns] m).result = m.result := by
  induction turns with
  | zero => exact ⟨shared, rfl, rfl, rfl⟩
  | succ turns ih =>
      rw [Function.iterate_succ_apply']
      obtain ⟨items, workers, result, _⟩ := advance_same (MapLimit.advance^[turns] m)
      exact ⟨ih.1.advance, items.trans ih.2.1, workers.trans ih.2.2.1, result.trans ih.2.2.2⟩

theorem start_kept (items : List In) (limit : Limit) :
    (start items limit : MapLimit In Out Error).Kept [] ∧
      (start items limit : MapLimit In Out Error).items = items ∧
      (start items limit : MapLimit In Out Error).workers = workersOf limit items.length := by
  unfold start
  let begun : MapLimit In Out Error :=
    { items, out := List.replicate items.length none, next := 0, calls := [], opened := [], ended := 0,
      workers := workersOf limit items.length, result := none }
  have first : begun.Shared [] 0 :=
    ⟨Nat.zero_le _, rfl, .nil, rfl, fun positive => absurd rfl positive, List.length_replicate,
      fun _ member => absurd member List.not_mem_nil⟩
  obtain ⟨shared, sameItems, workers, result⟩ := advances_shared first (workersOf limit items.length)
  obtain ⟨resolvedItems, resolvedWorkers⟩ :=
    resolve_same (MapLimit.advance^[workersOf limit items.length] begun)
  refine ⟨⟨?_, answer_resolve result rfl⟩, resolvedItems.trans sameItems, resolvedWorkers.trans workers⟩
  show ((MapLimit.advance^[workersOf limit items.length] begun).resolve).Shared []
    ((MapLimit.advance^[workersOf limit items.length] begun).resolve).workers
  rw [resolvedWorkers, workers]
  exact shared.resolve

end MapLimit

section Runs

open MapLimit

def Limit.Allows (limit : Limit) (count : Nat) : Prop :=
  match limit with
  | .nan => False
  | .minusInfinity => count ≤ 1
  | .finite value => (count : ℚ) ≤ max 1 value
  | .infinity => True

theorem Limit.allows_of_le {limit : Limit} (number : limit ≠ .nan) {items count : Nat}
    (most : count ≤ workersOf limit items) : limit.Allows count := by
  cases limit with
  | nan => exact absurd rfl number
  | minusInfinity => exact most
  | finite value =>
      have nonneg : (0 : ℚ) ≤ max 1 (min value items) := le_max_of_le_left zero_le_one
      have floor : (count : ℚ) ≤ max 1 (min value items) := (Nat.le_floor_iff nonneg).mp most
      exact floor.trans (max_le_max_left 1 (min_le_left value items))
  | infinity => trivial

theorem workersOf_pos {limit : Limit} (number : limit ≠ .nan) (items : Nat) :
    1 ≤ workersOf limit items := by
  cases limit with
  | nan => exact absurd rfl number
  | minusInfinity => exact le_rfl
  | finite value =>
      refine Nat.le_floor ?_
      rw [Nat.cast_one]
      exact le_max_left 1 _
  | infinity => exact le_max_left 1 items

def MapLimitStep (m : MapLimit In Out Error) (settling : Settling Out Error)
    (next : MapLimit In Out Error) : Prop := m.settle settling = some next

theorem kept_of_run {items : List In} {limit : Limit} {events : List (Settling Out Error)}
    {last : MapLimit In Out Error} (run : Run MapLimitStep (start items limit) events last) :
    last.Kept events ∧ last.items = items ∧ last.workers = workersOf limit items.length := by
  have startKept : (start items limit : MapLimit In Out Error).Kept [] ∧ _ := start_kept items limit
  obtain ⟨startKept, startItems, startWorkers⟩ := startKept
  generalize start items limit = first at *
  induction run with
  | nil => exact ⟨startKept, startItems, startWorkers⟩
  | snoc _ taken ih =>
      obtain ⟨kept, sameItems, workers⟩ := ih
      obtain ⟨nextKept, nextItems, nextWorkers⟩ := kept.settle taken
      exact ⟨nextKept, nextItems.trans sameItems, nextWorkers.trans workers⟩

structure KeepsOrder (items : List In) (limit : Limit) (events : List (Settling Out Error))
    (m : MapLimit In Out Error) : Prop where
  /-- The calls so far are the first items, each with its index. -/
  calls : m.calls = items.zipIdx.take m.next
  /-- Each of these calls is open or has settled, and only once. -/
  each : (m.opened ++ events.map Settling.index).Perm (List.range m.calls.length)
  bound : limit.Allows m.opened.length
  /-- Without a failing call it waits only for calls that are open, and when there are none left every
  item had its call and each slot has what its call came back with. -/
  resolves : (∀ settling ∈ events, settling.error? = none) →
    (m.opened ≠ [] ∧ m.result = none) ∨
      (m.opened = [] ∧ m.calls = items.zipIdx ∧ ∃ outcomes : List Out,
        m.result = some (.ok (outcomes.map some)) ∧ outcomes.length = items.length ∧
          ∀ settling ∈ events, ∃ value, settling.outcome = .ok value ∧
            outcomes[settling.index]? = some value)
  /-- With a failing call it has rejected, with the first error. -/
  rejects : (∃ settling ∈ events, settling.error?.isSome) →
    ∃ error, events.findSome? Settling.error? = some error ∧ m.result = some (.error error)

/-- Slots that are all filled are the list of their values. -/
theorem exists_values {Value : Type} {slots : List (Option Value)}
    (all : ∀ slot ∈ slots, slot.isSome) : ∃ values : List Value, slots = values.map some := by
  induction slots with
  | nil => exact ⟨[], rfl⟩
  | cons slot rest ih =>
      obtain ⟨values, same⟩ := ih fun later member => all later (List.mem_cons_of_mem slot member)
      obtain ⟨value, own⟩ := Option.isSome_iff_exists.mp (all slot List.mem_cons_self)
      exact ⟨value :: values, by rw [own, same, List.map_cons]⟩

/-- When no call is open and none has failed, every worker has ended and every slot is filled. -/
theorem MapLimit.Kept.finished {m : MapLimit In Out Error} {events : List (Settling Out Error)}
    (kept : m.Kept events) (positive : 1 ≤ m.workers) (fine : ∀ settling ∈ events, settling.error? = none)
    (idle : m.opened = []) : m.ended = m.workers ∧ m.next = m.items.length ∧
      ∃ outcomes : List Out, m.out = outcomes.map some := by
  have count := kept.shared.count
  have noneFailed : failedCalls events = 0 := by
    refine List.countP_eq_zero.mpr fun settling member => ?_
    simp [fine settling member]
  rw [idle, noneFailed, List.length_nil, Nat.zero_add, Nat.add_zero] at count
  have whole := kept.shared.exhausted (by omega)
  refine ⟨count, whole, exists_values fun slot member => ?_⟩
  obtain ⟨index, found⟩ := List.mem_iff_getElem?.mp member
  obtain ⟨bound, _⟩ := List.getElem?_eq_some_iff.mp found
  have each := kept.shared.each
  rw [idle, List.nil_append, whole, ← kept.shared.slots] at each
  obtain ⟨settling, settled, rfl⟩ := List.mem_map.mp (each.symm.subset (List.mem_range.mpr bound))
  cases outcome : settling.outcome with
  | error error =>
      have absent := fine settling settled
      simp [Settling.error?, outcome] at absent
  | ok value =>
      have filled := kept.shared.filled settling settled value outcome
      cases filled.symm.trans found
      rfl

theorem mapLimit_keepsOrder {items : List In} {limit : Limit} (number : limit ≠ .nan)
    {events : List (Settling Out Error)} {last : MapLimit In Out Error}
    (run : Run MapLimitStep (start items limit) events last) :
    KeepsOrder items limit events last := by
  obtain ⟨kept, sameItems, workers⟩ := kept_of_run run
  have positive := workersOf_pos number items.length
  have shared := kept.shared
  have count := shared.count
  have within := shared.within
  have calls := shared.calls
  have answer := kept.answer
  rw [sameItems] at calls within
  have called : last.calls.length = last.next := by
    rw [calls, List.length_take, List.length_zipIdx]
    exact min_eq_left within
  have most : last.opened.length ≤ workersOf limit items.length := by omega
  refine ⟨calls, called.symm ▸ shared.each, Limit.allows_of_le number most, ?_, ?_⟩
  · intro fine
    have noError : events.findSome? Settling.error? = none := List.findSome?_eq_none_iff.mpr fine
    unfold answerAfter at answer
    rw [noError] at answer
    by_cases idle : last.opened = []
    · obtain ⟨ended, whole, outcomes, filled⟩ := kept.finished (by omega) fine idle
      refine .inr ⟨idle, ?_, outcomes, ?_, ?_, ?_⟩
      · rw [calls, whole, sameItems]
        exact List.take_of_length_le (by rw [List.length_zipIdx])
      · simp only [answer, ended, if_true, filled]
      · rw [← sameItems, ← shared.slots, filled, List.length_map]
      · intro settling member
        cases outcome : settling.outcome with
        | error error =>
            have absent := fine settling member
            simp [Settling.error?, outcome] at absent
        | ok value =>
            have slot := shared.filled settling member value outcome
            rw [filled, List.getElem?_map] at slot
            obtain ⟨result, found, same⟩ := Option.map_eq_some_iff.mp slot
            exact ⟨value, rfl, by rw [found, Option.some.inj same]⟩
    · have counted := List.length_pos_iff.mpr idle
      have busy : last.ended ≠ last.workers := by omega
      exact .inl ⟨idle, by rw [answer, if_neg busy]⟩
  · intro failing
    obtain ⟨settling, member, failed⟩ := failing
    unfold answerAfter at answer
    cases first : events.findSome? Settling.error? with
    | none =>
        rw [List.findSome?_eq_none_iff.mp first settling member] at failed
        cases failed
    | some error =>
        rw [first] at answer
        exact ⟨error, rfl, answer⟩

/-- With no number for a limit there are no workers: no item has its call, and the result is at once
there with an empty slot. -/
theorem mapLimit_nan : (start ["a"] .nan : MapLimit String Nat String).calls = [] ∧
    (start ["a"] .nan : MapLimit String Nat String).result = some (.ok [none]) := ⟨rfl, rfl⟩

/-- Three items and two workers: the second call comes back first, and its worker goes on. -/
theorem mapLimit_keepsOrder_overtaken : ∃ last : MapLimit String Nat String,
    KeepsOrder ["a", "b", "c"] (.finite 2) [⟨1, .ok 20⟩, ⟨2, .ok 30⟩, ⟨0, .ok 10⟩] last := by
  have two : workersOf (.finite 2) 3 = 2 := by
    have value : max (1 : ℚ) (min 2 ((3 : ℕ) : ℚ)) = 2 := by norm_num
    simp only [workersOf, value, Nat.floor_ofNat]
  have begun : ∃ last : MapLimit String Nat String, Run MapLimitStep (start ["a", "b", "c"] (.finite 2))
      [⟨1, .ok 20⟩, ⟨2, .ok 30⟩, ⟨0, .ok 10⟩] last := by
    unfold start
    simp only [List.length_cons, List.length_nil, two]
    exact ⟨_, .cons rfl (.cons rfl (.cons rfl (.nil _)))⟩
  obtain ⟨last, run⟩ := begun
  exact ⟨last, mapLimit_keepsOrder (by simp) run⟩

end Runs

end ZabbixPortal.Sli
