import ZabbixPortal.Services.CoalescingProperties
import ZabbixPortal.Services.StaleHeaders

/-! Which responses announce their old copies: those of requests that get an old copy
only through fetches they began themselves and wait for. -/

set_option autoImplicit false

namespace ZabbixPortal.Services

open Foundation Core

variable {α : Type}

namespace Serving

def Noted (serving : Serving α) (request : Nat) (copy : OldCopy) : Prop :=
  ∃ oldest ∈ serving.served request, copy.ageMs ≤ oldest

/-- The old copies in the value come with the fetch the request began and its call waited
for, or are no older than what the request has noted. -/
def Traced (serving : Serving α) (request : Nat) (answer : Answer α) : Prop :=
  (answer.isAwaited = true ∧
    serving.contexts answer.value.origin.startedAt = some request) ∨
  ∀ copy ∈ serving.copies answer.value.origin.startedAt, serving.Noted request copy

/-- The answer goes to the handler, or to a running fetch that a call of the request
waits for, unless the body has an old copy already. -/
def HandedOn (serving : Serving α) (request : Nat) (answer : Answer α) : Prop :=
  serving.bodies request ≠ [] ∨ serving.isDirect answer.call = true ∨
    ∃ fetch ∈ answer.call.parent, serving.system.isRunning fetch = true ∧
      ∃ waiting ∈ serving.system.waiting, waiting.flight = fetch ∧
        serving.context waiting.call = some request

/-- Until the hook has run, old copies travel along the calls of the request that noted
them: into a value it is answered with, on towards its handler, and not into an error. -/
def Carries (entered : Serving α) (now : ℤ) : Option (CacheEvent α) → Prop
  | some (.answered answer) =>
      ∀ request ∈ entered.context answer.call, entered.hookRuns request = true →
        entered.Traced request answer ∧
          (entered.copiesOf now answer ≠ [] → entered.HandedOn request answer)
  | some (.threw call) =>
      ∀ request ∈ entered.context call, entered.hookRuns request = true →
        entered.bodies request ≠ [] ∨
          ∀ waiting ∈ entered.system.waiting, waiting.call.begunAt = call.begunAt →
            entered.copies waiting.flight = []
  | some (.wroteBack _) | none => True

/-- The step carries old copies as it should; a request is answered by the hook only when
none of its calls waits, unless an old copy is in its body, and no hijacked reply has one. -/
def Carried (approxBytes : α → Nat) (serving : Serving α) : ℤ × ServingAction α → Prop
  | (now, .cache request action) =>
      (serving.enter request action).Carries now (serving.event approxBytes (now, action))
  | (_, .hijack _) => True
  | (_, .respond request) =>
      serving.sent request = false →
        (serving.hijacked request = true → serving.bodies request = []) ∧
          (serving.hijacked request = false → serving.served request ≠ none →
            serving.bodies request ≠ [] ∨
              ∀ waiting ∈ serving.system.waiting, serving.context waiting.call ≠ some request)

def AllCarried (approxBytes : α → Nat) (serving : Serving α) : List (ℤ × ServingAction α) → Prop
  | [] => True
  | turn :: later =>
      Carried approxBytes serving turn ∧ AllCarried approxBytes (serving.step approxBytes turn) later

section Decide

variable (serving : Serving α) (request : Nat) (answer : Answer α)

instance (copy : OldCopy) : Decidable (serving.Noted request copy) :=
  inferInstanceAs (Decidable (∃ oldest ∈ serving.served request, copy.ageMs ≤ oldest))

instance : Decidable (serving.Traced request answer) :=
  inferInstanceAs (Decidable (_ ∨ _))

instance : Decidable (serving.HandedOn request answer) :=
  inferInstanceAs (Decidable (_ ∨ _ ∨ _))

instance decidableCarries (now : ℤ) :
    (event : Option (CacheEvent α)) → Decidable (serving.Carries now event)
  | some (.answered answer) =>
      inferInstanceAs (Decidable (∀ request ∈ serving.context answer.call, _))
  | some (.threw call) => inferInstanceAs (Decidable (∀ request ∈ serving.context call, _))
  | some (.wroteBack _) => isTrue trivial
  | none => isTrue trivial

instance decidableCarried (approxBytes : α → Nat) :
    (turn : ℤ × ServingAction α) → Decidable (Carried approxBytes serving turn)
  | (now, .cache request action) =>
      decidableCarries (serving.enter request action) now (serving.event approxBytes (now, action))
  | (_, .hijack _) => isTrue trivial
  | (_, .respond request) =>
      inferInstanceAs (Decidable (serving.sent request = false → _ ∧ _))

instance decidableAllCarried (approxBytes : α → Nat) (serving : Serving α) :
    (turns : List (ℤ × ServingAction α)) → Decidable (AllCarried approxBytes serving turns)
  | [] => isTrue trivial
  | turn :: later =>
      have := decidableAllCarried approxBytes (serving.step approxBytes turn) later
      inferInstanceAs (Decidable (Carried approxBytes serving turn ∧ _))

end Decide

section NoteStale

theorem le_foldl_noteStale (own : List OldCopy) {oldestMs : Option ℤ} {age : ℤ}
    (noted : ∃ oldest ∈ oldestMs, age ≤ oldest) :
    ∃ oldest ∈ own.foldl noteStale oldestMs, age ≤ oldest := by
  induction own generalizing oldestMs with
  | nil => exact noted
  | cons copy rest ih =>
      obtain ⟨oldest, rfl, older⟩ := noted
      exact ih ⟨max oldest copy.ageMs, rfl, Int.le_trans older (Int.le_max_left _ _)⟩

theorem own_noted {own : List OldCopy} (oldestMs : Option ℤ) {copy : OldCopy}
    (member : copy ∈ own) : ∃ oldest ∈ own.foldl noteStale oldestMs, copy.ageMs ≤ oldest := by
  induction own generalizing oldestMs with
  | nil => cases member
  | cons first rest ih =>
      rcases List.mem_cons.mp member with rfl | later
      · exact le_foldl_noteStale rest ⟨_, rfl, Int.le_max_right _ _⟩
      · exact ih _ later

end NoteStale

section Deliver

variable {serving : Serving α} {now : ℤ} {answer : Answer α} {request : Nat} {copy : OldCopy}

@[simp] theorem deliver_contexts (serving : Serving α) (now : ℤ) (answer : Answer α) :
    (serving.deliver now answer).contexts = serving.contexts := by
  unfold deliver
  dsimp only
  split <;> rfl

@[simp] theorem deliver_context (serving : Serving α) (now : ℤ) (answer : Answer α)
    (call : Call α) : (serving.deliver now answer).context call = serving.context call := by
  unfold deliver
  dsimp only
  split <;> rfl

@[simp] theorem deliver_hookRuns (serving : Serving α) (now : ℤ) (answer : Answer α)
    (request : Nat) :
    (serving.deliver now answer).hookRuns request = serving.hookRuns request := by
  unfold deliver
  dsimp only
  split <;> rfl

theorem deliver_copies (serving : Serving α) (now : ℤ) (answer : Answer α) (fetch : Nat) :
    (serving.deliver now answer).copies fetch =
      if answer.call.parent = some fetch ∧ serving.system.isRunning fetch = true then
        serving.copies fetch ++ serving.copiesOf now answer
      else serving.copies fetch := by
  unfold deliver
  dsimp only
  cases answer.call.parent with
  | none => cases serving.context answer.call <;> simp
  | some asking =>
      dsimp only
      by_cases own : asking = fetch
      · subst asking
        by_cases running : serving.system.isRunning fetch = true <;>
          cases serving.context answer.call <;> simp [running]
      · have other : fetch ≠ asking := fun same => own same.symm
        cases serving.context answer.call <;> dsimp only <;> split <;> simp [own, other]

theorem deliver_bodies (serving : Serving α) (now : ℤ) (answer : Answer α) (request : Nat) :
    (serving.deliver now answer).bodies request =
      if serving.context answer.call = some request ∧ serving.isDirect answer.call = true then
        serving.bodies request ++ serving.copiesOf now answer
      else serving.bodies request := by
  unfold deliver
  dsimp only
  cases serving.context answer.call with
  | none => simp
  | some own =>
      dsimp only
      by_cases same : own = request
      · subst own
        by_cases direct : serving.isDirect answer.call = true <;> simp [direct]
      · have other : request ≠ own := fun equal => same equal.symm
        split <;> simp [same, other]

theorem deliver_served (serving : Serving α) (now : ℤ) (answer : Answer α) (request : Nat) :
    (serving.deliver now answer).served request =
      if serving.context answer.call = some request then
        (answer.oldCopy now).foldl noteStale (serving.served request)
      else serving.served request := by
  unfold deliver
  dsimp only
  cases serving.context answer.call with
  | none => simp
  | some own =>
      dsimp only
      by_cases same : own = request
      · subst own
        simp
      · have other : request ≠ own := fun equal => same equal.symm
        simp [same, other]

theorem Noted.deliver (noted : serving.Noted request copy) :
    (serving.deliver now answer).Noted request copy := by
  unfold Noted
  rw [deliver_served]
  split
  · exact le_foldl_noteStale _ noted
  · exact noted

/-- What an answer was built from is noted once it is delivered. -/
theorem built_noted (context : serving.context answer.call = some request)
    (traced : serving.Traced request answer)
    (fetches : ∀ fetch, serving.contexts fetch = some request →
      ∀ copy ∈ serving.copies fetch, serving.Noted request copy)
    (member : copy ∈ serving.copiesOf now answer) :
    (serving.deliver now answer).Noted request copy := by
  rcases List.mem_append.mp member with inside | own
  · refine Noted.deliver ?_
    rcases traced with ⟨_, begun⟩ | noted
    · exact fetches _ begun copy inside
    · exact noted copy inside
  · unfold Noted
    rw [deliver_served, if_pos context]
    exact own_noted _ own

end Deliver

section Steps

variable {approxBytes : α → Nat} {serving : Serving α} {request : Nat}

/-- Until the hook has run for a request, every old copy it was given, and those of the
fetches it began, are noted; when it noted one, that is in its body, or it waits for a
fetch that was given one. -/
structure Announced (serving : Serving α) : Prop where
  after : AfterWrites serving.system.steps serving.system
  distinct : (serving.system.waiting.map (·.call.begunAt)).Nodup
  begun : ∀ fetch, serving.copies fetch ≠ [] → fetch < serving.system.steps
  fetches : ∀ request, serving.hookRuns request = true → ∀ fetch,
    serving.contexts fetch = some request →
      ∀ copy ∈ serving.copies fetch, serving.Noted request copy
  bodies : ∀ request, serving.hookRuns request = true →
    ∀ copy ∈ serving.bodies request, serving.Noted request copy
  owed : ∀ request, serving.hookRuns request = true → serving.served request ≠ none →
    serving.bodies request ≠ [] ∨
      ∃ waiting ∈ serving.system.waiting, serving.context waiting.call = some request ∧
        serving.copies waiting.flight ≠ []

theorem Announced.idle : Announced (Serving.idle : Serving α) where
  after := .idle
  distinct := List.nodup_nil
  begun _ given := absurd rfl given
  fetches _ _ _ _ _ member := nomatch member
  bodies _ _ _ member := nomatch member
  owed _ _ noted := absurd rfl noted

section Enter

variable (request : Option Nat) (action : CacheAction α)

@[simp] theorem enter_system (serving : Serving α) :
    (serving.enter request action).system = serving.system := by
  cases action <;> rfl

@[simp] theorem enter_copies (serving : Serving α) :
    (serving.enter request action).copies = serving.copies := by
  cases action <;> rfl

@[simp] theorem enter_bodies (serving : Serving α) :
    (serving.enter request action).bodies = serving.bodies := by
  cases action <;> rfl

@[simp] theorem enter_served (serving : Serving α) :
    (serving.enter request action).served = serving.served := by
  cases action <;> rfl

@[simp] theorem enter_hookRuns (serving : Serving α) (asking : Nat) :
    (serving.enter request action).hookRuns asking = serving.hookRuns asking := by
  cases action <;> rfl

theorem enter_contexts {fetch : Nat} (past : fetch < serving.system.steps) :
    (serving.enter request action).contexts fetch = serving.contexts fetch := by
  cases action with
  | call asked parent => exact Function.update_of_ne (Nat.ne_of_lt past) _ _
  | settle flight outcome => rfl
  | resume call => rfl
  | invalidate start holdMs => rfl
  | writeBack => rfl

theorem enter_callers {call : Nat} (past : call < serving.system.steps) :
    (serving.enter request action).callers call = serving.callers call := by
  cases action with
  | call asked parent => exact Function.update_of_ne (Nat.ne_of_lt past) _ _
  | settle flight outcome => rfl
  | resume call => rfl
  | invalidate start holdMs => rfl
  | writeBack => rfl

theorem Announced.enter_context (announced : Announced serving) {waiting : Waiting α}
    (member : waiting ∈ serving.system.waiting) :
    (serving.enter request action).context waiting.call = serving.context waiting.call := by
  obtain ⟨past, older, _⟩ := announced.after.waiting waiting member
  unfold context
  split
  · next fetch asking =>
      exact enter_contexts request action (Nat.lt_of_le_of_lt (older fetch asking) past)
  · rw [enter_callers request action past]

/-- A call's entry changes nothing that is noted or owed. -/
theorem Announced.enter (announced : Announced serving) :
    Announced (serving.enter request action) where
  after := by
    rw [enter_system]
    exact announced.after
  distinct := by
    rw [enter_system]
    exact announced.distinct
  begun := by
    rw [enter_system, enter_copies]
    exact announced.begun
  fetches asking runs fetch begun copy member := by
    rw [enter_hookRuns] at runs
    rw [enter_copies] at member
    have past := announced.begun fetch (List.ne_nil_of_mem member)
    rw [enter_contexts request action past] at begun
    unfold Noted
    rw [enter_served]
    exact announced.fetches asking runs fetch begun copy member
  bodies asking runs := by
    rw [enter_hookRuns] at runs
    unfold Noted
    rw [enter_bodies, enter_served]
    exact announced.bodies asking runs
  owed asking runs noted := by
    rw [enter_hookRuns] at runs
    rw [enter_served] at noted
    rw [enter_bodies, enter_copies, enter_system]
    rcases announced.owed asking runs noted with given | ⟨waiting, member, own, copies⟩
    · exact .inl given
    · refine .inr ⟨waiting, member, ?_, copies⟩
      rw [announced.enter_context request action member]
      exact own

end Enter

section Delivered

variable {now : ℤ} {answer : Answer α}

theorem deliver_copies_ne_nil {fetch : Nat} (given : serving.copies fetch ≠ []) :
    (serving.deliver now answer).copies fetch ≠ [] := by
  rw [deliver_copies]
  split
  · exact List.append_ne_nil_of_left_ne_nil given _
  · exact given

theorem deliver_bodies_ne_nil (given : serving.bodies request ≠ []) :
    (serving.deliver now answer).bodies request ≠ [] := by
  rw [deliver_bodies]
  split
  · exact List.append_ne_nil_of_left_ne_nil given _
  · exact given

theorem Announced.deliver_begun (announced : Announced serving) (fetch : Nat)
    (given : (serving.deliver now answer).copies fetch ≠ []) : fetch < serving.system.steps := by
  rw [deliver_copies] at given
  split at given
  · next asks =>
      unfold CacheSystem.isRunning at asks
      cases found : serving.system.flights.get? fetch with
      | none =>
          rw [found] at asks
          exact nomatch asks.2
      | some flight => exact announced.after.begun fetch flight found
  · exact announced.begun fetch given

theorem Announced.deliver_fetches (announced : Announced serving)
    (runs : serving.hookRuns request = true)
    (traced : serving.context answer.call = some request → serving.Traced request answer)
    (fetch : Nat) (begun : serving.contexts fetch = some request) :
    ∀ copy ∈ (serving.deliver now answer).copies fetch,
      (serving.deliver now answer).Noted request copy := by
  intro copy member
  rw [deliver_copies] at member
  split at member
  · next asks =>
      have context : serving.context answer.call = some request := by
        unfold Serving.context
        rw [asks.1]
        exact begun
      rcases List.mem_append.mp member with before | built
      · exact Noted.deliver (announced.fetches request runs fetch begun copy before)
      · exact built_noted context (traced context) (announced.fetches request runs) built
  · exact Noted.deliver (announced.fetches request runs fetch begun copy member)

theorem Announced.deliver_bodies (announced : Announced serving)
    (runs : serving.hookRuns request = true)
    (traced : serving.context answer.call = some request → serving.Traced request answer) :
    ∀ copy ∈ (serving.deliver now answer).bodies request,
      (serving.deliver now answer).Noted request copy := by
  intro copy member
  rw [Serving.deliver_bodies] at member
  split at member
  · next own =>
      rcases List.mem_append.mp member with before | built
      · exact Noted.deliver (announced.bodies request runs copy before)
      · exact built_noted own.1 (traced own.1) (announced.fetches request runs) built
  · exact Noted.deliver (announced.bodies request runs copy member)

/-- What an answer was built from is in the body of its request, or with a fetch that a
call of the request still waits for. -/
theorem handed_owed {left : List (Waiting α)}
    (running : ∀ waiting ∈ serving.system.waiting,
      serving.system.isRunning waiting.flight = true → waiting ∈ left)
    (context : serving.context answer.call = some request)
    (built : serving.copiesOf now answer ≠ []) (handed : serving.HandedOn request answer) :
    (serving.deliver now answer).bodies request ≠ [] ∨ ∃ waiting ∈ left,
      (serving.deliver now answer).context waiting.call = some request ∧
        (serving.deliver now answer).copies waiting.flight ≠ [] := by
  rcases handed with given | direct | ⟨fetch, asks, runs, waiting, member, rfl, own⟩
  · exact .inl (deliver_bodies_ne_nil given)
  · left
    rw [Serving.deliver_bodies, if_pos ⟨context, direct⟩]
    exact List.append_ne_nil_of_right_ne_nil _ built
  · refine .inr ⟨waiting, running waiting member runs, ?_, ?_⟩
    · rw [deliver_context]
      exact own
    · rw [deliver_copies, if_pos ⟨asks, runs⟩]
      exact List.append_ne_nil_of_right_ne_nil _ built

/-- The calls left to wait after an answer are all that waited but the one it ends. -/
theorem Announced.deliver_owed (announced : Announced serving) {left : List (Waiting α)}
    (runs : serving.hookRuns request = true)
    (handed : serving.context answer.call = some request →
      serving.copiesOf now answer ≠ [] → serving.HandedOn request answer)
    (running : ∀ waiting ∈ serving.system.waiting,
      serving.system.isRunning waiting.flight = true → waiting ∈ left)
    (ended : ∀ waiting ∈ serving.system.waiting, waiting ∈ left ∨ waiting.call = answer.call ∧
      (serving.copies waiting.flight ≠ [] → serving.copiesOf now answer ≠ []))
    (noted : (serving.deliver now answer).served request ≠ none) :
    (serving.deliver now answer).bodies request ≠ [] ∨ ∃ waiting ∈ left,
      (serving.deliver now answer).context waiting.call = some request ∧
        (serving.deliver now answer).copies waiting.flight ≠ [] := by
  by_cases before : serving.served request = none
  · rw [deliver_served, before] at noted
    split at noted
    · next context =>
        have built : serving.copiesOf now answer ≠ [] := by
          intro nothing
          rw [(List.append_eq_nil_iff.mp nothing).2] at noted
          exact noted rfl
        exact handed_owed running context built (handed context built)
    · exact absurd rfl noted
  · rcases announced.owed request runs before with given | ⟨waiting, member, own, copies⟩
    · exact .inl (deliver_bodies_ne_nil given)
    · rcases ended waiting member with stays | ⟨same, built⟩
      · refine .inr ⟨waiting, stays, ?_, deliver_copies_ne_nil copies⟩
        rw [deliver_context]
        exact own
      · rw [same] at own
        exact handed_owed running own (built copies) (handed own (built copies))

end Delivered

section Turn

variable {now : ℤ}

theorem event_of_log {action : CacheAction α} {event : CacheEvent α}
    (log : (serving.system.step approxBytes (now, action)).log = serving.system.log ++ [event]) :
    serving.event approxBytes (now, action) = some event := by
  unfold Serving.event
  rw [log, List.drop_left]
  rfl

theorem event_of_same_log {action : CacheAction α}
    (log : (serving.system.step approxBytes (now, action)).log = serving.system.log) :
    serving.event approxBytes (now, action) = none := by
  unfold Serving.event
  rw [log, List.drop_length]
  rfl

/-- The cache goes on while no call's wait ends. -/
theorem Announced.goOn (announced : Announced serving) {next : CacheSystem α}
    (after : AfterWrites next.steps next) (later : serving.system.steps ≤ next.steps)
    (distinct : (next.waiting.map (·.call.begunAt)).Nodup)
    (waiting : ∀ waiting ∈ serving.system.waiting, waiting ∈ next.waiting) :
    Announced { serving with system := next } where
  after := after
  distinct := distinct
  begun fetch given := Nat.lt_of_lt_of_le (announced.begun fetch given) later
  fetches := announced.fetches
  bodies := announced.bodies
  owed request runs noted := by
    rcases announced.owed request runs noted with given | ⟨owing, member, own, copies⟩
    · exact .inl given
    · exact .inr ⟨owing, waiting owing member, own, copies⟩

/-- The cache goes on with an answer. -/
theorem Announced.goOnWith (announced : Announced serving) {next : CacheSystem α}
    {answer : Answer α} (after : AfterWrites next.steps next)
    (later : serving.system.steps ≤ next.steps)
    (distinct : (next.waiting.map (·.call.begunAt)).Nodup)
    (carried : ∀ request ∈ serving.context answer.call, serving.hookRuns request = true →
      serving.Traced request answer ∧
        (serving.copiesOf now answer ≠ [] → serving.HandedOn request answer))
    (running : ∀ waiting ∈ serving.system.waiting,
      serving.system.isRunning waiting.flight = true → waiting ∈ next.waiting)
    (ended : ∀ waiting ∈ serving.system.waiting, waiting ∈ next.waiting ∨
      waiting.call = answer.call ∧
        (serving.copies waiting.flight ≠ [] → serving.copiesOf now answer ≠ [])) :
    Announced { serving.deliver now answer with system := next } where
  after := after
  distinct := distinct
  begun fetch given := Nat.lt_of_lt_of_le (announced.deliver_begun fetch given) later
  fetches request runs fetch begun := by
    rw [deliver_contexts] at begun
    have before := (deliver_hookRuns serving now answer request).symm.trans runs
    exact announced.deliver_fetches before (fun own => (carried request own before).1) fetch begun
  bodies request runs := by
    have before := (deliver_hookRuns serving now answer request).symm.trans runs
    exact announced.deliver_bodies before fun own => (carried request own before).1
  owed request runs := by
    have before := (deliver_hookRuns serving now answer request).symm.trans runs
    exact announced.deliver_owed before (fun own => (carried request own before).2) running ended

/-- A call whose fetch was given an old copy is answered with one: its own or the fetch's. -/
theorem built_of_resumed (after : AfterWrites serving.system.steps serving.system)
    {flight : Nat} {settlement : Settlement α} {answer : Answer α}
    (settled : serving.system.settlementOf flight = some settlement)
    (reports : CacheEvent.Reports settlement (.answered answer))
    (given : serving.copies flight ≠ []) : serving.copiesOf now answer ≠ [] := by
  obtain ⟨awaited, took, failed⟩ := reports
  unfold copiesOf
  cases result : settlement.result with
  | some value =>
      obtain ⟨running, found, finished⟩ := Option.bind_eq_some_iff.mp settled
      have origin := (after.settled flight running settlement value found finished result).1
      rw [took value result, origin]
      exact List.append_ne_nil_of_left_ne_nil given _
  | none =>
      obtain ⟨_, last, stored, _⟩ := failed result
      refine List.append_ne_nil_of_right_ne_nil _ ?_
      unfold Answer.oldCopy Answer.fellBack
      rw [awaited, stored, Option.map_some, result]
      exact List.cons_ne_nil _ _

/-- A running fetch is not over. -/
theorem not_running_of_settled {flight : Nat} {settlement : Settlement α}
    (settled : serving.system.settlementOf flight = some settlement) :
    serving.system.isRunning flight = false := by
  obtain ⟨running, found, finished⟩ := Option.bind_eq_some_iff.mp settled
  unfold CacheSystem.isRunning
  rw [found, Option.map_some, finished]
  rfl

/-- The calls that wait began at different steps. -/
theorem eq_of_begunAt {waiting other : Waiting α} {all : List (Waiting α)}
    (distinct : (all.map (·.call.begunAt)).Nodup) (member : waiting ∈ all) (among : other ∈ all)
    (same : waiting.call.begunAt = other.call.begunAt) : waiting = other :=
  List.inj_on_of_nodup_map distinct member among same

/-- One case for each thing a step can do to the calls that wait. -/
theorem Announced.turn (announced : Announced serving) (action : CacheAction α)
    (carries : serving.Carries now (serving.event approxBytes (now, action))) :
    Announced
      { (match serving.event approxBytes (now, action) with
          | some (.answered answer) => serving.deliver now answer
          | _ => serving) with
        system := serving.system.step approxBytes (now, action) } := by
  have after := announced.after.step approxBytes (now, action)
  have later : serving.system.steps ≤ (serving.system.step approxBytes (now, action)).steps :=
    Nat.le_succ _
  cases step_effect approxBytes serving.system (now, action) with
  | none waiting log =>
      have quiet : ∀ answer,
          serving.event approxBytes (now, action) ≠ some (.answered answer) := by
        intro answer
        rcases log with same | ⟨step, wrote⟩
        · rw [event_of_same_log same]
          exact nofun
        · rw [event_of_log wrote]
          exact nofun
      split
      · next answer answered => exact absurd answered (quiet answer)
      · refine announced.goOn after later ?_ ?_
        · rw [waiting]
          exact announced.distinct
        · rw [waiting]
          exact fun _ member => member
  | waits call flight begun waiting log =>
      rw [event_of_same_log log]
      refine announced.goOn after later ?_ ?_
      · rw [waiting, List.map_append, List.nodup_append]
        refine ⟨announced.distinct, List.nodup_singleton _, ?_⟩
        intro number among other last
        obtain ⟨earlier, member, rfl⟩ := List.mem_map.mp among
        have newest : other = serving.system.steps := (List.mem_singleton.mp last).trans begun
        rw [newest]
        exact Nat.ne_of_lt (announced.after.waiting earlier member).1
      · rw [waiting]
        exact fun _ member => List.mem_append_left _ member
  | answered answer begun waiting log =>
      rw [event_of_log log] at carries ⊢
      refine announced.goOnWith after later ?_ carries ?_ ?_
      · rw [waiting]
        exact announced.distinct
      · rw [waiting]
        exact fun _ member _ => member
      · rw [waiting]
        exact fun _ member => .inl member
  | resumed first settlement event member settled ends reports waiting log =>
      have distinct :
          ((serving.system.step approxBytes (now, action)).waiting.map (·.call.begunAt)).Nodup := by
        rw [waiting]
        exact announced.distinct.sublist (List.filter_sublist.map _)
      -- The only wait that ends is the one for the fetch that is over.
      have stays : ∀ other ∈ serving.system.waiting, other ≠ first →
          other ∈ (serving.system.step approxBytes (now, action)).waiting := by
        intro other among unlike
        rw [waiting, List.mem_filter]
        refine ⟨among, decide_eq_true fun same => unlike ?_⟩
        exact eq_of_begunAt announced.distinct among member same
      rw [event_of_log log] at carries ⊢
      cases event with
      | wroteBack step => cases ends
      | answered answer =>
          have own : answer.call = first.call := Option.some.inj ends
          refine announced.goOnWith after later distinct carries ?_ ?_
          · intro other among running
            refine stays other among fun same => ?_
            rw [same, not_running_of_settled settled] at running
            cases running
          · intro other among
            by_cases same : other = first
            · right
              rw [same, own]
              exact ⟨rfl, built_of_resumed announced.after settled reports⟩
            · exact .inl (stays other among same)
      | threw call =>
          have own : call = first.call := Option.some.inj ends
          exact {
            after := after
            distinct := distinct
            begun := fun fetch given => Nat.lt_of_lt_of_le (announced.begun fetch given) later
            fetches := announced.fetches
            bodies := announced.bodies
            owed := by
              intro request runs noted
              rcases announced.owed request runs noted with given | ⟨other, among, asked, copies⟩
              · exact .inl given
              · by_cases same : other = first
                · rw [same] at asked copies
                  rcases carries request (own ▸ asked) runs with given | nothing
                  · exact .inl given
                  · exact absurd (nothing first member (own ▸ rfl)) copies
                · exact .inr ⟨other, stays other among same, asked, copies⟩ }

/-- A reply that is hijacked or sent leaves the others as they were. -/
theorem Announced.closed (announced : Announced serving) {hijacked sent : Nat → Bool}
    (fewer : ∀ request, ({ serving with hijacked, sent } : Serving α).hookRuns request = true →
      serving.hookRuns request = true) : Announced { serving with hijacked, sent } where
  after := announced.after
  distinct := announced.distinct
  begun := announced.begun
  fetches request runs := announced.fetches request (fewer request runs)
  bodies request runs := announced.bodies request (fewer request runs)
  owed request runs := announced.owed request (fewer request runs)

theorem hookRuns_iff (serving : Serving α) (request : Nat) :
    serving.hookRuns request = true ↔
      serving.sent request = false ∧ serving.hijacked request = false := by
  simp [hookRuns]

theorem Announced.step (announced : Announced serving) {turn : ℤ × ServingAction α}
    (carried : Carried approxBytes serving turn) :
    Announced (serving.step approxBytes turn) := by
  obtain ⟨now, action⟩ := turn
  cases action with
  | hijack request =>
      refine announced.closed fun other runs => ?_
      rw [hookRuns_iff] at runs ⊢
      refine ⟨runs.1, ?_⟩
      by_cases same : other = request
      · subst same
        simp at runs
      · simpa [same] using runs.2
  | respond request =>
      refine announced.closed fun other runs => ?_
      rw [hookRuns_iff] at runs ⊢
      refine ⟨?_, runs.2⟩
      by_cases same : other = request
      · subst same
        simp at runs
      · simpa [same] using runs.1
  | cache request action =>
      have event : (serving.enter request action).event approxBytes (now, action) =
          serving.event approxBytes (now, action) := by
        unfold Serving.event
        rw [enter_system]
      have carries : (serving.enter request action).Carries now
          ((serving.enter request action).event approxBytes (now, action)) := by
        rw [event]
        exact carried
      have entered := (announced.enter request action).turn action carries
      rw [event, enter_system] at entered
      exact entered

end Turn

end Steps

section Runs

variable {approxBytes : α → Nat}

theorem AllCarried.take {serving : Serving α} {before after : List (ℤ × ServingAction α)}
    (carried : AllCarried approxBytes serving (before ++ after)) :
    AllCarried approxBytes serving before := by
  induction before generalizing serving with
  | nil => exact trivial
  | cons turn later ih => exact ⟨carried.1, ih carried.2⟩

theorem AllCarried.drop {serving : Serving α} {before after : List (ℤ × ServingAction α)}
    (carried : AllCarried approxBytes serving (before ++ after)) :
    AllCarried approxBytes (before.foldl (fun serving turn => serving.step approxBytes turn) serving)
      after := by
  induction before generalizing serving with
  | nil => exact carried
  | cons turn later ih => exact ih carried.2

theorem Announced.foldl {serving : Serving α} (announced : Announced serving)
    {turns : List (ℤ × ServingAction α)} (carried : AllCarried approxBytes serving turns) :
    Announced (turns.foldl (fun serving turn => serving.step approxBytes turn) serving) := by
  induction turns generalizing serving with
  | nil => exact announced
  | cons turn later ih => exact ih (announced.step carried.1) carried.2

theorem roundSeconds_mono {ms later : ℤ} (older : ms ≤ later) :
    roundSeconds ms ≤ roundSeconds later :=
  Int.ediv_le_ediv (by decide) (Int.add_le_add_right older 500)

theorem Noted.announced {serving : Serving α} {request : Nat} {copy : OldCopy}
    (noted : serving.Noted request copy) (own : serving.hijacked request = false) :
    ∃ age, serving.ageHeader request = some age ∧ roundSeconds copy.ageMs ≤ age := by
  obtain ⟨oldest, served, older⟩ := noted
  refine ⟨max 0 (roundSeconds oldest), ?_, ?_⟩
  · unfold ageHeader
    rw [own, Option.mem_def.mp served]
    rfl
  · exact Int.le_trans (roundSeconds_mono older) (Int.le_max_right _ _)

section DerivedServices

/-! The report is stored; a minute later Zabbix is down, and the fetch behind the service
tree is answered with the old report. -/

def reportRequest : Request := { key := "sli", ttlMs := 1000, options := fallingBack }

/-- The assistant's stream gets a new report; then a refresh for the request that has its
answer falls back to that one. -/
def readLater : List (ℤ × ServingAction Nat) :=
  [(62500, .hijack 2), (62500, .cache (some 2) (.call reportRequest none)),
    (62500, .cache none (.settle 10 (some 9))), (62500, .cache none (.resume 10)),
    (62500, .respond 2), (64000, .cache (some 1) (.call reportRequest none)),
    (64500, .cache none (.settle 13 none)), (64500, .cache none (.resume 13))]

end DerivedServices

end Runs

end Serving

end ZabbixPortal.Services
