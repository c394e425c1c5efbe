import Mathlib.Data.List.Range
import Mathlib.Data.List.Nodup
import ZabbixPortal.Clients.ModelSlots

/-! Model slots are never lost or shared, in whatever order calls, releases, timeouts and
aborts come. -/

set_option autoImplicit false

namespace ZabbixPortal.Clients

structure SlotCounter.Counts {κ : Type} (slots : SlotCounter κ) (held : κ → ℤ) (capacity : Nat) :
    Prop where
  initial : ∀ counter, held counter = 0 ↔ counter = slots.initial
  free : ∀ counter, 0 ≤ held counter → (slots.free counter = true ↔ held counter < capacity)
  take : ∀ counter, slots.free counter = true → held (slots.take counter) = held counter + 1
  giveBack : ∀ counter, 0 < held counter → held counter ≤ capacity →
    held (slots.giveBack counter) = held counter - 1

theorem modelSlot_counts : modelSlot.Counts (fun slotHeld => if slotHeld then 1 else 0) 1 := by
  constructor <;> intro counter <;> cases counter <;> decide

theorem hostedSlots_counts (maxConcurrent : Nat) :
    (hostedSlots maxConcurrent).Counts id maxConcurrent := by
  constructor
  · intro counter
    exact Iff.rfl
  · intro counter _
    exact decide_eq_true_iff
  · intro counter _
    rfl
  · intro counter _ _
    rfl

namespace Pool

variable {κ : Type}

def answerOf (pool : Pool κ) (call : Nat) : Option Answer := (pool.calls[call]?).map (·.answer)

def signalOf (pool : Pool κ) (call : Nat) : Option Nat := (pool.calls[call]?).bind (·.signal)

/-- The calls without an answer yet, the one that has waited longest first. -/
def waiting (pool : Pool κ) : List Nat :=
  (List.range pool.calls.length).filter fun call => pool.answerOf call = some .pending

/-- The release functions not called yet: each stands for a holder. -/
def holders (pool : Pool κ) : List Releaser :=
  pool.releasers.filter fun releaser => releaser.released = false

section Basic

variable {pool : Pool κ} {call other : Nat}

theorem lt_of_answerOf {answer : Answer} (answered : pool.answerOf call = some answer) :
    call < pool.calls.length := by
  obtain ⟨entry, found, _⟩ := Option.map_eq_some_iff.mp answered
  exact (List.getElem?_eq_some_iff.mp found).1

theorem mem_waiting : call ∈ pool.waiting ↔ pool.answerOf call = some .pending := by
  rw [waiting, List.mem_filter, List.mem_range, decide_eq_true_iff]
  exact and_iff_right_of_imp lt_of_answerOf

theorem waiting_sorted (pool : Pool κ) : pool.waiting.Pairwise (· < ·) :=
  List.Pairwise.filter _ List.pairwise_lt_range

theorem waiting_nodup (pool : Pool κ) : pool.waiting.Nodup :=
  pool.waiting_sorted.imp Nat.ne_of_lt

theorem answerOf_settle {answer : Answer} :
    (pool.settle call answer).answerOf other =
      if other = call ∧ pool.answerOf call = some .pending then some answer
      else pool.answerOf other := by
  unfold answerOf settle
  rw [List.getElem?_modify]
  by_cases same : call = other
  · subst same
    cases found : pool.calls[call]? with
    | none => simp
    | some entry =>
        by_cases open' : entry.answer = .pending
        · simp [open']
        · simp [open']
  · simp [same, Ne.symm same]

theorem signalOf_settle {answer : Answer} :
    (pool.settle call answer).signalOf other = pool.signalOf other := by
  unfold signalOf settle
  rw [List.getElem?_modify]
  cases pool.calls[other]? with
  | none => rfl
  | some entry =>
      by_cases same : call = other
      · by_cases open' : entry.answer = .pending
        · simp [same, open']
        · simp [same, open']
      · simp [same]

theorem length_settle {answer : Answer} :
    (pool.settle call answer).calls.length = pool.calls.length :=
  List.length_modify _ _ _

theorem waiting_settle {answer : Answer} (final : answer ≠ .pending) :
    (pool.settle call answer).waiting = pool.waiting.erase call := by
  rw [pool.waiting_nodup.erase_eq_filter, waiting, length_settle, waiting, List.filter_filter]
  apply List.filter_congr
  intro other _
  rw [answerOf_settle]
  by_cases same : other = call
  · subst same
    by_cases open' : pool.answerOf other = some .pending
    · simp [open', final]
    · simp [open']
  · simp [same]

section Append

variable {after : Pool κ} {entry : Call}

theorem answerOf_append (calls : after.calls = pool.calls ++ [entry]) :
    after.answerOf other =
      if other = pool.calls.length then some entry.answer else pool.answerOf other := by
  unfold answerOf
  rw [calls]
  split
  · next last =>
      rw [last, List.getElem?_concat_length, Option.map_some]
  · next earlier =>
      rw [List.getElem?_append]
      split
      · rfl
      · next late =>
          rw [List.getElem?_eq_none (l := [entry]) (by simp only [List.length_singleton]; omega),
            List.getElem?_eq_none (l := pool.calls) (by omega)]

theorem signalOf_append (calls : after.calls = pool.calls ++ [entry]) :
    after.signalOf other =
      if other = pool.calls.length then entry.signal else pool.signalOf other := by
  unfold signalOf
  rw [calls]
  split
  · next last =>
      rw [last, List.getElem?_concat_length, Option.bind_some]
  · next earlier =>
      rw [List.getElem?_append]
      split
      · rfl
      · next late =>
          rw [List.getElem?_eq_none (l := [entry]) (by simp only [List.length_singleton]; omega),
            List.getElem?_eq_none (l := pool.calls) (by omega)]

theorem waiting_append (calls : after.calls = pool.calls ++ [entry]) :
    after.waiting =
      pool.waiting ++ if entry.answer = .pending then [pool.calls.length] else [] := by
  have last : after.answerOf pool.calls.length = some entry.answer := by
    rw [answerOf_append calls, if_pos rfl]
  have earlier : (List.range pool.calls.length).filter
      (fun call => after.answerOf call = some .pending) = pool.waiting := by
    apply List.filter_congr
    intro call member
    rw [answerOf_append calls, if_neg (Nat.ne_of_lt (List.mem_range.mp member))]
  rw [waiting, calls, List.length_append, List.length_singleton, List.range_succ,
    List.filter_append, earlier]
  simp only [List.filter_cons, List.filter_nil, last]
  by_cases open' : entry.answer = .pending
  · simp [open']
  · simp [open']

end Append

end Basic

/-- What holds of the slots of one kind whatever has happened. `aborted` are the signals
that have fired. -/
structure Consistent (held : κ → ℤ) (capacity : Nat) (aborted : List Nat) (pool : Pool κ) :
    Prop where
  counted : held pool.counter = pool.holders.length
  bounded : pool.holders.length ≤ capacity
  queued : pool.queue = pool.waiting
  timed : pool.timers = pool.queue
  full : pool.queue ≠ [] → pool.holders.length = capacity
  heard : ∀ signal call, (signal, call) ∈ pool.listeners ↔
    call ∈ pool.queue ∧ pool.signalOf call = some signal
  owned : ∀ index releaser, pool.releasers[index]? = some releaser →
    pool.answerOf releaser.call = some (.granted index)
  alive : ∀ call ∈ pool.queue, ∀ signal, pool.signalOf call = some signal → signal ∉ aborted

namespace Consistent

variable {slots : SlotCounter κ} {held : κ → ℤ} {capacity : Nat} {aborted : List Nat}
  {pool : Pool κ}

theorem empty (counts : slots.Counts held capacity) :
    Consistent held capacity aborted (Pool.empty slots) where
  counted := (counts.initial _).mpr rfl
  bounded := Nat.zero_le _
  queued := rfl
  timed := rfl
  full := fun nonempty => absurd rfl nonempty
  heard := by
    intro signal call
    constructor
    · intro listens
      cases listens
    · intro waits
      cases waits.1
  owned := by
    intro index releaser found
    cases found
  alive := nofun

theorem queue_lt (consistent : Consistent held capacity aborted pool) {call : Nat}
    (member : call ∈ pool.queue) : call < pool.calls.length := by
  rw [consistent.queued, mem_waiting] at member
  exact lt_of_answerOf member

/-- A call that gets its answer at once, and no slot. -/
theorem answered (consistent : Consistent held capacity aborted pool) {entry : Call}
    (final : entry.answer ≠ .pending) {after : Pool κ}
    (shape : after = { pool with calls := pool.calls ++ [entry] }) :
    Consistent held capacity aborted after := by
  have calls : after.calls = pool.calls ++ [entry] := by rw [shape]
  have queue : after.queue = pool.queue := by rw [shape]
  have holders : after.holders = pool.holders := by rw [shape]; rfl
  constructor
  · rw [holders, ← consistent.counted, shape]
  · rw [holders]
    exact consistent.bounded
  · rw [queue, waiting_append calls, if_neg final, List.append_nil]
    exact consistent.queued
  · rw [queue, ← consistent.timed, shape]
  · rw [queue, holders]
    exact consistent.full
  · intro signal call
    have before := consistent.heard signal call
    rw [queue, signalOf_append calls, show after.listeners = pool.listeners by rw [shape], before]
    apply and_congr_right
    intro member
    rw [if_neg (Nat.ne_of_lt (consistent.queue_lt member))]
  · intro index releaser found
    rw [show after.releasers = pool.releasers by rw [shape]] at found
    have before := consistent.owned index releaser found
    rw [answerOf_append calls, if_neg (Nat.ne_of_lt (lt_of_answerOf before))]
    exact before
  · intro call member signal signalled
    rw [queue] at member
    rw [signalOf_append calls, if_neg (Nat.ne_of_lt (consistent.queue_lt member))] at signalled
    exact consistent.alive call member signal signalled

/-- While a slot is free nobody waits. -/
theorem queue_of_free (consistent : Consistent held capacity aborted pool)
    (counts : slots.Counts held capacity) (free : slots.free pool.counter = true) :
    pool.holders.length < capacity ∧ pool.queue = [] := by
  have counted := consistent.counted
  have below : held pool.counter < capacity := (counts.free _ (by omega)).mp free
  have room : pool.holders.length < capacity := by omega
  refine ⟨room, ?_⟩
  by_contra nonempty
  have full := consistent.full nonempty
  omega

theorem takeSlot (consistent : Consistent held capacity aborted pool)
    (counts : slots.Counts held capacity) (free : slots.free pool.counter = true)
    (signal : Option Nat) : Consistent held capacity aborted (pool.takeSlot slots signal) := by
  obtain ⟨room, empty⟩ := consistent.queue_of_free counts free
  have holders : (pool.takeSlot slots signal).holders =
      pool.holders ++ [⟨pool.calls.length, false⟩] := by
    unfold Pool.takeSlot Pool.holders
    rw [List.filter_append]
    rfl
  have calls : (pool.takeSlot slots signal).calls =
      pool.calls ++ [⟨signal, .granted pool.releasers.length⟩] := rfl
  have queue : (pool.takeSlot slots signal).queue = [] := empty
  have taken := counts.take _ free
  have counted := consistent.counted
  constructor
  · rw [holders, List.length_append, List.length_singleton]
    change held (slots.take pool.counter) = _
    omega
  · rw [holders, List.length_append, List.length_singleton]
    omega
  · rw [waiting_append calls, if_neg (by simp), List.append_nil]
    exact consistent.queued
  · exact consistent.timed
  · exact fun nonempty => absurd queue nonempty
  · intro listening call
    have before := consistent.heard listening call
    rw [empty] at before
    rw [queue]
    change (listening, call) ∈ pool.listeners ↔ _
    rw [before]
    simp
  · intro index releaser found
    change (pool.releasers ++ [⟨pool.calls.length, false⟩])[index]? = some releaser at found
    rw [answerOf_append calls]
    rw [List.getElem?_append] at found
    split at found
    · have before := consistent.owned index releaser found
      rw [if_neg (Nat.ne_of_lt (lt_of_answerOf before))]
      exact before
    · next late =>
        obtain ⟨inside, same⟩ := List.getElem?_eq_some_iff.mp found
        rw [List.length_singleton] at inside
        have last : index = pool.releasers.length := by omega
        rw [List.getElem_singleton] at same
        rw [← same, if_pos rfl, last]
  · intro call member
    rw [queue] at member
    cases member

theorem wait (consistent : Consistent held capacity aborted pool)
    (counts : slots.Counts held capacity) (taken : slots.free pool.counter ≠ true)
    {signal : Option Nat} (alive : ∀ fired, signal = some fired → fired ∉ aborted)
    {after : Pool κ}
    (shape : after =
      { pool with
        calls := pool.calls ++ [⟨signal, .pending⟩]
        timers := pool.timers ++ [pool.calls.length]
        listeners := pool.listeners ++ signal.toList.map fun signal => (signal, pool.calls.length)
        queue := pool.queue ++ [pool.calls.length] }) :
    Consistent held capacity aborted after := by
  have calls : after.calls = pool.calls ++ [⟨signal, .pending⟩] := by rw [shape]
  have queue : after.queue = pool.queue ++ [pool.calls.length] := by rw [shape]
  have holders : after.holders = pool.holders := by rw [shape]; rfl
  have counted := consistent.counted
  have bounded := consistent.bounded
  constructor
  · rw [holders, ← counted, shape]
  · rw [holders]
    exact bounded
  · rw [queue, waiting_append calls, if_pos rfl, ← consistent.queued]
  · rw [queue, ← consistent.timed, shape]
  · intro _
    rw [ne_eq, counts.free _ (by omega)] at taken
    rw [holders]
    omega
  · intro listening call
    have before := consistent.heard listening call
    have listeners : after.listeners = pool.listeners ++
        signal.toList.map fun signal => (signal, pool.calls.length) := by rw [shape]
    rw [queue, listeners, signalOf_append calls, List.mem_append, before, List.mem_append,
      List.mem_singleton]
    by_cases last : call = pool.calls.length
    · subst last
      have fresh : pool.calls.length ∉ pool.queue := fun member =>
        absurd (consistent.queue_lt member) (Nat.lt_irrefl _)
      simp [fresh]
    · have new : (listening, call) ∉ signal.toList.map fun signal => (signal, pool.calls.length) := by
        intro member
        obtain ⟨_, _, same⟩ := List.mem_map.mp member
        exact last (congrArg Prod.snd same).symm
      rw [or_iff_left new, or_iff_left last, if_neg last]
  · intro index releaser found
    rw [show after.releasers = pool.releasers by rw [shape]] at found
    have before := consistent.owned index releaser found
    rw [answerOf_append calls, if_neg (Nat.ne_of_lt (lt_of_answerOf before))]
    exact before
  · intro call member listening signalled
    rw [signalOf_append calls] at signalled
    rw [queue] at member
    split at signalled
    · exact alive listening signalled
    · next earlier =>
        rcases List.mem_append.mp member with before | last
        · exact consistent.alive call before listening signalled
        · exact absurd (List.mem_singleton.mp last) earlier

theorem queue_nodup (consistent : Consistent held capacity aborted pool) : pool.queue.Nodup :=
  consistent.queued ▸ pool.waiting_nodup

theorem answerOf_queue (consistent : Consistent held capacity aborted pool) {call : Nat} :
    call ∈ pool.queue ↔ pool.answerOf call = some .pending := by
  rw [consistent.queued, mem_waiting]

/-- A call that waits gives up its place, wherever in the queue that is. -/
theorem dismiss (consistent : Consistent held capacity aborted pool) (call : Nat)
    {answer : Answer} (final : answer ≠ .pending) :
    Consistent held capacity aborted ((pool.leave call).settle call answer) := by
  have nodup := consistent.queue_nodup
  have answers : ∀ other, ((pool.leave call).settle call answer).answerOf other =
      if other = call ∧ pool.answerOf call = some .pending then some answer
      else pool.answerOf other := fun other => answerOf_settle
  have signals : ∀ other, ((pool.leave call).settle call answer).signalOf other =
      pool.signalOf other := fun other => signalOf_settle
  have queue : ((pool.leave call).settle call answer).queue = pool.queue.erase call := rfl
  constructor
  · exact consistent.counted
  · exact consistent.bounded
  · rw [queue, waiting_settle final, consistent.queued]
    rfl
  · exact congrArg (·.erase call) consistent.timed
  · intro nonempty
    apply consistent.full
    intro empty
    rw [queue, empty] at nonempty
    exact nonempty rfl
  · intro signal other
    change (signal, other) ∈ pool.listeners.filter _ ↔ _
    rw [List.mem_filter, consistent.heard, signals, queue, nodup.mem_erase_iff,
      decide_eq_true_iff]
    constructor
    · intro kept
      exact ⟨⟨kept.2, kept.1.1⟩, kept.1.2⟩
    · intro kept
      exact ⟨⟨kept.1.2, kept.2⟩, kept.1.1⟩
  · intro index releaser found
    have before := consistent.owned index releaser found
    rw [answers]
    split
    · next changed =>
        rw [changed.1, changed.2] at before
        cases before
    · exact before
  · intro other member signal signalled
    rw [signals] at signalled
    exact consistent.alive other (List.mem_of_mem_erase member) signal signalled

theorem timeout (consistent : Consistent held capacity aborted pool) (call : Nat) :
    Consistent held capacity aborted (pool.timeout call) := by
  unfold Pool.timeout
  split
  · exact consistent.dismiss call (by simp)
  · exact consistent

theorem length_holders_set {index : Nat} {releaser : Releaser}
    (found : pool.releasers[index]? = some releaser) (held' : releaser.released = false) :
    ((pool.releasers.set index { releaser with released := true }).filter fun releaser =>
      releaser.released = false).length + 1 = pool.holders.length := by
  obtain ⟨inside, same⟩ := List.getElem?_eq_some_iff.mp found
  have positive : 0 < pool.releasers.countP fun releaser => decide (releaser.released = false) := by
    apply List.countP_pos_iff.mpr
    exact ⟨releaser, List.mem_of_getElem? found, decide_eq_true held'⟩
  rw [holders, ← List.countP_eq_length_filter, ← List.countP_eq_length_filter,
    List.countP_set inside, same]
  simp only [held', decide_true, if_true, Bool.true_eq_false, decide_false, Bool.false_eq_true,
    if_false]
  omega

/-- A release function keeps its call when its flag is set. -/
theorem owned_set (consistent : Consistent held capacity aborted pool) {index : Nat}
    {releaser : Releaser} (found : pool.releasers[index]? = some releaser) {other : Nat}
    {entry : Releaser}
    (listed : (pool.releasers.set index { releaser with released := true })[other]? = some entry) :
    pool.answerOf entry.call = some (.granted other) := by
  rw [List.getElem?_set] at listed
  split at listed
  · next same =>
      split at listed
      · have marked := Option.some.inj listed
        rw [← marked, ← same]
        exact consistent.owned index releaser found
      · cases listed
  · exact consistent.owned other entry listed

/-- With nobody waiting the slot is free again. -/
theorem giveBack (consistent : Consistent held capacity aborted pool)
    (counts : slots.Counts held capacity) {index : Nat} {releaser : Releaser}
    (found : pool.releasers[index]? = some releaser) (held' : releaser.released = false)
    (empty : pool.queue = []) {after : Pool κ}
    (shape : after =
      { pool with
        releasers := pool.releasers.set index { releaser with released := true }
        counter := slots.giveBack pool.counter }) :
    Consistent held capacity aborted after := by
  have fewer : after.holders.length + 1 = pool.holders.length := by
    rw [shape]
    exact length_holders_set found held'
  have counter : after.counter = slots.giveBack pool.counter := by rw [shape]
  have counted := consistent.counted
  have bounded := consistent.bounded
  have given := counts.giveBack pool.counter (by omega) (by omega)
  constructor
  · rw [counter]
    omega
  · omega
  · rw [shape]
    exact consistent.queued
  · rw [shape]
    exact consistent.timed
  · rw [shape]
    exact fun reached => absurd empty reached
  · rw [shape]
    exact consistent.heard
  · rw [shape]
    intro other entry listed
    exact consistent.owned_set found listed
  · rw [shape]
    exact consistent.alive

/-- The call that has waited longest takes the slot over; the counter is not touched. -/
theorem handOver (consistent : Consistent held capacity aborted pool) {index : Nat}
    {releaser : Releaser} (found : pool.releasers[index]? = some releaser)
    (held' : releaser.released = false) {next : Nat} {rest : List Nat}
    (queue : pool.queue = next :: rest) {after : Pool κ}
    (shape : after =
      { pool with
        releasers := pool.releasers.set index { releaser with released := true }
        queue := rest }.grant next) :
    Consistent held capacity aborted after ∧ after.queue = rest ∧ after.waiting = rest ∧
      after.counter = pool.counter ∧
      after.releasers =
        pool.releasers.set index { releaser with released := true } ++ [⟨next, false⟩] ∧
      ∀ other, after.answerOf other =
        if other = next then some (.granted pool.releasers.length) else pool.answerOf other := by
  have nodup := consistent.queue_nodup
  rw [queue, List.nodup_cons] at nodup
  have pending : pool.answerOf next = some .pending :=
    consistent.answerOf_queue.mp (queue ▸ List.mem_cons_self)
  have size : (pool.releasers.set index { releaser with released := true }).length =
      pool.releasers.length := List.length_set
  have answers : ∀ other, after.answerOf other =
      if other = next then some (.granted pool.releasers.length) else pool.answerOf other := by
    intro other
    rw [shape, Pool.grant, answerOf_settle, size]
    change (if other = next ∧ pool.answerOf next = some .pending then _ else pool.answerOf other) = _
    rw [pending]
    simp
  have signals : ∀ other, after.signalOf other = pool.signalOf other := by
    intro other
    rw [shape, Pool.grant, signalOf_settle]
    rfl
  have left : after.queue = rest := by
    rw [shape]
    exact List.erase_of_not_mem nodup.1
  have waiting : after.waiting = rest := by
    rw [shape, Pool.grant, waiting_settle (by simp)]
    change pool.waiting.erase next = rest
    rw [← consistent.queued, queue, List.erase_cons_head]
  have counter : after.counter = pool.counter := by
    rw [shape]
    rfl
  have releasers : after.releasers =
      pool.releasers.set index { releaser with released := true } ++ [⟨next, false⟩] := by
    rw [shape]
    rfl
  have holders : after.holders.length = pool.holders.length := by
    have fewer := length_holders_set found held'
    rw [Pool.holders, releasers, List.filter_append, List.length_append, ← fewer]
    rfl
  refine ⟨?_, left, waiting, counter, releasers, answers⟩
  constructor
  · rw [counter, holders]
    exact consistent.counted
  · rw [holders]
    exact consistent.bounded
  · rw [left, waiting]
  · rw [left, shape]
    change pool.timers.erase next = rest
    rw [consistent.timed, queue, List.erase_cons_head]
  · intro _
    rw [holders]
    exact consistent.full (by rw [queue]; simp)
  · intro signal other
    have before := consistent.heard signal other
    rw [queue, List.mem_cons] at before
    rw [left, signals, shape]
    change (signal, other) ∈ pool.listeners.filter _ ↔ _
    rw [List.mem_filter, before, decide_eq_true_iff]
    constructor
    · intro kept
      exact ⟨kept.1.1.resolve_left kept.2, kept.1.2⟩
    · intro kept
      exact ⟨⟨.inr kept.1, kept.2⟩, fun same => nodup.1 (same ▸ kept.1)⟩
  · intro other entry listed
    rw [releasers, List.getElem?_append] at listed
    rw [answers]
    split at listed
    · have before := consistent.owned_set found listed
      have different : entry.call ≠ next := by
        intro same
        rw [same, pending] at before
        cases before
      rw [if_neg different]
      exact before
    · next late =>
        obtain ⟨inside, same⟩ := List.getElem?_eq_some_iff.mp listed
        rw [size] at late inside
        rw [List.length_singleton] at inside
        have last : other = pool.releasers.length := by omega
        rw [List.getElem_singleton] at same
        rw [← same, if_pos rfl, last]
  · intro other member signal signalled
    rw [left] at member
    rw [signals] at signalled
    exact consistent.alive other (queue ▸ List.mem_cons_of_mem _ member) signal signalled

theorem release (consistent : Consistent held capacity aborted pool)
    (counts : slots.Counts held capacity) (index : Nat) :
    Consistent held capacity aborted (pool.release slots index) := by
  unfold Pool.release
  split
  · exact consistent
  · next releaser found =>
      split
      · exact consistent
      · next held' =>
          rw [Bool.not_eq_true] at held'
          dsimp only
          split
          · next next' rest queue =>
              exact (consistent.handOver found held' queue rfl).1
          · next empty =>
              exact consistent.giveBack counts found held' empty rfl

theorem acquire (consistent : Consistent held capacity aborted pool)
    (counts : slots.Counts held capacity) (signal : Option Nat) :
    Consistent held capacity aborted (pool.acquire slots aborted signal) := by
  unfold Pool.acquire
  split
  · exact consistent.answered (by simp) rfl
  · next alive =>
      split
      · next free => exact consistent.takeSlot counts free signal
      · next taken =>
          apply consistent.wait counts taken (fun fired same => ?_) rfl
          rw [same] at alive
          simpa using alive

theorem tryAcquire (consistent : Consistent held capacity aborted pool)
    (counts : slots.Counts held capacity) :
    Consistent held capacity aborted (pool.tryAcquire slots) := by
  unfold Pool.tryAcquire
  split
  · next free => exact consistent.takeSlot counts free none
  · exact consistent.answered (by simp) rfl

/-- One listener after another: each call that still listens is rejected, the others keep
their answers. -/
theorem dispatch (consistent : Consistent held capacity aborted pool) {signal : Nat}
    {listeners : List (Nat × Nat)} (own : ∀ listener ∈ listeners, listener.1 = signal) :
    Consistent held capacity aborted (pool.dispatch signal listeners) ∧
    ∀ call, (pool.dispatch signal listeners).signalOf call = pool.signalOf call ∧
      (pool.dispatch signal listeners).answerOf call =
        if (signal, call) ∈ listeners ∧ (signal, call) ∈ pool.listeners then
          some (.rejected (.reason signal))
        else pool.answerOf call := by
  induction listeners generalizing pool with
  | nil =>
      refine ⟨consistent, fun call => ⟨rfl, ?_⟩⟩
      rw [if_neg (fun listed => absurd listed.1 List.not_mem_nil)]
      rfl
  | cons listener rest ih =>
      have named : listener = (signal, listener.2) := by
        rw [← own listener List.mem_cons_self]
      rw [Pool.dispatch, List.foldl_cons]
      by_cases listens : listener ∈ pool.listeners
      · rw [if_pos listens]
        have next : Consistent held capacity aborted (pool.onAbort signal listener.2) :=
          consistent.dismiss listener.2 (by simp)
        obtain ⟨after, answers⟩ := ih next fun other member =>
          own other (List.mem_cons_of_mem _ member)
        have waits := ((consistent.heard signal listener.2).mp (named ▸ listens)).1
        have pending := consistent.answerOf_queue.mp waits
        refine ⟨after, fun call => ⟨?_, ?_⟩⟩
        · exact (answers call).1.trans signalOf_settle
        · refine (answers call).2.trans ?_
          have settled : (pool.onAbort signal listener.2).answerOf call =
              if call = listener.2 then some (.rejected (.reason signal))
              else pool.answerOf call := by
            rw [Pool.onAbort, answerOf_settle]
            change (if call = listener.2 ∧ pool.answerOf listener.2 = some .pending then _
              else pool.answerOf call) = _
            rw [pending]
            simp
          have listening : (signal, call) ∈ (pool.onAbort signal listener.2).listeners ↔
              (signal, call) ∈ pool.listeners ∧ call ≠ listener.2 := by
            change (signal, call) ∈ pool.listeners.filter _ ↔ _
            rw [List.mem_filter, decide_eq_true_iff]
          simp only [settled, listening, List.mem_cons]
          by_cases same : call = listener.2
          · subst same
            have first : (signal, listener.2) = listener := named.symm
            simp [first, listens]
          · have other : (signal, call) ≠ listener := fun equal => same (congrArg Prod.snd equal)
            simp [same, other]
      · rw [if_neg listens]
        obtain ⟨after, answers⟩ := ih consistent fun other member =>
          own other (List.mem_cons_of_mem _ member)
        refine ⟨after, fun call => ⟨(answers call).1, (answers call).2.trans ?_⟩⟩
        simp only [List.mem_cons]
        by_cases same : (signal, call) = listener
        · rw [same]
          simp [listens]
        · simp [same]

theorem abort (consistent : Consistent held capacity aborted pool) (signal : Nat) :
    Consistent held capacity (signal :: aborted) (pool.abort signal) ∧
      ∀ call, (pool.abort signal).answerOf call =
        if call ∈ pool.queue ∧ pool.signalOf call = some signal then
          some (.rejected (.reason signal))
        else pool.answerOf call := by
  have own : ∀ listener ∈ pool.listeners.filter (fun listener => listener.1 = signal),
      listener.1 = signal := by
    intro listener member
    exact of_decide_eq_true (List.mem_filter.mp member).2
  obtain ⟨after, changed⟩ := consistent.dispatch own
  have answers : ∀ call, (pool.abort signal).answerOf call =
      if call ∈ pool.queue ∧ pool.signalOf call = some signal then
        some (.rejected (.reason signal))
      else pool.answerOf call := by
    intro call
    refine (changed call).2.trans ?_
    simp only [List.mem_filter, consistent.heard, decide_true, and_true, and_self]
  refine ⟨?_, answers⟩
  exact { after with
    alive := by
      intro call member listening signalled
      rw [List.mem_cons, not_or]
      refine ⟨?_, after.alive call member listening signalled⟩
      intro same
      have pending : (pool.abort signal).answerOf call = some .pending :=
        after.answerOf_queue.mp member
      rw [same] at signalled
      have listened : pool.signalOf call = some signal := (changed call).1.symm.trans signalled
      rw [answers] at pending
      split at pending
      · cases pending
      · next spared =>
          exact spared ⟨consistent.answerOf_queue.mpr pending, listened⟩ }

end Consistent

/-- The slots of one kind are kept: what holds of them now, and what the next release,
timeout, abort or call does. -/
structure Kept (slots : SlotCounter κ) (capacity : Nat) (aborted : List Nat) (pool : Pool κ) :
    Prop where
  shared : pool.holders.length ≤ capacity
  queued : pool.queue = pool.waiting
  full : pool.queue ≠ [] → pool.holders.length = capacity
  free : pool.holders = [] → pool.queue = [] → pool.counter = slots.initial
  /-- Only a granted call has a release function, each its own. -/
  granted : ∀ index releaser, pool.releasers[index]? = some releaser →
    pool.answerOf releaser.call = some (.granted index)
  /-- A freed slot goes to the call that has waited longest. -/
  handedOver : ∀ index releaser, pool.releasers[index]? = some releaser →
    releaser.released = false → ∀ next rest, pool.waiting = next :: rest →
      (∀ call ∈ rest, next < call) ∧
      (pool.release slots index).waiting = rest ∧
      (pool.release slots index).counter = pool.counter ∧
      (pool.release slots index).releasers =
        pool.releasers.set index { releaser with released := true } ++ [⟨next, false⟩] ∧
      ∀ call, (pool.release slots index).answerOf call =
        if call = next then some (.granted pool.releasers.length) else pool.answerOf call
  repeated : ∀ index, (∀ releaser, pool.releasers[index]? = some releaser →
    releaser.released = true) → pool.release slots index = pool
  timedOut : ∀ call ∈ pool.waiting,
    (pool.timeout call).answerOf call = some (.rejected (.aiBusyError BUSY_MESSAGE))
  left : ∀ signal, ∀ call ∈ pool.waiting, pool.signalOf call = some signal →
    (pool.abort signal).answerOf call = some (.rejected (.reason signal))
  present : ∀ call ∈ pool.waiting, ∀ signal, pool.signalOf call = some signal → signal ∉ aborted
  /-- A call whose signal has fired already is turned away, and nothing else changes. -/
  gone : ∀ signal ∈ aborted, pool.acquire slots aborted (some signal) =
    { pool with calls := pool.calls ++ [⟨some signal, .rejected (.reason signal)⟩] }

theorem Consistent.kept {slots : SlotCounter κ} {held : κ → ℤ} {capacity : Nat}
    {aborted : List Nat} {pool : Pool κ} (consistent : Consistent held capacity aborted pool)
    (counts : slots.Counts held capacity) : Kept slots capacity aborted pool where
  shared := consistent.bounded
  queued := consistent.queued
  full := consistent.full
  free := by
    intro empty _
    apply (counts.initial _).mp
    rw [consistent.counted, empty]
    rfl
  granted := consistent.owned
  handedOver := by
    intro index releaser found held' next rest waiting
    have queue : pool.queue = next :: rest := consistent.queued.trans waiting
    have sorted := pool.waiting_sorted
    rw [waiting, List.pairwise_cons] at sorted
    have shape : pool.release slots index =
        { pool with
          releasers := pool.releasers.set index { releaser with released := true }
          queue := rest }.grant next := by
      simp only [Pool.release, found, held', queue]
      rfl
    obtain ⟨_, _, waits, counter, releasers, answers⟩ :=
      consistent.handOver found held' queue shape
    exact ⟨sorted.1, waits, counter, releasers, answers⟩
  repeated := by
    intro index marked
    unfold Pool.release
    split
    · rfl
    · next releaser found =>
        rw [if_pos (marked releaser found)]
  timedOut := by
    intro call member
    have waits : call ∈ pool.timers := by
      rw [consistent.timed, consistent.queued]
      exact member
    rw [Pool.timeout, if_pos waits, answerOf_settle]
    exact if_pos ⟨rfl, mem_waiting.mp member⟩
  left := by
    intro signal call member signalled
    rw [(consistent.abort signal).2]
    exact if_pos ⟨consistent.queued ▸ member, signalled⟩
  present := by
    intro call member
    exact consistent.alive call (consistent.queued ▸ member)
  gone := by
    intro signal fired
    simp [Pool.acquire, fired, Option.filter]

def Keeps (before after : Pool κ) : Prop :=
  ∀ call answer, before.answerOf call = some answer → answer ≠ .pending →
    after.answerOf call = some answer

namespace Keeps

variable {slots : SlotCounter κ} {before middle after : Pool κ}

theorem of_calls (same : after.calls = before.calls) : Keeps before after := by
  intro call answer answered _
  unfold answerOf at answered ⊢
  rw [same]
  exact answered

theorem trans (first : Keeps before middle) (second : Keeps middle after) : Keeps before after := by
  intro call answer answered final
  exact second call answer (first call answer answered final) final

theorem settle (pool : Pool κ) (call : Nat) (answer : Answer) :
    Keeps pool (pool.settle call answer) := by
  intro other given answered final
  rw [answerOf_settle]
  split
  · next changed =>
      rw [changed.1, changed.2] at answered
      exact absurd (Option.some.inj answered).symm final
  · exact answered

theorem append {entry : Call} (calls : after.calls = before.calls ++ [entry]) :
    Keeps before after := by
  intro call answer answered _
  rw [answerOf_append calls, if_neg (Nat.ne_of_lt (lt_of_answerOf answered))]
  exact answered

theorem dismiss (pool : Pool κ) (call : Nat) (answer : Answer) :
    Keeps pool ((pool.leave call).settle call answer) :=
  trans (of_calls rfl) (settle _ call answer)

theorem timeout (pool : Pool κ) (call : Nat) : Keeps pool (pool.timeout call) := by
  unfold Pool.timeout
  split
  · exact dismiss pool call _
  · exact of_calls rfl

theorem release (pool : Pool κ) (index : Nat) : Keeps pool (pool.release slots index) := by
  unfold Pool.release
  split
  · exact of_calls rfl
  · split
    · exact of_calls rfl
    · dsimp only
      split
      · exact trans (of_calls rfl) (settle _ _ _)
      · exact of_calls rfl

theorem acquire (pool : Pool κ) (aborted : List Nat) (signal : Option Nat) :
    Keeps pool (pool.acquire slots aborted signal) := by
  unfold Pool.acquire
  split
  · exact append rfl
  · split
    · exact append rfl
    · exact append rfl

theorem tryAcquire (pool : Pool κ) : Keeps pool (pool.tryAcquire slots) := by
  unfold Pool.tryAcquire
  split
  · exact append rfl
  · exact append rfl

theorem dispatch (pool : Pool κ) (signal : Nat) (listeners : List (Nat × Nat)) :
    Keeps pool (pool.dispatch signal listeners) := by
  induction listeners generalizing pool with
  | nil => exact of_calls rfl
  | cons listener rest ih =>
      rw [Pool.dispatch, List.foldl_cons]
      split
      · exact trans (dismiss pool listener.2 _) (ih _)
      · exact ih pool

end Keeps

end Pool

namespace Slots

variable {maxConcurrent : Nat}

structure Consistent (maxConcurrent : Nat) (slots : Slots) : Prop where
  model : Pool.Consistent (fun slotHeld => if slotHeld then 1 else 0) 1 slots.aborted slots.model
  hosted : Pool.Consistent id maxConcurrent slots.aborted slots.hosted

theorem Consistent.step {slots : Slots} (consistent : Consistent maxConcurrent slots)
    (action : SlotAction) : Consistent maxConcurrent (slots.step maxConcurrent action) := by
  cases action with
  | acquireModelSlot signal =>
      exact ⟨consistent.model.acquire modelSlot_counts signal, consistent.hosted⟩
  | tryAcquireModelSlot =>
      exact ⟨consistent.model.tryAcquire modelSlot_counts, consistent.hosted⟩
  | releaseModel index =>
      exact ⟨consistent.model.release modelSlot_counts index, consistent.hosted⟩
  | modelTimeout call =>
      exact ⟨consistent.model.timeout call, consistent.hosted⟩
  | acquireHostedSlot signal =>
      exact ⟨consistent.model,
        consistent.hosted.acquire (hostedSlots_counts maxConcurrent) signal⟩
  | releaseHosted index =>
      exact ⟨consistent.model, consistent.hosted.release (hostedSlots_counts maxConcurrent) index⟩
  | hostedTimeout call =>
      exact ⟨consistent.model, consistent.hosted.timeout call⟩
  | abort signal =>
      change Consistent maxConcurrent (slots.abort signal)
      unfold Slots.abort
      split
      · exact consistent
      · exact ⟨(consistent.model.abort signal).1, (consistent.hosted.abort signal).1⟩

theorem run_concat (actions : List SlotAction) (action : SlotAction) :
    run maxConcurrent (actions ++ [action]) =
      (run maxConcurrent actions).step maxConcurrent action :=
  List.foldl_concat _ _ _ _

end Slots

end ZabbixPortal.Clients
