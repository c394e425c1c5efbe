import ZabbixPortal.Clients.Limits
import ZabbixPortal.Foundation.Runs
import Mathlib.Data.List.Dedup
import Mathlib.Data.List.Induction
import Mathlib.Data.List.Pairwise

/-! The caps over whole runs: what each key's own calls decide of its minutes, and which records
a day's refusals count. -/

set_option autoImplicit false

namespace ZabbixPortal.Clients

open Foundation Sli

namespace MinuteLimit

/-! ## What a key is due -/

/-- Where a call falls: the start of its key's minute, and which of the minute's calls it is. -/
structure Turn where
  start : ℤ
  nth : ℕ
deriving DecidableEq, Repr

def runningAt (last : Option Turn) (now : ℤ) : Option Turn :=
  last.filter fun turn => decide (now < turn.start + 60000)

def nextTurn (last : Option Turn) (now : ℤ) : Turn :=
  match runningAt last now with
  | some turn => ⟨turn.start, turn.nth + 1⟩
  | none => ⟨now, 1⟩

def turnAfter (times : List ℤ) : Option Turn :=
  times.foldl (fun last now => some (nextTurn last now)) none

structure Call where
  key : String
  now : ℤ
deriving DecidableEq, Repr

def callsOf (key : String) (calls : List Call) : List Call :=
  calls.filter fun call => decide (call.key = key)

def timesOf (key : String) (calls : List Call) : List ℤ := (callsOf key calls).map Call.now

def turnOf (before : List Call) (call : Call) : Turn :=
  nextTurn (turnAfter (timesOf call.key before)) call.now

def runningKeys (calls : List Call) (now : ℤ) : List String :=
  (calls.map Call.key).dedup.filter fun key => (runningAt (turnAfter (timesOf key calls)) now).isSome

/-- The calls come at non-decreasing times, and the keys with a running minute fit the table. -/
structure Bounded (calls : List Call) : Prop where
  ordered : calls.Pairwise fun earlier later => earlier.now ≤ later.now
  fits : ∀ before call after, calls = before ++ call :: after →
    (runningKeys (before ++ [call]) call.now).length ≤ 5000

/-! ## The runs of the code -/

def tableAfter (max : ℕ) (calls : List Call) : MinuteWindows :=
  calls.foldl (fun windows call => (take max windows call.key call.now).1) .empty

def answerTo (max : ℕ) (before : List Call) (call : Call) : Option ℤ :=
  (take max (tableAfter max before) call.key call.now).2

theorem tableAfter_snoc (max : ℕ) (calls : List Call) (call : Call) :
    tableAfter max (calls ++ [call]) = (take max (tableAfter max calls) call.key call.now).1 := by
  simp [tableAfter]

theorem turnAfter_snoc (times : List ℤ) (now : ℤ) :
    turnAfter (times ++ [now]) = some (nextTurn (turnAfter times) now) := by
  simp [turnAfter]

theorem timesOf_snoc (key : String) (calls : List Call) (call : Call) :
    timesOf key (calls ++ [call]) =
      if call.key = key then timesOf key calls ++ [call.now] else timesOf key calls := by
  by_cases own : call.key = key <;> simp [timesOf, callsOf, own]

/-! ## One call -/

def live (windows : MinuteWindows) (key : String) (now : ℤ) : Option MinuteWindow :=
  (windows.get? key).filter fun window => decide (now < window.resetAt)

section Step

variable (max : ℕ) (windows : MinuteWindows) (key : String) (now : ℤ)

theorem take_of_none (idle : live windows key now = none) :
    take max windows key now = (startMinute windows key now, none) := by
  unfold take
  cases found : windows.get? key with
  | none => rfl
  | some window =>
      have ended : window.resetAt ≤ now := by simpa [live, found] using idle
      simp only [if_pos ended]

theorem take_of_live {window : MinuteWindow} (running : live windows key now = some window) :
    take max windows key now =
      if window.count ≥ max then (windows, some (wait window now))
      else (windows.set key { window with count := window.count + 1 }, none) := by
  obtain ⟨found, started⟩ := Option.filter_eq_some_iff.mp running
  have going : ¬ window.resetAt ≤ now := not_le.mpr (by simpa using started)
  unfold take
  rw [found]
  simp only [if_neg going]

theorem downTo_of_le {most : ℕ} {windows : MinuteWindows} (few : windows.size ≤ most) :
    downTo most windows = windows := by
  rw [downTo, if_neg (not_lt.mpr few)]

/-- With room for the running minutes, the pruning drops none of them. -/
theorem live_startMinute
    (room : (((windows.delete key).set key ⟨1, now + WINDOW_MS⟩).filter
      fun entry => decide (now < entry.2.resetAt)).size ≤ MAX_KEYS) (other : String) :
    live (startMinute windows key now) other now =
      if other = key then some ⟨1, now + WINDOW_MS⟩ else live windows other now := by
  have started : live ((windows.delete key).set key ⟨1, now + WINDOW_MS⟩) other now =
      if other = key then some ⟨1, now + WINDOW_MS⟩ else live windows other now := by
    unfold live
    rw [OrderedMap.get?_set, OrderedMap.get?_delete]
    by_cases same : other = key <;> simp [same, WINDOW_MS]
  unfold startMinute
  dsimp only
  split
  · rw [← started, prune, downTo_of_le room, live, live, OrderedMap.get?_filter,
      Option.filter_filter]
    simp
  · exact started

end Step

/-! ## A whole run -/

def windowOf (max : ℕ) (turn : Turn) : MinuteWindow := ⟨min turn.nth max, turn.start + 60000⟩

/-- The running minutes of the table are those that the calls have started. -/
def Tracks (max : ℕ) (windows : MinuteWindows) (calls : List Call) (now : ℤ) : Prop :=
  ∀ key, live windows key now =
    (runningAt (turnAfter (timesOf key calls)) now).map (windowOf max)

theorem live_later (windows : MinuteWindows) (key : String) {now later : ℤ} (passed : now ≤ later) :
    live windows key later =
      (live windows key now).filter fun window => decide (later < window.resetAt) := by
  rw [live, live, Option.filter_filter]
  congr 1
  funext window
  by_cases kept : later < window.resetAt
  · simp [kept, lt_of_le_of_lt passed kept]
  · simp [kept]

theorem runningAt_later (last : Option Turn) {now later : ℤ} (passed : now ≤ later) :
    runningAt last later =
      (runningAt last now).filter fun turn => decide (later < turn.start + 60000) := by
  rw [runningAt, runningAt, Option.filter_filter]
  congr 1
  funext turn
  by_cases kept : later < turn.start + 60000
  · simp [kept, lt_of_le_of_lt passed kept]
  · simp [kept]

variable {max : ℕ} {windows : MinuteWindows} {calls : List Call}

theorem Tracks.later {now later : ℤ} (tracks : Tracks max windows calls now)
    (passed : now ≤ later) : Tracks max windows calls later := by
  intro key
  rw [live_later windows key passed, runningAt_later _ passed, tracks key]
  cases runningAt (turnAfter (timesOf key calls)) now with
  | none => rfl
  | some turn => by_cases kept : later < turn.start + 60000 <;> simp [Option.filter, windowOf, kept]

theorem mem_runningKeys {key : String} {now : ℤ} :
    key ∈ runningKeys calls now ↔ (runningAt (turnAfter (timesOf key calls)) now).isSome := by
  unfold runningKeys
  rw [List.mem_filter, List.mem_dedup]
  constructor
  · exact And.right
  · intro running
    refine ⟨?_, running⟩
    by_contra absent
    have empty : callsOf key calls = [] := by
      refine List.filter_eq_nil_iff.mpr fun call member => ?_
      have other : call.key ≠ key := fun same => absent (same ▸ List.mem_map_of_mem member)
      simpa using other
    simp [timesOf, empty, turnAfter, runningAt] at running

theorem running_snoc (calls : List Call) (call : Call) (key : String) :
    runningAt (turnAfter (timesOf key (calls ++ [call]))) call.now =
      if key = call.key then some (turnOf calls call)
      else runningAt (turnAfter (timesOf key calls)) call.now := by
  rw [timesOf_snoc]
  by_cases own : key = call.key
  · subst own
    rw [if_pos rfl, if_pos rfl, turnAfter_snoc]
    refine Option.filter_eq_some_iff.mpr ⟨rfl, ?_⟩
    cases running : runningAt (turnAfter (timesOf call.key calls)) call.now with
    | none => simp [turnOf, nextTurn, running]
    | some turn =>
        simpa [turnOf, nextTurn, running] using (Option.filter_eq_some_iff.mp running).2
  · rw [if_neg own, if_neg fun same => own same.symm]

/-- The running minutes of the table after a call are those of the keys that run. -/
theorem size_started_le (call : Call) (tracks : Tracks max windows calls call.now)
    (fits : (runningKeys (calls ++ [call]) call.now).length ≤ MAX_KEYS) :
    (((windows.delete call.key).set call.key ⟨1, call.now + WINDOW_MS⟩).filter
      fun entry => decide (call.now < entry.2.resetAt)).size ≤ MAX_KEYS := by
  refine le_trans ?_ fits
  have within : ∀ key ∈ (((windows.delete call.key).set call.key
      ⟨1, call.now + WINDOW_MS⟩).filter fun entry => decide (call.now < entry.2.resetAt)).keys,
      key ∈ runningKeys (calls ++ [call]) call.now := by
    intro key member
    rw [mem_runningKeys, running_snoc]
    by_cases own : key = call.key
    · simp [own]
    · rw [if_neg own]
      obtain ⟨⟨other, window⟩, inside, same⟩ := List.mem_map.mp member
      cases same
      obtain ⟨entered, going⟩ := List.mem_filter.mp inside
      have kept : windows.get? other = some window := by
        have found := (OrderedMap.get?_eq_some_iff _ _ _).mpr entered
        rwa [OrderedMap.get?_set, if_neg own, OrderedMap.get?_delete, if_neg own] at found
      have running : live windows other call.now = some window :=
        Option.filter_eq_some_iff.mpr ⟨kept, going⟩
      rw [tracks other] at running
      obtain ⟨turn, found, _⟩ := Option.map_eq_some_iff.mp running
      rw [found]
      rfl
  have distinct := OrderedMap.keys_nodup (((windows.delete call.key).set call.key
      ⟨1, call.now + WINDOW_MS⟩).filter fun entry => decide (call.now < entry.2.resetAt))
  have shorter := (List.subperm_of_subset distinct within).length_le
  simpa [OrderedMap.keys, OrderedMap.size] using shorter

def dueAt (max : ℕ) (turn : Turn) (now : ℤ) : Option ℤ :=
  if turn.nth ≤ max then none else some (Max.max 1 ((turn.start + 60000 - now + 999) / 1000))

theorem Tracks.take {call : Call} (tracks : Tracks max windows calls call.now) (positive : 1 ≤ max)
    (fits : (runningKeys (calls ++ [call]) call.now).length ≤ MAX_KEYS) :
    Tracks max (take max windows call.key call.now).1 (calls ++ [call]) call.now ∧
      (take max windows call.key call.now).2 = dueAt max (turnOf calls call) call.now := by
  have own := tracks call.key
  cases running : runningAt (turnAfter (timesOf call.key calls)) call.now with
  | none =>
      rw [running, Option.map_none] at own
      have turn : turnOf calls call = ⟨call.now, 1⟩ := by rw [turnOf, nextTurn, running]
      rw [take_of_none max windows call.key call.now own, turn]
      refine ⟨fun key => ?_, by simp [dueAt, positive]⟩
      dsimp only
      rw [live_startMinute windows call.key call.now (size_started_le call tracks fits),
        running_snoc, turn]
      by_cases same : key = call.key
      · simp [same, windowOf, positive, WINDOW_MS]
      · rw [if_neg same, if_neg same, tracks key]
  | some last =>
      rw [running, Option.map_some] at own
      have turn : turnOf calls call = ⟨last.start, last.nth + 1⟩ := by rw [turnOf, nextTurn, running]
      rw [take_of_live max windows call.key call.now own, turn]
      have count : (windowOf max last).count = min last.nth max := rfl
      by_cases full : max ≤ last.nth
      · rw [if_pos (by rw [count, min_eq_right full])]
        refine ⟨fun key => ?_, ?_⟩
        · dsimp only
          rw [running_snoc, turn, tracks key]
          by_cases same : key = call.key
          · subst same
            simp [running, windowOf, full, Nat.le_succ_of_le full]
          · rw [if_neg same]
        · simp [dueAt, Nat.not_le.mpr (Nat.lt_succ_of_le full), wait, windowOf]
      · have room : last.nth < max := not_le.mp full
        rw [if_neg (by rw [count, min_eq_left room.le]; exact full)]
        refine ⟨fun key => ?_, by simp [dueAt, Nat.succ_le_of_lt room]⟩
        dsimp only
        rw [running_snoc, turn, live, OrderedMap.get?_set]
        by_cases same : key = call.key
        · have before : call.now < last.start + 60000 :=
            of_decide_eq_true (Option.filter_eq_some_iff.mp own).2
          simp [same, windowOf, room.le, Nat.succ_le_of_lt room, Option.filter, before]
        · rw [if_neg same, if_neg same]
          exact tracks key

theorem Bounded.front {before rest : List Call} (bounded : Bounded (before ++ rest)) :
    Bounded before := by
  refine ⟨(List.pairwise_append.mp bounded.ordered).1, fun front call after split => ?_⟩
  exact bounded.fits front call (after ++ rest) (by rw [split]; simp)

theorem Bounded.passed {before after : List Call} {call : Call}
    (bounded : Bounded (before ++ call :: after)) : ∀ other ∈ before, other.now ≤ call.now :=
  fun other member => (List.pairwise_append.mp bounded.ordered).2.2 other member call (by simp)

/-- By induction on the run: after its calls the table has the running minutes. -/
theorem tracks_run (positive : 1 ≤ max) (calls : List Call) (bounded : Bounded calls) (now : ℤ)
    (passed : ∀ call ∈ calls, call.now ≤ now) : Tracks max (tableAfter max calls) calls now := by
  induction calls using List.reverseRecOn generalizing now with
  | nil =>
      intro key
      simp [tableAfter, live, timesOf, callsOf, turnAfter, runningAt]
  | append_singleton calls call ih =>
      have fits := bounded.fits calls call [] rfl
      have before := ih bounded.front call.now bounded.passed
      rw [tableAfter_snoc]
      exact (before.take positive fits).1.later (passed call (by simp))

/-- What a call is answered follows from its turn, and so from its own key's calls. -/
theorem answerTo_eq (positive : 1 ≤ max) {before after : List Call} {call : Call}
    (bounded : Bounded (before ++ call :: after)) :
    answerTo max before call = dueAt max (turnOf before call) call.now := by
  have tracks := tracks_run positive before bounded.front call.now bounded.passed
  exact (tracks.take positive (bounded.fits before call after rfl)).2

theorem answerTo_eq_none_iff (positive : 1 ≤ max) {before after : List Call} {call : Call}
    (bounded : Bounded (before ++ call :: after)) :
    answerTo max before call = none ↔ (turnOf before call).nth ≤ max := by
  rw [answerTo_eq positive bounded, dueAt]
  split
  · next within => simp [within]
  · next beyond => simp [beyond]

/-- A refused call leaves the table as it was. -/
theorem tableAfter_refused {before : List Call} {call : Call} {seconds : ℤ}
    (refused : answerTo max before call = some seconds) :
    tableAfter max (before ++ [call]) = tableAfter max before := by
  rw [tableAfter_snoc]
  unfold answerTo at refused
  cases running : live (tableAfter max before) call.key call.now with
  | none =>
      rw [take_of_none max _ _ _ running] at refused
      cases refused
  | some window =>
      rw [take_of_live max _ _ _ running] at refused ⊢
      split
      · rfl
      · next room =>
          rw [if_neg room] at refused
          cases refused

/-- The calls of one key alone never crowd the table. -/
theorem bounded_of_one (key : String)
    (ordered : calls.Pairwise fun earlier later => earlier.now ≤ later.now)
    (one : ∀ call ∈ calls, call.key = key) : Bounded calls := by
  refine ⟨ordered, fun before call after split => ?_⟩
  have within : ∀ other ∈ runningKeys (before ++ [call]) call.now, other ∈ [key] := by
    intro other member
    obtain ⟨source, inside, rfl⟩ := List.mem_map.mp
      (List.mem_dedup.mp (List.mem_filter.mp member).1)
    refine List.mem_singleton.mpr (one source ?_)
    rw [split]
    simp only [List.mem_append, List.mem_cons] at inside ⊢
    tauto
  have distinct : (runningKeys (before ++ [call]) call.now).Nodup := (List.nodup_dedup _).filter _
  have few := (List.subperm_of_subset distinct within).length_le
  exact le_trans few (show 1 ≤ 5000 by decide)

theorem Bounded.own (bounded : Bounded calls) (key : String) : Bounded (callsOf key calls) :=
  bounded_of_one key (bounded.ordered.filter _)
    fun call member => by simpa using (List.mem_filter.mp member).2

theorem turnOf_own (before : List Call) (call : Call) :
    turnOf (callsOf call.key before) call = turnOf before call := by
  simp [turnOf, timesOf, callsOf]

/-- The calls of other keys have no say in what a call is answered. -/
theorem answerTo_own (positive : 1 ≤ max) {before after : List Call} {call : Call}
    (bounded : Bounded (before ++ call :: after)) :
    answerTo max before call = answerTo max (callsOf call.key before) call := by
  have alone : Bounded (callsOf call.key before ++ call :: callsOf call.key after) := by
    simpa [callsOf] using bounded.own call.key
  rw [answerTo_eq positive bounded, answerTo_eq positive alone, turnOf_own]

/-! ## How many go ahead -/

/-- How many of some calls are of the key, satisfy the condition and go ahead. -/
def aheadOf (max : ℕ) (key : String) (among : Turn → Bool) (calls : List (List Call × Call)) : ℕ :=
  (calls.filter fun step => decide (step.2.key = key) && among (turnOf step.1 step.2) &&
    (answerTo max step.1 step.2).isNone).length

def aheadIn (max : ℕ) (key : String) (start : ℤ) (calls : List Call) : ℕ :=
  aheadOf max key (fun turn => decide (turn.start = start)) (withPast [] calls)

theorem aheadOf_snoc (key : String) (among : Turn → Bool) (past calls : List Call) (call : Call) :
    aheadOf max key among (withPast past (calls ++ [call])) =
      aheadOf max key among (withPast past calls) +
        if call.key = key ∧ among (turnOf (past ++ calls) call) = true ∧
          answerTo max (past ++ calls) call = none then 1 else 0 := by
  unfold aheadOf
  rw [withPast_snoc, List.filter_append, List.length_append]
  congr 1
  by_cases counted : call.key = key ∧ among (turnOf (past ++ calls) call) = true ∧
      answerTo max (past ++ calls) call = none
  · obtain ⟨own, inside, ahead⟩ := counted
    simp [own, inside, ahead]
  · rw [if_neg counted, List.length_eq_zero_iff, List.filter_eq_nil_iff]
    intro step member
    cases List.mem_singleton.mp member
    simpa [and_assoc, Option.isNone_iff_eq_none] using counted

/-- How many of the key's calls have gone ahead when its last call had this turn. -/
structure Counted (max : ℕ) (key : String) (calls : List Call) (last : Option Turn) : Prop where
  current : ∀ turn, last = some turn → aheadIn max key turn.start calls = min turn.nth max
  later : ∀ start, (∀ turn, last = some turn → turn.start < start) → aheadIn max key start calls = 0
  atMost : ∀ start, aheadIn max key start calls ≤ max

/-- A call goes on with its key's last turn, or starts a minute after the last one's end. -/
theorem turnOf_cases (before : List Call) (call : Call) :
    (∃ last, turnAfter (timesOf call.key before) = some last ∧
      call.now < last.start + 60000 ∧ turnOf before call = ⟨last.start, last.nth + 1⟩) ∨
    (turnOf before call = ⟨call.now, 1⟩ ∧
      ∀ last, turnAfter (timesOf call.key before) = some last → last.start + 60000 ≤ call.now) := by
  cases running : runningAt (turnAfter (timesOf call.key before)) call.now with
  | none =>
      refine .inr ⟨by simp [turnOf, nextTurn, running], fun last found => ?_⟩
      simpa [runningAt, found] using running
  | some last =>
      obtain ⟨found, going⟩ := Option.filter_eq_some_iff.mp running
      exact .inl ⟨last, found, of_decide_eq_true going, by simp [turnOf, nextTurn, running]⟩

/-- One call of the key: its minute counts it while there is room. -/
theorem Counted.call {call : Call}
    (before : Counted max call.key calls (turnAfter (timesOf call.key calls)))
    (positive : 1 ≤ max) (step : ∀ start, aheadIn max call.key start (calls ++ [call]) =
      aheadIn max call.key start calls +
        if (turnOf calls call).start = start ∧ (turnOf calls call).nth ≤ max then 1 else 0) :
    Counted max call.key (calls ++ [call]) (some (turnOf calls call)) := by
  rcases turnOf_cases calls call with ⟨last, found, _, turn⟩ | ⟨turn, ended⟩
  · have full := before.current last found
    have others : ∀ start, start ≠ last.start →
        aheadIn max call.key start (calls ++ [call]) = aheadIn max call.key start calls := by
      intro start other
      rw [step, turn, if_neg fun counted => other counted.1.symm, Nat.add_zero]
    have own : aheadIn max call.key last.start (calls ++ [call]) = min (last.nth + 1) max := by
      rw [step, turn, full]
      simp only [true_and]
      split <;> omega
    rw [turn]
    refine ⟨fun turn same => ?_, fun start beyond => ?_, fun start => ?_⟩
    · cases same
      exact own
    · have after := beyond _ rfl
      rw [others start (ne_of_gt after)]
      refine before.later start fun turn same => ?_
      cases found.symm.trans same
      exact after
    · by_cases same : start = last.start
      · rw [same, own]
        exact min_le_right _ _
      · rw [others start same]
        exact before.atMost start
  · have fresh : ∀ start, call.now ≤ start → aheadIn max call.key start calls = 0 := by
      intro start late
      refine before.later start fun last found => ?_
      have passed := ended last found
      omega
    have others : ∀ start, start ≠ call.now →
        aheadIn max call.key start (calls ++ [call]) = aheadIn max call.key start calls := by
      intro start other
      rw [step, turn, if_neg fun counted => other counted.1.symm, Nat.add_zero]
    have own : aheadIn max call.key call.now (calls ++ [call]) = min 1 max := by
      rw [step, turn, fresh _ le_rfl]
      simp [positive]
    rw [turn]
    refine ⟨fun turn same => ?_, fun start beyond => ?_, fun start => ?_⟩
    · cases same
      exact own
    · have after := beyond _ rfl
      rw [others start (ne_of_gt after)]
      exact fresh start after.le
    · by_cases same : start = call.now
      · rw [same, own]
        exact min_le_right _ _
      · rw [others start same]
        exact before.atMost start

theorem counted_run (positive : 1 ≤ max) (key : String) (calls : List Call)
    (bounded : Bounded calls) :
    Counted max key calls (turnAfter (timesOf key calls)) := by
  induction calls using List.reverseRecOn with
  | nil =>
      have never : ∀ start, aheadIn max key start [] = 0 := fun _ => rfl
      exact ⟨fun turn first => by simp [timesOf, callsOf, turnAfter] at first,
        fun start _ => never start, fun start => by simp [never start]⟩
  | append_singleton calls call ih =>
      have before := ih bounded.front
      have ahead := answerTo_eq_none_iff positive bounded
      have step : ∀ start, aheadIn max key start (calls ++ [call]) = aheadIn max key start calls +
          if call.key = key ∧ (turnOf calls call).start = start ∧ (turnOf calls call).nth ≤ max
            then 1 else 0 := by
        intro start
        rw [aheadIn, aheadOf_snoc, List.nil_append]
        simp only [ahead, decide_eq_true_eq]
        rfl
      rw [timesOf_snoc]
      by_cases own : call.key = key
      · subst own
        rw [if_pos rfl, turnAfter_snoc]
        exact before.call positive fun start => by simpa using step start
      · rw [if_neg own]
        have same : ∀ start, aheadIn max key start (calls ++ [call]) =
            aheadIn max key start calls := by
          intro start
          rw [step, if_neg fun counted => own counted.1, Nat.add_zero]
        exact ⟨fun turn found => (same _).trans (before.current turn found),
          fun start beyond => (same _).trans (before.later start beyond),
          fun start => (same start).le.trans (before.atMost start)⟩

/-! ## After the wait -/

def aheadSince (max : ℕ) (before : List Call) (refused : Call) (middle : List Call) : ℕ :=
  aheadOf max refused.key (fun _ => true) (withPast (before ++ [refused]) middle)

/-- After a call the key's turn is in that call's minute, or its minute's calls that went ahead
have done so since. -/
theorem sameMinute_or_ahead (positive : 1 ≤ max) (before middle : List Call) (refused : Call)
    (bounded : Bounded (before ++ [refused] ++ middle)) (turn : Turn)
    (last : turnAfter (timesOf refused.key (before ++ [refused] ++ middle)) = some turn) :
    turn.start = (turnOf before refused).start ∨
      min turn.nth max ≤ aheadSince max before refused middle := by
  induction middle using List.reverseRecOn generalizing turn with
  | nil =>
      rw [List.append_nil, timesOf_snoc, if_pos rfl, turnAfter_snoc] at last
      cases last
      exact .inl rfl
  | append_singleton middle call ih =>
      rw [← List.append_assoc] at bounded last
      have earlier := ih bounded.front
      have ahead := answerTo_eq_none_iff positive bounded
      rw [timesOf_snoc] at last
      unfold aheadSince
      rw [aheadOf_snoc]
      simp only [ahead, true_and]
      by_cases own : call.key = refused.key
      · rw [if_pos own, turnAfter_snoc] at last
        have now : turnOf (before ++ [refused] ++ middle) call = turn := by
          rw [turnOf, own]
          exact Option.some.inj last
        rw [now]
        simp only [own, true_and]
        rcases turnOf_cases (before ++ [refused] ++ middle) call with
          ⟨previous, found, _, next⟩ | ⟨next, _⟩
        · rw [now] at next
          rw [own] at found
          rw [next]
          rcases earlier previous found with same | counted
          · exact .inl same
          · right
            unfold aheadSince at counted
            dsimp only
            split <;> omega
        · rw [now] at next
          rw [next]
          simp [positive]
      · rw [if_neg own] at last
        rw [if_neg fun counted => own counted.1]
        exact earlier turn last

/-- A call made after the wait goes ahead, unless as many as may have done so since. -/
theorem answerTo_afterWait (positive : 1 ≤ max) {before middle after : List Call}
    {refused later : Call} (bounded : Bounded (before ++ refused :: middle ++ later :: after))
    {seconds : ℤ} (wait : answerTo max before refused = some seconds)
    (own : later.key = refused.key) (waited : refused.now + 1000 * seconds ≤ later.now)
    (room : aheadSince max before refused middle < max) :
    answerTo max (before ++ refused :: middle) later = none := by
  rw [answerTo_eq_none_iff positive bounded]
  have split : before ++ refused :: middle = before ++ [refused] ++ middle := by simp
  rw [split] at bounded ⊢
  have front : Bounded (before ++ refused :: middle) := by simpa using bounded.front
  have first := answerTo_eq positive front
  rcases turnOf_cases (before ++ [refused] ++ middle) later with
    ⟨last, found, going, next⟩ | ⟨next, _⟩
  · rw [own] at found
    rw [next]
    rcases sameMinute_or_ahead positive before middle refused bounded.front last found with
      same | counted
    · rw [first, dueAt] at wait
      split at wait
      · cases wait
      · cases wait
        omega
    · dsimp only
      omega
  · rw [next]
    exact positive

structure Capped (max : ℕ) (calls : List Call) : Prop where
  atMost : ∀ key start, aheadIn max key start calls ≤ max
  goesAhead : ∀ before call after, calls = before ++ call :: after →
    (answerTo max before call = none ↔ (turnOf before call).nth ≤ max)
  refused : ∀ before call after seconds, calls = before ++ call :: after →
    answerTo max before call = some seconds →
      tableAfter max (before ++ [call]) = tableAfter max before
  own : ∀ before call after, calls = before ++ call :: after →
    answerTo max before call = answerTo max (callsOf call.key before) call
  afterWait : ∀ before refused middle later after seconds,
    calls = before ++ refused :: middle ++ later :: after →
      answerTo max before refused = some seconds → later.key = refused.key →
        refused.now + 1000 * seconds ≤ later.now → aheadSince max before refused middle < max →
          answerTo max (before ++ refused :: middle) later = none

theorem Bounded.capped (bounded : Bounded calls) (positive : 1 ≤ max) : Capped max calls where
  atMost := fun key start => (counted_run positive key calls bounded).atMost start
  goesAhead := by
    intro before call after split
    rw [split] at bounded
    exact answerTo_eq_none_iff positive bounded
  refused := fun _ _ _ _ _ answered => tableAfter_refused answered
  own := by
    intro before call after split
    rw [split] at bounded
    exact answerTo_own positive bounded
  afterWait := by
    intro before refused middle later after seconds split answered same waited room
    rw [split] at bounded
    exact answerTo_afterWait positive bounded answered same waited room

end MinuteLimit

end ZabbixPortal.Clients
