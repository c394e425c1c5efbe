import ZabbixPortal.Web.LiveStream
import Mathlib.Tactic.GCongr
import Mathlib.Tactic.Linarith
import Mathlib.Tactic.Positivity

/-! What every event of the page's live connection keeps: at most one source, timers that are its
own, and no claim that no good frame stands behind. -/

set_option autoImplicit false

namespace ZabbixPortal.Web

open Services (Json)

/-- The last note is a good frame. -/
def IsLive (log : List Note) : Prop := ∃ source, log.getLast? = some (.good source)

/-- A good frame came from a source, and nothing but good frames since. -/
def IsFresh (log : List Note) (source : Nat) : Prop :=
  ∃ earlier later, log = earlier ++ .good source :: later ∧ ∀ note ∈ later, ∃ other, note = .good other

def Watches (config : SseConfig) : Prop := ∃ silentMs, config.silentMs = some silentMs ∧ silentMs ≠ 0

structure Sound (config : SseConfig) (log : List Note) (p : SsePage) : Prop where
  alive : p.alive = p.es.toList
  retries : ∀ {handle : Nat} {delay : ℚ}, (handle, .retry delay) ∈ p.timers →
    p.retry = some handle ∧ delay ≤ 60000
  quiets : ∀ {handle source : Nat}, (handle, .quiet source) ∈ p.timers → p.quiet = some handle
  watches : ∀ {handle source : Nat}, (handle, .quiet source) ∈ p.timers → Watches config
  asleep : p.hidden = true ∨ p.mounted = false → p.es = none ∧ p.timers = []
  live : p.connected = true → IsLive log
  own : p.connected = true ∨ p.haveList = true → ∀ {handle source : Nat},
    (handle, .quiet source) ∈ p.timers → p.es = some source
  held : p.haveList = true → ∀ {source : Nat}, p.es = some source → IsFresh log source
  known : p.haveList = true → p.updatedAt.isSome = true
  clock : ∀ {moment : ℚ}, p.updatedAt = some moment → moment ≤ p.now

section Parts

variable {config : SseConfig} {log : List Note} {p : SsePage} {source : Nat}

theorem mem_clearTimeout {handle : Option Nat} {timers : List (Nat × SseTimer)}
    {entry : Nat × SseTimer} :
    entry ∈ clearTimeout handle timers ↔ entry ∈ timers ∧ some entry.1 ≠ handle := by
  rw [clearTimeout, List.mem_filter, decide_eq_true_iff]

/-- What arming the watch does, if it is on. -/
theorem watch_cases (config : SseConfig) (source : Nat) (p : SsePage) :
    ¬ Watches config ∧ watch config source p = p ∨
      Watches config ∧ watch config source p = { p with
        timers := clearTimeout p.quiet p.timers ++ [(p.handles, .quiet source)]
        quiet := some p.handles
        handles := p.handles + 1 } := by
  unfold watch
  cases isSet : config.silentMs with
  | none =>
      refine .inl ⟨?_, rfl⟩
      rintro ⟨silentMs, isSome, _⟩
      rw [isSet] at isSome
      cases isSome
  | some silentMs =>
      by_cases zero : silentMs = 0
      · refine .inl ⟨?_, if_pos zero⟩
        rintro ⟨other, isSome, positive⟩
        rw [isSet] at isSome
        cases isSome
        exact positive zero
      · exact .inr ⟨⟨silentMs, isSet, zero⟩, if_neg zero⟩

theorem watch_es (config : SseConfig) (source : Nat) (p : SsePage) :
    (watch config source p).es = p.es := by
  obtain ⟨_, same⟩ | ⟨_, armed⟩ := watch_cases config source p
  · rw [same]
  · rw [armed]

theorem watch_alive (config : SseConfig) (source : Nat) (p : SsePage) :
    (watch config source p).alive = p.alive := by
  obtain ⟨_, same⟩ | ⟨_, armed⟩ := watch_cases config source p
  · rw [same]
  · rw [armed]

theorem watch_hidden (config : SseConfig) (source : Nat) (p : SsePage) :
    (watch config source p).hidden = p.hidden := by
  obtain ⟨_, same⟩ | ⟨_, armed⟩ := watch_cases config source p
  · rw [same]
  · rw [armed]

theorem watch_mounted (config : SseConfig) (source : Nat) (p : SsePage) :
    (watch config source p).mounted = p.mounted := by
  obtain ⟨_, same⟩ | ⟨_, armed⟩ := watch_cases config source p
  · rw [same]
  · rw [armed]

theorem watch_connected (config : SseConfig) (source : Nat) (p : SsePage) :
    (watch config source p).connected = p.connected := by
  obtain ⟨_, same⟩ | ⟨_, armed⟩ := watch_cases config source p
  · rw [same]
  · rw [armed]

theorem watch_haveList (config : SseConfig) (source : Nat) (p : SsePage) :
    (watch config source p).haveList = p.haveList := by
  obtain ⟨_, same⟩ | ⟨_, armed⟩ := watch_cases config source p
  · rw [same]
  · rw [armed]

theorem watch_updatedAt (config : SseConfig) (source : Nat) (p : SsePage) :
    (watch config source p).updatedAt = p.updatedAt := by
  obtain ⟨_, same⟩ | ⟨_, armed⟩ := watch_cases config source p
  · rw [same]
  · rw [armed]

theorem watch_now (config : SseConfig) (source : Nat) (p : SsePage) :
    (watch config source p).now = p.now := by
  obtain ⟨_, same⟩ | ⟨_, armed⟩ := watch_cases config source p
  · rw [same]
  · rw [armed]

theorem delay_le (random : Random) (attempt : Nat) :
    min (60000 : ℚ) (2000 * 2 ^ attempt) / 2 +
      random * (min (60000 : ℚ) (2000 * 2 ^ attempt) / 2) ≤ 60000 := by
  obtain ⟨value, positive, below⟩ := random
  have ceiling : min (60000 : ℚ) (2000 * 2 ^ attempt) ≤ 60000 := min_le_left _ _
  have counted : (0 : ℚ) ≤ min 60000 (2000 * 2 ^ attempt) :=
    le_min (by norm_num) (by positivity)
  have part : value * (min (60000 : ℚ) (2000 * 2 ^ attempt) / 2) ≤
      1 * (min (60000 : ℚ) (2000 * 2 ^ attempt) / 2) := by
    gcongr
  show _ + value * _ ≤ _
  linarith

/-- What reopening later does, if anything. -/
theorem reopenLater_cases (random : Random) (p : SsePage) :
    reopenLater random p = p ∨
      p.retry = none ∧ p.hidden = false ∧ ∃ delay ≤ (60000 : ℚ), reopenLater random p = { p with
        attempt := p.attempt + 1
        retry := some p.handles
        timers := p.timers ++ [(p.handles, .retry delay)]
        handles := p.handles + 1 } := by
  unfold reopenLater
  split
  · exact .inl rfl
  · next idle =>
      rw [Bool.or_eq_true, not_or, Bool.not_eq_true, Bool.not_eq_true, Option.isSome_eq_false_iff,
        Option.isNone_iff_eq_none] at idle
      exact .inr ⟨idle.1, idle.2, _, delay_le random p.attempt, rfl⟩

theorem reopenLater_updatedAt (random : Random) (p : SsePage) :
    (reopenLater random p).updatedAt = p.updatedAt := by
  obtain same | ⟨_, _, _, _, armed⟩ := reopenLater_cases random p
  · rw [same]
  · rw [armed]

theorem Sound.awake (sound : Sound config log p) (isOpen : p.es = some source) :
    p.hidden = false ∧ p.mounted = true := by
  constructor
  · by_contra hidden
    have asleep := (sound.asleep (.inl (Bool.eq_true_of_not_eq_false hidden))).1
    rw [isOpen] at asleep
    cases asleep
  · by_contra unmounted
    have asleep := (sound.asleep (.inr (Bool.eq_false_of_not_eq_true unmounted))).1
    rw [isOpen] at asleep
    cases asleep

theorem Sound.es_of_alive (sound : Sound config log p) (isAlive : source ∈ p.alive) :
    p.es = some source := by
  rw [sound.alive, Option.mem_toList] at isAlive
  exact isAlive

/-- Behind the watch only its own timer is left. -/
theorem Sound.quiet_of_watch (sound : Sound config log p) {handle other : Nat}
    (member : (handle, .quiet other) ∈ (Web.watch config source p).timers) :
    (Web.watch config source p).quiet = some handle ∧ other = source ∧ Watches config := by
  obtain ⟨off, same⟩ | ⟨on, armed⟩ := watch_cases config source p
  · rw [same] at member
    exact absurd (sound.watches member) off
  · rw [armed] at member ⊢
    cases List.mem_append.mp member with
    | inl earlier =>
        obtain ⟨earlier, kept⟩ := mem_clearTimeout.mp earlier
        exact absurd (sound.quiets earlier).symm kept
    | inr new =>
        cases List.mem_singleton.mp new
        exact ⟨rfl, rfl, on⟩

theorem Sound.retry_of_watch (sound : Sound config log p) {handle : Nat} {delay : ℚ}
    (member : (handle, .retry delay) ∈ (Web.watch config source p).timers) :
    (Web.watch config source p).retry = some handle ∧ delay ≤ 60000 := by
  obtain ⟨_, same⟩ | ⟨_, armed⟩ := watch_cases config source p
  · rw [same] at member ⊢
    exact sound.retries member
  · rw [armed] at member ⊢
    cases List.mem_append.mp member with
    | inl earlier => exact sound.retries (mem_clearTimeout.mp earlier).1
    | inr new => cases List.mem_singleton.mp new

theorem Sound.watch (sound : Sound config log p) (isOpen : p.es = some source) :
    Sound config log (watch config source p) := by
  obtain ⟨shown, mounted⟩ := sound.awake isOpen
  constructor
  case alive => rw [watch_alive, watch_es]; exact sound.alive
  case retries => exact sound.retry_of_watch
  case quiets => exact fun member => (sound.quiet_of_watch member).1
  case watches => exact fun member => (sound.quiet_of_watch member).2.2
  case asleep =>
    rw [watch_hidden, watch_mounted, shown, mounted]
    rintro (hidden | unmounted)
    · cases hidden
    · cases unmounted
  case live => rw [watch_connected]; exact sound.live
  case own =>
    intro _ handle other member
    rw [watch_es, (sound.quiet_of_watch member).2.1]
    exact isOpen
  case held => rw [watch_haveList, watch_es]; exact sound.held
  case known => rw [watch_haveList, watch_updatedAt]; exact sound.known
  case clock => rw [watch_updatedAt, watch_now]; exact sound.clock

theorem Sound.reopenLater (sound : Sound config log p) (mounted : p.mounted = true) (random : Random) :
    Sound config log (reopenLater random p) := by
  obtain same | ⟨idle, shown, delay, within, armed⟩ := reopenLater_cases random p
  · rwa [same]
  · have entries : ∀ {entry : Nat × SseTimer}, entry ∈ p.timers ++ [(p.handles, .retry delay)] →
        entry ∈ p.timers ∨ entry = (p.handles, .retry delay) := by
      intro entry member
      rw [List.mem_append, List.mem_singleton] at member
      exact member
    rw [armed]
    constructor
    case alive => exact sound.alive
    case retries =>
      intro handle other member
      obtain earlier | new := entries member
      · have busy := (sound.retries earlier).1
        rw [idle] at busy
        cases busy
      · cases new
        exact ⟨rfl, within⟩
    case quiets =>
      intro handle source member
      obtain earlier | new := entries member
      · exact sound.quiets earlier
      · cases new
    case watches =>
      intro handle source member
      obtain earlier | new := entries member
      · exact sound.watches earlier
      · cases new
    case asleep =>
      rintro (hidden | unmounted)
      · rw [show p.hidden = true from hidden] at shown
        cases shown
      · rw [show p.mounted = false from unmounted] at mounted
        cases mounted
    case live => exact sound.live
    case own =>
      intro standing handle source member
      obtain earlier | new := entries member
      · exact sound.own standing earlier
      · cases new
    case held => exact sound.held
    case known => exact sound.known
    case clock => exact sound.clock

theorem Sound.openSource (sound : Sound config log p) (closed : p.es = none) (shown : p.hidden = false)
    (mounted : p.mounted = true) (settled : p.connected = true → ∀ {handle source : Nat},
      (handle, .quiet source) ∉ p.timers) : Sound config log (openSource config p) := by
  unfold Web.openSource
  split
  · constructor
    case alive =>
      show p.alive ++ [p.sources] = [p.sources]
      rw [sound.alive, closed]
      rfl
    case retries => exact sound.retries
    case quiets => exact sound.quiets
    case watches => exact sound.watches
    case asleep =>
      rintro (hidden | unmounted)
      · rw [show p.hidden = true from hidden] at shown
        cases shown
      · rw [show p.mounted = false from unmounted] at mounted
        cases mounted
    case live => exact sound.live
    case own =>
      rintro (connected | held) handle source member
      · exact absurd member (settled connected)
      · cases held
    case held =>
      intro held
      cases held
    case known =>
      intro held
      cases held
    case clock => exact sound.clock
  · exact sound

theorem Sound.closeSource (sound : Sound config log p) : (closeSource p).es = none ∧
    (closeSource p).timers = [] ∧ (closeSource p).alive = [] := by
  refine ⟨rfl, ?_, ?_⟩
  · apply List.eq_nil_iff_forall_not_mem.mpr
    rintro ⟨handle, timer⟩ member
    obtain ⟨member, notQuiet⟩ := mem_clearTimeout.mp member
    obtain ⟨member, notRetry⟩ := mem_clearTimeout.mp member
    cases timer with
    | retry delay => exact notRetry (sound.retries member).1.symm
    | quiet source => exact notQuiet (sound.quiets member).symm
  · apply List.eq_nil_iff_forall_not_mem.mpr
    intro source member
    obtain ⟨isAlive, other⟩ := List.mem_filter.mp member
    exact of_decide_eq_true other (sound.es_of_alive isAlive).symm

/-- A page that rests has no source and no timer. -/
theorem Sound.rest {q : SsePage} (sound : Sound config log p) (closed : q.es = none) (noTimers : q.timers = [])
    (noSource : q.alive = []) (connected : q.connected = p.connected)
    (haveList : q.haveList = true → p.haveList = true) (updatedAt : q.updatedAt = p.updatedAt)
    (now : q.now = p.now) : Sound config log q := by
  have noTimer : ∀ {entry : Nat × SseTimer}, entry ∉ q.timers := by
    intro entry
    rw [noTimers]
    exact List.not_mem_nil
  constructor
  case alive => rw [noSource, closed]; rfl
  case retries => exact fun member => absurd member noTimer
  case quiets => exact fun member => absurd member noTimer
  case watches => exact fun member => absurd member noTimer
  case asleep => exact fun _ => ⟨closed, noTimers⟩
  case live => rw [connected]; exact sound.live
  case own => exact fun _ _ _ member => absurd member noTimer
  case held =>
    intro _ source isOpen
    rw [closed] at isOpen
    cases isOpen
  case known => rw [updatedAt]; exact fun held => sound.known (haveList held)
  case clock => rw [updatedAt, now]; exact sound.clock

/-- The line is down: nothing is claimed, and the source may be closed. -/
theorem Sound.down (sound : Sound config log p) (note : Note) {q : SsePage} (connected : q.connected = false)
    (haveList : q.haveList = false) (alive : q.alive = q.es.toList)
    (timers : ∀ entry ∈ q.timers, entry ∈ p.timers) (retry : q.retry = p.retry)
    (quiet : q.quiet = p.quiet) (awake : q.hidden = false ∧ q.mounted = true)
    (updatedAt : q.updatedAt = p.updatedAt) (now : q.now = p.now) : Sound config (log ++ [note]) q := by
  constructor
  case alive => exact alive
  case retries => rw [retry]; exact fun member => sound.retries (timers _ member)
  case quiets => rw [quiet]; exact fun member => sound.quiets (timers _ member)
  case watches => exact fun member => sound.watches (timers _ member)
  case asleep =>
    rw [awake.1, awake.2]
    rintro (hidden | unmounted)
    · cases hidden
    · cases unmounted
  case live =>
    rw [connected]
    intro live
    cases live
  case own =>
    rw [connected, haveList]
    rintro (live | held)
    · cases live
    · cases held
  case held =>
    rw [haveList]
    intro held
    cases held
  case known =>
    rw [haveList]
    intro held
    cases held
  case clock => rw [updatedAt, now]; exact sound.clock

end Parts

section Handlers

variable {config : SseConfig} {log : List Note} {p : SsePage} {source : Nat}

theorem ageOf_nonneg {parse : RawText → Option Json} {raw : Option RawText} {age : ℚ}
    (carried : ageOf parse raw = some age) : 0 ≤ age := by
  unfold ageOf at carried
  split at carried
  · split at carried
    · next positive =>
        cases carried
        exact positive
    · cases carried
  · cases carried

/-- What a keep-alive does beside arming the watch. -/
theorem onPing_cases (config : SseConfig) (source : Nat) (raw : Option RawText) (p : SsePage) :
    onPing config source raw p = watch config source p ∨
      p.haveList = true ∧ ∃ age, 0 ≤ age ∧ onPing config source raw p =
        { watch config source p with updatedAt := some (max (p.updatedAt.getD 0) (p.now - age)) } := by
  unfold onPing
  cases held : p.haveList with
  | false => exact .inl rfl
  | true =>
      rw [if_pos rfl]
      cases carried : ageOf config.parse raw with
      | none => exact .inl rfl
      | some age =>
          refine .inr ⟨rfl, age, ageOf_nonneg carried, ?_⟩
          simp only [watch_updatedAt, watch_now]

theorem Sound.onPing (sound : Sound config log p) (isOpen : p.es = some source) (raw : Option RawText) :
    Sound config log (onPing config source raw p) := by
  have watched := sound.watch isOpen
  obtain same | ⟨held, age, positive, moved⟩ := onPing_cases config source raw p
  · rwa [same]
  · rw [moved]
    constructor
    case alive => exact watched.alive
    case retries => exact watched.retries
    case quiets => exact watched.quiets
    case watches => exact watched.watches
    case asleep => exact watched.asleep
    case live => exact watched.live
    case own => exact watched.own
    case held => exact watched.held
    case known => exact fun _ => rfl
    case clock =>
      intro moment isMoment
      cases isMoment
      obtain ⟨before, isBefore⟩ := Option.isSome_iff_exists.mp (sound.known held)
      have earlier := sound.clock isBefore
      rw [isBefore, Option.getD_some]
      show max before (p.now - age) ≤ (Web.watch config source p).now
      rw [watch_now]
      exact max_le earlier (by linarith)

theorem onFrame_misfit {raw : RawText} {frame : Json} {misfit : Guard × String}
    (parsed : config.parse raw = some frame) (checked : misfitOf config frame = some misfit) :
    onFrame config source raw p = { watch config source p with
      haveList := false
      connected := false
      error := some (.text (Export.units (unreadableMessage misfit.1.what))) } := by
  simp only [onFrame, parsed, checked]

theorem onFrame_good {raw : RawText} {frame : Json} (parsed : config.parse raw = some frame)
    (checked : misfitOf config frame = none) :
    onFrame config source raw p = { watch config source { p with data := some frame } with
      attempt := 0
      haveList := true
      updatedAt := some (watch config source { p with data := some frame }).now
      connected := true
      error := none } := by
  simp only [onFrame, parsed, checked]

theorem Sound.onFrame (sound : Sound config log p) (isOpen : p.es = some source) (raw : RawText) :
    Sound config (log ++ (noteOf config (.frame source raw)).toList) (onFrame config source raw p) := by
  cases parsed : config.parse raw with
  | none =>
      have noted : noteOf config (.frame source raw) = none := by simp only [noteOf, parsed]
      have ignored : Web.onFrame config source raw p = p := by simp only [Web.onFrame, parsed]
      rw [noted, ignored, Option.toList_none, List.append_nil]
      exact sound
  | some frame =>
      cases checked : misfitOf config frame with
      | some misfit =>
          have noted : noteOf config (.frame source raw) = some .misfit := by
            simp only [noteOf, parsed, checked, Option.isSome_some, if_true]
          rw [noted, onFrame_misfit parsed checked]
          have watched := sound.watch isOpen
          have awake := watched.awake (by rw [watch_es]; exact isOpen)
          exact watched.down .misfit rfl rfl watched.alive (fun _ member => member) rfl rfl awake
            rfl rfl
      | none =>
          have noted : noteOf config (.frame source raw) = some (.good source) := by
            simp only [noteOf, parsed, checked, Option.isSome_none, Bool.false_eq_true, if_false]
          rw [noted, onFrame_good parsed checked]
          have shown : Sound config log { p with data := some frame } :=
            ⟨sound.alive, sound.retries, sound.quiets, sound.watches, sound.asleep, sound.live, sound.own,
              sound.held, sound.known, sound.clock⟩
          have watched := shown.watch isOpen
          constructor
          case alive => exact watched.alive
          case retries => exact watched.retries
          case quiets => exact watched.quiets
          case watches => exact watched.watches
          case asleep => exact watched.asleep
          case live => exact fun _ => ⟨source, List.getLast?_concat⟩
          case own =>
            intro _ handle other member
            rw [(shown.quiet_of_watch member).2.1]
            exact (watch_es _ _ _).trans isOpen
          case held =>
            intro _ other isOther
            have same : other = source := by
              have open_ : (Web.watch config source { p with data := some frame }).es = some other := isOther
              rw [watch_es] at open_
              exact Option.some.inj (open_.symm.trans isOpen)
            rw [same]
            exact ⟨log, [], rfl, fun _ member => absurd member List.not_mem_nil⟩
          case known => exact fun _ => rfl
          case clock =>
            intro moment isMoment
            cases isMoment
            exact le_refl _

theorem Sound.onErrorFrame (sound : Sound config log p) (isOpen : p.es = some source)
    (raw : RawText) :
    Sound config (log ++ [.error]) (onError config source (some raw) none p) := by
  have failed : Sound config (log ++ [.error]) { p with connected := false, haveList := false } :=
    sound.down .error rfl rfl sound.alive (fun _ member => member) rfl rfl (sound.awake isOpen)
      rfl rfl
  have watched := failed.watch isOpen
  exact ⟨watched.alive, watched.retries, watched.quiets, watched.watches, watched.asleep,
    watched.live, watched.own, watched.held, watched.known, watched.clock⟩

theorem filter_alive (sound : Sound config log p) (isOpen : p.es = some source) :
    p.alive.filter (· ≠ source) = [] := by
  rw [sound.alive, isOpen, Option.toList_some, List.filter_cons_of_neg, List.filter_nil]
  simp only [ne_eq, not_true, decide_false, Bool.false_eq_true, not_false_iff]

theorem Sound.onDrop (sound : Sound config log p) (isOpen : p.es = some source)
    (closed : Option Random) :
    Sound config (log ++ [.drop]) (onError config source none closed
      { p with alive := if closed.isSome then p.alive.filter (· ≠ source) else p.alive }) := by
  have awake := sound.awake isOpen
  cases closed with
  | none =>
      have down : Sound config (log ++ [.drop])
          { p with connected := false, haveList := false, checkingAuth := true } :=
        sound.down .drop rfl rfl sound.alive (fun _ member => member) rfl rfl awake rfl rfl
      exact down
  | some random =>
      have gone : (if p.es = some source then none else p.es) = none := if_pos isOpen
      have left : p.alive.filter (· ≠ source) =
          (if p.es = some source then none else p.es).toList := by
        rw [gone, filter_alive sound isOpen]
        rfl
      have down : Sound config (log ++ [.drop]) { p with
          alive := p.alive.filter (· ≠ source)
          es := if p.es = some source then none else p.es
          checkingAuth := true
          connected := false
          haveList := false } :=
        sound.down .drop rfl rfl left (fun _ member => member) rfl rfl awake rfl rfl
      exact down.reopenLater awake.2 random

/-- A timer that came due is no longer pending. -/
theorem Sound.due (sound : Sound config log p) (handle : Nat) :
    Sound config log { p with timers := clearTimeout (some handle) p.timers } := by
  have earlier {entry : Nat × SseTimer} (member : entry ∈ clearTimeout (some handle) p.timers) :
      entry ∈ p.timers := (mem_clearTimeout.mp member).1
  constructor
  case alive => exact sound.alive
  case retries => exact fun member => sound.retries (earlier member)
  case quiets => exact fun member => sound.quiets (earlier member)
  case watches => exact fun member => sound.watches (earlier member)
  case asleep =>
    intro rests
    obtain ⟨closed, noTimers⟩ := sound.asleep rests
    refine ⟨closed, ?_⟩
    show clearTimeout (some handle) p.timers = []
    rw [noTimers]
    rfl
  case live => exact sound.live
  case own => exact fun standing _ _ member => sound.own standing (earlier member)
  case held => exact sound.held
  case known => exact sound.known
  case clock => exact sound.clock

theorem Sound.awake_of_timer (sound : Sound config log p) {entry : Nat × SseTimer}
    (pending : entry ∈ p.timers) : p.hidden = false ∧ p.mounted = true := by
  constructor
  · by_contra hidden
    have empty := (sound.asleep (.inl (Bool.eq_true_of_not_eq_false hidden))).2
    rw [empty] at pending
    cases pending
  · by_contra unmounted
    have empty := (sound.asleep (.inr (Bool.eq_false_of_not_eq_true unmounted))).2
    rw [empty] at pending
    cases pending

theorem Sound.onRetry (sound : Sound config log p) {handle : Nat} {delay : ℚ}
    (pending : (handle, .retry delay) ∈ p.timers) (random : Random) :
    Sound config log (onTimer config (.retry delay) random
      { p with timers := clearTimeout (some handle) p.timers }) := by
  have awake := sound.awake_of_timer pending
  have due := sound.due handle
  have free : Sound config log
      { p with timers := clearTimeout (some handle) p.timers, retry := none } := by
    constructor
    case alive => exact sound.alive
    case retries =>
      intro other otherDelay member
      obtain ⟨earlier, notDue⟩ := mem_clearTimeout.mp member
      have same := (sound.retries earlier).1.symm.trans (sound.retries pending).1
      exact absurd same notDue
    case quiets => exact due.quiets
    case watches => exact due.watches
    case asleep => exact due.asleep
    case live => exact due.live
    case own => exact due.own
    case held => exact due.held
    case known => exact due.known
    case clock => exact due.clock
  unfold onTimer
  simp only
  split
  · next closed =>
      refine free.openSource closed awake.1 awake.2 ?_
      intro connected other source member
      have isOpen := free.own (.inl connected) member
      rw [closed] at isOpen
      cases isOpen
  · exact free

theorem Sound.onQuiet (sound : Sound config log p) {handle : Nat}
    (pending : (handle, .quiet source) ∈ p.timers) (random : Random) :
    Sound config (log ++ [.silence]) (onTimer config (.quiet source) random
      { p with timers := clearTimeout (some handle) p.timers }) := by
  have awake := sound.awake_of_timer pending
  unfold onTimer
  simp only
  split
  · next isOpen =>
      have down : Sound config (log ++ [.silence]) { p with
          timers := clearTimeout (some handle) p.timers
          alive := p.alive.filter (· ≠ source)
          es := none
          haveList := false
          connected := false } :=
        sound.down .silence rfl rfl (filter_alive sound isOpen)
          (fun _ member => (mem_clearTimeout.mp member).1) rfl rfl awake rfl rfl
      exact down.reopenLater awake.2 random
  · next other =>
      -- the timer of a source that is gone: nothing was claimed since
      have nothing : ¬ (p.connected = true ∨ p.haveList = true) := fun standing =>
        other (sound.own standing pending)
      rw [not_or, Bool.not_eq_true, Bool.not_eq_true] at nothing
      have down : Sound config (log ++ [.silence])
          { p with timers := clearTimeout (some handle) p.timers } :=
        sound.down .silence nothing.1 nothing.2 sound.alive
          (fun _ member => (mem_clearTimeout.mp member).1) rfl rfl awake rfl rfl
      exact down

theorem Sound.hide (sound : Sound config log p) :
    Sound config log (sseStep config p .hide) := by
  show Sound config log (if p.mounted then onVisibility config { p with hidden := true }
    else { p with hidden := true })
  split
  · obtain ⟨closed, noTimers, noSource⟩ := sound.closeSource
    exact sound.rest closed noTimers noSource rfl (fun held => held) rfl rfl
  · next unmounted =>
      obtain ⟨closed, noTimers⟩ := sound.asleep (.inr (Bool.eq_false_of_not_eq_true unmounted))
      refine sound.rest closed noTimers ?_ rfl (fun held => held) rfl rfl
      show p.alive = []
      rw [sound.alive, closed]
      rfl

theorem Sound.show (sound : Sound config log p) (hidden : p.hidden = true) :
    Sound config log (sseStep config p .show') := by
  obtain ⟨closed, noTimers⟩ := sound.asleep (.inl hidden)
  have noSource : p.alive = [] := by
    rw [sound.alive, closed]
    rfl
  have shown : Sound config log { p with hidden := false } :=
    sound.rest closed noTimers noSource rfl (fun held => held) rfl rfl
  show Sound config log (if p.mounted then onVisibility config { p with hidden := false }
    else { p with hidden := false })
  split
  · next mounted =>
      have opens : onVisibility config { p with hidden := false } =
          Web.openSource config { p with hidden := false } := by
        unfold onVisibility
        rw [if_neg Bool.false_ne_true, if_pos closed]
      rw [opens]
      refine shown.openSource closed rfl mounted ?_
      intro _ handle source
      show (handle, SseTimer.quiet source) ∉ p.timers
      rw [noTimers]
      exact List.not_mem_nil
  · exact shown

theorem Sound.mount (sound : Sound config log p) (unmounted : p.mounted = false) :
    Sound config log (mount config p) := by
  obtain ⟨closed, noTimers⟩ := sound.asleep (.inr unmounted)
  have noSource : p.alive = [] := by
    rw [sound.alive, closed]
    rfl
  have fresh : Sound config log { p with
      es := none
      checkingAuth := false
      retry := none
      quiet := none
      attempt := 0
      haveList := false
      mounted := true } :=
    sound.rest rfl noTimers noSource rfl (fun held => by cases held) rfl rfl
  unfold Web.mount
  simp only
  split
  · exact fresh
  · next shown =>
      refine fresh.openSource rfl (Bool.eq_false_of_not_eq_true shown) rfl ?_
      intro _ handle source
      show (handle, SseTimer.quiet source) ∉ p.timers
      rw [noTimers]
      exact List.not_mem_nil

theorem Sound.unmount (sound : Sound config log p) :
    Sound config log (sseStep config p .unmount) := by
  obtain ⟨closed, noTimers, noSource⟩ := sound.closeSource
  exact sound.rest closed noTimers noSource rfl (fun held => held) rfl rfl

theorem Sound.tick (sound : Sound config log p) {now : ℚ} (later : p.now ≤ now) :
    Sound config log { p with now := now } :=
  ⟨sound.alive, sound.retries, sound.quiets, sound.watches, sound.asleep, sound.live, sound.own,
    sound.held, sound.known, fun isMoment => (sound.clock isMoment).trans later⟩

end Handlers

end ZabbixPortal.Web
