import ZabbixPortal.Web.LiveStreamProperties

/-! The page's live connection never claims more than it has, whatever comes in whatever order. -/

set_option autoImplicit false

namespace ZabbixPortal.Web

open Services (Json)

section Runs

variable {config : SseConfig} {log : List Note} {p : SsePage}

theorem sound_initial (hidden : Bool) (now : ℚ) : Sound config [] (.initial hidden now) := by
  have noTimer {entry : Nat × SseTimer} : entry ∉ (SsePage.initial hidden now).timers :=
    List.not_mem_nil
  constructor
  case alive => rfl
  case retries => exact fun member => absurd member noTimer
  case quiets => exact fun member => absurd member noTimer
  case watches => exact fun member => absurd member noTimer
  case asleep => exact fun _ => ⟨rfl, rfl⟩
  case live =>
    intro live
    cases live
  case own => exact fun _ _ _ member => absurd member noTimer
  case held =>
    intro held
    cases held
  case known =>
    intro held
    cases held
  case clock =>
    intro moment isMoment
    cases isMoment

/-- One event keeps a page sound. -/
theorem Sound.step (sound : Sound config log p) {event : SseEvent} (legal : event.Legal p) :
    Sound config (log ++ (noteOf config event).toList) (sseStep config p event) := by
  have quietly {q : SsePage} (still : Sound config log q) : Sound config (log ++ []) q := by
    rwa [List.append_nil]
  cases event with
  | opened source => exact quietly (sound.watch (sound.es_of_alive legal))
  | ping source raw => exact quietly (sound.onPing (sound.es_of_alive legal) raw)
  | errorFrame source raw => exact sound.onErrorFrame (sound.es_of_alive legal) raw
  | drop source closed => exact sound.onDrop (sound.es_of_alive legal) closed
  | frame source raw => exact sound.onFrame (sound.es_of_alive legal) raw
  | fire handle timer random =>
      cases timer with
      | retry delay => exact quietly (sound.onRetry legal random)
      | quiet source => exact sound.onQuiet legal random
  | authAnswered =>
      have answered : Sound config log { p with checkingAuth := false } :=
        ⟨sound.alive, sound.retries, sound.quiets, sound.watches, sound.asleep, sound.live,
          sound.own, sound.held, sound.known, sound.clock⟩
      exact quietly answered
  | hide => exact quietly sound.hide
  | show' => exact quietly (sound.show legal)
  | mount => exact quietly (sound.mount legal)
  | unmount => exact quietly sound.unmount
  | tick now => exact quietly (sound.tick legal)

theorem sound_of_run (run : SseRun config log p) : Sound config log p := by
  induction run with
  | start hidden now => exact sound_initial hidden now
  | step event _ legal ih => exact ih.step legal

theorem openSource_updatedAt (p : SsePage) : (openSource config p).updatedAt = p.updatedAt := by
  unfold openSource
  split
  · rfl
  · rfl

theorem onVisibility_updatedAt (p : SsePage) :
    (onVisibility config p).updatedAt = p.updatedAt := by
  unfold onVisibility
  split
  · rfl
  · split
    · exact openSource_updatedAt p
    · rfl

theorem onError_updatedAt (source : Nat) (raw : Option RawText) (closed : Option Random)
    (p : SsePage) : (onError config source raw closed p).updatedAt = p.updatedAt := by
  unfold onError
  cases raw with
  | some raw => exact watch_updatedAt _ _ _
  | none =>
      cases closed with
      | none => rfl
      | some random => exact reopenLater_updatedAt _ _

theorem onTimer_updatedAt (timer : SseTimer) (random : Random) (p : SsePage) :
    (onTimer config timer random p).updatedAt = p.updatedAt := by
  unfold onTimer
  cases timer with
  | retry delay =>
      simp only
      split
      · exact openSource_updatedAt _
      · rfl
  | quiet source =>
      simp only
      split
      · exact reopenLater_updatedAt _ _
      · rfl

/-- What moves `updatedAt`: a good frame, and a keep-alive that carries an age while a list is
held. -/
theorem updatedAt_cases (config : SseConfig) (p : SsePage) (event : SseEvent) :
    (sseStep config p event).updatedAt = p.updatedAt ∨
      (∃ source raw, event = .frame source raw) ∧
        (sseStep config p event).updatedAt = some p.now ∨
      (∃ source raw, event = .ping source raw) ∧ p.haveList = true ∧
        ∃ age, (sseStep config p event).updatedAt =
          some (max (p.updatedAt.getD 0) (p.now - age)) := by
  cases event with
  | opened source => exact .inl (watch_updatedAt _ _ _)
  | ping source raw =>
      obtain same | ⟨held, age, _, moved⟩ := onPing_cases config source raw p
      · refine .inl ?_
        show (onPing config source raw p).updatedAt = p.updatedAt
        rw [same, watch_updatedAt]
      · refine .inr (.inr ⟨⟨source, raw, rfl⟩, held, age, ?_⟩)
        show (onPing config source raw p).updatedAt = _
        rw [moved]
  | errorFrame source raw => exact .inl (onError_updatedAt _ _ _ _)
  | drop source closed => exact .inl (onError_updatedAt _ _ _ _)
  | frame source raw =>
      show (onFrame config source raw p).updatedAt = _ ∨ _ ∧
        (onFrame config source raw p).updatedAt = _ ∨ _
      cases parsed : config.parse raw with
      | none =>
          refine .inl ?_
          simp only [onFrame, parsed]
      | some frame =>
          cases checked : misfitOf config frame with
          | some misfit =>
              refine .inl ?_
              rw [onFrame_misfit parsed checked]
              exact watch_updatedAt _ _ _
          | none =>
              refine .inr (.inl ⟨⟨source, raw, rfl⟩, ?_⟩)
              rw [onFrame_good parsed checked]
              exact congrArg some (watch_now _ _ _)
  | fire handle timer random => exact .inl (onTimer_updatedAt _ _ _)
  | authAnswered => exact .inl rfl
  | hide =>
      refine .inl ?_
      show (if p.mounted then onVisibility config { p with hidden := true }
        else { p with hidden := true }).updatedAt = _
      split
      · exact onVisibility_updatedAt _
      · rfl
  | show' =>
      refine .inl ?_
      show (if p.mounted then onVisibility config { p with hidden := false }
        else { p with hidden := false }).updatedAt = _
      split
      · exact onVisibility_updatedAt _
      · rfl
  | mount =>
      refine .inl ?_
      show (mount config p).updatedAt = _
      unfold mount
      simp only
      split
      · rfl
      · exact openSource_updatedAt _
  | unmount => exact .inl rfl
  | tick now => exact .inl rfl

theorem Sound.updatedAt_le (sound : Sound config log p) (event : SseEvent) {moment : ℚ}
    (isMoment : p.updatedAt = some moment) :
    ∃ later, (sseStep config p event).updatedAt = some later ∧ moment ≤ later := by
  obtain same | ⟨_, moved⟩ | ⟨_, _, age, moved⟩ := updatedAt_cases config p event
  · exact ⟨moment, same.trans isMoment, le_refl _⟩
  · exact ⟨p.now, moved, sound.clock isMoment⟩
  · rw [isMoment, Option.getD_some] at moved
    exact ⟨_, moved, le_max_left _ _⟩

/-- The page's live connection never claims more than it has. -/
theorem liveStream_claims (config : SseConfig) {log : List Note} {p : SsePage}
    (run : SseRun config log p) :
    p.alive.length ≤ 1 ∧
    (p.hidden = true ∨ p.mounted = false → p.alive = [] ∧ p.timers = []) ∧
    (p.connected = true → ∃ source, log.getLast? = some (.good source)) ∧
    (∀ handle delay, (handle, SseTimer.retry delay) ∈ p.timers → delay ≤ 60000) ∧
    ∀ event : SseEvent, event.Legal p →
      (∀ moment, p.updatedAt = some moment →
        ∃ later, (sseStep config p event).updatedAt = some later ∧ moment ≤ later) ∧
      ∀ source raw, event = .ping source raw →
        (sseStep config p event).updatedAt ≠ p.updatedAt →
          ∃ earlier later, log = earlier ++ .good source :: later ∧
            ∀ note ∈ later, ∃ other, note = .good other := by
  have sound := sound_of_run run
  refine ⟨?_, ?_, sound.live, fun _ _ pending => (sound.retries pending).2, ?_⟩
  · rw [sound.alive]
    cases p.es with
    | none => decide
    | some source => exact le_refl 1
  · intro rests
    obtain ⟨closed, noTimers⟩ := sound.asleep rests
    rw [sound.alive, closed]
    exact ⟨rfl, noTimers⟩
  · intro event legal
    refine ⟨fun _ isMoment => sound.updatedAt_le event isMoment, ?_⟩
    rintro source raw rfl moves
    obtain same | ⟨⟨_, _, isFrame⟩, _⟩ | ⟨_, held, _⟩ :=
      updatedAt_cases config p (.ping source raw)
    · exact absurd same moves
    · cases isFrame
    · exact sound.held held (sound.es_of_alive legal)

/-- Every text is a list, but one is a keep-alive of half a second. -/
def halfSecond : SseConfig :=
  ⟨fun raw => some (if raw = [0x32] then .object [("ageMs", .number 500)] else .number 1), true,
    some 45000, none⟩

/-- A list, a drop, and a list of the next source; then the page is hidden, and shown again. -/
def dropAndHide : List SseEvent :=
  [.mount, .frame 0 [0x31], .drop 0 (some ⟨0, by norm_num⟩), .tick 1000,
    .fire 1 (.retry 1000) ⟨0, by norm_num⟩, .frame 1 [0x31], .hide, .show', .frame 2 [0x31],
    .tick 2000]

def shownAgain : SsePage := dropAndHide.foldl (sseStep halfSecond) (.initial false 0)

/-- The keep-alive that comes then moves what the list of the third source set. -/
theorem liveStream_claims_shownAgain :
    shownAgain.alive = [2] ∧ shownAgain.alive.length ≤ 1 ∧ shownAgain.connected = true ∧
      (∃ source, [Note.good 0, .drop, .good 1, .good 2].getLast? = some (.good source)) ∧
      ∃ earlier later, [Note.good 0, .drop, .good 1, .good 2] = earlier ++ .good 2 :: later ∧
        ∀ note ∈ later, ∃ other, note = .good other := by
  have listed : SseRun halfSecond [.good 0] _ :=
    .step (.frame 0 [0x31]) (.step .mount (.start false 0) rfl) (List.mem_singleton_self 0)
  have dropped : SseRun halfSecond [.good 0, .drop] _ :=
    .step (.tick 1000) (.step (.drop 0 (some ⟨0, by norm_num⟩)) listed (List.mem_singleton_self 0))
      (show (0 : ℚ) ≤ 1000 by norm_num)
  have due : (1, SseTimer.retry 1000) ∈
      ((dropAndHide.take 4).foldl (sseStep halfSecond) (.initial false 0)).timers := by
    decide +kernel
  have reopened : SseRun halfSecond [.good 0, .drop, .good 1] _ :=
    .step (.frame 1 [0x31]) (.step (.fire 1 (.retry 1000) ⟨0, by norm_num⟩) dropped due)
      (List.mem_singleton_self 1)
  have run : SseRun halfSecond [.good 0, .drop, .good 1, .good 2] shownAgain :=
    .step (.tick 2000) (.step (.frame 2 [0x31]) (.step .show' (.step .hide reopened rfl) rfl)
      (List.mem_singleton_self 2)) (show (1000 : ℚ) ≤ 2000 by norm_num)
  obtain ⟨one, -, live, -, next⟩ := liveStream_claims halfSecond run
  have alive : shownAgain.alive = [2] := by decide +kernel
  have connected : shownAgain.connected = true := by decide +kernel
  have legal : (SseEvent.ping 2 (some [0x32])).Legal shownAgain := by
    change 2 ∈ shownAgain.alive
    rw [alive]
    exact List.mem_singleton_self 2
  exact ⟨alive, one, connected, live connected,
    (next (.ping 2 (some [0x32])) legal).2 2 (some [0x32]) rfl (by decide +kernel)⟩

end Runs

end ZabbixPortal.Web
