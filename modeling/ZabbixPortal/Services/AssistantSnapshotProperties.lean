import ZabbixPortal.Services.AssistantSnapshot

/-! When the assistant answers from the current problem list: a snapshot of its own build
is, a kept one is compared, and an unfinished one that another call built is not. -/

set_option autoImplicit false

namespace ZabbixPortal.Services

open Foundation Core Domain

section Fingerprints

variable {sha1 : String → List (Fin 16)}

theorem hexDigit_ne_dot (digit : Fin 16) : hexDigit digit ≠ '.' := by
  revert digit
  decide

theorem digestHex_dotless (pieces : List String) : ∀ c ∈ digestHex sha1 pieces, c ≠ '.' := by
  intro c member
  obtain ⟨digit, _, rfl⟩ := List.mem_map.mp member
  exact hexDigit_ne_dot digit

theorem problemPart_append {left right : List Char} (dotless : ∀ c ∈ left, c ≠ '.') :
    problemPart (left ++ '.' :: right) = left := by
  unfold problemPart
  rw [List.takeWhile_append_of_pos (by simpa using dotless), List.takeWhile_cons_of_neg (by decide),
    List.append_nil]

theorem hostPart_append {left right : List Char} (dotless : ∀ c ∈ left, c ≠ '.') :
    hostPart (left ++ '.' :: right) = right := by
  unfold hostPart
  rw [List.dropWhile_append_of_pos (by simpa using dotless), List.dropWhile_cons_of_neg (by decide)]
  rfl

/-- A fingerprint is its two parts. -/
theorem SnapshotReads.fingerprint_parts (sha1 : String → List (Fin 16)) (reads : SnapshotReads) :
    reads.fingerprint sha1 =
      problemPart (reads.fingerprint sha1) ++ '.' :: hostPart (reads.fingerprint sha1) := by
  unfold SnapshotReads.fingerprint snapshotFingerprint
  dsimp only
  rw [problemPart_append (digestHex_dotless _), hostPart_append (digestHex_dotless _)]

end Fingerprints

def SnapshotReads.NoOlder (reads own : SnapshotReads) : Prop :=
  own.problemsFrom ≤ reads.problemsFrom ∧ own.sitesFrom ≤ reads.sitesFrom

/-- What a call that read `own` may answer from. -/
def UpToDate (sha1 : String → List (Fin 16)) (own : SnapshotReads) (snapshot : Snapshot)
    (now : ℤ) : Prop :=
  snapshot.reads.NoOlder own ∨
    problemPart (snapshot.fingerprint sha1) = problemPart (own.fingerprint sha1) ∧
      (hostPart (snapshot.fingerprint sha1) ≠ hostPart (own.fingerprint sha1) →
        now - snapshot.generatedAt < HOST_STATE_SETTLE_MS)

namespace Assistant

variable {approxBytes : PortalContent → Nat} {sha1 : String → List (Fin 16)}

/-- The comparison lets through what may be answered from. -/
theorem outdated_eq_false_iff {snapshot : Snapshot} {own : SnapshotReads} {now : ℤ} :
    outdated sha1 snapshot own now = false ↔
      problemPart (snapshot.fingerprint sha1) = problemPart (own.fingerprint sha1) ∧
        (hostPart (snapshot.fingerprint sha1) ≠ hostPart (own.fingerprint sha1) →
          now - snapshot.generatedAt < HOST_STATE_SETTLE_MS) := by
  have same : problemPart (snapshot.fingerprint sha1) = problemPart (own.fingerprint sha1) →
      hostPart (snapshot.fingerprint sha1) = hostPart (own.fingerprint sha1) →
      snapshot.fingerprint sha1 = own.fingerprint sha1 := by
    intro problems hosts
    have parts : snapshot.fingerprint sha1 = problemPart (snapshot.fingerprint sha1) ++
        '.' :: hostPart (snapshot.fingerprint sha1) :=
      snapshot.reads.fingerprint_parts sha1
    rw [parts, problems, hosts]
    exact (own.fingerprint_parts sha1).symm
  unfold outdated
  rw [Bool.and_eq_false_iff, Bool.or_eq_false_iff]
  simp only [decide_eq_false_iff_not, not_not, ge_iff_le, Int.not_le]
  constructor
  · rintro (equal | ⟨problems, young⟩)
    · rw [equal]
      exact ⟨rfl, fun differ => absurd rfl differ⟩
    · exact ⟨problems, fun _ => young⟩
  · rintro ⟨problems, settles⟩
    by_cases hosts : hostPart (snapshot.fingerprint sha1) = hostPart (own.fingerprint sha1)
    · exact .inl (same problems hosts)
    · exact .inr ⟨problems, settles hosts⟩

structure Grows (system next : CacheSystem PortalContent) : Prop where
  steps : system.steps ≤ next.steps
  sequenced : Sequenced next
  dated : Dated next
  forward : ∀ key least since, Forward key least since system → Forward key least since next
  serves : ∀ id number, Serves id number system → Serves id number next
  made : ∀ number request, Made number request system → Made number request next
  answers : ∀ answer ∈ answersOf system.log, answer ∈ answersOf next.log

section Grows

variable {system next : CacheSystem PortalContent}

theorem Grows.step (approxBytes : PortalContent → Nat) (sequenced : Sequenced system)
    (dated : Dated system) (turn : ℤ × CacheAction PortalContent) :
    Grows system (system.step approxBytes turn) where
  steps := Nat.le_succ _
  sequenced := sequenced.step turn
  dated := dated.step sequenced.after turn
  forward _ _ _ forward := forward.step sequenced turn
  serves _ _ serves := serves.step sequenced.after turn
  made _ _ made := made.step turn
  answers _ member := answersOf_step turn member

theorem Grows.trans {last : CacheSystem PortalContent} (first : Grows system next)
    (second : Grows next last) : Grows system last where
  steps := Nat.le_trans first.steps second.steps
  sequenced := second.sequenced
  dated := second.dated
  forward key least since forward := second.forward _ _ _ (first.forward key least since forward)
  serves id number serves := second.serves _ _ (first.serves id number serves)
  made number request made := second.made _ _ (first.made number request made)
  answers answer member := second.answers answer (first.answers answer member)

theorem Grows.read (approxBytes : PortalContent → Nat) (sequenced : Sequenced system)
    (dated : Dated system) (now : ℤ) (parent : Option Nat) :
    Grows system (read approxBytes now system parent) := by
  have first := Grows.step approxBytes sequenced dated (now, .call problemsRequest parent)
  exact first.trans (.step approxBytes first.sequenced first.dated _)

end Grows

/-- The snapshot was built from reads its build made after it began. -/
def BuiltBy (system : CacheSystem PortalContent) (build : Nat) (snapshot : Snapshot) : Prop :=
  (∃ answer ∈ answersOf system.log, answer.call.request = problemsRequest ∧
    build < answer.call.begunAt ∧
      snapshot.reads.problemsFrom = answer.value.origin.startedAt) ∧
  ∃ answer ∈ answersOf system.log, answer.call.request = sitesRequest ∧
    build < answer.call.begunAt ∧ snapshot.reads.sitesFrom = answer.value.origin.startedAt

theorem BuiltBy.grows {system next : CacheSystem PortalContent} {build : Nat} {snapshot : Snapshot}
    (built : BuiltBy system build snapshot) (grows : Grows system next) :
    BuiltBy next build snapshot := by
  obtain ⟨⟨left, inLeft, leftFacts⟩, right, inRight, rightFacts⟩ := built
  exact ⟨⟨left, grows.answers left inLeft, leftFacts⟩, right, grows.answers right inRight,
    rightFacts⟩

/-- A build that begins after the call's own reads were answered reads nothing older. -/
theorem BuiltBy.noOlder {system : CacheSystem PortalContent} {build : Nat} {snapshot : Snapshot}
    {own : SnapshotReads} (built : BuiltBy system build snapshot)
    (problems : Forward problemsRequest.key own.problemsFrom build system)
    (sites : Forward sitesRequest.key own.sitesFrom build system) :
    snapshot.reads.NoOlder own := by
  obtain ⟨⟨left, inLeft, asksLeft, later, from_left⟩, right, inRight, asksRight, after, from_right⟩ :=
    built
  constructor
  · rw [from_left]
    exact problems.answered left inLeft (congrArg Request.key asksLeft) (Nat.le_of_lt later)
  · rw [from_right]
    exact sites.answered right inRight (congrArg Request.key asksRight) (Nat.le_of_lt after)

def AskKept (system : CacheSystem PortalContent) (builds : Nat → Option SnapshotBuild) :
    GetSnapshot → Prop
  | .reading problems sites =>
      Made problems problemsRequest system ∧ Made sites sitesRequest system
  | .asking reads built again call flight =>
      call < system.steps ∧
      Forward problemsRequest.key reads.problemsFrom call system ∧
      Forward sitesRequest.key reads.sitesFrom call system ∧
      (again = true → built = true) ∧
      (built = true → flight = some call ∧ (builds call).isSome = true ∧
        Serves call call system ∧ Made call snapshotRequest system)
  | .returned _ _ _ _ | .failed => True

structure BuildKept (system : CacheSystem PortalContent) (number : Nat) (build : SnapshotBuild) :
    Prop where
  past : number < system.steps
  reads : ∀ problems sites, build.reads = some (problems, sites) →
    number < problems ∧ number < sites ∧ Made problems problemsRequest system ∧
      Made sites sitesRequest system
  settled : ∀ settlement value, system.settlementOf number = some settlement →
    settlement.result = some value →
    ∃ snapshot, value.content = .snapshot snapshot ∧ BuiltBy system number snapshot

structure Answering (assistant : Assistant) : Prop where
  sequenced : Sequenced assistant.system
  dated : Dated assistant.system
  past : ∀ id state, assistant.asks id = some state → id < assistant.system.steps
  asks : ∀ id state, assistant.asks id = some state →
    AskKept assistant.system assistant.builds state
  builds : ∀ number build, assistant.builds number = some build →
    BuildKept assistant.system number build
  thrown : ∀ number snapshot, assistant.thrown number = some snapshot →
    BuiltBy assistant.system number snapshot

theorem Answering.idle : Answering Assistant.idle where
  sequenced := .idle
  dated _ member := nomatch member
  past _ _ found := nomatch found
  asks _ _ found := nomatch found
  builds _ _ found := nomatch found
  thrown _ _ found := nomatch found

theorem AskKept.grows {system next : CacheSystem PortalContent} (grows : Grows system next)
    {builds : Nat → Option SnapshotBuild} {state : GetSnapshot}
    (kept : AskKept system builds state) : AskKept next builds state := by
  cases state with
  | reading problems sites => exact ⟨grows.made _ _ kept.1, grows.made _ _ kept.2⟩
  | asking reads built again call flight =>
      obtain ⟨past, problems, sites, isAgain, own⟩ := kept
      refine ⟨Nat.lt_of_lt_of_le past grows.steps, grows.forward _ _ _ problems,
        grows.forward _ _ _ sites, isAgain, fun isBuilt => ?_⟩
      obtain ⟨isFlight, isBuild, serves, made⟩ := own isBuilt
      exact ⟨isFlight, isBuild, grows.serves _ _ serves, grows.made _ _ made⟩
  | returned reads snapshot frozen now => exact trivial
  | failed => exact trivial

/-- The cache goes on; the builds that are over ended as builds do. -/
theorem Answering.grow {assistant : Assistant} (answering : Answering assistant)
    {next : CacheSystem PortalContent} (grows : Grows assistant.system next)
    (settled : ∀ number build, assistant.builds number = some build →
      ∀ settlement value, next.settlementOf number = some settlement →
        settlement.result = some value →
        assistant.system.settlementOf number = some settlement ∨
          ∃ snapshot, value.content = .snapshot snapshot ∧
            BuiltBy assistant.system number snapshot) :
    Answering { assistant with system := next } where
  sequenced := grows.sequenced
  dated := grows.dated
  past id state found := Nat.lt_of_lt_of_le (answering.past id state found) grows.steps
  asks id state found := (answering.asks id state found).grows grows
  builds number build found := by
    have kept := answering.builds number build found
    refine ⟨Nat.lt_of_lt_of_le kept.past grows.steps, ?_, ?_⟩
    · intro problems sites made
      obtain ⟨later, after, madeProblems, madeSites⟩ := kept.reads problems sites made
      exact ⟨later, after, grows.made _ _ madeProblems, grows.made _ _ madeSites⟩
    · intro settlement value isSettled result
      rcases settled number build found settlement value isSettled result with before | ended
      · obtain ⟨snapshot, content, built⟩ := kept.settled settlement value before result
        exact ⟨snapshot, content, built.grows grows⟩
      · obtain ⟨snapshot, content, built⟩ := ended
        exact ⟨snapshot, content, built.grows grows⟩
  thrown number snapshot found := (answering.thrown number snapshot found).grows grows

section Parts

variable {assistant : Assistant} {now : ℤ} {id : Nat}

theorem AskKept.moreBuilds {system : CacheSystem PortalContent}
    {builds more : Nat → Option SnapshotBuild} {state : GetSnapshot}
    (kept : AskKept system builds state)
    (stay : ∀ number, (builds number).isSome = true → (more number).isSome = true) :
    AskKept system more state := by
  cases state with
  | reading problems sites => exact kept
  | asking reads built again call flight =>
      obtain ⟨past, problems, sites, isAgain, own⟩ := kept
      refine ⟨past, problems, sites, isAgain, fun isBuilt => ?_⟩
      obtain ⟨isFlight, isBuild, rest⟩ := own isBuilt
      exact ⟨isFlight, stay call isBuild, rest⟩
  | returned reads snapshot frozen now => exact trivial
  | failed => exact trivial

theorem Answering.endWith (answering : Answering assistant) {ending : GetSnapshot}
    (past : id < assistant.system.steps)
    (kept : AskKept assistant.system assistant.builds ending) :
    Answering (assistant.endWith id ending) where
  sequenced := answering.sequenced
  dated := answering.dated
  past other state found := by
    unfold Assistant.endWith at found
    dsimp only at found
    by_cases own : other = id
    · subst own
      exact past
    · rw [Function.update_of_ne own] at found
      exact answering.past other state found
  asks other state found := by
    unfold Assistant.endWith at found
    dsimp only at found
    by_cases own : other = id
    · subst own
      rw [Function.update_self] at found
      cases found
      exact kept
    · rw [Function.update_of_ne own] at found
      exact answering.asks other state found
  builds := answering.builds
  thrown := answering.thrown

theorem Answering.withBuild (answering : Answering assistant) {number : Nat}
    {build : SnapshotBuild} (kept : BuildKept assistant.system number build) :
    Answering
      { assistant with builds := Function.update assistant.builds number (some build) } where
  sequenced := answering.sequenced
  dated := answering.dated
  past := answering.past
  asks id state found := by
    refine (answering.asks id state found).moreBuilds fun other isBuild => ?_
    dsimp only
    by_cases own : other = number
    · subst own
      rw [Function.update_self]
      rfl
    · rw [Function.update_of_ne own]
      exact isBuild
  builds other found isBuild := by
    dsimp only at isBuild
    by_cases own : other = number
    · subst own
      rw [Function.update_self] at isBuild
      cases isBuild
      exact kept
    · rw [Function.update_of_ne own] at isBuild
      exact answering.builds other found isBuild
  thrown := answering.thrown

theorem Answering.withThrown (answering : Answering assistant) {number : Nat}
    {snapshot : Snapshot} (built : BuiltBy assistant.system number snapshot) :
    Answering
      { assistant with thrown := Function.update assistant.thrown number (some snapshot) } where
  sequenced := answering.sequenced
  dated := answering.dated
  past := answering.past
  asks := answering.asks
  builds := answering.builds
  thrown other found isThrown := by
    dsimp only at isThrown
    by_cases own : other = number
    · subst own
      rw [Function.update_self] at isThrown
      cases isThrown
      exact built
    · rw [Function.update_of_ne own] at isThrown
      exact answering.thrown other found isThrown

theorem settlementOf_call_inv {system : CacheSystem PortalContent} {request : Request}
    {parent : Option Nat} {number : Nat} {settlement : Settlement PortalContent}
    (settled : (system.step approxBytes (now, .call request parent)).settlementOf number =
      some settlement) : system.settlementOf number = some settlement := by
  rcases settlementOf_step_inv _ settled with before | ⟨_, settles, _⟩
  · exact before
  · cases settles

theorem readsOf_some {system : CacheSystem PortalContent} {problems sites : Nat}
    {reads : SnapshotReads} (found : readsOf system problems sites = some (some reads)) :
    (∃ answer ∈ answersOf system.log, answer.call.begunAt = problems ∧
      reads.problemsFrom = answer.value.origin.startedAt) ∧
    ∃ answer ∈ answersOf system.log, answer.call.begunAt = sites ∧
      reads.sitesFrom = answer.value.origin.startedAt := by
  unfold readsOf at found
  split at found
  · next left right isLeft isRight =>
      obtain rfl := Option.some.inj (Option.some.inj found)
      obtain ⟨inLeft, leftBegan⟩ := eventOf_answered isLeft
      obtain ⟨inRight, rightBegan⟩ := eventOf_answered isRight
      exact ⟨⟨left, inLeft, leftBegan, rfl⟩, right, inRight, rightBegan, rfl⟩
  · cases found
  · cases found
  · cases found

theorem Forward.since_mono {system : CacheSystem PortalContent} {key : String}
    {least since later : Nat} (forward : Forward key least since system) (after : since ≤ later) :
    Forward key least later system where
  counted := forward.counted
  stored := forward.stored
  registered := forward.registered
  waiting waiting member isKey began := forward.waiting waiting member isKey (Nat.le_trans after began)
  answered answer member isKey began :=
    forward.answered answer member isKey (Nat.le_trans after began)

/-- A call that has its answer starts from it: later calls under its key get nothing older. -/
theorem forward_of_answer {system : CacheSystem PortalContent} (sequenced : Sequenced system)
    {request : Request} {number : Nat} (made : Made number request system)
    {answer : Answer PortalContent} (given : answer ∈ answersOf system.log)
    (began : answer.call.begunAt = number) :
    Forward request.key answer.value.origin.startedAt system.steps system := by
  obtain ⟨since, past, forward⟩ := sequenced.forward answer given
  rw [made.answered answer given began] at forward
  exact Forward.since_mono forward past

/-- The call of a build that begins waits for it. -/
theorem serves_own {system : CacheSystem PortalContent} (sequenced : Sequenced system)
    (dated : Dated system)
    (begins : (system.step approxBytes (now, .call snapshotRequest none)).isRunning system.steps =
      true) :
    (system.step approxBytes (now, .call snapshotRequest none)).flightOf system.steps =
        some system.steps ∧
      Serves system.steps system.steps
        (system.step approxBytes (now, .call snapshotRequest none)) := by
  have unused := sequenced.after.begun
  obtain ⟨call, began, waiting, log⟩ :
      ∃ call : Call PortalContent, call.begunAt = system.steps ∧
        (system.step approxBytes (now, .call snapshotRequest none)).waiting =
          system.waiting ++ [⟨call, system.steps⟩] ∧
        (system.step approxBytes (now, .call snapshotRequest none)).log = system.log := by
    have running : (system.call now snapshotRequest none).isRunning system.steps = true := begins
    have plain : snapshotRequest.options = .plain := rfl
    exact call_begins plain unused running
  have earlier : ∀ other ∈ system.waiting, other.call.begunAt ≠ system.steps :=
    fun other member => Nat.ne_of_lt (sequenced.after.waiting other member).1
  constructor
  · unfold CacheSystem.flightOf
    rw [waiting, List.find?_append]
    have absent : system.waiting.find? (fun waiting => waiting.call.begunAt = system.steps) = none := by
      rw [List.find?_eq_none]
      intro other member
      simpa using earlier other member
    rw [absent, Option.none_or, List.find?_cons_of_pos (by simpa using began)]
    rfl
  · refine ⟨Nat.lt_succ_self _, ?_, ?_, ?_⟩
    · intro other member isOwn
      rw [waiting] at member
      rcases List.mem_append.mp member with before | added
      · exact absurd isOwn (earlier other before)
      · rw [List.mem_singleton.mp added]
    · intro event member other ends isOwn
      rw [log] at member
      exact absurd isOwn (Nat.ne_of_lt (dated event member other ends))
    · rw [waiting]
      exact .inl ⟨_, List.mem_append_right _ List.mem_cons_self, began⟩

end Parts

section Actions

variable {assistant : Assistant} {now : ℤ} {id : Nat}

theorem Answering.cache (approxBytes : PortalContent → Nat) (now : ℤ)
    (answering : Answering assistant) {action : CacheAction PortalContent}
    (allowed : assistant.allows action = true) :
    Answering { assistant with system := assistant.system.step approxBytes (now, action) } := by
  refine answering.grow (.step approxBytes answering.sequenced answering.dated _) ?_
  intro number build found settlement value settled _
  rcases settlementOf_step_inv _ settled with before | ⟨outcome, settles, _⟩
  · exact .inl before
  · dsimp only at settles
    rw [settles] at allowed
    unfold allows at allowed
    dsimp only at allowed
    rw [found] at allowed
    cases allowed

theorem Answering.read (approxBytes : PortalContent → Nat) (now : ℤ)
    (answering : Answering assistant) (parent : Option Nat) :
    Answering { assistant with system := read approxBytes now assistant.system parent } := by
  refine answering.grow (.read approxBytes answering.sequenced answering.dated now parent) ?_
  intro number build found settlement value settled _
  exact .inl (settlementOf_call_inv (settlementOf_call_inv settled))

theorem made_of_read (approxBytes : PortalContent → Nat) (now : ℤ)
    {system : CacheSystem PortalContent} (sequenced : Sequenced system) (parent : Option Nat) :
    Made system.steps problemsRequest (read approxBytes now system parent) ∧
      Made (system.steps + 1) sitesRequest (read approxBytes now system parent) := by
  have first : Made system.steps problemsRequest
      (system.step approxBytes (now, .call problemsRequest parent)) :=
    made_of_call sequenced.after problemsRequest parent
  have second : Sequenced (system.step approxBytes (now, .call problemsRequest parent)) :=
    sequenced.step _
  exact ⟨first.step _, made_of_call second.after sitesRequest parent⟩

theorem Answering.getSnapshot (answering : Answering assistant) :
    Answering (assistant.step approxBytes sha1 (now, .getSnapshot)) := by
  have made := made_of_read approxBytes now answering.sequenced none
  exact (answering.read approxBytes now none).endWith (Nat.lt_of_lt_of_le made.1.past (Nat.le_refl _)) made

theorem Answering.startReads (answering : Answering assistant) (number : Nat) :
    Answering (assistant.startReads approxBytes now number) := by
  unfold Assistant.startReads
  split
  · next generatedAt isBuild =>
      have grown := answering.read approxBytes now (some number)
      have kept := grown.builds number _ isBuild
      have made := made_of_read approxBytes now answering.sequenced (some number)
      have past := (answering.builds number _ isBuild).past
      refine grown.withBuild ⟨kept.past, ?_, kept.settled⟩
      intro problems sites same
      cases same
      exact ⟨past, Nat.lt_succ_of_lt past, made.1, made.2⟩
  · exact answering

/-- The build's own two reads make its snapshot. -/
theorem Answering.builtBy (answering : Answering assistant) {number problems sites : Nat}
    {generatedAt : ℤ}
    (isBuild : assistant.builds number = some ⟨generatedAt, some (problems, sites)⟩)
    {snapshot : Snapshot}
    (read : readsOf assistant.system problems sites = some (some snapshot.reads)) :
    BuiltBy assistant.system number snapshot := by
  obtain ⟨later, after, madeProblems, madeSites⟩ :=
    (answering.builds number _ isBuild).reads problems sites rfl
  obtain ⟨⟨left, inLeft, leftBegan, fromLeft⟩, right, inRight, rightBegan, fromRight⟩ :=
    readsOf_some read
  refine ⟨⟨left, inLeft, madeProblems.answered left inLeft leftBegan, ?_, fromLeft⟩, right, inRight,
    madeSites.answered right inRight rightBegan, ?_, fromRight⟩
  · rw [leftBegan]
    exact later
  · rw [rightBegan]
    exact after

/-- A build settles with its snapshot, or fails. -/
theorem Answering.settle (approxBytes : PortalContent → Nat) (now : ℤ)
    (answering : Answering assistant) {number : Nat} (outcome : Option PortalContent)
    (ends : ∀ content, outcome = some content → ∃ snapshot, content = .snapshot snapshot ∧
      BuiltBy assistant.system number snapshot) :
    Answering
      { assistant with
        system := assistant.system.step approxBytes (now, .settle number outcome) } := by
  refine answering.grow (.step approxBytes answering.sequenced answering.dated _) ?_
  intro other build found settlement value settled result
  rcases settlementOf_step_inv _ settled with before | ⟨own, settles, content⟩
  · exact .inl before
  · cases settles
    exact .inr (ends value.content (content value result))

theorem Answering.finish (answering : Answering assistant) (number : Nat) (complete : Bool) :
    Answering (assistant.finish approxBytes now number complete) := by
  unfold Assistant.finish
  split
  · next generatedAt problems sites isBuild =>
      split
      · split
        · exact answering
        · exact answering.settle approxBytes now none nofun
        · next reads found =>
            have built : BuiltBy assistant.system number ⟨reads, generatedAt, complete⟩ :=
              answering.builtBy isBuild found
            dsimp only
            split
            · exact answering.settle approxBytes now _ fun content same =>
                ⟨_, (Option.some.inj same).symm, built⟩
            · refine (answering.settle approxBytes now none nofun).withThrown (built.grows ?_)
              exact .step approxBytes answering.sequenced answering.dated _
      · exact answering
  · exact answering

/-- Asking for the snapshot, for the first time or with nothing stored or in flight. -/
theorem Answering.ask (answering : Answering assistant) {reads : SnapshotReads} {again : Bool}
    (past : id < assistant.system.steps)
    (problems : Forward problemsRequest.key reads.problemsFrom assistant.system.steps
      assistant.system)
    (sites : Forward sitesRequest.key reads.sitesFrom assistant.system.steps assistant.system)
    (forgotten : again = true → assistant.system.cache.store.get? SNAPSHOT_KEY = none ∧
      assistant.system.cache.inflight.get? SNAPSHOT_KEY = none) :
    Answering (assistant.ask approxBytes now id reads false again) := by
  have grows := Grows.step approxBytes answering.sequenced answering.dated
    (now, .call snapshotRequest none)
  have grown : Answering { assistant with
      system := assistant.system.step approxBytes (now, .call snapshotRequest none) } := by
    refine answering.grow grows ?_
    intro number build found settlement value settled _
    exact .inl (settlementOf_call_inv settled)
  have made : Made assistant.system.steps snapshotRequest
      (assistant.system.step approxBytes (now, .call snapshotRequest none)) :=
    made_of_call answering.sequenced.after snapshotRequest none
  have isAgain : again = true → (assistant.system.step approxBytes
      (now, .call snapshotRequest none)).isRunning assistant.system.steps = true := by
    intro asksAgain
    obtain ⟨unstored, unregistered⟩ := forgotten asksAgain
    exact begins_of_absent unstored unregistered
  unfold Assistant.ask
  dsimp only
  split
  · next begins =>
      obtain ⟨isFlight, serves⟩ := serves_own answering.sequenced answering.dated begins
      have begun : BuildKept (assistant.system.step approxBytes (now, .call snapshotRequest none))
          assistant.system.steps ⟨now / 1000 * 1000, none⟩ := by
        refine ⟨made.past, nofun, fun settlement value settled _ => ?_⟩
        obtain ⟨flight, found, _⟩ := Option.bind_eq_some_iff.mp (settlementOf_call_inv settled)
        exact absurd (answering.sequenced.after.begun _ flight found) (Nat.lt_irrefl _)
      refine (grown.withBuild begun).endWith (Nat.lt_of_lt_of_le past grows.steps) ?_
      rw [isFlight]
      refine ⟨made.past, grows.forward _ _ _ problems, grows.forward _ _ _ sites, fun _ => ?_,
        fun _ => ⟨rfl, ?_, serves, made⟩⟩
      · rw [begins]
        rfl
      · dsimp only
        rw [Function.update_self]
        rfl
  · next idle =>
      refine grown.endWith (Nat.lt_of_lt_of_le past grows.steps) ?_
      refine ⟨made.past, grows.forward _ _ _ problems, grows.forward _ _ _ sites,
        fun asksAgain => ?_, fun built => ?_⟩
      · exact absurd (isAgain asksAgain) idle
      · rw [Bool.false_or] at built
        exact absurd built idle

/-- Nothing is stored or in flight under the snapshot's key once it is invalidated. -/
theorem forgotten_of_invalidate (approxBytes : PortalContent → Nat) (now : ℤ)
    (system : CacheSystem PortalContent) :
    (system.step approxBytes (now, .invalidate SNAPSHOT_KEY none)).cache.store.get? SNAPSHOT_KEY =
        none ∧
      (system.step approxBytes (now, .invalidate SNAPSHOT_KEY none)).cache.inflight.get?
        SNAPSHOT_KEY = none := by
  have matched : startsWith SNAPSHOT_KEY SNAPSHOT_KEY = true := by decide
  constructor
  · refine Option.eq_none_iff_forall_ne_some.mpr fun entry found => ?_
    exact nomatch matched.symm.trans (Cache.invalidate_get? found).1
  · refine Option.eq_none_iff_forall_ne_some.mpr fun number found => ?_
    exact nomatch matched.symm.trans (Cache.invalidate_inflight_get?.mp found).1

theorem Answering.proceed (answering : Answering assistant) :
    Answering (assistant.proceed approxBytes sha1 now id) := by
  unfold Assistant.proceed
  cases isState : assistant.asks id with
  | none => exact answering
  | some state =>
      have past := answering.past id state isState
      have kept := answering.asks id state isState
      cases state with
      | returned reads snapshot frozen then_ => exact answering
      | failed => exact answering
      | reading problems sites =>
          dsimp only
          cases found : readsOf assistant.system problems sites with
          | none => exact answering
          | some outcome =>
              cases outcome with
              | none => exact answering.endWith past trivial
              | some reads =>
                  obtain ⟨⟨left, inLeft, leftBegan, fromLeft⟩, right, inRight, rightBegan,
                    fromRight⟩ := readsOf_some found
                  refine answering.ask past ?_ ?_ nofun
                  · rw [fromLeft]
                    exact forward_of_answer answering.sequenced kept.1 inLeft leftBegan
                  · rw [fromRight]
                    exact forward_of_answer answering.sequenced kept.2 inRight rightBegan
      | asking reads built again call flight =>
          obtain ⟨earlier, problems, sites, isAgain, own⟩ := kept
          dsimp only
          cases isEvent : assistant.system.eventOf call with
          | none => exact answering
          | some event =>
              cases event with
              | wroteBack step => exact answering
              | threw asked =>
                  dsimp only
                  cases flight.bind assistant.thrown with
                  | none => exact answering.endWith past trivial
                  | some snapshot => exact answering.endWith past trivial
              | answered answer =>
                  dsimp only
                  cases answer.value.content with
                  | problems rows => exact answering.endWith past trivial
                  | sites rows => exact answering.endWith past trivial
                  | other => exact answering.endWith past trivial
                  | snapshot snapshot =>
                      dsimp only
                      split
                      · next stale =>
                          have unbuilt : built = false := by
                            cases built with
                            | false => rfl
                            | true => simp at stale
                          have allowed : assistant.allows (.invalidate SNAPSHOT_KEY none) = true := rfl
                          have swept := answering.cache approxBytes now allowed
                          have grows := Grows.step approxBytes answering.sequenced answering.dated
                            (now, .invalidate SNAPSHOT_KEY none)
                          have later := Nat.le_trans (Nat.le_of_lt earlier) grows.steps
                          rw [unbuilt]
                          refine swept.ask (Nat.lt_of_lt_of_le past grows.steps) ?_ ?_ fun _ =>
                            forgotten_of_invalidate approxBytes now assistant.system
                          · exact Forward.since_mono (grows.forward _ _ _ problems) later
                          · exact Forward.since_mono (grows.forward _ _ _ sites) later
                      · exact answering.endWith past trivial

theorem Answering.step (answering : Answering assistant) (turn : ℤ × AssistantAction) :
    Answering (assistant.step approxBytes sha1 turn) := by
  obtain ⟨now, action⟩ := turn
  cases action with
  | cache action =>
      unfold Assistant.step
      dsimp only
      split
      · next allowed => exact answering.cache approxBytes now allowed
      · exact answering
  | getSnapshot => exact answering.getSnapshot
  | proceed id => exact answering.proceed
  | startReads build => exact answering.startReads build
  | finish build complete => exact answering.finish build complete

end Actions

def AllUpToDate (sha1 : String → List (Fin 16)) (asks : Nat → Option GetSnapshot) : Prop :=
  ∀ id reads snapshot frozen now, asks id = some (.returned reads snapshot frozen now) →
    UpToDate sha1 reads snapshot now

/-- A call that joined another's build, and goes on with its unfinished snapshot, could have
compared it: the build's reads are no older than its own, or the comparison lets it through. -/
def Compared (sha1 : String → List (Fin 16)) (assistant : Assistant)
    (turn : ℤ × AssistantAction) : Prop :=
  ∀ id, turn.2 = .proceed id → ∀ reads again call flight snapshot,
    assistant.asks id = some (.asking reads false again call (some flight)) →
    (∃ asked, assistant.system.eventOf call = some (.threw asked)) →
    assistant.thrown flight = some snapshot →
    snapshot.reads.NoOlder reads ∨ outdated sha1 snapshot reads turn.1 = false

section Returned

variable {assistant : Assistant} {now : ℤ} {id : Nat}

theorem allUpToDate_update {asks : Nat → Option GetSnapshot} {ending : GetSnapshot}
    (waits : ∀ reads snapshot frozen now, asks id ≠ some (.returned reads snapshot frozen now)) :
    AllUpToDate sha1 (Function.update asks id (some ending)) ↔
      AllUpToDate sha1 asks ∧ ∀ reads snapshot frozen now,
        ending = .returned reads snapshot frozen now → UpToDate sha1 reads snapshot now := by
  constructor
  · intro all
    constructor
    · intro other reads snapshot frozen now returned
      refine all other reads snapshot frozen now ?_
      rw [Function.update_of_ne, returned]
      rintro rfl
      exact waits reads snapshot frozen now returned
    · intro reads snapshot frozen now same
      refine all id reads snapshot frozen now ?_
      rw [Function.update_self, same]
  · rintro ⟨all, own⟩ other reads snapshot frozen now returned
    by_cases isOwn : other = id
    · subst isOwn
      rw [Function.update_self] at returned
      exact own reads snapshot frozen now (Option.some.inj returned)
    · rw [Function.update_of_ne isOwn] at returned
      exact all other reads snapshot frozen now returned

/-- A step that ends no call with a snapshot. -/
theorem allUpToDate_update_waiting {asks : Nat → Option GetSnapshot} {state : GetSnapshot}
    (waits : ∀ reads snapshot frozen now, asks id ≠ some (.returned reads snapshot frozen now))
    (stays : ∀ reads snapshot frozen now, state ≠ .returned reads snapshot frozen now) :
    AllUpToDate sha1 (Function.update asks id (some state)) ↔ AllUpToDate sha1 asks := by
  rw [allUpToDate_update waits]
  exact and_iff_left fun reads snapshot frozen now same => absurd same (stays _ _ _ _)

theorem startReads_asks (number : Nat) :
    (assistant.startReads approxBytes now number).asks = assistant.asks := by
  unfold Assistant.startReads
  split <;> rfl

theorem finish_asks (number : Nat) (complete : Bool) :
    (assistant.finish approxBytes now number complete).asks = assistant.asks := by
  unfold Assistant.finish
  split
  · split
    · split
      · rfl
      · rfl
      · dsimp only
        split <;> rfl
    · rfl
  · rfl

/-- The value of the call's own build, or one the comparison let through. -/
theorem Answering.upToDate_of_answered (answering : Answering assistant) {reads : SnapshotReads}
    {built again : Bool} {call : Nat} {flight : Option Nat} {answer : Answer PortalContent}
    {snapshot : Snapshot} (isState : assistant.asks id = some (.asking reads built again call flight))
    (isEvent : assistant.system.eventOf call = some (.answered answer))
    (isSnapshot : answer.value.content = .snapshot snapshot)
    (kept : ¬ (!again && !built && outdated sha1 snapshot reads now) = true) :
    UpToDate sha1 reads snapshot now := by
  obtain ⟨_, problems, sites, isAgain, own⟩ := answering.asks id _ isState
  cases built with
  | false =>
      have first : again = false := by
        cases again with
        | false => rfl
        | true => exact absurd (isAgain rfl) Bool.false_ne_true
      rw [first] at kept
      right
      exact outdated_eq_false_iff.mp (by simpa using kept)
  | true =>
      left
      obtain ⟨_, isBuild, serves, made⟩ := own rfl
      obtain ⟨build, isBuild⟩ := Option.isSome_iff_exists.mp isBuild
      obtain ⟨inLog, asked, ends, began⟩ := eventOf_some isEvent
      obtain ⟨settlement, settled, reports⟩ := serves.ended _ inLog asked ends began
      obtain ⟨awaited, value, failed⟩ := reports
      cases result : settlement.result with
      | none =>
          have allowed := (failed result).1
          obtain ⟨given, hasBegun⟩ := eventOf_answered isEvent
          rw [made.answered answer given hasBegun] at allowed
          cases allowed
      | some fetched =>
          obtain ⟨other, content, builtBy⟩ :=
            (answering.builds call build isBuild).settled settlement fetched settled result
          rw [value fetched result, content] at isSnapshot
          obtain rfl := PortalContent.snapshot.inj isSnapshot
          exact builtBy.noOlder problems sites

theorem Answering.upToDate_of_threw (answering : Answering assistant) {reads : SnapshotReads}
    {again : Bool} {call : Nat} {flight : Option Nat} {snapshot : Snapshot}
    (isState : assistant.asks id = some (.asking reads true again call flight))
    (thrown : flight.bind assistant.thrown = some snapshot) : UpToDate sha1 reads snapshot now := by
  obtain ⟨_, problems, sites, _, own⟩ := answering.asks id _ isState
  obtain ⟨rfl, _⟩ := own rfl
  exact .inl ((answering.thrown call snapshot thrown).noOlder problems sites)

/-- The condition says nothing where no error is passed on to a call that joined. -/
theorem compared_of_quiet
    (quiet : ∀ reads again call flight,
      assistant.asks id = some (.asking reads false again call (some flight)) →
      ∀ asked, assistant.system.eventOf call ≠ some (.threw asked)) :
    Compared sha1 assistant (now, .proceed id) := by
  intro other same reads again call flight snapshot isState threw _
  cases same
  obtain ⟨asked, isEvent⟩ := threw
  exact absurd isEvent (quiet reads again call flight isState asked)

theorem compared_of_event {reads : SnapshotReads} {built again : Bool} {call : Nat}
    {flight : Option Nat} (isState : assistant.asks id = some (.asking reads built again call flight))
    (calm : ∀ asked, assistant.system.eventOf call ≠ some (.threw asked)) :
    Compared sha1 assistant (now, .proceed id) := by
  refine compared_of_quiet fun others isAgain other joined isOther => ?_
  cases isState.symm.trans isOther
  exact calm

theorem Answering.allUpToDate_asking (answering : Answering assistant) {reads : SnapshotReads}
    {built again : Bool} {call : Nat} {flight : Option Nat}
    (isState : assistant.asks id = some (.asking reads built again call flight)) :
    AllUpToDate sha1 (assistant.proceed approxBytes sha1 now id).asks ↔
      AllUpToDate sha1 assistant.asks ∧ Compared sha1 assistant (now, .proceed id) := by
  have waits : ∀ own snapshot frozen now,
      assistant.asks id ≠ some (.returned own snapshot frozen now) := by
    intro own snapshot frozen now returned
    cases isState.symm.trans returned
  have failing : AllUpToDate sha1 (assistant.endWith id .failed).asks ↔
      AllUpToDate sha1 assistant.asks :=
    allUpToDate_update_waiting waits nofun
  have calmly : (∀ asked, assistant.system.eventOf call ≠ some (.threw asked)) →
      (AllUpToDate sha1 assistant.asks ↔
        AllUpToDate sha1 assistant.asks ∧ Compared sha1 assistant (now, .proceed id)) :=
    fun calm => (and_iff_left (compared_of_event isState calm)).symm
  unfold Assistant.proceed
  rw [isState]
  dsimp only
  cases isEvent : assistant.system.eventOf call with
  | none =>
      dsimp only
      refine calmly fun asked threw => ?_
      cases isEvent.symm.trans threw
  | some event =>
      cases event with
      | wroteBack step =>
          dsimp only
          refine calmly fun asked threw => ?_
          cases isEvent.symm.trans threw
      | answered answer =>
          have calm : ∀ asked, assistant.system.eventOf call ≠ some (.threw asked) := by
            intro asked threw
            cases isEvent.symm.trans threw
          dsimp only
          cases isContent : answer.value.content with
          | problems rows => exact failing.trans (calmly calm)
          | sites rows => exact failing.trans (calmly calm)
          | other => exact failing.trans (calmly calm)
          | snapshot snapshot =>
              dsimp only
              split
              · refine Iff.trans ?_ (calmly calm)
                exact allUpToDate_update_waiting waits nofun
              · next kept =>
                  refine Iff.trans ?_ (calmly calm)
                  refine (allUpToDate_update waits).trans (and_iff_left ?_)
                  intro own other frozen then_ same
                  cases same
                  exact answering.upToDate_of_answered isState isEvent isContent kept
      | threw asked =>
          dsimp only
          cases thrown : flight.bind assistant.thrown with
          | none =>
              dsimp only
              refine failing.trans (and_iff_left ?_).symm
              intro other same own isAgain number joined snapshot isOther _ isThrown
              cases same
              cases isState.symm.trans isOther
              exact nomatch thrown.symm.trans isThrown
          | some snapshot =>
              dsimp only
              refine (allUpToDate_update waits).trans (and_congr_right fun _ => ?_)
              constructor
              · intro upToDate other same own isAgain number joined found isOther _ isThrown
                cases same
                cases isState.symm.trans isOther
                cases thrown.symm.trans isThrown
                rcases upToDate reads snapshot false now rfl with noOlder | compares
                · exact .inl noOlder
                · exact .inr (outdated_eq_false_iff.mpr compares)
              · intro compared own other frozen then_ same
                cases same
                cases built with
                | true => exact answering.upToDate_of_threw isState thrown
                | false =>
                    obtain ⟨number, rfl, isThrown⟩ := Option.bind_eq_some_iff.mp thrown
                    rcases compared id rfl reads again call number snapshot isState
                      ⟨asked, isEvent⟩ isThrown with noOlder | fresh
                    · exact .inl noOlder
                    · exact .inr (outdated_eq_false_iff.mp fresh)

theorem Answering.allUpToDate_proceed (answering : Answering assistant) :
    AllUpToDate sha1 (assistant.proceed approxBytes sha1 now id).asks ↔
      AllUpToDate sha1 assistant.asks ∧ Compared sha1 assistant (now, .proceed id) := by
  have calmly : (∀ reads again call flight,
      assistant.asks id ≠ some (.asking reads false again call flight)) →
      (AllUpToDate sha1 assistant.asks ↔
        AllUpToDate sha1 assistant.asks ∧ Compared sha1 assistant (now, .proceed id)) := by
    intro other
    refine (and_iff_left (compared_of_quiet ?_)).symm
    intro reads again call flight isAsking
    exact absurd isAsking (other reads again call (some flight))
  cases isState : assistant.asks id with
  | none =>
      have same : assistant.proceed approxBytes sha1 now id = assistant := by
        unfold Assistant.proceed
        rw [isState]
      rw [same]
      refine calmly fun reads again call flight asking => ?_
      cases isState.symm.trans asking
  | some state =>
      cases state with
      | asking reads built again call flight => exact answering.allUpToDate_asking isState
      | returned reads snapshot frozen then_ =>
          have same : assistant.proceed approxBytes sha1 now id = assistant := by
            unfold Assistant.proceed
            rw [isState]
          rw [same]
          refine calmly fun reads again call flight asking => ?_
          cases isState.symm.trans asking
      | failed =>
          have same : assistant.proceed approxBytes sha1 now id = assistant := by
            unfold Assistant.proceed
            rw [isState]
          rw [same]
          refine calmly fun reads again call flight asking => ?_
          cases isState.symm.trans asking
      | reading problems sites =>
          have waits : ∀ own snapshot frozen now,
              assistant.asks id ≠ some (.returned own snapshot frozen now) := by
            intro own snapshot frozen now returned
            cases isState.symm.trans returned
          have calm := calmly fun reads again call flight asking => by
            cases isState.symm.trans asking
          refine Iff.trans ?_ calm
          unfold Assistant.proceed
          rw [isState]
          dsimp only
          cases readsOf assistant.system problems sites with
          | none => exact Iff.rfl
          | some outcome =>
              cases outcome with
              | none => exact allUpToDate_update_waiting waits nofun
              | some reads => exact allUpToDate_update_waiting waits nofun

theorem Answering.allUpToDate_step (answering : Answering assistant) (turn : ℤ × AssistantAction) :
    AllUpToDate sha1 (assistant.step approxBytes sha1 turn).asks ↔
      AllUpToDate sha1 assistant.asks ∧ Compared sha1 assistant turn := by
  obtain ⟨now, action⟩ := turn
  have calm : (∀ id, action ≠ .proceed id) → Compared sha1 assistant (now, action) := by
    intro other id same
    exact absurd same (other id)
  cases action with
  | cache action =>
      refine Iff.trans ?_ (and_iff_left (calm nofun)).symm
      unfold Assistant.step
      dsimp only
      split <;> exact Iff.rfl
  | getSnapshot =>
      refine Iff.trans (allUpToDate_update_waiting ?_ nofun) (and_iff_left (calm nofun)).symm
      intro reads snapshot frozen now returned
      exact absurd (answering.past _ _ returned) (Nat.lt_irrefl _)
  | proceed id => exact answering.allUpToDate_proceed
  | startReads build =>
      refine Iff.trans ?_ (and_iff_left (calm nofun)).symm
      unfold Assistant.step
      dsimp only
      rw [startReads_asks]
  | finish build complete =>
      refine Iff.trans ?_ (and_iff_left (calm nofun)).symm
      unfold Assistant.step
      dsimp only
      rw [finish_asks]

end Returned

section Runs

theorem Answering.run (approxBytes : PortalContent → Nat) (sha1 : String → List (Fin 16))
    (turns : List (ℤ × AssistantAction)) : Answering (run approxBytes sha1 turns) :=
  List.foldlRecOn (motive := Answering) turns _ .idle fun _ answering turn _ => answering.step turn

/-- Every snapshot returned in the run may be answered from exactly when every unfinished one
that a call took from another's build could have been compared. -/
theorem snapshots_up_to_date_iff (approxBytes : PortalContent → Nat)
    (sha1 : String → List (Fin 16)) (turns : List (ℤ × AssistantAction)) :
    AllUpToDate sha1 (run approxBytes sha1 turns).asks ↔
      ∀ before turn after, turns = before ++ turn :: after →
        Compared sha1 (run approxBytes sha1 before) turn := by
  induction turns using List.reverseRecOn with
  | nil =>
      refine iff_of_true (fun _ _ _ _ _ returned => nomatch returned) ?_
      intro before turn after split
      cases before <;> cases split
  | append_singleton turns turn ih =>
      have stepped : run approxBytes sha1 (turns ++ [turn]) =
          (run approxBytes sha1 turns).step approxBytes sha1 turn := by
        unfold run
        rw [List.foldl_append]
        rfl
      rw [stepped, (Answering.run approxBytes sha1 turns).allUpToDate_step turn, ih]
      exact forall_split_snoc.symm

section ProblemOpens

/-! The problem list is stored; a call begins a build from it, whose derived SLA is still
computing after its 1.5 s. Meanwhile the list expires, a problem has opened, and a second
call reads the new list and joins that build. -/

def openedProblem : ZbxProblem :=
  { eventid := "7", objectid := "70", name := "Unavailable by ICMP ping", severity := 5, clock := 4
    r_eventid := none, acknowledged := false, suppressed := false, hostid := none }

def sha1OfLists (text : String) : List (Fin 16) :=
  if text = "7:5:0\n" then
    [1, 3, 6, 5, 0, 15, 13, 6, 11, 9, 10, 14, 13, 12, 14, 4, 14, 12, 1, 10, 2, 14, 0, 7, 2, 6,
      0, 3, 15, 5, 4, 6, 4, 15, 7, 14, 12, 3, 13, 6]
  else
    [13, 10, 3, 9, 10, 3, 14, 14, 5, 14, 6, 11, 4, 11, 0, 13, 3, 2, 5, 5, 11, 15, 14, 15, 9,
      5, 6, 0, 1, 8, 9, 0, 10, 15, 13, 8, 0, 7, 0, 9]

def problemOpens : List (ℤ × AssistantAction) :=
  [(0, .cache (.call problemsRequest none)), (0, .cache (.call sitesRequest none)),
    (10, .cache (.settle 0 (some (.problems [])))), (10, .cache (.settle 1 (some (.sites [])))),
    (4000, .getSnapshot), (4000, .proceed 4), (4000, .startReads 6),
    (5100, .getSnapshot), (5200, .cache (.settle 9 (some (.problems [openedProblem])))),
    (5200, .cache (.resume 9)), (5200, .proceed 9),
    (5500, .finish 6 false), (5500, .cache (.resume 13)), (5500, .proceed 9)]

/-- The second call is answered with the snapshot of no problems. -/
theorem joined_build_hides_problem :
    ¬ AllUpToDate sha1OfLists (run (fun _ => 8) sha1OfLists problemOpens).asks := by
  intro all
  have returned : (run (fun _ => 8) sha1OfLists problemOpens).asks 9 =
      some (.returned ⟨[openedProblem], [], 9, 1⟩ ⟨⟨[], [], 0, 1⟩, 4000, false⟩ false 5500) := by
    decide +kernel
  rcases all 9 _ _ _ _ returned with ⟨older, _⟩ | ⟨same, _⟩
  · exact absurd older (by decide)
  · revert same
    decide +kernel

end ProblemOpens

end Runs

end Assistant

end ZabbixPortal.Services
