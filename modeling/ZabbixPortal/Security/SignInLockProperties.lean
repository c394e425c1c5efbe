import ZabbixPortal.Foundation.Joined
import ZabbixPortal.Security.SignInLock
import ZabbixPortal.Security.SignOut
import Mathlib.Data.List.Dedup
import Mathlib.Data.List.Induction
import Mathlib.Order.Basic

/-! The sign-in lock over whole runs: what one account's failures in a row do to its next sign-in,
and that no other account's do anything. -/

set_option autoImplicit false

namespace ZabbixPortal.Security

open Foundation

section Lock

variable (platform : Platform) (normalizeIP : String → String) (config : AuthConfig)

def signsInAs (attempt : SignIn) : String × String :=
  (normalizeIP attempt.ip, accountOf platform attempt)

/-- In a run the last sign-ins of an account that had their password checked failed, this many in
a row, each less than an hour after the one before; and when the last of them failed. -/
inductive FailedInARow (who : String × String) : List SignIn → ℕ → ℕ → Prop where
  | first {log : List SignIn} {attempt : SignIn}
      (own : signsInAs platform normalizeIP attempt = who)
      (failed : replyAfter platform normalizeIP config log attempt = .invalidCredentials) :
      FailedInARow who (log ++ [attempt]) 1 attempt.checkedAt
  | next {log : List SignIn} {attempt : SignIn} {k last : ℕ} (before : FailedInARow who log k last)
      (own : signsInAs platform normalizeIP attempt = who)
      (failed : replyAfter platform normalizeIP config log attempt = .invalidCredentials)
      (soon : attempt.checkedAt < last + 3600000) :
      FailedInARow who (log ++ [attempt]) (k + 1) attempt.checkedAt
  | refused {log : List SignIn} {attempt : SignIn} {k last : ℕ}
      (before : FailedInARow who log k last)
      (refused : (replyAfter platform normalizeIP config log attempt).refused = true) :
      FailedInARow who (log ++ [attempt]) k last
  | other {log : List SignIn} {attempt : SignIn} {k last : ℕ}
      (before : FailedInARow who log k last)
      (other : signsInAs platform normalizeIP attempt ≠ who) :
      FailedInARow who (log ++ [attempt]) k last

variable {platform} {normalizeIP} {config}

/-! ## One sign-in -/

theorem refused_of_loginLimit {failures : OrderedMap String Failures} {attempt : SignIn}
    {reply : SignInReply} (limited : loginLimit platform normalizeIP failures attempt = some reply) :
    reply.refused = true := by
  have ofLimit : ∀ limit, loginLimit.limited limit = some reply → reply.refused = true := by
    intro limit answered
    cases limit with
    | none => cases answered
    | some limit =>
        unfold loginLimit.limited at answered
        dsimp only at answered
        split at answered
        · cases answered
        · cases answered
          rfl
  unfold loginLimit at limited
  split at limited
  · split at limited
    · cases limited
      rfl
    · exact ofLimit _ limited
  · exact ofLimit _ limited

/-- With room for one more key nothing is forgotten. -/
theorem get?_recordFailure {failures : OrderedMap String Failures} {key : String} {now : ℕ}
    (room : ((failures.delete key).set key (nextFailure (failures.get? key) now)).size ≤
      LOGIN_FAIL_KEYS) (other : String) :
    (recordFailure failures key now).get? other =
      if other = key then some (nextFailure (failures.get? key) now) else failures.get? other := by
  unfold recordFailure
  dsimp only
  rw [if_neg (Nat.not_lt.mpr room), OrderedMap.get?_set, OrderedMap.get?_delete]
  by_cases same : other = key
  · rw [if_pos same, if_pos same]
  · rw [if_neg same, if_neg same, if_neg same]

def failuresAfter (prev : Option Failures) (reply : SignInReply) (now : ℕ) : Option Failures :=
  match reply with
  | .invalidCredentials => some (nextFailure prev now)
  | .issued _ => none
  | .locked _ | .rateLimited _ _ => prev

theorem get?_signIn {failures : OrderedMap String Failures} {attempt : SignIn}
    (room : ∀ value, ((failures.delete (loginKey platform normalizeIP attempt)).set
      (loginKey platform normalizeIP attempt) value).size ≤ LOGIN_FAIL_KEYS) (key : String) :
    (signIn platform normalizeIP config failures attempt).1.get? key =
      if key = loginKey platform normalizeIP attempt then
        failuresAfter (failures.get? key)
          (signIn platform normalizeIP config failures attempt).2 attempt.checkedAt
      else failures.get? key := by
  unfold signIn
  cases limited : loginLimit platform normalizeIP failures attempt with
  | some refusal =>
      have refused := refused_of_loginLimit limited
      dsimp only
      cases refusal with
      | locked seconds => simp [failuresAfter]
      | rateLimited seconds most => simp [failuresAfter]
      | invalidCredentials => cases refused
      | issued issued => cases refused
  | none =>
      dsimp only
      split
      · rw [get?_recordFailure (room _)]
        split
        · next same => rw [same, failuresAfter]
        · rfl
      · rw [OrderedMap.get?_delete]
        rfl

/-- What is answered depends on the failures of the key alone. -/
theorem signIn_reply_congr {left right : OrderedMap String Failures} {attempt : SignIn}
    (same : left.get? (loginKey platform normalizeIP attempt) =
      right.get? (loginKey platform normalizeIP attempt)) :
    (signIn platform normalizeIP config left attempt).2 =
      (signIn platform normalizeIP config right attempt).2 := by
  have limits : loginLimit platform normalizeIP left attempt =
      loginLimit platform normalizeIP right attempt := by
    unfold loginLimit
    rw [same]
  unfold signIn
  rw [limits]
  cases loginLimit platform normalizeIP right attempt with
  | some refusal => rfl
  | none =>
      dsimp only
      split <;> rfl

theorem signIn_of_refused {failures : OrderedMap String Failures} {attempt : SignIn}
    (refused : (signIn platform normalizeIP config failures attempt).2.refused = true) :
    (signIn platform normalizeIP config failures attempt).1 = failures := by
  unfold signIn at refused ⊢
  split at refused
  · rfl
  · dsimp only at refused
    split at refused
    · cases refused
    · cases refused

/-- The first failure, or the first after a gap. -/
theorem nextFailure_late {prev : Option Failures} {now : ℕ}
    (late : ∀ found, prev = some found → found.last + 3600000 ≤ now) :
    nextFailure prev now = ⟨1, now, 0⟩ := by
  cases prev with
  | none => rfl
  | some found =>
      have gap : ¬ now < found.last + LOGIN_FAIL_TTL_MS := Nat.not_lt.mpr (late found rfl)
      unfold nextFailure
      dsimp only
      rw [if_neg gap]
      rfl

/-! ## Keys -/

theorem keys_recordFailure {failures : OrderedMap String Failures} {key other : String} {now : ℕ}
    (member : other ∈ (recordFailure failures key now).keys) :
    other = key ∨ other ∈ failures.keys := by
  have recorded : ∀ value, other ∈ ((failures.delete key).set key value).keys →
      other = key ∨ other ∈ failures.keys := by
    intro value inside
    rcases (OrderedMap.mem_keys_set _ _ _ _).mp inside with same | kept
    · exact .inl same
    · obtain ⟨entry, inEntries, rfl⟩ := List.mem_map.mp kept
      exact .inr (List.mem_map.mpr
        ⟨entry, ((OrderedMap.mem_entries_delete _ _ _).mp inEntries).1, rfl⟩)
  unfold recordFailure at member
  dsimp only at member
  split at member
  · refine recorded (nextFailure (failures.get? key) now) ?_
    obtain ⟨entry, inEntries, rfl⟩ := List.mem_map.mp member
    rw [OrderedMap.entries_dropFirst] at inEntries
    exact List.mem_map.mpr ⟨entry, List.mem_of_mem_tail inEntries, rfl⟩
  · exact recorded _ member

theorem keys_signIn {failures : OrderedMap String Failures} {attempt : SignIn} {key : String}
    (member : key ∈ (signIn platform normalizeIP config failures attempt).1.keys) :
    key = loginKey platform normalizeIP attempt ∨ key ∈ failures.keys := by
  unfold signIn at member
  split at member
  · exact .inr member
  · dsimp only at member
    split at member
    · exact keys_recordFailure member
    · obtain ⟨entry, inEntries, rfl⟩ := List.mem_map.mp member
      exact .inr (List.mem_map.mpr
        ⟨entry, ((OrderedMap.mem_entries_delete _ _ _).mp inEntries).1, rfl⟩)

theorem afterSignIns_concat (log : List SignIn) (attempt : SignIn) :
    afterSignIns platform normalizeIP config (log ++ [attempt]) =
      (signIn platform normalizeIP config (afterSignIns platform normalizeIP config log)
        attempt).1 := by
  rw [afterSignIns, List.foldl_concat]
  rfl

theorem keys_afterSignIns {log : List SignIn} {key : String}
    (member : key ∈ (afterSignIns platform normalizeIP config log).keys) :
    key ∈ log.map (loginKey platform normalizeIP) := by
  induction log using List.reverseRecOn with
  | nil => cases member
  | append_singleton log attempt ih =>
      rw [afterSignIns_concat] at member
      rw [List.map_append, List.mem_append]
      rcases keys_signIn member with rfl | earlier
      · exact .inr List.mem_cons_self
      · exact .inl (ih earlier)

def FewKeys (platform : Platform) (normalizeIP : String → String) (log : List SignIn) : Prop :=
  (log.map (loginKey platform normalizeIP)).dedup.length ≤ LOGIN_FAIL_KEYS

theorem room_of_few {log attempts : List SignIn} {attempt : SignIn}
    (few : FewKeys platform normalizeIP attempts) (inside : ∀ a ∈ log, a ∈ attempts)
    (member : attempt ∈ attempts) (value : Failures) :
    (((afterSignIns platform normalizeIP config log).delete
      (loginKey platform normalizeIP attempt)).set
        (loginKey platform normalizeIP attempt) value).size ≤ LOGIN_FAIL_KEYS := by
  unfold FewKeys at few
  refine Nat.le_trans ?_ few
  have size : ∀ map : OrderedMap String Failures, map.size = map.keys.length := fun map =>
    (List.length_map Prod.fst).symm
  rw [size]
  refine List.Subperm.length_le (List.Nodup.subperm (OrderedMap.keys_nodup _) fun key inKeys => ?_)
  rw [List.mem_dedup]
  rcases (OrderedMap.mem_keys_set _ _ _ _).mp inKeys with rfl | kept
  · exact List.mem_map_of_mem member
  · obtain ⟨entry, inEntries, rfl⟩ := List.mem_map.mp kept
    have earlier := keys_afterSignIns (List.mem_map.mpr
      ⟨entry, ((OrderedMap.mem_entries_delete _ _ _).mp inEntries).1, rfl⟩)
    obtain ⟨a, inLog, same⟩ := List.mem_map.mp earlier
    exact List.mem_map.mpr ⟨a, inside a inLog, same⟩

theorem loginKey_eq_iff {left right : SignIn}
    (plain : ∀ text, '|' ∉ (platform.sha256 text).toList)
    (apart : platform.sha256 (accountOf platform left) = platform.sha256 (accountOf platform right) →
      accountOf platform left = accountOf platform right) :
    loginKey platform normalizeIP left = loginKey platform normalizeIP right ↔
      signsInAs platform normalizeIP left = signsInAs platform normalizeIP right := by
  have spelled : ∀ attempt, (loginKey platform normalizeIP attempt).toList =
      ("login|".toList ++ (normalizeIP attempt.ip).toList) ++
        '|' :: (platform.sha256 (accountOf platform attempt)).toList := by
    intro attempt
    simp [loginKey]
  constructor
  · intro same
    have letters := congrArg String.toList same
    rw [spelled, spelled] at letters
    obtain ⟨addresses, digests⟩ := append_mark_inj (plain _) (plain _) letters
    have address := String.toList_inj.mp (List.append_cancel_left addresses)
    exact Prod.ext address (apart (String.toList_inj.mp digests))
  · intro same
    have address : normalizeIP left.ip = normalizeIP right.ip := congrArg Prod.fst same
    have account : accountOf platform left = accountOf platform right := congrArg Prod.snd same
    rw [loginKey, loginKey, address, account]

/-! ## Runs -/

def lockMs (k : ℕ) : ℕ := min (60000 * 2 ^ (k - 10)) 300000

theorem lockMs_mono {k count : ℕ} (more : k ≤ count) : lockMs k ≤ lockMs count := by
  unfold lockMs
  have power : 2 ^ (k - 10) ≤ 2 ^ (count - 10) := Nat.pow_le_pow_right (by decide) (by omega)
  omega

theorem nextFailure_lock (prev : Option Failures) (now : ℕ) :
    (nextFailure prev now).last = now ∧
      (10 ≤ (nextFailure prev now).count →
        (nextFailure prev now).until' = now + lockMs (nextFailure prev now).count) := by
  refine ⟨rfl, fun enough => ?_⟩
  exact if_pos enough

theorem nextFailure_soon {prev : Failures} {now : ℕ} (soon : now < prev.last + 3600000) :
    (nextFailure (some prev) now).count = prev.count + 1 := by
  have inTime : now < prev.last + LOGIN_FAIL_TTL_MS := soon
  unfold nextFailure
  dsimp only
  rw [if_pos inTime]

theorem failuresAfter_refused {prev : Option Failures} {reply : SignInReply} {now : ℕ}
    (refused : reply.refused = true) : failuresAfter prev reply now = prev := by
  cases reply with
  | locked seconds => rfl
  | rateLimited seconds most => rfl
  | invalidCredentials => cases refused
  | issued issued => cases refused

/-- The sign-ins of a run and its next: no more keys than are remembered, and no two accounts of
them with one digest. -/
structure Ordinary (platform : Platform) (normalizeIP : String → String) (attempts : List SignIn) :
    Prop where
  few : FewKeys platform normalizeIP attempts
  plain : ∀ text, '|' ∉ (platform.sha256 text).toList
  apart : ∀ left ∈ attempts, ∀ right ∈ attempts,
    platform.sha256 (accountOf platform left) = platform.sha256 (accountOf platform right) →
      accountOf platform left = accountOf platform right

section Run

variable {attempts : List SignIn} (ordinary : Ordinary platform normalizeIP attempts)

include ordinary

theorem key_iff {left right : SignIn} (inLeft : left ∈ attempts) (inRight : right ∈ attempts) :
    loginKey platform normalizeIP left = loginKey platform normalizeIP right ↔
      signsInAs platform normalizeIP left = signsInAs platform normalizeIP right :=
  loginKey_eq_iff ordinary.plain (ordinary.apart left inLeft right inRight)

/-- The failures of a key after one more sign-in. -/
theorem get?_afterSignIns {log : List SignIn} {attempt : SignIn}
    (inside : ∀ a ∈ log ++ [attempt], a ∈ attempts) (key : String) :
    (afterSignIns platform normalizeIP config (log ++ [attempt])).get? key =
      if key = loginKey platform normalizeIP attempt then
        failuresAfter ((afterSignIns platform normalizeIP config log).get? key)
          (replyAfter platform normalizeIP config log attempt) attempt.checkedAt
      else (afterSignIns platform normalizeIP config log).get? key := by
  rw [afterSignIns_concat, get?_signIn]
  · rfl
  · exact room_of_few ordinary.few (fun a member => inside a (List.mem_append_left _ member))
      (inside attempt (List.mem_append_right _ List.mem_cons_self))

/-- What is remembered of failures in a row: at least as many, and the lock that many set. -/
theorem failures_of_row {who : String × String} {log : List SignIn} {k last : ℕ}
    (row : FailedInARow platform normalizeIP config who log k last) (inside : ∀ a ∈ log, a ∈ attempts)
    {next : SignIn} (inNext : next ∈ attempts) (own : signsInAs platform normalizeIP next = who) :
    ∃ found, (afterSignIns platform normalizeIP config log).get?
        (loginKey platform normalizeIP next) = some found ∧ k ≤ found.count ∧ found.last = last ∧
      (10 ≤ found.count → found.until' = last + lockMs found.count) := by
  induction row with
  | @first log attempt ownAttempt failed =>
      have member := inside attempt (List.mem_append_right _ List.mem_cons_self)
      have same := (key_iff ordinary inNext member).mpr (own.trans ownAttempt.symm)
      rw [get?_afterSignIns ordinary inside, if_pos same, failed]
      exact ⟨_, rfl, Nat.le_add_left _ _, nextFailure_lock _ _⟩
  | @next log attempt k last before ownAttempt failed soon ih =>
      have member := inside attempt (List.mem_append_right _ List.mem_cons_self)
      have same := (key_iff ordinary inNext member).mpr (own.trans ownAttempt.symm)
      obtain ⟨prev, found, atLeast, recent, -⟩ :=
        ih fun a inLog => inside a (List.mem_append_left _ inLog)
      rw [get?_afterSignIns ordinary inside, if_pos same, failed, found]
      refine ⟨_, rfl, ?_, nextFailure_lock _ _⟩
      rw [nextFailure_soon (by rw [recent]; exact soon)]
      exact Nat.succ_le_succ atLeast
  | @refused log attempt k last before refused ih =>
      rw [get?_afterSignIns ordinary inside, failuresAfter_refused refused, ite_self]
      exact ih fun a inLog => inside a (List.mem_append_left _ inLog)
  | @other log attempt k last before other ih =>
      have member := inside attempt (List.mem_append_right _ List.mem_cons_self)
      have different : loginKey platform normalizeIP next ≠ loginKey platform normalizeIP attempt :=
        fun same => other (((key_iff ordinary inNext member).mp same).symm.trans own)
      rw [get?_afterSignIns ordinary inside, if_neg different]
      exact ih fun a inLog => inside a (List.mem_append_left _ inLog)

/-- After enough failures in a row no password is checked until the lock has passed. -/
theorem locked_after_row {who : String × String} {log : List SignIn} {k last : ℕ}
    (row : FailedInARow platform normalizeIP config who log k last) (inside : ∀ a ∈ log, a ∈ attempts)
    {next : SignIn} (inNext : next ∈ attempts) (own : signsInAs platform normalizeIP next = who)
    (enough : 10 ≤ k) (early : next.now < last + lockMs k) :
    (replyAfter platform normalizeIP config log next).checked = false := by
  obtain ⟨found, remembered, atLeast, -, lock⟩ := failures_of_row ordinary row inside inNext own
  have ends := lock (Nat.le_trans enough atLeast)
  have longer := lockMs_mono atLeast
  have until' : found.until' > next.now := by omega
  have limited : loginLimit platform normalizeIP (afterSignIns platform normalizeIP config log) next =
      some (.locked ((found.until' - next.now + 999) / 1000)) := by
    unfold loginLimit
    rw [remembered]
    exact if_pos until'
  unfold replyAfter signIn
  rw [limited]
  rfl

/-- The failures of an account are those of its own sign-ins alone. -/
theorem get?_own {log : List SignIn} (inside : ∀ a ∈ log, a ∈ attempts) {next : SignIn}
    (inNext : next ∈ attempts) :
    (afterSignIns platform normalizeIP config log).get? (loginKey platform normalizeIP next) =
      (afterSignIns platform normalizeIP config (log.filter fun a =>
        signsInAs platform normalizeIP a = signsInAs platform normalizeIP next)).get?
          (loginKey platform normalizeIP next) := by
  induction log using List.reverseRecOn with
  | nil => rfl
  | append_singleton log attempt ih =>
      have member := inside attempt (List.mem_append_right _ List.mem_cons_self)
      have earlier := ih fun a inLog => inside a (List.mem_append_left _ inLog)
      rw [get?_afterSignIns ordinary inside, List.filter_append]
      by_cases own : signsInAs platform normalizeIP attempt = signsInAs platform normalizeIP next
      · have same := (key_iff ordinary inNext member).mpr own.symm
        have kept : [attempt].filter (fun a => signsInAs platform normalizeIP a =
            signsInAs platform normalizeIP next) = [attempt] := by simp [own]
        rw [kept, get?_afterSignIns ordinary, if_pos same, if_pos same, earlier]
        · have reply : replyAfter platform normalizeIP config log attempt =
              replyAfter platform normalizeIP config (log.filter fun a =>
                signsInAs platform normalizeIP a = signsInAs platform normalizeIP next) attempt := by
            refine signIn_reply_congr ?_
            rw [← same]
            exact earlier
          rw [reply]
        · intro a inFiltered
          refine inside a (List.mem_append.mpr ?_)
          rcases List.mem_append.mp inFiltered with filtered | last
          · exact .inl (List.mem_of_mem_filter filtered)
          · exact .inr last
      · have different : loginKey platform normalizeIP next ≠ loginKey platform normalizeIP attempt :=
          fun same => own ((key_iff ordinary inNext member).mp same).symm
        have dropped : [attempt].filter (fun a => signsInAs platform normalizeIP a =
            signsInAs platform normalizeIP next) = [] := by simp [own]
        rw [if_neg different, dropped, List.append_nil, earlier]

end Run

end Lock

/-- The sign-in lock, over every run of sign-ins that one another follow: how long failures in a
row lock; what a refusal, a success and a gap do to the count; and that nobody else's sign-ins
matter. -/
theorem sign_in_lock (platform : Platform) (normalizeIP : String → String) (config : AuthConfig)
    (log : List SignIn) (attempt : SignIn)
    (ordinary : Ordinary platform normalizeIP (log ++ [attempt])) :
    (∀ k last, FailedInARow platform normalizeIP config (signsInAs platform normalizeIP attempt)
        log k last → 10 ≤ k → attempt.now < last + min (60000 * 2 ^ (k - 10)) 300000 →
      (replyAfter platform normalizeIP config log attempt).checked = false) ∧
    ((replyAfter platform normalizeIP config log attempt).refused = true →
      afterSignIns platform normalizeIP config (log ++ [attempt]) =
        afterSignIns platform normalizeIP config log) ∧
    (∀ issued, replyAfter platform normalizeIP config log attempt = .issued issued →
      (afterSignIns platform normalizeIP config (log ++ [attempt])).get?
        (loginKey platform normalizeIP attempt) = none) ∧
    (replyAfter platform normalizeIP config log attempt = .invalidCredentials →
      (∀ prev, (afterSignIns platform normalizeIP config log).get?
        (loginKey platform normalizeIP attempt) = some prev →
          prev.last + 3600000 ≤ attempt.checkedAt) →
      (afterSignIns platform normalizeIP config (log ++ [attempt])).get?
        (loginKey platform normalizeIP attempt) = some ⟨1, attempt.checkedAt, 0⟩) ∧
    replyAfter platform normalizeIP config log attempt =
      replyAfter platform normalizeIP config (log.filter fun a =>
        signsInAs platform normalizeIP a = signsInAs platform normalizeIP attempt) attempt := by
  have inside : ∀ a ∈ log, a ∈ log ++ [attempt] := fun a member => List.mem_append_left _ member
  have last : attempt ∈ log ++ [attempt] := List.mem_append_right _ List.mem_cons_self
  have after := @get?_afterSignIns platform normalizeIP config _ ordinary log attempt
    (fun a member => member) (loginKey platform normalizeIP attempt)
  rw [if_pos rfl] at after
  refine ⟨fun k since row enough early => locked_after_row ordinary row inside last rfl enough early,
    fun refused => ?_, fun issued answered => ?_, fun failed apart => ?_,
    signIn_reply_congr (get?_own ordinary inside last)⟩
  · rw [afterSignIns_concat]
    exact signIn_of_refused refused
  · rw [after, answered]
    rfl
  · rw [after, failed, failuresAfter, nextFailure_late apart]

/-! Ana mistypes her password ten times, a second apart, and tries again after half a minute. -/

def digestPlatform : Platform :=
  { anaPlatform with
    sha256 := fun text =>
      if text = "ana" then "JNS5b1jabUqFEjE7vQKijr8MqV3sbkyG73jOfwHniKw"
      else String.ofList (text.toList.filter (· ≠ '|')) }

def mistyped (i : ℕ) : SignIn where
  username := some "Ana"
  password := some "secrte"
  ip := "172.18.0.1"
  now := 1000 * i
  limit := none
  checkedAt := 1000 * i + 80
  arrival := ⟨⟨.login (some "Ana") (some "secrte"), none, none, some "1", none, "portal"⟩, 1000 * i, "1"⟩

def mistypings (n : ℕ) : List SignIn := (List.range n).map mistyped

theorem mistypings_in_a_row {n : ℕ} (more : n < 10) :
    FailedInARow digestPlatform id anaConfig ("172.18.0.1", "ana") (mistypings (n + 1)) (n + 1)
      (1000 * n + 80) := by
  have wrong : ∀ n < 10, replyAfter digestPlatform id anaConfig (mistypings n) (mistyped n) =
      .invalidCredentials := by decide +kernel
  have grown : ∀ n, mistypings (n + 1) = mistypings n ++ [mistyped n] := fun n => by
    rw [mistypings, List.range_succ, List.map_append]
    rfl
  induction n with
  | zero =>
      rw [grown]
      exact .first (by decide +kernel) (wrong 0 more)
  | succ n ih =>
      rw [grown]
      refine .next (ih (by omega)) ?_ (wrong (n + 1) more) ?_
      · exact Prod.ext rfl (by decide +kernel : digestPlatform.lowerCase "Ana" = "ana")
      · change 1000 * (n + 1) + 80 < 1000 * n + 80 + 3600000
        omega

theorem sign_in_lock_mistyped :
    (replyAfter digestPlatform id anaConfig (mistypings 10) (mistyped 40)).checked = false := by
  have ordinary : Ordinary digestPlatform id (mistypings 10 ++ [mistyped 40]) := by
    refine ⟨by unfold FewKeys; decide +kernel, fun text marked => ?_, by decide +kernel⟩
    unfold digestPlatform at marked
    dsimp only at marked
    split at marked
    · exact absurd marked (by decide +kernel)
    · rw [String.toList_ofList] at marked
      exact absurd (List.mem_filter.mp marked).2 (by decide)
  have who : signsInAs digestPlatform id (mistyped 40) = ("172.18.0.1", "ana") := by
    decide +kernel
  have row := @mistypings_in_a_row 9 (by decide)
  rw [← who] at row
  exact (sign_in_lock digestPlatform id anaConfig (mistypings 10) (mistyped 40) ordinary).1 10 _ row
    (Nat.le_refl _) (by decide)

end ZabbixPortal.Security
