import ZabbixPortal.Foundation.Runs
import ZabbixPortal.Security.Auth

/-! When a token that was signed out stays out: the token that is verified and the one
that is looked up are taken from a request by two rules. -/

set_option autoImplicit false

namespace ZabbixPortal.Security

open Foundation

section Spelling

/-- With the header spelled `Bearer <token>` both take the token. -/
theorem tokenOf_of_bearer {request : Request} {token : String}
    (header : request.authorization = some ("Bearer " ++ token))
    (solid : ∀ c ∈ token.toList, isSpace c = false) :
    tokenOf request = some token ∧ presentedToken request = some token := by
  have letters : ("Bearer " ++ token).toList = "Bearer".toList ++ ' ' :: token.toList := by simp
  have bearer : hasBearer request = true := by
    simp only [hasBearer, header, letters]
    rfl
  have unsplit : token.toList.splitOnP (· == ' ') = [token.toList] := by
    refine List.splitOnP_eq_singleton fun c member => ?_
    have notSpace := solid c member
    by_contra blank
    have isBlank : c = ' ' := by simpa using blank
    rw [isBlank] at notSpace
    exact absurd notSpace (by decide)
  have parts : ("Bearer".toList ++ ' ' :: token.toList).splitOn ' ' =
      ["Bearer".toList, token.toList] := by
    rw [List.splitOn_eq_splitOnP,
      List.splitOnP_append_cons_of_forall_mem (forall_mem_of_all (by decide)) ' ' (by decide), unsplit]
  constructor
  · have starts : "Bearer ".toList.isPrefixOf ("Bearer".toList ++ ' ' :: token.toList) = true :=
      List.isPrefixOf_iff_prefix.mpr ⟨token.toList, rfl⟩
    have rest : ("Bearer".toList ++ ' ' :: token.toList).drop 7 = token.toList := rfl
    simp only [tokenOf, header, letters, starts, ↓reduceIte, rest, trim_of_none solid,
      String.ofList_toList]
  · simp only [presentedToken, bearer, ↓reduceIte, header, Option.getD_some, letters, parts]
    simp

end Spelling

section List

variable {list : SignedOut} {key other : String} {exp otherExp now : ℕ}

theorem record_entries (list : SignedOut) (key : String) (exp now : ℕ) :
    (list.record key exp now).entries =
      if (list.recorded key exp now).size > LOGIN_FAIL_KEYS then
        (list.recorded key exp now).dropFirst
      else list.recorded key exp now := by
  unfold SignedOut.record
  split <;> rfl

/-- A token just signed out is on the list: it is either in an old place or the newest. -/
theorem record_get?_self : (list.record key exp now).entries.get? key = some exp := by
  have found : (list.recorded key exp now).get? key = some exp := OrderedMap.get?_set_self _ _ _
  rw [record_entries]
  split
  · next excess =>
      rw [OrderedMap.get?_dropFirst, found]
      intro oldest
      -- Only a new key makes the list longer, and a new key is last, not first.
      have filtered := OrderedMap.size_filter_le list.entries fun entry => !decide (entry.2 ≤ now)
      have bounded := list.bounded
      rw [SignedOut.recorded, OrderedMap.size_set] at excess
      split at excess
      · omega
      · next absent =>
          have shape : (list.recorded key exp now).entries =
              (list.entries.filter fun entry => !decide (entry.2 ≤ now)).entries ++
                [(key, exp)] := by
            rw [SignedOut.recorded, OrderedMap.entries_set_of_absent _ _ absent]
          rw [OrderedMap.keys, shape] at oldest
          cases remaining : (list.entries.filter fun entry => !decide (entry.2 ≤ now)).entries with
          | nil =>
              have empty : (list.entries.filter fun entry => !decide (entry.2 ≤ now)).size = 0 := by
                rw [OrderedMap.size, remaining]
                rfl
              have positive : LOGIN_FAIL_KEYS = 10000 := rfl
              omega
          | cons entry rest =>
              rw [remaining] at oldest
              have first : entry.1 = key := by simpa using oldest
              refine absent (List.mem_map.mpr ⟨entry, ?_, first⟩)
              rw [remaining]
              exact List.mem_cons_self
  · exact found

/-- An unexpired token stays on the list when another is signed out, unless it is the
oldest of a full list. -/
theorem record_get?_other (listed : list.entries.get? other = some otherExp)
    (unexpired : now < otherExp) (different : other ≠ key)
    (room : ¬ ((list.recorded key exp now).size > LOGIN_FAIL_KEYS ∧
      (list.recorded key exp now).keys.head? = some other)) :
    (list.record key exp now).entries.get? other = some otherExp := by
  have found : (list.recorded key exp now).get? other = some otherExp := by
    rw [SignedOut.recorded, OrderedMap.get?_set, if_neg different,
      OrderedMap.get?_eq_some_iff, OrderedMap.entries_filter, List.mem_filter]
    refine ⟨(OrderedMap.get?_eq_some_iff _ _ _).mp listed, ?_⟩
    simpa using unexpired
  rw [record_entries]
  split
  · next excess => rw [OrderedMap.get?_dropFirst _ _ fun oldest => room ⟨excess, oldest⟩, found]
  · exact found

end List

variable (platform : Platform) (config : AuthConfig)

def Step (before : SignedOut) (arrival : Arrival) (after : SignedOut) : Prop :=
  (handle platform config before arrival).1 = after

def recordedBy (list : SignedOut) (arrival : Arrival) : Option (OrderedMap String ℕ) :=
  match tokenOf arrival.request, (jwtVerify platform arrival).bind (·.exp) with
  | some token, some exp =>
      some (list.recorded (platform.sha256 token) exp (seconds arrival.now))
  | _, _ => none

/-- A request that does not spell the token so that the two rules read it apart, and
does not push it off the sign-out list. -/
structure Harmless (token : String) (list : SignedOut) (arrival : Arrival) : Prop where
  spelled : presentedToken arrival.request = some token ↔ tokenOf arrival.request = some token
  distinct : ∀ other, tokenOf arrival.request = some other → other ≠ token →
    platform.sha256 other ≠ platform.sha256 token
  room : arrival.request.endpoint = .logout → ∀ recorded,
    recordedBy platform list arrival = some recorded →
      ¬ (recorded.size > LOGIN_FAIL_KEYS ∧ recorded.keys.head? = some (platform.sha256 token))

structure SignsOut (token : String) (exp : ℕ) (list : SignedOut) (arrival : Arrival) : Prop where
  route : arrival.request.endpoint = .logout
  answered : (handle platform config list arrival).2 = .signedOut
  presented : presentedToken arrival.request = some token
  verified : ∃ claims, platform.verify token arrival.now = some claims ∧ claims.exp = some exp

section Steps

variable {platform config} {token : String} {exp : ℕ} {list after : SignedOut} {arrival : Arrival}

theorem not_csrf_of_answered (signsOut : SignsOut platform config token exp list arrival) :
    csrfRefusal platform arrival.request = none := by
  have answered := signsOut.answered
  unfold handle at answered
  split at answered
  · cases answered
  · next passed => exact passed

/-- Every request but an accepted sign-out leaves the list alone. -/
theorem handle_list (list : SignedOut) (arrival : Arrival) :
    (handle platform config list arrival).1 =
      if csrfRefusal platform arrival.request = none ∧ arrival.request.endpoint = .logout then
        logout platform list arrival
      else list := by
  unfold handle
  cases refused : csrfRefusal platform arrival.request with
  | some refusal => simp
  | none =>
      cases endpoint : arrival.request.endpoint with
      | login username password => cases username <;> cases password <;> simp
      | logout => simp
      | _ => simp

/-- After the sign-out the token is on the list. -/
theorem signsOut_lists (signsOut : SignsOut platform config token exp list arrival)
    (harmless : Harmless platform token list arrival) (expires : exp ≠ 0)
    (stepped : Step platform config list arrival after) :
    after.entries.get? (platform.sha256 token) = some exp := by
  obtain ⟨claims, verified, hasExp⟩ := signsOut.verified
  have looked := harmless.spelled.mp signsOut.presented
  have nonempty : token ≠ "" := by
    rintro rfl
    rw [platform.verify_empty] at verified
    cases verified
  have claimed : (jwtVerify platform arrival).bind (·.exp) = some exp := by
    simp [jwtVerify, signsOut.presented, verified, hasExp]
  unfold Step at stepped
  rw [handle_list, if_pos ⟨not_csrf_of_answered signsOut, signsOut.route⟩] at stepped
  rw [← stepped]
  simp only [logout, looked, nonempty, claimed, expires, ↓reduceIte]
  exact record_get?_self

/-- A harmless request before the expiry keeps the token on the list. -/
theorem harmless_keeps
    (signed : ∀ now claims, platform.verify token now = some claims → claims.exp = some exp)
    (harmless : Harmless platform token list arrival) (unexpired : seconds arrival.now < exp)
    (stepped : Step platform config list arrival after)
    (listed : list.entries.get? (platform.sha256 token) = some exp) :
    after.entries.get? (platform.sha256 token) = some exp := by
  unfold Step at stepped
  rw [handle_list] at stepped
  split at stepped
  · next out =>
      rw [← stepped]
      unfold logout
      split
      · exact listed
      · next found looked =>
          split
          · exact listed
          · split
            · exact listed
            · next foundExp claimed =>
                split
                · exact listed
                · by_cases same : found = token
                  · -- Signing the token out again records the same expiry.
                    subst same
                    have presented := harmless.spelled.mpr looked
                    obtain ⟨claims, verified, hasExp⟩ := Option.bind_eq_some_iff.mp claimed
                    have sameExp : claims.exp = some exp := by
                      refine signed arrival.now claims ?_
                      simpa [jwtVerify, presented] using verified
                    rw [hasExp] at sameExp
                    rw [Option.some.inj sameExp]
                    exact record_get?_self
                  · have different := harmless.distinct found looked same
                    refine record_get?_other listed unexpired different.symm ?_
                    refine harmless.room out.2 _ ?_
                    rw [recordedBy, looked, claimed]
  · rw [← stepped]
    exact listed

/-- A listed token does not authenticate in a spelling both rules read alike. -/
theorem authenticate_of_listed (harmless : Harmless platform token list arrival)
    (presents : presentedToken arrival.request = some token)
    (listed : list.entries.get? (platform.sha256 token) = some exp) :
    authenticate platform config list arrival = none := by
  have looked := harmless.spelled.mp presents
  unfold authenticate
  split
  · rfl
  · next claims verified =>
      split
      · rfl
      · have nonempty : token ≠ "" := by
          rintro rfl
          simp [jwtVerify, presents, platform.verify_empty] at verified
        have found : isSignedOut platform list arrival.request = true := by
          simp [isSignedOut, looked, nonempty, OrderedMap.contains, listed]
        rw [if_pos found]

end Steps

def HarmlessStep (token : String) (before : SignedOut) (arrival : Arrival) (after : SignedOut) :
    Prop :=
  Step platform config before arrival after ∧ Harmless platform token before arrival

/-- In every run of harmless requests, whatever signs in, renews and signs out: once a
sign-out has answered for a token, no later request that presents it before it expires
authenticates. -/
theorem signed_out_stays_out (token : String) (exp : ℕ) (list after current : SignedOut)
    (out later : Arrival) (between : List Arrival)
    (signsOut : SignsOut platform config token exp list out)
    (answered : HarmlessStep platform config token list out after)
    (run : Run (HarmlessStep platform config token) after between current)
    (inOrder : ∀ arrival ∈ between, arrival.now ≤ later.now)
    (harmless : Harmless platform token current later)
    (presents : presentedToken later.request = some token)
    (unexpired : seconds later.now < exp) :
    authenticate platform config current later = none := by
  obtain ⟨claims, verified, hasExp⟩ := signsOut.verified
  have signed : ∀ now others, platform.verify token now = some others →
      others.exp = some exp := by
    intro now others verifiedAgain
    rw [← platform.verify_stable token out.now now claims others verified verifiedAgain]
    exact hasExp
  have listed := signsOut_lists signsOut answered.2 (by omega) answered.1
  have kept := run.invariant_of_labels
    (fun list => list.entries.get? (platform.sha256 token) = some exp)
    (fun arrival => arrival.now ≤ later.now)
    (fun _ arrival _ before early step => by
      have sooner : seconds arrival.now ≤ seconds later.now := Nat.div_le_div_right early
      exact harmless_keeps signed step.2 (by omega) step.1 before)
    inOrder listed
  exact authenticate_of_listed harmless presents kept

section LowerCaseHeader

/-! Ana signs out and then sends her token under `bearer`. -/

def anaClaims : Claims := ⟨some "ana", some .viewer, some 43200, some "1"⟩

def anaPlatform : Platform where
  verify token now := if token = "ana-token" ∧ now ≤ 43200000 then some anaClaims else none
  sign _ _ _ := "ana-token"
  sha256 := id
  passwordMatches stored typed := stored = typed
  lowerCase name := String.ofList (name.toList.map Char.toLower)
  sameOrigin _ _ := true
  verify_empty _ := by simp
  verify_stable token now later claims others first second := by
    split at first
    · split at second
      · cases first
        cases second
        rfl
      · cases second
    · cases first

def anaConfig : AuthConfig := ⟨[⟨"ana", "secret", .viewer⟩], "1", 12⟩

def anaSignOut : Arrival :=
  ⟨⟨.logout, some "Bearer ana-token", none, some "1", none, "portal"⟩, 1000, "1"⟩

def anaReturns (header : String) : Arrival :=
  ⟨⟨.guarded false .viewer, some header, none, none, none, "portal"⟩, 2000, "2"⟩

def anaSignedOut : SignedOut := (handle anaPlatform anaConfig .empty anaSignOut).1

private theorem ana_signs_out :
    SignsOut anaPlatform anaConfig "ana-token" 43200 .empty anaSignOut where
  route := rfl
  answered := by decide +kernel
  presented := by decide +kernel
  verified := ⟨anaClaims, by decide, rfl⟩

/-- The token under `bearer` is verified and not looked up. -/
theorem lower_case_header_passes :
    SignsOut anaPlatform anaConfig "ana-token" 43200 .empty anaSignOut ∧
      presentedToken (anaReturns "bearer ana-token").request = some "ana-token" ∧
      tokenOf (anaReturns "bearer ana-token").request = none ∧
      seconds (anaReturns "bearer ana-token").now < 43200 ∧
      authenticate anaPlatform anaConfig anaSignedOut (anaReturns "bearer ana-token") =
        some ⟨anaClaims, ⟨"ana", "secret", .viewer⟩⟩ :=
  ⟨ana_signs_out, by decide +kernel, by decide +kernel, by decide, by decide +kernel⟩

private theorem harmless_of_bearer {list : SignedOut} {arrival : Arrival}
    (header : arrival.request.authorization = some ("Bearer " ++ "ana-token"))
    (few : ∀ recorded, recordedBy anaPlatform list arrival = some recorded →
      recorded.size ≤ LOGIN_FAIL_KEYS) : Harmless anaPlatform "ana-token" list arrival where
  spelled := by
    have both := tokenOf_of_bearer header (forall_mem_of_all (by decide))
    rw [both.1, both.2]
  distinct other looked different same := by
    exact different same
  room _ recorded made excess := by
    have small := few recorded made
    omega

/-- Under `Bearer` it stays out. -/
theorem signed_out_stays_out_ana :
    authenticate anaPlatform anaConfig anaSignedOut (anaReturns "Bearer ana-token") = none :=
  signed_out_stays_out anaPlatform anaConfig "ana-token" 43200 .empty anaSignedOut anaSignedOut
    anaSignOut (anaReturns "Bearer ana-token") [] ana_signs_out
    ⟨rfl, harmless_of_bearer (by decide) (by
      intro recorded made
      have bound : recorded.size ≤ 1 := by
        have shape : recordedBy anaPlatform .empty anaSignOut =
            some ((OrderedMap.empty).set "ana-token" 43200) := by decide +kernel
        rw [shape] at made
        cases made
        decide
      have positive : LOGIN_FAIL_KEYS = 10000 := rfl
      omega)⟩
    (.nil _) (by simp)
    (harmless_of_bearer (by decide) (by
      intro recorded made
      have bound : recorded.size ≤ 1 := by
        have shape : recordedBy anaPlatform anaSignedOut (anaReturns "Bearer ana-token") =
            some ((OrderedMap.empty).set "ana-token" 43200) := by decide +kernel
        rw [shape] at made
        cases made
        decide
      have positive : LOGIN_FAIL_KEYS = 10000 := rfl
      omega))
    (by decide +kernel) (by decide)

end LowerCaseHeader

end ZabbixPortal.Security
