import Mathlib.Data.List.Induction
import ZabbixPortal.Foundation.Runs
import ZabbixPortal.Security.Auth

/-! Which role a session is served under: the one of an entry whose password verified the
sign-in its first token came from. -/

set_option autoImplicit false

namespace ZabbixPortal.Security

open Foundation

structure Exchange where
  arrival : Arrival
  reply : Reply
deriving DecidableEq, Repr

structure Portal where
  signedOut : SignedOut
  log : List Exchange

section Run

variable (platform : Platform) (config : AuthConfig)

def Portal.serve (portal : Portal) (arrival : Arrival) : Portal :=
  let handled := handle platform config portal.signedOut arrival
  { signedOut := handled.1, log := portal.log ++ [⟨arrival, handled.2⟩] }

def Portal.run (arrivals : List Arrival) : Portal :=
  arrivals.foldl (Portal.serve platform config) { signedOut := .empty, log := [] }

end Run

def Exchange.Issues (exchange : Exchange) (token : String) : Prop :=
  ∃ issued, exchange.reply = .issued issued ∧ issued.token = token

/-- The session of a token: the sign-in its first token came from. -/
inductive Descends (log : List Exchange) (signIn : Exchange) : String → Prop where
  | signIn {username password : Option String} {token : String} (member : signIn ∈ log)
      (route : signIn.arrival.request.endpoint = .login username password)
      (issues : signIn.Issues token) : Descends log signIn token
  | renewal {exchange : Exchange} {presented token : String} (member : exchange ∈ log)
      (route : exchange.arrival.request.endpoint = .refresh)
      (presents : presentedToken exchange.arrival.request = some presented)
      (issues : exchange.Issues token) (earlier : Descends log signIn presented) :
      Descends log signIn token

def VerifiedBy (platform : Platform) (config : AuthConfig) (signIn : Exchange)
    (entry : PortalUser) : Prop :=
  ∃ username password, signIn.arrival.request.endpoint = .login (some username) (some password) ∧
    entry ∈ config.users ∧ platform.lowerCase entry.name = platform.lowerCase username ∧
    platform.passwordMatches entry.pass password = true

/-- A token that verifies says what was signed into it. -/
def SaysWhatWasSigned (platform : Platform) : Prop :=
  ∀ claims now jti later others,
    platform.verify (platform.sign claims now jti) later = some others → others = claims

/-- Nobody forges a token: one that verifies was issued before. -/
def NoForgery (platform : Platform) (config : AuthConfig) (arrivals : List Arrival) : Prop :=
  ∀ before arrival after, arrivals = before ++ arrival :: after →
    ∀ token, presentedToken arrival.request = some token →
      (platform.verify token arrival.now).isSome →
      ∃ exchange ∈ (Portal.run platform config before).log, exchange.Issues token

section Replies

variable {platform : Platform} {config : AuthConfig} {list : SignedOut} {arrival : Arrival}

theorem findUser_verified {username password : String} {user : PortalUser}
    (found : findUser platform config username password = some user) :
    user ∈ config.users ∧ platform.lowerCase user.name = platform.lowerCase username ∧
      platform.passwordMatches user.pass password = true := by
  unfold findUser at found
  have fits : user ∈ (config.users.filter fun u =>
      platform.lowerCase u.name = platform.lowerCase username).filter fun u =>
        platform.passwordMatches u.pass password := by
    rcases Option.or_eq_some_iff.mp found with spelled | ⟨_, first⟩
    · exact List.mem_of_find?_eq_some spelled
    · exact List.mem_of_head? first
  obtain ⟨named, matched⟩ := List.mem_filter.mp fits
  obtain ⟨member, same⟩ := List.mem_filter.mp named
  exact ⟨member, of_decide_eq_true same, matched⟩

theorem currentUser_of_entry {claims : Claims} {entry user : PortalUser}
    (member : entry ∈ config.users) (sub : claims.sub = some entry.name)
    (role : claims.role = some entry.role) (current : currentUser config claims = some user) :
    user.name = entry.name ∧ user.role = entry.role := by
  have named : entry ∈ config.users.filter fun u => some u.name = claims.sub :=
    List.mem_filter.mpr ⟨member, decide_eq_true sub.symm⟩
  unfold currentUser at current
  split at current
  · next only single =>
      rw [single] at named
      cases Option.some.inj current
      cases List.mem_singleton.mp named
      exact ⟨rfl, rfl⟩
  · have sameRole := List.find?_some current
    have inNamed := List.mem_of_find?_eq_some current
    have sameName := (List.mem_filter.mp inNamed).2
    rw [sub] at sameName
    rw [role] at sameRole
    exact ⟨Option.some.inj (of_decide_eq_true sameName),
      Option.some.inj (of_decide_eq_true sameRole)⟩

inductive IssuedFor (platform : Platform) (config : AuthConfig) (arrival : Arrival)
    (issued : Issued) : Prop where
  | signIn (username password : String) (user : PortalUser)
      (route : arrival.request.endpoint = .login (some username) (some password))
      (found : findUser platform config username password = some user)
      (same : issued = issue platform config user arrival)
  | renewal (claims : Claims) (user : PortalUser)
      (route : arrival.request.endpoint = .refresh)
      (verified : jwtVerify platform arrival = some claims)
      (only : (config.users.filter fun u => some u.name = claims.sub) = [user])
      (same : issued = issue platform config user arrival)

theorem authenticate_some {session : Session}
    (authenticated : authenticate platform config list arrival = some session) :
    jwtVerify platform arrival = some session.claims ∧
      currentUser config session.claims = some session.user := by
  unfold authenticate at authenticated
  split at authenticated
  · cases authenticated
  · next claims verified =>
      split at authenticated
      · cases authenticated
      · split at authenticated
        · cases authenticated
        · obtain ⟨user, current, rfl⟩ := Option.map_eq_some_iff.mp authenticated
          exact ⟨verified, current⟩

theorem handle_issued {issued : Issued}
    (replied : (handle platform config list arrival).2 = .issued issued) :
    IssuedFor platform config arrival issued := by
  unfold handle at replied
  split at replied
  · cases replied
  · dsimp only at replied
    split at replied
    · next username password route =>
        dsimp only at replied
        split at replied
        · next user found =>
            cases replied
            exact .signIn username password user route found rfl
        · cases replied
    · cases replied
    · cases replied
    · cases replied
    · dsimp only at replied
      split at replied <;> cases replied
    · next route =>
        dsimp only at replied
        split at replied
        · next session authenticated =>
            unfold refresh at replied
            split at replied
            · next user only =>
                cases replied
                exact .renewal session.claims user route (authenticate_some authenticated).1 only rfl
            · cases replied
        · cases replied
    · dsimp only at replied
      split at replied
      · cases replied
      · split at replied <;> cases replied

/-- A request is served under the session its token authenticates. -/
theorem handle_session {session : Session}
    (replied : (handle platform config list arrival).2 = .session session) :
    authenticate platform config list arrival = some session := by
  unfold handle at replied
  split at replied
  · cases replied
  · dsimp only at replied
    split at replied
    · dsimp only at replied
      split at replied <;> cases replied
    · cases replied
    · cases replied
    · cases replied
    · dsimp only at replied
      split at replied
      · next found authenticated =>
          cases replied
          exact authenticated
      · cases replied
    · dsimp only at replied
      split at replied
      · unfold refresh at replied
        split at replied <;> cases replied
      · cases replied
    · dsimp only at replied
      split at replied
      · cases replied
      · next found authenticated =>
          split at replied
          · cases replied
            exact authenticated
          · cases replied

end Replies

section Sessions

variable {platform : Platform} {config : AuthConfig} {log : List Exchange} {signIn : Exchange}
  {token : String}

def Handled (platform : Platform) (config : AuthConfig) (log : List Exchange) : Prop :=
  ∀ exchange ∈ log, ∃ list, exchange.reply = (handle platform config list exchange.arrival).2

theorem run_concat (arrivals : List Arrival) (arrival : Arrival) :
    Portal.run platform config (arrivals ++ [arrival]) =
      (Portal.run platform config arrivals).serve platform config arrival := List.foldl_concat ..

theorem Handled.run (arrivals : List Arrival) :
    Handled platform config (Portal.run platform config arrivals).log := by
  induction arrivals using List.reverseRecOn with
  | nil => exact fun _ member => nomatch member
  | append_singleton arrivals arrival ih =>
      rw [run_concat]
      intro exchange member
      cases List.mem_append.mp member with
      | inl before => exact ih exchange before
      | inr added =>
          cases List.mem_singleton.mp added
          exact ⟨_, rfl⟩

theorem Descends.later {more : List Exchange} (descends : Descends log signIn token) :
    Descends (log ++ more) signIn token := by
  induction descends with
  | signIn member route issues => exact .signIn (List.mem_append_left _ member) route issues
  | renewal member route presents issues _ ih =>
      exact .renewal (List.mem_append_left _ member) route presents issues ih

/-- What a token says that descends from a sign-in: the name and role of an entry whose
password verified it. -/
structure Earned (platform : Platform) (config : AuthConfig) (signIn : Exchange) (token : String)
    (entry : PortalUser) : Prop where
  verified : VerifiedBy platform config signIn entry
  signed : ∃ claims now jti, token = platform.sign claims now jti ∧
    claims.sub = some entry.name ∧ claims.role = some entry.role

theorem Earned.claims {entry : PortalUser} (earned : Earned platform config signIn token entry)
    (signed : SaysWhatWasSigned platform) {now : ℕ} {claims : Claims}
    (verified : platform.verify token now = some claims) :
    claims.sub = some entry.name ∧ claims.role = some entry.role := by
  obtain ⟨own, signedAt, jti, rfl, sub, role⟩ := earned.signed
  rw [signed own signedAt jti now claims verified]
  exact ⟨sub, role⟩

theorem Earned.member {entry : PortalUser} (earned : Earned platform config signIn token entry) :
    entry ∈ config.users := by
  obtain ⟨_, _, _, member, _⟩ := earned.verified
  exact member

theorem earned_of_issue {user : PortalUser} {arrival : Arrival}
    (verified : VerifiedBy platform config signIn user) :
    Earned platform config signIn (issue platform config user arrival).token user :=
  ⟨verified, _, _, _, rfl, rfl, rfl⟩

/-- A session keeps the name and the role of an entry its sign-in verified. -/
theorem Descends.earned (signed : SaysWhatWasSigned platform)
    (handled : Handled platform config log) (descends : Descends log signIn token) :
    ∃ entry, Earned platform config signIn token entry := by
  induction descends with
  | signIn member route issues =>
      obtain ⟨list, replied⟩ := handled _ member
      obtain ⟨issued, isIssued, rfl⟩ := issues
      cases handle_issued (replied.symm.trans isIssued) with
      | signIn username password user typed found same =>
          obtain ⟨inUsers, named, fits⟩ := findUser_verified found
          exact ⟨user, same ▸ earned_of_issue ⟨username, password, typed, inUsers, named, fits⟩⟩
      | renewal claims user refreshes =>
          cases route.symm.trans refreshes
  | renewal member route presents issues _ ih =>
      obtain ⟨entry, earned⟩ := ih
      obtain ⟨list, replied⟩ := handled _ member
      obtain ⟨issued, isIssued, rfl⟩ := issues
      cases handle_issued (replied.symm.trans isIssued) with
      | signIn username password user typed =>
          cases route.symm.trans typed
      | renewal claims user refreshes verified only same =>
          unfold jwtVerify at verified
          rw [presents, Option.bind_some] at verified
          obtain ⟨sub, _⟩ := earned.claims signed verified
          have named : entry ∈ config.users.filter fun u => some u.name = claims.sub :=
            List.mem_filter.mpr ⟨earned.member, decide_eq_true sub.symm⟩
          rw [only] at named
          cases List.mem_singleton.mp named
          exact ⟨entry, same ▸ earned_of_issue earned.verified⟩

/-- Every token that was issued descends from a sign-in. -/
theorem issued_descends (arrivals : List Arrival) (unforged : NoForgery platform config arrivals) :
    ∀ exchange ∈ (Portal.run platform config arrivals).log, ∀ token, exchange.Issues token →
      ∃ signIn, Descends (Portal.run platform config arrivals).log signIn token := by
  induction arrivals using List.reverseRecOn with
  | nil => exact fun _ member => nomatch member
  | append_singleton arrivals arrival ih =>
      obtain ⟨earlier, own⟩ := forall_split_snoc.mp unforged
      intro exchange member token issues
      rw [run_concat] at member ⊢
      cases List.mem_append.mp member with
      | inl before =>
          obtain ⟨signIn, descends⟩ := ih earlier exchange before token issues
          exact ⟨signIn, descends.later⟩
      | inr added =>
          have last := List.mem_append_right (Portal.run platform config arrivals).log added
          cases List.mem_singleton.mp added
          obtain ⟨issued, isIssued, rfl⟩ := issues
          cases handle_issued isIssued with
          | signIn username password user route =>
              exact ⟨_, .signIn last route ⟨issued, isIssued, rfl⟩⟩
          | renewal claims user route verified =>
              obtain ⟨presented, presents, verified⟩ := Option.bind_eq_some_iff.mp verified
              obtain ⟨first, inLog, firstIssues⟩ := own presented presents
                (Option.isSome_of_eq_some verified)
              obtain ⟨signIn, descends⟩ := ih earlier first inLog presented firstIssues
              exact ⟨signIn, .renewal last route presents ⟨issued, isIssued, rfl⟩ descends.later⟩

/-- A token that verified when a request arrived descends from a sign-in. -/
theorem presented_descends {arrivals : List Arrival} (unforged : NoForgery platform config arrivals)
    {exchange : Exchange} (member : exchange ∈ (Portal.run platform config arrivals).log)
    (presents : presentedToken exchange.arrival.request = some token)
    (verified : (platform.verify token exchange.arrival.now).isSome) :
    ∃ signIn, Descends (Portal.run platform config arrivals).log signIn token := by
  induction arrivals using List.reverseRecOn with
  | nil => cases member
  | append_singleton arrivals arrival ih =>
      obtain ⟨earlier, own⟩ := forall_split_snoc.mp unforged
      rw [run_concat] at member ⊢
      cases List.mem_append.mp member with
      | inl before =>
          obtain ⟨signIn, descends⟩ := ih earlier before
          exact ⟨signIn, descends.later⟩
      | inr added =>
          cases List.mem_singleton.mp added
          obtain ⟨first, inLog, issues⟩ := own token presents verified
          obtain ⟨signIn, descends⟩ := issued_descends arrivals earlier first inLog token issues
          exact ⟨signIn, descends.later⟩

end Sessions

structure RolesEarned (platform : Platform) (config : AuthConfig) (log : List Exchange) : Prop where
  /-- A request is served under the name and role of an entry whose password verified the
  sign-in its session came from. -/
  served : ∀ exchange ∈ log, ∀ session, exchange.reply = .session session →
    ∃ token, presentedToken exchange.arrival.request = some token ∧
      (∃ signIn, Descends log signIn token) ∧
      ∀ signIn, Descends log signIn token → ∃ entry, VerifiedBy platform config signIn entry ∧
        session.user.name = entry.name ∧ session.user.role = entry.role
  /-- Renewing never raises the role. -/
  renewed : ∀ exchange ∈ log, ∀ issued, exchange.reply = .issued issued →
    exchange.arrival.request.endpoint = .refresh →
    ∃ claims role, jwtVerify platform exchange.arrival = some claims ∧ claims.role = some role ∧
      issued.role.rank ≤ role.rank
  /-- A name listed more than once is not renewed. -/
  unique : ∀ exchange ∈ log, ∀ issued, exchange.reply = .issued issued →
    exchange.arrival.request.endpoint = .refresh →
    (config.users.filter fun user => user.name = issued.user).length = 1

theorem sessions_keep_earned_roles (platform : Platform) (config : AuthConfig)
    (arrivals : List Arrival) (signed : SaysWhatWasSigned platform)
    (unforged : NoForgery platform config arrivals) :
    RolesEarned platform config (Portal.run platform config arrivals).log := by
  have handled : Handled platform config (Portal.run platform config arrivals).log := .run arrivals
  have renewal : ∀ exchange ∈ (Portal.run platform config arrivals).log, ∀ issued,
      exchange.reply = .issued issued → exchange.arrival.request.endpoint = .refresh →
      ∃ claims user, jwtVerify platform exchange.arrival = some claims ∧
        (config.users.filter fun u => some u.name = claims.sub) = [user] ∧
        issued = issue platform config user exchange.arrival := by
    intro exchange member issued isIssued route
    obtain ⟨list, replied⟩ := handled exchange member
    cases handle_issued (replied.symm.trans isIssued) with
    | signIn username password user typed => cases route.symm.trans typed
    | renewal claims user _ verified only same => exact ⟨claims, user, verified, only, same⟩
  refine ⟨fun exchange member session isSession => ?_, fun exchange member issued isIssued route => ?_,
    fun exchange member issued isIssued route => ?_⟩
  · obtain ⟨list, replied⟩ := handled exchange member
    have authenticated := handle_session (replied.symm.trans isSession)
    obtain ⟨verified, current⟩ := authenticate_some authenticated
    obtain ⟨token, presents, verified⟩ := Option.bind_eq_some_iff.mp verified
    refine ⟨token, presents,
      presented_descends unforged member presents (Option.isSome_of_eq_some verified),
      fun signIn descends => ?_⟩
    obtain ⟨entry, earned⟩ := descends.earned signed handled
    obtain ⟨sub, role⟩ := earned.claims signed verified
    exact ⟨entry, earned.verified, currentUser_of_entry earned.member sub role current⟩
  · obtain ⟨claims, user, verified, only, rfl⟩ := renewal exchange member issued isIssued route
    obtain ⟨token, presents, isVerified⟩ := Option.bind_eq_some_iff.mp verified
    obtain ⟨signIn, descends⟩ :=
      presented_descends unforged member presents (Option.isSome_of_eq_some isVerified)
    obtain ⟨entry, earned⟩ := descends.earned signed handled
    obtain ⟨sub, role⟩ := earned.claims signed isVerified
    refine ⟨claims, entry.role, verified, role, ?_⟩
    have named : entry ∈ config.users.filter fun u => some u.name = claims.sub :=
      List.mem_filter.mpr ⟨earned.member, decide_eq_true sub.symm⟩
    rw [only] at named
    cases List.mem_singleton.mp named
    exact Nat.le_refl _
  · obtain ⟨claims, user, verified, only, rfl⟩ := renewal exchange member issued isIssued route
    have found : user ∈ config.users.filter fun u => some u.name = claims.sub :=
      only ▸ List.mem_cons_self
    have sub : some user.name = claims.sub := of_decide_eq_true (List.mem_filter.mp found).2
    have same : (config.users.filter fun u => u.name = user.name) =
        config.users.filter fun u => some u.name = claims.sub := by
      refine List.filter_congr fun other _ => ?_
      rw [← sub]
      exact decide_eq_decide.mpr (Option.some_inj).symm
    exact congrArg List.length (same.trans only)

section TwoAnas

/-! The list holds `ana` and `Ana`. The viewer signs in, renews and looks at a page. -/

def firstClaims : Claims := ⟨some "ana", some .viewer, some 43200, some "1"⟩

def secondClaims : Claims := ⟨some "ana", some .viewer, some 44200, some "1"⟩

def twoTokens : Platform where
  verify token _ :=
    if token = "first" then some firstClaims
    else if token = "second" then some secondClaims
    else none
  sign claims _ _ :=
    if claims = firstClaims then "first" else if claims = secondClaims then "second" else "other"
  sha256 := id
  passwordMatches stored typed := stored = typed
  lowerCase name := String.ofList (name.toList.map Char.toLower)
  sameOrigin _ _ := true
  verify_empty _ := by decide
  verify_stable token now later claims others first second :=
    Option.some.inj (first.symm.trans second)

def twoAnas : AuthConfig := ⟨[⟨"ana", "secret", .viewer⟩, ⟨"Ana", "other", .admin⟩], "1", 12⟩

def anaSignsIn : Arrival :=
  ⟨⟨.login (some "ANA") (some "secret"), none, none, some "1", none, "portal"⟩, 0, "1"⟩

def anaRenews : Arrival := ⟨⟨.refresh, none, some "first", some "1", none, "portal"⟩, 1000000, "2"⟩

def anaVisits : Arrival :=
  ⟨⟨.guarded false .viewer, none, some "second", none, none, "portal"⟩, 2000000, "3"⟩

private theorem twoTokens_says_what_was_signed : SaysWhatWasSigned twoTokens := by
  intro claims now jti later others verified
  dsimp only [twoTokens] at verified
  by_cases first : claims = firstClaims
  · rw [if_pos first, if_pos rfl] at verified
    exact (Option.some.inj verified).symm.trans first.symm
  · rw [if_neg first] at verified
    by_cases second : claims = secondClaims
    · rw [if_pos second, if_neg (by decide), if_pos rfl] at verified
      exact (Option.some.inj verified).symm.trans second.symm
    · rw [if_neg second, if_neg (by decide), if_neg (by decide)] at verified
      cases verified

private theorem anas_unforged : NoForgery twoTokens twoAnas [anaSignsIn, anaRenews, anaVisits] := by
  have issuedFirst : ∃ exchange ∈ (Portal.run twoTokens twoAnas [anaSignsIn]).log,
      exchange.reply = .issued ⟨"first", "ana", .viewer⟩ := by decide +kernel
  have issuedSecond : ∃ exchange ∈ (Portal.run twoTokens twoAnas [anaSignsIn, anaRenews]).log,
      exchange.reply = .issued ⟨"second", "ana", .viewer⟩ := by decide +kernel
  change NoForgery twoTokens twoAnas ([] ++ [anaSignsIn] ++ [anaRenews] ++ [anaVisits])
  unfold NoForgery
  rw [forall_split_snoc, forall_split_snoc, forall_split_snoc]
  refine ⟨⟨⟨?_, ?_⟩, ?_⟩, ?_⟩
  · intro before arrival after split
    simp at split
  · intro token presents
    cases presents
  · intro token presents _
    cases presents
    obtain ⟨exchange, member, reply⟩ := issuedFirst
    exact ⟨exchange, member, _, reply, rfl⟩
  · intro token presents _
    cases presents
    obtain ⟨exchange, member, reply⟩ := issuedSecond
    exact ⟨exchange, member, _, reply, rfl⟩

theorem sessions_keep_earned_roles_ana :
    RolesEarned twoTokens twoAnas
      (Portal.run twoTokens twoAnas [anaSignsIn, anaRenews, anaVisits]).log :=
  sessions_keep_earned_roles twoTokens twoAnas [anaSignsIn, anaRenews, anaVisits]
    twoTokens_says_what_was_signed anas_unforged

end TwoAnas

end ZabbixPortal.Security
