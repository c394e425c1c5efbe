import ZabbixPortal.Security.Roles
import ZabbixPortal.Security.Tabs

/-! Sign-out across tabs. Once a sign-out was answered, the cookie is gone, or some
answer is still to come that will clear it, as long as no tab lets its last renewal go
without having heard of the sign-out. -/

set_option autoImplicit false

namespace ZabbixPortal.Security

variable {τ : Type}

section Calls

theorem mem_of_callWith {calls : List (Call τ)} {id : ℕ} {call : Call τ}
    (found : callWith calls id = some call) : call ∈ calls ∧ call.id = id :=
  ⟨List.mem_of_find?_eq_some found, by simpa using List.find?_some found⟩

theorem mem_advance {calls : List (Call τ)} {id : ℕ} {progress : Progress} {call : Call τ}
    (member : call ∈ advance calls id progress) :
    call ∈ calls ∨ (∃ before ∈ calls, before.id = id) ∧ call.id = id ∧
      call.progress = progress := by
  obtain ⟨before, inside, made⟩ := List.mem_map.mp member
  split at made
  · next same =>
      cases made
      exact .inr ⟨⟨before, inside, same⟩, same, rfl⟩
  · cases made
    exact .inl inside

@[simp] theorem map_id_advance (calls : List (Call τ)) (id : ℕ) (progress : Progress) :
    (advance calls id progress).map (·.id) = calls.map (·.id) := by
  rw [advance, List.map_map]
  refine List.map_congr_left fun call _ => ?_
  by_cases same : call.id = id <;> simp [same]

@[simp] theorem advance_eq_nil_iff (calls : List (Call τ)) (id : ℕ) (progress : Progress) :
    advance calls id progress = [] ↔ calls = [] := by
  simp [advance]

def Awaited (calls : List (Call τ)) : Prop := ∃ call ∈ calls, call.progress.isLanded = false

instance (calls : List (Call τ)) : Decidable (Awaited calls) :=
  inferInstanceAs (Decidable (∃ call ∈ calls, call.progress.isLanded = false))

theorem awaited_sent (calls : List (Call τ)) (id : ℕ) (tab : τ) (cookie : Option String)
    (resolves : Bool) : Awaited (calls ++ [⟨id, tab, .sent cookie, resolves⟩]) :=
  ⟨_, List.mem_append_right _ (List.mem_singleton_self _), rfl⟩

theorem Awaited.advance {calls : List (Call τ)} {id : ℕ} {progress : Progress}
    (open' : progress.isLanded = false) (awaited : Awaited calls) :
    Awaited (advance calls id progress) := by
  obtain ⟨call, member, waits⟩ := awaited
  by_cases same : call.id = id
  · refine ⟨{ call with progress }, List.mem_map.mpr ⟨call, member, by rw [if_pos same]⟩, open'⟩
  · exact ⟨call, List.mem_map.mpr ⟨call, member, by rw [if_neg same]⟩, waits⟩

end Calls

/-- The portal answers every sign-out request of the session module with a sign-out. -/
theorem handle_logout_reply (platform : Platform) (config : AuthConfig) (list : SignedOut)
    (host : String) (cookie : Option String) (now : ℕ) (jti : String) :
    (handle platform config list (sessionRequest host .logout cookie now jti)).2 = .signedOut := by
  have allowed : csrfRefusal platform (sessionRequest host .logout cookie now jti).request =
      none := by
    simp [csrfRefusal, sessionRequest, Endpoint.isUnsafe, Endpoint.isCookieRoute]
  unfold handle
  rw [allowed]
  rfl

/-- Sign-outs are told apart and answered as such, and one that landed or resolved has
cleared the cookie. -/
structure Tidy (browser : Browser τ) : Prop where
  distinct : (browser.signOuts.map (·.id)).Nodup
  known : ∀ call ∈ browser.signOuts, call.id < browser.nextId
  replies : ∀ call ∈ browser.signOuts, ∀ reply,
    call.progress = .answered reply ∨ call.progress = .landed reply → reply = .signedOut
  landed : ∀ call ∈ browser.signOuts, call.progress.isLanded = true → browser.cleared = true
  resolved : browser.resolved = true → browser.cleared = true

/-- Once a sign-out was answered there is no cookie, or something that may clear it is on
its way. -/
structure SignOutKept (browser : Browser τ) : Prop extends Tidy browser where
  gone : browser.cleared = true →
    browser.jar = none ∨ Awaited browser.signOuts ∨ browser.renewals ≠ []

theorem Tidy.of_tabs {browser : Browser τ} (kept : Tidy browser) (tabs : τ → Tab) :
    Tidy { browser with tabs } :=
  ⟨kept.distinct, kept.known, kept.replies, kept.landed, kept.resolved⟩

namespace SignOutKept

theorem start (server : SignedOut) (jar : Option String) (signedOut : τ → Bool)
    (users : τ → Option (String × Role)) :
    SignOutKept (Browser.start server jar signedOut users) := by
  refine ⟨?_, ?_⟩
  · constructor <;> simp [Browser.start]
  · simp [Browser.start]

variable {browser : Browser τ}

/-- Neither tabs nor messages count. -/
theorem of_tabs (kept : SignOutKept browser) (tabs : τ → Tab) :
    SignOutKept { browser with tabs } :=
  ⟨kept.toTidy.of_tabs tabs, kept.gone⟩

theorem postLogout (kept : Tidy browser) (tab : τ) (resolves : Bool) :
    SignOutKept (browser.postLogout tab resolves) where
  distinct := by
    rw [Browser.postLogout, List.map_append, List.nodup_append]
    refine ⟨kept.distinct, List.nodup_singleton _, ?_⟩
    intro id member added inside
    obtain ⟨call, listed, rfl⟩ := List.mem_map.mp member
    have last : added = browser.nextId := by simpa using inside
    exact last ▸ Nat.ne_of_lt (kept.known call listed)
  known := by
    intro call member
    rcases List.mem_append.mp member with earlier | added
    · exact Nat.lt_succ_of_lt (kept.known call earlier)
    · cases List.mem_singleton.mp added
      exact Nat.lt_succ_self _
  replies := by
    intro call member reply shown
    rcases List.mem_append.mp member with earlier | added
    · exact kept.replies call earlier reply shown
    · cases List.mem_singleton.mp added
      rcases shown with shown | shown <;> cases shown
  landed := by
    intro call member landed
    rcases List.mem_append.mp member with earlier | added
    · exact kept.landed call earlier landed
    · cases List.mem_singleton.mp added
      cases landed
  resolved := kept.resolved
  gone := fun _ => .inr (.inl (awaited_sent _ _ _ _ _))

/-- The sign-out requests go one stage on, and the cookie with them. -/
theorem advance (kept : SignOutKept browser) {id : ℕ} {progress : Progress} {server : SignedOut}
    {jar : Option String} {cleared : Bool}
    (reply : ∀ reply, progress = .answered reply ∨ progress = .landed reply → reply = .signedOut)
    (stays : browser.cleared = true → cleared = true)
    (landed : progress.isLanded = true → cleared = true)
    (gone : cleared = true →
      jar = none ∨ Awaited (advance browser.signOuts id progress) ∨ browser.renewals ≠ []) :
    SignOutKept { browser with
      server, jar, cleared, signOuts := Security.advance browser.signOuts id progress } where
  distinct := by
    rw [map_id_advance]
    exact kept.distinct
  known := by
    intro call member
    rcases mem_advance member with earlier | ⟨⟨before, inside, same⟩, own, _⟩
    · exact kept.known call earlier
    · rw [own, ← same]
      exact kept.known before inside
  replies := by
    intro call member other shown
    rcases mem_advance member with earlier | ⟨_, _, now⟩
    · exact kept.replies call earlier other shown
    · exact reply other (now ▸ shown)
  landed := by
    intro call member isLanded
    rcases mem_advance member with earlier | ⟨_, _, now⟩
    · exact stays (kept.landed call earlier isLanded)
    · exact landed (now ▸ isLanded)
  resolved := fun resolved => stays (kept.resolved resolved)
  gone := gone

theorem landLogout (kept : SignOutKept browser) (id : ℕ) :
    SignOutKept (browser.landLogout id) := by
  unfold Browser.landLogout
  split
  · next tab reply resolves found =>
      obtain rfl : reply = .signedOut :=
        kept.replies _ (mem_of_callWith found).1 reply (.inl rfl)
      refine kept.advance ?_ (fun _ => rfl) (fun _ => rfl) fun _ => .inl rfl
      intro reply shown
      rcases shown with shown | shown
      · cases shown
      · cases shown
        rfl
  · exact kept

theorem serveLogout (kept : SignOutKept browser) (platform : Platform) (config : AuthConfig)
    (host : String) (id now : ℕ) (jti : String) :
    SignOutKept (browser.serveLogout platform config host id now jti) := by
  unfold Browser.serveLogout
  split
  · next cookie _ found =>
      refine kept.advance ?_ (fun cleared => cleared) ?_ ?_
      · intro reply shown
        rcases shown with shown | shown
        · cases shown
          exact handle_logout_reply _ _ _ _ _ _ _
        · cases shown
      · intro landed
        cases landed
      · intro cleared
        rcases kept.gone cleared with absent | awaited | more
        · exact .inl absent
        · exact .inr (.inl (awaited.advance rfl))
        · exact .inr (.inr more)
  · exact kept

theorem settleLogout (kept : SignOutKept browser) (id : ℕ) :
    SignOutKept (browser.settleLogout id) := by
  unfold Browser.settleLogout
  split
  · next tab reply resolves found =>
      obtain ⟨member, own⟩ := mem_of_callWith found
      have cleared : browser.cleared = true := kept.landed _ member rfl
      refine ⟨⟨kept.distinct.sublist (List.filter_sublist.map _),
        fun call inside => kept.known call (List.mem_filter.mp inside).1,
        fun call inside => kept.replies call (List.mem_filter.mp inside).1,
        fun _ _ _ => cleared, fun _ => cleared⟩, fun _ => ?_⟩
      rcases kept.gone cleared with absent | ⟨call, listed, waits⟩ | more
      · exact .inl absent
      · -- The one that settles has landed, so it is another one that is awaited.
        have other : call.id ≠ id := by
          intro same
          have equal := List.inj_on_of_nodup_map kept.distinct listed member (same.trans own.symm)
          rw [equal] at waits
          cases waits
        exact .inr (.inl ⟨call, List.mem_filter.mpr ⟨listed, by simpa using other⟩, waits⟩)
      · exact .inr (.inr more)
  · exact kept

/-- A renewal goes one stage on. -/
theorem advanceRenewal (kept : SignOutKept browser) {id : ℕ} {call : Call τ}
    (found : callWith browser.renewals id = some call) (progress : Progress) (server : SignedOut)
    (jar : Option String) :
    SignOutKept { browser with
      server, jar, renewals := Security.advance browser.renewals id progress } := by
  have nonempty : Security.advance browser.renewals id progress ≠ [] := by
    rw [ne_eq, advance_eq_nil_iff]
    exact List.ne_nil_of_mem (mem_of_callWith found).1
  exact ⟨⟨kept.distinct, kept.known, kept.replies, kept.landed, kept.resolved⟩,
    fun _ => .inr (.inr nonempty)⟩

theorem landRenewal (kept : SignOutKept browser) (id : ℕ) :
    SignOutKept (browser.landRenewal id) := by
  unfold Browser.landRenewal
  split
  · next found => exact kept.advanceRenewal found _ _ _
  · exact kept

theorem serveRenewal (kept : SignOutKept browser) (platform : Platform) (config : AuthConfig)
    (host : String) (id now : ℕ) (jti : String) :
    SignOutKept (browser.serveRenewal platform config host id now jti) := by
  unfold Browser.serveRenewal
  split
  · next found => exact kept.advanceRenewal found _ _ _
  · exact kept

/-- Whatever sends a sign-out mends the rest. -/
theorem foldl {items : List ℕ} {act : Browser τ → Browser τ}
    (acts : ∀ browser, Tidy browser → SignOutKept (act browser)) (tidy : Tidy browser)
    (kept : items = [] → SignOutKept browser) :
    SignOutKept (items.foldl (fun browser _ => act browser) browser) := by
  induction items generalizing browser with
  | nil => exact kept rfl
  | cons item rest ih => exact ih (acts browser tidy).toTidy fun _ => acts browser tidy

section Tabs

variable [DecidableEq τ]

theorem finishLogout (kept : Tidy browser) (tab : τ) :
    SignOutKept (browser.finishLogout tab) :=
  postLogout (kept.of_tabs _) tab true

theorem renewSession (kept : SignOutKept browser) (tab : τ) :
    SignOutKept (browser.renewSession tab) := by
  unfold Browser.renewSession
  dsimp only
  split
  · exact kept.of_tabs _
  · exact ⟨⟨kept.distinct, fun call member => Nat.lt_succ_of_lt (kept.known call member),
      kept.replies, kept.landed, kept.resolved⟩, fun _ => .inr (.inr (by simp))⟩

theorem logout (kept : SignOutKept browser) (tab : τ) :
    SignOutKept (browser.logout tab) := by
  unfold Browser.logout
  dsimp only
  split
  · exact kept.of_tabs _
  · exact finishLogout (kept.toTidy.of_tabs _) tab

theorem deliver (kept : SignOutKept browser) (tab : τ) :
    SignOutKept (browser.deliver tab) := by
  unfold Browser.deliver
  dsimp only
  split
  · exact kept
  · exact kept.of_tabs _

end Tabs

end SignOutKept

variable [DecidableEq τ]

/-- The answer of a renewal after a sign-out's, with a cookie in the jar and nothing else
on its way, finds a tab that waits for it: the tab has heard of the sign-out while the
renewal was out, or is about to sign out itself. -/
def Heard (browser : Browser τ) : TabEvent τ → Prop
  | .settleRenewal id =>
      ∀ call ∈ callWith browser.renewals id, call.progress.isLanded = true →
        browser.cleared = true → browser.jar ≠ none →
        (∀ other ∈ browser.renewals, other.id = id) → ¬ Awaited browser.signOuts →
        id ∈ (browser.tabs call.tab).cleanups ∨ id ∈ (browser.tabs call.tab).waiting
  | _ => True

instance (browser : Browser τ) : (event : TabEvent τ) → Decidable (Heard browser event)
  | .settleRenewal id => inferInstanceAs (Decidable (∀ call ∈ callWith browser.renewals id, _))
  | .renew _ | .logout _ | .deliver _ | .serveRenewal _ _ _ | .serveLogout _ _ _
  | .landRenewal _ | .landLogout _ | .settleLogout _ => isTrue trivial

theorem SignOutKept.settleRenewal {browser : Browser τ} (kept : SignOutKept browser) (id : ℕ)
    (heard : Heard browser (.settleRenewal id)) : SignOutKept (browser.settleRenewal id) := by
  unfold Browser.settleRenewal
  split
  · next number tab reply resolves found =>
      dsimp only
      generalize ({ (browser.tabs tab).afterRenewal reply with
        renewing := if (browser.tabs tab).renewing = some id then none
          else (browser.tabs tab).renewing
        cleanups := (browser.tabs tab).cleanups.filter fun renewal => renewal ≠ id
        waiting := (browser.tabs tab).waiting.filter fun renewal => renewal ≠ id } : Tab) = after
      have tidy : Tidy { browser.setTab tab after with
          renewals := browser.renewals.filter fun call => call.id ≠ id } :=
        ⟨kept.distinct, kept.known, kept.replies, kept.landed, kept.resolved⟩
      -- Unless a clean-up or a sign-out waits for it, the others still keep the promise.
      have quiet : (browser.tabs tab).cleanups.filter (fun renewal => renewal = id) = [] →
          (browser.tabs tab).waiting.filter (fun renewal => renewal = id) = [] →
          SignOutKept { browser.setTab tab after with
            renewals := browser.renewals.filter fun call => call.id ≠ id } := by
        intro noCleanup noWaiting
        refine ⟨tidy, fun cleared => ?_⟩
        change browser.jar = none ∨ Awaited browser.signOuts ∨
          browser.renewals.filter (fun call => call.id ≠ id) ≠ []
        by_contra lost
        simp only [not_or, ne_eq, not_not] at lost
        obtain ⟨cookie, answered, alone⟩ := lost
        have only : ∀ other ∈ browser.renewals, other.id = id := by
          intro other member
          by_contra different
          have inside : other ∈ browser.renewals.filter fun call => call.id ≠ id :=
            List.mem_filter.mpr ⟨member, by simpa using different⟩
          rw [alone] at inside
          cases inside
        rcases heard _ found rfl cleared cookie only answered with waits | waits
        · exact List.filter_eq_nil_iff.mp noCleanup id waits (decide_eq_true rfl)
        · exact List.filter_eq_nil_iff.mp noWaiting id waits (decide_eq_true rfl)
      generalize ({ browser.setTab tab after with
        renewals := browser.renewals.filter fun call => call.id ≠ id } : Browser τ) = settled
        at tidy quiet ⊢
      have posts : ∀ browser : Browser τ, Tidy browser →
          SignOutKept (browser.postLogout tab false) := fun _ tidy => postLogout tidy tab false
      have finishes : ∀ browser : Browser τ, Tidy browser →
          SignOutKept (browser.finishLogout tab) := fun _ tidy => finishLogout tidy tab
      have toldTidy : Tidy (if (browser.tabs tab).seesChange reply then
          settled.announce tab .changed else settled) := by
        split
        · exact tidy.of_tabs _
        · exact tidy
      by_cases noCleanup : (browser.tabs tab).cleanups.filter (fun renewal => renewal = id) = []
      · rw [noCleanup]
        refine foldl finishes toldTidy fun noWaiting => ?_
        split
        · exact (quiet noCleanup noWaiting).of_tabs _
        · exact quiet noCleanup noWaiting
      · have cleaned := foldl posts toldTidy fun empty => absurd empty noCleanup
        exact foldl finishes cleaned.toTidy fun _ => cleaned
  · exact kept

section Runs

variable (platform : Platform) (config : AuthConfig) (host : String)

theorem SignOutKept.step {browser : Browser τ} (kept : SignOutKept browser) (event : TabEvent τ)
    (heard : Heard browser event) : SignOutKept (browser.step platform config host event) := by
  cases event with
  | renew tab => exact kept.renewSession tab
  | logout tab => exact kept.logout tab
  | deliver tab => exact kept.deliver tab
  | serveRenewal id now jti => exact kept.serveRenewal platform config host id now jti
  | serveLogout id now jti => exact kept.serveLogout platform config host id now jti
  | landRenewal id => exact kept.landRenewal id
  | landLogout id => exact kept.landLogout id
  | settleRenewal id => exact kept.settleRenewal id heard
  | settleLogout id => exact kept.settleLogout id

/-- Every answer of the run found a tab that had heard of the sign-out, where it had to. -/
def AllHeard (browser : Browser τ) : List (TabEvent τ) → Prop
  | [] => True
  | event :: later =>
      Heard browser event ∧ AllHeard (browser.step platform config host event) later

instance decidableAllHeard (browser : Browser τ) :
    (events : List (TabEvent τ)) → Decidable (AllHeard platform config host browser events)
  | [] => isTrue trivial
  | event :: later =>
      have := decidableAllHeard (browser.step platform config host event) later
      inferInstanceAs (Decidable (Heard browser event ∧ _))

theorem AllHeard.take {browser : Browser τ} {before after : List (TabEvent τ)}
    (heard : AllHeard platform config host browser (before ++ after)) :
    AllHeard platform config host browser before := by
  induction before generalizing browser with
  | nil => exact trivial
  | cons event later ih => exact ⟨heard.1, ih heard.2⟩

theorem SignOutKept.run {browser : Browser τ} (kept : SignOutKept browser)
    {events : List (TabEvent τ)} (heard : AllHeard platform config host browser events) :
    SignOutKept (browser.run platform config host events) := by
  induction events generalizing browser with
  | nil => exact kept
  | cons event later ih => exact ih (kept.step platform config host event heard.1) heard.2

def Browser.Quiet (browser : Browser τ) : Prop :=
  browser.renewals = [] ∧ browser.signOuts = [] ∧
    ∀ tab, (browser.tabs tab).inbox = [] ∧ (browser.tabs tab).waiting = []

/-- With a `logout()` resolved and nothing on its way, the portal takes no cookie the jar
holds for a session. -/
def SignedOutForGood (browser : Browser τ) : Prop :=
  browser.resolved = true → browser.Quiet → ∀ token, browser.jar = some token →
    ∀ endpoint now jti, authenticate platform config browser.server
      (sessionRequest host endpoint (some token) now jti) = none

/-- Sign-out is final in every browser reached while every tab has heard of it in time. -/
theorem sign_out_is_final (server : SignedOut) (jar : Option String) (signedOut : τ → Bool)
    (users : τ → Option (String × Role)) (events : List (TabEvent τ))
    (heard : AllHeard platform config host (Browser.start server jar signedOut users) events) :
    ∀ before after, events = before ++ after → SignedOutForGood platform config host
      ((Browser.start server jar signedOut users).run platform config host before) := by
  intro before after split resolved quiet token held
  rw [split] at heard
  have kept := (SignOutKept.start server jar signedOut users).run platform config host heard.take
  obtain ⟨noRenewals, noSignOuts, _⟩ := quiet
  rcases kept.gone (kept.resolved resolved) with absent | ⟨call, member, _⟩ | more
  · rw [absent] at held
    cases held
  · rw [noSignOuts] at member
    cases member
  · exact absurd noRenewals more

end Runs

section TwoTabs

/-! Two tabs of Ana's, `false` and `true`, share the cookie `first`. The first signs out
while the renewal of the second is on its way. -/

private def anasTabs : Browser Bool :=
  .start .empty (some "first") (fun _ => false) fun _ => some ("ana", .viewer)

private def anasTabsAfter : List (TabEvent Bool) → Browser Bool :=
  anasTabs.run twoTokens twoAnas "portal"

/-- The renewal answers last, to a tab that has heard of the sign-out. -/
private def heardInTime : List (TabEvent Bool) :=
  [.renew true, .serveRenewal 0 1000000 "2", .logout false, .deliver true,
    .serveLogout 1 1000000 "", .landLogout 1, .settleLogout 1, .landRenewal 0, .settleRenewal 0,
    .serveLogout 2 1000000 "", .landLogout 2, .settleLogout 2]

theorem sign_out_is_final_heard_in_time :
    (anasTabsAfter heardInTime).resolved = true ∧
      SignedOutForGood twoTokens twoAnas "portal" (anasTabsAfter heardInTime) :=
  ⟨by decide +kernel,
    sign_out_is_final twoTokens twoAnas "portal" .empty (some "first") (fun _ => false)
      (fun _ => some ("ana", .viewer)) heardInTime (by decide +kernel) heardInTime []
      (List.append_nil _).symm⟩

/-- The same, but the message is the last thing to arrive. -/
private def heardTooLate : List (TabEvent Bool) :=
  [.renew true, .serveRenewal 0 1000000 "2", .logout false, .serveLogout 1 1000000 "",
    .landLogout 1, .settleLogout 1, .landRenewal 0, .settleRenewal 0, .deliver true]

/-- The renewed cookie stays, and the portal takes it. -/
theorem renewal_outlives_sign_out :
    (anasTabsAfter heardTooLate).resolved = true ∧ (anasTabsAfter heardTooLate).Quiet ∧
      (anasTabsAfter heardTooLate).jar = some "second" ∧
      ¬ SignedOutForGood twoTokens twoAnas "portal" (anasTabsAfter heardTooLate) := by
  have resolved : (anasTabsAfter heardTooLate).resolved = true := by decide +kernel
  have quiet : (anasTabsAfter heardTooLate).Quiet :=
    ⟨by decide +kernel, by decide +kernel, by decide +kernel⟩
  have jar : (anasTabsAfter heardTooLate).jar = some "second" := by decide +kernel
  refine ⟨resolved, quiet, jar, fun final => ?_⟩
  have refused := final resolved quiet "second" jar .me 2000000 ""
  have taken : (authenticate twoTokens twoAnas (anasTabsAfter heardTooLate).server
      (sessionRequest "portal" .me (some "second") 2000000 "")).isSome = true := by decide +kernel
  rw [refused] at taken
  cases taken

end TwoTabs

end ZabbixPortal.Security
