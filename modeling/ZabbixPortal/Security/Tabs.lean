import Mathlib.Logic.Function.Basic
import ZabbixPortal.Security.Auth

/-! The tabs of one browser. They share a cookie, tell each other of sign-outs over a
channel, and each has requests to the portal on their way. -/

set_option autoImplicit false

namespace ZabbixPortal.Security

inductive AuthMessage where
  | signedIn
  | signedOut
  | changed
deriving DecidableEq, Repr

/-- What one tab's session module holds. Promises are the ids of the renewals they
settle with. -/
structure Tab where
  signedOut : Bool
  lastUser : Option (String × Role)
  renewing : Option ℕ
  /-- Renewals after which a sign-out elsewhere clears the cookie once more. -/
  cleanups : List ℕ
  /-- Sign-outs of this tab, each waiting for a renewal. -/
  waiting : List ℕ
  /-- Messages of other tabs not delivered yet. -/
  inbox : List AuthMessage
deriving DecidableEq, Repr

/-- A request on its way: sent with a cookie, answered by the portal, and its answer
landed in the browser, cookie included, before the tab gets to see it. -/
inductive Progress where
  | sent (cookie : Option String)
  | answered (reply : Reply)
  | landed (reply : Reply)
deriving DecidableEq, Repr

def Progress.isLanded : Progress → Bool
  | .landed _ => true
  | _ => false

variable {τ : Type}

structure Call (τ : Type) where
  id : ℕ
  tab : τ
  progress : Progress
  /-- Whether a `logout()` resolves with it. -/
  resolves : Bool
deriving DecidableEq, Repr

structure Browser (τ : Type) where
  server : SignedOut
  jar : Option String
  tabs : τ → Tab
  renewals : List (Call τ)
  /-- `POST /api/auth/logout`, from sign-outs and from clean-ups. -/
  signOuts : List (Call τ)
  nextId : ℕ
  /-- Whether the answer of a sign-out has landed. -/
  cleared : Bool
  /-- Whether a `logout()` has resolved. -/
  resolved : Bool

def Browser.start (server : SignedOut) (jar : Option String) (signedOut : τ → Bool)
    (users : τ → Option (String × Role)) : Browser τ where
  server
  jar
  tabs := fun tab => ⟨signedOut tab, users tab, none, [], [], []⟩
  renewals := []
  signOuts := []
  nextId := 0
  cleared := false
  resolved := false

def callWith (calls : List (Call τ)) (id : ℕ) : Option (Call τ) :=
  calls.find? fun call => call.id = id

def advance (calls : List (Call τ)) (id : ℕ) (progress : Progress) : List (Call τ) :=
  calls.map fun call => if call.id = id then { call with progress } else call

def Reply.setCookie (jar : Option String) : Reply → Option String
  | .issued grant => some grant.token
  | .signedOut => none
  | _ => jar

def sessionRequest (host : String) (endpoint : Endpoint) (cookie : Option String) (now : ℕ)
    (jti : String) : Arrival :=
  ⟨⟨endpoint, none, cookie, some "1", none, host⟩, now, jti⟩

/-- The rest of `doRenew` once the answer is there. -/
def Tab.afterRenewal (tab : Tab) (reply : Reply) : Tab :=
  if tab.signedOut then tab
  else
    match reply with
    | .unauthorized => { tab with signedOut := true }
    | .issued issued => { tab with lastUser := some (issued.user, issued.role) }
    | _ => tab

def Tab.seesChange (tab : Tab) (reply : Reply) : Bool :=
  match tab.signedOut, tab.lastUser, reply with
  | false, some was, .issued issued => was ≠ (issued.user, issued.role)
  | _, _, _ => false

def Tab.receive (tab : Tab) : AuthMessage → Tab
  | .signedOut =>
      { tab with signedOut := true, cleanups := tab.cleanups ++ tab.renewing.toList }
  | .signedIn | .changed => { tab with signedOut := false }

namespace Browser

variable [DecidableEq τ] (browser : Browser τ)

def setTab (tab : τ) (value : Tab) : Browser τ :=
  { browser with tabs := Function.update browser.tabs tab value }

def announce (sender : τ) (message : AuthMessage) : Browser τ :=
  { browser with
    tabs := fun tab =>
      if tab = sender then browser.tabs tab
      else { browser.tabs tab with inbox := (browser.tabs tab).inbox ++ [message] } }

def postLogout (tab : τ) (resolves : Bool) : Browser τ :=
  { browser with
    signOuts := browser.signOuts ++ [⟨browser.nextId, tab, .sent browser.jar, resolves⟩]
    nextId := browser.nextId + 1 }

/-- `renewSession()`. A tab that is signed out sends nothing, and its promise, settled
at once, takes the place of the one before. -/
def renewSession (tab : τ) : Browser τ :=
  let own := browser.tabs tab
  if own.signedOut then browser.setTab tab { own with renewing := none }
  else
    { browser.setTab tab { own with renewing := some browser.nextId } with
      renewals := browser.renewals ++ [⟨browser.nextId, tab, .sent browser.jar, false⟩]
      nextId := browser.nextId + 1 }

def finishLogout (tab : τ) : Browser τ :=
  (browser.announce tab .signedOut).postLogout tab true

/-- `logout()` up to what it waits for. -/
def logout (tab : τ) : Browser τ :=
  let own := { browser.tabs tab with signedOut := true, lastUser := none }
  match own.renewing with
  | some renewal => browser.setTab tab { own with waiting := own.waiting ++ [renewal] }
  | none => (browser.setTab tab own).finishLogout tab

def deliver (tab : τ) : Browser τ :=
  let own := browser.tabs tab
  match own.inbox with
  | [] => browser
  | message :: rest => browser.setTab tab ({ own with inbox := rest }.receive message)

/-- A tab sees the answer of its renewal, and what waited for it goes on. -/
def settleRenewal (id : ℕ) : Browser τ :=
  match callWith browser.renewals id with
  | some ⟨_, tab, .landed reply, _⟩ =>
      let own := browser.tabs tab
      let after := { own.afterRenewal reply with
        renewing := if own.renewing = some id then none else own.renewing
        cleanups := own.cleanups.filter fun renewal => renewal ≠ id
        waiting := own.waiting.filter fun renewal => renewal ≠ id }
      let settled := { browser.setTab tab after with
        renewals := browser.renewals.filter fun call => call.id ≠ id }
      let told := if own.seesChange reply then settled.announce tab .changed else settled
      let cleaned := (own.cleanups.filter fun renewal => renewal = id).foldl
        (fun browser _ => browser.postLogout tab false) told
      (own.waiting.filter fun renewal => renewal = id).foldl
        (fun browser _ => browser.finishLogout tab) cleaned
  | _ => browser

def settleLogout (id : ℕ) : Browser τ :=
  match callWith browser.signOuts id with
  | some ⟨_, _, .landed reply, resolves⟩ =>
      { browser with
        signOuts := browser.signOuts.filter fun call => call.id ≠ id
        resolved := browser.resolved || (resolves && reply = .signedOut) }
  | _ => browser

def landRenewal (id : ℕ) : Browser τ :=
  match callWith browser.renewals id with
  | some ⟨_, _, .answered reply, _⟩ =>
      { browser with
        jar := reply.setCookie browser.jar
        renewals := advance browser.renewals id (.landed reply) }
  | _ => browser

def landLogout (id : ℕ) : Browser τ :=
  match callWith browser.signOuts id with
  | some ⟨_, _, .answered reply, _⟩ =>
      { browser with
        jar := reply.setCookie browser.jar
        signOuts := advance browser.signOuts id (.landed reply)
        cleared := true }
  | _ => browser

section Server

variable (platform : Platform) (config : AuthConfig) (host : String)

def serveRenewal (id now : ℕ) (jti : String) : Browser τ :=
  match callWith browser.renewals id with
  | some ⟨_, _, .sent cookie, _⟩ =>
      let handled := handle platform config browser.server
        (sessionRequest host .refresh cookie now jti)
      { browser with
        server := handled.1
        renewals := advance browser.renewals id (.answered handled.2) }
  | _ => browser

def serveLogout (id now : ℕ) (jti : String) : Browser τ :=
  match callWith browser.signOuts id with
  | some ⟨_, _, .sent cookie, _⟩ =>
      let handled := handle platform config browser.server
        (sessionRequest host .logout cookie now jti)
      { browser with
        server := handled.1
        signOuts := advance browser.signOuts id (.answered handled.2) }
  | _ => browser

end Server

end Browser

/-- What can happen next, in any order. One that names nothing in its stage changes
nothing. -/
inductive TabEvent (τ : Type) where
  | renew (tab : τ)
  | logout (tab : τ)
  | deliver (tab : τ)
  | serveRenewal (id now : ℕ) (jti : String)
  | serveLogout (id now : ℕ) (jti : String)
  | landRenewal (id : ℕ)
  | landLogout (id : ℕ)
  | settleRenewal (id : ℕ)
  | settleLogout (id : ℕ)
deriving DecidableEq, Repr

section Runs

variable [DecidableEq τ] (platform : Platform) (config : AuthConfig) (host : String)

def Browser.step (browser : Browser τ) : TabEvent τ → Browser τ
  | .renew tab => browser.renewSession tab
  | .logout tab => browser.logout tab
  | .deliver tab => browser.deliver tab
  | .serveRenewal id now jti => browser.serveRenewal platform config host id now jti
  | .serveLogout id now jti => browser.serveLogout platform config host id now jti
  | .landRenewal id => browser.landRenewal id
  | .landLogout id => browser.landLogout id
  | .settleRenewal id => browser.settleRenewal id
  | .settleLogout id => browser.settleLogout id

def Browser.run (browser : Browser τ) (events : List (TabEvent τ)) : Browser τ :=
  events.foldl (Browser.step platform config host) browser

end Runs

end ZabbixPortal.Security
