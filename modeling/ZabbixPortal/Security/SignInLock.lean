import Mathlib.Algebra.Group.Nat.Defs
import ZabbixPortal.Security.Auth

/-! The limits of `POST /api/auth/login`: the lock after failures in a row for one account and
address, and the rate limit behind it. -/

set_option autoImplicit false

namespace ZabbixPortal.Security

open Foundation

def LOGIN_LOCK_AFTER : ℕ := 10

/-- The first lock; it doubles with each further failure. -/
def LOGIN_LOCK_BASE_MS : ℕ := 60000

def LOGIN_LOCK_MAX_MS : ℕ := 5 * 60000

def LOGIN_FAIL_TTL_MS : ℕ := 60 * 60000

structure LimitAnswer where
  isAllowed : Bool
  isExceeded : Bool
  max : ℕ
  ttlInSeconds : ℕ
deriving DecidableEq, Repr

/-- A sign-in that has passed the schema, with the clock (in milliseconds) when the limits are
looked up and when its password has been checked. -/
structure SignIn where
  username : Option String
  password : Option String
  ip : String
  now : ℕ
  /-- None without the plugin. -/
  limit : Option LimitAnswer
  checkedAt : ℕ
  /-- The request a session would be issued for. -/
  arrival : Arrival
deriving DecidableEq, Repr

structure Failures where
  count : ℕ
  last : ℕ
  /-- The end of the lock. -/
  until' : ℕ
deriving DecidableEq, Repr

inductive SignInReply where
  | locked (retryAfter : ℕ)
  | rateLimited (retryAfter max : ℕ)
  | invalidCredentials
  | issued (issued : Issued)
deriving DecidableEq, Repr

def SignInReply.message : SignInReply → Option String
  | .locked seconds =>
      some ("Too many failed sign-ins for this account. Retry in " ++ toString seconds ++ " s.")
  | .rateLimited seconds most =>
      some ("Too many sign-in attempts: the limit is " ++ toString most ++
        " a minute per account. Retry in " ++ toString seconds ++ " s.")
  | .invalidCredentials => some "Invalid username or password."
  | .issued _ => none

def SignInReply.checked : SignInReply → Bool
  | .locked _ | .rateLimited _ _ => false
  | .invalidCredentials | .issued _ => true

def SignInReply.refused (reply : SignInReply) : Bool := !reply.checked

section Lock

variable (platform : Platform) (normalizeIP : String → String) (config : AuthConfig)

def accountOf (attempt : SignIn) : String :=
  match attempt.username with
  | some username => platform.lowerCase username
  | none => ""

def loginKey (attempt : SignIn) : String :=
  "login|" ++ normalizeIP attempt.ip ++ "|" ++ platform.sha256 (accountOf platform attempt)

def loginLimit (failures : OrderedMap String Failures) (attempt : SignIn) : Option SignInReply :=
  match failures.get? (loginKey platform normalizeIP attempt) with
  | some locked =>
      if locked.until' > attempt.now then
        some (.locked ((locked.until' - attempt.now + 999) / 1000))
      else limited attempt.limit
  | none => limited attempt.limit
where
  limited : Option LimitAnswer → Option SignInReply
    | none => none
    | some limit =>
        if limit.isAllowed ∨ ¬ limit.isExceeded then none
        else some (.rateLimited limit.ttlInSeconds limit.max)

def nextFailure (prev : Option Failures) (now : ℕ) : Failures :=
  let count := (match prev with
    | some prev => if now < prev.last + LOGIN_FAIL_TTL_MS then prev.count else 0
    | none => 0) + 1
  { count
    last := now
    until' :=
      if count ≥ LOGIN_LOCK_AFTER then
        now + min (LOGIN_LOCK_BASE_MS * 2 ^ (count - LOGIN_LOCK_AFTER)) LOGIN_LOCK_MAX_MS
      else 0 }

/-- The key's failures become the newest; the oldest key makes room. -/
def recordFailure (failures : OrderedMap String Failures) (key : String) (now : ℕ) :
    OrderedMap String Failures :=
  let recorded := (failures.delete key).set key (nextFailure (failures.get? key) now)
  if recorded.size > LOGIN_FAIL_KEYS then recorded.dropFirst else recorded

def signIn (failures : OrderedMap String Failures) (attempt : SignIn) :
    OrderedMap String Failures × SignInReply :=
  match loginLimit platform normalizeIP failures attempt with
  | some refusal => (failures, refusal)
  | none =>
      let found := match attempt.username, attempt.password with
        | some username, some password => findUser platform config username password
        | _, _ => none
      let key := loginKey platform normalizeIP attempt
      match found with
      | none => (recordFailure failures key attempt.checkedAt, .invalidCredentials)
      | some user => (failures.delete key, .issued (issue platform config user attempt.arrival))

/-- The failures remembered after sign-ins, each handled to its end before the next. -/
def afterSignIns (log : List SignIn) : OrderedMap String Failures :=
  log.foldl (fun failures attempt => (signIn platform normalizeIP config failures attempt).1) .empty

def replyAfter (log : List SignIn) (attempt : SignIn) : SignInReply :=
  (signIn platform normalizeIP config (afterSignIns platform normalizeIP config log) attempt).2

end Lock

end ZabbixPortal.Security
