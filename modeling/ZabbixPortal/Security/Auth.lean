import ZabbixPortal.Foundation.OrderedMap
import ZabbixPortal.Foundation.Text
import Mathlib.Data.Nat.Notation

/-! Portal sessions: signing in, renewing and signing out, and the guard every request
passes. Requests refused by a rate limit never get this far. -/

set_option autoImplicit false

namespace ZabbixPortal.Security

open Foundation

inductive Role where
  | viewer
  | operator
  | admin
deriving DecidableEq, Repr

def Role.rank : Role → Nat
  | .viewer => 1
  | .operator => 2
  | .admin => 3

def roleAllows (has needs : Role) : Bool := has.rank ≥ needs.rank

structure PortalUser where
  name : String
  /-- As written in the environment. -/
  pass : String
  role : Role
deriving DecidableEq, Repr

structure Claims where
  sub : Option String
  role : Option Role
  /-- Unix seconds. -/
  exp : Option ℕ
  ep : Option String
deriving DecidableEq, Repr

/-- The libraries the portal signs, verifies and compares with. Times are milliseconds. -/
structure Platform where
  /-- The claims of a token this portal signed that has not expired. -/
  verify : String → ℕ → Option Claims
  sign : Claims → ℕ → String → String
  sha256 : String → String
  passwordMatches : String → String → Bool
  lowerCase : String → String
  /-- Whether an Origin names the Host a request arrived with. -/
  sameOrigin : String → String → Bool
  verify_empty : ∀ now, verify "" now = none
  /-- A token says the same whenever it is verified. -/
  verify_stable : ∀ token now later claims others,
    verify token now = some claims → verify token later = some others → claims = others

structure AuthConfig where
  users : List PortalUser
  sessionEpoch : String
  sessionHours : ℕ

def SESSION_EPOCH_DEFAULT : String := "1"

/-- The most tokens the sign-out list holds. -/
def LOGIN_FAIL_KEYS : Nat := 10000

inductive Endpoint where
  | login (username password : Option String)
  | me
  | logout
  | refresh
  | health
  /-- Any other route: whether its method is unsafe and the role it needs. -/
  | guarded (unsafeMethod : Bool) (needs : Role)
deriving DecidableEq, Repr

structure Request where
  endpoint : Endpoint
  authorization : Option String
  /-- The session cookie. -/
  cookie : Option String
  csrfHeader : Option String
  origin : Option String
  host : String
deriving DecidableEq, Repr

def Endpoint.isUnsafe : Endpoint → Bool
  | .login _ _ | .logout | .refresh => true
  | .me | .health => false
  | .guarded unsafeMethod _ => unsafeMethod

/-- Public, but they set or clear the session cookie. -/
def Endpoint.isCookieRoute : Endpoint → Bool
  | .login _ _ | .logout => true
  | _ => false

/-- `/^Bearer\s/i` on the Authorization header. -/
def hasBearer (request : Request) : Bool :=
  match request.authorization with
  | none => false
  | some header =>
      let letters := header.toList
      (letters.take 6).map Char.toUpper = "BEARER".toList &&
        ((letters.drop 6).head?.map isSpace).getD false

/-- The token `@fastify/jwt` takes: the second part of a Bearer header when there is
one, else the cookie. -/
def presentedToken (request : Request) : Option String :=
  if hasBearer request then
    (((request.authorization.getD "").toList.splitOn ' ')[1]?).map String.ofList
  else request.cookie

def tokenOf (request : Request) : Option String :=
  match request.authorization with
  | some header =>
      if "Bearer ".toList.isPrefixOf header.toList then
        some (String.ofList (trim (header.toList.drop 7)))
      else request.cookie
  | none => request.cookie

inductive CsrfRefusal where
  | missingHeader
  | otherSite
deriving DecidableEq, Repr

def CsrfRefusal.message : CsrfRefusal → String
  | .missingHeader => "The request is missing the portal's X-HCML-CSRF header."
  | .otherSite => "The request came from another site."

/-- Only requests the browser authenticates by itself are checked, and the routes that
set or clear the cookie always. -/
def csrfRefusal (platform : Platform) (request : Request) : Option CsrfRefusal :=
  if !request.endpoint.isUnsafe then none
  else
    let byCookie := !hasBearer request && (request.cookie.getD "") ≠ ""
    if !byCookie && !request.endpoint.isCookieRoute then none
    else if request.csrfHeader ≠ some "1" then some .missingHeader
    else
      match request.origin with
      | none => none
      | some origin => if platform.sameOrigin origin request.host then none else some .otherSite

/-- The tokens signed out before they expire, by hash, with their expiry. -/
structure SignedOut where
  entries : OrderedMap String ℕ
  bounded : entries.size ≤ LOGIN_FAIL_KEYS

namespace SignedOut

def empty : SignedOut := ⟨.empty, Nat.zero_le _⟩

def recorded (list : SignedOut) (key : String) (exp now : ℕ) : OrderedMap String ℕ :=
  (list.entries.filter fun entry => !decide (entry.2 ≤ now)).set key exp

/-- Sign one token out; the oldest entry makes room. -/
def record (list : SignedOut) (key : String) (exp now : ℕ) : SignedOut :=
  if excess : (list.recorded key exp now).size > LOGIN_FAIL_KEYS then
    ⟨(list.recorded key exp now).dropFirst, by
      have before := OrderedMap.size_filter_le list.entries fun entry => !decide (entry.2 ≤ now)
      have grown : (list.recorded key exp now).size ≤ LOGIN_FAIL_KEYS + 1 := by
        have bounded := list.bounded
        rw [recorded, OrderedMap.size_set]
        split <;> omega
      rw [OrderedMap.size_dropFirst]
      omega⟩
  else ⟨list.recorded key exp now, Nat.not_lt.mp excess⟩

end SignedOut

structure Session where
  claims : Claims
  user : PortalUser
deriving DecidableEq, Repr

/-- A request with the clock when it is handled and the id a token signed for it gets. -/
structure Arrival where
  request : Request
  /-- Milliseconds. -/
  now : ℕ
  jti : String
deriving DecidableEq, Repr

def seconds (milliseconds : ℕ) : ℕ := milliseconds / 1000

section Portal

variable (platform : Platform) (config : AuthConfig)

def jwtVerify (arrival : Arrival) : Option Claims :=
  (presentedToken arrival.request).bind fun token => platform.verify token arrival.now

/-- The configured user a token belongs to. A name listed twice cannot say which entry
signed in, so the token's role must still be one of theirs. -/
def currentUser (claims : Claims) : Option PortalUser :=
  match config.users.filter fun u => some u.name = claims.sub with
  | [user] => some user
  | named => named.find? fun u => some u.role = claims.role

def isSignedOut (signedOut : SignedOut) (request : Request) : Bool :=
  match tokenOf request with
  | none => false
  | some token => token ≠ "" && signedOut.entries.contains (platform.sha256 token)

def authenticate (signedOut : SignedOut) (arrival : Arrival) : Option Session :=
  match jwtVerify platform arrival with
  | none => none
  | some claims =>
      if claims.ep.getD SESSION_EPOCH_DEFAULT ≠ config.sessionEpoch then none
      else if isSignedOut platform signedOut arrival.request then none
      else (currentUser config claims).map fun user => ⟨claims, user⟩

/-- The entry a sign-in names when the password fits; the one spelled as typed wins. -/
def findUser (username password : String) : Option PortalUser :=
  let named := config.users.filter fun u =>
    platform.lowerCase u.name = platform.lowerCase username
  let fitting := named.filter fun u => platform.passwordMatches u.pass password
  (fitting.find? fun u => u.name = username).or fitting.head?

structure Issued where
  token : String
  user : String
  role : Role
deriving DecidableEq, Repr

def issue (user : PortalUser) (arrival : Arrival) : Issued where
  token := platform.sign
    { sub := some user.name, role := some user.role,
      exp := some (seconds arrival.now + config.sessionHours * 3600),
      ep := some config.sessionEpoch } arrival.now arrival.jti
  user := user.name
  role := user.role

inductive Reply where
  | csrf (refusal : CsrfRefusal)
  | unauthorized
  | invalidCredentials
  | forbidden
  | issued (issued : Issued)
  | session (session : Session)
  | health (signedIn : Bool)
  | signedOut
deriving DecidableEq, Repr

/-- `POST /api/auth/logout`. Only a token this portal signed is remembered. -/
def logout (signedOut : SignedOut) (arrival : Arrival) : SignedOut :=
  match tokenOf arrival.request with
  | none => signedOut
  | some token =>
      if token = "" then signedOut
      else
        match (jwtVerify platform arrival).bind (·.exp) with
        | none => signedOut
        | some exp =>
            if exp = 0 then signedOut
            else signedOut.record (platform.sha256 token) exp (seconds arrival.now)

/-- `POST /api/auth/refresh`, behind the guard. A name listed twice is refused. -/
def refresh (session : Session) (arrival : Arrival) : Reply :=
  match config.users.filter fun u => some u.name = session.claims.sub with
  | [user] => .issued (issue platform config user arrival)
  | _ => .unauthorized

def handle (signedOut : SignedOut) (arrival : Arrival) : SignedOut × Reply :=
  match csrfRefusal platform arrival.request with
  | some refusal => (signedOut, .csrf refusal)
  | none =>
      let session := authenticate platform config signedOut arrival
      match arrival.request.endpoint with
      | .login (some username) (some password) =>
          (signedOut, match findUser platform config username password with
            | some user => .issued (issue platform config user arrival)
            | none => .invalidCredentials)
      | .login _ _ => (signedOut, .invalidCredentials)
      | .logout => (logout platform signedOut arrival, .signedOut)
      | .health => (signedOut, .health session.isSome)
      | .me =>
          (signedOut, match session with
            | some session => .session session
            | none => .unauthorized)
      | .refresh =>
          (signedOut, match session with
            | some session => refresh platform config session arrival
            | none => .unauthorized)
      | .guarded _ needs =>
          (signedOut, match session with
            | none => .unauthorized
            | some session =>
                if roleAllows session.user.role needs then .session session else .forbidden)

end Portal

end ZabbixPortal.Security
