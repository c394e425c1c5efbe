import ZabbixPortal.Export.SheetNames
import ZabbixPortal.Services.Actions
import Mathlib.Data.Rat.Init

/-! Acknowledge and close, the portal's only write path. Texts of a request are UTF-16 code units,
since a JSON text may hold a lone surrogate. -/

set_option autoImplicit false

namespace ZabbixPortal.Services

open Foundation
open Export (units isHighSurrogate isLowSurrogate)

inductive Json
  | null
  | bool (value : Bool)
  | number (value : ℚ)
  | text (value : List UInt16)
  | array (items : List Json)
  | object (fields : List (String × Json))

/-- `value[key]`; `none` is undefined. -/
def Json.field? : Json → String → Option Json
  | .object fields, key => (fields.find? fun field => field.1 = key).map Prod.snd
  | _, _ => none

def ACTION_CLOSE : Nat := 1

def ACTION_ACKNOWLEDGE : Nat := 2

def ACTION_MESSAGE : Nat := 4

def MAX_MESSAGE : Nat := 2048

def MAX_EVENTIDS : Nat := 50

structure WriteConfig where
  zbxWriteToken : String
  authEnabled : Bool
  allowWriteWithoutAuth : Bool

def writeBackEnabled (config : WriteConfig) : Bool :=
  config.zbxWriteToken ≠ "" && (config.authEnabled || config.allowWriteWithoutAuth)

structure AckRequest where
  body : Option Json
  /-- `req.user?.sub` -/
  sub : Option Json
  ip : String

/-- The code points of a text, each as its one or two units. -/
def codePoints : List UInt16 → List (List UInt16)
  | [] => []
  | [u] => [[u]]
  | u :: v :: rest =>
      if isHighSurrogate u && isLowSurrogate v then [u, v] :: codePoints rest
      else [u] :: codePoints (v :: rest)

def codePointOf : List UInt16 → Nat
  | [u] => u.toNat
  | [high, low] => 0x10000 + (high.toNat - 0xD800) * 0x400 + (low.toNat - 0xDC00)
  | _ => 0

def isSpaceUnit (u : UInt16) : Bool := isSpace (Char.ofNat u.toNat)

def trimUnits (text : List UInt16) : List UInt16 :=
  ((text.dropWhile isSpaceUnit).reverse.dropWhile isSpaceUnit).reverse

def OPENING : UInt16 := 0x5B

def CLOSING : UInt16 := 0x5D

def ANONYMOUS : List UInt16 := units "anonymous"

structure Trail where
  user : List UInt16
  ip : String
  eventids : List (List UInt16)
  acknowledge : Bool
  close : Bool

section Actor

-- `\p{Cf}` of a code point
variable (isFormat : Nat → Bool)

/-- `[\p{Cc}\p{Cf}[\]]` -/
def isDropped (point : List UInt16) : Bool :=
  let code := codePointOf point
  code < 32 || (127 ≤ code && code < 160) || isFormat code || point == [OPENING] ||
    point == [CLOSING]

/-- `sub.replace(…, '').trim().slice(0, 64)` -/
def nameOf : Option Json → List UInt16
  | some (.text sub) =>
      (trimUnits ((codePoints sub).filter fun point => !isDropped isFormat point).flatten).take 64
  | _ => []

def actor (request : AckRequest) : List UInt16 :=
  if nameOf isFormat request.sub = [] then ANONYMOUS else nameOf isFormat request.sub

end Actor

/-- `Array.isArray(value) ? value : [value]`, its texts. -/
def textsOf : Option Json → List (List UInt16)
  | some (.array items) => items.filterMap fun item => match item with
      | .text id => some id
      | _ => none
  | some (.text id) => [id]
  | _ => []

def ackField (body : Option Json) (key : String) : Option Json :=
  body.bind fun value => value.field? key

def flagOf (unset : Bool) : Option Json → Bool
  | some (.bool set) => set
  | _ => unset

/-- `(message ?? '').trim()` -/
def noteOf : Option Json → List UInt16
  | some (.text message) => trimUnits message
  | _ => []

def idsForLog (body : Option Json) : List (List UInt16) :=
  ((textsOf (ackField body "eventids")).take MAX_EVENTIDS).map fun id => id.take 32

def trailOf (isFormat : Nat → Bool) (request : AckRequest) : Trail where
  user := actor isFormat request
  ip := request.ip
  eventids := idsForLog request.body
  acknowledge := flagOf true (ackField request.body "acknowledge")
  close := flagOf false (ackField request.body "close")

structure AckRefusal where
  status : Nat
  error : String
  message : String
  fix : Option String

def badRequest (message : String) : AckRefusal := ⟨400, "bad_request", message, none⟩

def writeDisabled (config : WriteConfig) : AckRefusal where
  status := 503
  error := "zabbix_write_disabled"
  message := if config.zbxWriteToken ≠ "" then
    "Acknowledge and Close are off while sign-in is off. Tell an administrator."
  else "Acknowledge and Close are not switched on for this portal. Tell an administrator."
  fix := some (if config.zbxWriteToken ≠ "" then
    "For local dev only, set ALLOW_WRITE_WITHOUT_AUTH=true in server/.env."
  else "Set ZABBIX_WRITE_TOKEN in server/.env.")

structure Ack where
  eventids : List (List UInt16)
  note : List UInt16
  acknowledge : Bool
  close : Bool
  asked : Nat

/-- `body != null && (typeof body !== 'object' || Array.isArray(body))` -/
def isNoObject : Option Json → Bool
  | none => false
  | some .null => false
  | some (.object _) => false
  | some _ => true

/-- `value != null && typeof value !== 'string'` -/
def isNoText : Option Json → Bool
  | none => false
  | some .null => false
  | some (.text _) => false
  | some _ => true

/-- `value != null && typeof value !== 'boolean'` -/
def isNoFlag : Option Json → Bool
  | none => false
  | some .null => false
  | some (.bool _) => false
  | some _ => true

def isDigitUnit (u : UInt16) : Bool := 0x30 ≤ u && u ≤ 0x39

/-- `/^\d+$/` -/
def isEventId (id : List UInt16) : Bool := id ≠ [] && id.all isDigitUnit

def askedBits (acknowledge close : Bool) (note : List UInt16) : Nat :=
  (if acknowledge then ACTION_ACKNOWLEDGE else 0) ||| (if close then ACTION_CLOSE else 0) |||
    (if note ≠ [] then ACTION_MESSAGE else 0)

def namedIds (body : Option Json) : List (List UInt16) :=
  (textsOf (ackField body "eventids")).filter fun id => id ≠ []

/-- What a body asks for, read when it has passed the checks. -/
def ackOf (body : Option Json) : Ack where
  eventids := namedIds body
  note := noteOf (ackField body "message")
  acknowledge := flagOf true (ackField body "acknowledge")
  close := flagOf false (ackField body "close")
  asked := askedBits (flagOf true (ackField body "acknowledge"))
    (flagOf false (ackField body "close")) (noteOf (ackField body "message"))

/-- The checks of the handler in its order: when each turns a request away, and how. -/
def ackChecks (config : WriteConfig) (body : Option Json) : List (Bool × AckRefusal) :=
  [(!writeBackEnabled config, writeDisabled config),
    (isNoObject body, badRequest "The request body must be a JSON object."),
    ((namedIds body).isEmpty,
      badRequest "eventids is required: one or more Zabbix event ids."),
    ((namedIds body).length > MAX_EVENTIDS,
      badRequest s!"At most {MAX_EVENTIDS} event ids per request."),
    ((namedIds body).any fun id => !isEventId id,
      badRequest "eventids must be numeric Zabbix event ids."),
    (isNoText (ackField body "message"), badRequest "message must be text."),
    (isNoFlag (ackField body "acknowledge"), badRequest "acknowledge must be true or false."),
    (isNoFlag (ackField body "close"), badRequest "close must be true or false."),
    ((ackOf body).asked = 0,
      badRequest "Nothing to do. Supply acknowledge, close, or a message.")]

def checkAck (config : WriteConfig) (body : Option Json) : Except AckRefusal Ack :=
  match (ackChecks config body).find? Prod.fst with
  | some failed => .error failed.2
  | none => .ok (ackOf body)

def tag (user : List UInt16) : List UInt16 := units "[portal:" ++ user ++ [CLOSING]

def ackMessage (user note : List UInt16) : List UInt16 :=
  (if note ≠ [] then tag user ++ 0x20 :: note else tag user).take MAX_MESSAGE

inductive AckEffect
  | attempted (trail : Trail)
  | refused (trail : Trail) (refusal : AckRefusal)
  /-- `event.acknowledge` -/
  | sent (eventids : List (List UInt16)) (action : Nat) (message : List UInt16)
  | failed (trail : Trail) (action : Nat) (error : String)
  | invalidated (key : String) (holdMs : ℤ)
  | notified
  | written (trail : Trail) (action : Nat)

inductive AckReply
  | refused (refusal : AckRefusal)
  | threw (error : String)
  | ok (eventids : List (List UInt16)) (action : Nat)

section Handler

variable (config : WriteConfig) (isFormat : Nat → Bool)

-- Zabbix's answer to `event.acknowledge`: its event ids, if it names them, or an error
variable (zbxWrite : List (List UInt16) → Nat → List UInt16 →
  Except String (Option (List (List UInt16))))

def postAcknowledge (request : AckRequest) : AckReply × List AckEffect :=
  let trail := trailOf isFormat request
  match checkAck config request.body with
  | .error refusal => (.refused refusal, [.attempted trail, .refused trail refusal])
  | .ok ack =>
      let message := ackMessage trail.user ack.note
      let action := ack.asked ||| ACTION_MESSAGE
      let sentTrail := { trail with
        eventids := ack.eventids, acknowledge := ack.acknowledge, close := ack.close }
      match zbxWrite ack.eventids action message with
      | .error error =>
          (.threw error, [.attempted trail, .sent ack.eventids action message,
            .failed sentTrail action error])
      | .ok eventids =>
          (.ok (eventids.getD ack.eventids) ack.asked,
            .attempted trail :: .sent ack.eventids action message ::
              STALE_AFTER_WRITE.map (.invalidated · WRITE_HOLD_MS) ++
                [.notified, .written sentTrail action])

end Handler

end ZabbixPortal.Services
