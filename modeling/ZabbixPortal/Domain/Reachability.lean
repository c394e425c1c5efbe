import ZabbixPortal.Foundation.Grouping
import ZabbixPortal.Foundation.Sorting
import ZabbixPortal.Sli.Delay

/-! One reachability state per host, ping first: the ICMP items of a host folded into
one reading. -/

set_option autoImplicit false

namespace ZabbixPortal.Domain

open Foundation Sli

/-- An id as Zabbix writes it: decimal digits. -/
structure ZabbixId where
  text : String
  digits : text.toList.all Char.isDigit = true
deriving DecidableEq

def MIN_FRESH_SECONDS : Nat := 600

/-- A value Zabbix actually collected, from a supported item, recently enough to
believe: at most three update intervals old, and never less than ten minutes. -/
def isFresh (lastclock state delay : Option String) (now : ℤ) : Bool :=
  if state = some "1" ∨ lastclock = none ∨ lastclock = some "" ∨ lastclock = some "0" then false
  else
    match toNumber (lastclock.getD "") with
    | none => false
    | some clock => (now : ℚ) - clock ≤ max (3 * parseDelay delay) MIN_FRESH_SECONDS

structure IcmpItem where
  itemid : String
  hostid : ZabbixId
  key_ : String
  lastvalue : String
  lastclock : String
  state : String
  delay : String
deriving DecidableEq

def IcmpItem.fresh (item : IcmpItem) (now : ℤ) : Bool :=
  isFresh (some item.lastclock) (some item.state) (some item.delay) now

inductive PingState where
  | up
  | down
  | unknown
deriving DecidableEq, Repr

/-- One host's ICMP items folded together. A loss or latency that is present may still
be no number. -/
structure IcmpReading where
  up : Option Bool
  loss : Option (Option ℚ)
  latency : Option (Option ℚ)
  state : PingState
  items : Nat
  unsupported : Nat
deriving DecidableEq

def IcmpReading.start : IcmpReading := ⟨none, none, none, .unknown, 0, 0⟩

/-- `[a-z]+\[\s*(,|\])` -/
def emptyFirstParameter : Pattern :=
  .sequence [.repeated (fun c => 'a' ≤ c && c ≤ 'z') 1 none true, .one (· == '['),
    .repeated isSpace 0 none true, .one fun c => c == ',' || c == ']']

/-- `icmpping` or `icmpping[,…]` pings the host itself; `icmpping[10.0.0.1]` pings some
other target. -/
def pingsHost (key : String) : Bool :=
  !key.toList.contains '[' || (emptyFirstParameter.exec key.toList).isSome

def isPing (key : String) : Bool :=
  !startsWith key "icmppingloss" && !startsWith key "icmppingsec" && startsWith key "icmpping"

def IcmpReading.fold (now : ℤ) (reading : IcmpReading) (item : IcmpItem) : IcmpReading :=
  let counted := { reading with
    items := reading.items + 1
    unsupported := if item.state = "1" then reading.unsupported + 1 else reading.unsupported }
  if !item.fresh now then counted
  else if startsWith item.key_ "icmppingloss" then
    { counted with loss := counted.loss.or (some (toNumber item.lastvalue)) }
  else if startsWith item.key_ "icmppingsec" then
    { counted with latency := counted.latency.or (some (toNumber item.lastvalue)) }
  else if startsWith item.key_ "icmpping" && counted.up.isNone then
    { counted with
      up := some (item.lastvalue = "1")
      state := if item.lastvalue = "1" then .up else .down }
  else counted

/-- The ICMP items as one reading per host, items pinging the host itself first. -/
def foldIcmp (items : List IcmpItem) (now : ℤ) : OrderedMap ZabbixId IcmpReading :=
  let ordered := sortBy (fun a b => compare (pingsHost b.key_) (pingsHost a.key_)) items
  foldBy (·.hostid) .start (IcmpReading.fold now) ordered

def upOf (readings : OrderedMap ZabbixId IcmpReading) (hostid : ZabbixId) : Option Bool :=
  ((readings.get? hostid).getD .start).up

/-! What a folded reading says: the up state is that of the first fresh ping in the
folding order, and the named state always agrees with it. -/

/-- What one item says about its host: nothing unless it is a fresh ping. -/
def IcmpItem.answer (item : IcmpItem) (now : ℤ) : Option Bool :=
  if item.fresh now && isPing item.key_ then some (item.lastvalue = "1") else none

theorem IcmpReading.fold_up (now : ℤ) (reading : IcmpReading) (item : IcmpItem) :
    (reading.fold now item).up = reading.up.or (item.answer now) := by
  unfold IcmpReading.fold IcmpItem.answer isPing
  cases fresh : item.fresh now with
  | false => simp
  | true =>
      by_cases loss : startsWith item.key_ "icmppingloss" = true
      · simp [loss]
      by_cases latency : startsWith item.key_ "icmppingsec" = true
      · simp [loss, latency]
      by_cases ping : startsWith item.key_ "icmpping" = true
      · cases reading.up <;> simp [loss, latency, ping]
      · simp [loss, latency, ping]

theorem up_foldl_fold (now : ℤ) (items : List IcmpItem) (reading : IcmpReading) :
    (items.foldl (IcmpReading.fold now) reading).up =
      reading.up.or (items.findSome? (·.answer now)) := by
  induction items generalizing reading with
  | nil => simp
  | cons item rest ih =>
      rw [List.foldl_cons, ih, IcmpReading.fold_up, List.findSome?_cons, Option.or_assoc]
      cases item.answer now <;> rfl

/-- The up state of a host: the first answer among its items `pingsHost` accepts, and
only without one the first among the others. -/
theorem upOf_foldIcmp (items : List IcmpItem) (now : ℤ) (hostid : ZabbixId) :
    upOf (foldIcmp items now) hostid =
      (((items.filter fun item => pingsHost item.key_).filter
          fun item => item.hostid = hostid).findSome? (·.answer now)).or
        (((items.filter fun item => !pingsHost item.key_).filter
          fun item => item.hostid = hostid).findSome? (·.answer now)) := by
  have sorted := sortBy_bool (fun item : IcmpItem => pingsHost item.key_) items
  rw [upOf, foldIcmp, foldBy_getD, up_foldl_fold, sorted, List.filter_append,
    List.findSome?_append]
  rfl

end ZabbixPortal.Domain
