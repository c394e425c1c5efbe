import ZabbixPortal.Foundation.Number
import ZabbixPortal.Foundation.Pattern

/-! Zabbix update intervals. -/

set_option autoImplicit false

namespace ZabbixPortal.Sli

open Foundation

/-- `^\s*(\d+)\s*([smhdw]?)\s*$` -/
def delayPattern : Pattern :=
  let spaces := Pattern.repeated isSpace 0 none true
  .sequence [spaces, .group 1 (.repeated Char.isDigit 1 none true), spaces,
    .group 2 (.repeated (fun c => c ∈ ['s', 'm', 'h', 'd', 'w']) 0 (some 1) true), spaces, .stop]

def unitSeconds : List Char → Nat
  | ['m'] => 60
  | ['h'] => 3600
  | ['d'] => 86400
  | ['w'] => 604800
  | _ => 1

/-- An update interval in seconds; one minute for a macro or anything else that is no
plain interval. -/
def parseDelay (delay : Option String) : Nat :=
  match delayPattern.exec (delay.getD "").toList with
  | none => 60
  | some found =>
      max 1 (valueIn 10 ((found.group? 1).getD []) * unitSeconds ((found.group? 2).getD []))

example : [some "30s", some " 5 m", some "{$DELAY}", none].map parseDelay = [30, 300, 60, 60] := by
  decide +kernel

end ZabbixPortal.Sli
