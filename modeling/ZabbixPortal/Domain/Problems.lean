import Mathlib.Data.Int.Notation

/-! The problems Zabbix reports, as the portal reads them. -/

set_option autoImplicit false

namespace ZabbixPortal.Domain

structure ZbxProblem where
  eventid : String
  objectid : String
  name : String
  /-- 0 to 5. -/
  severity : Nat
  clock : ℤ
  /-- `0` or absent while the problem is open. -/
  r_eventid : Option String
  acknowledged : Bool
  suppressed : Bool
  hostid : Option String
deriving DecidableEq, Repr

def ZbxProblem.isOpen (problem : ZbxProblem) : Bool :=
  problem.r_eventid = none || problem.r_eventid = some "" || problem.r_eventid = some "0"

/-- The problems that count: open, and not inside a planned maintenance window. -/
def openProblems (problems : List ZbxProblem) : List ZbxProblem :=
  problems.filter fun problem => problem.isOpen && !problem.suppressed

end ZabbixPortal.Domain
