import ZabbixPortal.Foundation.Text
import Mathlib.Data.Int.Notation

/-! Which cached answers a write-back puts out of date. -/

set_option autoImplicit false

namespace ZabbixPortal.Services

open Foundation

/-- The prefixes of the keys that show problem or acknowledgement state. -/
def STALE_AFTER_WRITE : List String :=
  ["problems", "stats", "probsByGroup", "sites", "aging", "services", "hosts:overview", "map:",
    "chat:snapshot"]

def WRITE_HOLD_MS : ℤ := 15000

def isStaleAfterWrite (key : String) : Bool := STALE_AFTER_WRITE.any fun start => startsWith key start

end ZabbixPortal.Services
