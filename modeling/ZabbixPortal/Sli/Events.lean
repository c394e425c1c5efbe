import Mathlib.Control.Monad.Basic
import Mathlib.Data.List.Basic
import Mathlib.Data.Int.Interval

/-! Event history without silent truncation. A full page is never accepted: the
window is halved until every slice fits, and a slice that cannot be made to fit is
an error, not a partial answer. -/

set_option autoImplicit false

namespace ZabbixPortal.Sli

inductive ZabbixApiError where
  /-- `event.get: more than … events within … s` -/
  | tooDense (pageLimit : Nat) (seconds : ℤ)
deriving DecidableEq, Repr

def ZabbixApiError.message : ZabbixApiError → String
  | .tooDense pageLimit seconds =>
      s!"event.get: more than {pageLimit} events within {seconds} s, too dense to report on exactly."

structure SliceOptions where
  pageLimit : Nat
  minSliceSeconds : ℤ
  positive : 0 < minSliceSeconds

/-- `PAGE_LIMIT` and `MIN_SLICE_SECONDS`. -/
def SliceOptions.standard : SliceOptions := ⟨5000, 60, by decide⟩

/-- `event.get` over `[from, to]`, both inclusive, in ascending clock order. `get`
answers one request, given its range and its limit. -/
def fetchEventsSliced {α : Type} (get : ℤ → ℤ → Nat → List α) (options : SliceOptions)
    (first last : ℤ) : Except ZabbixApiError (List α) :=
  if last < first then .ok []
  else
    let rows := get first last options.pageLimit
    if rows.length < options.pageLimit then .ok rows
    else if last - first < options.minSliceSeconds then
      .error (.tooDense options.pageLimit (last - first + 1))
    else do
      -- Halves that do not overlap: an event exactly on `mid` belongs to the first.
      let mid := (first + last) / 2
      let left ← fetchEventsSliced get options first mid
      let right ← fetchEventsSliced get options (mid + 1) last
      return left ++ right
termination_by (last - first).toNat
decreasing_by
  all_goals
    have positive := options.positive
    omega

/-- `items` in consecutive chunks of `size`, which no caller makes zero. -/
def chunk {α : Type} (size : Nat) (items : List α) : List (List α) :=
  if size = 0 ∨ items = [] then []
  else items.take size :: chunk size (items.drop size)
termination_by items.length
decreasing_by
  rename_i proper
  have nonempty := List.length_pos_of_ne_nil fun empty => proper (.inr empty)
  rw [List.length_drop]
  omega

end ZabbixPortal.Sli
