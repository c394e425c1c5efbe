import ZabbixPortal.Export.Surrogates
import ZabbixPortal.Foundation.Text
import Mathlib.Algebra.Group.Nat.Defs

/-! The names of a workbook's sheets: legal for Excel, and unique whatever the case. -/

set_option autoImplicit false

namespace ZabbixPortal.Export

open Foundation

def units (text : String) : List UInt16 := (text.toList.flatMap codeUnits).map Nat.toUInt16

def isControl (u : UInt16) : Bool := u ≤ 0x1F

/-- `[[\]:*?/\\]` -/
def isReserved (u : UInt16) : Bool :=
  u == 0x5B || u == 0x5D || u == 0x3A || u == 0x2A || u == 0x3F || u == 0x2F || u == 0x5C

def APOSTROPHE : UInt16 := 0x27

/-- `['\s]` -/
def isEdge (u : UInt16) : Bool := u == APOSTROPHE || isSpace (Char.ofNat u.toNat)

/-- `replace(/^['\s]+|['\s]+$/g, '')` -/
def withoutEdges (s : List UInt16) : List UInt16 :=
  ((s.dropWhile isEdge).reverse.dropWhile isEdge).reverse

def fit (s : List UInt16) (max : Nat) : List UInt16 := withoutEdges (cut s max)

/-- `replace(CONTROL, ' ')` of one unit. -/
def spaceForControl (u : UInt16) : UInt16 := if isControl u then 0x20 else u

/-- `replace(/[[\]:*?/\\]/g, '-')` of one unit. -/
def dashForReserved (u : UInt16) : UInt16 := if isReserved u then 0x2D else u

def SHEET : List UInt16 := units "Sheet"

def HISTORY : List UInt16 := units "history"

def baseName (raw : List UInt16) : List UInt16 :=
  let fitted := fit (((withoutIllegal none raw).map spaceForControl).map dashForReserved) 31
  if fitted = [] then SHEET else fitted

def suffix (n : Nat) : List UInt16 := units s!" ({n})"

/-- `toLowerCase` by the runtime's Unicode data. Letters outside ASCII are left to it; the laws
are what every Unicode table keeps: a number in brackets has no case, and a blank ends a word. -/
structure Casing where
  toLowerCase : List UInt16 → List UInt16
  suffixed : ∀ (s : List UInt16) (n : Nat), toLowerCase (s ++ suffix n) = toLowerCase s ++ suffix n
  history : toLowerCase HISTORY = HISTORY

/-- `n++` of a number, which counts no further than the whole numbers it can tell apart. -/
def increment (n : Nat) : Nat := min (n + 1) (2 ^ 53)

structure SheetNames where
  taken : List (List UInt16)
  next : OrderedMap (List UInt16) Nat

namespace SheetNames

def empty : SheetNames := { taken := [], next := .empty }

section Adding

variable (casing : Casing)

def Clashes (names : SheetNames) (name : List UInt16) : Prop :=
  casing.toLowerCase name ∈ names.taken ∨ casing.toLowerCase name = HISTORY

instance (names : SheetNames) (name : List UInt16) : Decidable (names.Clashes casing name) :=
  inferInstanceAs (Decidable (_ ∨ _))

/-- The numbering loop: the name it leaves with and its counter. `none` when it has not ended. -/
def numbered (names : SheetNames) (base : List UInt16) :
    Nat → List UInt16 → Nat → Option (List UInt16 × Nat)
  | 0, _, _ => none
  | fuel + 1, name, n =>
      if names.Clashes casing name then
        numbered names base fuel (fit base (31 - (suffix n).length) ++ suffix n) (increment n)
      else some (name, n)

def add (fuel : Nat) (names : SheetNames) (raw : List UInt16) :
    Option (List UInt16 × SheetNames) :=
  let base := baseName raw
  let key := casing.toLowerCase base
  let n := (names.next.get? key).getD 2
  (names.numbered casing base fuel base n).map fun left =>
    (left.1,
      { taken := names.taken ++ [casing.toLowerCase left.1]
        next := if left.1 ≠ base then names.next.set key left.2 else names.next })

def addAll (fuel : Nat) : SheetNames → List (List UInt16) → Option (List (List UInt16))
  | _, [] => some []
  | names, raw :: raws =>
      match names.add casing fuel raw with
      | none => none
      | some (name, names) => (addAll fuel names raws).map (name :: ·)

end Adding

end SheetNames

end ZabbixPortal.Export
