import ZabbixPortal.Foundation.Firsts
import ZabbixPortal.Foundation.OrderedMap
import ZabbixPortal.Foundation.Sorting
import ZabbixPortal.Services.Acknowledge

/-! Where each element's name goes on a map, over exact arithmetic. Names are UTF-16 code units. -/

set_option autoImplicit false

namespace ZabbixPortal.Web

open Foundation
open Services (codePoints codePointOf)

def ICON_W : ℚ := 48

def ICON_H : ℚ := 32

def BASELINE : ℚ := 46

def PITCH : ℚ := 12

def SIZES : List ℚ := [11, 10]

def MAX_CHARS : Nat := 26

def ASCENT : ℚ := 4 / 5

def DESCENT : ℚ := 1 / 4

/-- Room kept clear around every box. -/
def GAP : ℚ := 1

/-- How wide each character is, in em. -/
def ADVANCE : List (ℚ × String) :=
  [(1 / 4, "'ijl"), (3 / 10, " !,.:;I"), (7 / 20, "|"), (2 / 5, "()/[\\]frt\x7b\x7d"), (9 / 20, "\""),
    (1 / 2, "*-1^_`"), (11 / 20, "?Jksxz"), (3 / 5, "7EFLacehnouvy"), (13 / 20, "#$&02345689PRSTXZbdgpq"),
    (7 / 10, "+<=>ABKVY~"), (3 / 4, "CDGHU"), (4 / 5, "NOQ"), (17 / 20, "%w…"), (9 / 10, "Mm"), (1, "@W")]

/-- The last width listed for a code point, or a full em. -/
def advanceOf (point : Nat) : ℚ :=
  ((lastOf (fun row => row.2.toList.any fun c => c.toNat = point) ADVANCE).map Prod.fst).getD 1

def textWidth (line : List UInt16) (size : ℚ) : ℚ :=
  ((codePoints line).foldl (fun sum point => sum + advanceOf (codePointOf point)) 0) * size

structure Box where
  x1 : ℚ
  y1 : ℚ
  x2 : ℚ
  y2 : ℚ
deriving DecidableEq, Repr

def hits (a b : Box) : Bool := a.x1 < b.x2 && b.x1 < a.x2 && a.y1 < b.y2 && b.y1 < a.y2

def ELLIPSIS : UInt16 := 0x2026

def clipLine (line : List UInt16) : List UInt16 :=
  if line.length > MAX_CHARS then line.take (MAX_CHARS - 1) ++ [ELLIPSIS] else line

def drawn (lines : List (List UInt16)) : List (List UInt16) := (lines.take 2).map clipLine

/-- `SIZES[i] ?? SIZES[SIZES.length - 1]` -/
def lineSize (i : Nat) : ℚ := SIZES[i]?.getD 10

def lineBox (x y dy : ℚ) (line : List UInt16 × Nat) : Box :=
  let centre := x + ICON_W / 2
  let size := lineSize line.2
  let base := y + BASELINE + line.2 * PITCH + dy
  let half := textWidth line.1 size / 2
  ⟨centre - half, base - size * ASCENT, centre + half, base + size * DESCENT⟩

/-- The box a label takes at `(x, y)` when shifted `dy` down from its usual place. -/
def labelBox (x y : ℚ) (lines : List (List UInt16)) (dy : ℚ) : Option Box :=
  match (drawn lines).zipIdx.map (lineBox x y dy) with
  | [] => none
  | first :: rest =>
      some ⟨(rest.map Box.x1).foldl min first.x1 - GAP, (rest.map Box.y1).foldl min first.y1 - GAP,
        (rest.map Box.x2).foldl max first.x2 + GAP, (rest.map Box.y2).foldl max first.y2 + GAP⟩

structure LabelItem where
  id : String
  x : ℚ
  y : ℚ
  lines : List (List UInt16)
  /-- An element with a problem outranks one without. -/
  rank : ℚ
  /-- Whether it draws a count badge. -/
  badge : Bool
deriving DecidableEq, Repr

structure LabelPlacement where
  dy : ℚ
  hidden : Bool
deriving DecidableEq, Repr

/-- What a name must keep clear of: the element, and its badge. -/
def obstacles (item : LabelItem) : List Box :=
  let icon : Box :=
    ⟨item.x - GAP - 1, item.y - GAP - 1, item.x + ICON_W + GAP + 1, item.y + ICON_H + GAP + 1⟩
  if item.badge then [icon, ⟨item.x + 37, item.y - 9, item.x + 55, item.y + 9⟩] else [icon]

def shifts (lineCount : Nat) : List ℚ :=
  let n : ℚ := min lineCount 2
  let block := n * PITCH + 2
  [0, -(6 + BASELINE + (n - 1) * PITCH), block, 2 * block]

section Placing

variable (localeCompare : String → String → Ordering)

/-- By rank, the highest first, then from top to bottom, from left to right and by id. -/
def compareItems (a b : LabelItem) : Ordering :=
  (compareNumbers b.rank a.rank).then ((compareNumbers a.y b.y).then
    ((compareNumbers a.x b.x).then (localeCompare a.id b.id)))

def isClear (solid placed : List Box) (box : Box) : Bool :=
  !(solid.any fun o => hits box o) && !(placed.any fun p => hits box p)

def firstClear (solid placed : List Box) (item : LabelItem) : Option (ℚ × Box) :=
  (shifts item.lines.length).findSome? fun dy =>
    (labelBox item.x item.y item.lines dy).bind fun box =>
      if isClear solid placed box then some (dy, box) else none

/-- The labels placed so far and what each item got. -/
structure Placing where
  placed : List Box
  out : OrderedMap String LabelPlacement

def Placing.next (solid : List Box) (state : Placing) (item : LabelItem) : Placing :=
  if drawn item.lines = [] then { state with out := state.out.set item.id ⟨0, false⟩ }
  else
    match firstClear solid state.placed item with
    | some found =>
        ⟨state.placed ++ [found.2], state.out.set item.id ⟨found.1, false⟩⟩
    | none => { state with out := state.out.set item.id ⟨0, true⟩ }

def placeLabels (items : List LabelItem) : OrderedMap String LabelPlacement :=
  let order := sortBy (compareItems localeCompare) items
  let solid := items.flatMap obstacles
  (order.foldl (Placing.next solid) ⟨[], .empty⟩).out

end Placing

end ZabbixPortal.Web
