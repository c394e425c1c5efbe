import ZabbixPortal.Foundation.OrderedMap
import ZabbixPortal.Foundation.Text
import ZabbixPortal.Export.CellText
import Mathlib.Algebra.GroupWithZero.Nat
import Mathlib.Data.Rat.Init
import Mathlib.Algebra.Order.Ring.Rat

/-! Text measuring, cutting and wrapping for the PDF writer, over exact arithmetic. -/

set_option autoImplicit false

namespace ZabbixPortal.Export

open Foundation

abbrev WinAnsiText := List UInt8

inductive FontFace
  | regular
  | bold
deriving DecidableEq, Repr

def SPACE : UInt8 := 0x20

def ELLIPSIS : WinAnsiText := [0x85]

/-- Helvetica advances for codes 32 to 255, 16 to a row. -/
def HELVETICA : List Nat :=
  [278, 278, 355, 556, 556, 889, 667, 191, 333, 333, 389, 584, 278, 333, 278, 278,
    556, 556, 556, 556, 556, 556, 556, 556, 556, 556, 278, 278, 584, 584, 584, 556,
    1015, 667, 667, 722, 722, 667, 611, 778, 722, 278, 500, 667, 556, 833, 722, 778,
    667, 778, 722, 667, 611, 722, 667, 944, 667, 667, 611, 278, 278, 278, 469, 556,
    333, 556, 556, 500, 556, 556, 278, 556, 556, 222, 222, 500, 222, 833, 556, 556,
    556, 556, 333, 500, 278, 556, 500, 722, 500, 500, 500, 334, 260, 334, 584, 350,
    556, 350, 222, 556, 333, 1000, 556, 556, 333, 1000, 667, 333, 1000, 350, 611, 350,
    350, 222, 222, 333, 333, 350, 556, 1000, 333, 1000, 500, 333, 944, 350, 500, 667,
    278, 333, 556, 556, 556, 556, 260, 556, 333, 737, 370, 556, 584, 333, 737, 333,
    400, 584, 333, 333, 333, 556, 537, 278, 333, 333, 365, 556, 834, 834, 834, 611,
    667, 667, 667, 667, 667, 667, 1000, 722, 667, 667, 667, 667, 278, 278, 278, 278,
    722, 722, 778, 778, 778, 778, 778, 584, 778, 722, 722, 722, 722, 667, 667, 611,
    556, 556, 556, 556, 556, 556, 889, 500, 556, 556, 556, 556, 278, 278, 278, 278,
    556, 556, 556, 556, 556, 556, 556, 584, 611, 556, 556, 556, 556, 500, 556, 500]

def HELVETICA_BOLD : List Nat :=
  [278, 333, 474, 556, 556, 889, 722, 238, 333, 333, 389, 584, 278, 333, 278, 278,
    556, 556, 556, 556, 556, 556, 556, 556, 556, 556, 333, 333, 584, 584, 584, 611,
    975, 722, 722, 722, 722, 667, 611, 778, 722, 278, 556, 722, 611, 833, 722, 778,
    667, 778, 722, 667, 611, 722, 667, 944, 667, 667, 611, 333, 278, 333, 584, 556,
    333, 556, 611, 556, 611, 556, 333, 611, 611, 278, 278, 556, 278, 889, 611, 611,
    611, 611, 389, 556, 333, 611, 556, 778, 556, 556, 500, 389, 280, 389, 584, 350,
    556, 350, 278, 556, 500, 1000, 556, 556, 333, 1000, 667, 333, 1000, 350, 611, 350,
    350, 278, 278, 500, 500, 350, 556, 1000, 333, 1000, 556, 333, 944, 350, 500, 667,
    278, 333, 556, 556, 556, 556, 280, 556, 333, 737, 370, 556, 584, 333, 737, 333,
    400, 584, 333, 333, 333, 611, 556, 278, 333, 333, 365, 556, 834, 834, 834, 611,
    722, 722, 722, 722, 722, 722, 1000, 722, 667, 667, 667, 667, 278, 278, 278, 278,
    722, 722, 778, 778, 778, 778, 778, 584, 778, 722, 722, 722, 722, 667, 667, 611,
    556, 556, 556, 556, 556, 556, 889, 556, 556, 556, 556, 556, 278, 278, 278, 278,
    611, 611, 611, 611, 611, 611, 611, 584, 611, 611, 611, 611, 611, 556, 611, 556]

def FIRST_CODE : Nat := 32

def fontWidths : FontFace → List Nat
  | .bold => HELVETICA_BOLD
  | .regular => HELVETICA

def advance (code : UInt8) (face : FontFace) : Nat :=
  if code.toNat < FIRST_CODE then 0 else ((fontWidths face)[code.toNat - FIRST_CODE]?).getD 0

/-- The advances of a text, in thousandths of its size. -/
def unitsOf (s : WinAnsiText) (face : FontFace) : Nat := (s.map fun code => advance code face).sum

def textWidth (s : WinAnsiText) (face : FontFace) (size : ℚ) : ℚ := unitsOf s face * size / 1000

section Fitting

variable (face : FontFace) (size maxWidth : ℚ)

def fitFrom : Nat → WinAnsiText → Nat
  | _, [] => 0
  | units, code :: rest =>
      let units := units + advance code face
      if units * size / 1000 > maxWidth then 0 else fitFrom units rest + 1

def fitCount (s : WinAnsiText) : Nat := fitFrom face size maxWidth 0 s

def isSpaceByte (code : UInt8) : Bool := isSpace (Char.ofNat code.toNat)

def trimEndBytes (s : WinAnsiText) : WinAnsiText := (s.reverse.dropWhile isSpaceByte).reverse

def fitText (s : WinAnsiText) : WinAnsiText :=
  if textWidth s face size ≤ maxWidth then s
  else
    let room := maxWidth - textWidth ELLIPSIS face size
    if room ≤ 0 then [] else trimEndBytes (s.take (fitCount face size room s)) ++ ELLIPSIS

/-- The pieces of a word that does not fit a line, and what is left for the line after them. -/
def breakWord (word : WinAnsiText) : List WinAnsiText × WinAnsiText :=
  if _ : 1 < word.length then
    let fits := fitCount face size maxWidth word
    if fits = word.length then ([], word)
    else
      -- at least one character goes on a line, even a glyph wider than the line
      let more := breakWord (word.drop (max fits 1))
      (word.take (max fits 1) :: more.1, more.2)
  else ([], word)
termination_by word.length
decreasing_by
  rw [List.length_drop]
  omega

structure Wrapping where
  lines : List WinAnsiText
  line : WinAnsiText

def Wrapping.done (w : Wrapping) : List WinAnsiText :=
  if w.line ≠ [] then w.lines ++ [w.line] else w.lines

def Wrapping.next (w : Wrapping) (word : WinAnsiText) : WinAnsiText :=
  if w.line ≠ [] then w.line ++ SPACE :: word else word

def Wrapping.push (w : Wrapping) (word : WinAnsiText) : Wrapping :=
  if textWidth (w.next word) face size ≤ maxWidth then { w with line := w.next word }
  else ⟨w.done ++ (breakWord face size maxWidth word).1, (breakWord face size maxWidth word).2⟩

def wordsOf (s : WinAnsiText) : List WinAnsiText := (s.splitOn SPACE).filter fun word => word ≠ []

/-- Greedy word wrap on spaces; a word wider than the line is broken by character. -/
def wrapText (s : WinAnsiText) : List WinAnsiText :=
  ((wordsOf s).foldl (Wrapping.push face size maxWidth) ⟨[], []⟩).done

/-- Words the line before a one-word last line must keep after lending it one. -/
def RUNT_KEEP : Nat := 3

def joinWords (words : List WinAnsiText) : WinAnsiText := [SPACE].intercalate words

/-- Greedy wrap, then a one-word last line borrows the word before it. -/
def wrapParagraph (s : WinAnsiText) : List WinAnsiText :=
  let lines := wrapText face size maxWidth s
  let last := lines.getLastD []
  if lines.length < 2 ∨ SPACE ∈ last then lines
  else
    let words := (lines.dropLast.getLastD []).splitOn SPACE
    if words.length - 1 < RUNT_KEEP then lines
    else
      let pair := words.getLastD [] ++ SPACE :: last
      if textWidth pair face size > maxWidth then lines
      else lines.dropLast.dropLast ++ [joinWords words.dropLast, pair]

def Wrapping.pushFitted (w : Wrapping) (raw : WinAnsiText) : Wrapping :=
  let word := fitText face size maxWidth raw
  if word = [] then w
  else if textWidth (w.next word) face size ≤ maxWidth then { w with line := w.next word }
  else ⟨w.lines ++ [w.line], word⟩

/-- Word wrap that never breaks inside a word: one wider than the line is cut instead. -/
def wrapWords (s : WinAnsiText) : List WinAnsiText :=
  ((s.splitOn SPACE).foldl (Wrapping.pushFitted face size maxWidth) ⟨[], []⟩).done

end Fitting

end ZabbixPortal.Export
