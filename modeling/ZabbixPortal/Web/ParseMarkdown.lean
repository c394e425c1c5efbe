import ZabbixPortal.Foundation.Number
import ZabbixPortal.Foundation.Pattern
import ZabbixPortal.Foundation.Text
import Mathlib.Data.List.SplitOn

/-! The tiny slice of markdown the assistant is allowed to write: paragraphs, lists, headings,
code and bold. -/

set_option autoImplicit false

namespace ZabbixPortal.Web

open Foundation

inductive Inline where
  | text (text : List Char)
  | bold (children : List Inline)
  | code (text : List Char)

inductive Block where
  | paragraph (lines : List (List Inline)) (strong : Bool)
  | ul (items : List (List Inline))
  | ol (items : List (List Inline)) (start : ℕ)

/-! ## The inline parser -/

/-- The text before the first such mark, and the text after it: `indexOf` and the two `slice`s. -/
def cutAt (mark : List Char) : List Char → Option (List Char × List Char)
  | [] => none
  | c :: rest =>
      if mark.isPrefixOf (c :: rest) then some ([], (c :: rest).drop mark.length)
      else (cutAt mark rest).map fun cut => (c :: cut.1, cut.2)

/-- What a marker encloses, up to its closing partner, when there is something between them. -/
def spanAt (mark s : List Char) : Option (List Char × List Char) :=
  if mark.isPrefixOf s then
    match cutAt mark (s.drop mark.length) with
    | some cut => if cut.1 = [] then none else some cut
    | none => none
  else none

def BACKTICK : List Char := ['\x60']

def STARS : List Char := ['*', '*']

def codeAt (s : List Char) : Option (List Char × List Char) := spanAt BACKTICK s

def boldAt (allowBold : Bool) (s : List Char) : Option (List Char × List Char) :=
  if allowBold then spanAt STARS s else none

theorem length_cutAt {mark s inner after : List Char} (cut : cutAt mark s = some (inner, after)) :
    inner.length + after.length ≤ s.length := by
  induction s generalizing inner with
  | nil => cases cut
  | cons c rest ih =>
      rw [cutAt] at cut
      split at cut
      · cases cut
        simp
      · obtain ⟨found, later, same⟩ := Option.map_eq_some_iff.mp cut
        cases same
        have shorter := ih later
        simp only [List.length_cons]
        omega

theorem length_spanAt {mark s inner after : List Char} (span : spanAt mark s = some (inner, after))
    (marked : mark ≠ []) : inner.length < s.length ∧ after.length < s.length := by
  unfold spanAt at span
  split at span
  · next starts =>
      have long : mark.length ≤ s.length := (List.isPrefixOf_iff_prefix.mp starts).length_le
      have positive := List.length_pos_iff.mpr marked
      split at span
      · next cut found =>
          split at span
          · cases span
          · cases span
            have shorter := length_cutAt found
            rw [List.length_drop] at shorter
            omega
      · cases span
  · cases span

def flush (buf : List Char) : List Inline := if buf = [] then [] else [.text buf]

/-- `parseInline` from an index on, with what `buf` has by then. -/
def parseFrom (allowBold : Bool) (buf : List Char) (s : List Char) : List Inline :=
  match s with
  | [] => flush buf
  | c :: rest =>
      match code : codeAt (c :: rest) with
      | some (inner, after) => flush buf ++ .code inner :: parseFrom allowBold [] after
      | none =>
          match bold : boldAt allowBold (c :: rest) with
          | some (inner, after) =>
              flush buf ++ .bold (parseFrom false [] inner) :: parseFrom allowBold [] after
          | none => parseFrom allowBold (buf ++ [c]) rest
termination_by s.length
decreasing_by
  · exact (length_spanAt code (by simp [BACKTICK])).2
  · unfold boldAt at bold
    split at bold
    · exact (length_spanAt bold (by simp [STARS])).1
    · cases bold
  · unfold boldAt at bold
    split at bold
    · exact (length_spanAt bold (by simp [STARS])).2
    · cases bold
  · simp

def parseInline (text : List Char) (allowBold : Bool) : List Inline := parseFrom allowBold [] text

def inline (text : List Char) : List Inline := parseInline (trim text) true

/-- One node more, joined to the last one when both are text. -/
def mergeNode (out : List Inline) (n : Inline) : List Inline :=
  match n, out.getLast? with
  | .text text, some (.text prev) => out.dropLast ++ [.text (prev ++ text)]
  | n, _ => out ++ [n]

def merge (nodes : List Inline) : List Inline := nodes.foldl mergeNode []

/-! ## The lines -/

/-- `.` without the `s` flag. -/
def isDot (c : Char) : Bool := c ∉ ['\n', '\r', '\u2028', '\u2029']

def spaces : Pattern := .repeated isSpace 0 none true

def someSpaces : Pattern := .repeated isSpace 1 none true

/-- `/^\s*[-*•]\s+(.*)$/` -/
def UL : Pattern :=
  .seq spaces <| .seq (.one fun c => c ∈ ['-', '*', '•']) <| .seq someSpaces <|
    .seq (.group 1 (.repeated isDot 0 none true)) .stop

/-- `/^\s*(\d{1,3})[.)]\s+(.*)$/` -/
def OL : Pattern :=
  .seq spaces <| .seq (.group 1 (.repeated Char.isDigit 1 (some 3) true)) <|
    .seq (.one fun c => c ∈ ['.', ')']) <| .seq someSpaces <|
      .seq (.group 2 (.repeated isDot 0 none true)) .stop

/-- `/^\s*#{1,6}\s+(.*?)\s*#*\s*$/` -/
def HEADING : Pattern :=
  .seq spaces <| .seq (.repeated (· = '#') 1 (some 6) true) <| .seq someSpaces <|
    .seq (.group 1 (.repeated isDot 0 none false)) <| .seq spaces <|
      .seq (.repeated (· = '#') 0 none true) <| .seq spaces .stop

/-- `/^\s*\*\*/` -/
def BOLD_START : Pattern := .seq spaces <| .seq (.one (· = '*')) (.one (· = '*'))

/-- `/^\s{2,}\S/` -/
def INDENTED : Pattern := .seq (.repeated isSpace 2 none true) (.one fun c => !isSpace c)

def captured (cursor : Cursor) (index : ℕ) : List Char := (cursor.group? index).getD []

/-- `replace(/\r\n?/g, '\n')` -/
def newlines : List Char → List Char
  | '\r' :: '\n' :: rest => '\n' :: newlines rest
  | '\r' :: rest => '\n' :: newlines rest
  | c :: rest => c :: newlines rest
  | [] => []

/-- `replace(/\s+$/, '')` -/
def trimEnd (text : List Char) : List Char := (text.reverse.dropWhile isSpace).reverse

inductive OpenList where
  | ul (items : List (List Inline))
  | ol (items : List (List Inline)) (start : ℕ)

def OpenList.items : OpenList → List (List Inline)
  | .ul items => items
  | .ol items _ => items

def OpenList.withItems (list : OpenList) (items : List (List Inline)) : OpenList :=
  match list with
  | .ul _ => .ul items
  | .ol _ start => .ol items start

def OpenList.block : OpenList → Block
  | .ul items => .ul items
  | .ol items start => .ol items start

structure Parsing where
  blocks : List Block
  para : Option (List (List Inline))
  list : Option OpenList

namespace Parsing

def start : Parsing := ⟨[], none, none⟩

def endPara (parsing : Parsing) : Parsing :=
  match parsing.para with
  | some lines =>
      if lines = [] then { parsing with para := none }
      else { parsing with blocks := parsing.blocks ++ [.paragraph lines false], para := none }
  | none => parsing

def endList (parsing : Parsing) : Parsing :=
  match parsing.list with
  | some list =>
      if list.items = [] then { parsing with list := none }
      else { parsing with blocks := parsing.blocks ++ [list.block], list := none }
  | none => parsing

/-- The open list, when it is a bullet list, else a new one. -/
def bulletList (parsing : Parsing) : Parsing :=
  match parsing.list with
  | some (.ul _) => parsing
  | _ => { parsing.endList with list := some (.ul []) }

def numberedList (parsing : Parsing) (number : List Char) : Parsing :=
  match parsing.list with
  | some (.ol _ _) => parsing
  | _ => { parsing.endList with list := some (.ol [] (valueIn 10 number)) }

def pushItem (parsing : Parsing) (item : List Inline) : Parsing :=
  { parsing with list := parsing.list.map fun list => list.withItems (list.items ++ [item]) }

/-- More nodes for the last item, after a space. -/
def continueItem (list : OpenList) (nodes : List Inline) : OpenList :=
  list.withItems (list.items.dropLast ++
    [merge (list.items.getLastD [] ++ [.text [' ']] ++ nodes)])

def line (parsing : Parsing) (raw : List Char) : Parsing :=
  let line := trimEnd raw
  if trim line = [] then parsing.endPara.endList
  else
    let ul := UL.exec line
    let ol := if ul.isSome then none else OL.exec line
    match ul, (BOLD_START.exec line).isSome, ol with
    -- "**bold**" at the start of a line is not a "*" bullet.
    | some ul, false, _ => parsing.endPara.bulletList.pushItem (inline (captured ul 1))
    | _, _, some ol =>
        (parsing.endPara.numberedList (captured ol 1)).pushItem (inline (captured ol 2))
    | _, _, none =>
        match HEADING.exec line with
        | some heading =>
            let ended := parsing.endPara.endList
            if captured heading 1 = [] then ended
            else
              { ended with
                blocks := ended.blocks ++ [.paragraph [inline (captured heading 1)] true] }
        | none =>
            match parsing.list, (INDENTED.exec raw).isSome with
            -- An indented line right after a list item continues that item.
            | some list, true => { parsing with list := some (continueItem list (inline line)) }
            | _, _ =>
                let ended := parsing.endList
                { ended with para := some (ended.para.getD [] ++ [inline line]) }

end Parsing

def parseMarkdown (text : List Char) : List Block :=
  (((newlines text).splitOn '\n').foldl Parsing.line .start).endPara.endList.blocks

end ZabbixPortal.Web
