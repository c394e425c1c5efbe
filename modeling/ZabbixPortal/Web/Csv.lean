import ZabbixPortal.Services.Acknowledge
import Mathlib.Data.List.Forall2

/-! The CSV writer behind every download button. Texts are UTF-16 code units. -/

set_option autoImplicit false

namespace ZabbixPortal.Web

abbrev Units := List UInt16

def QUOTE : UInt16 := 0x22

def COMMA : UInt16 := 0x2C

def LINE_FEED : UInt16 := 0x0A

def CARRIAGE_RETURN : UInt16 := 0x0D

def APOSTROPHE : UInt16 := 0x27

/-- `[=+\-@\t\r]` -/
def FORMULA_START : List UInt16 := [0x3D, 0x2B, 0x2D, 0x40, 0x09, 0x0D]

/-- What a page puts into a cell; a missing value is an empty cell. -/
inductive CsvValue (Num : Type)
  | text (value : Units)
  | number (value : Num)
  | empty

section Writer

-- JavaScript's numbers: which are finite, and `String(value)`
variable {Num : Type} (isFinite : Num → Bool) (numberText : Num → Units)

/-- `String(value ?? '')` -/
def valueText : CsvValue Num → Units
  | .text value => value
  | .number value => numberText value
  | .empty => []

/-- `typeof value === 'number' && Number.isFinite(value)` -/
def isFiniteNumber : CsvValue Num → Bool
  | .number value => isFinite value
  | _ => false

/-- `text.replace(FORMULA_START, "'$&")` -/
def guardFormula : Units → Units
  | [] => []
  | first :: rest => if first ∈ FORMULA_START then APOSTROPHE :: first :: rest else first :: rest

/-- `safe.replace(/"/g, '""')` -/
def doubleQuotes (text : Units) : Units :=
  text.flatMap fun unit => if unit = QUOTE then [QUOTE, QUOTE] else [unit]

def csvCell (value : CsvValue Num) : Units :=
  let text := valueText numberText value
  let safe := if isFiniteNumber isFinite value then text else guardFormula text
  QUOTE :: (doubleQuotes safe ++ [QUOTE])

def toCsv (rows : List (List (CsvValue Num))) : Units :=
  [LINE_FEED].intercalate (rows.map fun row => [COMMA].intercalate (row.map (csvCell isFinite numberText)))

end Writer

section Reader

/-- Where a reader is: before a field, in a plain or a quoted one, behind a quote in a quoted one, or
behind a carriage return that ends a record. -/
inductive CsvPlace
  | record
  | field
  | plain (read : Units)
  | quoted (read : Units)
  | quote (read : Units)
  | carriage (read : Units)

structure CsvReader where
  rows : List (List Units)
  /-- The fields of the record that is being read. -/
  row : List Units
  place : CsvPlace

namespace CsvReader

variable (r : CsvReader)

def endRecord (read : Units) : CsvReader :=
  { rows := r.rows ++ [r.row ++ [read]], row := [], place := .record }

def behind (read : Units) (unit : UInt16) : Option CsvReader :=
  if unit = COMMA then some { r with row := r.row ++ [read], place := .field }
  else if unit = LINE_FEED then some (r.endRecord read)
  else if unit = CARRIAGE_RETURN then some { r with place := .carriage read }
  else none

def begin (unit : UInt16) : CsvReader :=
  if unit = QUOTE then { r with place := .quoted [] }
  else (r.behind [] unit).getD { r with place := .plain [unit] }

def read (unit : UInt16) : Option CsvReader :=
  match r.place with
  | .record => some (r.begin unit)
  | .field => some (r.begin unit)
  | .plain read =>
      if unit = QUOTE then none
      else some ((r.behind read unit).getD { r with place := .plain (read ++ [unit]) })
  | .quoted read =>
      some { r with place := if unit = QUOTE then .quote read else .quoted (read ++ [unit]) }
  | .quote read =>
      if unit = QUOTE then some { r with place := .quoted (read ++ [QUOTE]) } else r.behind read unit
  | .carriage read => if unit = LINE_FEED then some (r.endRecord read) else none

def readAll (text : Units) : Option CsvReader := text.foldlM read r

/-- The rows at the end of the text; a line break at its end begins no record. -/
def finish : Option (List (List Units)) :=
  match r.place with
  | .record => some r.rows
  | .field => some (r.endRecord []).rows
  | .plain read => some (r.endRecord read).rows
  | .quote read => some (r.endRecord read).rows
  | .quoted _ => none
  | .carriage _ => none

end CsvReader

/-- A reader of comma-separated values: records at line feeds with or without a carriage return before
them, fields at commas, a field in quotes with its quotes doubled, or plain and without any. -/
def readCsv (text : Units) : Option (List (List Units)) :=
  (CsvReader.readAll ⟨[], [], .record⟩ text).bind CsvReader.finish

end Reader

/-! What the CSV writer writes reads back, cell by cell, and no text in it runs as a formula. -/

def quotedCell (text : Units) : Units := QUOTE :: (doubleQuotes text ++ [QUOTE])

namespace CsvReader

variable (r : CsvReader)

theorem readAll_append (left right : Units) :
    r.readAll (left ++ right) = (r.readAll left).bind fun next => next.readAll right :=
  List.foldlM_append ..

/-- Behind an opening quote, a text with its quotes doubled is read as the text. -/
theorem readAll_doubleQuotes (read text : Units) :
    readAll { r with place := .quoted read } (doubleQuotes text) =
      some { r with place := .quoted (read ++ text) } := by
  induction text generalizing read with
  | nil => simp [doubleQuotes, readAll]
  | cons unit rest ih =>
      have split : doubleQuotes (unit :: rest) =
          (if unit = QUOTE then [QUOTE, QUOTE] else [unit]) ++ doubleQuotes rest := List.flatMap_cons
      have one : readAll { r with place := .quoted read } (if unit = QUOTE then [QUOTE, QUOTE] else [unit]) =
          some { r with place := .quoted (read ++ [unit]) } := by
        by_cases isQuote : unit = QUOTE
        · rw [if_pos isQuote, isQuote]
          rfl
        · rw [if_neg isQuote]
          simp [readAll, CsvReader.read, isQuote]
      rw [split, readAll_append, one, Option.bind_some, ih, List.append_assoc, List.singleton_append]

def AtField : Prop := r.place = .record ∨ r.place = .field

variable {r}

theorem AtField.readAll_quotedCell (before : r.AtField) (text : Units) :
    r.readAll (quotedCell text) = some { r with place := .quote text } := by
  have opened : r.read QUOTE = some { r with place := .quoted [] } := by
    cases before with
    | inl record => simp only [CsvReader.read, record, begin, if_true]
    | inr field => simp only [CsvReader.read, field, begin, if_true]
  have first : r.readAll (quotedCell text) =
      (readAll { r with place := .quoted [] } (doubleQuotes text ++ [QUOTE])) := by
    show (r.read QUOTE).bind _ = _
    rw [opened]
    rfl
  rw [first, readAll_append, readAll_doubleQuotes]
  rfl

/-- The fields of a record are read up to the last one's closing quote. -/
theorem AtField.readAll_row (before : r.AtField) (first : Units) (rest : List Units) :
    r.readAll ([COMMA].intercalate ((first :: rest).map quotedCell)) =
      some { r with row := r.row ++ (first :: rest).dropLast,
                    place := .quote ((first :: rest).getLast (List.cons_ne_nil first rest)) } := by
  induction rest generalizing r first with
  | nil =>
      rw [List.map_singleton, List.intercalate_singleton, before.readAll_quotedCell]
      simp
  | cons second rest ih =>
      rw [List.map_cons, List.map_cons, List.intercalate_cons_cons, List.append_assoc, readAll_append,
        before.readAll_quotedCell, Option.bind_some, readAll_append]
      have comma : readAll { r with place := .quote first } [COMMA] =
          some { r with row := r.row ++ [first], place := .field } := rfl
      rw [comma, Option.bind_some, ← List.map_cons, ih (.inr rfl) second]
      simp

/-- Behind a record the text may end, or a line feed may begin another one. -/
theorem exists_readAll_record (done : List (List Units)) {row : List Units} (nonempty : row ≠ []) :
    ∃ behind, readAll ⟨done, [], .record⟩ ([COMMA].intercalate (row.map quotedCell)) = some behind ∧
      behind.finish = some (done ++ [row]) ∧
      behind.readAll [LINE_FEED] = some ⟨done ++ [row], [], .record⟩ := by
  obtain ⟨cell, more, rfl⟩ := List.exists_cons_of_ne_nil nonempty
  have whole := List.dropLast_append_getLast nonempty
  refine ⟨_, AtField.readAll_row (.inl rfl) cell more, ?_, ?_⟩
  · show some (done ++ [[] ++ (cell :: more).dropLast ++ [(cell :: more).getLast nonempty]]) = _
    rw [List.nil_append, whole]
  · show some (CsvReader.mk (done ++ [[] ++ (cell :: more).dropLast ++
      [(cell :: more).getLast nonempty]]) [] .record) = _
    rw [List.nil_append, whole]

theorem finish_readAll_rows (done : List (List Units)) {rows : List (List Units)} (nonempty : rows ≠ [])
    (cells : ∀ row ∈ rows, row ≠ []) :
    (readAll ⟨done, [], .record⟩ ([LINE_FEED].intercalate
        (rows.map fun row => [COMMA].intercalate (row.map quotedCell)))).bind finish =
      some (done ++ rows) := by
  induction rows generalizing done with
  | nil => exact absurd rfl nonempty
  | cons row rest ih =>
      obtain ⟨behind, read, finished, next⟩ :=
        exists_readAll_record done (cells row List.mem_cons_self)
      cases rest with
      | nil => rw [List.map_singleton, List.intercalate_singleton, read, Option.bind_some, finished]
      | cons second rest =>
          have later := ih (done ++ [row]) (List.cons_ne_nil second rest)
            fun other member => cells other (List.mem_cons_of_mem row member)
          rw [List.map_cons] at later
          rw [List.map_cons, List.map_cons, List.intercalate_cons_cons, List.append_assoc, readAll_append,
            read, Option.bind_some, readAll_append, next, Option.bind_some, later, List.append_assoc,
            List.singleton_append]

end CsvReader

section Results

variable {Num : Type} (isFinite : Num → Bool) (numberText : Num → Units)

/-- Whether a spreadsheet would run a cell's text as a formula, and it is no finite number. -/
def RunsAsFormula (value : CsvValue Num) : Prop :=
  isFiniteNumber isFinite value = false ∧
    ∃ first, (valueText numberText value).head? = some first ∧ first ∈ FORMULA_START

/-- What a cell reads back as: its text, with an apostrophe where it would run, so that no text does. -/
structure ReadsAs (value : CsvValue Num) (read : Units) : Prop where
  guarded : RunsAsFormula isFinite numberText value → read = APOSTROPHE :: valueText numberText value
  same : ¬ RunsAsFormula isFinite numberText value → read = valueText numberText value
  harmless : (∃ text, value = .text text) → ∀ first, read.head? = some first → first ∉ FORMULA_START

def safeText (value : CsvValue Num) : Units :=
  if isFiniteNumber isFinite value then valueText numberText value
  else guardFormula (valueText numberText value)

theorem guardFormula_of_mem {text : Units} {first : UInt16} (starts : text.head? = some first)
    (formula : first ∈ FORMULA_START) : guardFormula text = APOSTROPHE :: text := by
  obtain ⟨rest, rfl⟩ := List.head?_eq_some_iff.mp starts
  exact if_pos formula

theorem guardFormula_of_not {text : Units}
    (plain : ¬ ∃ first, text.head? = some first ∧ first ∈ FORMULA_START) : guardFormula text = text := by
  cases text with
  | nil => rfl
  | cons first rest => exact if_neg fun formula => plain ⟨first, rfl, formula⟩

theorem harmless_guardFormula (text : Units) {first : UInt16}
    (starts : (guardFormula text).head? = some first) : first ∉ FORMULA_START := by
  cases text with
  | nil => cases starts
  | cons own rest =>
      by_cases formula : own ∈ FORMULA_START
      · rw [guardFormula, if_pos formula] at starts
        cases starts
        decide
      · rw [guardFormula, if_neg formula] at starts
        cases starts
        exact formula

theorem readsAs_safeText (value : CsvValue Num) :
    ReadsAs isFinite numberText value (safeText isFinite numberText value) := by
  unfold safeText
  cases finite : isFiniteNumber isFinite value with
  | true =>
      refine ⟨fun runs => ?_, fun _ => rfl, fun isText => ?_⟩
      · cases finite.symm.trans runs.1
      · obtain ⟨text, rfl⟩ := isText
        cases finite
  | false =>
      refine ⟨fun runs => ?_, fun runs => ?_, fun _ first starts => harmless_guardFormula _ starts⟩
      · obtain ⟨_, first, starts, formula⟩ := runs
        exact guardFormula_of_mem starts formula
      · exact guardFormula_of_not fun starts => runs ⟨finite, starts⟩

theorem toCsv_eq (rows : List (List (CsvValue Num))) : toCsv isFinite numberText rows =
    [LINE_FEED].intercalate ((rows.map fun row => row.map (safeText isFinite numberText)).map fun row =>
      [COMMA].intercalate (row.map quotedCell)) := by
  unfold toCsv
  rw [List.map_map]
  congr 1
  refine List.map_congr_left fun row _ => ?_
  rw [Function.comp_apply, List.map_map]
  rfl

/-- A file of rows that have cells reads back as these rows. -/
theorem toCsv_readsBack {rows : List (List (CsvValue Num))} (nonempty : rows ≠ [])
    (cells : ∀ row ∈ rows, row ≠ []) :
    ∃ read, readCsv (toCsv isFinite numberText rows) = some read ∧
      List.Forall₂ (List.Forall₂ (ReadsAs isFinite numberText)) rows read := by
  refine ⟨rows.map fun row => row.map (safeText isFinite numberText), ?_, ?_⟩
  · rw [toCsv_eq]
    refine CsvReader.finish_readAll_rows [] (fun bare => nonempty (List.map_eq_nil_iff.mp bare)) ?_
    intro row member empty
    obtain ⟨own, inRows, rfl⟩ := List.mem_map.mp member
    exact cells own inRows (List.map_eq_nil_iff.mp empty)
  · refine List.forall₂_map_right_iff.mpr (List.forall₂_same.mpr fun row _ => ?_)
    exact List.forall₂_map_right_iff.mpr
      (List.forall₂_same.mpr fun value _ => readsAs_safeText isFinite numberText value)

end Results

section Figures

open Export (units)

def figureText : Option ℤ → Units
  | some whole => units (toString whole)
  | none => units "-Infinity"

/-- Quotes, commas, line breaks, an empty cell, a formula and figures below zero. -/
theorem toCsv_readsBack_mixed : ∃ read,
    readCsv (toCsv Option.isSome figureText
      [[.text (units "say \"hi\",\n"), .empty], [.text (units "=1+1"), .number (some (-12)), .number none]]) =
        some read ∧
      List.Forall₂ (List.Forall₂ (ReadsAs Option.isSome figureText))
        [[.text (units "say \"hi\",\n"), .empty], [.text (units "=1+1"), .number (some (-12)), .number none]]
        read :=
  toCsv_readsBack Option.isSome figureText (List.cons_ne_nil _ _) (by simp)

end Figures

end ZabbixPortal.Web
