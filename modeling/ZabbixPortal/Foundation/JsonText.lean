import ZabbixPortal.Foundation.Text
import Mathlib.Data.List.Basic

/-! JSON text of lists of records of texts, as `JSON.stringify` writes it and `JSON.parse` reads
it: what is written is read back. -/

set_option autoImplicit false

namespace ZabbixPortal.Foundation.JsonText

/-! ## Texts -/

def hexDigits : List Char := "0123456789abcdef".toList

def escapes : List (Char × Char) :=
  [('"', '"'), ('\\', '\\'), ('\x08', 'b'), ('\x0c', 'f'), ('\n', 'n'), ('\r', 'r'), ('\t', 't')]

def escape (c : Char) : List Char :=
  match escapes.lookup c with
  | some mark => ['\\', mark]
  | none =>
      if c.toNat < 32 then
        ['\\', 'u', '0', '0', hexDigits.getD (c.toNat / 16) '0', hexDigits.getD (c.toNat % 16) '0']
      else [c]

def quote (text : List Char) : List Char := '"' :: text.flatMap escape ++ ['"']

def unescape (mark : Char) : Option Char :=
  (('/', '/') :: escapes.map Prod.swap).lookup mark

def hexValue (digit : Char) : Option Nat :=
  let place := hexDigits.idxOf digit.toLower
  if place < 16 then some place else none

/-- The character of four hexadecimal digits; half a surrogate pair is none. -/
def unicode (a b c d : Char) : Option Char := do
  let code := (((← hexValue a) * 16 + (← hexValue b)) * 16 + (← hexValue c)) * 16 + (← hexValue d)
  if code < 0xD800 ∨ 0xDFFF < code then some (Char.ofNat code) else none

def readChar : List Char → Option (Char × List Char)
  | [] => none
  | first :: rest =>
      if first = '\\' then
        match rest with
        | mark :: a :: b :: c :: d :: more =>
            if mark = 'u' then (unicode a b c d).map (·, more)
            else (unescape mark).map (·, a :: b :: c :: d :: more)
        | mark :: more => (unescape mark).map (·, more)
        | [] => none
      else if first.toNat < 32 then none
      else some (first, rest)

def readText : Nat → List Char → Option (List Char × List Char)
  | 0, _ => none
  | fuel + 1, s =>
      if s.head? = some '"' then some ([], s.tail)
      else do
        let (c, rest) ← readChar s
        let (text, after) ← readText fuel rest
        some (c :: text, after)

theorem readChar_plain {c : Char} (plain : c ≠ '\\') (printed : ¬ c.toNat < 32) (rest : List Char) :
    readChar (c :: rest) = some (c, rest) := by
  simp [readChar, plain, printed]

theorem readChar_escaped {mark c : Char} (short : mark ≠ 'u') (stands : unescape mark = some c)
    (rest : List Char) : readChar ('\\' :: mark :: rest) = some (c, rest) := by
  match rest with
  | [] | [_] | [_, _] | [_, _, _] => simp [readChar, stands]
  | _ :: _ :: _ :: _ :: _ => simp [readChar, short, stands]

theorem readChar_unicode {a b c d read : Char} (stands : unicode a b c d = some read)
    (rest : List Char) : readChar ('\\' :: 'u' :: a :: b :: c :: d :: rest) = some (read, rest) := by
  simp [readChar, stands]

theorem unicode_control {code : Nat} (control : code < 32) :
    unicode '0' '0' (hexDigits.getD (code / 16) '0') (hexDigits.getD (code % 16) '0') =
      some (Char.ofNat code) := by
  have all : ∀ code : Fin 32, unicode '0' '0' (hexDigits.getD (code.val / 16) '0')
      (hexDigits.getD (code.val % 16) '0') = some (Char.ofNat code.val) := by decide +kernel
  exact all ⟨code, control⟩

theorem unescape_mark : ∀ pair ∈ escapes, pair.2 ≠ 'u' ∧ unescape pair.2 = some pair.1 := by
  decide

/-- The forms a character is written in. -/
theorem escape_cases (c : Char) :
    (∃ mark, mark ≠ 'u' ∧ unescape mark = some c ∧ escape c = ['\\', mark]) ∨
      (c.toNat < 32 ∧ escape c = ['\\', 'u', '0', '0', hexDigits.getD (c.toNat / 16) '0',
        hexDigits.getD (c.toNat % 16) '0']) ∨
      (c ≠ '"' ∧ c ≠ '\\' ∧ ¬ c.toNat < 32 ∧ escape c = [c]) := by
  unfold escape
  cases marked : escapes.lookup c with
  | some mark =>
      obtain ⟨before, after, split, _⟩ := List.lookup_eq_some_iff.mp marked
      obtain ⟨short, stands⟩ := unescape_mark (c, mark) (by rw [split]; simp)
      exact .inl ⟨mark, short, stands, rfl⟩
  | none =>
      by_cases control : c.toNat < 32
      · exact .inr (.inl ⟨control, if_pos control⟩)
      · refine .inr (.inr ⟨?_, ?_, control, if_neg control⟩)
        · intro same
          subst same
          cases marked
        · intro same
          subst same
          cases marked

/-- Each written character is read back, whatever follows. -/
theorem readChar_escape (c : Char) (rest : List Char) :
    readChar (escape c ++ rest) = some (c, rest) := by
  rcases escape_cases c with ⟨mark, short, stands, written⟩ | ⟨control, written⟩ |
    ⟨_, plain, printed, written⟩
  · rw [written]
    exact readChar_escaped short stands rest
  · have stands := unicode_control control
    rw [Char.ofNat_toNat] at stands
    rw [written]
    exact readChar_unicode stands rest
  · rw [written]
    exact readChar_plain plain printed rest

/-- No written character begins with a quote. -/
theorem head_escape (c : Char) (rest : List Char) : (escape c ++ rest).head? ≠ some '"' := by
  rcases escape_cases c with ⟨mark, _, _, written⟩ | ⟨_, written⟩ | ⟨plain, _, _, written⟩
  · simp [written]
  · simp [written]
  · simpa [written] using plain

theorem length_escape_pos (c : Char) : 1 ≤ (escape c).length := by
  rcases escape_cases c with ⟨mark, _, _, written⟩ | ⟨_, written⟩ | ⟨_, _, _, written⟩ <;>
    simp [written]

theorem readText_quoted (text rest : List Char) {fuel : Nat} (enough : text.length < fuel) :
    readText fuel (text.flatMap escape ++ '"' :: rest) = some (text, rest) := by
  induction text generalizing fuel with
  | nil =>
      obtain ⟨fuel, rfl⟩ : ∃ more, fuel = more + 1 := ⟨fuel - 1, by simp at enough; omega⟩
      simp [readText]
  | cons c text ih =>
      obtain ⟨fuel, rfl⟩ : ∃ more, fuel = more + 1 := ⟨fuel - 1, by simp at enough; omega⟩
      have later := @ih fuel (by simpa using enough)
      rw [List.flatMap_cons, List.append_assoc, readText, if_neg (head_escape c _), readChar_escape]
      simp [later]

/-! ## Lists and records -/

section Items

variable {α : Type}

def writeItems (close : Char) (write : α → List Char) : List α → List Char
  | [] => [close]
  | [item] => write item ++ [close]
  | item :: rest => write item ++ ',' :: writeItems close write rest

def readItems (close : Char) (read : List Char → Option (α × List Char)) :
    Nat → List Char → Option (List α × List Char)
  | 0, _ => none
  | fuel + 1, s => do
      let (item, rest) ← read s
      if rest.head? = some close then some ([item], rest.tail)
      else if rest.head? = some ',' then do
        let (items, after) ← readItems close read fuel rest.tail
        some (item :: items, after)
      else none

def readList (close : Char) (read : List Char → Option (α × List Char)) (s : List Char) :
    Option (List α × List Char) :=
  if s.head? = some close then some ([], s.tail) else readItems close read s.length s

variable {close : Char} {write : α → List Char} {read : List Char → Option (α × List Char)}

theorem length_le_writeItems (items : List α) :
    items.length ≤ (writeItems close write items).length := by
  induction items with
  | nil => simp
  | cons item rest ih =>
      cases rest with
      | nil => simp [writeItems]
      | cons second more =>
          simp only [writeItems, List.length_append, List.length_cons] at ih ⊢
          omega

theorem readItems_written (apart : close ≠ ',') (item : α) (items : List α)
    (reads : ∀ other ∈ item :: items, ∀ rest, read (write other ++ rest) = some (other, rest))
    (rest : List Char) {fuel : Nat} (enough : items.length < fuel) :
    readItems close read fuel (writeItems close write (item :: items) ++ rest) =
      some (item :: items, rest) := by
  induction items generalizing item fuel with
  | nil =>
      obtain ⟨fuel, rfl⟩ : ∃ more, fuel = more + 1 := ⟨fuel - 1, by omega⟩
      have own := reads item List.mem_cons_self (close :: rest)
      rw [writeItems, List.append_assoc, readItems, List.cons_append, List.nil_append, own]
      simp
  | cons second more ih =>
      obtain ⟨fuel, rfl⟩ : ∃ before, fuel = before + 1 := ⟨fuel - 1, by omega⟩
      have own := reads item List.mem_cons_self
        (',' :: writeItems close write (second :: more) ++ rest)
      have later := ih second (fun other member => reads other (.tail _ member))
        (show more.length < fuel by simpa using enough)
      rw [writeItems, List.append_assoc, readItems, own]
      · simp [later, apart.symm]
      · simp

/-- Written items are read back, when each item is and none begins with the bracket. -/
theorem readList_written (apart : close ≠ ',') (items : List α)
    (starts : ∀ item ∈ items, ∀ rest, (write item ++ rest).head? ≠ some close)
    (reads : ∀ item ∈ items, ∀ rest, read (write item ++ rest) = some (item, rest))
    (rest : List Char) :
    readList close read (writeItems close write items ++ rest) = some (items, rest) := by
  cases items with
  | nil => simp [readList, writeItems]
  | cons item more =>
      have first : (writeItems close write (item :: more) ++ rest).head? ≠ some close := by
        cases more with
        | nil => 
            rw [writeItems, List.append_assoc]
            exact starts item List.mem_cons_self _
        | cons second others =>
            rw [writeItems, List.append_assoc]
            · exact starts item List.mem_cons_self _
            · simp
      rw [readList, if_neg first]
      refine readItems_written apart item more reads rest ?_
      have counted := @length_le_writeItems _ close write (item :: more)
      simp only [List.length_append, List.length_cons] at counted ⊢
      omega

end Items

abbrev Member := List Char × List Char

def writeMember (entry : Member) : List Char := quote entry.1 ++ ':' :: quote entry.2

def readQuoted (s : List Char) : Option (List Char × List Char) :=
  if s.head? = some '"' then readText s.length s.tail else none

def readMember (s : List Char) : Option (Member × List Char) := do
  let (key, rest) ← readQuoted s
  if rest.head? = some ':' then do
    let (text, after) ← readQuoted rest.tail
    some ((key, text), after)
  else none

def writeRecord (members : List Member) : List Char := '{' :: writeItems '}' writeMember members

def readRecord (s : List Char) : Option (List Member × List Char) :=
  if s.head? = some '{' then readList '}' readMember s.tail else none

def stringify (records : List (List Member)) : List Char :=
  '[' :: writeItems ']' writeRecord records

/-- `JSON.parse`; none where the text is not a list of records of texts. -/
def parse (s : List Char) : Option (List (List Member)) :=
  if s.head? = some '[' then
    match readList ']' readRecord s.tail with
    | some (records, []) => some records
    | _ => none
  else none

theorem readQuoted_quote (text rest : List Char) :
    readQuoted (quote text ++ rest) = some (text, rest) := by
  have long : text.length ≤ (text.flatMap escape).length := by
    induction text with
    | nil => simp
    | cons c text ih =>
        have one := length_escape_pos c
        simp only [List.flatMap_cons, List.length_append, List.length_cons] at ih ⊢
        omega
  have enough : text.length < (quote text ++ rest).length := by
    simp only [quote, List.length_append, List.length_cons]
    omega
  have read := readText_quoted text rest enough
  simpa [readQuoted, quote] using read

theorem readMember_written (entry : Member) (rest : List Char) :
    readMember (writeMember entry ++ rest) = some (entry, rest) := by
  have key := readQuoted_quote entry.1 (':' :: (quote entry.2 ++ rest))
  have text := readQuoted_quote entry.2 rest
  simp [readMember, writeMember, key, text]

theorem readRecord_written (members : List Member) (rest : List Char) :
    readRecord (writeRecord members ++ rest) = some (members, rest) := by
  have read := readList_written (show '}' ≠ ',' by decide) members
    (fun entry _ after => by simp [writeMember, quote])
    (fun entry _ after => readMember_written entry after) rest
  simpa [readRecord, writeRecord] using read

/-- What is written is read back. -/
theorem parse_stringify (records : List (List Member)) :
    parse (stringify records) = some records := by
  have read := readList_written (show ']' ≠ ',' by decide) records
    (fun members _ after => by simp [writeRecord])
    (fun members _ after => readRecord_written members after) []
  rw [List.append_nil] at read
  simp [parse, stringify, read]

end ZabbixPortal.Foundation.JsonText
