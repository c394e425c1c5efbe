import ZabbixPortal.Export.PdfFonts
import ZabbixPortal.Export.Surrogates
import ZabbixPortal.Foundation.Bytes

/-! The strings of a PDF file, and how a reader takes them back. -/

set_option autoImplicit false

namespace ZabbixPortal.Export

open Foundation

section Writer

/-- `c.toString(8).padStart(3, '0')` -/
def octal (c : UInt8) : Buffer :=
  let digits := (Nat.toDigits 8 c.toNat).map Char.toUInt8
  List.replicate (3 - digits.length) 0x30 ++ digits

def escapeByte (c : UInt8) : Buffer :=
  if c = 40 ∨ c = 41 ∨ c = 92 then [92, c]
  else if c < 32 ∨ c > 126 then 92 :: octal c
  else [c]

/-- A string literal for a content stream: bytes outside printable ASCII go in as octal escapes. -/
def literal (s : WinAnsiText) : Buffer := 40 :: s.flatMap escapeByte ++ [41]

/-- `toWellFormed`: a lone surrogate becomes U+FFFD. -/
def toWellFormed : List UInt16 → List UInt16
  | [] => []
  | [u] => [if isPlain u then u else 0xFFFD]
  | u :: v :: rest =>
      if isHighSurrogate u && isLowSurrogate v then u :: v :: toWellFormed rest
      else (if isPlain u then u else 0xFFFD) :: toWellFormed (v :: rest)

/-- `Buffer.from(s, 'utf16le')` -/
def utf16le (s : List UInt16) : Buffer := s.flatMap fun u : UInt16 => [u.toUInt8, (u >>> (8 : UInt16)).toUInt8]

def swap16 : Buffer → Buffer
  | a :: b :: rest => b :: a :: swap16 rest
  | rest => rest

def hexDigit (nibble : UInt8) : UInt8 := if nibble < 10 then 0x30 + nibble else 0x57 + nibble

def toHex (bytes : Buffer) : Buffer :=
  bytes.flatMap fun b : UInt8 => [hexDigit (b >>> (4 : UInt8)), hexDigit (b &&& (15 : UInt8))]

def isPrintable (u : UInt16) : Bool := 0x20 ≤ u && u ≤ 0x7E

/-- A text string for the document dictionaries: plain ASCII, else UTF-16BE with a byte order mark. -/
def textString (s : List UInt16) : Buffer :=
  if s.all isPrintable then literal (s.map UInt16.toUInt8)
  else [0x3C, 0x46, 0x45, 0x46, 0x46] ++ toHex (swap16 (utf16le (toWellFormed s))) ++ [0x3E]

/-- WinAnsi 0x80 to 0x9F as Unicode; 0 marks the five codes the encoding leaves empty. -/
def WIN_HIGH : List Nat :=
  [0x20ac, 0, 0x201a, 0x0192, 0x201e, 0x2026, 0x2020, 0x2021, 0x02c6, 0x2030, 0x0160, 0x2039, 0x0152,
    0, 0x017d, 0, 0, 0x2018, 0x2019, 0x201c, 0x201d, 0x2022, 0x2013, 0x2014, 0x02dc, 0x2122, 0x0161,
    0x203a, 0x0153, 0, 0x017e, 0x0178]

def codeOf (u : Nat) : Option UInt8 :=
  if u = 0 then none else (WIN_HIGH.findIdx? (· = u)).map fun i => UInt8.ofNat (0x80 + i)

/-- A code point as its WinAnsi byte; controls become spaces, the rest becomes `?`. -/
def winAnsiByte (u : Nat) : UInt8 :=
  if u = 9 ∨ u = 10 ∨ u = 13 then SPACE
  else if (32 ≤ u ∧ u < 127) ∨ (160 ≤ u ∧ u ≤ 255) then UInt8.ofNat u
  else (codeOf u).getD 63

/-- Maps text to WinAnsi; `normalize` gives the code points of the text in normal form C. -/
def toWinAnsi (normalize : List UInt16 → List Nat) (s : List UInt16) : WinAnsiText :=
  (normalize s).map winAnsiByte

end Writer

section Reader

def isOctalDigit (c : UInt8) : Bool := 0x30 ≤ c && c ≤ 0x37

def octalValue (digits : Buffer) : Nat := digits.foldl (fun value c => 8 * value + (c.toNat - 0x30)) 0

def readEscape : Buffer → Buffer × Buffer
  | [] => ([], [])
  | c :: rest =>
      if isOctalDigit c then
        let digits := ((c :: rest).takeWhile isOctalDigit).take 3
        ([UInt8.ofNat (octalValue digits)], (c :: rest).drop digits.length)
      else if c = 0x6E then ([10], rest)
      else if c = 0x72 then ([13], rest)
      else if c = 0x74 then ([9], rest)
      else if c = 0x62 then ([8], rest)
      else if c = 0x66 then ([12], rest)
      -- a line break behind a backslash is no part of the string
      else if c = 13 then ([], if rest.head? = some 10 then rest.tail else rest)
      else if c = 10 then ([], rest)
      else ([c], rest)

theorem length_readEscape_le (text : Buffer) : (readEscape text).2.length ≤ text.length := by
  cases text with
  | nil => exact Nat.le_refl 0
  | cons c rest =>
      have tail : rest.tail.length ≤ rest.length := by
        rw [List.length_tail]
        exact Nat.sub_le _ _
      simp only [readEscape]
      split
      · rw [List.length_drop]
        exact Nat.sub_le _ _
      · repeat' split
        all_goals simp only [List.length_cons]
        all_goals omega

/-- The bytes of a literal string behind its opening parenthesis, and what follows the string;
`depth` counts the parentheses inside it that are open. -/
def readLiteral (depth : Nat) : Buffer → Option (Buffer × Buffer)
  | [] => none
  | c :: rest =>
      if c = 41 then
        match depth with
        | 0 => some ([], rest)
        | depth + 1 => (readLiteral depth rest).map fun read => (c :: read.1, read.2)
      else if c = 40 then (readLiteral (depth + 1) rest).map fun read => (c :: read.1, read.2)
      else if c = 92 then
        (readLiteral depth (readEscape rest).2).map fun read => ((readEscape rest).1 ++ read.1, read.2)
      else if c = 13 then
        -- every line break reads as a line feed
        (readLiteral depth (if rest.head? = some 10 then rest.tail else rest)).map fun read =>
          (10 :: read.1, read.2)
      else (readLiteral depth rest).map fun read => (c :: read.1, read.2)
termination_by text => text.length
decreasing_by
  all_goals simp only [List.length_cons]
  · omega
  · omega
  · exact Nat.lt_succ_of_le (length_readEscape_le rest)
  · split
    · rw [List.length_tail]
      omega
    · omega
  · omega

def isWhiteSpace (c : UInt8) : Bool := [0, 9, 10, 12, 13, 32].contains c

def hexValueOf (c : UInt8) : Option UInt8 :=
  if 0x30 ≤ c && c ≤ 0x39 then some (c - 0x30)
  else if 0x41 ≤ c && c ≤ 0x46 then some (c - 0x37)
  else if 0x61 ≤ c && c ≤ 0x66 then some (c - 0x57)
  else none

/-- The bytes of hexadecimal digits; a missing last digit is 0. -/
def readHex : Buffer → Option Buffer
  | [] => some []
  | [a] => (hexValueOf a).map fun high => [high <<< (4 : UInt8)]
  | a :: b :: rest =>
      (hexValueOf a).bind fun high => (hexValueOf b).bind fun low =>
        (readHex rest).map fun bytes => (high <<< (4 : UInt8) ||| low) :: bytes

def readUtf16be : Buffer → Option (List UInt16)
  | [] => some []
  | [_] => none
  | high :: low :: rest =>
      (readUtf16be rest).map fun units => (high.toUInt16 <<< (8 : UInt16) ||| low.toUInt16) :: units

def docEncoding (b : UInt8) : Option UInt16 := if 0x20 ≤ b && b ≤ 0x7E then some b.toUInt16 else none

def textOfBytes : Buffer → Option (List UInt16)
  | 0xFE :: 0xFF :: rest => readUtf16be rest
  | bytes => bytes.mapM docEncoding

def readString : Buffer → Option (Buffer × Buffer)
  | 40 :: rest => readLiteral 0 rest
  | 0x3C :: rest =>
      match rest.dropWhile (· ≠ 0x3E) with
      | [] => none
      | _ :: behind =>
          (readHex ((rest.takeWhile (· ≠ 0x3E)).filter fun c => !isWhiteSpace c)).map fun bytes =>
            (bytes, behind)
  | _ => none

/-- A text string in a file. Marks for a language inside UTF-16 are taken as they stand. -/
def readTextString (text : Buffer) : Option (List UInt16 × Buffer) :=
  (readString text).bind fun read => (textOfBytes read.1).map fun text => (text, read.2)

end Reader

end ZabbixPortal.Export
