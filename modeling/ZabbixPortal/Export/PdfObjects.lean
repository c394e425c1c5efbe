import ZabbixPortal.Foundation.Bytes
import ZabbixPortal.Foundation.Decimal
import Mathlib.Algebra.GroupWithZero.Nat

/-! The objects of a PDF file and its cross-reference table, and how a reader finds them. -/

set_option autoImplicit false

namespace ZabbixPortal.Export

open Foundation

/-- `Buffer.from(text, 'latin1')` for the writer's own texts, whose characters are below 256. -/
def latin1 (text : List Char) : Buffer := text.map Char.toUInt8

def digitsOf (number : Nat) : List Char := (toString number).toList

/-- A body as it is handed over: a string, of which `latin1` keeps the low bytes, or a buffer. -/
inductive PdfBody
  | text (units : List UInt16)
  | buffer (bytes : Buffer)

def PdfBody.bytes : PdfBody → Buffer
  | .text units => units.map UInt16.toUInt8
  | .buffer bytes => bytes

def streamHead (dict : List UInt16) (data : Buffer) : Buffer :=
  latin1 "<< ".toList ++ dict.map UInt16.toUInt8 ++ latin1 " /Length ".toList ++
    latin1 (digitsOf data.length) ++ latin1 " >>\nstream\n".toList

def streamBody (dict : List UInt16) (data : Buffer) : Buffer :=
  streamHead dict data ++ data ++ latin1 "\nendstream".toList

/-- Object bodies by number, written out in order with an exact cross-reference table. -/
structure Objects where
  bodies : List Buffer

structure Laid where
  parts : List Buffer
  size : Nat
  offsets : List Nat

def objectHead (id : Nat) : Buffer := latin1 (digitsOf id ++ " 0 obj\n".toList)

def wrapped (id : Nat) (body : Buffer) : Buffer :=
  objectHead id ++ body ++ latin1 "\nendobj\n".toList

def Laid.push (laid : Laid) (body : Buffer) (i : Nat) : Laid where
  parts := laid.parts ++ [wrapped (i + 1) body]
  size := laid.size + (wrapped (i + 1) body).length
  offsets := laid.offsets ++ [laid.size]

/-- `%PDF-1.4` and a comment of four bytes that are no ASCII. -/
def fileHeader : Buffer := latin1 "%PDF-1.4\n%\xe2\xe3\xcf\xd3\n".toList

/-- `String(o).padStart(10, '0')` -/
def padTen (offset : Nat) : List Char :=
  List.replicate (10 - (digitsOf offset).length) '0' ++ digitsOf offset

def xrefRef (offset : Nat) : Buffer := latin1 (padTen offset ++ " 00000 n \n".toList)

def FREE_HEAD : Buffer := latin1 "0000000000 65535 f \n".toList

def xrefText (offsets : List Nat) : Buffer :=
  latin1 ("xref\n0 ".toList ++ digitsOf (offsets.length + 1) ++ "\n".toList) ++ FREE_HEAD ++
    offsets.flatMap xrefRef

def trailerText (count root info size : Nat) (id : List Char) : Buffer :=
  latin1 ("trailer\n<< /Size ".toList ++ digitsOf count ++ " /Root ".toList ++ digitsOf root ++
    " 0 R /Info ".toList ++ digitsOf info ++ " 0 R /ID [<".toList ++ id ++ "> <".toList ++ id ++
    ">] >>\nstartxref\n".toList ++ digitsOf size ++ "\n%%EOF\n".toList)

namespace Objects

def empty : Objects := ⟨[]⟩

def reserve (o : Objects) (count : Nat) : Nat × Objects :=
  (o.bodies.length + 1, ⟨o.bodies ++ List.replicate count (alloc 0)⟩)

def Reserved (o : Objects) (id : Nat) : Prop := 1 ≤ id ∧ id ≤ o.bodies.length

def set (o : Objects) (id : Nat) (body : PdfBody) : Objects := ⟨o.bodies.set (id - 1) body.bytes⟩

def stream (o : Objects) (id : Nat) (dict : List UInt16) (data : Buffer) : Objects :=
  o.set id (.buffer (streamBody dict data))

def layOut (o : Objects) : Laid :=
  o.bodies.zipIdx.foldl (fun laid entry => laid.push entry.1 entry.2)
    ⟨[fileHeader], fileHeader.length, []⟩

/-- `md5` gives the digest in hexadecimal digits. -/
def write (md5 : Buffer → List Char) (o : Objects) (root info : Nat) : Buffer :=
  let laid := o.layOut
  let parts := laid.parts ++ [xrefText laid.offsets]
  let id := md5 parts.flatten
  (parts ++ [trailerText (laid.offsets.length + 1) root info laid.size id]).flatten

end Objects

section Calls

inductive ObjectCall
  | reserve (count : Nat)
  | set (id : Nat) (body : PdfBody)
  | stream (id : Nat) (dict : List UInt16) (data : Buffer)

/-- Calls in order, each on an id that was reserved before it. -/
inductive ObjectRun : List ObjectCall → Objects → Prop
  | nil : ObjectRun [] .empty
  | reserve {calls : List ObjectCall} {o : Objects} (count : Nat) :
      ObjectRun calls o → ObjectRun (calls ++ [.reserve count]) (o.reserve count).2
  | set {calls : List ObjectCall} {o : Objects} {id : Nat} (body : PdfBody) :
      ObjectRun calls o → o.Reserved id → ObjectRun (calls ++ [.set id body]) (o.set id body)
  | stream {calls : List ObjectCall} {o : Objects} {id : Nat} (dict : List UInt16)
      (data : Buffer) : ObjectRun calls o → o.Reserved id →
      ObjectRun (calls ++ [.stream id dict data]) (o.stream id dict data)

def ObjectCall.reserves : ObjectCall → Nat
  | .reserve count => count
  | _ => 0

def reservedBy (calls : List ObjectCall) : Nat := (calls.map ObjectCall.reserves).sum

def ObjectCall.bodyFor (id : Nat) : ObjectCall → Option Buffer
  | .reserve _ => none
  | .set i body => if i = id then some body.bytes else none
  | .stream i dict data => if i = id then some (streamBody dict data) else none

/-- The body last set for an id; one that was never set is empty. -/
def lastBody (id : Nat) (calls : List ObjectCall) : Buffer :=
  (calls.reverse.findSome? (ObjectCall.bodyFor id)).getD []

end Calls

section Reader

def charsOf (bytes : Buffer) : List Char := bytes.map fun b => Char.ofNat b.toNat

def numberOf (bytes : Buffer) : Option Nat :=
  if bytes ≠ [] ∧ (charsOf bytes).all Char.isDigit then some (Nat.ofDigitChars 10 (charsOf bytes) 0)
  else none

def startXref (file : Buffer) : Option Nat :=
  match file.reverse.splitOn 10 with
  | [] :: mark :: digits :: word :: _ =>
      if mark.reverse = latin1 "%%EOF".toList ∧ word.reverse = latin1 "startxref".toList then
        numberOf digits.reverse
      else none
  | _ => none

inductive XrefEntry
  | free (next generation : Nat)
  | inUse (offset generation : Nat)
deriving DecidableEq, Repr

/-- An entry has 20 bytes: ten digits, five digits, a letter, and a break of two bytes. -/
def readEntry (bytes : Buffer) : Option XrefEntry :=
  if bytes.length = 20 ∧ (bytes.drop 10).take 1 = [32] ∧ (bytes.drop 16).take 1 = [32] ∧
      bytes.drop 18 = [32, 10] then
    (numberOf (bytes.take 10)).bind fun first =>
      (numberOf ((bytes.drop 11).take 5)).bind fun second =>
        if (bytes.drop 17).take 1 = latin1 ['n'] then some (.inUse first second)
        else if (bytes.drop 17).take 1 = latin1 ['f'] then some (.free first second)
        else none
  else none

def readEntries : Nat → Buffer → Option (List XrefEntry × Buffer)
  | 0, text => some ([], text)
  | count + 1, text =>
      (readEntry (text.take 20)).bind fun entry =>
        (readEntries count (text.drop 20)).map fun read => (entry :: read.1, read.2)

def readXref (file : Buffer) (offset : Nat) : Option (List XrefEntry × Buffer) :=
  let start := latin1 "xref\n0 ".toList
  let table := file.drop offset
  if table.take start.length = start then
    let digits := (table.drop start.length).takeWhile (· ≠ 10)
    (numberOf digits).bind fun count =>
      readEntries count (table.drop (start.length + digits.length + 1))
  else none

end Reader

end ZabbixPortal.Export
