import ZabbixPortal.Foundation.Bytes
import ZabbixPortal.Foundation.Chunks

/-! `TextDecoder` for UTF-8, fed byte by byte: malformed bytes become U+FFFD, and one byte order
mark at the start is left out. -/

set_option autoImplicit false

namespace ZabbixPortal.Foundation

/-- Inside a character: its bits so far, the bytes still missing and the bounds of the next. -/
structure Utf8State where
  point : Nat
  missing : Nat
  lower : UInt8
  upper : UInt8
deriving DecidableEq, Repr

def Utf8State.start : Utf8State := ⟨0, 0, 0x80, 0xBF⟩

def REPLACEMENT : Nat := 0xFFFD

def BYTE_ORDER_MARK : Nat := 0xFEFF

def firstByte (b : UInt8) : Utf8State × List Nat :=
  if b ≤ 0x7F then (.start, [b.toNat])
  else if 0xC2 ≤ b ∧ b ≤ 0xDF then (⟨b.toNat % 0x20, 1, 0x80, 0xBF⟩, [])
  else if 0xE0 ≤ b ∧ b ≤ 0xEF then
    (⟨b.toNat % 0x10, 2, if b = 0xE0 then 0xA0 else 0x80, if b = 0xED then 0x9F else 0xBF⟩, [])
  else if 0xF0 ≤ b ∧ b ≤ 0xF4 then
    (⟨b.toNat % 8, 3, if b = 0xF0 then 0x90 else 0x80, if b = 0xF4 then 0x8F else 0xBF⟩, [])
  else (.start, [REPLACEMENT])

/-- One byte; one that cannot continue a character ends it and starts anew. -/
def utf8Byte (s : Utf8State) (b : UInt8) : Utf8State × List Nat :=
  if s.missing = 0 then firstByte b
  else if b < s.lower ∨ s.upper < b then
    let next := firstByte b
    (next.1, REPLACEMENT :: next.2)
  else
    let point := s.point * 0x40 + b.toNat % 0x40
    if s.missing = 1 then (.start, [point]) else (⟨point, s.missing - 1, 0x80, 0xBF⟩, [])

def unitsOfPoint (point : Nat) : List UInt16 :=
  if point < 0x10000 then [UInt16.ofNat point]
  else [UInt16.ofNat (0xD800 + (point - 0x10000) / 0x400),
    UInt16.ofNat (0xDC00 + (point - 0x10000) % 0x400)]

structure TextDecoder where
  utf8 : Utf8State
  /-- Whether a first character has come, a byte order mark or another one. -/
  bomSeen : Bool
deriving DecidableEq, Repr

namespace TextDecoder

def new : TextDecoder := ⟨.start, false⟩

def emit (bomSeen : Bool) : List Nat → List UInt16
  | [] => []
  | point :: rest =>
      if !bomSeen && point = BYTE_ORDER_MARK then rest.flatMap unitsOfPoint
      else (point :: rest).flatMap unitsOfPoint

def byte (d : TextDecoder) (b : UInt8) : TextDecoder × List UInt16 :=
  let next := utf8Byte d.utf8 b
  (⟨next.1, d.bomSeen || !next.2.isEmpty⟩, emit d.bomSeen next.2)

/-- `decoder.decode(value, { stream: true })` -/
def decode (d : TextDecoder) (value : Buffer) : TextDecoder × List UInt16 := feed byte d value

/-- `decoder.decode()`: a character that lacks bytes is malformed. -/
def flush (d : TextDecoder) : List UInt16 :=
  if d.utf8.missing = 0 then [] else emit d.bomSeen [REPLACEMENT]

def textOf (bytes : Buffer) : List UInt16 := (new.decode bytes).2 ++ (new.decode bytes).1.flush

theorem decode_append (d : TextDecoder) (value more : Buffer) :
    d.decode (value ++ more) =
      (((d.decode value).1.decode more).1, (d.decode value).2 ++ ((d.decode value).1.decode more).2) :=
  feed_append byte d value more

/-- A character that is cut in two reads as a whole one. -/
example : textOf [0xEF, 0xBB, 0xBF, 0xE2, 0x82, 0xAC, 0xFF, 0xF0, 0x9F, 0x98] = [0x20AC, 0xFFFD, 0xFFFD] := by
  decide

end TextDecoder

end ZabbixPortal.Foundation
