import ZabbixPortal.Export.Zip

/-! A standard reader of plain ZIP files: from the end record over the central directory to
each part. -/

set_option autoImplicit false

namespace ZabbixPortal.Export

open Foundation

/-- Zip64's markers: the value stands in a zip64 record instead, and a plain zip has none. -/
def ENTRIES_MARKER : Nat := 0xffff

def BYTES_MARKER : Nat := 0xffffffff

structure ZipPart where
  name : String
  data : Buffer
  fields : ZipFields
  offset : Nat
deriving DecidableEq, Repr

def readFields (position : Nat) (file : Buffer) : Option ZipFields := do
  let needed ← readUInt 2 position file
  let flags ← readUInt 2 (position + 2) file
  let method ← readUInt 2 (position + 4) file
  let time ← readUInt 2 (position + 6) file
  let date ← readUInt 2 (position + 8) file
  let crc ← readUInt 4 (position + 10) file
  let compressed ← readUInt 4 (position + 14) file
  let size ← readUInt 4 (position + 18) file
  let nameLength ← readUInt 2 (position + 22) file
  pure { needed, flags, method, time, date, crc, compressed, size, nameLength }

def unpack (zlib : Zlib) (method : Nat) (body : Buffer) : Option Buffer :=
  if method = 0 then some body else if method = 8 then zlib.inflateRaw body else none

/-- The part whose local header stands at an offset: that header says what the central one
says, and the data has the size and the checksum of both. -/
def readPart (zlib : Zlib) (file : Buffer) (fields : ZipFields) (name : Buffer) (offset : Nat) :
    Option ZipPart := do
  guard ((← readUInt 4 offset file) = 0x04034b50)
  guard ((← readFields (offset + 4) file) = fields)
  let extra ← readUInt 2 (offset + 28) file
  guard ((← readBytes (offset + 30) fields.nameLength file) = name)
  let body ← readBytes (offset + 30 + fields.nameLength + extra) fields.compressed file
  let data ← unpack zlib fields.method body
  guard (data.length = fields.size ∧ (zlib.crc32 data).toNat = fields.crc)
  let name ← String.fromUTF8? ⟨name.toArray⟩
  pure { name, data, fields, offset }

def readCentral (zlib : Zlib) (file : Buffer) (position : Nat) : Option (ZipPart × Nat) := do
  guard ((← readUInt 4 position file) = 0x02014b50)
  let fields ← readFields (position + 6) file
  let extra ← readUInt 2 (position + 30) file
  let comment ← readUInt 2 (position + 32) file
  let offset ← readUInt 4 (position + 42) file
  guard (fields.compressed ≠ BYTES_MARKER ∧ fields.size ≠ BYTES_MARKER ∧ offset ≠ BYTES_MARKER)
  let name ← readBytes (position + 46) fields.nameLength file
  let part ← readPart zlib file fields name offset
  pure (part, position + 46 + fields.nameLength + extra + comment)

def readDirectory (zlib : Zlib) (file : Buffer) : Nat → Nat → Option (List ZipPart × Nat)
  | 0, position => some ([], position)
  | count + 1, position => do
      let (part, next) ← readCentral zlib file position
      let (parts, stop) ← readDirectory zlib file count next
      pure (part :: parts, stop)

/-- The end record: from the end of the file backwards, the first one whose comment takes
what is left of the file. -/
def findEnd (file : Buffer) : Option Nat :=
  (List.range 0x10000).findSome? fun comment =>
    let position := file.length - (22 + comment)
    if 22 + comment ≤ file.length ∧ readUInt 4 position file = some 0x06054b50 ∧
        readUInt 2 (position + 20) file = some comment then some position
    else none

def unzip (zlib : Zlib) (file : Buffer) : Option (List ZipPart) := do
  let position ← findEnd file
  let count ← readUInt 2 (position + 10) file
  guard ((← readUInt 2 (position + 8) file) = count)
  let length ← readUInt 4 (position + 12) file
  let offset ← readUInt 4 (position + 16) file
  guard (count ≠ ENTRIES_MARKER ∧ length ≠ BYTES_MARKER ∧ offset ≠ BYTES_MARKER)
  let (parts, stop) ← readDirectory zlib file count offset
  guard (stop = offset + length)
  pure parts

structure AtOwnHeader (file : Buffer) (part : ZipPart) : Prop where
  signature : readUInt 4 part.offset file = some 0x04034b50
  fields : readFields (part.offset + 4) file = some part.fields
  name : readBytes (part.offset + 30) (utf8 part.name).length file = some (utf8 part.name)

structure PartMatches (zlib : Zlib) (file : Buffer) (part : ZipPart) : Prop where
  size : part.fields.size = part.data.length
  crc : part.fields.crc = (zlib.crc32 part.data).toNat
  header : AtOwnHeader file part

/-- A file reads back as these entries, the content-types part first. -/
def ReadsBack (zlib : Zlib) (entries : List ZipEntry) (file : Buffer) : Prop :=
  ∃ parts, unzip zlib file = some parts ∧
    parts.map (fun part => ⟨part.name, part.data⟩) = orderedEntries entries ∧
    ∀ part ∈ parts, PartMatches zlib file part

end ZabbixPortal.Export
