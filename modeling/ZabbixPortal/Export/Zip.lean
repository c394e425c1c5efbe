import ZabbixPortal.Foundation.Bytes
import ZabbixPortal.Foundation.Calendar

/-! A minimal ZIP writer. Plain ZIP only: a package that outgrows the 16-bit and 32-bit fields
fails loudly. -/

set_option autoImplicit false

namespace ZabbixPortal.Export

open Foundation

/-- The runtime's compression and checksum; what it deflates, it inflates back. -/
structure Zlib where
  crc32 : Buffer → UInt32
  deflateRaw : Buffer → Buffer
  inflateRaw : Buffer → Option Buffer
  inflate_deflate : ∀ data, inflateRaw (deflateRaw data) = some data

structure ZipEntry where
  name : String
  data : Buffer
deriving DecidableEq, Repr

inductive ZipError where
  | rangeError (message : String)
  | error (message : String)
  | outOfRange
deriving DecidableEq, Repr

def MAX_ENTRIES : Nat := 0xffff

/-- 0xffffffff itself is zip64's marker, so a plain zip stays below it. -/
def MAX_BYTES : Nat := 0xffffffff

def CONTENT_TYPES : String := "[Content_Types].xml"

/-- `Buffer.from(text, 'utf8')` -/
def utf8 (text : String) : Buffer := text.toUTF8.data.toList

structure DosStamp where
  date : Nat
  time : Nat
deriving DecidableEq, Repr

/-- MS-DOS date and time fields in UTC, of milliseconds since the epoch; none is an invalid
date. -/
def dosStamp (now : Option ℤ) : DosStamp :=
  let year := now.map fun ms => (CivilDate.dateOf (ms / 86400000)).year
  let ms := if year.any fun year => 1980 ≤ year && year ≤ 2107 then now.getD 0
    else (CivilDate.mk 1980 1 1).dayNumber * 86400000
  let d := CivilDate.dateOf (ms / 86400000)
  let seconds := (ms % 86400000 / 1000).toNat
  { date := ((d.year - 1980).toNat <<< 9) ||| (d.month.toNat <<< 5) ||| d.day.toNat
    time := ((seconds / 3600) <<< 11) ||| ((seconds / 60 % 60) <<< 5) ||| ((seconds % 60) >>> 1) }

/-- Parts that do not shrink are stored, since deflate would only add bytes. -/
def pack (zlib : Zlib) (data : Buffer) : Nat × Buffer :=
  let deflated := zlib.deflateRaw data
  if deflated.length < data.length then (8, deflated) else (0, data)

structure ZipFields where
  needed : Nat
  flags : Nat
  method : Nat
  time : Nat
  date : Nat
  crc : Nat
  compressed : Nat
  size : Nat
  nameLength : Nat
deriving DecidableEq, Repr

def zipFields (zlib : Zlib) (stamp : DosStamp) (entry : ZipEntry) : ZipFields :=
  let (method, body) := pack zlib entry.data
  { needed := if method = 8 then 20 else 10
    flags := 0x0800 -- names are UTF-8
    method
    time := stamp.time
    date := stamp.date
    crc := (zlib.crc32 entry.data).toNat
    compressed := body.length
    size := entry.data.length
    nameLength := (utf8 entry.name).length }

def localHeader (fields : ZipFields) : Option Buffer := do
  let header ← writeUInt 4 0x04034b50 0 (alloc 30)
  let header ← writeUInt 2 fields.needed 4 header
  let header ← writeUInt 2 fields.flags 6 header
  let header ← writeUInt 2 fields.method 8 header
  let header ← writeUInt 2 fields.time 10 header
  let header ← writeUInt 2 fields.date 12 header
  let header ← writeUInt 4 fields.crc 14 header
  let header ← writeUInt 4 fields.compressed 18 header
  let header ← writeUInt 4 fields.size 22 header
  writeUInt 2 fields.nameLength 26 header

def centralHeader (fields : ZipFields) (offset : Nat) : Option Buffer := do
  let header ← writeUInt 4 0x02014b50 0 (alloc 46)
  let header ← writeUInt 2 20 4 header
  let header ← writeUInt 2 fields.needed 6 header
  let header ← writeUInt 2 fields.flags 8 header
  let header ← writeUInt 2 fields.method 10 header
  let header ← writeUInt 2 fields.time 12 header
  let header ← writeUInt 2 fields.date 14 header
  let header ← writeUInt 4 fields.crc 16 header
  let header ← writeUInt 4 fields.compressed 20 header
  let header ← writeUInt 4 fields.size 24 header
  let header ← writeUInt 2 fields.nameLength 28 header
  writeUInt 4 offset 42 header

def endRecord (count directoryLength offset : Nat) : Option Buffer := do
  let record ← writeUInt 4 0x06054b50 0 (alloc 22)
  let record ← writeUInt 2 count 8 record
  let record ← writeUInt 2 count 10 record
  let record ← writeUInt 4 directoryLength 12 record
  writeUInt 4 offset 16 record

structure Writing where
  seen : List String
  locals : List Buffer
  centrals : List Buffer
  offset : Nat
deriving DecidableEq, Repr

def zipEntry (zlib : Zlib) (stamp : DosStamp) (state : Writing) (entry : ZipEntry) :
    Except ZipError Writing :=
  let name := utf8 entry.name
  if name.length = 0 ∨ name.length > 0xffff then
    .error (.rangeError ("Bad zip entry name length: " ++ toString name.length ++ "."))
  else if entry.name ∈ state.seen then .error (.error ("Duplicate zip entry: " ++ entry.name))
  else if entry.data.length ≥ MAX_BYTES then
    .error (.rangeError ("Zip entry " ++ entry.name ++ " is over 4 GiB; zip64 is not supported."))
  else
    let body := (pack zlib entry.data).2
    let fields := zipFields zlib stamp entry
    match localHeader fields, centralHeader fields state.offset with
    | some header, some central =>
        let offset := state.offset + (header.length + name.length + body.length)
        if offset ≥ MAX_BYTES then
          .error (.rangeError "The zip passes 4 GiB; zip64 is not supported.")
        else .ok {
          seen := entry.name :: state.seen
          locals := state.locals ++ [header, name, body]
          centrals := state.centrals ++ [central, name]
          offset }
    | _, _ => .error .outOfRange

def zipEntries (zlib : Zlib) (stamp : DosStamp) :
    Writing → List ZipEntry → Except ZipError Writing
  | state, [] => .ok state
  | state, entry :: rest =>
      match zipEntry zlib stamp state entry with
      | .error error => .error error
      | .ok next => zipEntries zlib stamp next rest

/-- The content-types part leads, the others keep their order. -/
def orderedEntries (entries : List ZipEntry) : List ZipEntry :=
  (entries.filter fun e => e.name = CONTENT_TYPES) ++
    entries.filter fun e => e.name ≠ CONTENT_TYPES

def zip (zlib : Zlib) (entries : List ZipEntry) (now : Option ℤ) : Except ZipError Buffer :=
  if entries.length > MAX_ENTRIES then
    .error (.rangeError ("A zip holds at most " ++ toString MAX_ENTRIES ++
      " entries without zip64; got " ++ toString entries.length ++ "."))
  else
    let ordered := orderedEntries entries
    match zipEntries zlib (dosStamp now) ⟨[], [], [], 0⟩ ordered with
    | .error error => .error error
    | .ok state =>
        let directory := state.centrals.flatten
        match endRecord ordered.length directory.length state.offset with
        | none => .error .outOfRange
        | some record => .ok (state.locals.flatten ++ directory ++ record)

end ZabbixPortal.Export
