import ZabbixPortal.Export.ZipReader
import Mathlib.Data.Nat.Bitwise

/-! The records of a zip file: what each header is byte for byte, and what is read where one
stands. -/

set_option autoImplicit false

namespace ZabbixPortal.Export

open Foundation

section Headers

structure ZipFields.Fit (fields : ZipFields) : Prop where
  needed : fields.needed < 256 ^ 2
  flags : fields.flags < 256 ^ 2
  method : fields.method < 256 ^ 2
  time : fields.time < 256 ^ 2
  date : fields.date < 256 ^ 2
  crc : fields.crc < 256 ^ 4
  compressed : fields.compressed < 256 ^ 4
  size : fields.size < 256 ^ 4
  nameLength : fields.nameLength < 256 ^ 2

def fieldBytes (fields : ZipFields) : Buffer :=
  encodeLE 2 fields.needed ++ encodeLE 2 fields.flags ++ encodeLE 2 fields.method ++
    encodeLE 2 fields.time ++ encodeLE 2 fields.date ++ encodeLE 4 fields.crc ++
    encodeLE 4 fields.compressed ++ encodeLE 4 fields.size ++ encodeLE 2 fields.nameLength

def localBytes (fields : ZipFields) : Buffer :=
  encodeLE 4 0x04034b50 ++ fieldBytes fields ++ alloc 2

def centralBytes (fields : ZipFields) (offset : Nat) : Buffer :=
  encodeLE 4 0x02014b50 ++ encodeLE 2 20 ++ fieldBytes fields ++ alloc 12 ++ encodeLE 4 offset

def endBytes (count length offset : Nat) : Buffer :=
  encodeLE 4 0x06054b50 ++ alloc 4 ++ encodeLE 2 count ++ encodeLE 2 count ++
    encodeLE 4 length ++ encodeLE 4 offset ++ alloc 2

theorem localHeader_eq {fields : ZipFields} (fit : fields.Fit) :
    localHeader fields = some (localBytes fields) := by
  simp only [localHeader, Option.bind_eq_bind]
  rw [← List.nil_append (alloc 30),
    writeUInt_alloc 0 26 (by decide) (by simp) (by rfl), Option.bind_some,
    writeUInt_alloc 0 24 fit.needed (by simp) (by rfl), Option.bind_some,
    writeUInt_alloc 0 22 fit.flags (by simp) (by rfl), Option.bind_some,
    writeUInt_alloc 0 20 fit.method (by simp) (by rfl), Option.bind_some,
    writeUInt_alloc 0 18 fit.time (by simp) (by rfl), Option.bind_some,
    writeUInt_alloc 0 16 fit.date (by simp) (by rfl), Option.bind_some,
    writeUInt_alloc 0 12 fit.crc (by simp) (by rfl), Option.bind_some,
    writeUInt_alloc 0 8 fit.compressed (by simp) (by rfl), Option.bind_some,
    writeUInt_alloc 0 4 fit.size (by simp) (by rfl), Option.bind_some,
    writeUInt_alloc 0 2 fit.nameLength (by simp) (by rfl)]
  simp only [localBytes, fieldBytes, alloc_zero, List.nil_append, List.append_nil,
    List.append_assoc]

theorem centralHeader_eq {fields : ZipFields} {offset : Nat} (fit : fields.Fit)
    (fits : offset < 256 ^ 4) :
    centralHeader fields offset = some (centralBytes fields offset) := by
  simp only [centralHeader, Option.bind_eq_bind]
  rw [← List.nil_append (alloc 46),
    writeUInt_alloc 0 42 (by decide) (by simp) (by rfl), Option.bind_some,
    writeUInt_alloc 0 40 (by decide) (by simp) (by rfl), Option.bind_some,
    writeUInt_alloc 0 38 fit.needed (by simp) (by rfl), Option.bind_some,
    writeUInt_alloc 0 36 fit.flags (by simp) (by rfl), Option.bind_some,
    writeUInt_alloc 0 34 fit.method (by simp) (by rfl), Option.bind_some,
    writeUInt_alloc 0 32 fit.time (by simp) (by rfl), Option.bind_some,
    writeUInt_alloc 0 30 fit.date (by simp) (by rfl), Option.bind_some,
    writeUInt_alloc 0 26 fit.crc (by simp) (by rfl), Option.bind_some,
    writeUInt_alloc 0 22 fit.compressed (by simp) (by rfl), Option.bind_some,
    writeUInt_alloc 0 18 fit.size (by simp) (by rfl), Option.bind_some,
    writeUInt_alloc 0 16 fit.nameLength (by simp) (by rfl), Option.bind_some,
    writeUInt_alloc 12 0 fits (by simp) (by rfl)]
  simp only [centralBytes, fieldBytes, alloc_zero, List.nil_append, List.append_nil,
    List.append_assoc]

/-- Only a directory too long for its field keeps the end record from being written. -/
theorem endRecord_eq {count length offset : Nat} (counted : count < 256 ^ 2)
    (fits : offset < 256 ^ 4) :
    endRecord count length offset =
      if length < 256 ^ 4 then some (endBytes count length offset) else none := by
  simp only [endRecord, Option.bind_eq_bind]
  rw [← List.nil_append (alloc 22),
    writeUInt_alloc 0 18 (by decide) (by simp) (by rfl), Option.bind_some,
    writeUInt_alloc 4 12 counted (by simp) (by rfl), Option.bind_some,
    writeUInt_alloc 0 10 counted (by simp) (by rfl), Option.bind_some]
  split_ifs with short
  · rw [
writeUInt_alloc 0 6 short (by simp) (by rfl), Option.bind_some,
      writeUInt_alloc 0 2 fits (by simp) (by rfl)]
    simp only [endBytes, alloc_zero, List.nil_append, List.append_nil]
  · rw [writeUInt_of_large (by omega), Option.bind_none]

theorem readFields_eq {fields : ZipFields} {position : Nat} {file : Buffer}
    (stands : StandsAt (fieldBytes fields) position file) (fit : fields.Fit) :
    readFields position file = some fields := by
  have needed : readUInt 2 position file = some fields.needed := stands.reads 0 rfl fit.needed
  have flags := stands.reads 2 rfl fit.flags
  have method := stands.reads 4 rfl fit.method
  have time := stands.reads 6 rfl fit.time
  have date := stands.reads 8 rfl fit.date
  have crc := stands.reads 10 rfl fit.crc
  have compressed := stands.reads 14 rfl fit.compressed
  have size := stands.reads 18 rfl fit.size
  have nameLength := stands.reads 22 rfl fit.nameLength
  simp only [readFields, needed, flags, method, time, date, crc, compressed, size, nameLength,
    Option.bind_eq_bind, Option.bind_some, Option.pure_def]

theorem length_fieldBytes (fields : ZipFields) : (fieldBytes fields).length = 24 := by
  simp [fieldBytes]

theorem length_localBytes (fields : ZipFields) : (localBytes fields).length = 30 := by
  simp [localBytes, length_fieldBytes]

theorem length_centralBytes (fields : ZipFields) (offset : Nat) :
    (centralBytes fields offset).length = 46 := by
  simp [centralBytes, length_fieldBytes]

theorem length_endBytes (count length offset : Nat) :
    (endBytes count length offset).length = 22 := by
  simp [endBytes]

end Headers

section Values

theorem fromUTF8_utf8 (text : String) : String.fromUTF8? ⟨(utf8 text).toArray⟩ = some text := by
  have bytes : (⟨(utf8 text).toArray⟩ : ByteArray) = text.toByteArray := rfl
  rw [bytes, String.fromUTF8?, dif_pos text.isValidUTF8]
  rfl

theorem dosStamp_fits (now : Option ℤ) :
    (dosStamp now).date < 256 ^ 2 ∧ (dosStamp now).time < 256 ^ 2 := by
  unfold dosStamp
  simp only
  generalize chosen : (if (now.map fun ms => (CivilDate.dateOf (ms / 86400000)).year).any
    (fun year => 1980 ≤ year && year ≤ 2107) then now.getD 0
    else (CivilDate.mk 1980 1 1).dayNumber * 86400000) = ms
  have year : 1980 ≤ (CivilDate.dateOf (ms / 86400000)).year ∧
      (CivilDate.dateOf (ms / 86400000)).year ≤ 2107 := by
    cases now with
    | none =>
        rw [← chosen]
        decide +kernel
    | some given =>
        simp only [Option.map_some, Option.any_some, Option.getD_some] at chosen
        split_ifs at chosen with within
        · rw [← chosen]
          simpa using within
        · rw [← chosen]
          decide +kernel
  have valid := CivilDate.dateOf_valid (ms / 86400000)
  have month := valid.month
  have day := valid.day
  have short : (CivilDate.dateOf (ms / 86400000)).day < 2 ^ 7 := by
    rw [CivilDate.daysIn, CivilDate.daysBefore, CivilDate.daysBefore] at day
    split_ifs at day <;> omega
  have half : ∀ seconds : Nat, (seconds % 60) >>> 1 < 2 ^ 16 := by
    intro seconds
    rw [Nat.shiftRight_eq_div_pow]
    omega
  have hours : ((ms % 86400000 / 1000).toNat / 3600) <<< 11 < 2 ^ 16 := by
    rw [Nat.shiftLeft_eq]
    omega
  have minutes : ((ms % 86400000 / 1000).toNat / 60 % 60) <<< 5 < 2 ^ 16 := by
    rw [Nat.shiftLeft_eq]
    omega
  have years : ((CivilDate.dateOf (ms / 86400000)).year - 1980).toNat <<< 9 < 2 ^ 16 := by
    rw [Nat.shiftLeft_eq]
    omega
  have months : (CivilDate.dateOf (ms / 86400000)).month.toNat <<< 5 < 2 ^ 16 := by
    rw [Nat.shiftLeft_eq]
    omega
  have days : (CivilDate.dateOf (ms / 86400000)).day.toNat < 2 ^ 16 := by omega
  exact ⟨Nat.or_lt_two_pow (Nat.or_lt_two_pow years months) days,
    Nat.or_lt_two_pow (Nat.or_lt_two_pow hours minutes) (half _)⟩

theorem unpack_pack (zlib : Zlib) (data : Buffer) :
    unpack zlib (pack zlib data).1 (pack zlib data).2 = some data := by
  unfold pack
  simp only
  split_ifs with shrinks
  · exact zlib.inflate_deflate data
  · rfl

theorem length_pack_le (zlib : Zlib) (data : Buffer) :
    (pack zlib data).2.length ≤ data.length := by
  unfold pack
  simp only
  split_ifs with shrinks
  · exact Nat.le_of_lt shrinks
  · exact Nat.le_refl _

structure EntrySizes (entry : ZipEntry) : Prop where
  named : 0 < (utf8 entry.name).length
  name : (utf8 entry.name).length ≤ 0xffff
  data : entry.data.length < MAX_BYTES

theorem zipFields_fit (zlib : Zlib) (now : Option ℤ) {entry : ZipEntry}
    (sizes : EntrySizes entry) : (zipFields zlib (dosStamp now) entry).Fit := by
  have packed := length_pack_le zlib entry.data
  have data := sizes.data
  have name := sizes.name
  have stamp := dosStamp_fits now
  rw [MAX_BYTES] at data
  have method : (pack zlib entry.data).1 < 256 ^ 2 := by
    unfold pack
    simp only
    split_ifs
    · exact (by decide : 8 < 256 ^ 2)
    · exact (by decide : 0 < 256 ^ 2)
  exact {
    needed := by
      unfold zipFields
      simp only
      split_ifs <;> decide
    flags := (by decide : 0x0800 < 256 ^ 2)
    method
    time := stamp.2
    date := stamp.1
    crc := (zlib.crc32 entry.data).toNat_lt
    compressed := by
      change (pack zlib entry.data).2.length < _
      omega
    size := by
      change entry.data.length < _
      omega
    nameLength := by
      change (utf8 entry.name).length < _
      omega }

end Values

section Records

variable (zlib : Zlib) (stamp : DosStamp)

def localRecord (entry : ZipEntry) : Buffer :=
  localBytes (zipFields zlib stamp entry) ++ (utf8 entry.name ++ (pack zlib entry.data).2)

def centralRecord (offset : Nat) (entry : ZipEntry) : Buffer :=
  centralBytes (zipFields zlib stamp entry) offset ++ utf8 entry.name

theorem length_localRecord (entry : ZipEntry) : (localRecord zlib stamp entry).length =
    30 + ((utf8 entry.name).length + (pack zlib entry.data).2.length) := by
  rw [localRecord, List.length_append, List.length_append, length_localBytes]

theorem length_centralRecord (offset : Nat) (entry : ZipEntry) :
    (centralRecord zlib stamp offset entry).length = 46 + (utf8 entry.name).length := by
  rw [centralRecord, List.length_append, length_centralBytes]

end Records

section Reading

variable {zlib : Zlib} {now : Option ℤ} {file : Buffer}

def partOf (zlib : Zlib) (stamp : DosStamp) (offset : Nat) (entry : ZipEntry) : ZipPart :=
  { name := entry.name, data := entry.data, fields := zipFields zlib stamp entry, offset }

/-- Where a local record stands, its header says what the part has. -/
theorem partMatches_of_standsAt {entry : ZipEntry} {offset : Nat} (sizes : EntrySizes entry)
    (stands : StandsAt (localRecord zlib (dosStamp now) entry) offset file) :
    PartMatches zlib file (partOf zlib (dosStamp now) offset entry) := by
  have fit := zipFields_fit zlib now sizes
  have header : StandsAt (localBytes (zipFields zlib (dosStamp now) entry)) offset file :=
    stands.left
  have rest := stands.right
  rw [length_localBytes] at rest
  exact {
    size := rfl
    crc := rfl
    header := {
      signature := header.left.left.reads 0 rfl (by decide)
      fields := readFields_eq header.left.right fit
      name := rest.left.readBytes_eq } }

theorem readPart_of_standsAt {entry : ZipEntry} {offset : Nat} (sizes : EntrySizes entry)
    (stands : StandsAt (localRecord zlib (dosStamp now) entry) offset file) :
    readPart zlib file (zipFields zlib (dosStamp now) entry) (utf8 entry.name) offset =
      some (partOf zlib (dosStamp now) offset entry) := by
  have found := (partMatches_of_standsAt sizes stands).header
  have header : StandsAt (localBytes (zipFields zlib (dosStamp now) entry)) offset file :=
    stands.left
  have last := header.right
  rw [List.length_append, length_encodeLE, length_fieldBytes] at last
  have extra : readUInt 2 (offset + 28) file = some 0 := last.reads 0 rfl (by decide)
  have rest := stands.right
  rw [length_localBytes] at rest
  have signature : readUInt 4 offset file = some 0x04034b50 := found.signature
  have fields : readFields (offset + 4) file = some (zipFields zlib (dosStamp now) entry) :=
    found.fields
  have name : readBytes (offset + 30) (zipFields zlib (dosStamp now) entry).nameLength file =
    some (utf8 entry.name) := found.name
  have body : readBytes (offset + 30 + (zipFields zlib (dosStamp now) entry).nameLength + 0)
    (zipFields zlib (dosStamp now) entry).compressed file = some (pack zlib entry.data).2 :=
    rest.right.readBytes_eq
  have unpacked : unpack zlib (zipFields zlib (dosStamp now) entry).method
    (pack zlib entry.data).2 = some entry.data := unpack_pack zlib entry.data
  have checked : entry.data.length = (zipFields zlib (dosStamp now) entry).size ∧
    (zlib.crc32 entry.data).toNat = (zipFields zlib (dosStamp now) entry).crc := ⟨rfl, rfl⟩
  simp only [readPart, signature, fields, extra, name, body, unpacked, checked,
    fromUTF8_utf8, guard_true, Option.bind_eq_bind, Option.bind_some, Option.pure_def]
  rfl

/-- One step of the walk: a central record whose local record stands at its offset. -/
theorem readCentral_of_standsAt {entry : ZipEntry} {offset position : Nat}
    (sizes : EntrySizes entry) (below : offset < MAX_BYTES)
    (central : StandsAt (centralRecord zlib (dosStamp now) offset entry) position file)
    (stands : StandsAt (localRecord zlib (dosStamp now) entry) offset file) :
    readCentral zlib file position = some (partOf zlib (dosStamp now) offset entry,
      position + (centralRecord zlib (dosStamp now) offset entry).length) := by
  have part := readPart_of_standsAt sizes stands
  have packed := length_pack_le zlib entry.data
  have data := sizes.data
  have header : StandsAt (centralBytes (zipFields zlib (dosStamp now) entry) offset) position
    file := central.left
  have signature : readUInt 4 position file = some 0x02014b50 := header.reads 0 rfl (by decide)
  have fields : readFields (position + 6) file = some (zipFields zlib (dosStamp now) entry) :=
    readFields_eq header.left.left.right (zipFields_fit zlib now sizes)
  have gap := header.left.right
  have last := header.right
  simp only [List.length_append, length_encodeLE, length_fieldBytes, length_alloc] at gap last
  have extra : readUInt 2 (position + 30) file = some 0 := gap.reads 0 rfl (by decide)
  have comment : readUInt 2 (position + 32) file = some 0 := gap.reads 2 rfl (by decide)
  have start : readUInt 4 (position + 42) file = some offset :=
    last.reads 0 rfl (lt_trans below (by decide))
  have name : readBytes (position + 46) (zipFields zlib (dosStamp now) entry).nameLength file =
      some (utf8 entry.name) := by
    have rest := central.right
    rw [length_centralBytes] at rest
    exact rest.readBytes_eq
  have plain : (zipFields zlib (dosStamp now) entry).compressed ≠ BYTES_MARKER ∧
      (zipFields zlib (dosStamp now) entry).size ≠ BYTES_MARKER ∧ offset ≠ BYTES_MARKER := by
    have compressed : (zipFields zlib (dosStamp now) entry).compressed < MAX_BYTES :=
      lt_of_le_of_lt packed data
    have size : (zipFields zlib (dosStamp now) entry).size < MAX_BYTES := data
    exact ⟨compressed.ne, size.ne, below.ne⟩
  have length : position + (centralRecord zlib (dosStamp now) offset entry).length =
      position + 46 + (zipFields zlib (dosStamp now) entry).nameLength + 0 + 0 := by
    rw [length_centralRecord, ← Nat.add_assoc]
    rfl
  simp only [readCentral, signature, fields, extra, comment, start, name, part, length, ne_eq,
    plain.1, plain.2.1, plain.2.2, not_false_eq_true, and_self, guard_true, Option.bind_eq_bind,
    Option.bind_some, Option.pure_def]

end Reading

end ZabbixPortal.Export
