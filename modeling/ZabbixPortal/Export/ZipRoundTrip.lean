import ZabbixPortal.Export.ZipProperties

/-! Reading back what `zip` writes. -/

set_option autoImplicit false

namespace ZabbixPortal.Export

open Foundation

section Walk

variable {zlib : Zlib} {now : Option ℤ} {file : Buffer}

def partsFrom (zlib : Zlib) (stamp : DosStamp) : Nat → List ZipEntry → List ZipPart
  | _, [] => []
  | offset, entry :: rest => partOf zlib stamp offset entry ::
      partsFrom zlib stamp (offset + (localRecord zlib stamp entry).length) rest

theorem partsFrom_entries (stamp : DosStamp) (offset : Nat) (entries : List ZipEntry) :
    (partsFrom zlib stamp offset entries).map (fun part => ⟨part.name, part.data⟩) = entries := by
  induction entries generalizing offset with
  | nil => rfl
  | cons entry rest ih =>
      rw [partsFrom, List.map_cons, ih]
      rfl

theorem localsLength_cons (stamp : DosStamp) (entry : ZipEntry) (rest : List ZipEntry) :
    localsLength zlib (entry :: rest) =
      (localRecord zlib stamp entry).length + localsLength zlib rest := by
  rw [length_localRecord]
  rfl

theorem partsFrom_match {entries : List ZipEntry} {offset : Nat}
    (sizes : ∀ entry ∈ entries, EntrySizes entry)
    (locals : StandsAt (localRecords zlib (dosStamp now) entries) offset file) :
    ∀ part ∈ partsFrom zlib (dosStamp now) offset entries, PartMatches zlib file part := by
  induction entries generalizing offset with
  | nil =>
      intro part member
      cases member
  | cons entry rest ih =>
      rw [List.forall_mem_cons] at sizes
      have stands : StandsAt (localRecord zlib (dosStamp now) entry ++
          localRecords zlib (dosStamp now) rest) offset file := locals
      rw [partsFrom, List.forall_mem_cons]
      exact ⟨partMatches_of_standsAt sizes.1 stands.left, ih sizes.2 stands.right⟩

/-- The walk over the directory, from any record on. -/
theorem readDirectory_of_standsAt {entries : List ZipEntry} {offset position : Nat}
    (sizes : ∀ entry ∈ entries, EntrySizes entry)
    (below : offset + localsLength zlib entries < MAX_BYTES)
    (locals : StandsAt (localRecords zlib (dosStamp now) entries) offset file)
    (centrals : StandsAt (centralRecords zlib (dosStamp now) offset entries) position file) :
    readDirectory zlib file entries.length position =
      some (partsFrom zlib (dosStamp now) offset entries,
        position + directoryLength entries) := by
  induction entries generalizing offset position with
  | nil => rfl
  | cons entry rest ih =>
      rw [List.forall_mem_cons] at sizes
      rw [localsLength_cons (dosStamp now)] at below
      have stands : StandsAt (localRecord zlib (dosStamp now) entry ++
          localRecords zlib (dosStamp now) rest) offset file := locals
      have first := readCentral_of_standsAt sizes.1 (by omega) centrals.left stands.left
      have others := ih sizes.2 (by omega) stands.right centrals.right
      have length : position + directoryLength (entry :: rest) =
          position + (centralRecord zlib (dosStamp now) offset entry).length +
            directoryLength rest := by
        rw [length_centralRecord, Nat.add_assoc]
        rfl
      rw [List.length_cons, readDirectory, length, partsFrom, first]
      simp only [Option.bind_eq_bind, Option.bind_some, others, Option.pure_def]

end Walk

section Ends

/-- The end record is the first thing the reader finds from the end backwards. -/
theorem findEnd_eq (before : Buffer) (count length offset : Nat) :
    findEnd (before ++ endBytes count length offset) = some before.length := by
  have stands : StandsAt (endBytes count length offset) before.length
      (before ++ endBytes count length offset) := ⟨before, [], by simp, rfl⟩
  have signature := stands.reads 0 rfl (by decide : 0x06054b50 < 256 ^ 4)
  have comment := stands.reads 20 rfl (by decide : 0 < 256 ^ 2)
  have last : (before ++ endBytes count length offset).length - (22 + 0) = before.length := by
    rw [List.length_append, length_endBytes]
    omega
  have room : 22 + 0 ≤ (before ++ endBytes count length offset).length := by
    rw [List.length_append, length_endBytes]
    omega
  rw [findEnd, show 0x10000 = 0xffff + 1 from rfl, List.range_succ_eq_map, List.findSome?_cons]
  simp only [last]
  rw [if_pos ⟨room, signature, comment⟩]

/-- What the reader makes of a whole file: all of its parts, unless the end record holds one
of zip64's markers. -/
theorem unzip_zipBytes {zlib : Zlib} {now : Option ℤ} {entries : List ZipEntry}
    (acceptable : Acceptable zlib entries) :
    unzip zlib (zipBytes zlib (dosStamp now) entries) =
      if entries.length ≠ ENTRIES_MARKER ∧ directoryLength entries ≠ BYTES_MARKER then
        some (partsFrom zlib (dosStamp now) 0 entries)
      else none := by
  generalize contents : zipBytes zlib (dosStamp now) entries = file
  have start : (localRecords zlib (dosStamp now) entries ++
      centralRecords zlib (dosStamp now) 0 entries).length =
      localsLength zlib entries + directoryLength entries := by
    rw [List.length_append, length_localRecords, length_centralRecords]
  have found := findEnd_eq (localRecords zlib (dosStamp now) entries ++
    centralRecords zlib (dosStamp now) 0 entries) entries.length (directoryLength entries)
    (localsLength zlib entries)
  rw [← zipBytes, contents, start] at found
  have stands : StandsAt (zipBytes zlib (dosStamp now) entries) 0 file :=
    ⟨[], [], by rw [contents]; simp, rfl⟩
  rw [zipBytes] at stands
  have record := stands.right
  have locals := stands.left.left
  have centrals := stands.left.right
  rw [start, Nat.zero_add] at record
  rw [length_localRecords, Nat.zero_add] at centrals
  have counted : entries.length < 256 ^ 2 := lt_of_le_of_lt acceptable.count (by decide)
  have short : directoryLength entries < 256 ^ 4 :=
    lt_of_le_of_lt acceptable.directory (by decide)
  have count := record.reads 10 rfl counted
  have disk := record.reads 8 rfl counted
  have length := record.reads 12 rfl short
  have reached : localsLength zlib entries < 256 ^ 4 := lt_trans acceptable.locals (by decide)
  have offset := record.reads 16 rfl reached
  have plain : localsLength zlib entries ≠ BYTES_MARKER := acceptable.locals.ne
  have walk := readDirectory_of_standsAt acceptable.sizes
    (by rw [Nat.zero_add]; exact acceptable.locals) locals centrals
  split_ifs with free
  · simp only [unzip, found, count, disk, length, offset, walk, free.1, free.2, plain, ne_eq,
      not_false_eq_true, and_self, guard_true, Option.bind_eq_bind, Option.bind_some,
      Option.pure_def]
  · have marked : ¬(entries.length ≠ ENTRIES_MARKER ∧ directoryLength entries ≠ BYTES_MARKER ∧
        localsLength zlib entries ≠ BYTES_MARKER) := fun all => free ⟨all.1, all.2.1⟩
    simp only [unzip, found, count, disk, length, offset, guard_true, Option.bind_eq_bind,
      Option.bind_some]
    rw [guard, if_neg marked]
    rfl

end Ends

def ZipReadsBack (zlib : Zlib) (entries : List ZipEntry) (now : Option ℤ) : Prop :=
  ∀ file, zip zlib entries now = .ok file → ReadsBack zlib entries file

theorem zip_reads_back_iff (zlib : Zlib) (entries : List ZipEntry) (now : Option ℤ) :
    ZipReadsBack zlib entries now ↔ (Acceptable zlib entries →
      entries.length ≠ 0xffff ∧ directoryLength entries ≠ 0xffffffff) := by
  have same := orderedEntries_perm entries
  have condition : (orderedEntries entries).length ≠ ENTRIES_MARKER ∧
      directoryLength (orderedEntries entries) ≠ BYTES_MARKER ↔
      entries.length ≠ 0xffff ∧ directoryLength entries ≠ 0xffffffff := by
    rw [same.length_eq, directoryLength_perm same, ENTRIES_MARKER, BYTES_MARKER]
  constructor
  · intro reads acceptable
    obtain ⟨parts, read, _⟩ := reads _ ((zip_eq_ok_iff zlib now).mpr ⟨acceptable, rfl⟩)
    rw [unzip_zipBytes (acceptable.perm same.symm)] at read
    split_ifs at read with free
    exact condition.mp free
  · intro free file made
    obtain ⟨acceptable, rfl⟩ := (zip_eq_ok_iff zlib now).mp made
    have ordered := acceptable.perm same.symm
    refine ⟨partsFrom zlib (dosStamp now) 0 (orderedEntries entries), ?_,
      partsFrom_entries _ _ _, ?_⟩
    · rw [unzip_zipBytes ordered, if_pos (condition.mpr (free acceptable))]
    · apply partsFrom_match ordered.sizes
      exact ⟨[], _, by rw [zipBytes, List.append_assoc, List.nil_append], rfl⟩

section Full

/-- What zlib makes of an empty part: `03 00`, and a checksum of 0. -/
def emptyPartZlib : Zlib where
  crc32 _ := 0
  deflateRaw data := 3 :: 0 :: data
  inflateRaw
    | 3 :: 0 :: data => some data
    | _ => none
  inflate_deflate _ := rfl

def fullEntries : List ZipEntry := (List.range 65535).map fun i => ⟨"p" ++ toString i, []⟩

theorem toString_injective {left right : Nat} (same : toString left = toString right) :
    left = right := by
  have digits : Nat.toDigits 10 left = Nat.toDigits 10 right := by
    have texts := congrArg String.toList same
    rwa [show (toString left).toList = Nat.toDigits 10 left from Nat.toList_repr,
      show (toString right).toList = Nat.toDigits 10 right from Nat.toList_repr] at texts
  have read : Nat.ofDigitChars 10 (Nat.toDigits 10 left) 0 = left := Nat.ofDigitChars_ten_toDigits
  rw [digits, Nat.ofDigitChars_ten_toDigits] at read
  exact read.symm

/-- A name takes at most four bytes a character. -/
theorem length_utf8_le (text : String) : (utf8 text).length ≤ 4 * text.toList.length := by
  have encoded : utf8 text = text.toList.flatMap String.utf8EncodeChar := by
    have bytes : utf8 text = text.toByteArray.data.toList := rfl
    rw [bytes, ← String.utf8Encode_toList, List.utf8Encode, List.data_toByteArray]
  have each : ∀ c ∈ text.toList, (String.utf8EncodeChar c).length ≤ 4 := by
    intro c _
    rw [String.length_utf8EncodeChar]
    exact c.utf8Size_le_four
  have total := sum_map_le each
  rw [encoded, List.length_flatMap, Nat.mul_comm]
  exact total

theorem fullEntries_name {entry : ZipEntry} (member : entry ∈ fullEntries) :
    entry.data = [] ∧ 0 < (utf8 entry.name).length ∧ (utf8 entry.name).length ≤ 24 := by
  obtain ⟨i, within, rfl⟩ := List.mem_map.mp member
  have small := List.mem_range.mp within
  have digits : (toString i).toList = Nat.toDigits 10 i := Nat.toList_repr
  have few : (Nat.toDigits 10 i).length ≤ 5 :=
    (Nat.length_toDigits_le_iff (by decide) (by decide)).mpr (by omega)
  have long := length_utf8_le ("p" ++ toString i)
  rw [String.toList_append, List.length_append, digits] at long
  have first : (utf8 ("p" ++ toString i)).length = 1 + (utf8 (toString i)).length := by
    have bytes : utf8 ("p" ++ toString i) = utf8 "p" ++ utf8 (toString i) := by simp [utf8]
    rw [bytes, List.length_append]
    rfl
  have head : "p".toList.length = 1 := rfl
  refine ⟨rfl, ?_, ?_⟩
  · change 0 < (utf8 ("p" ++ toString i)).length
    omega
  · change (utf8 ("p" ++ toString i)).length ≤ 24
    omega

theorem fullEntries_acceptable : Acceptable emptyPartZlib fullEntries := by
  have count : fullEntries.length = 65535 := by
    rw [fullEntries, List.length_map, List.length_range]
  have locals : localsLength emptyPartZlib fullEntries ≤ fullEntries.length * 54 := by
    apply sum_map_le
    intro entry member
    obtain ⟨data, _, short⟩ := fullEntries_name member
    have packed := length_pack_le emptyPartZlib entry.data
    rw [data] at packed ⊢
    rw [List.length_nil] at packed
    omega
  have directory : directoryLength fullEntries ≤ fullEntries.length * 70 := by
    apply sum_map_le
    intro entry member
    have short := (fullEntries_name member).2.2
    omega
  rw [count] at locals directory
  exact {
    count := by
      rw [count]
      decide
    sizes := fun entry member => by
      obtain ⟨data, named, short⟩ := fullEntries_name member
      refine ⟨named, by omega, ?_⟩
      rw [data]
      decide
    distinct := by
      rw [fullEntries, List.map_map]
      apply List.Nodup.map _ List.nodup_range
      intro left right same
      apply toString_injective
      exact String.append_right_inj "p" |>.mp same
    locals := by
      rw [MAX_BYTES]
      omega
    directory := by omega }

/-- A package of 65,535 parts is written, and says that its count stands in a zip64 record. -/
theorem full_zip_unreadable : ¬ZipReadsBack emptyPartZlib fullEntries (some 0) := by
  have same := orderedEntries_perm fullEntries
  have count : (orderedEntries fullEntries).length = ENTRIES_MARKER := by
    rw [same.length_eq, fullEntries, List.length_map, List.length_range]
    rfl
  intro reads
  obtain ⟨parts, read, _⟩ := reads _ ((zip_eq_ok_iff emptyPartZlib (some 0)).mpr
    ⟨fullEntries_acceptable, rfl⟩)
  rw [unzip_zipBytes (fullEntries_acceptable.perm same.symm),
    if_neg fun free => free.1 count] at read
  cases read

end Full

end ZabbixPortal.Export
