import ZabbixPortal.Export.ZipRecords
import ZabbixPortal.Foundation.Sorting

/-! What `zip` accepts, the bytes it writes, and which of its files read back. -/

set_option autoImplicit false

namespace ZabbixPortal.Export

open Foundation

def localsLength (zlib : Zlib) (entries : List ZipEntry) : Nat :=
  (entries.map fun e => 30 + ((utf8 e.name).length + (pack zlib e.data).2.length)).sum

def directoryLength (entries : List ZipEntry) : Nat :=
  (entries.map fun e => 46 + (utf8 e.name).length).sum

structure Acceptable (zlib : Zlib) (entries : List ZipEntry) : Prop where
  count : entries.length ≤ MAX_ENTRIES
  sizes : ∀ entry ∈ entries, EntrySizes entry
  distinct : (entries.map (·.name)).Nodup
  locals : localsLength zlib entries < MAX_BYTES
  directory : directoryLength entries ≤ 0xffffffff

section Order

theorem orderedEntries_perm (entries : List ZipEntry) :
    (orderedEntries entries).Perm entries := by
  unfold orderedEntries
  convert List.filter_append_perm (fun e : ZipEntry => decide (e.name = CONTENT_TYPES)) entries
    using 3
  simp

theorem localsLength_perm (zlib : Zlib) {left right : List ZipEntry} (same : left.Perm right) :
    localsLength zlib left = localsLength zlib right :=
  (same.map _).sum_eq

theorem directoryLength_perm {left right : List ZipEntry} (same : left.Perm right) :
    directoryLength left = directoryLength right :=
  (same.map _).sum_eq

theorem Acceptable.perm {zlib : Zlib} {left right : List ZipEntry} (same : left.Perm right)
    (acceptable : Acceptable zlib left) : Acceptable zlib right where
  count := same.length_eq ▸ acceptable.count
  sizes entry member := acceptable.sizes entry (same.mem_iff.mpr member)
  distinct := (same.map _).nodup_iff.mp acceptable.distinct
  locals := localsLength_perm zlib same ▸ acceptable.locals
  directory := directoryLength_perm same ▸ acceptable.directory

end Order

section Records

variable (zlib : Zlib) (stamp : DosStamp)

def localRecords (entries : List ZipEntry) : Buffer := entries.flatMap (localRecord zlib stamp)

def centralRecords : Nat → List ZipEntry → Buffer
  | _, [] => []
  | offset, entry :: rest => centralRecord zlib stamp offset entry ++
      centralRecords (offset + (localRecord zlib stamp entry).length) rest

theorem length_localRecords (entries : List ZipEntry) :
    (localRecords zlib stamp entries).length = localsLength zlib entries := by
  simp only [localRecords, localsLength, List.length_flatMap, length_localRecord]

theorem length_centralRecords (offset : Nat) (entries : List ZipEntry) :
    (centralRecords zlib stamp offset entries).length = directoryLength entries := by
  induction entries generalizing offset with
  | nil => rfl
  | cons entry rest ih =>
      rw [centralRecords, List.length_append, length_centralRecord, ih]
      rfl

def zipBytes (entries : List ZipEntry) : Buffer :=
  localRecords zlib stamp entries ++ centralRecords zlib stamp 0 entries ++
    endBytes entries.length (directoryLength entries) (localsLength zlib entries)

def Writing.put (state : Writing) (entry : ZipEntry) : Writing :=
  let fields := zipFields zlib stamp entry
  { seen := entry.name :: state.seen
    locals := state.locals ++ [localBytes fields, utf8 entry.name, (pack zlib entry.data).2]
    centrals := state.centrals ++ [centralBytes fields state.offset, utf8 entry.name]
    offset := state.offset + (localRecord zlib stamp entry).length }

/-- What the loop has after all of the entries. -/
theorem foldl_put (state : Writing) (entries : List ZipEntry) :
    let after := entries.foldl (Writing.put zlib stamp) state
    after.locals.flatten = state.locals.flatten ++ localRecords zlib stamp entries ∧
      after.centrals.flatten =
        state.centrals.flatten ++ centralRecords zlib stamp state.offset entries ∧
      after.offset = state.offset + localsLength zlib entries := by
  induction entries generalizing state with
  | nil => simp [localRecords, centralRecords, localsLength]
  | cons entry rest ih =>
      obtain ⟨locals, centrals, offset⟩ := ih (state.put zlib stamp entry)
      refine ⟨?_, ?_, ?_⟩
      · rw [List.foldl_cons, locals]
        simp [Writing.put, localRecords, localRecord]
      · rw [List.foldl_cons, centrals]
        simp [Writing.put, centralRecords, centralRecord]
      · rw [List.foldl_cons, offset]
        simp only [Writing.put, length_localRecord, localsLength, List.map_cons, List.sum_cons]
        omega

end Records

section Accepting

variable (zlib : Zlib) (now : Option ℤ)

/-- One turn of the loop: it goes on exactly when the entry fits, and then puts it. -/
theorem zipEntry_eq_ok_iff {state after : Writing} {entry : ZipEntry}
    (below : state.offset < MAX_BYTES) :
    zipEntry zlib (dosStamp now) state entry = .ok after ↔
      EntrySizes entry ∧ entry.name ∉ state.seen ∧
        state.offset + (localRecord zlib (dosStamp now) entry).length < MAX_BYTES ∧
        after = state.put zlib (dosStamp now) entry := by
  unfold zipEntry
  simp only
  split_ifs with name seen data
  · constructor
    · intro made
      cases made
    · rintro ⟨sizes, _⟩
      have named := sizes.named
      have short := sizes.name
      omega
  · constructor
    · intro made
      cases made
    · rintro ⟨_, fresh, _⟩
      exact absurd seen fresh
  · constructor
    · intro made
      cases made
    · rintro ⟨sizes, _⟩
      have small := sizes.data
      omega
  · have sizes : EntrySizes entry := ⟨by omega, by omega, by omega⟩
    have fit := zipFields_fit zlib now sizes
    rw [localHeader_eq fit, centralHeader_eq fit (lt_trans below (by decide))]
    simp only [length_localBytes, length_localRecord, Nat.add_assoc]
    split_ifs with room
    · constructor
      · intro made
        cases made
      · rintro ⟨_, _, short, _⟩
        omega
    · have put : state.put zlib (dosStamp now) entry = {
          seen := entry.name :: state.seen
          locals := state.locals ++ [localBytes (zipFields zlib (dosStamp now) entry),
            utf8 entry.name, (pack zlib entry.data).2]
          centrals := state.centrals ++ [centralBytes (zipFields zlib (dosStamp now) entry)
            state.offset, utf8 entry.name]
          offset := state.offset + (30 + ((utf8 entry.name).length +
            (pack zlib entry.data).2.length)) } := by
        rw [Writing.put, length_localRecord]
      rw [put]
      constructor
      · intro made
        cases made
        exact ⟨sizes, seen, by omega, rfl⟩
      · rintro ⟨_, _, _, rfl⟩
        rfl

/-- The whole loop. -/
theorem zipEntries_eq_ok_iff {state after : Writing} (entries : List ZipEntry)
    (below : state.offset < MAX_BYTES) :
    zipEntries zlib (dosStamp now) state entries = .ok after ↔
      (∀ entry ∈ entries, EntrySizes entry) ∧ (∀ entry ∈ entries, entry.name ∉ state.seen) ∧
        (entries.map (·.name)).Nodup ∧ state.offset + localsLength zlib entries < MAX_BYTES ∧
        after = entries.foldl (Writing.put zlib (dosStamp now)) state := by
  induction entries generalizing state with
  | nil =>
      simp only [zipEntries, localsLength, Except.ok.injEq, List.not_mem_nil, false_implies,
        implies_true, List.map_nil, List.nodup_nil, List.sum_nil, Nat.add_zero, below, true_and,
        List.foldl_nil]
      exact eq_comm
  | cons entry rest ih =>
      have total : localsLength zlib (entry :: rest) =
          (localRecord zlib (dosStamp now) entry).length + localsLength zlib rest := by
        rw [length_localRecord]
        rfl
      rw [zipEntries]
      cases turn : zipEntry zlib (dosStamp now) state entry with
      | error error =>
          constructor
          · intro made
            cases made
          · rintro ⟨sizes, fresh, _, room, _⟩
            have made := (zipEntry_eq_ok_iff zlib now below).mpr
              ⟨sizes entry List.mem_cons_self, fresh entry List.mem_cons_self, by omega, rfl⟩
            rw [turn] at made
            cases made
      | ok next =>
          obtain ⟨sizes, fresh, room, rfl⟩ := (zipEntry_eq_ok_iff zlib now below).mp turn
          have rest' := @ih (state.put zlib (dosStamp now) entry) room
          have length : (state.put zlib (dosStamp now) entry).offset + localsLength zlib rest =
              state.offset + localsLength zlib (entry :: rest) := by
            rw [total, ← Nat.add_assoc]
            rfl
          simp only
          rw [rest', length, List.forall_mem_cons, List.forall_mem_cons, List.map_cons,
            List.nodup_cons, List.foldl_cons]
          constructor
          · rintro ⟨others, unseen, distinct, short, shape⟩
            have apart : entry.name ∉ rest.map (·.name) := by
              intro named
              obtain ⟨other, member, same⟩ := List.mem_map.mp named
              exact unseen other member (same ▸ List.mem_cons_self)
            exact ⟨⟨sizes, others⟩, ⟨fresh, fun other member seen =>
              unseen other member (List.mem_cons_of_mem _ seen)⟩, ⟨apart, distinct⟩, short, shape⟩
          · rintro ⟨⟨_, others⟩, ⟨_, unseen⟩, ⟨apart, distinct⟩, short, shape⟩
            refine ⟨others, fun other member seen => ?_, distinct, short, shape⟩
            cases List.mem_cons.mp seen with
            | inl same => exact apart (same ▸ List.mem_map_of_mem member)
            | inr before => exact unseen other member before

/-- `zip` accepts exactly what a plain zip has room for, and writes these bytes. -/
theorem zip_eq_ok_iff {entries : List ZipEntry} {file : Buffer} :
    zip zlib entries now = .ok file ↔
      Acceptable zlib entries ∧ file = zipBytes zlib (dosStamp now) (orderedEntries entries) := by
  have same := orderedEntries_perm entries
  have start : (⟨[], [], [], 0⟩ : Writing).offset < MAX_BYTES := by decide
  have count := same.length_eq
  unfold zip
  simp only
  split_ifs with many
  · constructor
    · intro made
      cases made
    · rintro ⟨acceptable, _⟩
      have few := acceptable.count
      omega
  · cases loop : zipEntries zlib (dosStamp now) ⟨[], [], [], 0⟩ (orderedEntries entries) with
    | error error =>
        constructor
        · intro made
          cases made
        · rintro ⟨acceptable, _⟩
          have ordered := acceptable.perm same.symm
          have made := (zipEntries_eq_ok_iff zlib now (orderedEntries entries) start).mpr
            ⟨ordered.sizes, fun _ _ => List.not_mem_nil, ordered.distinct, by
              simpa using ordered.locals, rfl⟩
          rw [loop] at made
          cases made
    | ok state =>
        obtain ⟨sizes, _, distinct, room, rfl⟩ :=
          (zipEntries_eq_ok_iff zlib now (orderedEntries entries) start).mp loop
        obtain ⟨locals, centrals, offset⟩ :=
          foldl_put zlib (dosStamp now) ⟨[], [], [], 0⟩ (orderedEntries entries)
        simp only [List.flatten_nil, List.nil_append, Nat.zero_add] at locals centrals offset room
        have counted : (orderedEntries entries).length < 256 ^ 2 := by
          rw [MAX_ENTRIES] at many
          omega
        simp only [locals, centrals, offset, length_centralRecords]
        rw [endRecord_eq counted (lt_trans room (by decide))]
        have acceptable : directoryLength (orderedEntries entries) < 256 ^ 4 →
            Acceptable zlib (orderedEntries entries) := fun short =>
          ⟨by omega, sizes, distinct, room, by omega⟩
        split_ifs with short
        · simp only [Except.ok.injEq, zipBytes]
          constructor
          · rintro rfl
            exact ⟨(acceptable short).perm same, rfl⟩
          · rintro ⟨_, rfl⟩
            rfl
        · constructor
          · intro made
            cases made
          · rintro ⟨acceptable, _⟩
            have fits := (acceptable.perm same.symm).directory
            omega

end Accepting

end ZabbixPortal.Export
