import Mathlib.Algebra.Group.Nat.Defs
import Mathlib.Data.List.Basic
import Mathlib.Tactic.Cases

/-! Buffers as lists of bytes: unsigned integers in them, least significant byte first, and
records that stand at a position. -/

set_option autoImplicit false

namespace ZabbixPortal.Foundation

abbrev Buffer := List UInt8

def encodeLE : Nat → Nat → Buffer
  | 0, _ => []
  | width + 1, value => UInt8.ofNat value :: encodeLE width (value / 256)

def decodeLE : Buffer → Nat
  | [] => 0
  | byte :: rest => byte.toNat + 256 * decodeLE rest

@[simp] theorem length_encodeLE (width value : Nat) : (encodeLE width value).length = width := by
  induction width generalizing value with
  | zero => rfl
  | succ width ih => rw [encodeLE, List.length_cons, ih]

theorem decodeLE_encodeLE {width value : Nat} (fits : value < 256 ^ width) :
    decodeLE (encodeLE width value) = value := by
  induction width generalizing value with
  | zero =>
      have zero : value = 0 := by simpa using fits
      rw [zero]
      rfl
  | succ width ih =>
      have rest : value / 256 < 256 ^ width := by
        rw [Nat.pow_succ] at fits
        omega
      have low : (UInt8.ofNat value).toNat = value % 256 := rfl
      rw [encodeLE, decodeLE, ih rest, low]
      omega

def alloc (size : Nat) : Buffer := List.replicate size 0

@[simp] theorem length_alloc (size : Nat) : (alloc size).length = size := List.length_replicate

@[simp] theorem alloc_zero : alloc 0 = [] := rfl

def overwrite (position : Nat) (bytes buffer : Buffer) : Buffer :=
  buffer.take position ++ bytes ++ buffer.drop (position + bytes.length)

/-- `writeUIntLE`: nothing for a number or a position out of range. -/
def writeUInt (width value position : Nat) (buffer : Buffer) : Option Buffer :=
  if value < 256 ^ width ∧ position + width ≤ buffer.length then
    some (overwrite position (encodeLE width value) buffer)
  else none

theorem writeUInt_of_fits {width value position : Nat} {buffer : Buffer}
    (fits : value < 256 ^ width) (room : position + width ≤ buffer.length) :
    writeUInt width value position buffer =
      some (overwrite position (encodeLE width value) buffer) :=
  if_pos ⟨fits, room⟩

/-- A write into the zeros that are left, after a gap. -/
theorem writeUInt_alloc {before : Buffer} (gap rest : Nat) {width value position left : Nat}
    (fits : value < 256 ^ width) (reached : position = before.length + gap)
    (room : left = gap + width + rest) :
    writeUInt width value position (before ++ alloc left) =
      some (before ++ alloc gap ++ encodeLE width value ++ alloc rest) := by
  have zeros : alloc left = alloc gap ++ (alloc width ++ alloc rest) := by
    rw [room, alloc, alloc, alloc, alloc, List.replicate_append_replicate,
      List.replicate_append_replicate, Nat.add_assoc]
  have start : position = (before ++ alloc gap).length := by
    rw [List.length_append, length_alloc, reached]
  have stop : position + width = (before ++ alloc gap ++ alloc width).length := by
    rw [List.length_append, ← start, length_alloc]
  have written : overwrite position (encodeLE width value) (before ++ alloc left) =
      before ++ alloc gap ++ encodeLE width value ++ alloc rest := by
    rw [overwrite, length_encodeLE, zeros, ← List.append_assoc]
    congr 1
    · rw [start, List.take_left]
    · rw [stop, ← List.append_assoc, List.drop_left]
  rw [writeUInt_of_fits fits, written]
  rw [stop, zeros]
  simp only [List.length_append]
  omega

theorem writeUInt_of_large {width value position : Nat} {buffer : Buffer}
    (large : 256 ^ width ≤ value) : writeUInt width value position buffer = none := by
  rw [writeUInt, if_neg]
  rintro ⟨fits, _⟩
  omega

def readBytes (position count : Nat) (buffer : Buffer) : Option Buffer :=
  if position + count ≤ buffer.length then some ((buffer.drop position).take count) else none

def readUInt (width position : Nat) (buffer : Buffer) : Option Nat :=
  (readBytes position width buffer).map decodeLE

def StandsAt (record : Buffer) (position : Nat) (buffer : Buffer) : Prop :=
  ∃ before after, buffer = before ++ record ++ after ∧ before.length = position

namespace StandsAt

variable {record buffer : Buffer} {position : Nat}

theorem left {other : Buffer} (stands : StandsAt (record ++ other) position buffer) :
    StandsAt record position buffer := by
  obtain ⟨before, after, whole, start⟩ := stands
  refine ⟨before, other ++ after, ?_, start⟩
  rw [whole]
  simp only [List.append_assoc]

theorem right {other : Buffer} (stands : StandsAt (record ++ other) position buffer) :
    StandsAt other (position + record.length) buffer := by
  obtain ⟨before, after, whole, start⟩ := stands
  refine ⟨before ++ record, after, ?_, ?_⟩
  · rw [whole]
    simp only [List.append_assoc]
  · rw [List.length_append, start]

theorem append (stands : StandsAt record position buffer) (more : Buffer) :
    StandsAt record position (buffer ++ more) := by
  obtain ⟨before, after, whole, start⟩ := stands
  refine ⟨before, after ++ more, ?_, start⟩
  rw [whole, List.append_assoc]

theorem position_le (stands : StandsAt record position buffer) : position ≤ buffer.length := by
  obtain ⟨before, after, rfl, rfl⟩ := stands
  simp only [List.length_append, Nat.add_assoc]
  exact Nat.le_add_right _ _

theorem readBytes_within (stands : StandsAt record position buffer) (start count : Nat)
    (within : start + count ≤ record.length) :
    readBytes (position + start) count buffer = readBytes start count record := by
  obtain ⟨before, after, rfl, rfl⟩ := stands
  unfold readBytes
  rw [if_pos within, if_pos (by simp only [List.length_append]; omega), List.append_assoc,
    List.drop_append, List.drop_eq_nil_of_le (Nat.le_add_right _ _), List.nil_append,
    Nat.add_sub_cancel_left, List.drop_append_of_le_length (by omega), List.take_append_of_le_length]
  rw [List.length_drop]
  omega

theorem readBytes_eq (stands : StandsAt record position buffer) :
    readBytes position record.length buffer = some record := by
  have whole := stands.readBytes_within 0 record.length (by omega)
  rw [Nat.add_zero] at whole
  rw [whole, readBytes, if_pos (by omega), List.drop_zero, List.take_length]

/-- A field that a record has at some place is read there. -/
theorem reads (stands : StandsAt record position buffer) (start : Nat) {width value : Nat}
    (found : readBytes start width record = some (encodeLE width value))
    (fits : value < 256 ^ width) : readUInt width (position + start) buffer = some value := by
  have within : start + width ≤ record.length := by
    by_contra outside
    rw [readBytes, if_neg outside] at found
    cases found
  rw [readUInt, stands.readBytes_within start width within, found, Option.map_some,
    decodeLE_encodeLE fits]

end StandsAt

end ZabbixPortal.Foundation
