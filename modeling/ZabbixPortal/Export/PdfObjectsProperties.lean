import ZabbixPortal.Export.PdfObjects
import ZabbixPortal.Export.PdfStringsProperties

/-! A PDF file reads back: its cross-reference table names where every object stands. -/

set_option autoImplicit false

namespace ZabbixPortal.Export

open Foundation

section Numbers

theorem latin1_append (text other : List Char) : latin1 (text ++ other) = latin1 text ++ latin1 other :=
  List.map_append

@[simp] theorem length_latin1 (text : List Char) : (latin1 text).length = text.length :=
  List.length_map _

theorem charsOf_latin1 {text : List Char} (digits : ∀ c ∈ text, c.isDigit = true) :
    charsOf (latin1 text) = text := by
  rw [charsOf, latin1, List.map_map]
  conv_rhs => rw [← List.map_id text]
  apply List.map_congr_left
  intro c member
  have digit := digits c member
  have small : c.toNat < 256 := by
    rw [Char.isDigit_iff_toNat] at digit
    exact Nat.lt_of_le_of_lt digit.2 (by decide)
  have byte : c.toUInt8.toNat = c.toNat := by
    rw [Char.toUInt8, UInt32.toNat_toUInt8]
    exact Nat.mod_eq_of_lt small
  show Char.ofNat c.toUInt8.toNat = c
  rw [byte, Char.ofNat_toNat]

/-- No digit is a line break. -/
theorem ne_break_of_digits {text : List Char} (digits : ∀ c ∈ text, c.isDigit = true) {b : UInt8}
    (member : b ∈ latin1 text) : b ≠ 10 := by
  have char : Char.ofNat b.toNat ∈ charsOf (latin1 text) := List.mem_map_of_mem member
  rw [charsOf_latin1 digits] at char
  have digit := digits _ char
  rintro rfl
  exact absurd digit (by decide)

theorem numberOf_latin1 {text : List Char} (digits : ∀ c ∈ text, c.isDigit = true)
    (nonempty : text ≠ []) : numberOf (latin1 text) = some (Nat.ofDigitChars 10 text 0) := by
  have bytes : latin1 text ≠ [] := by
    rw [latin1, ne_eq, List.map_eq_nil_iff]
    exact nonempty
  rw [numberOf, charsOf_latin1 digits, if_pos ⟨bytes, List.all_eq_true.mpr digits⟩]

theorem digitsOf_ne_nil (number : Nat) : digitsOf number ≠ [] := by
  have written : digitsOf number = Nat.toDigits 10 number := Nat.toList_repr
  rw [written]
  exact Nat.toDigits_ne_nil

theorem isDigit_of_mem_digitsOf {number : Nat} {c : Char} (member : c ∈ digitsOf number) :
    c.isDigit = true :=
  isDigit_of_mem_toString member

theorem numberOf_digitsOf (number : Nat) : numberOf (latin1 (digitsOf number)) = some number := by
  have written : digitsOf number = Nat.toDigits 10 number := Nat.toList_repr
  rw [numberOf_latin1 (fun c member => isDigit_of_mem_digitsOf member) (digitsOf_ne_nil number),
    written, Nat.ofDigitChars_ten_toDigits]

theorem isDigit_of_mem_padTen {offset : Nat} {c : Char} (member : c ∈ padTen offset) :
    c.isDigit = true := by
  cases List.mem_append.mp member with
  | inl zero =>
      rw [List.eq_of_mem_replicate zero]
      decide
  | inr digit => exact isDigit_of_mem_digitsOf digit

theorem length_padTen {offset : Nat} (fits : offset < 10 ^ 10) : (padTen offset).length = 10 :=
  length_padded (by decide) fits

theorem numberOf_padTen {offset : Nat} (fits : offset < 10 ^ 10) :
    numberOf (latin1 (padTen offset)) = some offset := by
  have nonempty : padTen offset ≠ [] := List.ne_nil_of_length_pos (by rw [length_padTen fits]; decide)
  have value := ofDigitChars_padded (by decide) fits []
  rw [Nat.ofDigitChars_nil, Nat.mul_zero, Nat.zero_add] at value
  rw [numberOf_latin1 (fun c member => isDigit_of_mem_padTen member) nonempty]
  exact congrArg some value

end Numbers

section Layout

structure Placed (bodies : List Buffer) (laid : Laid) : Prop where
  size : laid.size = laid.parts.flatten.length
  count : laid.offsets.length = bodies.length
  stands : ∀ {i : Nat} {body : Buffer}, bodies[i]? = some body →
    ∃ offset, laid.offsets[i]? = some offset ∧
      StandsAt (wrapped (i + 1) body) offset laid.parts.flatten

theorem Placed.push {bodies : List Buffer} {laid : Laid} (placed : Placed bodies laid)
    (body : Buffer) : Placed (bodies ++ [body]) (laid.push body bodies.length) := by
  have flat : (laid.push body bodies.length).parts.flatten =
      laid.parts.flatten ++ wrapped (bodies.length + 1) body := by
    simp only [Laid.push, List.flatten_append, List.flatten_singleton]
  refine ⟨?_, ?_, ?_⟩
  · rw [flat, List.length_append, ← placed.size]
    rfl
  · simp only [Laid.push, List.length_append, placed.count, List.length_singleton]
  · intro i other found
    rw [flat]
    rcases Nat.lt_or_ge i bodies.length with earlier | last
    · rw [List.getElem?_append_left earlier] at found
      obtain ⟨offset, atOffset, stands⟩ := placed.stands found
      refine ⟨offset, ?_, stands.append _⟩
      show (laid.offsets ++ [laid.size])[i]? = some offset
      rw [List.getElem?_append_left (by rw [placed.count]; exact earlier), atOffset]
    · rw [List.getElem?_append_right last] at found
      have same : i = bodies.length := by
        have inside := (List.getElem?_eq_some_iff.mp found).1
        rw [List.length_singleton] at inside
        omega
      subst same
      rw [Nat.sub_self] at found
      cases found
      refine ⟨laid.size, ?_, laid.parts.flatten, [], ?_, placed.size.symm⟩
      · show (laid.offsets ++ [laid.size])[bodies.length]? = some laid.size
        rw [← placed.count, List.getElem?_concat_length]
      · rw [List.append_nil]

theorem placed_layOut (o : Objects) : Placed o.bodies o.layOut := by
  unfold Objects.layOut
  induction o.bodies using List.reverseRecOn with
  | nil =>
      refine ⟨?_, rfl, ?_⟩
      · simp only [List.zipIdx_nil, List.foldl_nil, List.flatten_singleton]
      · intro i body found
        cases found
  | append_singleton bodies body ih =>
      rw [List.zipIdx_append, List.foldl_append, List.zipIdx_singleton, List.foldl_cons,
        List.foldl_nil, Nat.zero_add]
      exact ih.push body

end Layout

section Entries

theorem readEntry_xrefRef {offset : Nat} (fits : offset < 10 ^ 10) :
    readEntry (xrefRef offset) = some (.inUse offset 0) := by
  have ten : (latin1 (padTen offset)).length = 10 := by rw [length_latin1, length_padTen fits]
  obtain ⟨tail, tailIs⟩ : ∃ tail, tail = latin1 " 00000 n \n".toList := ⟨_, rfl⟩
  have whole : xrefRef offset = latin1 (padTen offset) ++ tail := by
    rw [xrefRef, latin1_append, tailIs]
  have length : (xrefRef offset).length = 20 := by
    rw [whole, List.length_append, ten, tailIs]
    rfl
  have behind : ∀ places, (xrefRef offset).drop (10 + places) = tail.drop places := by
    intro places
    rw [whole, List.drop_append, ten, Nat.add_sub_cancel_left,
      List.drop_eq_nil_of_le (by rw [ten]; exact Nat.le_add_right _ _), List.nil_append]
  have number : (xrefRef offset).take 10 = latin1 (padTen offset) := by
    rw [whole, ← ten, List.take_left]
  have atSpace := behind 0
  have atGeneration := behind 1
  have atSecondSpace := behind 6
  have atLetter := behind 7
  have atBreak := behind 8
  norm_num only at atSpace atGeneration atSecondSpace atLetter atBreak
  rw [readEntry, length, atSpace, atSecondSpace, atBreak, number, atGeneration, atLetter,
    numberOf_padTen fits, tailIs]
  rfl

theorem readEntries_xrefRef {offsets : List Nat} (fits : ∀ offset ∈ offsets, offset < 10 ^ 10)
    (rest : Buffer) :
    readEntries offsets.length (offsets.flatMap xrefRef ++ rest) =
      some (offsets.map fun offset => .inUse offset 0, rest) := by
  induction offsets with
  | nil => rfl
  | cons offset offsets ih =>
      have own := fits offset List.mem_cons_self
      have twenty : (xrefRef offset).length = 20 := by
        rw [xrefRef, latin1_append, List.length_append, length_latin1, length_padTen own]
        rfl
      rw [List.flatMap_cons, List.append_assoc, List.length_cons, readEntries, ← twenty,
        List.take_left, List.drop_left, readEntry_xrefRef own,
        ih fun other member => fits other (.tail _ member)]
      rfl

theorem readEntry_freeHead : readEntry FREE_HEAD = some (.free 0 65535) := by decide

/-- The table of a file is read where it stands. -/
theorem readXref_of_standsAt {offsets : List Nat} (fits : ∀ offset ∈ offsets, offset < 10 ^ 10)
    (before rest : Buffer) :
    readXref (before ++ (xrefText offsets ++ rest)) before.length =
      some (.free 0 65535 :: offsets.map fun offset => .inUse offset 0, rest) := by
  obtain ⟨start, startIs⟩ : ∃ start, start = latin1 "xref\n0 ".toList := ⟨_, rfl⟩
  obtain ⟨digits, digitsAre⟩ : ∃ digits, digits = latin1 (digitsOf (offsets.length + 1)) := ⟨_, rfl⟩
  have table : xrefText offsets ++ rest =
      start ++ (digits ++ 10 :: (FREE_HEAD ++ (offsets.flatMap xrefRef ++ rest))) := by
    simp only [xrefText, latin1_append, startIs, digitsAre, List.append_assoc]
    rfl
  have notBreak : ∀ c ∈ digits, decide (c ≠ 10) = true := by
    intro c member
    rw [digitsAre] at member
    exact decide_eq_true (ne_break_of_digits (fun _ digit => isDigit_of_mem_digitsOf digit) member)
  have line : (digits ++ 10 :: (FREE_HEAD ++ (offsets.flatMap xrefRef ++ rest))).takeWhile (· ≠ 10) =
      digits := by
    rw [List.takeWhile_append_of_pos notBreak, List.takeWhile_cons_of_neg (by decide),
      List.append_nil]
  have entries : (start ++ (digits ++ 10 :: (FREE_HEAD ++ (offsets.flatMap xrefRef ++ rest)))).drop
      (start.length + digits.length + 1) = FREE_HEAD ++ (offsets.flatMap xrefRef ++ rest) := by
    rw [Nat.add_assoc, ← List.drop_drop, List.drop_left, ← List.drop_drop, List.drop_left]
    rfl
  unfold readXref
  simp only [List.drop_left, ← startIs]
  rw [table, List.take_left, if_pos rfl, List.drop_left, line, entries, digitsAre, numberOf_digitsOf,
    Option.bind_some, readEntries]
  have twenty : FREE_HEAD.length = 20 := rfl
  rw [← twenty, List.take_left, List.drop_left, readEntry_freeHead, Option.bind_some,
    readEntries_xrefRef fits]
  rfl

end Entries

section Trailer

theorem startXref_of_ends (before : Buffer) (number : Nat) :
    startXref (before ++ 10 :: (latin1 "startxref".toList ++ 10 :: (latin1 (digitsOf number) ++
      10 :: (latin1 "%%EOF".toList ++ [10])))) = some number := by
  obtain ⟨word, wordIs⟩ : ∃ word, word = latin1 "startxref".toList := ⟨_, rfl⟩
  obtain ⟨mark, markIs⟩ : ∃ mark, mark = latin1 "%%EOF".toList := ⟨_, rfl⟩
  have wordPlain : (10 : UInt8) ∉ word.reverse := by
    rw [wordIs]
    decide
  have markPlain : (10 : UInt8) ∉ mark.reverse := by
    rw [markIs]
    decide
  have digitsPlain : (10 : UInt8) ∉ (latin1 (digitsOf number)).reverse := by
    intro member
    exact ne_break_of_digits (fun _ digit => isDigit_of_mem_digitsOf digit)
      (List.mem_reverse.mp member) rfl
  have back : (before ++ 10 :: (word ++ 10 :: (latin1 (digitsOf number) ++ 10 :: (mark ++ [10])))).reverse =
      [] ++ 10 :: (mark.reverse ++ 10 :: ((latin1 (digitsOf number)).reverse ++
        10 :: (word.reverse ++ 10 :: before.reverse))) := by
    simp only [List.reverse_append, List.reverse_cons, List.append_assoc, List.nil_append,
      List.cons_append, List.reverse_nil]
  have lines : (before ++ 10 :: (word ++ 10 :: (latin1 (digitsOf number) ++
      10 :: (mark ++ [10])))).reverse.splitOn 10 =
      [] :: mark.reverse :: (latin1 (digitsOf number)).reverse :: word.reverse ::
        before.reverse.splitOn 10 := by
    rw [back, List.splitOn_append_cons_self_of_not_mem List.not_mem_nil,
      List.splitOn_append_cons_self_of_not_mem markPlain,
      List.splitOn_append_cons_self_of_not_mem digitsPlain,
      List.splitOn_append_cons_self_of_not_mem wordPlain]
  rw [← wordIs, ← markIs, startXref, lines]
  simp only [List.reverse_reverse, ← wordIs, ← markIs, and_self, if_true]
  exact numberOf_digitsOf number

/-- What a trailer is made of, up to the number at its end. -/
theorem exists_trailerText (count root info size : Nat) (id : List Char) :
    ∃ dictionary, trailerText count root info size id = latin1 "trailer\n".toList ++
      (dictionary ++ 10 :: (latin1 "startxref".toList ++ 10 :: (latin1 (digitsOf size) ++
        10 :: (latin1 "%%EOF".toList ++ [10])))) := by
  refine ⟨latin1 ("<< /Size ".toList ++ digitsOf count ++ " /Root ".toList ++ digitsOf root ++
    " 0 R /Info ".toList ++ digitsOf info ++ " 0 R /ID [<".toList ++ id ++ "> <".toList ++ id ++
    ">] >>".toList), ?_⟩
  simp only [trailerText, latin1_append, List.append_assoc]
  rfl

end Trailer

section Runs

theorem lastBody_concat (id : Nat) (calls : List ObjectCall) (call : ObjectCall) :
    lastBody id (calls ++ [call]) = (call.bodyFor id).getD (lastBody id calls) := by
  rw [lastBody, List.reverse_append, List.reverse_singleton, List.singleton_append,
    List.findSome?_cons]
  cases call.bodyFor id with
  | none => rfl
  | some body => rfl

theorem getD_set {bodies : List Buffer} {id other : Nat} (reserved : id - 1 < bodies.length)
    (positive : 1 ≤ id) (otherPositive : 1 ≤ other) (body : Buffer) :
    (bodies.set (id - 1) body).getD (other - 1) [] =
      if id = other then body else bodies.getD (other - 1) [] := by
  rw [List.getD_eq_getElem?_getD, List.getElem?_set]
  by_cases same : id = other
  · rw [if_pos (by rw [same]), if_pos reserved, if_pos same]
    rfl
  · rw [if_neg (by omega), if_neg same, List.getD_eq_getElem?_getD]

/-- The body of every id is the one last set for it, and empty before the first. -/
theorem getD_of_run {calls : List ObjectCall} {o : Objects} (run : ObjectRun calls o) {id : Nat}
    (positive : 1 ≤ id) : o.bodies.getD (id - 1) [] = lastBody id calls := by
  induction run with
  | nil => rfl
  | @reserve calls o count _ ih =>
      rw [lastBody_concat, ← ih]
      show (o.bodies ++ List.replicate count []).getD (id - 1) [] = o.bodies.getD (id - 1) []
      rw [List.getD_eq_getElem?_getD, List.getD_eq_getElem?_getD, List.getElem?_append]
      split
      · rfl
      · next outside =>
          rw [List.getElem?_eq_none (Nat.le_of_not_lt outside), List.getElem?_replicate]
          split
          · rfl
          · rfl
  | @set calls o other body _ reserved ih =>
      rw [lastBody_concat, ← ih]
      show (o.bodies.set (other - 1) body.bytes).getD (id - 1) [] = _
      rw [getD_set (by have := reserved.1; have := reserved.2; omega) reserved.1 positive]
      show _ = (if other = id then some body.bytes else none).getD (o.bodies.getD (id - 1) [])
      split
      · rfl
      · rfl
  | @stream calls o other dict data _ reserved ih =>
      rw [lastBody_concat, ← ih]
      show (o.bodies.set (other - 1) (streamBody dict data)).getD (id - 1) [] = _
      rw [getD_set (by have := reserved.1; have := reserved.2; omega) reserved.1 positive]
      show _ = (if other = id then some (streamBody dict data) else none).getD
        (o.bodies.getD (id - 1) [])
      split
      · rfl
      · rfl

theorem length_of_run {calls : List ObjectCall} {o : Objects} (run : ObjectRun calls o) :
    o.bodies.length = reservedBy calls := by
  induction run with
  | nil => rfl
  | @reserve calls o count _ ih =>
      rw [reservedBy, List.map_append, List.sum_append, List.map_singleton, List.sum_singleton,
        ← reservedBy, ← ih]
      show (o.bodies ++ List.replicate count []).length = o.bodies.length + count
      rw [List.length_append, List.length_replicate]
  | @set calls o other body _ _ ih =>
      rw [reservedBy, List.map_append, List.sum_append, List.map_singleton, List.sum_singleton,
        ← reservedBy, ← ih]
      exact List.length_set
  | @stream calls o other dict data _ _ ih =>
      rw [reservedBy, List.map_append, List.sum_append, List.map_singleton, List.sum_singleton,
        ← reservedBy, ← ih]
      exact List.length_set

end Runs

section Files

variable {md5 : Buffer → List Char} {calls : List ObjectCall} {o : Objects} {root info : Nat}

theorem write_eq : o.write md5 root info = o.layOut.parts.flatten ++ (xrefText o.layOut.offsets ++
    trailerText (o.layOut.offsets.length + 1) root info o.layOut.size
      (md5 (o.layOut.parts ++ [xrefText o.layOut.offsets]).flatten)) := by
  simp only [Objects.write, List.flatten_append, List.flatten_singleton, List.append_assoc]

theorem offset_fits (fits : (o.write md5 root info).length < 10 ^ 10) :
    ∀ offset ∈ o.layOut.offsets, offset < 10 ^ 10 := by
  intro offset member
  have placed := placed_layOut o
  obtain ⟨i, inside, atPlace⟩ := List.getElem_of_mem member
  have isBody : i < o.bodies.length := placed.count ▸ inside
  obtain ⟨found, atFound, stands⟩ := placed.stands (List.getElem?_eq_getElem isBody)
  have same : found = offset := by
    rw [List.getElem?_eq_getElem inside, atPlace] at atFound
    exact (Option.some.inj atFound).symm
  rw [write_eq, List.length_append] at fits
  have within := stands.position_le
  omega

theorem startXref_write : startXref (o.write md5 root info) = some o.layOut.parts.flatten.length := by
  obtain ⟨dictionary, trailer⟩ := exists_trailerText (o.layOut.offsets.length + 1) root info
    o.layOut.size (md5 (o.layOut.parts ++ [xrefText o.layOut.offsets]).flatten)
  have regroup (a b c d e : Buffer) : a ++ (b ++ (c ++ (d ++ e))) = (a ++ b ++ c ++ d) ++ e := by
    simp only [List.append_assoc]
  rw [write_eq, trailer, regroup, startXref_of_ends, (placed_layOut o).size]

/-- The table is where `startxref` says, and every entry is where its object stands. -/
theorem exists_table (run : ObjectRun calls o) (fits : (o.write md5 root info).length < 10 ^ 10) :
    ∃ offset entries trailer, startXref (o.write md5 root info) = some offset ∧
      readXref (o.write md5 root info) offset =
        some (entries, latin1 "trailer\n".toList ++ trailer) ∧
      entries.length = reservedBy calls + 1 ∧ entries[0]? = some (.free 0 65535) ∧
      ∀ id, 1 ≤ id → id ≤ reservedBy calls → ∃ place, entries[id]? = some (.inUse place 0) ∧
        StandsAt (objectHead id ++ lastBody id calls ++ latin1 "\nendobj\n".toList) place
          (o.write md5 root info) := by
  obtain ⟨tail, trailer⟩ : ∃ tail, trailerText (o.layOut.offsets.length + 1) root info o.layOut.size
      (md5 (o.layOut.parts ++ [xrefText o.layOut.offsets]).flatten) =
        latin1 "trailer\n".toList ++ tail :=
    ⟨_, (exists_trailerText _ _ _ _ _).choose_spec⟩
  have placed := placed_layOut o
  have count := length_of_run run
  refine ⟨o.layOut.parts.flatten.length,
    .free 0 65535 :: o.layOut.offsets.map fun offset => .inUse offset 0, tail, startXref_write,
    ?_, ?_, rfl, ?_⟩
  · rw [write_eq, readXref_of_standsAt (offset_fits fits), trailer]
  · rw [List.length_cons, List.length_map, placed.count, count]
  · intro id positive reserved
    have inside : id - 1 < o.bodies.length := by omega
    obtain ⟨place, atPlace, stands⟩ := placed.stands (List.getElem?_eq_getElem inside)
    have body : o.bodies[id - 1] = lastBody id calls := by
      rw [← getD_of_run run positive, List.getD_eq_getElem?_getD, List.getElem?_eq_getElem inside,
        Option.getD_some]
    rw [body, Nat.sub_add_cancel positive] at stands
    refine ⟨place, ?_, ?_⟩
    · obtain ⟨previous, rfl⟩ := Nat.exists_eq_add_of_le' positive
      rw [Nat.add_sub_cancel] at atPlace
      rw [List.getElem?_cons_succ, List.getElem?_map, atPlace]
      rfl
    · rw [write_eq]
      exact stands.append _

theorem exists_length (dict : List UInt16) (data : Buffer) :
    ∃ digits, streamBody dict data = latin1 "<< ".toList ++ dict.map UInt16.toUInt8 ++
      latin1 " /Length ".toList ++ digits ++ latin1 " >>\nstream\n".toList ++ data ++
        latin1 "\nendstream".toList ∧ numberOf digits = some data.length :=
  ⟨latin1 (digitsOf data.length), rfl, numberOf_digitsOf data.length⟩

/-- A written file reads back: every object where the table says, every stream with its length,
and every string. -/
theorem write_readsBack (md5 : Buffer → List Char) (normalize : List UInt16 → List Nat)
    (run : ObjectRun calls o) (root info : Nat)
    (fits : (o.write md5 root info).length < 10 ^ 10) :
    (∃ offset entries trailer, startXref (o.write md5 root info) = some offset ∧
      readXref (o.write md5 root info) offset =
        some (entries, latin1 "trailer\n".toList ++ trailer) ∧
      entries.length = reservedBy calls + 1 ∧ entries[0]? = some (.free 0 65535) ∧
      ∀ id, 1 ≤ id → id ≤ reservedBy calls → ∃ place, entries[id]? = some (.inUse place 0) ∧
        StandsAt (objectHead id ++ lastBody id calls ++ latin1 "\nendobj\n".toList) place
          (o.write md5 root info)) ∧
    (∀ dict data, ∃ digits, streamBody dict data = latin1 "<< ".toList ++
      dict.map UInt16.toUInt8 ++ latin1 " /Length ".toList ++ digits ++
        latin1 " >>\nstream\n".toList ++ data ++ latin1 "\nendstream".toList ∧
          numberOf digits = some data.length) ∧
    (∀ s rest, readString (literal s ++ rest) = some (s, rest)) ∧
    (∀ s, ∀ c ∈ toWinAnsi normalize s, IsDrawn c) ∧
    (∀ s rest, readTextString (textString s ++ rest) = some (toWellFormed s, rest)) :=
  ⟨exists_table run fits, exists_length, readString_literal,
    fun _ _ member => isDrawn_of_mem_toWinAnsi member, readTextString_textString⟩

/-- Two ids, the second one set twice. -/
theorem write_readsBack_setTwice :
    ∃ place, StandsAt (latin1 "2 0 obj\n42\nendobj\n".toList) place
      (((((Objects.empty.reserve 2).2.set 2 (.text [0x34, 0x31])).set 2 (.text [0x34, 0x32])).stream 1
        [0x2F, 0x41] [40, 97, 41]).write (fun _ => "1f2c76cac486ac24d2f804e3c9e79186".toList) 1 2) := by
  have run : ObjectRun [.reserve 2, .set 2 (.text [0x34, 0x31]), .set 2 (.text [0x34, 0x32]),
      .stream 1 [0x2F, 0x41] [40, 97, 41]]
      ((((Objects.empty.reserve 2).2.set 2 (.text [0x34, 0x31])).set 2 (.text [0x34, 0x32])).stream 1
        [0x2F, 0x41] [40, 97, 41]) :=
    .stream _ _ (.set _ (.set _ (.reserve 2 .nil) ⟨by decide, by decide⟩) ⟨by decide, by decide⟩)
      ⟨by decide, by decide⟩
  obtain ⟨⟨_, _, _, _, _, _, _, entries⟩, _⟩ := write_readsBack
    (fun _ => "1f2c76cac486ac24d2f804e3c9e79186".toList) (List.map UInt16.toNat) run 1 2
    (by decide +kernel)
  obtain ⟨place, _, stands⟩ := entries 2 (by decide) (by decide)
  exact ⟨place, stands⟩

end Files

end ZabbixPortal.Export
