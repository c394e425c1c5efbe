import ZabbixPortal.Export.PdfStrings

/-! The strings of a PDF file read back as what was written. -/

set_option autoImplicit false

namespace ZabbixPortal.Export

open Foundation

section Encoding

def IsDrawn (c : UInt8) : Prop := (32 ≤ c ∧ c ≤ 126) ∨ 128 ≤ c

theorem isDrawn_winAnsiByte (u : Nat) : IsDrawn (winAnsiByte u) := by
  unfold winAnsiByte
  split
  · exact .inl (by decide)
  · split
    case isTrue shared =>
      have code : (UInt8.ofNat u).toNat = u := UInt8.toNat_ofNat_of_lt' (by
        show u < 256
        omega)
      simp only [IsDrawn, UInt8.le_iff_toNat_le, code, UInt8.reduceToNat]
      omega
    case isFalse =>
      cases found : codeOf u with
      | none => exact .inl (by decide)
      | some c =>
          unfold codeOf at found
          split at found
          · cases found
          · obtain ⟨i, place, code⟩ := Option.map_eq_some_iff.mp found
            have inTable : i < 32 := (List.findIdx?_eq_some_iff_findIdx_eq.mp place).1
            have high : (UInt8.ofNat (0x80 + i)).toNat = 0x80 + i := UInt8.toNat_ofNat_of_lt' (by
              show 0x80 + i < 256
              omega)
            refine .inr ?_
            rw [Option.getD_some, ← code, UInt8.le_iff_toNat_le, high]
            exact Nat.le_add_right _ _

theorem isDrawn_of_mem_toWinAnsi {normalize : List UInt16 → List Nat} {s : List UInt16} {c : UInt8}
    (member : c ∈ toWinAnsi normalize s) : IsDrawn c := by
  obtain ⟨u, _, rfl⟩ := List.mem_map.mp member
  exact isDrawn_winAnsiByte u

end Encoding

section Literals

/-- Three octal digits that name the byte. -/
theorem octal_eq (c : UInt8) :
    ∃ a b d, octal c = [a, b, d] ∧ isOctalDigit a = true ∧ isOctalDigit b = true ∧
      isOctalDigit d = true ∧ octalValue [a, b, d] = c.toNat := by
  have every : ∀ n < 256, (octal (UInt8.ofNat n)).length = 3 ∧
      (octal (UInt8.ofNat n)).all isOctalDigit = true ∧ octalValue (octal (UInt8.ofNat n)) = n := by
    decide +kernel
  obtain ⟨three, digits, value⟩ := every c.toNat c.toNat_lt
  rw [UInt8.ofNat_toNat] at three digits value
  obtain ⟨a, b, d, written⟩ := List.length_eq_three.mp three
  rw [written] at digits value
  simp only [List.all_cons, List.all_nil, Bool.and_true, Bool.and_eq_true] at digits
  exact ⟨a, b, d, written, digits.1, digits.2.1, digits.2.2, value⟩

theorem readEscape_octal (c : UInt8) (rest : Buffer) : readEscape (octal c ++ rest) = ([c], rest) := by
  obtain ⟨a, b, d, written, isOctalA, isOctalB, isOctalD, value⟩ := octal_eq c
  have digits : (([a, b, d] ++ rest).takeWhile isOctalDigit).take 3 = [a, b, d] := by
    rw [List.cons_append, List.takeWhile_cons_of_pos isOctalA, List.cons_append,
      List.takeWhile_cons_of_pos isOctalB, List.cons_append, List.takeWhile_cons_of_pos isOctalD]
    rfl
  rw [written]
  show readEscape (a :: ([b, d] ++ rest)) = _
  rw [readEscape, if_pos isOctalA]
  show ([UInt8.ofNat (octalValue ((([a, b, d] ++ rest).takeWhile isOctalDigit).take 3))],
    ([a, b, d] ++ rest).drop ((([a, b, d] ++ rest).takeWhile isOctalDigit).take 3).length) = _
  rw [digits, value, UInt8.ofNat_toNat, List.drop_left]

theorem readEscape_delimiter {c : UInt8} (delimiter : c = 40 ∨ c = 41 ∨ c = 92) (rest : Buffer) :
    readEscape (c :: rest) = ([c], rest) := by
  obtain rfl | rfl | rfl := delimiter
  · rfl
  · rfl
  · rfl

theorem readLiteral_end (rest : Buffer) : readLiteral 0 (41 :: rest) = some ([], rest) := by
  rw [readLiteral]
  rfl

theorem readLiteral_escape (depth : Nat) (rest : Buffer) :
    readLiteral depth (92 :: rest) = (readLiteral depth (readEscape rest).2).map fun read =>
      ((readEscape rest).1 ++ read.1, read.2) := by
  rw [readLiteral.eq_def]
  simp only
  rw [if_neg (by decide), if_neg (by decide), if_pos trivial]

theorem readLiteral_escapeByte (depth : Nat) (c : UInt8) (rest : Buffer) :
    readLiteral depth (escapeByte c ++ rest) =
      (readLiteral depth rest).map fun read => (c :: read.1, read.2) := by
  unfold escapeByte
  split
  case isTrue delimiter =>
    show readLiteral depth (92 :: c :: rest) = _
    rw [readLiteral_escape, readEscape_delimiter delimiter]
    rfl
  case isFalse plain =>
    split
    case isTrue far =>
      show readLiteral depth (92 :: (octal c ++ rest)) = _
      rw [readLiteral_escape, readEscape_octal]
      rfl
    case isFalse near =>
      obtain ⟨notOpening, notClosing, notBackslash⟩ : c ≠ 40 ∧ c ≠ 41 ∧ c ≠ 92 := by
        simpa only [not_or, ne_eq] using plain
      have notReturn : c ≠ 13 := by
        rintro rfl
        exact near (.inl (by decide))
      show readLiteral depth (c :: rest) = _
      rw [readLiteral.eq_def]
      simp only
      rw [if_neg notClosing, if_neg notOpening, if_neg notBackslash, if_neg notReturn]

theorem readLiteral_flatMap (s : WinAnsiText) (rest : Buffer) :
    readLiteral 0 (s.flatMap escapeByte ++ 41 :: rest) = some (s, rest) := by
  induction s with
  | nil => exact readLiteral_end rest
  | cons c s ih =>
      rw [List.flatMap_cons, List.append_assoc, readLiteral_escapeByte, ih]
      rfl

/-- A literal reads back, whatever bytes it holds. -/
theorem readString_literal (s : WinAnsiText) (rest : Buffer) :
    readString (literal s ++ rest) = some (s, rest) := by
  have whole : literal s ++ rest = 40 :: (s.flatMap escapeByte ++ 41 :: rest) := by
    simp only [literal, List.cons_append, List.append_assoc, List.nil_append]
  rw [whole, readString, readLiteral_flatMap]

end Literals

section HexStrings

theorem readHex_toHex (bytes : Buffer) : readHex (toHex bytes) = some bytes := by
  have every : ∀ n < 256, (hexValueOf (hexDigit (UInt8.ofNat n >>> (4 : UInt8)))).bind (fun high =>
      (hexValueOf (hexDigit (UInt8.ofNat n &&& (15 : UInt8)))).map fun low =>
        high <<< (4 : UInt8) ||| low) = some (UInt8.ofNat n) := by
    decide +kernel
  induction bytes with
  | nil => rfl
  | cons b bytes ih =>
      have byte := every b.toNat b.toNat_lt
      rw [UInt8.ofNat_toNat, Option.bind_eq_some_iff] at byte
      obtain ⟨high, readHigh, byte⟩ := byte
      obtain ⟨low, readLow, together⟩ := Option.map_eq_some_iff.mp byte
      show readHex (hexDigit (b >>> (4 : UInt8)) :: hexDigit (b &&& (15 : UInt8)) :: toHex bytes) = _
      rw [readHex, readHigh, Option.bind_some, readLow, Option.bind_some, ih, Option.map_some,
        together]

/-- What a hexadecimal string is made of: digits, and so neither its end nor a space. -/
theorem hexDigit_mem {bytes : Buffer} {c : UInt8} (member : c ∈ toHex bytes) :
    c ≠ 0x3E ∧ isWhiteSpace c = false := by
  have every : ∀ n < 256, hexDigit (UInt8.ofNat n >>> (4 : UInt8)) ≠ 0x3E ∧
      isWhiteSpace (hexDigit (UInt8.ofNat n >>> (4 : UInt8))) = false ∧
      hexDigit (UInt8.ofNat n &&& (15 : UInt8)) ≠ 0x3E ∧
      isWhiteSpace (hexDigit (UInt8.ofNat n &&& (15 : UInt8))) = false := by
    decide +kernel
  obtain ⟨b, _, inDigits⟩ := List.mem_flatMap.mp member
  obtain ⟨highNotEnd, highNotSpace, lowNotEnd, lowNotSpace⟩ := every b.toNat b.toNat_lt
  rw [UInt8.ofNat_toNat] at highNotEnd highNotSpace lowNotEnd lowNotSpace
  rw [List.mem_pair] at inDigits
  obtain rfl | rfl := inDigits
  · exact ⟨highNotEnd, highNotSpace⟩
  · exact ⟨lowNotEnd, lowNotSpace⟩

theorem join_bytes (u : UInt16) :
    (u >>> (8 : UInt16)).toUInt8.toUInt16 <<< (8 : UInt16) ||| u.toUInt8.toUInt16 = u := by
  have small := u.toNat_lt
  rw [← UInt16.toNat_inj]
  have low : u.toNat % 2 ^ 8 < 2 ^ 8 := Nat.mod_lt _ (by decide)
  have high : u.toNat / 2 ^ 8 % 2 ^ 8 = u.toNat / 2 ^ 8 := by omega
  have shifted : u.toNat / 2 ^ 8 * 2 ^ 8 % 2 ^ 16 = u.toNat / 2 ^ 8 * 2 ^ 8 := by omega
  simp only [UInt16.toNat_or, UInt16.toNat_shiftLeft, UInt16.toNat_shiftRight, UInt8.toNat_toUInt16,
    UInt16.toNat_toUInt8, UInt16.reduceToNat]
  rw [Nat.shiftRight_eq_div_pow, high, Nat.shiftLeft_eq, shifted, ← Nat.shiftLeft_eq,
    ← Nat.shiftLeft_add_eq_or_of_lt low, Nat.shiftLeft_eq, Nat.div_add_mod']

theorem readUtf16be_swap16 (units : List UInt16) :
    readUtf16be (swap16 (utf16le units)) = some units := by
  induction units with
  | nil => rfl
  | cons u units ih =>
      show readUtf16be ((u >>> (8 : UInt16)).toUInt8 :: u.toUInt8 :: swap16 (utf16le units)) = _
      rw [readUtf16be, ih, Option.map_some, join_bytes]

/-- The bytes of a hexadecimal string behind the marks it starts with. -/
theorem readHex_marked (bytes : Buffer) :
    readHex (0x46 :: 0x45 :: 0x46 :: 0x46 :: toHex bytes) = some (0xFE :: 0xFF :: bytes) := by
  have first : readHex (0x46 :: 0x45 :: 0x46 :: 0x46 :: toHex bytes) =
      (readHex (0x46 :: 0x46 :: toHex bytes)).map fun bytes => 0xFE :: bytes := rfl
  have second : readHex (0x46 :: 0x46 :: toHex bytes) =
      (readHex (toHex bytes)).map fun bytes => 0xFF :: bytes := rfl
  rw [first, second, readHex_toHex]
  rfl

theorem readString_hex (bytes rest : Buffer) :
    readString ([0x3C, 0x46, 0x45, 0x46, 0x46] ++ toHex bytes ++ [0x3E] ++ rest) =
      some (0xFE :: 0xFF :: bytes, rest) := by
  obtain ⟨digits, digitsAre⟩ : ∃ digits, digits = 0x46 :: 0x45 :: 0x46 :: 0x46 :: toHex bytes :=
    ⟨_, rfl⟩
  have hexadecimal : ∀ c ∈ digits, c ≠ 0x3E ∧ isWhiteSpace c = false := by
    intro c member
    rw [digitsAre] at member
    simp only [List.mem_cons] at member
    obtain rfl | rfl | rfl | rfl | member := member
    · decide
    · decide
    · decide
    · decide
    · exact hexDigit_mem member
  have notEnd : ∀ c ∈ digits, decide (c ≠ 0x3E) = true := fun c member =>
    decide_eq_true (hexadecimal c member).1
  have whole : [0x3C, 0x46, 0x45, 0x46, 0x46] ++ toHex bytes ++ [0x3E] ++ rest =
      0x3C :: (digits ++ 0x3E :: rest) := by
    rw [digitsAre]
    simp only [List.cons_append, List.nil_append, List.append_assoc]
  have inside : (digits ++ 0x3E :: rest).takeWhile (· ≠ 0x3E) = digits := by
    rw [List.takeWhile_append_of_pos notEnd, List.takeWhile_cons_of_neg (by decide),
      List.append_nil]
  have behind : (digits ++ 0x3E :: rest).dropWhile (· ≠ 0x3E) = 0x3E :: rest := by
    rw [List.dropWhile_append_of_pos notEnd, List.dropWhile_cons_of_neg (by decide)]
  have noSpace : (digits.filter fun c => !isWhiteSpace c) = digits := by
    apply List.filter_eq_self.mpr
    intro c member
    rw [(hexadecimal c member).2, Bool.not_false]
  rw [whole, readString, behind, inside, noSpace, digitsAre, readHex_marked]
  rfl

end HexStrings

section TextStrings

theorem toWellFormed_of_paired {s : List UInt16} (paired : Paired s) : toWellFormed s = s := by
  induction paired with
  | nil => rfl
  | @plain u rest plain paired ih =>
      cases rest with
      | nil => rw [toWellFormed, if_pos plain]
      | cons v rest =>
          have notHigh := ((isPlain_iff u).mp plain).1
          rw [toWellFormed, notHigh, Bool.false_and, if_neg Bool.false_ne_true, if_pos plain, ih]
  | pair isHigh isLow _ ih =>
      rw [toWellFormed, isHigh, isLow, Bool.and_self, if_pos rfl, ih]

theorem isPlain_of_isPrintable {u : UInt16} (printable : isPrintable u = true) : isPlain u = true := by
  simp only [isPrintable, Bool.and_eq_true, decide_eq_true_eq, UInt16.le_iff_toNat_le,
    UInt16.reduceToNat] at printable
  rw [isPlain_iff]
  simp only [isHighSurrogate, isLowSurrogate, Bool.and_eq_false_iff, decide_eq_false_iff_not,
    UInt16.le_iff_toNat_le, UInt16.reduceToNat]
  omega

theorem docEncoding_toUInt8 {u : UInt16} (printable : isPrintable u = true) :
    docEncoding u.toUInt8 = some u := by
  have every : ∀ n < 0x7F, isPrintable (UInt16.ofNat n) = true →
      docEncoding (UInt16.ofNat n).toUInt8 = some (UInt16.ofNat n) := by
    decide +kernel
  have ascii : u.toNat < 0x7F := by
    simp only [isPrintable, Bool.and_eq_true, decide_eq_true_eq, UInt16.le_iff_toNat_le,
      UInt16.reduceToNat] at printable
    omega
  have atUnit := every u.toNat ascii
  rw [UInt16.ofNat_toNat] at atUnit
  exact atUnit printable

theorem mapM_docEncoding {s : List UInt16} (printable : ∀ u ∈ s, isPrintable u = true) :
    (s.map UInt16.toUInt8).mapM docEncoding = some s := by
  induction s with
  | nil => rfl
  | cons u s ih =>
      rw [List.map_cons, List.mapM_cons, docEncoding_toUInt8 (printable u List.mem_cons_self),
        ih fun v member => printable v (.tail _ member)]
      rfl

/-- A text in ASCII has no byte order mark, and so it is not taken for UTF-16. -/
theorem textOfBytes_of_printable {s : List UInt16} (printable : ∀ u ∈ s, isPrintable u = true) :
    textOfBytes (s.map UInt16.toUInt8) = some s := by
  have read := mapM_docEncoding printable
  unfold textOfBytes
  split
  case h_1 rest marked =>
    rw [marked, List.mapM_cons] at read
    cases read
  case h_2 => exact read

/-- A text string reads back as the text, its lone surrogates replaced. -/
theorem readTextString_textString (s : List UInt16) (rest : Buffer) :
    readTextString (textString s ++ rest) = some (toWellFormed s, rest) := by
  unfold textString readTextString
  split
  case isTrue ascii =>
    have printable := List.all_eq_true.mp ascii
    have same := toWellFormed_of_paired
      (Paired.of_plain fun u member => isPlain_of_isPrintable (printable u member))
    rw [readString_literal, Option.bind_some, textOfBytes_of_printable printable, same]
    rfl
  case isFalse =>
    rw [readString_hex, Option.bind_some]
    show ((readUtf16be (swap16 (utf16le (toWellFormed s)))).map fun text => (text, rest)) = _
    rw [readUtf16be_swap16]
    rfl

end TextStrings

end ZabbixPortal.Export
