import ZabbixPortal.Foundation.Joined
import ZabbixPortal.Foundation.Utf8

/-! Query strings: `application/x-www-form-urlencoded`, written and read, and the list of pairs
that `URLSearchParams` keeps. -/

set_option autoImplicit false

namespace ZabbixPortal.Foundation

namespace FormUrlEncoded

/-! ### UTF-8 -/

def bytesOf (text : List Char) : Buffer := text.flatMap String.utf8EncodeChar

/-- UTF-8 decode without BOM: malformed bytes become U+FFFD. -/
def decodeUtf8 (bytes : Buffer) : List Char :=
  let read := feed utf8Byte .start bytes
  (read.2 ++ if read.1.missing = 0 then [] else [REPLACEMENT]).map Char.ofNat

/-! ### Writing -/

/-- A byte that stands for itself: a letter, a digit, or one of `*-._`. -/
def isPlain (b : UInt8) : Bool :=
  (0x30 ≤ b && b ≤ 0x39) || (0x41 ≤ b && b ≤ 0x5A) || (0x61 ≤ b && b ≤ 0x7A) ||
    b = 0x2A || b = 0x2D || b = 0x2E || b = 0x5F

def hexDigit (n : UInt8) : UInt8 := if n < 10 then 0x30 + n else 0x37 + n

def encodeByte (b : UInt8) : Buffer :=
  if b = 0x20 then [0x2B]
  else if isPlain b then [b]
  else [0x25, hexDigit (b / 16), hexDigit (b % 16)]

def encode (text : String) : Buffer := (bytesOf text.toList).flatMap encodeByte

def pairBytes (pair : String × String) : Buffer := encode pair.1 ++ 0x3D :: encode pair.2

def asciiText (bytes : Buffer) : String := String.ofList (bytes.map fun b => Char.ofNat b.toNat)

def serialize (pairs : List (String × String)) : String :=
  asciiText ([0x26].intercalate (pairs.map pairBytes))

/-! ### Reading -/

def hexValue (b : UInt8) : Option UInt8 :=
  if 0x30 ≤ b && b ≤ 0x39 then some (b - 0x30)
  else if 0x41 ≤ b && b ≤ 0x46 then some (b - 0x37)
  else if 0x61 ≤ b && b ≤ 0x66 then some (b - 0x57)
  else none

def percentDecode : Buffer → Buffer
  | 0x25 :: high :: low :: rest =>
      match hexValue high, hexValue low with
      | some high, some low => (high * 16 + low) :: percentDecode rest
      | _, _ => 0x25 :: percentDecode (high :: low :: rest)
  | b :: rest => b :: percentDecode rest
  | [] => []

def plusToSpace (b : UInt8) : UInt8 := if b = 0x2B then 0x20 else b

def decode (bytes : Buffer) : String :=
  String.ofList (decodeUtf8 (percentDecode (bytes.map plusToSpace)))

/-- A part without `=` is a name with an empty value. -/
def readPair (part : Buffer) : String × String :=
  (decode (part.takeWhile (· ≠ 0x3D)), decode (part.dropWhile (· ≠ 0x3D)).tail)

def parse (query : String) : List (String × String) :=
  (((bytesOf query.toList).splitOn 0x26).filter fun part => !part.isEmpty).map readPair

/-! ### What is written is read back -/

/-- A fact about every byte is one about the numbers below 256. -/
theorem forall_byte {holds : UInt8 → Prop} (below : ∀ n < 256, holds (UInt8.ofNat n)) (b : UInt8) :
    holds b := by
  have own := below b.toNat b.toNat_lt_size
  rwa [UInt8.ofNat_toNat] at own

/-- The byte that starts a character of two, three or four bytes. -/
theorem firstByte_two {n : Nat} (low : 2 ≤ n) (below : n < 32) :
    firstByte (UInt8.ofNat (n + 0xC0)) = (⟨n, 1, 0x80, 0xBF⟩, []) := by
  have every : ∀ n < 32, 2 ≤ n →
      firstByte (UInt8.ofNat (n + 0xC0)) = (⟨n, 1, 0x80, 0xBF⟩, []) := by
    decide +kernel
  exact every n below low

theorem firstByte_three {n : Nat} (below : n < 16) :
    firstByte (UInt8.ofNat (n + 0xE0)) =
      (⟨n, 2, if n = 0 then 0xA0 else 0x80, if n = 13 then 0x9F else 0xBF⟩, []) := by
  revert n
  decide +kernel

theorem firstByte_four {n : Nat} (below : n < 5) :
    firstByte (UInt8.ofNat (n + 0xF0)) =
      (⟨n, 3, if n = 0 then 0x90 else 0x80, if n = 4 then 0x8F else 0xBF⟩, []) := by
  revert n
  decide +kernel

/-- A byte that goes on with a character, within the bounds the last one set. -/
theorem utf8Byte_continues {point missing k : Nat} {lower upper : UInt8} (inside : k < 64)
    (low : lower.toNat ≤ k + 0x80) (high : k + 0x80 ≤ upper.toNat) :
    utf8Byte ⟨point, missing + 1, lower, upper⟩ (UInt8.ofNat (k + 0x80)) =
      if missing = 0 then (.start, [point * 64 + k])
      else (⟨point * 64 + k, missing, 0x80, 0xBF⟩, []) := by
  have value : (UInt8.ofNat (k + 0x80)).toNat = k + 0x80 := by
    rw [UInt8.toNat_ofNat', Nat.mod_eq_of_lt (by omega)]
  have allowed : ¬ (UInt8.ofNat (k + 0x80) < lower ∨ upper < UInt8.ofNat (k + 0x80)) := by
    rw [UInt8.lt_iff_toNat_lt, UInt8.lt_iff_toNat_lt, value]
    omega
  have rest : (k + 0x80) % 0x40 = k := by omega
  rw [utf8Byte, if_neg (Nat.succ_ne_zero missing), if_neg allowed]
  simp only [value, rest, Nat.add_sub_cancel, Nat.add_eq_right]

theorem feed_char (c : Char) :
    feed utf8Byte .start (String.utf8EncodeChar c) = (.start, [c.toNat]) := by
  have valid := c.valid
  rw [UInt32.isValidChar, Nat.isValidChar] at valid
  have point : c.toNat = c.val.toNat := rfl
  rw [String.utf8EncodeChar, point]
  generalize c.val.toNat = v at valid ⊢
  have first : ∀ b, utf8Byte .start b = firstByte b := fun b => if_pos rfl
  by_cases one : v ≤ 0x7F
  · have fits : v % 2 ^ 8 = v := Nat.mod_eq_of_lt (by omega)
    have ascii : UInt8.ofNat v ≤ 0x7F := by
      rw [UInt8.le_iff_toNat_le, UInt8.toNat_ofNat', fits]
      exact one
    rw [if_pos one]
    simp only [feed, first, firstByte, if_pos ascii, UInt8.toNat_ofNat', fits, List.append_nil]
  · by_cases two : v ≤ 0x7FF
    · have lead : v / 64 % 32 = v / 64 := by omega
      have whole : v / 64 * 64 + v % 64 = v := by omega
      rw [if_neg one, if_pos two, lead]
      simp only [feed, first]
      rw [firstByte_two (by omega) (by omega)]
      simp only
      rw [@utf8Byte_continues (v / 64) 0 (v % 64) 0x80 0xBF (by omega) (by simp) (by simp; omega)]
      simp [whole]
    · by_cases three : v ≤ 0xFFFF
      · have lead : v / 4096 % 16 = v / 4096 := by omega
        have whole : (v / 4096 * 64 + v / 64 % 64) * 64 + v % 64 = v := by omega
        rw [if_neg one, if_neg two, if_pos three, lead]
        simp only [feed, first]
        rw [firstByte_three (by omega)]
        simp only
        rw [@utf8Byte_continues (v / 4096) 1 (v / 64 % 64) _ _ (by omega)
          (by split <;> simp <;> omega) (by split <;> simp <;> omega)]
        rw [if_neg Nat.one_ne_zero]
        simp only
        rw [@utf8Byte_continues _ 0 (v % 64) 0x80 0xBF (by omega) (by simp) (by simp; omega)]
        simp [whole]
      · have lead : v / 262144 % 8 = v / 262144 := by omega
        have whole : ((v / 262144 * 64 + v / 4096 % 64) * 64 + v / 64 % 64) * 64 + v % 64 = v := by
          omega
        rw [if_neg one, if_neg two, if_neg three, lead]
        simp only [feed, first]
        rw [firstByte_four (by omega)]
        simp only
        rw [@utf8Byte_continues (v / 262144) 2 (v / 4096 % 64) _ _ (by omega)
          (by split <;> simp <;> omega) (by split <;> simp <;> omega)]
        rw [if_neg (Nat.succ_ne_zero 1)]
        simp only
        rw [@utf8Byte_continues _ 1 (v / 64 % 64) 0x80 0xBF (by omega) (by simp) (by simp; omega)]
        rw [if_neg Nat.one_ne_zero]
        simp only
        rw [@utf8Byte_continues _ 0 (v % 64) 0x80 0xBF (by omega) (by simp) (by simp; omega)]
        simp [whole]

theorem decodeUtf8_bytesOf (text : List Char) : decodeUtf8 (bytesOf text) = text := by
  have whole : feed utf8Byte .start (bytesOf text) = (.start, text.map Char.toNat) := by
    induction text with
    | nil => rfl
    | cons c rest ih =>
        rw [bytesOf, List.flatMap_cons, feed_append, feed_char]
        change ((feed utf8Byte .start (bytesOf rest)).1,
          _ ++ (feed utf8Byte .start (bytesOf rest)).2) = _
        rw [ih]
        rfl
  rw [decodeUtf8, whole]
  simp [Utf8State.start, Function.comp_def]

theorem plain_byte (b : UInt8) (plain : isPlain b = true) :
    plusToSpace b = b ∧ b ≠ 0x25 ∧ b ≠ 0x26 ∧ b ≠ 0x3D ∧ b < 0x80 := by
  revert b
  refine forall_byte ?_
  decide +kernel

theorem hexDigit_byte (b : UInt8) :
    hexValue (plusToSpace (hexDigit (b / 16))) = some (b / 16) ∧
      hexValue (plusToSpace (hexDigit (b % 16))) = some (b % 16) ∧ b / 16 * 16 + b % 16 = b := by
  revert b
  refine forall_byte ?_
  decide +kernel

theorem hexDigit_ascii (n : UInt8) (low : n < 16) :
    hexDigit n ≠ 0x26 ∧ hexDigit n ≠ 0x3D ∧ hexDigit n < 0x80 := by
  revert n
  refine forall_byte ?_
  decide +kernel

/-- What is written has no mark in it, and is ASCII. -/
theorem written_byte (b : UInt8) : ∀ c ∈ encodeByte b, c ≠ 0x26 ∧ c ≠ 0x3D ∧ c < 0x80 := by
  intro c member
  rw [encodeByte] at member
  split at member
  · rw [List.mem_singleton.mp member]
    decide
  · split at member
    · next plain =>
        rw [List.mem_singleton.mp member]
        exact (plain_byte b plain).2.2
    · have high : b / 16 < 16 := by
        have below := b.toNat_lt
        rw [UInt8.lt_iff_toNat_lt, UInt8.toNat_div]
        exact Nat.div_lt_of_lt_mul below
      have low : b % 16 < 16 := UInt8.mod_lt b (by decide)
      simp only [List.mem_cons, List.not_mem_nil, or_false] at member
      obtain rfl | rfl | rfl := member
      · decide
      · exact hexDigit_ascii _ high
      · exact hexDigit_ascii _ low

theorem percentDecode_of_ne {b : UInt8} (other : b ≠ 0x25) (rest : Buffer) :
    percentDecode (b :: rest) = b :: percentDecode rest := by
  rw [percentDecode]
  rintro high low rest' same -
  exact other same

theorem percentDecode_encodeByte (b : UInt8) (rest : Buffer) :
    percentDecode ((encodeByte b).map plusToSpace ++ rest) = b :: percentDecode rest := by
  by_cases space : b = 0x20
  · subst b
    exact percentDecode_of_ne (by decide) rest
  · by_cases plain : isPlain b = true
    · obtain ⟨kept, other, -⟩ := plain_byte b plain
      rw [encodeByte, if_neg space, if_pos plain, List.map_singleton, kept]
      exact percentDecode_of_ne other rest
    · obtain ⟨high, low, whole⟩ := hexDigit_byte b
      rw [encodeByte, if_neg space, if_neg plain]
      change percentDecode (0x25 :: plusToSpace (hexDigit (b / 16)) ::
        plusToSpace (hexDigit (b % 16)) :: rest) = _
      rw [percentDecode, high, low]
      simp only [whole]

theorem decode_encode (text : String) : decode (encode text) = text := by
  have bytes : ∀ written : Buffer,
      percentDecode ((written.flatMap encodeByte).map plusToSpace) = written := by
    intro written
    induction written with
    | nil => rfl
    | cons b rest ih => rw [List.flatMap_cons, List.map_append, percentDecode_encodeByte, ih]
  rw [decode, encode, bytes, decodeUtf8_bytesOf, String.ofList_toList]

theorem mem_encode {text : String} {b : UInt8} (member : b ∈ encode text) :
    b ≠ 0x26 ∧ b ≠ 0x3D ∧ b < 0x80 := by
  obtain ⟨source, -, written⟩ := List.mem_flatMap.mp member
  exact written_byte source b written

theorem mem_pairBytes {pair : String × String} {b : UInt8} (member : b ∈ pairBytes pair) :
    b ≠ 0x26 ∧ b < 0x80 := by
  cases List.mem_append.mp member with
  | inl name => exact ⟨(mem_encode name).1, (mem_encode name).2.2⟩
  | inr rest =>
      cases List.mem_cons.mp rest with
      | inl mark => subst b; decide
      | inr value => exact ⟨(mem_encode value).1, (mem_encode value).2.2⟩

theorem readPair_pairBytes (pair : String × String) : readPair (pairBytes pair) = pair := by
  have plain : ∀ b ∈ encode pair.1, decide (b ≠ 0x3D) = true := fun b member =>
    decide_eq_true (mem_encode member).2.1
  have name : (pairBytes pair).takeWhile (· ≠ 0x3D) = encode pair.1 := by
    rw [pairBytes, List.takeWhile_append_of_pos plain, List.takeWhile_cons_of_neg (by decide),
      List.append_nil]
  have value : (pairBytes pair).dropWhile (· ≠ 0x3D) = 0x3D :: encode pair.2 := by
    rw [pairBytes, List.dropWhile_append_of_pos plain, List.dropWhile_cons_of_neg (by decide)]
  rw [readPair, name, value, List.tail_cons, decode_encode, decode_encode]

theorem bytesOf_ascii {bytes : Buffer} (ascii : ∀ b ∈ bytes, b < 0x80) :
    bytesOf (asciiText bytes).toList = bytes := by
  have one : ∀ b : UInt8, b < 0x80 → String.utf8EncodeChar (Char.ofNat b.toNat) = [b] := by
    refine forall_byte ?_
    decide +kernel
  rw [asciiText, String.toList_ofList, bytesOf]
  induction bytes with
  | nil => rfl
  | cons b rest ih =>
      rw [List.map_cons, List.flatMap_cons, one b (ascii b List.mem_cons_self),
        ih fun other member => ascii other (List.mem_cons_of_mem _ member)]
      rfl

theorem pairBytes_ne_nil (pair : String × String) : pairBytes pair ≠ [] :=
  List.append_ne_nil_of_right_ne_nil _ (List.cons_ne_nil _ _)

theorem serialize_ascii (pairs : List (String × String)) :
    ∀ b ∈ [0x26].intercalate (pairs.map pairBytes), b < 0x80 := by
  intro b member
  cases mem_intercalate member with
  | inl mark => subst b; decide
  | inr inside =>
      obtain ⟨part, written, inPart⟩ := inside
      obtain ⟨pair, -, rfl⟩ := List.mem_map.mp written
      exact (mem_pairBytes inPart).2

/-- Any list of names and values is read back as it was written. -/
theorem parse_serialize (pairs : List (String × String)) : parse (serialize pairs) = pairs := by
  rw [parse, serialize, bytesOf_ascii (serialize_ascii pairs)]
  cases pairs with
  | nil => rfl
  | cons pair rest =>
      rw [List.splitOn_intercalate]
      · have whole : ((pair :: rest).map pairBytes).filter (fun part => !part.isEmpty) =
            (pair :: rest).map pairBytes := by
          refine List.filter_eq_self.mpr fun part member => ?_
          obtain ⟨source, -, rfl⟩ := List.mem_map.mp member
          simpa using pairBytes_ne_nil source
        rw [whole, List.map_map]
        exact List.map_id'' readPair_pairBytes _
      · intro part member
        obtain ⟨source, -, rfl⟩ := List.mem_map.mp member
        exact fun mark => (mem_pairBytes mark).1 rfl
      · exact List.cons_ne_nil _ _

example : serialize [("q", "a b&é"), ("x", "")] = "q=a+b%26%C3%A9&x=" := by decide +kernel

end FormUrlEncoded

namespace SearchParams

/-! ### The pairs of `URLSearchParams` -/

def get (name : String) (pairs : List (String × String)) : Option String :=
  (pairs.find? fun pair => pair.1 = name).map (·.2)

def delete (name : String) (pairs : List (String × String)) : List (String × String) :=
  pairs.filter fun pair => pair.1 ≠ name

/-- The first pair of the name takes the value, the others of the name go. -/
def set (name value : String) : List (String × String) → List (String × String)
  | [] => [(name, value)]
  | pair :: rest =>
      if pair.1 = name then (name, value) :: delete name rest else pair :: set name value rest

theorem get_filter {name : String} {keep : String → Bool} (kept : keep name = true)
    (pairs : List (String × String)) :
    get name (pairs.filter fun pair => keep pair.1) = get name pairs := by
  rw [get, get, List.find?_filter]
  congr 2
  funext pair
  by_cases own : pair.1 = name
  · simp [own, kept]
  · simp [own]

theorem get_set (name value : String) (pairs : List (String × String)) :
    get name (set name value pairs) = some value := by
  induction pairs with
  | nil => simp [get, set]
  | cons pair rest ih =>
      by_cases own : pair.1 = name
      · simp [get, set, own]
      · rw [set, if_neg own, get, List.find?_cons_of_neg (by simpa using own)]
        exact ih

theorem get_delete (name : String) (pairs : List (String × String)) :
    get name (delete name pairs) = none := by
  rw [get, delete, Option.map_eq_none_iff, List.find?_eq_none]
  intro pair member
  have other := List.of_mem_filter member
  simpa using other

variable {name : String} {keep : String → Bool}

theorem delete_filter (keep : String → Bool) (name : String) (pairs : List (String × String)) :
    (delete name pairs).filter (fun pair => keep pair.1) =
      delete name (pairs.filter fun pair => keep pair.1) := by
  rw [delete, delete, List.filter_filter, List.filter_filter]
  congr 1
  funext pair
  exact Bool.and_comm _ _

theorem delete_of_dropped (dropped : keep name = false) (pairs : List (String × String)) :
    (delete name pairs).filter (fun pair => keep pair.1) = pairs.filter fun pair => keep pair.1 := by
  rw [delete, List.filter_filter]
  congr 1
  funext pair
  by_cases own : pair.1 = name
  · simp [own, dropped]
  · simp [own]

theorem set_of_dropped (dropped : keep name = false) (value : String)
    (pairs : List (String × String)) :
    (set name value pairs).filter (fun pair => keep pair.1) =
      pairs.filter fun pair => keep pair.1 := by
  induction pairs with
  | nil => simp [set, dropped]
  | cons pair rest ih =>
      by_cases own : pair.1 = name
      · rw [set, if_pos own, List.filter_cons_of_neg (by simp [dropped]), delete_of_dropped dropped,
          List.filter_cons_of_neg (by simp [own, dropped])]
      · rw [set, if_neg own, List.filter_cons, List.filter_cons, ih]

theorem set_of_kept (kept : keep name = true) (value : String) (pairs : List (String × String)) :
    (set name value pairs).filter (fun pair => keep pair.1) =
      set name value (pairs.filter fun pair => keep pair.1) := by
  induction pairs with
  | nil => simp [set, kept]
  | cons pair rest ih =>
      by_cases own : pair.1 = name
      · rw [set, if_pos own, List.filter_cons_of_pos (by simp [kept]), delete_filter,
          List.filter_cons_of_pos (by simp [own, kept]), set, if_pos own]
      · rw [set, if_neg own, List.filter_cons, List.filter_cons, ih]
        by_cases stays : keep pair.1 = true
        · rw [if_pos stays, if_pos stays, set, if_neg own]
        · rw [if_neg stays, if_neg stays]

end SearchParams

end ZabbixPortal.Foundation
