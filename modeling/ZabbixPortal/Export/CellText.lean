import ZabbixPortal.Foundation.OrderedMap
import ZabbixPortal.Foundation.Replace
import Mathlib.Data.List.Basic

/-! The text of a workbook cell, over UTF-16 code units, and how Excel reads it back. -/

set_option autoImplicit false

namespace ZabbixPortal.Export

open Foundation

def MAX_CELL_CHARS : Nat := 32767

def isHighSurrogate (u : UInt16) : Bool := 0xD800 ≤ u && u ≤ 0xDBFF

def isLowSurrogate (u : UInt16) : Bool := 0xDC00 ≤ u && u ≤ 0xDFFF

def isForbidden (u : UInt16) : Bool :=
  u ≤ 0x08 || u == 0x0B || u == 0x0C || (0x0E ≤ u && u ≤ 0x1F) || u == 0xFFFE || u == 0xFFFF

def isIllegal (previous : Option UInt16) (u : UInt16) (next : Option UInt16) : Bool :=
  isForbidden u || (isHighSurrogate u && !next.any isLowSurrogate) ||
    (isLowSurrogate u && !previous.any isHighSurrogate)

/-- `replace(ILLEGAL_XML, '')`, which looks around in the text as it was. -/
def withoutIllegal (previous : Option UInt16) : List UInt16 → List UInt16
  | [] => []
  | u :: rest =>
      if isIllegal previous u rest.head? then withoutIllegal (some u) rest
      else u :: withoutIllegal (some u) rest

/-- `replace(/\r\n?/g, '\n')` -/
def unifyNewlines : List UInt16 → List UInt16
  | [] => []
  | [u] => [if u = 0x0D then 0x0A else u]
  | u :: next :: rest =>
      if u = 0x0D then
        if next = 0x0A then 0x0A :: unifyNewlines rest else 0x0A :: unifyNewlines (next :: rest)
      else u :: unifyNewlines (next :: rest)

/-- Cuts to `max` UTF-16 units without splitting a surrogate pair. -/
def cut (s : List UInt16) (max : Nat) : List UInt16 :=
  if s.length ≤ max then s
  else s.take (if (s[max - 1]?).any isHighSurrogate then max - 1 else max)

def sanitised (raw : List UInt16) : List UInt16 :=
  cut (unifyNewlines (withoutIllegal none raw)) MAX_CELL_CHARS

def UNDERSCORE : UInt16 := 0x5F

def hexValue (u : UInt16) : Option UInt16 :=
  if 0x30 ≤ u && u ≤ 0x39 then some (u - 0x30)
  else if 0x41 ≤ u && u ≤ 0x46 then some (u - 0x37)
  else if 0x61 ≤ u && u ≤ 0x66 then some (u - 0x57)
  else none

def bodyCode : List UInt16 → Option UInt16
  | [x, a, b, c, d] =>
      if x = 0x78 then
        (hexValue a).bind fun a => (hexValue b).bind fun b => (hexValue c).bind fun c =>
          (hexValue d).map fun d => 4096 * a + 256 * b + 16 * c + d
      else none
  | _ => none

def groupCode : List UInt16 → Option UInt16
  | [] => none
  | u :: rest =>
      if u = UNDERSCORE ∧ rest[5]? = some UNDERSCORE then bodyCode (rest.take 5) else none

def UNDERSCORE_BODY : List UInt16 := [0x78, 0x30, 0x30, 0x35, 0x46]

/-- `replace(/_(x[0-9A-Fa-f]{4}_)/g, '_x005F_$1')` -/
def escapeGroups : List UInt16 → List UInt16 :=
  replaceAll 7 fun text => (groupCode text).map fun _ =>
    UNDERSCORE :: (UNDERSCORE_BODY ++ UNDERSCORE :: (text.take 7).tail)

def cellText (raw : List UInt16) : List UInt16 := escapeGroups (sanitised raw)

/-- How Excel reads a stored string: each group from the left is the character it names. -/
def excelReads : List UInt16 → List UInt16 :=
  replaceAll 7 fun text => (groupCode text).map fun code => [code]

def SharesUnderscore (text : List UInt16) : Prop :=
  ∃ position, (groupCode (text.drop position)).isSome ∧
    (groupCode (text.drop (position + 6))).isSome

/-- The shared string table: every text once, with its place, and how often one was asked for. -/
structure SharedStrings where
  index : OrderedMap (List UInt16) Nat
  refs : Nat

namespace SharedStrings

def empty : SharedStrings := { index := .empty, refs := 0 }

def add (strings : SharedStrings) (raw : List UInt16) : Nat × SharedStrings :=
  let s := cellText raw
  match strings.index.get? s with
  | some i => (i, { strings with refs := strings.refs + 1 })
  | none =>
      let i := strings.index.size
      (i, { index := strings.index.set s i, refs := strings.refs + 1 })

def afterAll (strings : SharedStrings) (raws : List (List UInt16)) : SharedStrings :=
  raws.foldl (fun strings raw => (strings.add raw).2) strings

def Numbered (strings : SharedStrings) : Prop :=
  ∀ (i : Nat) (entry : List UInt16 × Nat), strings.index.entries[i]? = some entry → entry.2 = i

theorem Numbered.empty : Numbered .empty := by
  intro i entry here
  simp [SharedStrings.empty] at here

theorem add_of_some {strings : SharedStrings} {raw : List UInt16} {i : Nat}
    (found : strings.index.get? (cellText raw) = some i) :
    strings.add raw = (i, { strings with refs := strings.refs + 1 }) := by
  simp only [add, found]

theorem add_of_none {strings : SharedStrings} {raw : List UInt16}
    (absent : strings.index.get? (cellText raw) = none) :
    strings.add raw = (strings.index.size,
      { index := strings.index.set (cellText raw) strings.index.size
        refs := strings.refs + 1 }) := by
  simp only [add, absent]

theorem entries_set_size {strings : SharedStrings} {raw : List UInt16}
    (absent : strings.index.get? (cellText raw) = none) :
    (strings.index.set (cellText raw) strings.index.size).entries =
      strings.index.entries ++ [(cellText raw, strings.index.entries.length)] :=
  OrderedMap.entries_set_of_absent _ _ ((OrderedMap.get?_eq_none_iff _ _).mp absent)

theorem entries_add (strings : SharedStrings) (raw : List UInt16) :
    (strings.add raw).2.index.entries = strings.index.entries ∨
      (strings.add raw).2.index.entries =
        strings.index.entries ++ [(cellText raw, strings.index.entries.length)] := by
  cases found : strings.index.get? (cellText raw) with
  | some i => exact .inl (by rw [add_of_some found])
  | none => exact .inr (by rw [add_of_none found, entries_set_size found])

theorem Numbered.add {strings : SharedStrings} (numbered : strings.Numbered) (raw : List UInt16) :
    (strings.add raw).2.Numbered := by
  intro i entry here
  rcases strings.entries_add raw with same | longer
  · rw [same] at here
    exact numbered i entry here
  · rw [longer, List.getElem?_append] at here
    split at here
    · exact numbered i entry here
    · rename_i behind
      cases last : i - strings.index.entries.length with
      | zero =>
          rw [last] at here
          cases here
          simp only
          omega
      | succ more =>
          rw [last] at here
          cases here

theorem getElem?_add {strings : SharedStrings} {i : Nat} {entry : List UInt16 × Nat}
    (here : strings.index.entries[i]? = some entry) (raw : List UInt16) :
    (strings.add raw).2.index.entries[i]? = some entry := by
  rcases strings.entries_add raw with same | longer
  · rw [same, here]
  · have inside : i < strings.index.entries.length := (List.getElem?_eq_some_iff.mp here).1
    rw [longer, List.getElem?_append_left inside, here]

theorem getElem?_afterAll {strings : SharedStrings} {i : Nat} {entry : List UInt16 × Nat}
    (here : strings.index.entries[i]? = some entry) (raws : List (List UInt16)) :
    (strings.afterAll raws).index.entries[i]? = some entry := by
  induction raws generalizing strings with
  | nil => exact here
  | cons raw raws ih => exact ih (getElem?_add here raw)

theorem Numbered.afterAll {strings : SharedStrings} (numbered : strings.Numbered)
    (raws : List (List UInt16)) : (strings.afterAll raws).Numbered := by
  induction raws generalizing strings with
  | nil => exact numbered
  | cons raw raws ih => exact ih (numbered.add raw)

/-- The number a cell is given names its text in the finished table. -/
theorem add_names (before after : List (List UInt16)) (raw : List UInt16) :
    let added := (empty.afterAll before).add raw
    ((added.2.afterAll after).index.entries[added.1]?).map Prod.fst = some (cellText raw) := by
  have numbered := Numbered.empty.afterAll before
  generalize empty.afterAll before = strings at numbered
  have entry : (strings.add raw).2.index.entries[(strings.add raw).1]? =
      some (cellText raw, (strings.add raw).1) := by
    cases found : strings.index.get? (cellText raw) with
    | some i =>
        have member := (OrderedMap.get?_eq_some_iff _ _ _).mp found
        obtain ⟨place, inside, here⟩ := List.getElem_of_mem member
        have same : i = place :=
          numbered place (cellText raw, i) (List.getElem?_eq_some_iff.mpr ⟨inside, here⟩)
        subst same
        rw [add_of_some found]
        exact List.getElem?_eq_some_iff.mpr ⟨inside, here⟩
    | none =>
        rw [add_of_none found, entries_set_size found]
        simp [OrderedMap.size]
  simp only [getElem?_afterAll entry after, Option.map_some]

end SharedStrings

/-! ## Groups -/

theorem length_of_bodyCode {body : List UInt16} {code : UInt16} (named : bodyCode body = some code) :
    body.length = 5 := by
  unfold bodyCode at named
  split at named
  · rfl
  · cases named

theorem underscore_not_mem_of_bodyCode {body : List UInt16} {code : UInt16}
    (named : bodyCode body = some code) : UNDERSCORE ∉ body := by
  have noHex : hexValue 95 = none := by decide
  unfold bodyCode at named
  split at named
  · rename_i x a b c d
    intro member
    simp only [List.mem_cons, List.not_mem_nil, or_false] at member
    rcases member with rfl | rfl | rfl | rfl | rfl <;> simp [UNDERSCORE, noHex] at named
  · cases named

theorem groupCode_eq_some_iff {text : List UInt16} {code : UInt16} :
    groupCode text = some code ↔
      ∃ body rest, text = UNDERSCORE :: (body ++ UNDERSCORE :: rest) ∧ bodyCode body = some code := by
  constructor
  · intro here
    cases text with
    | nil => cases here
    | cons u rest =>
        rw [groupCode] at here
        split at here
        · rename_i shape
          obtain ⟨rfl, closed⟩ := shape
          obtain ⟨inside, close⟩ := List.getElem?_eq_some_iff.mp closed
          refine ⟨rest.take 5, rest.drop 6, ?_, here⟩
          rw [← close, ← List.drop_eq_getElem_cons inside, List.take_append_drop]
        · cases here
  · rintro ⟨body, rest, rfl, named⟩
    have five := length_of_bodyCode named
    rw [groupCode, if_pos ⟨rfl, by simp [five]⟩,
      List.take_append_of_le_length (by omega), List.take_of_length_le (by omega), named]

theorem groupCode_of_ne {u : UInt16} {rest : List UInt16} (other : u ≠ UNDERSCORE) :
    groupCode (u :: rest) = none := by
  rw [groupCode, if_neg fun shape => other shape.1]

private theorem split_at_underscore {front other rest more : List UInt16}
    (plain : UNDERSCORE ∉ front) (otherPlain : UNDERSCORE ∉ other)
    (same : front ++ UNDERSCORE :: rest = other ++ UNDERSCORE :: more) : front = other := by
  have cut : ∀ {part tail : List UInt16}, UNDERSCORE ∉ part →
      (part ++ UNDERSCORE :: tail).takeWhile (· ≠ UNDERSCORE) = part := by
    intro part tail absent
    rw [List.takeWhile_append_of_pos fun u member => by
      rw [decide_eq_true_eq]
      rintro rfl
      exact absent member]
    simp
  rw [← cut plain , same, cut otherPlain]

/-- Whether a group starts at an underscore depends on what stands before the next one. -/
theorem groupCode_underscore {front : List UInt16} (plain : UNDERSCORE ∉ front)
    (rest : List UInt16) :
    groupCode (UNDERSCORE :: (front ++ UNDERSCORE :: rest)) = bodyCode front := by
  cases named : bodyCode front with
  | some code => exact groupCode_eq_some_iff.mpr ⟨front, rest, rfl, named⟩
  | none =>
      cases here : groupCode (UNDERSCORE :: (front ++ UNDERSCORE :: rest)) with
      | none => rfl
      | some code =>
          obtain ⟨body, more, split, body_named⟩ := groupCode_eq_some_iff.mp here
          have same := split_at_underscore plain (underscore_not_mem_of_bodyCode body_named)
            (List.cons.inj split).2
          rw [same, body_named] at named
          cases named

theorem groupCode_underscore_plain {front : List UInt16} (plain : UNDERSCORE ∉ front) :
    groupCode (UNDERSCORE :: front) = none := by
  cases here : groupCode (UNDERSCORE :: front) with
  | none => rfl
  | some code =>
      obtain ⟨body, rest, split, -⟩ := groupCode_eq_some_iff.mp here
      exact absurd (by rw [(List.cons.inj split).2]; simp) plain

theorem groupCode_of_doubled (rest : List UInt16) :
    groupCode (UNDERSCORE :: UNDERSCORE :: rest) = none :=
  groupCode_underscore List.not_mem_nil rest

/-- A text is empty, starts with a unit no group starts at, or starts with a group. -/
theorem group_cases (text : List UInt16) :
    text = [] ∨ (∃ u rest, text = u :: rest ∧ groupCode text = none) ∨
      ∃ body code rest, text = UNDERSCORE :: (body ++ UNDERSCORE :: rest) ∧
        bodyCode body = some code := by
  cases text with
  | nil => exact .inl rfl
  | cons u rest =>
      cases here : groupCode (u :: rest) with
      | none => exact .inr (.inl ⟨u, rest, rfl, rfl⟩)
      | some code =>
          obtain ⟨body, more, split, named⟩ := groupCode_eq_some_iff.mp here
          exact .inr (.inr ⟨body, code, more, split, named⟩)

theorem drop_group {body : List UInt16} {code : UInt16} (named : bodyCode body = some code)
    (rest : List UInt16) : (UNDERSCORE :: (body ++ UNDERSCORE :: rest)).drop 7 = rest := by
  have five := length_of_bodyCode named
  rw [List.drop_succ_cons, List.drop_append, List.drop_of_length_le (by omega), five]
  rfl

/-! ## Escaping and reading -/

theorem escapeGroups_plain {u : UInt16} {rest : List UInt16} (absent : groupCode (u :: rest) = none) :
    escapeGroups (u :: rest) = u :: escapeGroups rest :=
  replaceAll_of_none (by rw [absent]; rfl)

theorem escapeGroups_group {body : List UInt16} {code : UInt16} (named : bodyCode body = some code)
    (rest : List UInt16) :
    escapeGroups (UNDERSCORE :: (body ++ UNDERSCORE :: rest)) =
      UNDERSCORE :: (UNDERSCORE_BODY ++ UNDERSCORE :: (body ++ UNDERSCORE :: escapeGroups rest)) := by
  have five := length_of_bodyCode named
  have here := groupCode_eq_some_iff.mpr ⟨body, rest, rfl, named⟩
  have front : (UNDERSCORE :: (body ++ UNDERSCORE :: rest)).take 7 =
      UNDERSCORE :: (body ++ [UNDERSCORE]) := by
    rw [List.take_succ_cons, List.take_append, List.take_of_length_le (by omega), five]
    rfl
  rw [escapeGroups, replaceAll_of_some (by decide) (by rw [here]; rfl), drop_group named, front]
  simp

theorem excelReads_plain {u : UInt16} {rest : List UInt16} (absent : groupCode (u :: rest) = none) :
    excelReads (u :: rest) = u :: excelReads rest :=
  replaceAll_of_none (by rw [absent]; rfl)

theorem excelReads_group {body : List UInt16} {code : UInt16} (named : bodyCode body = some code)
    (rest : List UInt16) :
    excelReads (UNDERSCORE :: (body ++ UNDERSCORE :: rest)) = code :: excelReads rest := by
  have here := groupCode_eq_some_iff.mpr ⟨body, rest, rfl, named⟩
  rw [excelReads, replaceAll_of_some (by decide) (by rw [here]; rfl), drop_group named]
  rfl

section Front

variable {front : List UInt16} (plain : UNDERSCORE ∉ front)

include plain

private theorem groupCode_inside {before after : List UInt16} (rest : List UInt16)
    (split : front = before ++ after) (nonempty : after ≠ []) :
    groupCode (after ++ rest) = none := by
  cases after with
  | nil => exact absurd rfl nonempty
  | cons u more =>
      apply groupCode_of_ne
      rintro rfl
      exact plain (by rw [split]; simp)

theorem escapeGroups_append (rest : List UInt16) :
    escapeGroups (front ++ rest) = front ++ escapeGroups rest :=
  replaceAll_append fun _ _ split nonempty => by
    rw [groupCode_inside plain rest split nonempty]
    rfl

theorem excelReads_append (rest : List UInt16) :
    excelReads (front ++ rest) = front ++ excelReads rest :=
  replaceAll_append fun _ _ split nonempty => by
    rw [groupCode_inside plain rest split nonempty]
    rfl

end Front

theorem exists_escapeGroups_underscore (rest : List UInt16) :
    ∃ more, escapeGroups (UNDERSCORE :: rest) = UNDERSCORE :: more := by
  rcases group_cases (UNDERSCORE :: rest) with empty | ⟨u, more, split, absent⟩ |
      ⟨body, code, more, split, named⟩
  · cases empty
  · exact ⟨escapeGroups rest, escapeGroups_plain (by rw [split] at absent ⊢; exact absent)⟩
  · rw [split, escapeGroups_group named]
    exact ⟨_, rfl⟩

/-- Escaping what follows an underscore neither makes nor breaks a group that starts there. -/
theorem groupCode_escapeGroups (rest : List UInt16) :
    groupCode (UNDERSCORE :: escapeGroups rest) = groupCode (UNDERSCORE :: rest) := by
  by_cases plain : UNDERSCORE ∈ rest
  · obtain ⟨front, back, rfl, absent⟩ := List.eq_append_cons_of_mem plain
    obtain ⟨more, escaped⟩ := exists_escapeGroups_underscore back
    rw [escapeGroups_append absent, escaped, groupCode_underscore absent,
      groupCode_underscore absent]
  · have same : escapeGroups rest = rest := by
      have whole := escapeGroups_append plain []
      simpa [escapeGroups] using whole
    rw [same]

/-- A group is read as the text it was, up to its last underscore. -/
theorem excelReads_escapeGroups_group {body : List UInt16} {code : UInt16}
    (named : bodyCode body = some code) (rest : List UInt16) :
    excelReads (escapeGroups (UNDERSCORE :: (body ++ UNDERSCORE :: rest))) =
      UNDERSCORE :: (body ++ excelReads (UNDERSCORE :: escapeGroups rest)) := by
  have underscore : bodyCode UNDERSCORE_BODY = some UNDERSCORE := by decide
  rw [escapeGroups_group named, excelReads_group underscore,
    excelReads_append (underscore_not_mem_of_bodyCode named)]

theorem excelReads_escapeGroups_plain {u : UInt16} {rest : List UInt16}
    (absent : groupCode (u :: rest) = none) :
    excelReads (escapeGroups (u :: rest)) = u :: excelReads (escapeGroups rest) := by
  rw [escapeGroups_plain absent]
  apply excelReads_plain
  by_cases underscore : u = UNDERSCORE
  · subst underscore
    rw [groupCode_escapeGroups, absent]
  · exact groupCode_of_ne underscore

theorem sharesUnderscore_cons {u : UInt16} {rest : List UInt16} :
    SharesUnderscore (u :: rest) ↔
      ((groupCode (u :: rest)).isSome ∧ (groupCode ((u :: rest).drop 6)).isSome) ∨
        SharesUnderscore rest := by
  constructor
  · rintro ⟨position, first, second⟩
    cases position with
    | zero => exact .inl ⟨first, second⟩
    | succ position => exact .inr ⟨position, first, second⟩
  · rintro (here | ⟨position, first, second⟩)
    · exact ⟨0, here⟩
    · exact ⟨position + 1, first, second⟩

theorem sharesUnderscore_append {front : List UInt16} (plain : UNDERSCORE ∉ front)
    (rest : List UInt16) : SharesUnderscore (front ++ rest) ↔ SharesUnderscore rest := by
  induction front with
  | nil => rfl
  | cons u front ih =>
      have other : u ≠ UNDERSCORE := by
        rintro rfl
        exact plain (by simp)
      rw [List.cons_append, sharesUnderscore_cons, groupCode_of_ne other,
        ih fun member => plain (List.mem_cons_of_mem u member)]
      simp

theorem sharesUnderscore_group {body : List UInt16} {code : UInt16}
    (named : bodyCode body = some code) (rest : List UInt16) :
    SharesUnderscore (UNDERSCORE :: (body ++ UNDERSCORE :: rest)) ↔
      (groupCode (UNDERSCORE :: rest)).isSome ∨ SharesUnderscore rest := by
  have five := length_of_bodyCode named
  have behind : (UNDERSCORE :: (body ++ UNDERSCORE :: rest)).drop 6 = UNDERSCORE :: rest := by
    rw [List.drop_succ_cons, List.drop_append_of_le_length (by omega),
      List.drop_of_length_le (by omega), List.nil_append]
  have here := groupCode_eq_some_iff.mpr ⟨body, rest, rfl, named⟩
  rw [sharesUnderscore_cons, sharesUnderscore_append (underscore_not_mem_of_bodyCode named),
    sharesUnderscore_cons, behind, here]
  constructor
  · rintro (⟨-, group⟩ | ⟨group, -⟩ | later)
    · exact .inl group
    · exact .inl group
    · exact .inr later
  · rintro (group | later)
    · exact .inl ⟨rfl, group⟩
    · exact .inr (.inr later)

theorem excelReads_escapeGroups (text : List UInt16) (apart : ¬ SharesUnderscore text) :
    excelReads (escapeGroups text) = text := by
  induction size : text.length using Nat.strongRecOn generalizing text with
  | _ size ih =>
      rcases group_cases text with rfl | ⟨u, rest, rfl, absent⟩ | ⟨body, code, rest, rfl, named⟩
      · rfl
      · have restApart : ¬ SharesUnderscore rest := fun shares =>
          apart (sharesUnderscore_cons.mpr (.inr shares))
        rw [excelReads_escapeGroups_plain absent,
          ih rest.length (by rw [← size, List.length_cons]; omega) rest restApart rfl]
      · rw [sharesUnderscore_group named, not_or] at apart
        have noGroup : groupCode (UNDERSCORE :: rest) = none :=
          Option.not_isSome_iff_eq_none.mp apart.1
        rw [excelReads_escapeGroups_group named, excelReads_plain (by rw [groupCode_escapeGroups, noGroup]),
          ih rest.length (by rw [← size]; simp; omega) rest apart.2 rfl]

/-- Behind an underscore that closed a group, a further group is read as one character. -/
private theorem length_excelReads_behind {body : List UInt16} {code : UInt16}
    (named : bodyCode body = some code) (more : List UInt16)
    (bounded : ∀ text : List UInt16, text.length ≤ more.length →
      (excelReads (escapeGroups text)).length ≤ text.length) :
    (excelReads (UNDERSCORE :: escapeGroups (body ++ UNDERSCORE :: more))).length ≤
      (body ++ UNDERSCORE :: more).length := by
  have five := length_of_bodyCode named
  rw [escapeGroups_append (underscore_not_mem_of_bodyCode named)]
  rcases group_cases (UNDERSCORE :: more) with empty | ⟨u, rest, split, absent⟩ |
      ⟨second, secondCode, rest, split, secondNamed⟩
  · cases empty
  · have within := bounded more (Nat.le_refl _)
    rw [escapeGroups_plain absent, excelReads_group named]
    simp only [List.length_cons, List.length_append]
    omega
  · have underscore : bodyCode UNDERSCORE_BODY = some UNDERSCORE := by decide
    have secondFive := length_of_bodyCode secondNamed
    have size := congrArg List.length split
    simp only [List.length_cons, List.length_append, secondFive] at size
    have within := bounded rest (by omega)
    rw [split, escapeGroups_group secondNamed, excelReads_group named,
      excelReads_append (underscore_not_mem_of_bodyCode underscore), excelReads_group secondNamed]
    simp only [List.length_cons, List.length_append, five, secondFive,
      length_of_bodyCode underscore]
    omega

/-- Reading back never lengthens a text, and shortens it where groups share an underscore: the
second of them is read as one character. -/
theorem length_excelReads (text : List UInt16) :
    (excelReads (escapeGroups text)).length ≤ text.length ∧
      (SharesUnderscore text → (excelReads (escapeGroups text)).length < text.length) ∧
      ((groupCode (UNDERSCORE :: text)).isSome →
        (excelReads (UNDERSCORE :: escapeGroups text)).length ≤ text.length) := by
  induction size : text.length using Nat.strongRecOn generalizing text with
  | _ size ih =>
      rcases group_cases text with rfl | ⟨u, rest, rfl, absent⟩ | ⟨body, code, rest, rfl, named⟩
      · refine ⟨Nat.zero_le _, ?_, ?_⟩
        · rintro ⟨position, first, -⟩
          simp [groupCode] at first
        · intro group
          rw [groupCode_underscore_plain (by simp)] at group
          cases group
      · rw [excelReads_escapeGroups_plain absent, sharesUnderscore_cons, absent]
        rw [List.length_cons] at size
        obtain ⟨within, shorter, -⟩ := ih rest.length (by omega) rest rfl
        refine ⟨by rw [List.length_cons]; omega, ?_, ?_⟩
        · rintro (⟨group, -⟩ | shares)
          · cases group
          · have := shorter shares
            rw [List.length_cons]
            omega
        · intro group
          obtain ⟨code, group⟩ := Option.isSome_iff_exists.mp group
          obtain ⟨body, more, split, named⟩ := groupCode_eq_some_iff.mp group
          have whole := congrArg List.length (List.cons.inj split).2
          rw [List.length_cons] at whole
          rw [(List.cons.inj split).2, ← size, whole]
          apply length_excelReads_behind named
          intro text short
          rw [List.length_append, List.length_cons] at whole
          exact (ih text.length (by omega) text rfl).1
      · have five := length_of_bodyCode named
        simp only [List.length_cons, List.length_append, five] at size
        obtain ⟨within, shorter, afterGroup⟩ := ih rest.length (by omega) rest rfl
        rw [excelReads_escapeGroups_group named, sharesUnderscore_group named]
        simp only [List.length_cons, List.length_append, five]
        cases next : groupCode (UNDERSCORE :: rest) with
        | some nextCode =>
            have bound := afterGroup (by rw [next]; rfl)
            refine ⟨by omega, fun _ => by omega, ?_⟩
            intro group
            rw [groupCode_of_doubled] at group
            cases group
        | none =>
            rw [excelReads_plain (by rw [groupCode_escapeGroups, next]), List.length_cons]
            refine ⟨by omega, ?_, ?_⟩
            · rintro (group | shares)
              · cases group
              · have := shorter shares
                omega
            · intro group
              rw [groupCode_of_doubled] at group
              cases group

/-- Excel reads a cell as the sanitised text exactly when no two groups in it share an
underscore. -/
theorem cellText_reads_back_iff (raw : List UInt16) :
    excelReads (cellText raw) = sanitised raw ↔ ¬ SharesUnderscore (sanitised raw) := by
  constructor
  · intro same shares
    have shorter := (length_excelReads (sanitised raw)).2.1 shares
    rw [← cellText, same] at shorter
    exact Nat.lt_irrefl _ shorter
  · exact excelReads_escapeGroups (sanitised raw)

def sharingName : List UInt16 :=
  [0x5F, 0x78, 0x30, 0x30, 0x34, 0x31, 0x5F, 0x78, 0x30, 0x30, 0x34, 0x32, 0x5F]

/-- It is read back as "_x0041B". -/
theorem sharing_name_misread : ¬ excelReads (cellText sharingName) = sanitised sharingName := by
  have misread : excelReads (cellText sharingName) =
      [0x5F, 0x78, 0x30, 0x30, 0x34, 0x31, 0x42] := by decide +kernel
  have shown : sanitised sharingName = sharingName := by decide +kernel
  rw [misread, shown]
  decide

end ZabbixPortal.Export
