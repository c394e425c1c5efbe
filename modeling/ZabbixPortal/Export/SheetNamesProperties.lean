import Mathlib.Data.Bool.AllAny
import ZabbixPortal.Export.SheetNames
import ZabbixPortal.Foundation.Decimal
import ZabbixPortal.Foundation.Text
import ZabbixPortal.Foundation.Marks

/-! Sheet names are always legal and unique, and the numbering loop ends. -/

set_option autoImplicit false

namespace ZabbixPortal.Export

open Foundation

structure Legal (name : List UInt16) : Prop where
  nonempty : name ≠ []
  short : name.length ≤ 31
  paired : Paired name
  allowed : ∀ u ∈ name, isControl u = false ∧ isReserved u = false
  first : name.head? ≠ some APOSTROPHE
  last : name.getLast? ≠ some APOSTROPHE

section Units

theorem isPlain_of_small {u : UInt16} (small : u.toNat < 0xD800) : isPlain u = true := by
  simp only [isPlain_iff, isHighSurrogate, isLowSurrogate, Bool.and_eq_false_iff,
    decide_eq_false_iff_not, UInt16.le_iff_toNat_le, UInt16.reduceToNat]
  omega

theorem isPlain_of_isEdge {u : UInt16} (edge : isEdge u = true) : isPlain u = true := by
  by_contra half
  have surrogate : 0xD800 ≤ u.toNat ∧ u.toNat ≤ 0xDFFF := by
    simp only [isPlain_iff, isHighSurrogate, isLowSurrogate, Bool.and_eq_false_iff,
      decide_eq_false_iff_not, UInt16.le_iff_toNat_le, UInt16.reduceToNat] at half
    omega
  have noCharacter : Char.ofNat u.toNat = '\x00' := by
    refine dif_neg ?_
    rintro (low | high)
    · omega
    · omega
  have notApostrophe : (u == APOSTROPHE) = false := by
    refine beq_eq_false_iff_ne.mpr ?_
    rintro rfl
    exact absurd surrogate.1 (by decide)
  rw [isEdge, notApostrophe, noCharacter] at edge
  exact absurd edge (by decide)

theorem half_of_small {u : UInt16} (small : u.toNat < 0xD800) :
    isHighSurrogate u = false ∧ isLowSurrogate u = false :=
  (isPlain_iff u).mp (isPlain_of_small small)

theorem toNat_of_isControl {u : UInt16} (control : isControl u = true) : u.toNat ≤ 0x1F := by
  have small : u ≤ 0x1F := of_decide_eq_true control
  exact UInt16.le_iff_toNat_le.mp small

theorem toNat_of_isReserved {u : UInt16} (reserved : isReserved u = true) : u.toNat < 0x60 := by
  simp only [isReserved, Bool.or_eq_true, beq_iff_eq] at reserved
  rcases reserved with (((((rfl | rfl) | rfl) | rfl) | rfl) | rfl) | rfl <;> decide

theorem spaceForControl_half (u : UInt16) :
    isHighSurrogate (spaceForControl u) = isHighSurrogate u ∧
      isLowSurrogate (spaceForControl u) = isLowSurrogate u := by
  unfold spaceForControl
  split
  · next control =>
      have small := half_of_small (u := u) (by have := toNat_of_isControl control; omega)
      rw [small.1, small.2]
      decide
  · exact ⟨rfl, rfl⟩

theorem dashForReserved_half (u : UInt16) :
    isHighSurrogate (dashForReserved u) = isHighSurrogate u ∧
      isLowSurrogate (dashForReserved u) = isLowSurrogate u := by
  unfold dashForReserved
  split
  · next reserved =>
      have small := half_of_small (u := u) (by have := toNat_of_isReserved reserved; omega)
      rw [small.1, small.2]
      decide
  · exact ⟨rfl, rfl⟩

/-- What cleaning leaves of a unit. -/
theorem dashForReserved_allowed (u : UInt16) :
    isControl (dashForReserved (spaceForControl u)) = false ∧
      isReserved (dashForReserved (spaceForControl u)) = false := by
  have noControl : isControl (spaceForControl u) = false := by
    unfold spaceForControl
    split
    · decide
    · next other => exact Bool.eq_false_iff.mpr other
  unfold dashForReserved
  split
  · decide
  · next other => exact ⟨noControl, Bool.eq_false_iff.mpr other⟩

theorem units_append (left right : String) : units (left ++ right) = units left ++ units right := by
  simp [units]

/-- A digit of a number. -/
theorem toNat_of_mem_toString {n : Nat} {c : Char} (member : c ∈ (toString n).toList) :
    48 ≤ c.toNat ∧ c.toNat ≤ 57 :=
  Char.isDigit_iff_toNat.mp (isDigit_of_mem_toString member)

theorem units_toString (n : Nat) :
    units (toString n) = (toString n).toList.map fun c => c.toNat.toUInt16 := by
  have one : ∀ c ∈ (toString n).toList, codeUnits c = [c.toNat] := by
    intro c member
    have digit := toNat_of_mem_toString member
    exact if_pos (by omega)
  rw [units, List.flatMap_congr one, ← List.map_eq_flatMap, List.map_map]
  rfl

theorem toNat_of_mem_units {n : Nat} {u : UInt16} (member : u ∈ units (toString n)) :
    48 ≤ u.toNat ∧ u.toNat ≤ 57 := by
  rw [units_toString] at member
  obtain ⟨c, inside, rfl⟩ := List.mem_map.mp member
  have digit := toNat_of_mem_toString inside
  rw [Nat.toUInt16, UInt16.toNat_ofNat', Nat.mod_eq_of_lt (by omega)]
  exact digit

theorem units_toString_inj {n m : Nat} (same : units (toString n) = units (toString m)) :
    n = m := by
  have back : ∀ n : Nat, (units (toString n)).map (fun u => Char.ofNat u.toNat) =
      (toString n).toList := by
    intro n
    rw [units_toString, List.map_map]
    have kept : ∀ c ∈ (toString n).toList,
        ((fun u : UInt16 => Char.ofNat u.toNat) ∘ fun c => c.toNat.toUInt16) c = c := by
      intro c member
      have digit := toNat_of_mem_toString member
      have small : c.toNat.toUInt16.toNat = c.toNat := by
        rw [Nat.toUInt16, UInt16.toNat_ofNat', Nat.mod_eq_of_lt (by omega)]
      rw [Function.comp_apply, small, Char.ofNat_toNat]
    rw [List.map_congr_left kept, List.map_id']
  exact toString_inj ((back n).symm.trans ((congrArg _ same).trans (back m)))

theorem suffix_eq (n : Nat) : suffix n = 0x20 :: 0x28 :: (units (toString n) ++ [0x29]) := by
  have shape : suffix n = units (" (" ++ toString n ++ ")") := rfl
  rw [shape, units_append, units_append]
  rfl

theorem suffix_inj {s t : List UInt16} {n m : Nat} (same : s ++ suffix n = t ++ suffix m) :
    n = m := by
  have cut : ∀ (s : List UInt16) (n : Nat),
      ((s ++ suffix n).reverse.takeWhile (· ≠ 0x28)) = 0x29 :: (units (toString n)).reverse := by
    intro s n
    have before : ∀ u ∈ 0x29 :: (units (toString n)).reverse, decide (u ≠ 0x28) = true := by
      intro u member
      refine decide_eq_true ?_
      rintro rfl
      rcases List.mem_cons.mp member with impossible | digit
      · exact absurd impossible (by decide)
      · exact absurd (toNat_of_mem_units (List.mem_reverse.mp digit)).1 (by decide)
    have shape : (s ++ suffix n).reverse =
        (0x29 :: (units (toString n)).reverse) ++ 0x28 :: 0x20 :: s.reverse := by
      simp [suffix_eq]
    rw [shape, List.takeWhile_append_of_pos before]
    simp
  have ends := (cut s n).symm.trans ((congrArg (fun t => t.reverse.takeWhile (· ≠ 0x28)) same).trans
    (cut t m))
  exact units_toString_inj (List.reverse_injective (List.cons.inj ends).2)

theorem mem_suffix {n : Nat} {u : UInt16} (member : u ∈ suffix n) :
    u.toNat = 32 ∨ u.toNat = 40 ∨ u.toNat = 41 ∨ (48 ≤ u.toNat ∧ u.toNat ≤ 57) := by
  rw [suffix_eq] at member
  simp only [List.mem_cons, List.mem_append, List.not_mem_nil, or_false] at member
  rcases member with rfl | rfl | digit | rfl
  · exact .inl rfl
  · exact .inr (.inl rfl)
  · exact .inr (.inr (.inr (toNat_of_mem_units digit)))
  · exact .inr (.inr (.inl rfl))

theorem getLast?_suffix (n : Nat) : (suffix n).getLast? = some 0x29 := by
  rw [suffix_eq, ← List.cons_append, ← List.cons_append, List.getLast?_concat]

theorem length_suffix_le {n : Nat} (counted : n ≤ 2 ^ 53) : (suffix n).length ≤ 19 := by
  have written : (toString n).toList = Nat.toDigits 10 n := Nat.toList_repr
  have short : (Nat.toDigits 10 n).length ≤ 16 :=
    (Nat.length_toDigits_le_iff (by decide) (by decide)).mpr (by omega)
  rw [suffix_eq, units_toString, written]
  simp only [List.length_cons, List.length_append, List.length_map, List.length_nil]
  omega

end Units

section Edges

variable {s : List UInt16}

theorem mem_fit {max : Nat} {u : UInt16} (member : u ∈ fit s max) : u ∈ s := by
  have inside : u ∈ cut s max := (isInfix_withoutEnds isEdge (cut s max)).subset member
  unfold cut at inside
  split at inside
  · exact inside
  · exact List.mem_of_mem_take inside

theorem length_fit_le (s : List UInt16) (max : Nat) : (fit s max).length ≤ max :=
  (isInfix_withoutEnds isEdge (cut s max)).length_le.trans (length_cut_le s max)

theorem paired_fit (paired : Paired s) (max : Nat) : Paired (fit s max) := by
  obtain ⟨back, rest, edges⟩ := withoutEnds_append isEdge (cut s max)
  have trimmed := (paired.cut max).dropWhile fun u edge => isPlain_of_isEdge edge
  rw [rest] at trimmed
  exact trimmed.of_append fun u member => isPlain_of_isEdge (edges u member)

theorem isEdge_apostrophe : isEdge APOSTROPHE = true := by decide

theorem head?_fit (s : List UInt16) (max : Nat) : (fit s max).head? ≠ some APOSTROPHE := by
  intro first
  have kept := head?_withoutEnds first
  rw [isEdge_apostrophe] at kept
  cases kept

theorem getLast?_fit (s : List UInt16) (max : Nat) : (fit s max).getLast? ≠ some APOSTROPHE := by
  intro last
  have kept := getLast?_withoutEnds last
  rw [isEdge_apostrophe] at kept
  cases kept

end Edges

section Names

theorem legal_sheet : Legal SHEET where
  nonempty := by decide
  short := by decide
  paired := .of_plain (List.all_eq_true.mp (by decide))
  allowed := List.all_iff_forall_prop.mp (by decide)
  first := by decide
  last := by decide

theorem legal_baseName (raw : List UInt16) : Legal (baseName raw) := by
  dsimp only [baseName]
  split
  · exact legal_sheet
  · next nonempty =>
      refine ⟨nonempty, length_fit_le _ _, ?_, fun u member => ?_, head?_fit _ _, getLast?_fit _ _⟩
      · refine paired_fit ?_ _
        exact ((paired_withoutIllegal raw).map (fun u => (spaceForControl_half u).1)
          fun u => (spaceForControl_half u).2).map (fun u => (dashForReserved_half u).1)
            fun u => (dashForReserved_half u).2
      · obtain ⟨v, inside, rfl⟩ := List.mem_map.mp (mem_fit member)
        obtain ⟨w, -, rfl⟩ := List.mem_map.mp inside
        exact dashForReserved_allowed w

/-- A number behind a legal name leaves it legal, the name cut to make room. -/
theorem Legal.numbered {base : List UInt16} (legal : Legal base) {n : Nat} (counted : n ≤ 2 ^ 53) :
    Legal (fit base (31 - (suffix n).length) ++ suffix n) where
  nonempty := by
    rw [suffix_eq]
    exact List.append_ne_nil_of_right_ne_nil _ (List.cons_ne_nil _ _)
  short := by
    have room := length_fit_le base (31 - (suffix n).length)
    have short := length_suffix_le counted
    rw [List.length_append]
    omega
  paired := by
    refine (paired_fit legal.paired _).append (.of_plain fun u member => ?_)
    have unit := mem_suffix member
    exact isPlain_of_small (by omega)
  allowed := by
    intro u member
    rcases List.mem_append.mp member with inBase | inSuffix
    · exact legal.allowed u (mem_fit inBase)
    · have unit := mem_suffix inSuffix
      refine ⟨Bool.eq_false_iff.mpr fun control => ?_, Bool.eq_false_iff.mpr fun reserved => ?_⟩
      · have small := toNat_of_isControl control
        omega
      · simp only [isReserved, Bool.or_eq_true, beq_iff_eq, ← UInt16.toNat_inj,
          UInt16.reduceToNat] at reserved
        omega
  first := by
    intro start
    rw [List.head?_append] at start
    cases front : (fit base (31 - (suffix n).length)).head? with
    | none =>
        rw [front, suffix_eq] at start
        have blank : (0x20 : UInt16) = APOSTROPHE := Option.some.inj start
        exact absurd blank (by decide)
    | some u =>
        rw [front] at start
        exact head?_fit _ _ (front.trans start)
  last := by
    intro stop
    rw [List.getLast?_append, getLast?_suffix] at stop
    have bracket : (0x29 : UInt16) = APOSTROPHE := Option.some.inj stop
    exact absurd bracket (by decide)

end Names

namespace SheetNames

variable {casing : Casing} {names : SheetNames}

theorem increment_le (n : Nat) : increment n ≤ 2 ^ 53 := Nat.min_le_right _ _

/-- What the numbering loop leaves with: a legal name that does not clash. -/
theorem numbered_spec {base : List UInt16} (base_legal : Legal base) {fuel : Nat}
    {name : List UInt16} {n : Nat} (legal : Legal name) (counted : n ≤ 2 ^ 53)
    {left : List UInt16 × Nat} (ends : names.numbered casing base fuel name n = some left) :
    Legal left.1 ∧ left.2 ≤ 2 ^ 53 ∧ ¬ names.Clashes casing left.1 := by
  induction fuel generalizing name n with
  | zero => cases ends
  | succ fuel ih =>
      rw [numbered] at ends
      split at ends
      · exact ih (base_legal.numbered counted) (increment_le n) ends
      · next free =>
          cases ends
          exact ⟨legal, counted, free⟩

def Counted (names : SheetNames) : Prop := ∀ key n, names.next.get? key = some n → n ≤ 2 ^ 53

theorem counted_getD (counted : names.Counted) (key : List UInt16) :
    (names.next.get? key).getD 2 ≤ 2 ^ 53 := by
  cases held : names.next.get? key with
  | none => decide
  | some n => exact counted key n held

theorem add_spec {fuel : Nat} {raw name : List UInt16} {after : SheetNames}
    (counted : names.Counted) (added : names.add casing fuel raw = some (name, after)) :
    Legal name ∧ ¬ names.Clashes casing name ∧ after.Counted ∧
      after.taken = names.taken ++ [casing.toLowerCase name] := by
  obtain ⟨left, ends, same⟩ := Option.map_eq_some_iff.mp added
  obtain ⟨rfl, rfl⟩ := Prod.mk.inj same
  obtain ⟨legal, last, free⟩ := numbered_spec (legal_baseName raw) (legal_baseName raw)
    (counted_getD counted _) ends
  refine ⟨legal, free, ?_, rfl⟩
  intro key n held
  dsimp only at held
  split at held
  · rw [OrderedMap.get?_set] at held
    split at held
    · cases held
      exact last
    · exact counted key n held
  · exact counted key n held

/-- A run of names: each is legal, none clashes with one taken before. -/
theorem addAll_spec {fuel : Nat} (raws : List (List UInt16)) {given : List (List UInt16)}
    (counted : names.Counted) (ends : addAll casing fuel names raws = some given) :
    (∀ name ∈ given, Legal name ∧ ¬ names.Clashes casing name) ∧
      given.Pairwise fun earlier later =>
        casing.toLowerCase earlier ≠ casing.toLowerCase later := by
  induction raws generalizing names given with
  | nil =>
      cases ends
      exact ⟨fun name member => absurd member List.not_mem_nil, .nil⟩
  | cons raw raws ih =>
      rw [addAll] at ends
      split at ends
      · cases ends
      · next name after added =>
          obtain ⟨rest, later, rfl⟩ := Option.map_eq_some_iff.mp ends
          obtain ⟨legal, free, nextCounted, taken⟩ := add_spec counted added
          obtain ⟨each, apart⟩ := ih nextCounted later
          refine ⟨fun other member => ?_, List.pairwise_cons.mpr ⟨fun other member same => ?_, apart⟩⟩
          · rcases List.mem_cons.mp member with rfl | inRest
            · exact ⟨legal, free⟩
            · refine ⟨(each other inRest).1, fun clash => (each other inRest).2 ?_⟩
              refine clash.imp_left fun before => ?_
              rw [taken]
              exact List.mem_append_left _ before
          · refine (each other member).2 (.inl ?_)
            rw [taken, ← same]
            exact List.mem_append_right _ List.mem_cons_self

def EndsIn (name : List UInt16) (n : Nat) : Prop := ∃ front, name = front ++ suffix n

theorem endsIn_unique (name : List UInt16) (n m : Nat) (first : EndsIn name n)
    (second : EndsIn name m) : n = m := by
  obtain ⟨front, rfl⟩ := first
  obtain ⟨other, same⟩ := second
  exact suffix_inj same

theorem not_endsIn_history (n : Nat) : ¬ EndsIn HISTORY n := by
  rintro ⟨front, same⟩
  have last := congrArg List.getLast? same
  rw [List.getLast?_append, getLast?_suffix] at last
  have bracket : HISTORY.getLast? = some 0x29 := last
  exact absurd bracket (by decide)

theorem endsIn_numbered (casing : Casing) (s : List UInt16) (n : Nat) :
    EndsIn (casing.toLowerCase (s ++ suffix n)) n := ⟨_, casing.suffixed s n⟩

def Passed (names : SheetNames) : Prop :=
  ∀ key n, names.next.get? key = some n → 2 ≤ n ∧ Marked EndsIn 2 n names.taken

theorem passed_getD (passed : names.Passed) (key : List UInt16) :
    2 ≤ (names.next.get? key).getD 2 ∧
      Marked EndsIn 2 ((names.next.get? key).getD 2) names.taken := by
  cases held : names.next.get? key with
  | none => exact ⟨Nat.le_refl _, fun number lower upper => absurd lower (Nat.not_le_of_lt upper)⟩
  | some n => exact passed key n held

/-- A name that clashes adds nothing to what is taken. -/
theorem marked_of_clashes {name : List UInt16} {n : Nat}
    (marked : Marked EndsIn 2 n (casing.toLowerCase name :: names.taken))
    (clash : names.Clashes casing name) : Marked EndsIn 2 n names.taken := by
  intro number lower upper
  obtain ⟨member, isMember, mark⟩ := marked number lower upper
  rcases List.mem_cons.mp isMember with rfl | inTaken
  · rcases clash with inTaken | isHistory
    · exact ⟨_, inTaken, mark⟩
    · rw [isHistory] at mark
      exact absurd mark (not_endsIn_history number)
  · exact ⟨member, inTaken, mark⟩

/-- The numbering loop ends: each number it passes stands on another taken name. -/
theorem numbered_ends (casing : Casing) (base : List UInt16) (room : names.taken.length + 3 ≤ 2 ^ 53) {fuel : Nat}
    {name : List UInt16} {n : Nat} (two : 2 ≤ n)
    (marked : Marked EndsIn 2 n (casing.toLowerCase name :: names.taken))
    (enough : names.taken.length + 4 ≤ fuel + n) :
    ∃ left, names.numbered casing base fuel name n = some left ∧ 2 ≤ left.2 ∧
      Marked EndsIn 2 left.2 (casing.toLowerCase left.1 :: names.taken) := by
  induction fuel generalizing name n with
  | zero =>
      have most := marked.le_length endsIn_unique
      rw [List.length_cons] at most
      omega
  | succ fuel ih =>
      by_cases clash : names.Clashes casing name
      · have taken := marked_of_clashes marked clash
        have most := taken.le_length endsIn_unique
        have counts : increment n = n + 1 := Nat.min_eq_left (by omega)
        rw [numbered, if_pos clash, counts]
        exact ih (by omega) (taken.succ (endsIn_numbered casing _ n)) (by omega)
      · rw [numbered, if_neg clash]
        exact ⟨(name, n), rfl, two, marked⟩

theorem add_ends (casing : Casing) (passed : names.Passed) (room : names.taken.length + 3 ≤ 2 ^ 53) {fuel : Nat}
    (enough : names.taken.length + 2 ≤ fuel) (raw : List UInt16) :
    ∃ name after, names.add casing fuel raw = some (name, after) ∧ after.Passed ∧
      after.taken.length = names.taken.length + 1 := by
  obtain ⟨two, marked⟩ := passed_getD passed (casing.toLowerCase (baseName raw))
  obtain ⟨left, ends, more, longer⟩ := numbered_ends casing (baseName raw) room two
    (marked.mono (List.subset_cons_self (casing.toLowerCase (baseName raw)) _))
    (by omega : _ ≤ fuel + _)
  refine ⟨left.1, _, by rw [add, ends]; rfl, ?_, List.length_append⟩
  have inside : casing.toLowerCase left.1 :: names.taken ⊆
      names.taken ++ [casing.toLowerCase left.1] := by
    intro member isMember
    rcases List.mem_cons.mp isMember with rfl | before
    · exact List.mem_append_right _ List.mem_cons_self
    · exact List.mem_append_left _ before
  intro key n held
  dsimp only at held
  split at held
  · rw [OrderedMap.get?_set] at held
    split at held
    · cases held
      exact ⟨more, longer.mono inside⟩
    · obtain ⟨least, before⟩ := passed key n held
      exact ⟨least, before.mono (List.subset_append_left _ _)⟩
  · obtain ⟨least, before⟩ := passed key n held
    exact ⟨least, before.mono (List.subset_append_left _ _)⟩

theorem addAll_ends (raws : List (List UInt16)) (passed : names.Passed)
    (room : names.taken.length + raws.length + 2 ≤ 2 ^ 53) {fuel : Nat}
    (enough : names.taken.length + raws.length + 2 ≤ fuel) :
    ∃ given, addAll casing fuel names raws = some given ∧ given.length = raws.length := by
  induction raws generalizing names with
  | nil => exact ⟨[], rfl, rfl⟩
  | cons raw raws ih =>
      rw [List.length_cons] at room enough
      obtain ⟨name, after, added, afterPassed, length⟩ :=
        add_ends casing passed (by omega) (by omega : _ ≤ fuel) raw
      obtain ⟨given, ends, same⟩ := ih afterPassed (by omega) (by omega)
      refine ⟨name :: given, ?_, by rw [List.length_cons, List.length_cons, same]⟩
      rw [addAll, added]
      dsimp only
      rw [ends]
      rfl

end SheetNames

/-- The names of a workbook's sheets are legal, none is `history`, and no two are the same but for
their case. The numbering loop ends for as many names as a number can count. -/
theorem addAll_legal_distinct (casing : Casing) (raws : List (List UInt16)) :
    (∀ fuel given, SheetNames.addAll casing fuel .empty raws = some given →
      (∀ name ∈ given, Legal name ∧ name ≠ HISTORY ∧ casing.toLowerCase name ≠ HISTORY) ∧
        given.Pairwise fun earlier later =>
          casing.toLowerCase earlier ≠ casing.toLowerCase later) ∧
      (raws.length + 2 ≤ 2 ^ 53 → ∀ fuel, raws.length + 2 ≤ fuel →
        ∃ given, SheetNames.addAll casing fuel .empty raws = some given ∧
          given.length = raws.length) := by
  constructor
  · intro fuel given ends
    obtain ⟨each, apart⟩ := SheetNames.addAll_spec raws (fun key n held => by cases held) ends
    refine ⟨fun name member => ?_, apart⟩
    obtain ⟨legal, free⟩ := each name member
    refine ⟨legal, ?_, fun isHistory => free (.inr isHistory)⟩
    rintro rfl
    exact free (.inr casing.history)
  · intro room fuel enough
    refine SheetNames.addAll_ends raws (fun key n held => by cases held) ?_ ?_
    · exact (Nat.zero_add _).symm ▸ room
    · exact (Nat.zero_add _).symm ▸ enough

section Ascii

def asciiLower (u : UInt16) : UInt16 := if 0x41 ≤ u ∧ u ≤ 0x5A then u + 0x20 else u

def asciiCasing : Casing where
  toLowerCase s := s.map asciiLower
  suffixed s n := by
    have kept : ∀ u ∈ suffix n, asciiLower u = u := by
      intro u member
      have unit := mem_suffix member
      refine if_neg ?_
      simp only [UInt16.le_iff_toNat_le, UInt16.reduceToNat]
      omega
    rw [List.map_append, List.map_congr_left kept, List.map_id']
  history := by decide

/-- The same name three times in two cases. -/
theorem addAll_legal_distinct_clashing :
    ∃ given, SheetNames.addAll asciiCasing 5 .empty
        [units "Summary", units "SUMMARY", units "Summary"] = some given ∧
      given.Pairwise fun earlier later => earlier.map asciiLower ≠ later.map asciiLower := by
  have both := addAll_legal_distinct asciiCasing [units "Summary", units "SUMMARY", units "Summary"]
  obtain ⟨given, ends, -⟩ := both.2 (by decide) 5 (by decide)
  exact ⟨given, ends, (both.1 5 given ends).2⟩

end Ascii

section Greek

/-! ### What the names still share -/

/-- The control characters of Unicode: beside the code's class, DEL and what follows it. -/
def isControlCharacter (u : UInt16) : Bool := u ≤ 0x1F || 0x7F ≤ u && u ≤ 0x9F

/-- An ASCII letter, or a Greek one without an accent. -/
def isLetter (u : UInt16) : Bool :=
  0x41 ≤ u && u ≤ 0x5A || 0x61 ≤ u && u ≤ 0x7A || 0x391 ≤ u && u ≤ 0x3C9

def greekLower (u : UInt16) : UInt16 := if 0x391 ≤ u ∧ u ≤ 0x3A9 then u + 0x20 else asciiLower u

/-- Upper case, letter by letter: both small sigmas have one capital. -/
def greekUpper (u : UInt16) : UInt16 :=
  if u = 0x3C2 then 0x3A3 else if 0x3B1 ≤ u ∧ u ≤ 0x3C9 then u - 0x20
  else if 0x61 ≤ u ∧ u ≤ 0x7A then u - 0x20 else u

/-- Lower case, behind a letter or not: a capital sigma that ends a word is a final one. -/
def lowerFrom (behind : Bool) : List UInt16 → List UInt16
  | [] => []
  | u :: rest =>
      (if u = 0x3A3 ∧ behind = true ∧ rest.head?.any isLetter = false then 0x3C2 else greekLower u) ::
        lowerFrom (isLetter u) rest

theorem suffix_small {n : Nat} {u : UInt16} (member : u ∈ suffix n) :
    isLetter u = false ∧ u ≠ 0x3A3 ∧ greekLower u = u := by
  have unit := mem_suffix member
  simp only [isLetter, greekLower, asciiLower, Bool.or_eq_false_iff, Bool.and_eq_false_iff,
    decide_eq_false_iff_not, UInt16.le_iff_toNat_le, ne_eq, ← UInt16.toNat_inj, UInt16.reduceToNat]
  refine ⟨by omega, by omega, ?_⟩
  rw [if_neg (by omega), if_neg (by omega)]

theorem lowerFrom_small {s : List UInt16}
    (small : ∀ u ∈ s, isLetter u = false ∧ u ≠ 0x3A3 ∧ greekLower u = u) (behind : Bool) :
    lowerFrom behind s = s := by
  induction s generalizing behind with
  | nil => rfl
  | cons u rest ih =>
      obtain ⟨-, other, same⟩ := small u List.mem_cons_self
      rw [lowerFrom, if_neg fun sigma => other sigma.1, same,
        ih fun v member => small v (List.mem_cons_of_mem _ member)]

theorem lowerFrom_suffix (s : List UInt16) (n : Nat) (behind : Bool) :
    lowerFrom behind (s ++ suffix n) = lowerFrom behind s ++ suffix n := by
  have small : ∀ u ∈ suffix n, isLetter u = false ∧ u ≠ 0x3A3 ∧ greekLower u = u :=
    fun u member => suffix_small member
  induction s generalizing behind with
  | nil => exact lowerFrom_small small behind
  | cons u rest ih =>
      have next : (rest ++ suffix n).head?.any isLetter = rest.head?.any isLetter := by
        cases rest with
        | cons v rest => rfl
        | nil =>
            rw [List.nil_append]
            cases start : (suffix n).head? with
            | none => rfl
            | some v => exact (small v (List.mem_of_head? start)).1
      rw [List.cons_append, lowerFrom, lowerFrom, next, ih, List.cons_append]

def greekCasing : Casing where
  toLowerCase := lowerFrom false
  suffixed s n := lowerFrom_suffix s n false
  history := by decide

/-- A name with DEL in it is given as it is; and so are two names that only differ in case, where
the capital sigma of one is lowered to a final one. -/
theorem add_keeps_DEL_and_sigma :
    (∃ given, SheetNames.addAll greekCasing 3 .empty [[0x41, 0x7F, 0x42]] = some given ∧
      ∃ name ∈ given, ∃ u ∈ name, isControlCharacter u = true) ∧
    ∃ given, SheetNames.addAll greekCasing 3 .empty [[0x391, 0x3A3], [0x3B1, 0x3C3]] =
        some given ∧
      ¬ given.Pairwise fun earlier later => earlier.map greekUpper ≠ later.map greekUpper :=
  ⟨⟨[[0x41, 0x7F, 0x42]], by decide, [0x41, 0x7F, 0x42], by decide, 0x7F, by decide, by decide⟩,
    ⟨[[0x391, 0x3A3], [0x3B1, 0x3C3]], by decide, by decide⟩⟩

end Greek

end ZabbixPortal.Export
