import Mathlib.Data.Bool.AllAny
import ZabbixPortal.Foundation.Text
import ZabbixPortal.Foundation.GreedyPattern
import ZabbixPortal.Sli.Delay

/-! The update intervals of a graph's items, beside those of the availability figures. -/

set_option autoImplicit false

namespace ZabbixPortal.Services

open Foundation

/-- `^(\d+)([smhdw]?)$` -/
def intervalPattern : Pattern :=
  .sequence [.group 1 (.repeated Char.isDigit 1 none true),
    .group 2 (.repeated (fun c => c ∈ ['s', 'm', 'h', 'd', 'w']) 0 (some 1) true), .stop]

def mult : List Char → Nat
  | ['m'] => 60
  | ['h'] => 3600
  | ['d'] => 86400
  | ['w'] => 7 * 86400
  | _ => 1

/-- An update interval in seconds, custom intervals left out; one minute for a macro. -/
def parseDelay (raw : Option String) : Nat :=
  let first := trim (((raw.getD "").toList.splitOn ';').headD [])
  match intervalPattern.exec first with
  | none => 60
  | some found =>
      valueIn 10 ((found.group? 1).getD []) * mult ((found.group? 2).getD [])

/-- An interval as Zabbix stores it: a number and a unit, spaces around them, custom intervals
behind a semicolon. -/
structure DelayText where
  before : List Char
  digits : List Char
  unit : List Char
  after : List Char
  custom : Option (List Char)
  before_spaces : ∀ c ∈ before, isSpace c = true
  digits_only : ∀ c ∈ digits, c.isDigit = true
  positive : 1 ≤ valueIn 10 digits
  unit_known : unit ∈ [[], ['s'], ['m'], ['h'], ['d'], ['w']]
  after_spaces : ∀ c ∈ after, isSpace c = true

namespace DelayText

variable (delay : DelayText)

def plain : List Char := delay.before ++ (delay.digits ++ delay.unit) ++ delay.after

def text : String :=
  .ofList (delay.plain ++ (match delay.custom with
    | none => []
    | some intervals => ';' :: intervals))

def seconds : Nat := valueIn 10 delay.digits * Sli.unitSeconds delay.unit

theorem not_digit_of_space {c : Char} (space : isSpace c = true) : c.isDigit = false := by
  cases digit : c.isDigit with
  | false => rfl
  | true =>
      have bounds : 48 ≤ c.toNat ∧ c.toNat ≤ 57 := Char.isDigit_iff_toNat.mp digit
      simp only [isSpace, Bool.or_eq_true, Bool.and_eq_true, decide_eq_true_eq, beq_iff_eq] at space
      omega

theorem digits_some : delay.digits ≠ [] := by
  intro empty
  have positive := delay.positive
  rw [empty] at positive
  exact absurd positive (by decide)

theorem one_le_digits : 1 ≤ delay.digits.length := List.length_pos_iff.mpr delay.digits_some

theorem one_le_seconds : 1 ≤ delay.seconds := by
  have unit : 1 ≤ Sli.unitSeconds delay.unit := by
    have known := delay.unit_known
    generalize delay.unit = unit at known
    simp only [List.mem_cons, List.not_mem_nil, or_false] at known
    rcases known with rfl | rfl | rfl | rfl | rfl | rfl <;> decide
  exact Nat.mul_le_mul delay.positive unit

theorem mult_unit : mult delay.unit = Sli.unitSeconds delay.unit := by
  have known := delay.unit_known
  generalize delay.unit = unit at known
  simp only [List.mem_cons, List.not_mem_nil, or_false] at known
  rcases known with rfl | rfl | rfl | rfl | rfl | rfl <;> rfl

/-- A unit is no character or one, and no digit, space or semicolon. -/
theorem unit_letters : delay.unit.length ≤ 1 ∧ ∀ c ∈ delay.unit,
    c ∈ ['s', 'm', 'h', 'd', 'w'] ∧ c.isDigit = false ∧ isSpace c = false ∧ c ≠ ';' := by
  have known := delay.unit_known
  generalize delay.unit = unit at known
  simp only [List.mem_cons, List.not_mem_nil, or_false] at known
  rcases known with rfl | rfl | rfl | rfl | rfl | rfl <;>
    exact ⟨by decide, List.all_iff_forall_prop.mp (by decide)⟩

theorem unit_reads (rest : List Char) (stops : ∀ c ∈ rest.head?, c ∉ ['s', 'm', 'h', 'd', 'w']) :
    Reads (.repeated (fun c => c ∈ ['s', 'm', 'h', 'd', 'w']) 0 (some 1) true) (delay.unit ++ rest)
      rest [] :=
  .repeatedUpTo (Nat.zero_le _) delay.unit_letters.1
    (fun c member => decide_eq_true (delay.unit_letters.2 c member).1)
    (.inr fun c first => decide_eq_false (stops c first))

theorem not_unit_of_space {c : Char} (space : isSpace c = true) :
    c ∉ ['s', 'm', 'h', 'd', 'w'] := by
  intro member
  simp only [List.mem_cons, List.not_mem_nil, or_false] at member
  rcases member with rfl | rfl | rfl | rfl | rfl <;> exact absurd space (by decide)

theorem not_space_of_digit {c : Char} (digit : c.isDigit = true) : isSpace c = false := by
  cases space : isSpace c with
  | false => rfl
  | true =>
      rw [not_digit_of_space space] at digit
      cases digit

theorem digits_first {rest : List Char} : ∀ c ∈ (delay.digits ++ rest).head?, isSpace c = false := by
  intro c first
  cases shape : delay.digits with
  | nil => exact absurd shape delay.digits_some
  | cons d digits =>
      rw [shape] at first
      have same : d = c := Option.some.inj first
      exact not_space_of_digit (delay.digits_only c (by rw [shape, same]; exact List.mem_cons_self))

/-- The availability figures' pattern on a plain interval; the spaces stand before the unit's place
or behind it. -/
theorem delayPattern_reads {middle tail : List Char} (middleSpaces : ∀ c ∈ middle, isSpace c = true)
    (tailSpaces : ∀ c ∈ tail, isSpace c = true)
    (digitsEnd : ∀ c ∈ (middle ++ (delay.unit ++ tail)).head?, c.isDigit = false)
    (spacesEnd : ∀ c ∈ (delay.unit ++ tail).head?, isSpace c = false) :
    Reads Sli.delayPattern (delay.before ++ (delay.digits ++ (middle ++ (delay.unit ++ tail)))) []
      [(2, delay.unit), (1, delay.digits)] := by
  have unitEnds : ∀ c ∈ tail.head?, c ∉ ['s', 'm', 'h', 'd', 'w'] := fun c first =>
    not_unit_of_space (tailSpaces c (List.mem_of_mem_head? first))
  have tailEnds : ∀ c ∈ ([] : List Char).head?, isSpace c = false := fun c first => by cases first
  have ended : Reads (.sequence [.repeated isSpace 0 none true, .stop]) tail [] [] := by
    have spaces := Reads.repeated (Nat.zero_le _) tailSpaces tailEnds
    rw [List.append_nil] at spaces
    exact spaces.seq (Reads.stop.seq (.empty []))
  exact (Reads.repeated (Nat.zero_le _) delay.before_spaces delay.digits_first).seq
    (((Reads.repeated delay.one_le_digits delay.digits_only digitsEnd).group 1).seq
      ((Reads.repeated (Nat.zero_le _) middleSpaces spacesEnd).seq
        (((delay.unit_reads tail unitEnds).group 2).seq ended)))

theorem delayPattern_exec :
    ∃ before, Sli.delayPattern.exec delay.plain =
      some ⟨before, [], [(2, delay.unit), (1, delay.digits)]⟩ := by
  refine Reads.exec ?_
  rw [plain, List.append_assoc, List.append_assoc]
  have noSpaces : ∀ c ∈ ([] : List Char), isSpace c = true := fun c member => by cases member
  cases shape : delay.unit with
  | nil =>
      -- without a unit the spaces belong to the first run
      have reads := delay.delayPattern_reads delay.after_spaces noSpaces
      rw [shape, List.append_nil, List.append_nil] at reads
      refine reads (fun c first => ?_) (fun c first => by cases first)
      exact not_digit_of_space (delay.after_spaces c (List.mem_of_mem_head? first))
  | cons letter more =>
      have reads := delay.delayPattern_reads noSpaces delay.after_spaces
      rw [shape] at reads
      have isUnit : letter ∈ delay.unit := by rw [shape]; exact List.mem_cons_self
      have own := delay.unit_letters.2 letter isUnit
      refine reads (fun c first => ?_) (fun c first => ?_)
      · rw [← (Option.some.inj first : letter = c)]
        exact own.2.1
      · rw [← (Option.some.inj first : letter = c)]
        exact own.2.2.1

theorem intervalPattern_exec :
    ∃ before, intervalPattern.exec (delay.digits ++ delay.unit) =
      some ⟨before, [], [(2, delay.unit), (1, delay.digits)]⟩ := by
  have unitReads := delay.unit_reads [] fun c first => by cases first
  have digitsEnd : ∀ c ∈ (delay.unit ++ []).head?, c.isDigit = false := fun c first =>
    (delay.unit_letters.2 c (by simpa using List.mem_of_mem_head? first)).2.1
  have reads := ((Reads.repeated delay.one_le_digits delay.digits_only digitsEnd).group 1).seq
    ((unitReads.group 2).seq (Reads.stop.seq (.empty [])))
  rw [List.append_nil] at reads
  exact reads.exec

/-- No character of a plain interval is a semicolon. -/
theorem plain_letters : ∀ c ∈ delay.plain, c ≠ ';' := by
  intro c member same
  subst same
  rcases List.mem_append.mp member with inFront | inAfter
  · rcases List.mem_append.mp inFront with inBefore | inNumber
    · exact absurd (delay.before_spaces _ inBefore) (by decide)
    · rcases List.mem_append.mp inNumber with inDigits | inUnit
      · exact absurd (delay.digits_only _ inDigits) (by decide)
      · exact (delay.unit_letters.2 _ inUnit).2.2.2 rfl
  · exact absurd (delay.after_spaces _ inAfter) (by decide)

theorem trim_plain : trim delay.plain = delay.digits ++ delay.unit := by
  have nonempty : delay.digits ++ delay.unit ≠ [] := fun empty =>
    delay.digits_some (List.append_eq_nil_iff.mp empty).1
  refine withoutEnds_between nonempty delay.before_spaces delay.after_spaces
    (fun c first => delay.digits_first c first) fun c last => ?_
  rcases List.mem_append.mp (List.mem_of_mem_getLast? last) with inDigits | inUnit
  · exact not_space_of_digit (delay.digits_only c inDigits)
  · exact (delay.unit_letters.2 c inUnit).2.2.1

theorem first_part : (delay.text.toList.splitOn ';').headD [] = delay.plain := by
  rw [text, String.toList_ofList, List.splitOn_eq_splitOnP]
  cases delay.custom with
  | none =>
      rw [List.append_nil, List.splitOnP_eq_singleton]
      · rfl
      · exact fun c member => by simpa using delay.plain_letters c member
  | some intervals =>
      rw [List.splitOnP_append_cons_of_forall_mem
        (fun c member => by simpa using delay.plain_letters c member) ';' (by decide)]
      rfl

theorem parseDelay_text : parseDelay (some delay.text) = delay.seconds := by
  obtain ⟨before, found⟩ := delay.intervalPattern_exec
  rw [parseDelay, Option.getD_some, delay.first_part, delay.trim_plain, found]
  exact congrArg (valueIn 10 delay.digits * ·) delay.mult_unit

theorem sliParseDelay_plain (absent : delay.custom = none) :
    Sli.parseDelay (some delay.text) = delay.seconds := by
  obtain ⟨before, found⟩ := delay.delayPattern_exec
  have whole : delay.text.toList = delay.plain := by
    rw [text, absent, List.append_nil, String.toList_ofList]
  rw [Sli.parseDelay, Option.getD_some, whole, found]
  exact Nat.max_eq_right delay.one_le_seconds

/-- The availability figures' pattern knows no semicolon. -/
theorem sliParseDelay_custom {intervals : List Char} (own : delay.custom = some intervals) :
    Sli.parseDelay (some delay.text) = 60 := by
  have member : ';' ∈ delay.text.toList := by
    rw [text, own, String.toList_ofList]
    exact List.mem_append_right _ List.mem_cons_self
  have unread : Sli.delayPattern.exec delay.text.toList = none :=
    exec_eq_none_of_mem [_, _, _, _, _] member (by decide)
  rw [Sli.parseDelay, Option.getD_some, unread]

end DelayText

/-- The two parsers of update intervals agree where no custom interval hides the number from one of
them, or hides just a minute. -/
theorem parseDelay_agrees_iff (delay : DelayText) :
    Sli.parseDelay (some delay.text) = parseDelay (some delay.text) ↔
      delay.custom = none ∨ delay.seconds = 60 := by
  rw [delay.parseDelay_text]
  cases own : delay.custom with
  | none =>
      rw [delay.sliParseDelay_plain own]
      exact ⟨fun _ => .inl rfl, fun _ => rfl⟩
  | some intervals =>
      rw [delay.sliParseDelay_custom own]
      constructor
      · intro same
        exact .inr same.symm
      · intro agreed
        rcases agreed with absent | minute
        · cases absent
        · exact minute.symm

def customIntervals : DelayText where
  before := []
  digits := ['5']
  unit := ['m']
  after := []
  custom := some "50s/1-5,08:00-17:00".toList
  before_spaces := List.all_iff_forall_prop.mp (by decide)
  digits_only := List.all_iff_forall_prop.mp (by decide)
  positive := by decide
  unit_known := by decide
  after_spaces := List.all_iff_forall_prop.mp (by decide)

theorem customIntervals_differ :
    customIntervals.text = "5m;50s/1-5,08:00-17:00" ∧
      Sli.parseDelay (some customIntervals.text) = 60 ∧
      parseDelay (some customIntervals.text) = 300 :=
  ⟨by decide, customIntervals.sliParseDelay_custom rfl, customIntervals.parseDelay_text⟩

end ZabbixPortal.Services
