import ZabbixPortal.Services.PromptLines

/-! How a block is laid out: its title, as many lines as fit with the tail they need, and the
tail. -/

set_option autoImplicit false

namespace ZabbixPortal.Services

open Foundation Domain

section Layout

variable (title : String) (lines : List String) (budget : ℤ) (more : ℤ → Nat → String)
  (total : Nat)

def stacked : List String → String
  | [] => ""
  | line :: rest => "\n" ++ line ++ stacked rest

def stackedLength (lines : List String) : Nat := (lines.map fun line => 1 + textLength line).sum

theorem textLength_stacked : textLength (stacked lines) = stackedLength lines := by
  induction lines with
  | nil => decide
  | cons line rest ih =>
      have newline : textLength "\n" = 1 := by decide
      rw [stacked, textLength_append, textLength_append, newline, ih]
      rfl

def tailText (shown : Nat) : String :=
  if shown < total then "\n" ++ more ((total : ℤ) - shown) shown else ""

/-- A line fits behind those before it, with the tail it would need. -/
def LineFits (i : Nat) : Prop :=
  ((textLength title + stackedLength (lines.take (i + 1)) +
    textLength (tailText more total (i + 1)) : ℕ) : ℤ) ≤ budget

/-- The lines added are the first that do not make the block too long. -/
theorem addLines_spec (text : String) (shown : Nat) :
    ∃ added, added ≤ lines.length ∧
      addLines budget more total text shown lines =
        (text ++ stacked (lines.take added), shown + added) ∧
      (∀ i < added, ((textLength text + stackedLength (lines.take (i + 1)) +
        textLength (tailText more total (shown + i + 1)) : ℕ) : ℤ) ≤ budget) ∧
      (added < lines.length → budget < ((textLength text + stackedLength (lines.take (added + 1)) +
        textLength (tailText more total (shown + added + 1)) : ℕ) : ℤ)) := by
  induction lines generalizing text shown with
  | nil =>
      refine ⟨0, Nat.le_refl _, ?_, fun i before => absurd before (Nat.not_lt_zero i),
        fun short => absurd short (Nat.lt_irrefl 0)⟩
      rw [List.take_nil, stacked, String.append_empty]
      rfl
  | cons line rest ih =>
      have tail_eq : (if (total : ℤ) - shown - 1 > 0 then
          "\n" ++ more ((total : ℤ) - shown - 1) (shown + 1) else "") =
          tailText more total (shown + 1) := by
        have count : (total : ℤ) - shown - 1 = (total : ℤ) - ((shown + 1 : ℕ) : ℤ) := by
          omega
        unfold tailText
        rw [count]
        split
        · next positive => rw [if_pos (by omega)]
        · next ended => rw [if_neg (by omega)]
      rw [addLines]
      simp only [tail_eq]
      have first : stackedLength ((line :: rest).take 1) = 1 + textLength line := by
        simp [stackedLength]
      split
      · next long =>
          refine ⟨0, Nat.zero_le _, ?_, fun i before => absurd before (Nat.not_lt_zero i),
            fun _ => ?_⟩
          · rw [List.take_zero, stacked, String.append_empty]
            rfl
          · rw [Nat.zero_add, first, Nat.add_zero]
            omega
      · next fits =>
          obtain ⟨added, most, shape, each, stop⟩ := ih (text ++ "\n" ++ line) (shown + 1)
          have newline : textLength "\n" = 1 := by decide
          have longer : ∀ i, textLength (text ++ "\n" ++ line) + stackedLength (rest.take i) =
              textLength text + stackedLength ((line :: rest).take (i + 1)) := by
            intro i
            rw [textLength_append, textLength_append, newline, List.take_succ_cons, stackedLength,
              stackedLength, List.map_cons, List.sum_cons]
            omega
          refine ⟨added + 1, Nat.succ_le_succ most, ?_, fun i before => ?_, fun short => ?_⟩
          · rw [shape, List.take_succ_cons, stacked, Nat.add_right_comm, Nat.add_assoc]
            simp only [String.append_assoc]
          · cases i with
            | zero =>
                rw [Nat.zero_add, first, Nat.add_zero]
                omega
            | succ i =>
                have own := each i (Nat.lt_of_succ_lt_succ before)
                rw [longer, Nat.add_right_comm shown 1 i] at own
                exact own
          · have own := stop (Nat.lt_of_succ_lt_succ short)
            rw [longer, Nat.add_right_comm shown 1 added] at own
            exact own

variable {title budget more total}

/-- A block is its title, the lines that fit, and a tail for the others. -/
theorem sectionOf_spec
    (room : ((textLength title + textLength (tailText more total 0) : ℕ) : ℤ) ≤ budget) :
    ∃ shown, shown ≤ lines.length ∧
      (sectionOf title lines budget more total).text =
        title ++ stacked (lines.take shown) ++ tailText more total shown ∧
      (∀ i < shown, LineFits title lines budget more total i) ∧
      (shown < lines.length → ¬ LineFits title lines budget more total shown) := by
  obtain ⟨shown, most, shape, each, stop⟩ := addLines_spec lines budget more total title 0
  simp only [Nat.zero_add] at shape each stop
  refine ⟨shown, most, ?_, each, fun short fits => not_lt.mpr fits (stop short)⟩
  have fits : ((textLength title + stackedLength (lines.take shown) +
      textLength (tailText more total shown) : ℕ) : ℤ) ≤ budget := by
    cases shown with
    | zero => exact room
    | succ last => exact each last (Nat.lt_succ_self last)
  have newline : textLength "\n" = 1 := by decide
  unfold sectionOf
  rw [shape]
  by_cases left : shown < total
  · rw [tailText, if_pos left] at fits ⊢
    rw [textLength_append, newline] at fits
    have positive : (total : ℤ) - shown > 0 := by omega
    simp only
    rw [if_pos positive, if_pos (by rw [textLength_append, textLength_stacked]; omega)]
    simp only [String.append_assoc]
  · rw [tailText, if_neg left]
    have ended : ¬ (total : ℤ) - shown > 0 := by omega
    simp only
    rw [if_neg ended, String.append_empty]

/-- A single line that fits needs no tail. -/
theorem sectionOf_one {line : String} (more : ℤ → Nat → String)
    (fits : ((textLength title + 1 + textLength line : ℕ) : ℤ) ≤ budget) :
    (sectionOf title [line] budget more 1).text = title ++ "\n" ++ line := by
  have noTail : textLength "" = 0 := by decide
  have added : addLines budget more 1 title 0 [line] = (title ++ "\n" ++ line, 1) := by
    have noLeft : ¬ ((1 : ℕ) : ℤ) - ((0 : ℕ) : ℤ) - 1 > 0 := by decide
    simp only [addLines, if_neg noLeft, noTail, Nat.add_zero]
    rw [if_neg (not_lt.mpr fits)]
  unfold sectionOf
  rw [added]
  simp only
  rw [if_neg (by decide)]

theorem stackedLength_of_same {lines : List String} {length : Nat}
    (same : ∀ line ∈ lines, textLength line = length) :
    stackedLength lines = lines.length * (1 + length) := by
  rw [stackedLength, List.map_congr_left fun line member => by rw [same line member],
    List.map_const', List.sum_replicate_nat]

end Layout

end ZabbixPortal.Services
