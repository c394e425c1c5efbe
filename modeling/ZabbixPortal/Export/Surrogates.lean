import ZabbixPortal.Export.CellText

/-! Texts without a split surrogate pair, and what keeps them so. -/

set_option autoImplicit false

namespace ZabbixPortal.Export

def isPlain (u : UInt16) : Bool := !isHighSurrogate u && !isLowSurrogate u

inductive Paired : List UInt16 → Prop
  | nil : Paired []
  | plain {u : UInt16} {rest : List UInt16} : isPlain u = true → Paired rest → Paired (u :: rest)
  | pair {high low : UInt16} {rest : List UInt16} : isHighSurrogate high = true →
      isLowSurrogate low = true → Paired rest → Paired (high :: low :: rest)

theorem not_high_of_low {u : UInt16} (low : isLowSurrogate u = true) :
    isHighSurrogate u = false := by
  simp only [isLowSurrogate, isHighSurrogate, Bool.and_eq_true, decide_eq_true_eq,
    Bool.and_eq_false_iff, decide_eq_false_iff_not] at low ⊢
  refine .inr fun high => ?_
  exact absurd (UInt16.le_trans low.1 high) (by decide)

theorem not_high_of_forbidden {u : UInt16} (forbidden : isForbidden u = true) :
    isHighSurrogate u = false := by
  simp only [isForbidden, isHighSurrogate, Bool.or_eq_true, Bool.and_eq_true, decide_eq_true_eq,
    beq_iff_eq, Bool.and_eq_false_iff, decide_eq_false_iff_not, UInt16.not_le] at forbidden ⊢
  simp only [UInt16.le_iff_toNat_le, UInt16.lt_iff_toNat_lt, ← UInt16.toNat_inj,
    UInt16.reduceToNat] at forbidden ⊢
  omega

theorem isPlain_iff (u : UInt16) :
    isPlain u = true ↔ isHighSurrogate u = false ∧ isLowSurrogate u = false := by
  simp [isPlain]

namespace Paired

variable {text : List UInt16}

theorem append {other : List UInt16} (paired : Paired text) (otherPaired : Paired other) :
    Paired (text ++ other) := by
  induction paired with
  | nil => exact otherPaired
  | plain isPlain _ ih => exact .plain isPlain ih
  | pair isHigh isLow _ ih => exact .pair isHigh isLow ih

theorem of_plain (plain : ∀ u ∈ text, isPlain u = true) : Paired text := by
  induction text with
  | nil => exact .nil
  | cons u rest ih =>
      exact .plain (plain u List.mem_cons_self) (ih fun v member => plain v (.tail _ member))

theorem map {change : UInt16 → UInt16}
    (keepsHigh : ∀ u, isHighSurrogate (change u) = isHighSurrogate u)
    (keepsLow : ∀ u, isLowSurrogate (change u) = isLowSurrogate u) (paired : Paired text) :
    Paired (text.map change) := by
  induction paired with
  | nil => exact .nil
  | plain plain _ ih =>
      refine .plain ?_ ih
      rwa [isPlain, keepsHigh, keepsLow]
  | pair isHigh isLow _ ih => exact .pair ((keepsHigh _).trans isHigh) ((keepsLow _).trans isLow) ih

/-- Units that are no surrogates may go from the front. -/
theorem dropWhile {drop : UInt16 → Bool} (plain : ∀ u, drop u = true → isPlain u = true)
    (paired : Paired text) : Paired (text.dropWhile drop) := by
  induction paired with
  | nil => exact .nil
  | @plain u rest isPlain paired ih =>
      by_cases dropped : drop u = true
      · rw [List.dropWhile_cons_of_pos dropped]
        exact ih
      · rw [List.dropWhile_cons_of_neg dropped]
        exact .plain isPlain paired
  | @pair high low rest isHigh isLow paired ih =>
      have kept : ¬ drop high = true := by
        intro dropped
        have split := ((isPlain_iff high).mp (plain high dropped)).1
        rw [isHigh] at split
        cases split
      rw [List.dropWhile_cons_of_neg kept]
      exact .pair isHigh isLow paired

/-- Units that are no surrogates may go from the end. -/
theorem of_append {front back : List UInt16} (paired : Paired (front ++ back))
    (plain : ∀ u ∈ back, isPlain u = true) : Paired front := by
  generalize whole : front ++ back = text at paired
  induction paired generalizing front with
  | nil =>
      rw [(List.append_eq_nil_iff.mp whole).1]
      exact .nil
  | @plain u rest isPlain _ ih =>
      cases front with
      | nil => exact .nil
      | cons v front =>
          simp only [List.cons_append, List.cons.injEq] at whole
          obtain ⟨rfl, same⟩ := whole
          exact .plain isPlain (ih same)
  | @pair high low rest isHigh isLow _ ih =>
      cases front with
      | nil => exact .nil
      | cons v front =>
          cases front with
          | nil =>
              simp only [List.cons_append, List.nil_append, List.cons.injEq] at whole
              have split := plain low (by rw [whole.2]; exact List.mem_cons_self)
              rw [isPlain_iff, isLow] at split
              cases split.2
          | cons w front =>
              simp only [List.cons_append, List.cons.injEq] at whole
              obtain ⟨rfl, rfl, same⟩ := whole
              exact .pair isHigh isLow (ih same)

/-- A cut before a high surrogate that would lose its partner splits no pair. -/
theorem take (paired : Paired text) (max : Nat) :
    Paired (text.take (if (text[max - 1]?).any isHighSurrogate then max - 1 else max)) := by
  induction paired generalizing max with
  | nil =>
      rw [List.take_nil]
      exact .nil
  | @plain u rest plain _ ih =>
      have notHigh := ((isPlain_iff u).mp plain).1
      cases max with
      | zero => simpa [notHigh] using Paired.nil
      | succ max =>
          cases max with
          | zero => simpa [notHigh] using Paired.plain plain .nil
          | succ max =>
              have shorter := ih (max + 1)
              simp only [Nat.add_one_sub_one, List.getElem?_cons_succ] at shorter ⊢
              split at shorter
              · next cutsHigh =>
                  rw [if_pos cutsHigh]
                  exact .plain plain shorter
              · next keeps =>
                  rw [if_neg keeps]
                  exact .plain plain shorter
  | @pair high low rest isHigh isLow _ ih =>
      have notHigh := not_high_of_low isLow
      cases max with
      | zero => simpa [isHigh] using Paired.nil
      | succ max =>
          cases max with
          | zero => simpa [isHigh] using Paired.nil
          | succ max =>
              cases max with
              | zero => simpa [notHigh] using Paired.pair isHigh isLow .nil
              | succ max =>
                  have shorter := ih (max + 1)
                  simp only [Nat.add_one_sub_one, List.getElem?_cons_succ] at shorter ⊢
                  split at shorter
                  · next cutsHigh =>
                      rw [if_pos cutsHigh]
                      exact .pair isHigh isLow shorter
                  · next keeps =>
                      rw [if_neg keeps]
                      exact .pair isHigh isLow shorter

theorem cut (paired : Paired text) (max : Nat) : Paired (Export.cut text max) := by
  unfold Export.cut
  split
  · exact paired
  · exact paired.take max

end Paired

theorem length_cut_le (text : List UInt16) (max : Nat) : (cut text max).length ≤ max := by
  unfold cut
  split
  · next fits => exact fits
  · rw [List.length_take]
    split
    · omega
    · omega

theorem withoutIllegal_cons (previous : Option UInt16) (u : UInt16) (rest : List UInt16) :
    withoutIllegal previous (u :: rest) =
      if isIllegal previous u rest.head? then withoutIllegal (some u) rest
      else u :: withoutIllegal (some u) rest := rfl

theorem not_isIllegal_iff (previous : Option UInt16) (u : UInt16) (next : Option UInt16) :
    ¬ isIllegal previous u next = true ↔
      isForbidden u = false ∧ (isHighSurrogate u = true → next.any isLowSurrogate = true) ∧
        (isLowSurrogate u = true → previous.any isHighSurrogate = true) := by
  simp [isIllegal, and_assoc]

theorem not_forbidden_of_low {u : UInt16} (low : isLowSurrogate u = true) :
    isForbidden u = false := by
  by_contra forbidden
  simp only [Bool.not_eq_false, isForbidden, Bool.or_eq_true, Bool.and_eq_true, decide_eq_true_eq,
    beq_iff_eq] at forbidden
  simp only [isLowSurrogate, Bool.and_eq_true, decide_eq_true_eq] at low
  simp only [UInt16.le_iff_toNat_le, ← UInt16.toNat_inj, UInt16.reduceToNat] at forbidden low
  omega

/-- What is left of a text without its illegal units has no split pair. Behind a high surrogate
that was kept, its partner comes first. -/
theorem withoutIllegal_cases (previous : Option UInt16) (text : List UInt16) :
    (previous.any isHighSurrogate = true ∧ text.head?.any isLowSurrogate = true ∧
        ∃ low rest, withoutIllegal previous text = low :: rest ∧ isLowSurrogate low = true ∧
          Paired rest) ∨
      ¬ (previous.any isHighSurrogate = true ∧ text.head?.any isLowSurrogate = true) ∧
        Paired (withoutIllegal previous text) := by
  induction text generalizing previous with
  | nil => exact .inr ⟨by simp, .nil⟩
  | cons u rest ih =>
      rw [withoutIllegal_cons, List.head?_cons, Option.any_some]
      by_cases illegal : isIllegal previous u rest.head? = true
      · rw [if_pos illegal]
        refine .inr ⟨?_, ?_⟩
        · rintro ⟨behind, low⟩
          refine (not_isIllegal_iff previous u rest.head?).mpr ⟨not_forbidden_of_low low, ?_,
            fun _ => behind⟩ illegal
          intro high
          rw [not_high_of_low low] at high
          cases high
        · rcases ih (some u) with ⟨high, next, -⟩ | ⟨-, paired⟩
          · refine absurd illegal ((not_isIllegal_iff previous u rest.head?).mpr ⟨?_,
              fun _ => next, fun low => ?_⟩)
            · by_contra forbidden
              have notHigh := not_high_of_forbidden (Bool.not_eq_false _ ▸ forbidden)
              rw [Option.any_some, notHigh] at high
              cases high
            · rw [Option.any_some, not_high_of_low low] at high
              cases high
          · exact paired
      · rw [if_neg illegal]
        obtain ⟨-, next, behind⟩ := (not_isIllegal_iff _ _ _).mp illegal
        cases high : isHighSurrogate u with
        | true =>
            have notLow : ¬ isLowSurrogate u = true := by
              intro low
              rw [not_high_of_low low] at high
              cases high
            rcases ih (some u) with ⟨-, -, low, more, shape, isLow, paired⟩ | ⟨impossible, -⟩
            · rw [shape]
              exact .inr ⟨fun both => notLow both.2, .pair high isLow paired⟩
            · exact absurd ⟨high, next high⟩ impossible
        | false =>
            have paired : Paired (withoutIllegal (some u) rest) := by
              rcases ih (some u) with ⟨isHigh, -⟩ | ⟨-, paired⟩
              · rw [Option.any_some, high] at isHigh
                cases isHigh
              · exact paired
            cases low : isLowSurrogate u with
            | true => exact .inl ⟨behind low, rfl, u, _, rfl, low, paired⟩
            | false =>
                exact .inr ⟨by simp, .plain ((isPlain_iff u).mpr ⟨high, low⟩) paired⟩

theorem paired_withoutIllegal (text : List UInt16) : Paired (withoutIllegal none text) := by
  rcases withoutIllegal_cases none text with ⟨impossible, -⟩ | ⟨-, paired⟩
  · cases impossible
  · exact paired

end ZabbixPortal.Export
