import ZabbixPortal.Clients.LimitsProperties
import ZabbixPortal.Foundation.Decimal
import ZabbixPortal.Foundation.Text
import ZabbixPortal.Foundation.Joined
import ZabbixPortal.Sli.TimeProperties

/-! The tokens of a day over whole runs: which records a refusal counts. -/

set_option autoImplicit false

namespace ZabbixPortal.Clients

open Foundation Sli

/-! ## The key of a day -/

theorem toString_ofNat (number : ℕ) : toString (number : ℤ) = toString number := rfl

theorem not_mem_dash {number : ℤ} (counted : 0 ≤ number) : '-' ∉ (toString number).toList := by
  obtain ⟨count, rfl⟩ := Int.eq_ofNat_of_zero_le counted
  rw [toString_ofNat]
  intro member
  exact absurd (isDigit_of_mem_toString member) (by decide)

theorem toString_negSucc (number : ℕ) :
    (toString (Int.negSucc number)).toList = '-' :: (toString (number + 1)).toList := by
  have text : toString (Int.negSucc number) = "-" ++ toString (number + 1) := rfl
  rw [text, String.toList_append]
  rfl

theorem intText_inj {number other : ℤ}
    (same : (toString number).toList = (toString other).toList) : number = other := by
  have dash : ∀ left right : ℕ,
      (toString (left : ℤ)).toList ≠ (toString (Int.negSucc right)).toList := by
    intro left right equal
    refine not_mem_dash (Int.natCast_nonneg left) ?_
    rw [equal, toString_negSucc]
    exact List.mem_cons_self
  cases number with
  | ofNat left =>
      cases other with
      | ofNat right => exact congrArg Int.ofNat (toString_inj same)
      | negSucc right => exact absurd same (dash left right)
  | negSucc left =>
      cases other with
      | ofNat right => exact absurd same.symm (dash right left)
      | negSucc right =>
          rw [toString_negSucc, toString_negSucc] at same
          have numbers := toString_inj (List.cons.inj same).2
          exact congrArg Int.negSucc (Nat.succ.inj numbers)

/-- The key tells valid days apart. -/
theorem dayKey_inj {left right : CivilDate} (valid : left.Valid) (other : right.Valid)
    (same : dayKey left = dayKey right) : left = right := by
  have text : ∀ date : CivilDate, (dayKey date).toList =
      ((toString date.year).toList ++ '-' :: (toString date.month).toList) ++
        '-' :: (toString date.day).toList := by
    intro date
    simp [dayKey, String.toList_append]
  have whole := congrArg String.toList same
  rw [text, text] at whole
  have positive : ∀ number : ℤ, 1 ≤ number → '-' ∉ (toString number).toList :=
    fun number counted => not_mem_dash (by omega)
  obtain ⟨months, days⟩ := append_mark_inj (positive _ valid.day.1) (positive _ other.day.1) whole
  obtain ⟨years, months⟩ :=
    append_mark_inj (positive _ valid.month.1) (positive _ other.month.1) months
  obtain ⟨year, month, day⟩ := left
  obtain ⟨year', month', day'⟩ := right
  cases intText_inj years
  cases intText_inj months
  cases intText_inj days
  rfl

section Days

variable (zones : String → Option Zone) (zone : String)

def dayNumberAt (nowMs : ℤ) : ℤ :=
  match zoneNamed zones zone with
  | some tz => tz.clock (nowMs / 1000) / 86400
  | none => nowMs / 1000 / 86400

def zoneDay (nowMs : ℤ) : CivilDate := CivilDate.dateOf (dayNumberAt zones zone nowMs)

theorem zoneDay_inj {left right : ℤ} (same : zoneDay zones zone left = zoneDay zones zone right) :
    dayNumberAt zones zone left = dayNumberAt zones zone right := by
  have numbers := congrArg CivilDate.dayNumber same
  simpa [zoneDay, CivilDate.dayNumber_dateOf] using numbers

/-- Two instants have one key when they are on one calendar day. -/
theorem key_eq_iff (left right : ℤ) :
    (dayIn zones zone left).key = (dayIn zones zone right).key ↔
      zoneDay zones zone left = zoneDay zones zone right := by
  constructor
  · intro same
    unfold zoneDay dayNumberAt
    unfold dayIn at same
    cases named : zoneNamed zones zone with
    | none =>
        simp only [named] at same ⊢
        rw [intText_inj (congrArg String.toList same)]
    | some tz =>
        simp only [named] at same ⊢
        exact dayKey_inj (CivilDate.dateOf_valid _) (CivilDate.dateOf_valid _) same
  · intro same
    have numbers := zoneDay_inj zones zone same
    unfold dayNumberAt at numbers
    unfold dayIn
    cases named : zoneNamed zones zone with
    | none =>
        simp only [named] at numbers ⊢
        rw [numbers]
    | some tz =>
        simp only [named] at numbers ⊢
        rw [Zone.localDate, Zone.localDate, numbers]

/-- The clocks of the zone never go back over a midnight. -/
def NeverReturns : Prop :=
  ∀ tz, zoneNamed zones zone = some tz → ∀ day change, ¬ tz.Returns (86400 * day) change

variable {zones} {zone}

theorem clockDay_le {tz : Zone} (forward : ∀ day change, ¬ tz.Returns (86400 * day) change)
    (start : ℤ) (seconds : ℕ) : tz.clock start / 86400 ≤ tz.clock (start + seconds) / 86400 := by
  induction seconds with
  | zero => simp
  | succ seconds ih =>
      refine ih.trans ?_
      by_contra back
      refine forward (tz.clock (start + seconds) / 86400) (start + seconds + 1) ?_
      unfold Zone.Returns
      unfold Zone.clock at back ⊢
      have previous : start + (seconds : ℤ) + 1 - 1 = start + seconds := by omega
      rw [previous]
      push_cast at back
      rw [← add_assoc] at back
      omega

/-- In such a zone a later instant is on no earlier day. -/
theorem dayNumberAt_mono (forward : NeverReturns zones zone) {early late : ℤ}
    (ordered : early ≤ late) : dayNumberAt zones zone early ≤ dayNumberAt zones zone late := by
  have seconds : early / 1000 ≤ late / 1000 := by omega
  unfold dayNumberAt
  cases named : zoneNamed zones zone with
  | none =>
      dsimp only
      omega
  | some tz =>
      dsimp only
      have passed := clockDay_le (forward tz named) (early / 1000) (late / 1000 - early / 1000).toNat
      rwa [Int.toNat_of_nonneg (by omega), add_sub_cancel] at passed

end Days

/-! ## Callers -/

theorem Caller.name_inj {left right : Caller} (same : left.name = right.name) : left = right := by
  have letters := congrArg String.toList same
  cases left with
  | user sub =>
      cases right with
      | user other => simpa [Caller.name, String.toList_append, String.toList_inj] using letters
      | address ip => simp [Caller.name, String.toList_append] at letters
  | address ip =>
      cases right with
      | user sub => simp [Caller.name, String.toList_append] at letters
      | address other => simpa [Caller.name, String.toList_append, String.toList_inj] using letters

/-- No caller is the portal total. -/
theorem Caller.name_ne_all (caller : Caller) : caller.name ≠ ALL := by
  intro same
  have letters := congrArg String.toList same
  cases caller <;> simp [Caller.name, ALL, String.toList_append] at letters

def entryOf : Option Caller → String
  | some caller => caller.name
  | none => ALL

/-! ## Runs -/

inductive BudgetCall where
  | refusal (caller : Caller) (limits : BudgetLimits) (now : ℤ)
  | record (caller : Caller) (amount now : ℤ)
  | usedBy (caller : Option Caller) (now : ℤ)
deriving DecidableEq, Repr

def BudgetCall.now : BudgetCall → ℤ
  | .refusal _ _ now => now
  | .record _ _ now => now
  | .usedBy _ now => now

def BudgetCall.charges (who : Option Caller) : BudgetCall → ℤ
  | .record caller amount _ => if 0 < amount ∧ (who = none ∨ who = some caller) then amount else 0
  | _ => 0

/-- Whether a call looks at the day: a record of nothing does not. -/
def BudgetCall.looks : BudgetCall → Bool
  | .record _ amount _ => decide (0 < amount)
  | _ => true

section Run

variable (zones : String → Option Zone) (zone : String)

def DailyTokens.after (tokens : DailyTokens) : BudgetCall → DailyTokens
  | .refusal caller limits now => (tokens.refusal limits zone (dayIn zones zone now) caller.name).1
  | .record caller amount now => tokens.record (dayIn zones zone now) caller.name amount
  | .usedBy caller now => (tokens.usedBy (dayIn zones zone now) (caller.map Caller.name)).1

def tokensAfter (calls : List BudgetCall) : DailyTokens :=
  calls.foldl (DailyTokens.after zones zone) .new

def refusalAfter (before : List BudgetCall) (caller : Caller) (limits : BudgetLimits) (now : ℤ) :
    Option BudgetRefusal :=
  ((tokensAfter zones zone before).refusal limits zone (dayIn zones zone now) caller.name).2

/-- The calls since the last one that looked at another day. -/
def sinceDay (now : ℤ) (calls : List BudgetCall) : List BudgetCall :=
  (calls.filter BudgetCall.looks).reverse.takeWhile fun call =>
    decide (zoneDay zones zone call.now = zoneDay zones zone now)

def onDay (now : ℤ) (calls : List BudgetCall) : List BudgetCall :=
  calls.filter fun call => decide (zoneDay zones zone call.now = zoneDay zones zone now)

def charged (who : Option Caller) (calls : List BudgetCall) : ℤ :=
  (calls.map (BudgetCall.charges who)).sum

/-- The tokens that are too many for a caller under the limits; a limit of 0 refuses nobody. -/
def Exceeds (limits : BudgetLimits) (caller : Caller) (calls : List BudgetCall) : Prop :=
  (0 < limits.perUser ∧ limits.perUser ≤ charged (some caller) calls) ∨
    (0 < limits.total ∧ limits.total ≤ charged none calls)

variable {zones} {zone}

/-- A call that looks at the day starts over on a new one, and charges what it records. -/
theorem after_looks {call : BudgetCall} (looks : call.looks = true) (tokens : DailyTokens) :
    (tokens.after zones zone call).day = (dayIn zones zone call.now).key ∧
      ∀ who, (tokens.after zones zone call).usedOf (entryOf who) =
        (tokens.today (dayIn zones zone call.now)).usedOf (entryOf who) + call.charges who := by
  have day : (tokens.today (dayIn zones zone call.now)).day = (dayIn zones zone call.now).key := by
    unfold DailyTokens.today
    split
    · rfl
    · next same => exact (not_not.mp same).symm
  cases call with
  | refusal caller limits now =>
      have only : tokens.after zones zone (.refusal caller limits now) =
          tokens.today (dayIn zones zone now) := by
        unfold DailyTokens.after DailyTokens.refusal
        dsimp only
        split
        · rfl
        · split <;> rfl
      rw [only]
      exact ⟨day, fun who => by simp [BudgetCall.charges, BudgetCall.now]⟩
  | usedBy caller now => exact ⟨day, fun who => by
      simp [BudgetCall.charges, BudgetCall.now, DailyTokens.after, DailyTokens.usedBy]⟩
  | record caller amount now =>
      have positive : 0 < amount := of_decide_eq_true looks
      refine ⟨?_, fun who => ?_⟩
      · simp only [DailyTokens.after, DailyTokens.record, gt_iff_lt, positive, not_true, if_false]
        exact day
      · simp only [DailyTokens.after, DailyTokens.record, gt_iff_lt, positive, not_true, if_false,
          BudgetCall.now, BudgetCall.charges, true_and]
        cases who with
        | none =>
            have apart : ALL ≠ caller.name := caller.name_ne_all.symm
            simp [entryOf, DailyTokens.usedOf, OrderedMap.get?_set, apart]
        | some other =>
            have apart : other.name ≠ ALL := other.name_ne_all
            by_cases same : other = caller
            · subst same
              simp [entryOf, DailyTokens.usedOf, OrderedMap.get?_set, apart]
            · have names : other.name ≠ caller.name := fun equal => same (Caller.name_inj equal)
              simp [entryOf, DailyTokens.usedOf, OrderedMap.get?_set, apart, names, same]

theorem after_blind {call : BudgetCall} (blind : call.looks = false) (tokens : DailyTokens) :
    tokens.after zones zone call = tokens := by
  cases call with
  | refusal caller limits now => cases blind
  | usedBy caller now => cases blind
  | record caller amount now =>
      have ended : ¬ amount > 0 := of_decide_eq_false blind
      rw [DailyTokens.after, DailyTokens.record, if_pos ended]

/-- What the table has for a day: the tokens charged since a call looked at another one. -/
theorem usedOf_today (calls : List BudgetCall) (now : ℤ) (who : Option Caller) :
    ((tokensAfter zones zone calls).today (dayIn zones zone now)).usedOf (entryOf who) =
      charged who (sinceDay zones zone now calls) := by
  induction calls using List.reverseRecOn generalizing now with
  | nil =>
      unfold DailyTokens.today
      split <;> rfl
  | append_singleton calls call ih =>
      have last : tokensAfter zones zone (calls ++ [call]) =
          (tokensAfter zones zone calls).after zones zone call := by simp [tokensAfter]
      rw [last]
      cases looks : call.looks with
      | false =>
          rw [after_blind looks, ih now]
          simp [sinceDay, looks]
      | true =>
          obtain ⟨day, used⟩ := @after_looks zones zone call looks
            (tokensAfter zones zone calls)
          by_cases same : zoneDay zones zone call.now = zoneDay zones zone now
          · have keys := (key_eq_iff zones zone _ _).mpr same
            rw [DailyTokens.today, if_neg (not_not.mpr (keys.symm.trans day.symm)), used, ih]
            simp [sinceDay, looks, same, charged, add_comm]
          · have keys : (dayIn zones zone now).key ≠
                ((tokensAfter zones zone calls).after zones zone call).day := by
              rw [day]
              exact fun equal => same ((key_eq_iff zones zone _ _).mp equal.symm)
            rw [DailyTokens.today, if_pos keys]
            simp [sinceDay, looks, same, charged, DailyTokens.usedOf]

theorem charged_looks (who : Option Caller) (calls : List BudgetCall) :
    charged who (calls.filter BudgetCall.looks) = charged who calls := by
  induction calls with
  | nil => rfl
  | cons call rest ih =>
      cases looks : call.looks with
      | true =>
          rw [List.filter_cons_of_pos looks]
          simp only [charged, List.map_cons, List.sum_cons] at ih ⊢
          rw [ih]
      | false =>
          have nothing : call.charges who = 0 := by
            cases call with
            | refusal caller limits now => rfl
            | usedBy caller now => rfl
            | record caller amount now =>
                have ended : ¬ 0 < amount := of_decide_eq_false looks
                rw [BudgetCall.charges, if_neg fun charged => ended charged.1]
          rw [List.filter_cons_of_neg (by simp [looks])]
          simp only [charged, List.map_cons, List.sum_cons, nothing, zero_add] at ih ⊢
          exact ih

/-- Where no day returns, those are the tokens charged on the day. -/
theorem charged_sinceDay (forward : NeverReturns zones zone) {calls : List BudgetCall} {now : ℤ}
    (ordered : calls.Pairwise fun earlier later => earlier.now ≤ later.now)
    (passed : ∀ call ∈ calls, call.now ≤ now) (who : Option Caller) :
    charged who (sinceDay zones zone now calls) = charged who (onDay zones zone now calls) := by
  have forGood : (calls.filter BudgetCall.looks).reverse.Pairwise fun first second =>
      decide (zoneDay zones zone second.now = zoneDay zones zone now) = true →
        decide (zoneDay zones zone first.now = zoneDay zones zone now) = true := by
    rw [List.pairwise_reverse]
    refine (ordered.filter _).imp_of_mem fun {earlier later} _ inside sooner same => ?_
    have day := zoneDay_inj zones zone (of_decide_eq_true same)
    have lower := dayNumberAt_mono forward sooner
    have upper := dayNumberAt_mono forward (passed later (List.mem_of_mem_filter inside))
    have between : dayNumberAt zones zone later.now = dayNumberAt zones zone now := by omega
    exact decide_eq_true (congrArg CivilDate.dateOf between)
  have reversed : ∀ items : List BudgetCall, charged who items.reverse = charged who items :=
    fun items => by simp [charged, List.sum_reverse]
  unfold sinceDay onDay
  rw [takeWhile_eq_filter forGood, List.filter_reverse, reversed, List.filter_filter,
    ← charged_looks who (calls.filter fun call =>
      decide (zoneDay zones zone call.now = zoneDay zones zone now)), List.filter_filter]
  simp only [Bool.and_comm]

/-- A refusal counts what the table has for its day. -/
theorem refusal_isSome_iff (tokens : DailyTokens) (limits : BudgetLimits) (today : Today)
    (caller : String) :
    (tokens.refusal limits zone today caller).2.isSome = true ↔
      (0 < limits.perUser ∧ limits.perUser ≤ (tokens.today today).usedOf caller) ∨
        (0 < limits.total ∧ limits.total ≤ (tokens.today today).usedOf ALL) := by
  unfold DailyTokens.refusal
  dsimp only
  split
  · next own => exact ⟨fun _ => .inl own, fun _ => rfl⟩
  · next own =>
      split
      · next all => exact ⟨fun _ => .inr all, fun _ => rfl⟩
      · next all =>
          refine ⟨fun refused => ?_, fun either => absurd either (not_or.mpr ⟨own, all⟩)⟩
          cases refused

theorem refusalAfter_iff (before : List BudgetCall) (caller : Caller) (limits : BudgetLimits)
    (now : ℤ) :
    (refusalAfter zones zone before caller limits now).isSome = true ↔
      Exceeds limits caller (sinceDay zones zone now before) := by
  unfold refusalAfter
  rw [refusal_isSome_iff]
  have own := @usedOf_today zones zone before now (some caller)
  have all := @usedOf_today zones zone before now none
  rw [show caller.name = entryOf (some caller) from rfl, show ALL = entryOf none from rfl, own, all]
  rfl

/-- The caps hold over every run: of the calls for a key in a minute at most so many go ahead,
and a caller is refused for the tokens charged since a call looked at another day, which are
those of the calendar day where the clocks never go back over a midnight. -/
theorem caps_hold {max : ℕ} (positive : 1 ≤ max) {calls : List MinuteLimit.Call}
    (bounded : MinuteLimit.Bounded calls) {spending : List BudgetCall}
    (ordered : spending.Pairwise fun earlier later => earlier.now ≤ later.now) :
    MinuteLimit.Capped max calls ∧
      ∀ before caller limits now after,
        spending = before ++ BudgetCall.refusal caller limits now :: after →
          ((refusalAfter zones zone before caller limits now).isSome = true ↔
            Exceeds limits caller (sinceDay zones zone now before)) ∧
          (NeverReturns zones zone →
            ((refusalAfter zones zone before caller limits now).isSome = true ↔
              Exceeds limits caller (onDay zones zone now before))) := by
  refine ⟨bounded.capped positive, fun before caller limits now after split => ?_⟩
  have refused := @refusalAfter_iff zones zone before caller limits now
  refine ⟨refused, fun forward => ?_⟩
  rw [split] at ordered
  obtain ⟨earlier, _, later⟩ := List.pairwise_append.mp ordered
  have passed : ∀ call ∈ before, call.now ≤ now := fun call member =>
    later call member (.refusal caller limits now) List.mem_cons_self
  have counted := charged_sinceDay forward earlier passed
  rw [refused, Exceeds, Exceeds, counted, counted]

end Run

section Examples

def ana : Caller := .user "ana"

/-- Two and a half hours west until one minute into 2010-11-07, when the clocks go back to a
minute past eleven of the day before. -/
def stJohns : Zone where
  offset t := if t < 1289097060 then -9000 else -12600
  bounded := by
    intro t
    split <;> decide
  steady := by
    intro start
    refine ⟨1289097060, fun t started before => ?_, fun t after ended => ?_⟩
    · rw [if_pos before, if_pos (by omega)]
    · rw [if_neg (by omega), if_neg (by omega)]

def asked : List MinuteLimit.Call :=
  [⟨"chat|user:ana", 0⟩, ⟨"chat|user:ana", 1⟩, ⟨"chat|user:ana", 60000⟩,
    ⟨"chat|user:ana", 60001⟩]

theorem asked_bounded : MinuteLimit.Bounded asked :=
  MinuteLimit.bounded_of_one "chat|user:ana" (by decide) (by decide)

/-- Five tokens a minute before the day ends, a question after midnight, and one after the
clocks have gone back. -/
def spent : List BudgetCall :=
  [.record ana 5 1289096940000, .refusal ana ⟨5, 0⟩ 1289097030000,
    .refusal ana ⟨5, 0⟩ 1289097120000]

/-- A call after the wait is refused when another has taken the new minute; and the day that
comes back after midnight has lost its tokens. -/
theorem caps_fail :
    MinuteLimit.Bounded asked ∧ MinuteLimit.answerTo 1 (asked.take 1) ⟨"chat|user:ana", 1⟩ = some 60 ∧
      MinuteLimit.answerTo 1 (asked.take 3) ⟨"chat|user:ana", 60001⟩ = some 60 ∧
      Exceeds ⟨5, 0⟩ ana
        (onDay (fun _ => some stJohns) "America/St_Johns" 1289097120000 (spent.take 2)) ∧
      refusalAfter (fun _ => some stJohns) "America/St_Johns" (spent.take 2) ana ⟨5, 0⟩
        1289097120000 = none := by
  refine ⟨asked_bounded, by decide +kernel, by decide +kernel, .inl ⟨by decide, ?_⟩,
    by decide +kernel⟩
  decide +kernel

theorem neverReturns_jakarta : NeverReturns (fun _ => some jakarta) "Asia/Jakarta" := by
  intro tz named day change returns
  cases named
  exact absurd returns.2 (not_lt.mpr returns.1.le)

theorem caps_hold_asked :
    MinuteLimit.answerTo 1 (asked.take 2) ⟨"chat|user:ana", 60000⟩ = none ∧
      (refusalAfter (fun _ => some jakarta) "Asia/Jakarta" (spent.take 1) ana ⟨5, 0⟩
        1289097030000).isSome = true := by
  obtain ⟨minutes, days⟩ := @caps_hold (fun _ => some jakarta) "Asia/Jakarta" 1 le_rfl asked
    asked_bounded spent (by decide)
  constructor
  · exact (minutes.goesAhead (asked.take 2) ⟨"chat|user:ana", 60000⟩ (asked.drop 3) rfl).mpr
      (by decide +kernel)
  · refine ((days (spent.take 1) ana ⟨5, 0⟩ 1289097030000 (spent.drop 2) rfl).2
      neverReturns_jakarta).mpr (.inl ⟨by decide, ?_⟩)
    decide +kernel

end Examples

end ZabbixPortal.Clients
