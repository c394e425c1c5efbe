import ZabbixPortal.Services.Acknowledge

/-! A write names who asked for it, and does no more than was asked. -/

set_option autoImplicit false

namespace ZabbixPortal.Services

open Foundation
open Export (units isHighSurrogate isLowSurrogate)

structure ValidBody (body : Option Json) : Prop where
  isObject : ∃ fields, body = some (.object fields)
  message : ∀ value, ackField body "message" = some value → value = .null ∨ ∃ text, value = .text text
  flags : ∀ flag ∈ ["acknowledge", "close"], ∀ value, ackField body flag = some value →
    value = .null ∨ ∃ set, value = .bool set

structure Attributed (config : WriteConfig) (isFormat : Nat → Bool) (request : AckRequest)
    (eventids : List (List UInt16)) (action : Nat) (message : List UInt16) : Prop where
  enabled : writeBackEnabled config = true
  valid : ValidBody request.body
  nonempty : 1 ≤ eventids.length
  few : eventids.length ≤ MAX_EVENTIDS
  digits : ∀ id ∈ eventids, id ≠ [] ∧ ∀ u ∈ id, isDigitUnit u = true
  asked : eventids = namedIds request.body
  closes : action.testBit 0 = true ↔ ackField request.body "close" = some (.bool true)
  acknowledges : action.testBit 1 = true ↔
    ackField request.body "acknowledge" ≠ some (.bool false)
  notes : action.testBit 2 = true
  noMore : action < 8
  short : message.length ≤ MAX_MESSAGE
  tagged : tag (actor isFormat request) <+: message
  unbracketed : OPENING ∉ actor isFormat request ∧ CLOSING ∉ actor isFormat request
  sameForEveryNote : message.takeWhile (· ≠ CLOSING) = units "[portal:" ++ actor isFormat request

/-- Only a write and what follows it touch anything but the log. -/
def AckEffect.acts : AckEffect → Bool
  | .attempted _ | .refused _ _ | .failed _ _ _ | .written _ _ => false
  | .sent _ _ _ | .invalidated _ _ | .notified => true

def AckEffect.sends : AckEffect → Bool
  | .sent _ _ _ => true
  | _ => false

theorem AckEffect.acts_of_sends {effect : AckEffect} (isSent : effect.sends = true) :
    effect.acts = true := by
  cases effect with
  | sent eventids action message => rfl
  | _ => cases isSent

section Actor

variable (isFormat : Nat → Bool)

/-- A code point is one unit, or a pair of surrogates. -/
theorem codePoint_shape {text point : List UInt16} (member : point ∈ codePoints text) :
    (∃ u, point = [u]) ∨
      ∃ high low, point = [high, low] ∧ isHighSurrogate high = true ∧ isLowSurrogate low = true := by
  induction text using codePoints.induct with
  | case1 => cases member
  | case2 u => exact .inl ⟨u, List.mem_singleton.mp member⟩
  | case3 u v rest pair ih =>
      rw [codePoints, if_pos pair] at member
      rcases List.mem_cons.mp member with rfl | later
      · exact .inr ⟨u, v, rfl, Bool.and_eq_true_iff.mp pair⟩
      · exact ih later
  | case4 u v rest single ih =>
      rw [codePoints, if_neg single] at member
      rcases List.mem_cons.mp member with rfl | later
      · exact .inl ⟨u, rfl⟩
      · exact ih later

theorem mem_trimUnits {u : UInt16} {text : List UInt16} (member : u ∈ trimUnits text) : u ∈ text := by
  have inner := (List.dropWhile_sublist _).subset (List.mem_reverse.mp member)
  exact (List.dropWhile_sublist _).subset (List.mem_reverse.mp inner)

/-- A bracket is half of no pair, so the filter on code points drops every one. -/
theorem not_mem_kept (text : List UInt16) {bracket : UInt16}
    (single : isHighSurrogate bracket = false ∧ isLowSurrogate bracket = false)
    (dropped : isDropped isFormat [bracket] = true) :
    bracket ∉ ((codePoints text).filter fun point => !isDropped isFormat point).flatten := by
  intro member
  obtain ⟨point, kept, inside⟩ := List.mem_flatten.mp member
  obtain ⟨listed, stays⟩ := List.mem_filter.mp kept
  rcases codePoint_shape listed with ⟨u, rfl⟩ | ⟨high, low, rfl, isHigh, isLow⟩
  · rw [← List.mem_singleton.mp inside, dropped] at stays
    cases stays
  · rcases List.mem_cons.mp inside with rfl | later
    · rw [single.1] at isHigh
      cases isHigh
    · rw [← List.mem_singleton.mp later, single.2] at isLow
      cases isLow

/-- The actor is what a name leaves once it is stripped, trimmed and cut. -/
theorem actor_cases (request : AckRequest) : actor isFormat request = ANONYMOUS ∨ ∃ sub,
    actor isFormat request =
      (trimUnits ((codePoints sub).filter fun point => !isDropped isFormat point).flatten).take 64 := by
  unfold actor
  split
  · exact .inl rfl
  · next nonempty =>
      unfold nameOf at nonempty ⊢
      split at nonempty
      · next sub _ => exact .inr ⟨sub, rfl⟩
      · exact absurd rfl nonempty

theorem not_mem_actor (request : AckRequest) {bracket : UInt16}
    (single : isHighSurrogate bracket = false ∧ isLowSurrogate bracket = false)
    (dropped : isDropped isFormat [bracket] = true) (foreign : bracket ∉ ANONYMOUS) :
    bracket ∉ actor isFormat request := by
  rcases actor_cases isFormat request with anonymous | ⟨sub, named⟩
  · rw [anonymous]
    exact foreign
  · rw [named]
    exact fun member => not_mem_kept isFormat sub single dropped
      (mem_trimUnits (List.mem_of_mem_take member))

theorem actor_unbracketed (request : AckRequest) :
    OPENING ∉ actor isFormat request ∧ CLOSING ∉ actor isFormat request := by
  have opening : isDropped isFormat [OPENING] = true := by simp [isDropped]
  have closing : isDropped isFormat [CLOSING] = true := by simp [isDropped]
  exact ⟨not_mem_actor isFormat request (by decide) opening (by decide),
    not_mem_actor isFormat request (by decide) closing (by decide)⟩

theorem length_actor (request : AckRequest) : (actor isFormat request).length ≤ 64 := by
  rcases actor_cases isFormat request with anonymous | ⟨sub, named⟩
  · rw [anonymous]
    decide
  · rw [named]
    exact List.length_take_le _ _

end Actor

section Message

variable (user note : List UInt16)

/-- The tag fits, so the cut leaves it whole. -/
theorem ackMessage_shape (short : user.length ≤ 64) :
    ∃ rest, ackMessage user note = tag user ++ rest := by
  have fits : (tag user).length ≤ MAX_MESSAGE := by
    have opening : (units "[portal:").length = 8 := by decide
    rw [tag, List.length_append, List.length_append, opening, List.length_singleton, MAX_MESSAGE]
    omega
  unfold ackMessage
  split
  · rw [List.take_append, List.take_of_length_le fits]
    exact ⟨_, rfl⟩
  · rw [List.take_of_length_le fits]
    exact ⟨[], (List.append_nil _).symm⟩

theorem length_ackMessage : (ackMessage user note).length ≤ MAX_MESSAGE := List.length_take_le _ _

theorem takeWhile_tag (rest : List UInt16) (unbracketed : CLOSING ∉ user) :
    (tag user ++ rest).takeWhile (· ≠ CLOSING) = units "[portal:" ++ user := by
  have open' : ∀ u ∈ units "[portal:" ++ user, decide (u ≠ CLOSING) = true := by
    intro u member
    rcases List.mem_append.mp member with inOpening | inUser
    · have ended : CLOSING ∉ units "[portal:" := by decide
      exact decide_eq_true fun same => ended (same ▸ inOpening)
    · exact decide_eq_true fun same => unbracketed (same ▸ inUser)
  rw [tag, List.append_assoc, List.takeWhile_append_of_pos open', List.singleton_append,
    List.takeWhile_cons_of_neg (by simp), List.append_nil]

end Message

section Bits

variable (acknowledge close : Bool) (note : List UInt16)

/-- The bits that go out: those asked for, and the message's. -/
theorem bits_sent : (askedBits acknowledge close note ||| ACTION_MESSAGE).testBit 0 = close ∧
    (askedBits acknowledge close note ||| ACTION_MESSAGE).testBit 1 = acknowledge ∧
    (askedBits acknowledge close note ||| ACTION_MESSAGE).testBit 2 = true ∧
    askedBits acknowledge close note ||| ACTION_MESSAGE < 8 := by
  by_cases nonempty : note ≠ []
  · rw [askedBits, if_pos nonempty]
    cases acknowledge <;> cases close <;> decide
  · rw [askedBits, if_neg nonempty]
    cases acknowledge <;> cases close <;> decide

end Bits

section Checks

/-- A field that is no misfit is missing, null or of its kind. -/
theorem text_of_not_isNoText {value : Option Json} (fits : isNoText value = false) :
    ∀ json, value = some json → json = .null ∨ ∃ text, json = .text text := by
  intro json own
  subst own
  cases json with
  | null => exact .inl rfl
  | text value => exact .inr ⟨value, rfl⟩
  | bool _ => cases fits
  | number _ => cases fits
  | array _ => cases fits
  | object _ => cases fits

theorem flag_of_not_isNoFlag {value : Option Json} (fits : isNoFlag value = false) :
    ∀ json, value = some json → json = .null ∨ ∃ set, json = .bool set := by
  intro json own
  subst own
  cases json with
  | null => exact .inl rfl
  | bool value => exact .inr ⟨value, rfl⟩
  | text _ => cases fits
  | number _ => cases fits
  | array _ => cases fits
  | object _ => cases fits

/-- Event ids are found in objects only. -/
theorem isObject_of_textsOf {body : Option Json} {id : List UInt16}
    (listed : id ∈ textsOf (ackField body "eventids")) : ∃ fields, body = some (.object fields) := by
  cases body with
  | none => cases listed
  | some json =>
      cases json with
      | object fields => exact ⟨fields, rfl⟩
      | null => cases listed
      | bool _ => cases listed
      | number _ => cases listed
      | text _ => cases listed
      | array _ => cases listed

theorem isEventId_iff (id : List UInt16) :
    isEventId id = true ↔ id ≠ [] ∧ ∀ u ∈ id, isDigitUnit u = true := by
  simp [isEventId]

variable {config : WriteConfig} {body : Option Json} {ack : Ack}

/-- What a request that passes the checks has passed. -/
theorem checkAck_ok (checked : checkAck config body = .ok ack) :
    writeBackEnabled config = true ∧ ValidBody body ∧
      namedIds body ≠ [] ∧ (namedIds body).length ≤ MAX_EVENTIDS ∧
      (∀ id ∈ namedIds body, isEventId id = true) ∧ ack = ackOf body := by
  unfold checkAck at checked
  split at checked
  · cases checked
  · next passed =>
      have each := List.find?_eq_none.mp passed
      simp only [ackChecks, List.mem_cons, List.not_mem_nil, or_false, forall_eq_or_imp, forall_eq,
        Bool.not_eq_true, Bool.not_eq_eq_eq_not, Bool.not_false] at each
      obtain ⟨enabled, isObject, nonempty, few, numeric, message, acknowledge, close, -⟩ := each
      have someIds : namedIds body ≠ [] := fun empty => by
        rw [empty] at nonempty
        cases nonempty
      refine ⟨enabled, ⟨?_, text_of_not_isNoText message, ?_⟩, someIds, ?_, ?_,
        (Except.ok.inj checked).symm⟩
      · obtain ⟨id, listed⟩ := List.exists_mem_of_ne_nil _ someIds
        exact isObject_of_textsOf (List.mem_filter.mp listed).1
      · intro flag isFlag
        rcases List.mem_cons.mp isFlag with rfl | isClose
        · exact flag_of_not_isNoFlag acknowledge
        · rw [List.mem_singleton.mp isClose]
          exact flag_of_not_isNoFlag close
      · exact Nat.le_of_not_lt (of_decide_eq_false few)
      · intro id listed
        have fits := List.any_eq_false.mp numeric id listed
        simpa using fits

theorem flagOf_true_iff {value : Option Json} : flagOf true value = true ↔ value ≠ some (.bool false) := by
  unfold flagOf
  split
  · next set =>
      cases set <;> simp
  · next other => exact ⟨fun _ isFalse => other false isFalse, fun _ => rfl⟩

theorem flagOf_false_iff {value : Option Json} : flagOf false value = true ↔ value = some (.bool true) := by
  unfold flagOf
  split
  · next set => cases set <;> simp
  · next other => exact ⟨fun isTrue => absurd isTrue Bool.false_ne_true, fun isTrue => absurd isTrue (other true)⟩

end Checks

section Handler

/-- What goes out for a request that passed the checks. -/
theorem attributed_of_checkAck {config : WriteConfig} (isFormat : Nat → Bool) {request : AckRequest}
    {ack : Ack} (checked : checkAck config request.body = .ok ack) :
    Attributed config isFormat request ack.eventids (ack.asked ||| ACTION_MESSAGE)
      (ackMessage (trailOf isFormat request).user ack.note) := by
  obtain ⟨enabled, valid, nonempty, few, numeric, rfl⟩ := checkAck_ok checked
  obtain ⟨closes, acknowledges, notes, noMore⟩ := bits_sent
    (flagOf true (ackField request.body "acknowledge"))
    (flagOf false (ackField request.body "close")) (noteOf (ackField request.body "message"))
  obtain ⟨rest, shape⟩ := ackMessage_shape (actor isFormat request) (ackOf request.body).note
    (length_actor isFormat request)
  have unbracketed := actor_unbracketed isFormat request
  exact {
    enabled, valid, few, notes, noMore
    nonempty := List.length_pos_iff.mpr nonempty
    digits := fun id listed => (isEventId_iff id).mp (numeric id listed)
    asked := rfl
    closes := by
      rw [← flagOf_false_iff, ← closes]
      rfl
    acknowledges := by
      rw [← flagOf_true_iff, ← acknowledges]
      rfl
    short := length_ackMessage _ _
    tagged := ⟨rest, shape.symm⟩
    unbracketed
    sameForEveryNote := by
      have stops := takeWhile_tag (actor isFormat request) rest unbracketed.2
      rw [← shape] at stops
      exact stops
  }

/-- What handling a request does, by how it is answered. -/
theorem postAcknowledge_cases (config : WriteConfig) (isFormat : Nat → Bool)
    (zbxWrite : List (List UInt16) → Nat → List UInt16 →
      Except String (Option (List (List UInt16)))) (request : AckRequest) :
    (∃ refusal, (postAcknowledge config isFormat zbxWrite request).1 = .refused refusal ∧
      ∀ effect ∈ (postAcknowledge config isFormat zbxWrite request).2, effect.acts = false) ∨
    ∃ ack, checkAck config request.body = .ok ack ∧
      (∀ refusal, (postAcknowledge config isFormat zbxWrite request).1 ≠ .refused refusal) ∧
      (postAcknowledge config isFormat zbxWrite request).2.filter AckEffect.sends =
        [.sent ack.eventids (ack.asked ||| ACTION_MESSAGE)
          (ackMessage (trailOf isFormat request).user ack.note)] := by
  unfold postAcknowledge
  cases checked : checkAck config request.body with
  | error refusal =>
      refine .inl ⟨refusal, rfl, fun effect member => ?_⟩
      rcases List.mem_cons.mp member with rfl | logged
      · rfl
      · rw [List.mem_singleton.mp logged]
        rfl
  | ok ack =>
      refine .inr ⟨ack, rfl, ?_⟩
      dsimp only
      cases zbxWrite ack.eventids (ack.asked ||| ACTION_MESSAGE)
          (ackMessage (trailOf isFormat request).user ack.note) with
      | error error => exact ⟨fun refusal => AckReply.noConfusion, rfl⟩
      | ok eventids => exact ⟨fun refusal => AckReply.noConfusion, rfl⟩

end Handler

/-- A write goes out only for an enabled portal and a valid body; it is one write, it names the
portal user and does what was asked for. A refused request touches nothing. -/
theorem postAcknowledge_attributed (config : WriteConfig) (isFormat : Nat → Bool)
    (zbxWrite : List (List UInt16) → Nat → List UInt16 →
      Except String (Option (List (List UInt16)))) (request : AckRequest) :
    (∀ eventids action message,
      .sent eventids action message ∈ (postAcknowledge config isFormat zbxWrite request).2 →
        Attributed config isFormat request eventids action message) ∧
    ((postAcknowledge config isFormat zbxWrite request).2.filter AckEffect.sends).length ≤ 1 ∧
    ∀ refusal, (postAcknowledge config isFormat zbxWrite request).1 = .refused refusal →
      ∀ effect ∈ (postAcknowledge config isFormat zbxWrite request).2, effect.acts = false := by
  rcases postAcknowledge_cases config isFormat zbxWrite request with
    ⟨refusal, -, idle⟩ | ⟨ack, checked, accepted, sends⟩
  · have empty : (postAcknowledge config isFormat zbxWrite request).2.filter AckEffect.sends = [] :=
      List.filter_eq_nil_iff.mpr fun effect member isSent =>
        absurd (AckEffect.acts_of_sends isSent) (by rw [idle effect member]; exact Bool.false_ne_true)
    refine ⟨fun eventids action message member => ?_, ?_, fun _ _ => idle⟩
    · exact absurd (idle _ member) (by simp [AckEffect.acts])
    · rw [empty]
      exact Nat.zero_le _
  · refine ⟨fun eventids action message member => ?_, ?_, fun refusal refused =>
      absurd refused (accepted refusal)⟩
    · have listed := List.mem_filter.mpr ⟨member, (rfl : AckEffect.sends _ = true)⟩
      rw [sends] at listed
      obtain ⟨rfl, rfl, rfl⟩ := AckEffect.sent.inj (List.mem_singleton.mp listed)
      exact attributed_of_checkAck isFormat checked
    · rw [sends]
      exact Nat.le_refl 1

end ZabbixPortal.Services
