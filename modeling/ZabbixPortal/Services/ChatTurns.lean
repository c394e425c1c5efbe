import ZabbixPortal.Services.Acknowledge
import ZabbixPortal.Foundation.LongestSuffix
import Mathlib.Algebra.GroupWithZero.Nat

/-! The turns of a conversation that a chat request carries, as far as the model is shown them. -/

set_option autoImplicit false

namespace ZabbixPortal.Services

open Foundation
open Export (units)

def MAX_TURN_CHARS : Nat := 2000

def HISTORY_CHAR_BUDGET : Nat := 3000

inductive ChatRole
  | user
  | assistant
deriving DecidableEq, Repr

structure ChatTurn where
  role : ChatRole
  content : List UInt16
deriving DecidableEq, Repr

def chatRole? : Option Json → Option ChatRole
  | some (.text role) =>
      if role = units "user" then some .user
      else if role = units "assistant" then some .assistant
      else none
  | _ => none

def messageOf (m : Json) : Option (ChatRole × List UInt16) :=
  match chatRole? (m.field? "role"), m.field? "content" with
  | some role, some (.text content) => some (role, content)
  | _, _ => none

def turnOf (message : ChatRole × List UInt16) : Option ChatTurn :=
  let text := trimUnits message.2
  if text = [] then none else some ⟨message.1, text.take MAX_TURN_CHARS⟩

def turnsOf : List Json → Option (List ChatTurn)
  | [] => some []
  | m :: rest =>
      match messageOf m with
      | none => none
      | some message => (turnsOf rest).map fun later => (turnOf message).toList ++ later

def keepBack : List ChatTurn → Nat → List ChatTurn → List ChatTurn
  | [], _, kept => kept
  | turn :: earlier, chars, kept =>
      let chars := chars + turn.content.length
      if kept ≠ [] ∧ chars > HISTORY_CHAR_BUDGET then kept else keepBack earlier chars (turn :: kept)

/-- `while (kept.length > 1 && kept[0].role !== 'user') kept.shift()` -/
def shiftToUser : List ChatTurn → List ChatTurn
  | turn :: next :: rest =>
      if turn.role ≠ .user then shiftToUser (next :: rest) else turn :: next :: rest
  | kept => kept

/-- `body.messages`, where it is a list that is not empty. -/
def messagesOf (body : Option Json) : Option (List Json) :=
  match ackField body "messages" with
  | some (.array raw) => if raw = [] then none else some raw
  | _ => none

def parseTurns (body : Option Json) : Option (List ChatTurn) :=
  match messagesOf body with
  | none => none
  | some raw =>
      match turnsOf raw with
      | none => none
      | some turns =>
          if (turns.getLast?.map ChatTurn.role) ≠ some .user then none
          else some (shiftToUser (keepBack turns.reverse 0 []))

/-! The conversation the model is shown is the longest end of the turns that opens with the user and is
within the budget. -/

open Export (units)

def lengthOf (turns : List ChatTurn) : Nat := (turns.map fun turn => turn.content.length).sum

def WithinBudget (turns : List ChatTurn) : Prop := lengthOf turns ≤ HISTORY_CHAR_BUDGET

def OpensWithUser (turns : List ChatTurn) : Prop := ∃ turn, turns.head? = some turn ∧ turn.role = .user

theorem lengthOf_cons (turn : ChatTurn) (turns : List ChatTurn) :
    lengthOf (turn :: turns) = turn.content.length + lengthOf turns := List.sum_cons

theorem lengthOf_append (left right : List ChatTurn) :
    lengthOf (left ++ right) = lengthOf left + lengthOf right := by
  unfold lengthOf
  rw [List.map_append, List.sum_append]

theorem WithinBudget.of_isSuffix (shorter longer : List ChatTurn) (isEnd : shorter <:+ longer)
    (within : WithinBudget longer) : WithinBudget shorter := by
  obtain ⟨front, rfl⟩ := isEnd
  unfold WithinBudget at within ⊢
  rw [lengthOf_append] at within
  omega

/-- The loop back from the last turn keeps the longest end within the budget. -/
theorem keepBack_longest (front kept : List ChatTurn) (nonempty : kept ≠ []) (within : WithinBudget kept) :
    IsLongestSuffix WithinBudget (front ++ kept) (keepBack front.reverse (lengthOf kept) kept) := by
  induction front using List.reverseRecOn generalizing kept with
  | nil => exact .whole_of_holds within
  | append_singleton earlier turn ih =>
      rw [List.reverse_concat, keepBack, List.append_assoc, List.singleton_append]
      have length : lengthOf kept + turn.content.length = lengthOf (turn :: kept) := by
        rw [lengthOf_cons, Nat.add_comm]
      simp only [length]
      by_cases fits : lengthOf (turn :: kept) ≤ HISTORY_CHAR_BUDGET
      · rw [if_neg fun both => Nat.not_lt_of_le fits both.2]
        exact ih (turn :: kept) (List.cons_ne_nil turn kept) fits
      · rw [if_pos ⟨nonempty, Nat.lt_of_not_le fits⟩]
        exact .of_maximal WithinBudget.of_isSuffix (List.suffix_append earlier (turn :: kept)) within fits

/-- Dropping turns before the first of the user's leaves the longest end that opens with the user. -/
theorem shiftToUser_longest {kept : List ChatTurn} {last : ChatTurn} (ends : kept.getLast? = some last)
    (user : last.role = .user) :
    IsLongestSuffix OpensWithUser kept (shiftToUser kept) ∧ shiftToUser kept ≠ [] := by
  induction kept with
  | nil => cases ends
  | cons turn rest ih =>
      cases rest with
      | nil =>
          cases ends
          exact ⟨.whole_of_holds ⟨turn, rfl, user⟩, List.cons_ne_nil turn []⟩
      | cons next rest =>
          rw [shiftToUser]
          by_cases own : turn.role = .user
          · rw [if_neg fun other => other own]
            exact ⟨.whole_of_holds ⟨turn, rfl, own⟩, List.cons_ne_nil turn _⟩
          · rw [if_pos own]
            rw [List.getLast?_cons_cons] at ends
            obtain ⟨longest, nonempty⟩ := ih ends
            refine ⟨.cons ?_ longest, nonempty⟩
            intro opens
            obtain ⟨first, isFirst, isUser⟩ := opens
            cases isFirst
            exact own isUser

theorem length_turnOf_le {message : ChatRole × List UInt16} {turn : ChatTurn}
    (found : turnOf message = some turn) : turn.content.length ≤ MAX_TURN_CHARS := by
  unfold turnOf at found
  dsimp only at found
  split at found
  · cases found
  · cases found
    exact List.length_take_le MAX_TURN_CHARS _

/-- The turns of messages that all have a role and a content. -/
theorem turnsOf_eq (raw : List Json) : turnsOf raw =
    if ∀ m ∈ raw, (messageOf m).isSome then some ((raw.filterMap messageOf).filterMap turnOf) else none := by
  induction raw with
  | nil => rfl
  | cons m rest ih =>
      rw [turnsOf]
      cases said : messageOf m with
      | none => simp [said]
      | some message =>
          simp only [ih, List.forall_mem_cons, said, Option.isSome_some, true_and]
          split
          · rw [Option.map_some, List.filterMap_cons_some said, List.filterMap_cons]
            cases turnOf message <;> rfl
          · rfl

def bodyTurns (body : Option Json) : List ChatTurn :=
  (((messagesOf body).getD []).filterMap messageOf).filterMap turnOf

/-- A body that can be answered: a list of messages with a role and a content each, the last of which
that is not blank is the user's. -/
def Answerable (body : Option Json) : Prop :=
  ∃ raw, messagesOf body = some raw ∧ (∀ m ∈ raw, (messageOf m).isSome) ∧
    ∃ last, (bodyTurns body).getLast? = some last ∧ last.role = .user

structure KeepsConversation (body : Option Json) (kept : List ChatTurn) : Prop where
  longest : IsLongestSuffix (fun turns => WithinBudget turns ∧ OpensWithUser turns) (bodyTurns body) kept
  nonempty : kept ≠ []
  last : ∃ last, kept.getLast? = some last ∧ last.role = .user ∧ (bodyTurns body).getLast? = some last

theorem getLast?_of_isSuffix {turns kept : List ChatTurn} (isEnd : kept <:+ turns) (nonempty : kept ≠ []) :
    kept.getLast? = turns.getLast? := by
  obtain ⟨front, rfl⟩ := isEnd
  rw [List.getLast?_append_of_ne_nil front nonempty]

theorem kept_of_turns {turns : List ChatTurn} {last : ChatTurn} (ends : turns.getLast? = some last)
    (user : last.role = .user) (short : last.content.length ≤ MAX_TURN_CHARS) :
    IsLongestSuffix (fun turns => WithinBudget turns ∧ OpensWithUser turns) turns
        (shiftToUser (keepBack turns.reverse 0 [])) ∧
      shiftToUser (keepBack turns.reverse 0 []) ≠ [] := by
  obtain ⟨front, rfl⟩ := List.getLast?_eq_some_iff.mp ends
  have one : lengthOf [last] = last.content.length := Nat.add_zero _
  have first : keepBack (front ++ [last]).reverse 0 [] = keepBack front.reverse (lengthOf [last]) [last] := by
    rw [List.reverse_concat, keepBack, if_neg fun both => both.1 rfl, one, Nat.zero_add]
  have within : WithinBudget [last] := by
    have most : MAX_TURN_CHARS ≤ HISTORY_CHAR_BUDGET := by decide
    unfold WithinBudget
    omega
  have longest := keepBack_longest front [last] (List.cons_ne_nil last []) within
  rw [← first] at longest
  have nonempty : keepBack (front ++ [last]).reverse 0 [] ≠ [] := by
    intro empty
    have more := longest.length_le (List.suffix_append front [last]) within
    rw [empty] at more
    exact absurd more (by simp)
  have sameLast := (getLast?_of_isSuffix longest.suffix nonempty).trans ends
  obtain ⟨opening, filled⟩ := shiftToUser_longest sameLast user
  exact ⟨longest.within WithinBudget.of_isSuffix opening, filled⟩

theorem bodyTurns_eq {body : Option Json} {raw : List Json} (listed : messagesOf body = some raw) :
    bodyTurns body = (raw.filterMap messageOf).filterMap turnOf := by
  unfold bodyTurns
  rw [listed, Option.getD_some]

theorem parseTurns_of_answerable {body : Option Json} (answerable : Answerable body) :
    parseTurns body = some (shiftToUser (keepBack (bodyTurns body).reverse 0 [])) := by
  obtain ⟨raw, listed, whole, last, ends, user⟩ := answerable
  have turns := turnsOf_eq raw
  rw [if_pos whole, ← bodyTurns_eq listed] at turns
  have asked : (bodyTurns body).getLast?.map ChatTurn.role = some .user := by
    rw [ends, Option.map_some, user]
  unfold parseTurns
  simp only [listed, turns]
  exact if_neg fun other => other asked

theorem answerable_of_parseTurns {body : Option Json} {kept : List ChatTurn}
    (found : parseTurns body = some kept) : Answerable body := by
  unfold parseTurns at found
  cases listed : messagesOf body with
  | none => simp only [listed, reduceCtorEq] at found
  | some raw =>
      have turns := turnsOf_eq raw
      by_cases whole : ∀ m ∈ raw, (messageOf m).isSome
      · rw [if_pos whole, ← bodyTurns_eq listed] at turns
        simp only [listed, turns] at found
        split at found
        · cases found
        · next asked =>
            obtain ⟨last, ends, user⟩ := Option.map_eq_some_iff.mp (not_not.mp asked)
            exact ⟨raw, listed, whole, last, ends, user⟩
      · rw [if_neg whole] at turns
        simp only [listed, turns, reduceCtorEq] at found

/-- The conversation that is kept is the longest end of the turns within the budget that opens with the
user, and there is one exactly when the body can be answered. -/
theorem parseTurns_keepsConversation (body : Option Json) :
    (∀ kept, parseTurns body = some kept → KeepsConversation body kept) ∧
      (parseTurns body = none ↔ ¬ Answerable body) := by
  constructor
  · intro kept found
    obtain ⟨raw, listed, _, last, ends, user⟩ := answerable_of_parseTurns found
    have short : last.content.length ≤ MAX_TURN_CHARS := by
      have member := List.mem_of_getLast? ends
      rw [bodyTurns_eq listed] at member
      obtain ⟨message, _, isTurn⟩ := List.mem_filterMap.mp member
      exact length_turnOf_le isTurn
    obtain ⟨longest, nonempty⟩ := kept_of_turns ends user short
    cases (parseTurns_of_answerable (answerable_of_parseTurns found)).symm.trans found
    exact ⟨longest, nonempty, last, (getLast?_of_isSuffix longest.suffix nonempty).trans ends, user, ends⟩
  · constructor
    · intro absent answerable
      cases absent.symm.trans (parseTurns_of_answerable answerable)
    · intro not
      cases found : parseTurns body with
      | none => rfl
      | some kept => exact absurd (answerable_of_parseTurns found) not

def messageJson (role content : String) : Json :=
  .object [("role", .text (units role)), ("content", .text (units content))]

/-- The answer that comes first and the blank turn are left out. -/
theorem parseTurns_keepsConversation_opening :
    KeepsConversation (some (.object [("messages", .array [messageJson "assistant" "Ready.",
        messageJson "user" " Any site down? ", messageJson "user" " "])]))
      [⟨.user, units "Any site down?"⟩] :=
  (parseTurns_keepsConversation _).1 _ (by decide)

end ZabbixPortal.Services
