import ZabbixPortal.Foundation.Text
import ZabbixPortal.Web.ParseMarkdown

/-! What the patterns of the lines read: where the marker of a line ends and its content begins. -/

set_option autoImplicit false

namespace ZabbixPortal.Web

open Foundation

/-! ## Tries -/

/-- The first entry of joined lists is in the first of them that has one. -/
theorem exists_of_head?_flatMap {α β : Type} {items : List α} {lists : α → List β} {first : β}
    (head : (items.flatMap lists).head? = some first) :
    ∃ front item back, items = front ++ item :: back ∧ (∀ other ∈ front, lists other = []) ∧
      (lists item).head? = some first := by
  induction items with
  | nil => cases head
  | cons item rest ih =>
      cases own : lists item with
      | nil =>
          rw [List.flatMap_cons, own, List.nil_append] at head
          obtain ⟨front, found, back, split, never, isFirst⟩ := ih head
          refine ⟨item :: front, found, back, by rw [split]; rfl, fun other member => ?_, isFirst⟩
          rcases List.mem_cons.mp member with same | later
          · rw [same, own]
          · exact never other later
      | cons entry more =>
          rw [List.flatMap_cons, own] at head
          exact ⟨[], item, rest, rfl, fun _ member => (List.not_mem_nil member).elim, by
            rw [own]
            exact head⟩

theorem head?_run_seq {first second : Pattern} {cursor final : Cursor}
    (head : ((Pattern.seq first second).run cursor).head? = some final) :
    ∃ middle ∈ first.run cursor, (second.run middle).head? = some final := by
  rw [Pattern.run_seq] at head
  obtain ⟨front, middle, back, split, _, later⟩ := exists_of_head?_flatMap head
  exact ⟨middle, by rw [split]; simp, later⟩

/-- What a repetition takes. -/
theorem of_mem_run_repeated {accepts : Char → Bool} {least : ℕ} {most : Option ℕ} {greedy : Bool}
    {cursor final : Cursor} (matched : final ∈ (Pattern.repeated accepts least most greedy).run cursor) :
    ∃ taken, cursor.rest = taken ++ final.rest ∧ (∀ c ∈ taken, accepts c = true) ∧
      least ≤ taken.length ∧ (∀ bound, most = some bound → taken.length ≤ bound) ∧
        final.groups = cursor.groups := by
  rw [Pattern.run_repeated] at matched
  obtain ⟨count, counted, rfl⟩ := List.mem_map.mp matched
  have within : least ≤ count ∧ count ≤ (cursor.rest.takeWhile accepts).length ∧
      ∀ bound, most = some bound → count ≤ bound := by
    unfold repetitions at counted
    cases most with
    | none => cases greedy <;> simp at counted <;> simp <;> omega
    | some bound => cases greedy <;> simp at counted <;> simp <;> omega
  obtain ⟨enough, available, bounded⟩ := within
  have long : count ≤ cursor.rest.length :=
    available.trans (List.takeWhile_prefix _).length_le
  refine ⟨cursor.rest.take count, (List.take_append_drop count cursor.rest).symm, ?_, ?_, ?_, rfl⟩
  · intro c member
    have leading : cursor.rest.take count <+: cursor.rest.takeWhile accepts :=
      List.prefix_of_prefix_length_le (List.take_prefix _ _) (List.takeWhile_prefix _)
        ((List.length_take_le _ _).trans available)
    exact List.mem_takeWhile_imp (leading.subset member)
  · rw [List.length_take_of_le long]
    exact enough
  · intro bound same
    rw [List.length_take_of_le long]
    exact bounded bound same

/-- What a group takes is captured. -/
theorem of_mem_run_group {index : ℕ} {body : Pattern} {cursor final : Cursor}
    (matched : final ∈ (Pattern.group index body).run cursor) :
    ∃ closed ∈ body.run cursor, final.rest = closed.rest ∧
      final.groups = (index, cursor.rest.take (cursor.rest.length - closed.rest.length)) ::
        closed.groups := by
  rw [Pattern.run_group] at matched
  obtain ⟨closed, member, rfl⟩ := List.mem_map.mp matched
  exact ⟨closed, member, rfl, rfl⟩

theorem of_mem_run_stop {cursor final : Cursor} (matched : final ∈ Pattern.stop.run cursor) :
    cursor.rest = [] ∧ final = cursor := by
  rw [Pattern.run_stop] at matched
  split at matched
  · next ended => exact ⟨List.isEmpty_iff.mp ended, List.mem_singleton.mp matched⟩
  · cases matched

/-- A captured repetition. -/
theorem of_mem_run_captured {index : ℕ} {accepts : Char → Bool} {least : ℕ} {most : Option ℕ}
    {greedy : Bool} {cursor final : Cursor}
    (matched : final ∈ (Pattern.group index (.repeated accepts least most greedy)).run cursor) :
    ∃ taken, cursor.rest = taken ++ final.rest ∧ (∀ c ∈ taken, accepts c = true) ∧
      least ≤ taken.length ∧ (∀ bound, most = some bound → taken.length ≤ bound) ∧
        final.groups = (index, taken) :: cursor.groups := by
  obtain ⟨closed, member, rest, groups⟩ := of_mem_run_group matched
  obtain ⟨taken, split, accepted, enough, bounded, same⟩ := of_mem_run_repeated member
  refine ⟨taken, by rw [split, rest], accepted, enough, bounded, ?_⟩
  have whole : cursor.rest.take (cursor.rest.length - closed.rest.length) = taken := by
    rw [split, List.length_append, Nat.add_sub_cancel, List.take_left]
  rw [groups, whole, same]

/-! ## Spaces -/

def AllSpace (s : List Char) : Prop := ∀ c ∈ s, isSpace c = true

theorem AllSpace.append {front back : List Char} (first : AllSpace front) (second : AllSpace back) :
    AllSpace (front ++ back) := by
  intro c member
  rcases List.mem_append.mp member with inFront | inBack
  · exact first c inFront
  · exact second c inBack

/-- A content: not empty, and no white space at its ends. -/
structure Kept (content : List Char) : Prop where
  filled : content ≠ []
  head : ∀ c, content.head? = some c → isSpace c = false
  last : ∀ c, content.getLast? = some c → isSpace c = false

/-- A text and its trimmed form. -/
theorem trim_split (s : List Char) :
    ∃ front back, s = front ++ trim s ++ back ∧ AllSpace front ∧ AllSpace back := by
  obtain ⟨back, rest, spaces⟩ := withoutEnds_append isSpace s
  refine ⟨s.takeWhile isSpace, back, ?_, fun c => List.mem_takeWhile_imp, spaces⟩
  have same : trim s = withoutEnds isSpace s := rfl
  rw [same, List.append_assoc, ← rest, List.takeWhile_append_dropWhile]

theorem kept_trim {s : List Char} (filled : trim s ≠ []) : Kept (trim s) :=
  ⟨filled, fun _ first => head?_withoutEnds first, fun _ last => getLast?_withoutEnds last⟩

theorem allSpace_of_trim {s : List Char} (empty : trim s = []) : AllSpace s := by
  obtain ⟨front, back, split, inFront, inBack⟩ := trim_split s
  rw [split, empty, List.append_nil]
  exact inFront.append inBack

/-- Where a text ends with a character that stays, so does its trimmed form. -/
theorem trim_ne_nil {s : List Char} {c : Char} (last : s.getLast? = some c)
    (kept : isSpace c = false) : trim s ≠ [] := by
  intro empty
  have space := allSpace_of_trim empty c (List.mem_of_getLast? last)
  rw [kept] at space
  cases space

theorem trimEnd_split (raw : List Char) :
    ∃ tail, raw = trimEnd raw ++ tail ∧ AllSpace tail := by
  refine ⟨(raw.reverse.takeWhile isSpace).reverse, ?_, fun c member =>
    List.mem_takeWhile_imp (List.mem_reverse.mp member)⟩
  rw [trimEnd, ← List.reverse_append, List.takeWhile_append_dropWhile, List.reverse_reverse]

theorem getLast?_trimEnd {raw : List Char} {c : Char} (last : (trimEnd raw).getLast? = some c) :
    isSpace c = false := by
  have kept := List.head?_dropWhile_not isSpace raw.reverse
  rw [trimEnd, List.getLast?_reverse] at last
  rw [last] at kept
  exact kept

/-- Text before a character that stays has one front of white space. -/
theorem takeWhile_spaces {front : List Char} {c : Char} (rest : List Char) (spaces : AllSpace front)
    (kept : isSpace c = false) : (front ++ c :: rest).takeWhile isSpace = front := by
  rw [List.takeWhile_append_of_pos spaces, List.takeWhile_cons_of_neg (by simp [kept]),
    List.append_nil]

/-! ## The three patterns -/

theorem UL_reads {line : List Char} {match' : Cursor} (matched : UL.exec line = some match') :
    ∃ lead mark gap, line = lead ++ mark :: gap ++ captured match' 1 ∧ AllSpace lead ∧
      mark ∈ ['-', '*', '•'] ∧ gap ≠ [] ∧ AllSpace gap := by
  obtain ⟨first, inLead, afterLead⟩ := head?_run_seq matched
  obtain ⟨second, inMark, afterMark⟩ := head?_run_seq afterLead
  obtain ⟨third, inGap, afterGap⟩ := head?_run_seq afterMark
  obtain ⟨fourth, inContent, atEnd⟩ := head?_run_seq afterGap
  obtain ⟨lead, leadSplit, leadSpaces, _, _, _⟩ := of_mem_run_repeated inLead
  obtain ⟨mark, more, shape, isMark, rfl⟩ := (mem_run_one _ _ _).mp inMark
  obtain ⟨gap, gapSplit, gapSpaces, enough, _, _⟩ := of_mem_run_repeated inGap
  obtain ⟨content, contentSplit, _, _, _, groups⟩ := of_mem_run_captured inContent
  obtain ⟨ended, rfl⟩ := of_mem_run_stop (List.mem_of_head? atEnd)
  have found : captured match' 1 = content := by simp [captured, Cursor.group?, groups]
  refine ⟨lead, mark, gap, ?_, leadSpaces, by simpa using isMark, ?_, gapSpaces⟩
  · rw [found]
    simp only [Cursor.atStart] at leadSplit
    rw [leadSplit, shape]
    simp only at gapSplit
    rw [gapSplit, contentSplit, ended]
    simp
  · intro empty
    rw [empty] at enough
    cases enough

theorem OL_reads {line : List Char} {match' : Cursor} (matched : OL.exec line = some match') :
    ∃ lead mark gap, line = lead ++ captured match' 1 ++ mark :: gap ++ captured match' 2 ∧
      AllSpace lead ∧ (∀ c ∈ captured match' 1, c.isDigit = true) ∧
      1 ≤ (captured match' 1).length ∧ (captured match' 1).length ≤ 3 ∧ mark ∈ ['.', ')'] ∧
      gap ≠ [] ∧ AllSpace gap := by
  obtain ⟨first, inLead, afterLead⟩ := head?_run_seq matched
  obtain ⟨second, inDigits, afterDigits⟩ := head?_run_seq afterLead
  obtain ⟨third, inMark, afterMark⟩ := head?_run_seq afterDigits
  obtain ⟨fourth, inGap, afterGap⟩ := head?_run_seq afterMark
  obtain ⟨fifth, inContent, atEnd⟩ := head?_run_seq afterGap
  obtain ⟨lead, leadSplit, leadSpaces, _, _, _⟩ := of_mem_run_repeated inLead
  obtain ⟨digits, digitSplit, areDigits, positive, atMost, digitGroups⟩ := of_mem_run_captured inDigits
  obtain ⟨mark, more, shape, isMark, rfl⟩ := (mem_run_one _ _ _).mp inMark
  obtain ⟨gap, gapSplit, gapSpaces, enough, _, gapGroups⟩ := of_mem_run_repeated inGap
  obtain ⟨content, contentSplit, _, _, _, groups⟩ := of_mem_run_captured inContent
  obtain ⟨ended, rfl⟩ := of_mem_run_stop (List.mem_of_head? atEnd)
  have number : captured match' 1 = digits := by
    simp [captured, Cursor.group?, groups, gapGroups, digitGroups]
  have found : captured match' 2 = content := by simp [captured, Cursor.group?, groups]
  rw [number, found]
  refine ⟨lead, mark, gap, ?_, leadSpaces, areDigits, positive, atMost 3 rfl, by simpa using isMark,
    ?_, gapSpaces⟩
  · simp only [Cursor.atStart] at leadSplit
    simp only at gapSplit
    rw [leadSplit, digitSplit, shape, gapSplit, contentSplit, ended]
    simp
  · intro empty
    rw [empty] at enough
    cases enough

/-- What may follow a heading: its closing signs, with white space around them. -/
def Closes (s : List Char) : Prop :=
  ∃ space closing tail, s = space ++ closing ++ tail ∧ AllSpace space ∧
    (∀ c ∈ closing, c = '#') ∧ AllSpace tail

theorem closes_of_run {cursor final : Cursor}
    (matched : final ∈ (Pattern.seq spaces (.seq (.repeated (fun c => c = '#') 0 none true)
      (.seq spaces .stop))).run cursor) :
    Closes cursor.rest ∧ final.groups = cursor.groups := by
  obtain ⟨first, inSpace, rest⟩ := (mem_run_seq _ _ _ _).mp matched
  obtain ⟨second, inClosing, rest⟩ := (mem_run_seq _ _ _ _).mp rest
  obtain ⟨third, inTail, rest⟩ := (mem_run_seq _ _ _ _).mp rest
  obtain ⟨space, spaceSplit, areSpaces, _, _, firstGroups⟩ := of_mem_run_repeated inSpace
  obtain ⟨closing, closingSplit, areSigns, _, _, secondGroups⟩ := of_mem_run_repeated inClosing
  obtain ⟨tail, tailSplit, tailSpaces, _, _, thirdGroups⟩ := of_mem_run_repeated inTail
  obtain ⟨ended, rfl⟩ := of_mem_run_stop rest
  refine ⟨⟨space, closing, tail, ?_, areSpaces, fun c member => by simpa using areSigns c member,
    tailSpaces⟩, by rw [thirdGroups, secondGroups, firstGroups]⟩
  rw [spaceSplit, closingSplit, tailSplit, ended]
  simp

theorem run_of_closes {cursor : Cursor} (closes : Closes cursor.rest) :
    ∃ final, final ∈ (Pattern.seq spaces (.seq (.repeated (fun c => c = '#') 0 none true)
      (.seq spaces .stop))).run cursor := by
  obtain ⟨before, rest, groups⟩ := cursor
  obtain ⟨space, closing, tail, split, areSpaces, areSigns, tailSpaces⟩ := closes
  simp only at split
  subst split
  obtain ⟨⟨_, _, _⟩, inSpace, same⟩ := exists_mem_run_repeated isSpace true space (closing ++ tail)
    before groups areSpaces
  simp only at same
  subst same
  obtain ⟨⟨_, last, _⟩, inClosing, same⟩ := exists_mem_run_repeated (fun c => decide (c = '#')) true
    closing tail _ _ fun c member => by simpa using areSigns c member
  simp only at same
  subst same
  obtain ⟨⟨end', _, kept⟩, inTail, same⟩ := exists_mem_run_repeated isSpace true last [] _ _ tailSpaces
  simp only at same
  subst same
  rw [List.append_assoc]
  rw [List.append_nil] at inTail
  refine ⟨⟨end', [], kept⟩, (mem_run_seq _ _ _ _).mpr ⟨_, inSpace, (mem_run_seq _ _ _ _).mpr ⟨_, inClosing,
    (mem_run_seq _ _ _ _).mpr ⟨_, inTail, ?_⟩⟩⟩⟩
  rw [Pattern.run_stop]
  exact List.mem_singleton_self _

/-- The counts of a lazy repetition go up from none. -/
theorem lazy_front {accepts : Char → Bool} {s : List Char} {front back : List ℕ} {count : ℕ}
    (split : repetitions accepts 0 none false s = front ++ count :: back) {fewer : ℕ}
    (less : fewer < count) : fewer ∈ front := by
  have counts : repetitions accepts 0 none false s =
      List.range ((s.takeWhile accepts).length + 1) := by
    simp [repetitions]
  rw [counts] at split
  have inside : count < (s.takeWhile accepts).length + 1 := by
    rw [← List.mem_range, split]
    simp
  have ordered := List.pairwise_lt_range (n := (s.takeWhile accepts).length + 1)
  have member : fewer ∈ front ++ count :: back := by
    rw [← split, List.mem_range]
    omega
  rw [split] at ordered
  rcases List.mem_append.mp member with inFront | later
  · exact inFront
  · rcases List.mem_cons.mp later with same | inBack
    · omega
    · have above := List.rel_of_pairwise_cons (List.pairwise_append.mp ordered).2.1 inBack
      omega

/-- A heading's content is the shortest that leaves only what may follow it. -/
theorem HEADING_reads {line : List Char} {match' : Cursor}
    (matched : HEADING.exec line = some match') :
    ∃ lead hashes gap closing, line = lead ++ hashes ++ gap ++ captured match' 1 ++ closing ∧
      AllSpace lead ∧ (∀ c ∈ hashes, c = '#') ∧ 1 ≤ hashes.length ∧ hashes.length ≤ 6 ∧
      gap ≠ [] ∧ AllSpace gap ∧ Closes closing ∧
      ∀ shorter more, captured match' 1 = shorter ++ more → more ≠ [] →
        ¬ Closes (more ++ closing) := by
  obtain ⟨first, inLead, afterLead⟩ := head?_run_seq matched
  obtain ⟨second, inHashes, afterHashes⟩ := head?_run_seq afterLead
  obtain ⟨third, inGap, afterGap⟩ := head?_run_seq afterHashes
  obtain ⟨lead, leadSplit, leadSpaces, _, _, _⟩ := of_mem_run_repeated inLead
  obtain ⟨hashes, hashSplit, areHashes, positive', atMost, _⟩ := of_mem_run_repeated inHashes
  obtain ⟨gap, gapSplit, gapSpaces, enough, _, _⟩ := of_mem_run_repeated inGap
  rw [Pattern.run_seq, Pattern.run_group, Pattern.run_repeated, List.flatMap_map,
    List.flatMap_map] at afterGap
  obtain ⟨front, count, back, split, failing, atEnd⟩ := exists_of_head?_flatMap afterGap
  have counted : count ≤ (third.rest.takeWhile isDot).length := by
    have inside : count ∈ repetitions isDot 0 none false third.rest := by
      rw [split]
      simp
    simpa [repetitions, Nat.lt_succ_iff] using inside
  have long : count ≤ third.rest.length := counted.trans (List.takeWhile_prefix _).length_le
  obtain ⟨closes, groups⟩ := closes_of_run (List.mem_of_head? atEnd)
  have content : captured match' 1 = third.rest.take count := by
    have length : third.rest.length - (third.rest.drop count).length = count := by
      rw [List.length_drop]
      omega
    rw [captured, Cursor.group?, groups]
    simp only [Cursor.capture, Cursor.advance, length]
    simp
  refine ⟨lead, hashes, gap, third.rest.drop count, ?_, leadSpaces,
    fun c member => by simpa using areHashes c member, positive', atMost 6 rfl, ?_, gapSpaces, closes, ?_⟩
  · simp only [Cursor.atStart] at leadSplit
    rw [content, leadSplit, hashSplit, gapSplit]
    simp
  · intro empty
    rw [empty] at enough
    cases enough
  · intro shorter more parts filled closesEarly
    have less : shorter.length < count := by
      have total := congrArg List.length (content.symm.trans parts)
      rw [List.length_take_of_le long, List.length_append] at total
      have positive := List.length_pos_iff.mpr filled
      omega
    have rest : third.rest.drop shorter.length = more ++ third.rest.drop count := by
      have whole : third.rest = shorter ++ (more ++ third.rest.drop count) := by
        rw [← List.append_assoc, ← parts, content, List.take_append_drop]
      have dropped := congrArg (List.drop shorter.length) whole
      rwa [List.drop_left] at dropped
    have failed := failing shorter.length (lazy_front split less)
    rw [← rest] at closesEarly
    obtain ⟨final, member⟩ :=
      @run_of_closes (third.capture (third.advance shorter.length) 1) closesEarly
    rw [failed] at member
    cases member

/-- No bullet is the first of two stars. -/
theorem not_bold_of_UL {line : List Char} {match' : Cursor} (matched : UL.exec line = some match') :
    BOLD_START.exec line = none := by
  obtain ⟨lead, mark, gap, split, leadSpaces, isMark, nonempty, gapSpaces⟩ := UL_reads matched
  rw [← Option.not_isSome_iff_eq_none, Option.isSome_iff_exists]
  rintro ⟨other, bold⟩
  obtain ⟨first, inLead, afterLead⟩ := head?_run_seq bold
  obtain ⟨second, inStar, atEnd⟩ := head?_run_seq afterLead
  obtain ⟨front, frontSplit, frontSpaces, _, _, _⟩ := of_mem_run_repeated inLead
  obtain ⟨star, more, shape, isStar, rfl⟩ := (mem_run_one _ _ _).mp inStar
  obtain ⟨next, rest, nextShape, isNext, _⟩ := (mem_run_one _ _ _).mp (List.mem_of_head? atEnd)
  have kept : isSpace mark = false := by
    simp only [List.mem_cons, List.not_mem_nil, or_false] at isMark
    rcases isMark with rfl | rfl | rfl <;> decide
  have starred : star = '*' := by simpa using isStar
  have second' : next = '*' := by simpa using isNext
  subst starred second'
  simp only at nextShape
  subst nextShape
  have whole : line = front ++ '*' :: '*' :: rest := by
    simp only [Cursor.atStart] at frontSplit
    rw [frontSplit, shape]
  have fronts := takeWhile_spaces (gap ++ captured match' 1) leadSpaces kept
  have others := takeWhile_spaces ('*' :: rest) frontSpaces (show isSpace '*' = false by decide)
  rw [← List.cons_append, ← List.append_assoc, ← split, whole] at fronts
  rw [others] at fronts
  rw [split, fronts, List.append_assoc] at whole
  obtain ⟨space, gap, rfl⟩ := List.exists_cons_of_ne_nil nonempty
  have parts := List.append_cancel_left whole
  simp only [List.cons_append, List.cons.injEq] at parts
  have space' := gapSpaces space List.mem_cons_self
  rw [parts.2.1] at space'
  cases space'

end ZabbixPortal.Web
