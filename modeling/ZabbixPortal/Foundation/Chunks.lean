import Mathlib.Data.List.Basic

/-! Input that arrives in pieces: machines fed piece by piece, lines whose end is still to come,
and readings that stop at some item. -/

set_option autoImplicit false

namespace ZabbixPortal.Foundation

section Machines

variable {State Item Output : Type}

/-- A machine over a list of items: its last state and all it puts out. -/
def feed (step : State → Item → State × List Output) : State → List Item → State × List Output
  | state, [] => (state, [])
  | state, item :: rest =>
      let next := step state item
      let more := feed step next.1 rest
      (more.1, next.2 ++ more.2)

/-- Where the items are cut does not matter. -/
theorem feed_append (step : State → Item → State × List Output) (state : State)
    (items more : List Item) :
    feed step state (items ++ more) =
      ((feed step (feed step state items).1 more).1,
        (feed step state items).2 ++ (feed step (feed step state items).1 more).2) := by
  induction items generalizing state with
  | nil => rfl
  | cons item rest ih =>
      rw [List.cons_append, feed, ih]
      simp only [feed, List.append_assoc]

end Machines

section Lines

variable {α : Type} [DecidableEq α]

def wholeLines (mark : α) (text : List α) : List (List α) := (text.splitOn mark).dropLast

def lastLine (mark : α) (text : List α) : List α := ((text.splitOn mark).getLast?).getD []

theorem splitOn_eq (mark : α) (text : List α) :
    text.splitOn mark = wholeLines mark text ++ [lastLine mark text] := by
  have nonempty := List.splitOn_ne_nil mark text
  rw [wholeLines, lastLine, List.getLast?_eq_some_getLast nonempty, Option.getD_some,
    List.dropLast_concat_getLast]

theorem wholeLines_of_not_mem {mark : α} {text : List α} (plain : mark ∉ text) :
    wholeLines mark text = [] := by
  rw [wholeLines, List.splitOn_eq_singleton plain]
  rfl

theorem lastLine_of_not_mem {mark : α} {text : List α} (plain : mark ∉ text) :
    lastLine mark text = text := by
  rw [lastLine, List.splitOn_eq_singleton plain]
  rfl

theorem wholeLines_cons {mark : α} {line : List α} (plain : mark ∉ line) (rest : List α) :
    wholeLines mark (line ++ mark :: rest) = line :: wholeLines mark rest := by
  rw [wholeLines, List.splitOn_append_cons_self_of_not_mem plain,
    List.dropLast_cons_of_ne_nil (List.splitOn_ne_nil mark rest), wholeLines]

theorem lastLine_cons {mark : α} {line : List α} (plain : mark ∉ line) (rest : List α) :
    lastLine mark (line ++ mark :: rest) = lastLine mark rest := by
  rw [lastLine, List.splitOn_append_cons_self_of_not_mem plain, lastLine, splitOn_eq mark rest,
    ← List.cons_append, List.getLast?_concat, List.getLast?_concat]

/-- A text is its whole lines, each with its mark, and the last one. -/
theorem lines_induction (mark : α) {holds : List α → Prop}
    (last : ∀ text, mark ∉ text → holds text)
    (line : ∀ line rest, mark ∉ line → holds rest → holds (line ++ mark :: rest))
    (text : List α) : holds text := by
  by_cases inside : mark ∈ text
  · obtain ⟨first, rest, whole, plain⟩ := List.eq_append_cons_of_mem inside
    have shorter : rest.length < text.length := by
      rw [whole, List.length_append, List.length_cons]
      omega
    rw [whole]
    exact line first rest plain (lines_induction mark last line rest)
  · exact last text inside
termination_by text.length

theorem wholeLines_append (mark : α) (text more : List α) :
    wholeLines mark (text ++ more) =
      wholeLines mark text ++ wholeLines mark (lastLine mark text ++ more) := by
  induction text using lines_induction mark with
  | last text plain => rw [wholeLines_of_not_mem plain, lastLine_of_not_mem plain, List.nil_append]
  | line line rest plain ih =>
      rw [List.append_assoc, List.cons_append, wholeLines_cons plain, wholeLines_cons plain,
        lastLine_cons plain, ih, List.cons_append]

theorem lastLine_append (mark : α) (text more : List α) :
    lastLine mark (text ++ more) = lastLine mark (lastLine mark text ++ more) := by
  induction text using lines_induction mark with
  | last text plain => rw [lastLine_of_not_mem plain]
  | line line rest plain ih =>
      rw [List.append_assoc, List.cons_append, lastLine_cons plain, lastLine_cons plain, ih]

theorem not_mem_lastLine (mark : α) (text : List α) : mark ∉ lastLine mark text := by
  induction text using lines_induction mark with
  | last text plain => rwa [lastLine_of_not_mem plain]
  | line line rest plain ih => rwa [lastLine_cons plain]

theorem splitOn_append (mark : α) (text more : List α) :
    (text ++ more).splitOn mark =
      wholeLines mark text ++ (lastLine mark text ++ more).splitOn mark := by
  rw [splitOn_eq mark (text ++ more), wholeLines_append, lastLine_append, List.append_assoc,
    ← splitOn_eq]

end Lines

section Readings

variable {α Output Stop : Type}

/-- What a reading puts out, and what ended it, if anything did. -/
structure Reading (Output Stop : Type) where
  out : List Output
  stop : Option Stop

def Reading.none : Reading Output Stop := ⟨[], Option.none⟩

def Reading.andThen (first next : Reading Output Stop) : Reading Output Stop :=
  match first.stop with
  | some stop => ⟨first.out, some stop⟩
  | .none => ⟨first.out ++ next.out, next.stop⟩

theorem Reading.andThen_of_stop {first : Reading Output Stop} {stop : Stop}
    (stopped : first.stop = some stop) (next : Reading Output Stop) : first.andThen next = first := by
  rw [andThen, stopped]
  cases first
  cases stopped
  rfl

theorem Reading.andThen_of_none {first : Reading Output Stop} (running : first.stop = .none)
    (next : Reading Output Stop) : first.andThen next = ⟨first.out ++ next.out, next.stop⟩ := by
  rw [andThen, running]

theorem Reading.andThen_assoc (first second third : Reading Output Stop) :
    (first.andThen second).andThen third = first.andThen (second.andThen third) := by
  cases running : first.stop with
  | some stop => rw [andThen_of_stop running, andThen_of_stop running, andThen_of_stop running]
  | none =>
      rw [andThen_of_none running, andThen_of_none running]
      cases runningNext : second.stop with
      | some stop => simp only [andThen, runningNext]
      | none => simp only [andThen, runningNext, List.append_assoc]

def readItems (read : α → Reading Output Stop) : List α → Reading Output Stop
  | [] => .none
  | item :: rest => (read item).andThen (readItems read rest)

theorem readItems_append (read : α → Reading Output Stop) (items more : List α) :
    readItems read (items ++ more) = (readItems read items).andThen (readItems read more) := by
  induction items with
  | nil => rfl
  | cons item rest ih => rw [List.cons_append, readItems, readItems, ih, Reading.andThen_assoc]

/-- Nothing behind the item that ends a reading is read. -/
theorem readItems_of_stop {read : α → Reading Output Stop} {item : α} {stop : Stop}
    (stopped : (read item).stop = some stop) (before after : List α) :
    readItems read (before ++ item :: after) = readItems read (before ++ [item]) := by
  rw [readItems_append, readItems_append, readItems, readItems, Reading.andThen_of_stop stopped,
    Reading.andThen_of_stop stopped]

/-- A reading that ends, ends at an item. -/
theorem exists_of_stop {read : α → Reading Output Stop} {items : List α} {stop : Stop}
    (stopped : (readItems read items).stop = some stop) :
    ∃ item ∈ items, (read item).stop = some stop := by
  induction items with
  | nil => cases stopped
  | cons item rest ih =>
      rw [readItems] at stopped
      cases running : (read item).stop with
      | some other =>
          rw [Reading.andThen_of_stop running, running] at stopped
          exact ⟨item, List.mem_cons_self, running.trans stopped⟩
      | none =>
          rw [Reading.andThen_of_none running] at stopped
          obtain ⟨found, member, isStop⟩ := ih stopped
          exact ⟨found, .tail _ member, isStop⟩

theorem stop_ne_none (read : α → Reading Output Stop) {items : List α} {item : α}
    (member : item ∈ items) (stopped : (read item).stop ≠ .none) :
    (readItems read items).stop ≠ .none := by
  induction items with
  | nil => cases member
  | cons first rest ih =>
      rw [readItems]
      cases running : (read first).stop with
      | some other =>
          rw [Reading.andThen_of_stop running, running]
          exact Option.some_ne_none other
      | none =>
          rw [Reading.andThen_of_none running]
          cases member with
          | head => exact absurd running stopped
          | tail _ later => exact ih later

end Readings

end ZabbixPortal.Foundation
