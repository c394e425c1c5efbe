import ZabbixPortal.Clients.ModelStreams

/-! A model's stream reads the same however it is cut. -/

set_option autoImplicit false

namespace ZabbixPortal.Clients

open Foundation
open Export (units)
open Services (Json trimUnits isSpaceUnit)

section Ollama

variable {parse : List UInt16 → Option Json} {model : List UInt16}

def linesOf (bytes : Buffer) : List (List UInt16) := (TextDecoder.textOf bytes).splitOn NEWLINE

theorem readOllamaFrom_eq (decoder : TextDecoder) (buf : List UInt16) (body : List Buffer) :
    readOllamaFrom parse model decoder buf body =
      (readItems (ollamaLine parse model) ((buf ++ ((decoder.decode body.flatten).2 ++
        (decoder.decode body.flatten).1.flush)).splitOn NEWLINE)).andThen
          ⟨[], some (stoppedError model)⟩ := by
  induction body generalizing decoder buf with
  | nil => rfl
  | cons value rest ih =>
      obtain ⟨later, laterIs⟩ : ∃ later, later =
          ((decoder.decode value).1.decode rest.flatten).2 ++
            ((decoder.decode value).1.decode rest.flatten).1.flush := ⟨_, rfl⟩
      have whole : (decoder.decode (value :: rest).flatten).2 ++
          (decoder.decode (value :: rest).flatten).1.flush = (decoder.decode value).2 ++ later := by
        rw [List.flatten_cons, TextDecoder.decode_append, laterIs, List.append_assoc]
      rw [whole, ← List.append_assoc, splitOn_append, readItems_append, Reading.andThen_assoc, laterIs,
        ← ih]
      rfl

theorem readOllamaStream_eq (body : List Buffer) :
    readOllamaStream parse model body =
      (readItems (ollamaLine parse model) (linesOf body.flatten)).andThen
        ⟨[], some (stoppedError model)⟩ := by
  rw [readOllamaStream, readOllamaFrom_eq, List.nil_append]
  rfl

/-- A line of a sound stream: empty, no JSON at all, or a JSON object. -/
def IsSound (parse : List UInt16 → Option Json) (raw : List UInt16) : Prop :=
  trimUnits raw = [] ∨ parse raw = none ∨ ∃ fields, parse raw = some (.object fields)

def IsError (parse : List UInt16 → Option Json) (raw : List UInt16) : Prop :=
  trimUnits raw ≠ [] ∧ ∃ line error, parse raw = some line ∧ errorOf line = some error

/-- A `done` line, which carries no error. -/
def IsDone (parse : List UInt16 → Option Json) (raw : List UInt16) : Prop :=
  trimUnits raw ≠ [] ∧ ∃ line, parse raw = some line ∧ errorOf line = none ∧ isDone line = true

/-- What a line of a sound stream ends, it ends as a done line or with its error. -/
theorem stop_ollamaLine {raw : List UInt16} (sound : IsSound parse raw) {stop : StreamEnd}
    (stopped : (ollamaLine parse model raw).stop = some stop) :
    (∃ line, stop = .returned line ∧ IsDone parse raw) ∨ ∃ error, stop = .upstream error := by
  unfold ollamaLine at stopped
  split at stopped
  · cases stopped
  · next nonempty =>
      split at stopped
      · cases stopped
      · next isNull =>
          obtain blank | isNone | ⟨fields, isObject⟩ := sound
          · exact absurd blank nonempty
          · rw [isNone] at isNull
            cases isNull
          · rw [isObject] at isNull
            cases isNull
      · next line _ parsed =>
          split at stopped
          · cases stopped
            exact .inr ⟨_, rfl⟩
          · next noError =>
              simp only at stopped
              split at stopped
              · next done =>
                  cases stopped
                  exact .inl ⟨_, rfl, nonempty, line, parsed, noError, done⟩
              · cases stopped

theorem stop_of_error (model : List UInt16) {raw : List UInt16} (isError : IsError parse raw) :
    ∃ error, (ollamaLine parse model raw).stop = some (.upstream error) := by
  obtain ⟨nonempty, line, error, parsed, carries⟩ := isError
  have notNull : line ≠ .null := by
    rintro rfl
    cases carries
  rw [ollamaLine, if_neg nonempty, parsed]
  cases line with
  | null => exact absurd rfl notNull
  | _ => exact ⟨_, by simp only [carries]; rfl⟩

theorem stop_of_done (model : List UInt16) {raw : List UInt16} (done : IsDone parse raw) :
    ∃ line, (ollamaLine parse model raw).stop = some (.returned (some line)) := by
  obtain ⟨nonempty, line, parsed, noError, isDone⟩ := done
  have notNull : line ≠ .null := by
    rintro rfl
    cases isDone
  rw [ollamaLine, if_neg nonempty, parsed]
  cases line with
  | null => exact absurd rfl notNull
  | _ => exact ⟨_, by simp only [noError, isDone]; rfl⟩

/-- Sound lines none of which is a done line. -/
theorem stop_without_done (model : List UInt16) {lines : List (List UInt16)} (sound : ∀ raw ∈ lines, IsSound parse raw)
    (notDone : ∀ raw ∈ lines, ¬ IsDone parse raw) :
    (readItems (ollamaLine parse model) lines).stop = none ∨
      ∃ error, (readItems (ollamaLine parse model) lines).stop = some (.upstream error) := by
  cases stopped : (readItems (ollamaLine parse model) lines).stop with
  | none => exact .inl rfl
  | some stop =>
      obtain ⟨raw, member, ends⟩ := exists_of_stop stopped
      obtain ⟨_, _, done⟩ | ⟨error, rfl⟩ := stop_ollamaLine (sound raw member) ends
      · exact absurd done (notDone raw member)
      · exact .inr ⟨error, rfl⟩

section Streams

variable {body : List Buffer}

theorem stop_readOllamaStream (sound : ∀ raw ∈ linesOf body.flatten, IsSound parse raw) :
    (∃ line, (readOllamaStream parse model body).stop = some (.returned line)) ∨
      ∃ error, (readOllamaStream parse model body).stop = some (.upstream error) := by
  rw [readOllamaStream_eq]
  cases stopped : (readItems (ollamaLine parse model) (linesOf body.flatten)).stop with
  | none =>
      rw [Reading.andThen_of_none stopped]
      exact .inr ⟨_, rfl⟩
  | some stop =>
      rw [Reading.andThen_of_stop stopped, stopped]
      obtain ⟨raw, member, ends⟩ := exists_of_stop stopped
      obtain ⟨line, rfl, _⟩ | ⟨error, rfl⟩ := stop_ollamaLine (sound raw member) ends
      · exact .inl ⟨line, rfl⟩
      · exact .inr ⟨error, rfl⟩

theorem upstream_without_done (sound : ∀ raw ∈ linesOf body.flatten, IsSound parse raw)
    (notDone : ∀ raw ∈ linesOf body.flatten, ¬ IsDone parse raw) :
    ∃ error, (readOllamaStream parse model body).stop = some (.upstream error) := by
  rw [readOllamaStream_eq]
  obtain running | ⟨error, stopped⟩ := stop_without_done model sound notDone
  · rw [Reading.andThen_of_none running]
    exact ⟨_, rfl⟩
  · rw [Reading.andThen_of_stop stopped]
    exact ⟨error, stopped⟩

theorem upstream_of_error (sound : ∀ raw ∈ linesOf body.flatten, IsSound parse raw)
    {before after : List (List UInt16)} {raw : List UInt16}
    (lines : linesOf body.flatten = before ++ raw :: after) (isError : IsError parse raw)
    (notDone : ∀ earlier ∈ before, ¬ IsDone parse earlier) :
    ∃ error, (readOllamaStream parse model body).stop = some (.upstream error) := by
  have soundBefore : ∀ earlier ∈ before, IsSound parse earlier := fun earlier member =>
    sound earlier (by rw [lines]; exact List.mem_append_left _ member)
  obtain ⟨error, stopped⟩ := stop_of_error model isError
  rw [readOllamaStream_eq, lines, readItems_append, Reading.andThen_assoc]
  obtain running | ⟨earlier, ended⟩ := stop_without_done model soundBefore notDone
  · rw [Reading.andThen_of_none running, readItems, Reading.andThen_of_stop stopped,
      Reading.andThen_of_stop stopped]
    exact ⟨error, stopped⟩
  · rw [Reading.andThen_of_stop ended]
    exact ⟨earlier, ended⟩

theorem out_of_done {before after : List (List UInt16)} {raw : List UInt16}
    (lines : linesOf body.flatten = before ++ raw :: after) (done : IsDone parse raw) :
    (readOllamaStream parse model body).out =
      (readItems (ollamaLine parse model) (before ++ [raw])).out := by
  obtain ⟨line, stopped⟩ := stop_of_done model done
  rw [readOllamaStream_eq, lines, readItems_of_stop stopped]
  have ended := stop_ne_none (ollamaLine parse model)
    (List.mem_append_right before (List.mem_singleton_self raw)) (by rw [stopped]; exact Option.some_ne_none _)
  obtain ⟨stop, isStop⟩ := Option.ne_none_iff_exists'.mp ended
  rw [Reading.andThen_of_stop isStop]

end Streams

end Ollama

section OpenAi

variable {parse : List UInt16 → Option Json}

theorem readFrames_of_plain {buf : List UInt16} (plain : NEWLINE ∉ buf) :
    readFrames parse buf = (.none, buf) := by
  rw [readFrames, if_neg plain]

theorem readFrames_cons {line : List UInt16} (plain : NEWLINE ∉ line) (rest : List UInt16) :
    readFrames parse (line ++ NEWLINE :: rest) =
      match (openAiLine parse line).stop with
      | some _ => (openAiLine parse line, rest)
      | none => ((openAiLine parse line).andThen (readFrames parse rest).1, (readFrames parse rest).2) := by
  have inside : NEWLINE ∈ line ++ NEWLINE :: rest := List.mem_append_right _ List.mem_cons_self
  have notEnd : ∀ u ∈ line, decide (u ≠ NEWLINE) = true := by
    intro u member
    exact decide_eq_true fun same => plain (same ▸ member)
  have first : (line ++ NEWLINE :: rest).takeWhile (· ≠ NEWLINE) = line := by
    rw [List.takeWhile_append_of_pos notEnd, List.takeWhile_cons_of_neg (by decide),
      List.append_nil]
  have left : (line ++ NEWLINE :: rest).drop (line.length + 1) = rest := by
    rw [← List.drop_drop, List.drop_left]
    rfl
  rw [readFrames, if_pos inside]
  cases stopped : (openAiLine parse line).stop with
  | some stop => simp only [first, left, stopped]
  | none => simp only [first, left, stopped]

/-- The loop over a buffer reads its whole lines, and leaves the last one. -/
theorem readFrames_eq (parse : List UInt16 → Option Json) (buf : List UInt16) :
    (readFrames parse buf).1 = readItems (openAiLine parse) (wholeLines NEWLINE buf) ∧
      ((readFrames parse buf).1.stop = none → (readFrames parse buf).2 = lastLine NEWLINE buf) := by
  induction buf using lines_induction NEWLINE with
  | last text plain =>
      rw [readFrames_of_plain plain, wholeLines_of_not_mem plain, lastLine_of_not_mem plain]
      exact ⟨rfl, fun _ => rfl⟩
  | line line rest plain ih =>
      rw [readFrames_cons plain, wholeLines_cons plain, lastLine_cons plain, readItems]
      cases running : (openAiLine parse line).stop with
      | some stop =>
          refine ⟨(Reading.andThen_of_stop running _).symm, fun still => ?_⟩
          have ended : some stop = none := running.symm.trans still
          cases ended
      | none =>
          rw [← ih.1]
          refine ⟨rfl, fun still => ih.2 ?_⟩
          rw [Reading.andThen_of_none running] at still
          exact still

theorem readOpenAiFrom_eq {buf : List UInt16} (plain : NEWLINE ∉ buf) (decoder : TextDecoder)
    (body : List Buffer) :
    readOpenAiFrom parse decoder buf body =
      (readItems (openAiLine parse)
        (wholeLines NEWLINE (buf ++ (decoder.decode body.flatten).2))).andThen
          ⟨[], some (.returned none)⟩ := by
  induction body generalizing decoder buf with
  | nil =>
      have nothing : (decoder.decode [].flatten).2 = [] := rfl
      rw [nothing, List.append_nil, wholeLines_of_not_mem plain]
      rfl
  | cons value rest ih =>
      obtain ⟨read, left⟩ := readFrames_eq parse (buf ++ (decoder.decode value).2)
      have whole : (decoder.decode (value :: rest).flatten).2 =
          (decoder.decode value).2 ++ ((decoder.decode value).1.decode rest.flatten).2 := by
        rw [List.flatten_cons, TextDecoder.decode_append]
      rw [whole, ← List.append_assoc, wholeLines_append, readItems_append, ← read,
        Reading.andThen_assoc, readOpenAiFrom]
      cases running : (readFrames parse (buf ++ (decoder.decode value).2)).1.stop with
      | some stop => rw [Reading.andThen_of_stop running, Reading.andThen_of_stop running]
      | none =>
          simp only [left running]
          rw [ih (not_mem_lastLine NEWLINE _)]

theorem readOpenAiStream_eq (body : List Buffer) :
    readOpenAiStream parse body =
      (readItems (openAiLine parse)
        (wholeLines NEWLINE (TextDecoder.new.decode body.flatten).2)).andThen
          ⟨[], some (.returned none)⟩ := by
  rw [readOpenAiStream, readOpenAiFrom_eq List.not_mem_nil, List.nil_append]

end OpenAi

/-- A model's stream reads the same however it is cut. -/
theorem streams_readTheSame (parse : List UInt16 → Option Json) (model : List UInt16) :
    (∀ body other : List Buffer, body.flatten = other.flatten →
      readOllamaStream parse model body = readOllamaStream parse model other) ∧
    (∀ body : List Buffer, (∀ raw ∈ linesOf body.flatten, IsSound parse raw) →
      ((∃ line, (readOllamaStream parse model body).stop = some (.returned line)) ∨
        ∃ error, (readOllamaStream parse model body).stop = some (.upstream error)) ∧
      ((∀ raw ∈ linesOf body.flatten, ¬ IsDone parse raw) →
        ∃ error, (readOllamaStream parse model body).stop = some (.upstream error)) ∧
      (∀ before raw after, linesOf body.flatten = before ++ raw :: after → IsError parse raw →
        (∀ earlier ∈ before, ¬ IsDone parse earlier) →
          ∃ error, (readOllamaStream parse model body).stop = some (.upstream error)) ∧
      ∀ before raw after, linesOf body.flatten = before ++ raw :: after → IsDone parse raw →
        (readOllamaStream parse model body).out =
          (readItems (ollamaLine parse model) (before ++ [raw])).out) ∧
    ∀ body other : List Buffer, body.flatten = other.flatten →
      readOpenAiStream parse body = readOpenAiStream parse other := by
  refine ⟨?_, ?_, ?_⟩
  · intro body other same
    rw [readOllamaStream_eq, readOllamaStream_eq, same]
  · intro body sound
    exact ⟨stop_readOllamaStream sound, upstream_without_done sound,
      fun _ _ _ lines isError notDone => upstream_of_error sound lines isError notDone,
      fun _ _ _ lines done => out_of_done lines done⟩
  · intro body other same
    rw [readOpenAiStream_eq, readOpenAiStream_eq, same]

/-- A stream that carries an error line, behind its done line, ends as a whole answer. -/
theorem errorBehindDone_isNotRead :
    let parse : List UInt16 → Option Json := fun raw =>
      if raw = units "\x7b\"done\":true\x7d" then some (.object [("done", .bool true)])
      else if raw = units "\x7b\"error\":\"x\"\x7d" then some (.object [("error", .text [0x78])])
      else none
    let body : List Buffer :=
      [(units "\x7b\"done\":true\x7d\n\x7b\"error\":\"x\"\x7d\n").map UInt16.toUInt8]
    (∀ raw ∈ linesOf body.flatten, IsSound parse raw) ∧
      (∃ raw ∈ linesOf body.flatten, IsError parse raw) ∧
      (readOllamaStream parse (units "llama") body).stop =
        some (.returned (some (.object [("done", .bool true)]))) := by
  intro parse body
  have lines : linesOf body.flatten =
      [units "\x7b\"done\":true\x7d", units "\x7b\"error\":\"x\"\x7d", []] := by decide +kernel
  have done : parse (units "\x7b\"done\":true\x7d") = some (.object [("done", .bool true)]) := rfl
  have error : parse (units "\x7b\"error\":\"x\"\x7d") = some (.object [("error", .text [0x78])]) := rfl
  refine ⟨?_, ?_, ?_⟩
  · intro raw member
    rw [lines] at member
    simp only [List.mem_cons, List.not_mem_nil, or_false] at member
    obtain rfl | rfl | rfl := member
    · exact .inr (.inr ⟨_, done⟩)
    · exact .inr (.inr ⟨_, error⟩)
    · exact .inl rfl
  · rw [lines]
    exact ⟨_, .tail _ List.mem_cons_self, by decide, _, [0x78], error, rfl⟩
  · rw [readOllamaStream_eq, lines]
    rfl

end ZabbixPortal.Clients
