import ZabbixPortal.Foundation.Utf8
import ZabbixPortal.Services.Acknowledge

/-! The answer streams of Ollama and of OpenAI-compatible servers, read chunk by chunk. -/

set_option autoImplicit false

namespace ZabbixPortal.Clients

open Foundation
open Export (units)
open Services (Json trimUnits isSpaceUnit)

def NEWLINE : UInt16 := 10

namespace AI_MESSAGE

def failed : String := "The AI model returned an error. Try again in a moment."

def stopped : String := "The AI model stopped before finishing its answer. Try again."

end AI_MESSAGE

structure AiUpstreamError where
  message : String
  detail : List UInt16

inductive StreamEnd
  /-- A plain return; `done` is the line whose counts go to `onDone`. -/
  | returned (done : Option Json)
  | upstream (error : AiUpstreamError)
  /-- A property of `null` was asked for. -/
  | typeError

def truthy : Json → Bool
  | .null => false
  | .bool value => value
  | .number value => value ≠ 0
  | .text value => !value.isEmpty
  | .array _ => true
  | .object _ => true

def yielded : Option Json → List Json
  | some piece => if truthy piece then [piece] else []
  | none => []

abbrev Lines := Reading Json StreamEnd

section Ollama

-- `JSON.parse`, none where it throws, and `config.ai.model`
variable (parse : List UInt16 → Option Json) (model : List UInt16)

def errorOf (line : Json) : Option (List UInt16) :=
  match line.field? "error" with
  | some (.text error) => some error
  | _ => none

def isDone (line : Json) : Bool :=
  match line.field? "done" with
  | some done => truthy done
  | none => false

def ollamaLine (raw : List UInt16) : Lines :=
  if trimUnits raw = [] then .none
  else
    match parse raw with
    -- not JSON; the next line carries on
    | none => .none
    | some .null => ⟨[], some .typeError⟩
    | some line =>
        match errorOf line with
        | some error => ⟨[], some (.upstream ⟨AI_MESSAGE.failed, model ++ units ": " ++ error⟩)⟩
        | none =>
            ⟨yielded ((line.field? "message").bind fun message => message.field? "content"),
              if isDone line then some (.returned (some line)) else none⟩

def stoppedError : StreamEnd :=
  .upstream ⟨AI_MESSAGE.stopped, model ++ units " ended its stream before the done line"⟩

/-- The loop over the chunks: the line still arriving is held back until its end, or until
nothing more will come. -/
def readOllamaFrom (decoder : TextDecoder) (buf : List UInt16) : List Buffer → Lines
  | [] =>
      let lines := (buf ++ decoder.flush).splitOn NEWLINE
      (readItems (ollamaLine parse model) lines).andThen ⟨[], some (stoppedError model)⟩
  | value :: rest =>
      let decoded := decoder.decode value
      let lines := (buf ++ decoded.2).splitOn NEWLINE
      (readItems (ollamaLine parse model) lines.dropLast).andThen
        (readOllamaFrom decoded.1 (lines.getLast?.getD []) rest)

/-- Turn Ollama's native stream, one JSON object per line, into text pieces. -/
def readOllamaStream (body : List Buffer) : Lines := readOllamaFrom parse model .new [] body

end Ollama

section OpenAi

variable (parse : List UInt16 → Option Json)

def trimEndUnits (text : List UInt16) : List UInt16 := (text.reverse.dropWhile isSpaceUnit).reverse

def DATA : List UInt16 := units "data:"

def DONE : List UInt16 := units "[DONE]"

def first? : Json → Option Json
  | .array items => items.head?
  | .text value => value.head?.map fun u => .text [u]
  | value => value.field? "0"

def openAiLine (raw : List UInt16) : Lines :=
  let line := trimEndUnits raw
  if !DATA.isPrefixOf line then .none
  else
    let data := trimUnits (line.drop DATA.length)
    if data = DONE then ⟨[], some (.returned none)⟩
    else
      match parse data with
      -- a partial or malformed frame; the next one carries on
      | none => .none
      | some .null => ⟨[], some .typeError⟩
      | some frame =>
          let delta := ((frame.field? "choices").bind first?).bind fun choice => choice.field? "delta"
          ⟨yielded (delta.bind fun delta => delta.field? "content"), none⟩

/-- The lines in the buffer, each taken out of it as it is read, and what is left there. -/
def readFrames (buf : List UInt16) : Lines × List UInt16 :=
  if NEWLINE ∈ buf then
    let line := buf.takeWhile (· ≠ NEWLINE)
    let left := buf.drop (line.length + 1)
    let read := openAiLine parse line
    match read.stop with
    | some _ => (read, left)
    | none => (read.andThen (readFrames left).1, (readFrames left).2)
  else (.none, buf)
termination_by buf.length
decreasing_by
  all_goals
    rename_i inside
    have nonempty := List.length_pos_of_mem inside
    rw [List.length_drop]
    omega

/-- The loop over the chunks; a line that is not at its end when they are over is not read. -/
def readOpenAiFrom (decoder : TextDecoder) (buf : List UInt16) : List Buffer → Lines
  | [] => ⟨[], some (.returned none)⟩
  | value :: rest =>
      let decoded := decoder.decode value
      let frames := readFrames parse (buf ++ decoded.2)
      frames.1.andThen (readOpenAiFrom decoded.1 frames.2 rest)

def readOpenAiStream (body : List Buffer) : Lines := readOpenAiFrom parse .new [] body

end OpenAi

end ZabbixPortal.Clients
