import TitanClaw.Lib.Text
import TitanClaw.Llm.ResponseCache

/-! # The OpenAI-compatible endpoint

The provider gives its whole answer at once. It goes out as one message or, to a client that
asked for a stream, in chunks. -/

namespace TitanClaw.Channels.Web

open Text List Llm

structure ToolCompletionResponse where
  content : Option String
  toolCalls : List ToolCall
  finishReason : FinishReason

inductive LlmResult where
  | simple (resp : CompletionResponse)
  | withTools (resp : ToolCompletionResponse)

def finishReasonStr : FinishReason → String
  | .stop | .unknown => "stop"
  | .length => "length"
  | .toolUse => "tool_calls"
  | .contentFilter => "content_filter"

structure OpenAiToolCall where
  id : String
  callType : String := "function"
  name : String
  arguments : String

structure OpenAiChoice where
  role : String := "assistant"
  content : Option String
  toolCalls : Option (List OpenAiToolCall) := none
  finishReason : String

structure OpenAiToolCallDelta where
  index : UInt32
  id : Option String
  callType : Option String := some "function"
  name : Option String
  arguments : Option String

structure OpenAiChunkChoice where
  role : Option String := none
  content : Option String := none
  toolCalls : Option (List OpenAiToolCallDelta) := none
  finishReason : Option String := none

variable (toText : JsonValue → String) (calls : List ToolCall) (reason : FinishReason)

def convertToolCallsToOpenai : List OpenAiToolCall :=
  calls.map fun tc => { id := tc.id, name := tc.name, arguments := toText tc.arguments }

def chatCompletion : LlmResult → OpenAiChoice
  | .withTools ⟨content, calls, reason⟩ =>
      { content
        toolCalls := if calls.isEmpty then none else some (convertToolCallsToOpenai toText calls)
        finishReason := finishReasonStr reason }
  | .simple resp =>
      { content := some resp.content, finishReason := finishReasonStr resp.finishReason }

/-- `str::split_inclusive`: each word keeps the character it ends with. -/
def splitInclusive (p : Char → Bool) : List Char → List (List Char)
  | [] => []
  | c :: cs =>
      if p c then [c] :: splitInclusive p cs
      else match splitInclusive p cs with
        | [] => [[c]]
        | word :: words => (c :: word) :: words

/-- Words go out once the buffer has 20 bytes, and what is left at the end. -/
def pack (buf : List Char) : List (List Char) → List (List Char)
  | [] => if buf = [] then [] else [buf]
  | word :: words =>
      if len (.ofList (buf ++ word)) ≥ 20 then (buf ++ word) :: pack [] words
      else pack (buf ++ word) words

def streamContentChunks (content : String) : List OpenAiChunkChoice :=
  (pack [] (splitInclusive isWhitespace content.toList)).map fun text =>
    { content := some (.ofList text) }

/-- All calls in one chunk. -/
def toolCallChunks : List OpenAiChunkChoice :=
  if calls.isEmpty then []
  else [{ toolCalls := some (calls.zipIdx.map fun (tc, i) =>
    { index := .ofNat i, id := some tc.id, name := some tc.name
      arguments := some (toText tc.arguments) }) }]

def sendFinishChunk : OpenAiChunkChoice := { finishReason := some (finishReasonStr reason) }

def handleStreaming (r : LlmResult) : List OpenAiChunkChoice :=
  { role := some "assistant" } :: match r with
    | .withTools ⟨content, calls, reason⟩ =>
        content.elim [] streamContentChunks ++ toolCallChunks toText calls
          ++ [sendFinishChunk reason]
    | .simple resp => streamContentChunks resp.content ++ [sendFinishChunk resp.finishReason]

/-- The text, the calls and the reason to finish, as a client sees them. -/
abbrev Parts := List Char × List (Option String × Option String × Option String) × List String

def reassemble (chunks : List OpenAiChunkChoice) : Parts :=
  ((chunks.filterMap (·.content)).flatMap (·.toList),
    (chunks.flatMap (·.toolCalls.getD [])).map fun d => (d.id, d.name, d.arguments),
    chunks.filterMap (·.finishReason))

def parts (c : OpenAiChoice) : Parts :=
  ((c.content.getD "").toList,
    (c.toolCalls.getD []).map fun tc => (some tc.id, some tc.name, some tc.arguments),
    [c.finishReason])

theorem flatten_splitInclusive (p : Char → Bool) (l : List Char) :
    (splitInclusive p l).flatten = l := by
  fun_induction splitInclusive p l <;> simp_all

theorem flatten_pack (buf : List Char) (words : List (List Char)) :
    (pack buf words).flatten = buf ++ words.flatten := by
  fun_induction pack buf words <;> simp_all

theorem reassemble_stream (content : String) (chunks : List OpenAiChunkChoice) :
    reassemble (streamContentChunks content ++ chunks)
      = (content.toList ++ (reassemble chunks).1, (reassemble chunks).2) := by
  simp [reassemble, streamContentChunks, filterMap_map, flatMap_map, flatMap_id', flatten_pack,
    flatten_splitInclusive]

theorem reassemble_toolCalls :
    reassemble (toolCallChunks toText calls ++ [sendFinishChunk reason])
      = parts (chatCompletion toText (.withTools ⟨none, calls, reason⟩)) := by
  have hcalls : convertToolCallsToOpenai toText calls = calls.zipIdx.map fun (tc, _) =>
      { id := tc.id, name := tc.name, arguments := toText tc.arguments } := by
    conv_lhs => rw [convertToolCallsToOpenai, ← zipIdx_map_fst 0 calls, map_map]
    rfl
  rw [chatCompletion, hcalls]
  cases calls <;> simp [toolCallChunks, reassemble, sendFinishChunk, parts, Function.comp_def]

/-- **The stream reassembles** to the message. -/
theorem handleStreaming_reassembles (r : LlmResult) :
    reassemble (handleStreaming toText r) = parts (chatCompletion toText r) := by
  cases r with
  | simple resp =>
    refine (reassemble_stream _ _).trans ?_
    simp [reassemble, sendFinishChunk, chatCompletion, parts]
  | withTools resp =>
    obtain ⟨content, calls, reason⟩ := resp
    have hcalls := reassemble_toolCalls toText calls reason
    rw [handleStreaming, append_assoc]
    cases content with
    | none => exact hcalls
    | some content =>
      refine (reassemble_stream _ _).trans ?_
      simp [hcalls, chatCompletion, parts]

end TitanClaw.Channels.Web
