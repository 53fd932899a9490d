import AgyProxy.Common.Types

/-!
# AgyProxy.Host.StreamTypes — the chunk vocabulary (`src/host/stream-types.ts`)

Usage precedes finish and nothing follows it; one content block is open at a time; tool arguments stay
raw JSON strings.  `ProseType` is the part of the block types whose blocks carry deltas.
-/

namespace AgyProxy

open Js

inductive BlockType
  | text | reasoning | toolCall
deriving DecidableEq

/-- The block types the mapper streams: a tool call has no deltas. -/
inductive ProseType
  | text | reasoning
deriving DecidableEq

def ProseType.blockType : ProseType → BlockType
  | text => .text
  | reasoning => .reasoning

inductive ContentBlock
  | text (text : JsString)
  | reasoning (text : JsString)
  | toolCall (id name arguments : JsString)
deriving DecidableEq

/-- Token accounting for one model call; the cache and reasoning counters are optional. -/
structure TokenUsage where
  inputTokens : ℚ
  outputTokens : ℚ
  cacheReadTokens : Option ℚ
  cacheWriteTokens : Option ℚ
  reasoningTokens : Option ℚ
deriving DecidableEq

/-- `{ inputTokens: 0, outputTokens: 0 }`. -/
def TokenUsage.zero : TokenUsage := ⟨0, 0, none, none, none⟩

structure LlmFailure where
  message : JsString
  code : Err
deriving DecidableEq

/-- Why a model response stopped. -/
inductive FinishReason
  | stop
  | toolCalls
  | maxTokens
  | aborted (failure : LlmFailure)
  | error (failure : LlmFailure)
deriving DecidableEq

inductive StreamChunk
  | blockStart (index : ℕ) (blockType : BlockType)
  | textDelta (index : ℕ) (text : JsString)
  | reasoningDelta (index : ℕ) (text : JsString)
  | blockEnd (index : ℕ) (block : ContentBlock)
  | usage (usage : TokenUsage)
  /-- `replayState` is the conversation id of a successful response -/
  | finish (reason : FinishReason) (replayState : Option JsString)
deriving DecidableEq

namespace ProseType

/-- The finished block of that type with that text. -/
def block : ProseType → JsString → ContentBlock
  | text, s => .text s
  | reasoning, s => .reasoning s

/-- One delta of that type. -/
def delta : ProseType → ℕ → JsString → StreamChunk
  | text, k, s => .textDelta k s
  | reasoning, k, s => .reasoningDelta k s

end ProseType

namespace StreamChunk

/-- `ch.type === 'finish' && ch.reason.kind === 'tool-calls'`. -/
def isToolCallsFinish : StreamChunk → Bool
  | finish .toolCalls _ => true
  | _ => false

/-- The text of a text delta. -/
def textOf : StreamChunk → JsString
  | textDelta _ s => s
  | _ => []

/-- The text of a reasoning delta. -/
def reasoningOf : StreamChunk → JsString
  | reasoningDelta _ s => s
  | _ => []

/-- The call id of a finished tool-call block. -/
def toolCallId? : StreamChunk → Option JsString
  | blockEnd _ (.toolCall id _ _) => some id
  | _ => none

/-- `ch.type === 'block-end' && ch.block.type === 'tool-call'`. -/
def isToolCallEnd (ch : StreamChunk) : Bool := ch.toolCallId?.isSome

end StreamChunk

/-- The concatenation of the text deltas. -/
def textDeltas (out : List StreamChunk) : JsString := out.flatMap StreamChunk.textOf

/-- The concatenation of the reasoning deltas. -/
def reasoningDeltas (out : List StreamChunk) : JsString := out.flatMap StreamChunk.reasoningOf

/-- The ids of the tool calls surfaced. -/
def toolCallIds (out : List StreamChunk) : List JsString := out.filterMap StreamChunk.toolCallId?

@[simp] theorem textDeltas_append (a b : List StreamChunk) :
    textDeltas (a ++ b) = textDeltas a ++ textDeltas b := List.flatMap_append

@[simp] theorem reasoningDeltas_append (a b : List StreamChunk) :
    reasoningDeltas (a ++ b) = reasoningDeltas a ++ reasoningDeltas b := List.flatMap_append

@[simp] theorem toolCallIds_append (a b : List StreamChunk) :
    toolCallIds (a ++ b) = toolCallIds a ++ toolCallIds b := List.filterMap_append

end AgyProxy
