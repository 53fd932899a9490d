import AgyProxy.Host.StreamTypes
import AgyProxy.Server.Errors

/-!
# AgyProxy.Server.AnthropicAdapter — the streaming mapping of `src/server/anthropic-adapter.ts`

* `AnthropicStreamEvent`: what the leg writes, one `event:` block each.
* `anthropicStreamEvents`: one chunk onto its events.
-/

namespace AgyProxy

open Js

/-- An absent counter is an absent property. -/
structure AnthropicUsage where
  inputTokens : ℚ
  outputTokens : ℚ
  cacheReadInputTokens : Option ℚ
  thinkingTokens : Option ℚ
deriving DecidableEq

def mapAnthropicUsage (u : TokenUsage) : AnthropicUsage where
  inputTokens := u.inputTokens
  outputTokens := u.outputTokens
  cacheReadInputTokens := u.cacheReadTokens
  thinkingTokens := u.reasoningTokens

inductive AnthropicBlockType
  | text | thinking | toolUse
deriving DecidableEq

/-- The `content_block` of a start event; texts and inputs start empty. -/
inductive AnthropicContentBlock
  | text | thinking
  | toolUse (id name : JsString)
deriving DecidableEq

inductive AnthropicDelta
  | textDelta (text : JsString)
  | thinkingDelta (thinking : JsString)
  | inputJsonDelta (partialJson : JsString)
deriving DecidableEq

inductive StopReason
  | endTurn | maxTokens | stopSequence | toolUse
deriving DecidableEq

inductive AnthropicStreamEvent
  | messageStart (id model : JsString) (inputTokens : ℕ)
  | contentBlockStart (index : ℕ) (block : AnthropicContentBlock)
  | contentBlockDelta (index : ℕ) (delta : AnthropicDelta)
  | contentBlockStop (index : ℕ)
  | messageDelta (stopReason : StopReason) (stopSequence : Option JsString) (outputTokens : ℚ)
      (thinkingTokens : Option ℚ)
  | messageStop
  | error (body : AnthropicErrorBody)
deriving DecidableEq

structure AnthropicStreamState where
  messageStarted : Bool
  blockIndex : ℕ
  openType : Option AnthropicBlockType
deriving DecidableEq

/-- What stays fixed over a stream; `inputTokens` is the estimate for the request. -/
structure AnthropicStreamArgs where
  id : JsString
  model : JsString
  inputTokens : ℕ

namespace AnthropicStreamState

/-- Stop the open block, if there is one. -/
def closeBlock (state : AnthropicStreamState) : List AnthropicStreamEvent × AnthropicStreamState :=
  match state.openType with
  | some _ =>
    ([.contentBlockStop state.blockIndex], { state with blockIndex := state.blockIndex + 1, openType := none })
  | none => ([], state)

/-- Start a block, unless one of the type is open. -/
def openBlock (state : AnthropicStreamState) (type : AnthropicBlockType) (block : AnthropicContentBlock) :
    List AnthropicStreamEvent × AnthropicStreamState :=
  if state.openType = some type then ([], state)
  else
    let (stop, state) := state.closeBlock
    (stop ++ [.contentBlockStart state.blockIndex block], { state with openType := some type })

/-- A delta in a block of its type; an empty one opens the block only. -/
def deltaEvents (state : AnthropicStreamState) (type : AnthropicBlockType) (block : AnthropicContentBlock)
    (text : JsString) (delta : AnthropicDelta) : List AnthropicStreamEvent × AnthropicStreamState :=
  let (start, state) := state.openBlock type block
  (start ++ if text = [] then [] else [.contentBlockDelta state.blockIndex delta], state)

/-- A tool call is one whole block. -/
def toolUseEvents (state : AnthropicStreamState) (id name arguments : JsString) :
    List AnthropicStreamEvent × AnthropicStreamState :=
  let (stop, state) := state.closeBlock
  (stop ++ [.contentBlockStart state.blockIndex (.toolUse id name),
      .contentBlockDelta state.blockIndex (.inputJsonDelta arguments), .contentBlockStop state.blockIndex],
    { state with blockIndex := state.blockIndex + 1, openType := none })

end AnthropicStreamState

/-- The `stop_reason` of a finish chunk; a stop sequence overrides it. -/
def FinishReason.anthropic (reason : FinishReason) (stopSequence : Option JsString) : StopReason :=
  if stopSequence.isSome then .stopSequence
  else
    match reason with
    | .toolCalls => .toolUse
    | .maxTokens => .maxTokens
    | _ => .endTurn

/-- The events after the open block was stopped. -/
def finishEvents (usage : Option TokenUsage) (stopSequence : Option JsString) :
    FinishReason → List AnthropicStreamEvent
  | .error f => [.error ⟨(anthropicStatusFor f.code f.message).type, f.message⟩]
  | .aborted f => [.error ⟨(anthropicStatusFor f.code f.message).type, f.message⟩]
  | reason =>
    let u := mapAnthropicUsage (usage.getD .zero)
    [.messageDelta (reason.anthropic stopSequence) stopSequence u.outputTokens u.thinkingTokens, .messageStop]

def anthropicStreamEvents (args : AnthropicStreamArgs) (usage : Option TokenUsage) (stopSequence : Option JsString)
    (chunk : StreamChunk) (state : AnthropicStreamState) : List AnthropicStreamEvent × AnthropicStreamState :=
  let start := if state.messageStarted then [] else [.messageStart args.id args.model args.inputTokens]
  let state := { state with messageStarted := true }
  let (events, state) : List AnthropicStreamEvent × AnthropicStreamState :=
    match chunk with
    | .reasoningDelta _ text => state.deltaEvents .thinking .thinking text (.thinkingDelta text)
    | .textDelta _ text => state.deltaEvents .text .text text (.textDelta text)
    | .blockEnd _ (.toolCall id name arguments) => state.toolUseEvents id name arguments
    | .finish reason _ =>
      let (stop, state) := state.closeBlock
      (stop ++ finishEvents usage stopSequence reason, state)
    | _ => ([], state)
  (start ++ events, state)

end AgyProxy
