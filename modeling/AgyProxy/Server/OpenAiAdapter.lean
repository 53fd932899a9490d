import AgyProxy.Host.StreamTypes
import AgyProxy.Server.Errors

/-!
# AgyProxy.Server.OpenAiAdapter — the streaming mapping of `src/server/openai-adapter.ts`

* `OpenAiFrame`: what the leg writes, one `data:` line each.
* `openAiStreamFrames`: one chunk onto its frames.
-/

namespace AgyProxy

open Js

structure OpenAiUsage where
  promptTokens : ℚ
  completionTokens : ℚ
  totalTokens : ℚ
  cachedTokens : ℚ
  reasoningTokens : ℚ
deriving DecidableEq

def mapUsage (u : TokenUsage) : OpenAiUsage where
  promptTokens := u.inputTokens
  completionTokens := u.outputTokens
  totalTokens := u.inputTokens + u.outputTokens
  cachedTokens := u.cacheReadTokens.getD 0
  reasoningTokens := u.reasoningTokens.getD 0

inductive OpenAiFinishReason
  | stop | length | toolCalls
deriving DecidableEq

inductive OpenAiDelta
  /-- `{ role: 'assistant', content: '' }` -/
  | role
  | content (text : JsString)
  | reasoningContent (text : JsString)
  | toolCall (index : ℕ) (id name arguments : JsString)
  /-- `{}` -/
  | empty
deriving DecidableEq

structure OpenAiChoice where
  delta : OpenAiDelta
  finishReason : Option OpenAiFinishReason
deriving DecidableEq

/-- The key `usage` of a chunk. -/
inductive UsageKey
  | absent | null
  | counts (u : OpenAiUsage)
deriving DecidableEq

structure OpenAiChunk where
  id : JsString
  created : ℕ
  model : JsString
  choices : List OpenAiChoice
  usage : UsageKey
deriving DecidableEq

inductive OpenAiFrame
  | chunk (c : OpenAiChunk)
  | error (body : OpenAiErrorBody)
  /-- `[DONE]` -/
  | done
deriving DecidableEq

structure OpenAiStreamState where
  firstSent : Bool
  toolIndex : ℕ
  sawToolThisSpan : Bool
deriving DecidableEq

/-- What stays fixed over a stream. -/
structure OpenAiStreamArgs where
  id : JsString
  created : ℕ
  model : JsString
  includeUsage : Bool

namespace OpenAiStreamArgs

variable (args : OpenAiStreamArgs)

def openAiChunkOf (choice : OpenAiChoice) : OpenAiFrame :=
  .chunk ⟨args.id, args.created, args.model, [choice], .absent⟩

/-- The terminal frame without choices. -/
def usageChunk (usage : Option TokenUsage) : OpenAiFrame :=
  .chunk ⟨args.id, args.created, args.model, [], .counts (mapUsage (usage.getD .zero))⟩

/-- The first frame of a span carries the role. -/
def roleFrames (state : OpenAiStreamState) : List OpenAiFrame :=
  if state.firstSent then [] else [args.openAiChunkOf ⟨.role, none⟩]

/-- One delta, unless it is empty. -/
def deltaFrames (text : JsString) (delta : OpenAiDelta) : List OpenAiFrame :=
  if text = [] then [] else [args.openAiChunkOf ⟨delta, none⟩]

end OpenAiStreamArgs

/-- The `finish_reason` of a finish chunk. -/
def FinishReason.openAi : FinishReason → OpenAiFinishReason
  | .toolCalls => .toolCalls
  | .maxTokens => .length
  | _ => .stop

def openAiStreamFramesCore (args : OpenAiStreamArgs) (usage : Option TokenUsage) (chunk : StreamChunk)
    (state : OpenAiStreamState) : List OpenAiFrame × OpenAiStreamState :=
  let role := args.roleFrames state
  let state := { state with firstSent := true }
  match chunk with
  | .textDelta _ text => (role ++ args.deltaFrames text (.content text), state)
  | .reasoningDelta _ text => (role ++ args.deltaFrames text (.reasoningContent text), state)
  | .blockEnd _ (.toolCall id name arguments) =>
    (role ++ [args.openAiChunkOf ⟨.toolCall state.toolIndex id name arguments, none⟩],
      { state with toolIndex := state.toolIndex + 1, sawToolThisSpan := true })
  | .finish reason _ =>
    (role ++ args.openAiChunkOf ⟨.empty, some reason.openAi⟩ ::
      (if args.includeUsage then [args.usageChunk usage] else []) ++ [.done], state)
  | _ => (role, state)

/-- With `include_usage` every chunk without counts carries `"usage": null`. -/
def OpenAiFrame.withUsageKey : OpenAiFrame → OpenAiFrame
  | .chunk c => .chunk (if c.usage = .absent then { c with usage := .null } else c)
  | frame => frame

def openAiStreamFrames (args : OpenAiStreamArgs) (usage : Option TokenUsage) (chunk : StreamChunk)
    (state : OpenAiStreamState) : List OpenAiFrame × OpenAiStreamState :=
  let (frames, state) := openAiStreamFramesCore args usage chunk state
  (if args.includeUsage then frames.map OpenAiFrame.withUsageKey else frames, state)

end AgyProxy
