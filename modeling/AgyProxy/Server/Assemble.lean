import AgyProxy.Js.Json
import AgyProxy.Server.AnthropicAdapter
import AgyProxy.Server.OpenAiAdapter
import AgyProxy.Server.StreamGuards

/-!
# AgyProxy.Server.Assemble — the two non-streaming bodies

* `OpenAiCollected.collectChunks`, `applyMaxTokens`, `assembleCompletion` (`src/server/openai-adapter.ts`).
* `AnthropicCollected.collectChunks`, `applyFinishTransforms`, `assembleMessage`
  (`src/server/anthropic-adapter.ts`).

Token counts are exact rationals; `max_tokens` is a natural number, as both adapters demand.
-/

namespace AgyProxy

open Js Lib

structure ToolCallBlock where
  id : JsString
  name : JsString
  arguments : JsString
deriving DecidableEq

/-- `Math.max(0, Math.floor((length * maxTokens) / output))`. -/
def keepChars (length maxTokens : ℕ) (output : ℚ) : ℕ := ⌊(length * maxTokens : ℚ) / output⌋.toNat

/-- `usage?.outputTokens ?? 0`. -/
def outputTokens (usage : Option TokenUsage) : ℚ := (usage.map TokenUsage.outputTokens).getD 0

/-! ### `POST /v1/chat/completions` -/

/-- One span, as the OpenAI leg collects it. -/
structure OpenAiCollected where
  text : JsString
  reasoningChars : ℕ
  toolCalls : List ToolCallBlock
  usage : Option TokenUsage
  finish : Option FinishReason

namespace OpenAiCollected

def empty : OpenAiCollected := ⟨[], 0, [], none, none⟩

def add (out : OpenAiCollected) : StreamChunk → OpenAiCollected
  | .textDelta _ text => { out with text := out.text ++ text }
  | .reasoningDelta _ text => { out with reasoningChars := out.reasoningChars + text.length }
  | .blockEnd _ (.toolCall id name arguments) => { out with toolCalls := out.toolCalls ++ [⟨id, name, arguments⟩] }
  | .usage usage => { out with usage := some usage }
  | .finish reason _ => { out with finish := some reason }
  | _ => out

/-- The text counts deltas only. -/
def collectChunks (chunks : List StreamChunk) : OpenAiCollected := chunks.foldl add empty

/-- The visible text of a stopped span is cut in proportion; no other span is. -/
def applyMaxTokens (collected : OpenAiCollected) (maxTokens : Option ℕ) : OpenAiCollected :=
  match maxTokens, collected.finish with
  | some max, some .stop =>
    let output := outputTokens collected.usage
    if output ≤ 0 ∨ output ≤ max ∨ collected.text = [] then collected
    else
      let keep := keepChars collected.text.length max output
      if collected.text.length ≤ keep then collected
      else { collected with text := collected.text.take keep, finish := some .maxTokens }
  | _, _ => collected

end OpenAiCollected

/-- `applyStop`: the cut without the hit. -/
def applyStop (text : JsString) (stop : List JsString) : JsString := (applyStopWithHit text stop).1

/-- The body; it has one choice. -/
structure OpenAiChatCompletion where
  id : JsString
  created : ℕ
  model : JsString
  content : Option JsString
  /-- absent when empty -/
  toolCalls : List ToolCallBlock
  finishReason : OpenAiFinishReason
  usage : OpenAiUsage
deriving DecidableEq

/-- What `assembleCompletion` is given besides the span. -/
structure CompletionArgs where
  id : JsString
  created : ℕ
  requestModel : JsString
  stop : List JsString
  maxTokens : Option ℕ

def assembleCompletion (args : CompletionArgs) (raw : OpenAiCollected) : OpenAiChatCompletion :=
  let collected := raw.applyMaxTokens args.maxTokens
  let text := applyStop collected.text args.stop
  { id := args.id
    created := args.created
    model := args.requestModel
    content := if text = [] ∧ collected.toolCalls ≠ [] then none else some text
    toolCalls := collected.toolCalls
    finishReason := (collected.finish.map FinishReason.openAi).getD .stop
    usage := mapUsage (collected.usage.getD .zero) }

/-! ### `POST /v1/messages` -/

/-- One span, as the Anthropic leg collects it. -/
structure AnthropicCollected where
  text : JsString
  thinking : JsString
  toolCalls : List ToolCallBlock
  usage : Option TokenUsage
  finish : Option FinishReason

namespace AnthropicCollected

def empty : AnthropicCollected := ⟨[], [], [], none, none⟩

def add (out : AnthropicCollected) : StreamChunk → AnthropicCollected
  | .textDelta _ text => { out with text := out.text ++ text }
  | .reasoningDelta _ text => { out with thinking := out.thinking ++ text }
  | .blockEnd _ (.toolCall id name arguments) => { out with toolCalls := out.toolCalls ++ [⟨id, name, arguments⟩] }
  | .usage usage => { out with usage := some usage }
  | .finish reason _ => { out with finish := some reason }
  | _ => out

def collectChunks (chunks : List StreamChunk) : AnthropicCollected := chunks.foldl add empty

/-- The stop cut of a stopped span, and its hit; the scan runs for every span. -/
def cutAtStop (collected : AnthropicCollected) (stop : List JsString) : AnthropicCollected × Option JsString :=
  let (cut, stopHit) := stop.foldl (noteStop collected.text) (none, none)
  match cut with
  | some cut =>
    if collected.finish = some .stop then ({ collected with text := collected.text.take cut }, stopHit)
    else (collected, none)
  | none => (collected, none)

/-- The proportional cut of a stopped span, unless `stopHit` is truthy. -/
def cutAtMaxTokens (out : AnthropicCollected) (stopHit : Option JsString) (maxTokens : Option ℕ) : AnthropicCollected :=
  match maxTokens with
  | none => out
  | some max =>
    if out.finish = some .stop ∧ stopHit.getD [] = [] then
      let output := outputTokens out.usage
      if max < output ∧ out.text ≠ [] then
        let keep := keepChars out.text.length max output
        if keep < out.text.length then { out with text := out.text.take keep, finish := some .maxTokens } else out
      else out
    else out

def applyFinishTransforms (collected : AnthropicCollected) (stop : List JsString) (maxTokens : Option ℕ) :
    AnthropicCollected × Option JsString :=
  let (out, stopHit) := collected.cutAtStop stop
  (out.cutAtMaxTokens stopHit maxTokens, stopHit)

end AnthropicCollected

/-- A block of a finished message. -/
inductive AnthropicMessageBlock
  | text (text : JsString)
  | thinking (thinking : JsString)
  | toolUse (id name : JsString) (input : Json)

structure AnthropicMessage where
  id : JsString
  model : JsString
  content : List AnthropicMessageBlock
  stopReason : StopReason
  stopSequence : Option JsString
  usage : AnthropicUsage

/-- What `assembleMessage` is given besides the span. -/
structure MessageArgs where
  id : JsString
  requestModel : JsString
  stop : List JsString
  maxTokens : Option ℕ

/-- `{}` for a text that is no JSON. -/
def safeParse (json : JsString) : Json := (Json.parse json).getD (.obj [])

def ToolCallBlock.toolUse (t : ToolCallBlock) : AnthropicMessageBlock := .toolUse t.id t.name (safeParse t.arguments)

def assembleMessage (args : MessageArgs) (raw : AnthropicCollected) : AnthropicMessage :=
  let (collected, stopHit) := raw.applyFinishTransforms args.stop args.maxTokens
  { id := args.id
    model := args.requestModel
    content :=
      (if collected.thinking = [] then [] else [.thinking collected.thinking]) ++
        (if collected.text ≠ [] ∨ collected.toolCalls = [] then [.text collected.text] else []) ++
        collected.toolCalls.map ToolCallBlock.toolUse
    stopReason := (collected.finish.getD .stop).anthropic stopHit
    stopSequence := stopHit
    usage := mapAnthropicUsage (collected.usage.getD .zero) }

end AgyProxy
