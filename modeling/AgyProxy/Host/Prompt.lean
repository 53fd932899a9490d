import AgyProxy.Host.Tenants

/-!
# AgyProxy.Host.Prompt — what a call sends to agy (`src/host/engine.ts`)

* `PromptMessage`: a mapped message with its provider mark.
* `buildDigest`: the bounded digest of the turns a conversation has not seen.
* `assemblePrompt`: the digest in front of the live user turn, under the system instructions.

The files of staged images only add a suffix to the prompt, which is the argument of `withStaged`.
-/

namespace AgyProxy

open Js

/-- A message of a call; the mark of a gateway reply is `PROVIDER_ID`. -/
structure PromptMessage extends EngineMessage where
  provider : Option JsString

/-- Assistant turns marked with it rode our agy history. -/
def PROVIDER_ID : JsString := js "antigravity"

namespace PromptMessage

def isUser (m : PromptMessage) : Bool := decide (m.role = .user)

def isAssistant (m : PromptMessage) : Bool := decide (m.role = .assistant)

def isForeignAssistant (m : PromptMessage) : Bool := m.isAssistant && decide (m.provider ≠ some PROVIDER_ID)

/-- A turn that is no line of a digest. -/
def isSkipped (m : PromptMessage) : Bool := decide (m.role = .system) || decide (m.text = [])

/-- A line of the digest. -/
def digestLine (m : PromptMessage) : JsString := (if m.isUser then js "User: " else js "Assistant: ") ++ m.text

end PromptMessage

/-! ### The digest -/

/-- The loop of `buildDigest`, newest message first; the line that exceeds the budget is cut and the last. -/
def digestLoop : List PromptMessage → ℕ → List JsString → List JsString
  | [], _, parts => parts
  | m :: older, budget, parts =>
    if m.isSkipped then digestLoop older budget parts
    else if budget < m.digestLine.length then m.digestLine.take budget :: parts
    else digestLoop older (budget - m.digestLine.length) (m.digestLine :: parts)

/-- The lines in their frame. -/
def digestText (parts : List JsString) : JsString :=
  if parts = [] then []
  else js "[conversation so far]\n" ++ (js "\n\n").intercalate parts ++ js "\n[end of conversation so far]\n\n"

def buildDigest (messages : List PromptMessage) (fromIdx maxChars : ℕ) : JsString :=
  digestText (digestLoop (messages.drop fromIdx).reverse maxChars [])

/-- Covers about four thousand tokens of context. -/
def digestMaxChars : ℕ := 8000

/-! ### The prompt -/

/-- `lastAssistantIdx + 1`, which is 0 without an assistant turn. -/
def lastAssistantEnd (messages : List PromptMessage) : ℕ :=
  (messages.reverse.dropWhile fun m => !m.isAssistant).length

/-- The user turns behind the last assistant turn. -/
def trailingUser (messages : List PromptMessage) : List PromptMessage :=
  (messages.drop (lastAssistantEnd messages)).filter PromptMessage.isUser

/-- The turns since the watermark without our own, up to the last assistant turn. -/
def SessionBinding.span (b : SessionBinding) (messages : List PromptMessage) : List PromptMessage :=
  let start := min b.lastMessageCount messages.length
  let stop := max start (lastAssistantEnd messages)
  ((messages.take stop).drop start).filter fun m => !m.isAssistant || m.isForeignAssistant

/-- The digest a prompt begins with. -/
def promptDigest (messages : List PromptMessage) : Option SessionBinding → JsString
  | none => if 0 < lastAssistantEnd messages then buildDigest messages 0 digestMaxChars else []
  | some b =>
    let span := b.span messages
    if span.any PromptMessage.isAssistant then buildDigest span 0 digestMaxChars else []

/-- The live user turn. -/
def liveText (messages : List PromptMessage) : JsString :=
  (js "\n\n").intercalate (((trailingUser messages).map fun m => m.text).filter fun s => s ≠ [])

def assemblePrompt (messages : List PromptMessage) (binding : Option SessionBinding) (system : Option JsString) :
    JsString :=
  let prompt := promptDigest messages binding ++ liveText messages
  match truthy? system with
  | some system => js "System instructions:\n" ++ system ++ js "\n\n" ++ prompt
  | none => prompt

/-- The references to the staged images behind the prompt. -/
def withStaged (prompt promptSuffix : JsString) : JsString :=
  if promptSuffix = [] then prompt
  else if prompt = [] then
    promptSuffix ++ js "\n\n[Please inspect the attached image(s) using view_file and assist the user.]"
  else prompt ++ js "\n\n" ++ promptSuffix

end AgyProxy
