import AgyProxy.Host.Prompt
import AgyProxy.Server.Assemble

/-!
# AgyProxy.Server.ChatMessages — the messages of a request, as both adapters map them

* `mapChatMessages`: the message loop of `mapChatRequest` (`src/server/openai-adapter.ts`).
* `mapMessages`: the one of `mapMessagesRequest` (`src/server/anthropic-adapter.ts`), where a last turn of tool
  results becomes a continuation.
* `OpenAiChatCompletion.message`, `AnthropicMessage.message`: a reply as a message of the next request.

Whether an image can be decoded is an argument; the other fields of a body are left out.
-/

namespace AgyProxy

open Js

/-- The rejections, all with status 400. -/
inductive MessageError
  | bad (message : JsString)
  /-- `message + String(v)` -/
  | unsupported (message : JsString) (v : Option Json)

/-- The part of a call the messages decide. -/
structure MappedMessages where
  messages : List PromptMessage
  system : Option JsString

/-- A string property. -/
def strField? (o : Obj) (k : JsString) : Option JsString := (o.get? k).bind str?

/-- A turn as the adapters push it: no provider mark. -/
def PromptMessage.unmarked (role : MessageRole) (text : JsString) : PromptMessage := ⟨⟨role, text, none⟩, none⟩

/-! ### `POST /v1/chat/completions` -/

section OpenAi

/-- One part; `image` says what an `image_url` part does. -/
def contentPart (role : JsString) (image : Obj → Except MessageError JsString) (part : Json) :
    Except MessageError JsString :=
  match part.asObject? with
  | none => .error (.bad (role ++ js " content part must be an object"))
  | some p =>
    if strField? p (js "type") = some (js "text") then
      match strField? p (js "text") with
      | some text => .ok text
      | none => .error (.bad (role ++ js " text part must carry a string `text`"))
    else if strField? p (js "type") = some (js "image_url") then image p
    else if strField? p (js "type") = some (js "input_audio") then
      .error (.bad (js "audio input is not supported by this gateway"))
    else .error (.unsupported (js "unsupported " ++ role ++ js " content part type: ") (p.get? (js "type")))

/-- The texts of a content, joined. -/
def contentOf (role : JsString) (image : Obj → Except MessageError JsString) :
    Option Json → Except MessageError JsString
  | none => .ok []
  | some .null => .ok []
  | some (.str s) => .ok s
  | some (.arr parts) => (parts.mapM (contentPart role image)).map List.flatten
  | some _ => .error (.bad (role ++ js " content must be a string or an array of content parts"))

def contentToText (content : Option Json) (role : JsString) : Except MessageError JsString :=
  contentOf role (fun _ => .error (.bad (role ++ js " image_url parts are only supported on user messages"))) content

variable (decodeDataImageUrl : JsString → Except MessageError Unit)

/-- The images are staged apart from the text. -/
def contentToTextAndImages (content : Option Json) : Except MessageError JsString :=
  contentOf (js "user")
    (fun p =>
      match strField? (fieldsOf (p.get? (js "image_url"))) (js "url") with
      | none => .error (.bad (js "image_url part must carry image_url.url"))
      | some url => (decodeDataImageUrl url).map fun _ => [])
    content

/-- A message of the loop: a part of the system instructions or a turn. -/
def mapChatMessage (raw : Json) : Except MessageError (JsString ⊕ PromptMessage) :=
  match raw.asObject? with
  | none => .error (.bad (js "each message must be an object"))
  | some m =>
    let content := m.get? (js "content")
    let role := strField? m (js "role")
    if role = some (js "system") then (contentToText content (js "system")).map .inl
    else if role = some (js "developer") then (contentToText content (js "developer")).map .inl
    else if role = some (js "user") then
      if (m.get? (js "tool_calls")).isSome then .error (.bad (js "user messages cannot carry tool_calls"))
      else (contentToTextAndImages decodeDataImageUrl content).map fun text => .inr (.unmarked .user text)
    else if role = some (js "assistant") then
      (contentToText content (js "assistant")).map fun text => .inr (.unmarked .assistant text)
    else if role = some (js "tool") then
      match (strField? m (js "tool_call_id")).filter fun id => (parseMirrorCallId id).isSome with
      | none => .error (.bad (js ("tool messages are only accepted as continuations of this gateway's own tool " ++
          "calls (agytc- cursor)")))
      | some callId => (contentToText content (js "tool")).map fun text => .inr ⟨⟨.tool, text, some callId⟩, none⟩
    else if role = some (js "function") then
      .error (.bad (js "the legacy function role is not supported — use tools in M2"))
    else .error (.unsupported (js "unsupported message role: ") (m.get? (js "role")))

/-- `jsonObject`: the response format asks for a JSON document. -/
def mapChatMessages (jsonObject : Bool) (raws : List Json) : Except MessageError MappedMessages :=
  if raws = [] then .error (.bad (js "messages must be a non-empty array"))
  else
    (raws.mapM (mapChatMessage decodeDataImageUrl)).map fun turns =>
      let systemParts := turns.filterMap Sum.getLeft? ++
        if jsonObject then [js "Respond with a single valid JSON document and nothing else."] else []
      { messages := turns.filterMap Sum.getRight?
        system := if systemParts = [] then none else some ((js "\n\n").intercalate systemParts) }

end OpenAi

/-! ### `POST /v1/messages` -/

section Anthropic

/-- The texts of the text blocks in a tool result. -/
def resultTexts (parts : List Json) : List JsString :=
  parts.filterMap fun p =>
    p.asObject?.bind fun o => if strField? o (js "type") = some (js "text") then strField? o (js "text") else none

variable (decodeImageSource : Option Json → Except MessageError Unit)

/-- One block as context text. -/
def mapBlock (role : JsString) (block : Json) : Except MessageError JsString :=
  match block.asObject? with
  | none => .error (.bad (role ++ js " content blocks must be objects"))
  | some b =>
    let type := strField? b (js "type")
    if type = some (js "text") then
      match strField? b (js "text") with
      | some text => .ok text
      | none => .error (.bad (js "text blocks must carry a string `text`"))
    else if type = some (js "image") then
      if role ≠ js "user" then .error (.bad (js "image blocks are only supported on user messages"))
      else (decodeImageSource (b.get? (js "source"))).map fun _ => []
    else if type = some (js "thinking") ∨ type = some (js "redacted_thinking") then
      match nonEmptyStr? (pick b [js "thinking", js "data"]) with
      | some thinking => .ok (js "[thinking replay] " ++ thinking)
      | none => .ok []
    else if type = some (js "tool_use") then
      match strField? b (js "name") with
      | some name => .ok (js "[tool_use replay] " ++ name)
      | none => .ok []
    else if type = some (js "tool_result") then
      match b.get? (js "content") with
      | some (.str inner) => .ok inner
      | some (.arr inner) => .ok (resultTexts inner).flatten
      | _ => .ok []
    else .error (.unsupported (js "unsupported " ++ role ++ js " content block type: ") (b.get? (js "type")))

def mapContent (content : Option Json) (role : JsString) : Except MessageError JsString :=
  match content with
  | some (.str s) => .ok s
  | some (.arr blocks) => (blocks.mapM (mapBlock decodeImageSource role)).map List.flatten
  | _ => .error (.bad (role ++ js " content must be a string or an array of blocks"))

def mapMessage (raw : Json) : Except MessageError PromptMessage :=
  match raw.asObject? with
  | none => .error (.bad (js "each message must be an object"))
  | some m =>
    let content := m.get? (js "content")
    let role := strField? m (js "role")
    if role = some (js "user") then
      (mapContent decodeImageSource content (js "user")).map fun text => .unmarked .user text
    else if role = some (js "assistant") then
      (mapContent decodeImageSource content (js "assistant")).map fun text => .unmarked .assistant text
    else .error (.unsupported (js "unsupported message role: ") (m.get? (js "role")))

/-- The tool results of the last turn: their texts, and the furthest cursor. -/
structure ToolResults where
  parts : List JsString
  cursor : Option (JsString × ℕ)

/-- What a tool result says; one without a text says `ok`. -/
def resultText : Option Json → JsString
  | some (.str s) => s
  | some (.arr parts) => (resultTexts parts).flatten
  | _ => js "ok"

def ToolResults.add (r : ToolResults) (block : Json) : Except MessageError ToolResults :=
  match block.asObject? with
  | none => .ok r
  | some bl =>
    if strField? bl (js "type") = some (js "tool_result") then
      match (strField? bl (js "tool_use_id")).bind fun id => (parseMirrorCallId id).map fun p => (id, p.2) with
      | none => .error (.bad (js ("tool_result blocks are only accepted as continuations of this gateway's own " ++
          "tool_use blocks (agytc- ids)")))
      | some cursor =>
        .ok ⟨r.parts ++ [resultText (bl.get? (js "content"))],
          if r.cursor.all fun c => c.2 < cursor.2 then some cursor else r.cursor⟩
    else if strField? bl (js "type") = some (js "text") then
      match nonEmptyStr? (bl.get? (js "text")) with
      | some text => .ok { r with parts := r.parts ++ [js "[user context] " ++ text] }
      | none => .ok r
    else .ok r

/-- The content blocks of a last user turn. -/
def lastBlocks (raws : List Json) : List Json :=
  match raws.getLast?.bind Json.asObject? with
  | none => []
  | some m =>
    if strField? m (js "role") = some (js "user") then
      match m.get? (js "content") with
      | some (.arr blocks) => blocks
      | _ => []
    else []

def systemBlock (block : Json) : Except MessageError JsString :=
  match block.asObject? with
  | none => .error (.bad (js "system blocks must be objects"))
  | some b =>
    match if strField? b (js "type") = some (js "text") then strField? b (js "text") else none with
    | some text => .ok text
    | none => .error (.bad (js "system blocks must be \x7btype:\"text\", text\x7d"))

/-- `system`: a string, or text blocks. -/
def systemText : Option Json → Except MessageError JsString
  | none => .ok []
  | some .null => .ok []
  | some (.str s) => .ok s
  | some (.arr blocks) => (blocks.mapM systemBlock).map (js "\n\n").intercalate
  | some _ => .error (.bad (js "system must be a string or an array of text blocks"))

/-- The turns, where tool results in the last one replace it by a continuation. -/
def withContinuation (messages : List PromptMessage) (results : ToolResults) : List PromptMessage :=
  match results.cursor with
  | some (callId, _) => messages.dropLast ++ [⟨⟨.tool, (js "\n\n").intercalate results.parts, some callId⟩, none⟩]
  | none => messages

def mapMessages (system : Option Json) (raws : List Json) : Except MessageError MappedMessages :=
  if raws = [] then .error (.bad (js "messages must be a non-empty array"))
  else do
    let messages ← raws.mapM (mapMessage decodeImageSource)
    let results ← (lastBlocks raws).foldlM ToolResults.add ⟨[], none⟩
    let text ← systemText system
    return { messages := withContinuation messages results, system := if text = [] then none else some text }

end Anthropic

/-! ### Replies as messages -/

/-- A mirrored tool call. -/
def ToolCallBlock.json (t : ToolCallBlock) : Json :=
  .obj [(js "id", .str t.id), (js "type", .str (js "function")),
    (js "function", .obj [(js "name", .str t.name), (js "arguments", .str t.arguments)])]

/-- `choices[0].message`. -/
def OpenAiChatCompletion.message (r : OpenAiChatCompletion) : Json :=
  .obj ([(js "role", .str (js "assistant")), (js "content", (r.content.map Json.str).getD .null)] ++
    if r.toolCalls = [] then [] else [(js "tool_calls", .arr (r.toolCalls.map ToolCallBlock.json))])

def AnthropicMessageBlock.json : AnthropicMessageBlock → Json
  | .text s => .obj [(js "type", .str (js "text")), (js "text", .str s)]
  | .thinking s => .obj [(js "type", .str (js "thinking")), (js "thinking", .str s)]
  | .toolUse id name input =>
    .obj [(js "type", .str (js "tool_use")), (js "id", .str id), (js "name", .str name), (js "input", input)]

/-- The role and the content of the message. -/
def AnthropicMessage.message (r : AnthropicMessage) : Json :=
  .obj [(js "role", .str (js "assistant")), (js "content", .arr (r.content.map AnthropicMessageBlock.json))]

end AgyProxy
