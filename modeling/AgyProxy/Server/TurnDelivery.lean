import AgyProxy.Host.PromptSpec
import AgyProxy.Server.ChatMessages

/-!
# AgyProxy.Server.TurnDelivery — one client's session over one account and one model

* `Client`: the adapter a client talks to, with the rest of its body.
* `GatewayReply`: a reply as the client appends it to its history.
* `ClientSession.step`: a request, its reply, and the settlement of its run at any later moment.

A request behind the first is taken only while a conversation is bound; that the engine refuses a blank prompt is
left out.
-/

namespace AgyProxy

open Js Lib

/-- Which images can be decoded. -/
structure ImageDecoders where
  dataUrl : JsString → Except MessageError Unit
  source : Option Json → Except MessageError Unit

inductive Client
  | openAi (jsonObject : Bool)
  | anthropic (system : Option Json)

inductive GatewayReply
  | completion (r : OpenAiChatCompletion)
  | message (r : AnthropicMessage)

namespace GatewayReply

/-- The message appended to the history. -/
def json : GatewayReply → Json
  | completion r => r.message
  | message r => r.message

/-- The context text of a block in a later request. -/
def blockText : AnthropicMessageBlock → JsString
  | .text s => s
  | .thinking s => if s = [] then [] else js "[thinking replay] " ++ s
  | .toolUse _ name _ => js "[tool_use replay] " ++ name

/-- The text the adapters map a reply to. -/
def text : GatewayReply → JsString
  | completion r => r.content.getD []
  | message r => r.content.flatMap blockText

end GatewayReply

namespace Client

variable (images : ImageDecoders)

/-- The adapter's mapping of a request. -/
def request : Client → List Json → Except MessageError MappedMessages
  | openAi jsonObject, raws => mapChatMessages images.dataUrl jsonObject raws
  | anthropic system, raws => mapMessages images.source system raws

/-- One message of a request; `none` for a part of the instructions. -/
def turn? : Client → Json → Except MessageError (Option PromptMessage)
  | openAi _, raw => (mapChatMessage images.dataUrl raw).map Sum.getRight?
  | anthropic _, raw => (mapMessage images.source raw).map some

/-- Whether the gateway answers the client with such a reply. -/
def gets : Client → GatewayReply → Bool
  | openAi _, .completion _ => true
  | anthropic _, .message _ => true
  | _, _ => false

end Client

/-- A request the engine took. -/
structure SentTurn where
  messages : List PromptMessage
  binding : Option SessionBinding
  prompt : JsString
  assembled : ∃ system promptSuffix, prompt = withStaged (assemblePrompt messages binding system) promptSuffix

/-- The positions of the messages the prompt carries. -/
def SentTurn.carried (t : SentTurn) : List ℕ := carriedPositions t.messages t.binding

structure ClientSession where
  history : List Json
  store : SessionStore
  turns : List SentTurn
  answers : List GatewayReply
  /-- a request without its reply -/
  waiting : Bool
  /-- the turns whose runs settled -/
  settled : List ℕ
  /-- history: the conversation a run without a binding created -/
  created : Option JsString

inductive SessionAction
  /-- the client adds to the instructions -/
  | instruct (message : Json)
  /-- the client sends its history with a new user turn; `promptSuffix` refers to its staged images -/
  | send (turn : Json) (promptSuffix : JsString)
  | reply (r : GatewayReply)
  /-- the run of a turn settles -/
  | settle (k : ℕ) (last : AttemptResult)

/-- What stays fixed over a session: `call` without its account and its message count. -/
structure SessionParams where
  client : Client
  images : ImageDecoders
  call : EngineCall
  account : AccountId

namespace SessionParams

def callFor (p : SessionParams) (messages : List PromptMessage) : EngineCall :=
  { p.call with account := some p.account, messageCount := messages.length }

end SessionParams

namespace ClientSession

def init (store : SessionStore) : ClientSession := ⟨[], store, [], [], false, [], none⟩

/-- The conversation a prompt went to. -/
def conversation (s : ClientSession) (t : SentTurn) : Option JsString :=
  (t.binding.map SessionBinding.conversationId).or s.created

/-- The engine takes a mapped request: binding lookup, prompt assembly. -/
def take (p : SessionParams) (s : ClientSession) (turn : Json) (promptSuffix : JsString) (mapped : MappedMessages) :
    Option ClientSession :=
  let found := (p.callFor mapped.messages).lookupBinding s.store
  if mapped.messages.getLast?.any PromptMessage.isUser && (s.turns.isEmpty || found.1.isSome) then
    some { s with
      history := s.history ++ [turn]
      store := found.2.foldl StoreOp.apply s.store
      turns := s.turns ++ [{
        messages := mapped.messages
        binding := found.1
        prompt := withStaged (assemblePrompt mapped.messages found.1 mapped.system) promptSuffix
        assembled := ⟨mapped.system, promptSuffix, rfl⟩ }]
      waiting := true }
  else none

/-- The settlement of a run. -/
def settleRun (p : SessionParams) (s : ClientSession) (k : ℕ) (t : SentTurn) (last : AttemptResult) : ClientSession :=
  let call := (p.callFor t.messages).dispatchCall t.binding
  { s with
    store := (call.storeOps last).foldl StoreOp.apply s.store
    settled := k :: s.settled
    created := if t.binding.isNone && last.failure.isNone then call.finalId last else s.created }

def step (p : SessionParams) (s : ClientSession) : SessionAction → Option ClientSession
  | .instruct message =>
    match s.waiting, p.client.turn? p.images message with
    | false, .ok none => some { s with history := s.history ++ [message] }
    | _, _ => none
  | .send turn promptSuffix =>
    match s.waiting, p.client.request p.images (s.history ++ [turn]) with
    | false, .ok mapped => s.take p turn promptSuffix mapped
    | _, _ => none
  | .reply r =>
    if s.waiting && p.client.gets r then
      some { s with history := s.history ++ [r.json], answers := s.answers ++ [r], waiting := false }
    else none
  | .settle k last =>
    match s.turns[k]? with
    | some t => if s.settled.contains k then none else some (s.settleRun p k t last)
    | none => none

end ClientSession

end AgyProxy
