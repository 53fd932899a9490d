import AgyProxy.Server.AnthropicAdapter
import AgyProxy.Server.OpenAiAdapter
import AgyProxy.Server.StreamGuards

/-!
# AgyProxy.Server.StreamLegs — the two SSE legs of `src/server/app.ts`

* `streamOpenAiChat`, `streamAnthropicMessages`: each leg over the chunks of the engine.
* `StreamLeg`: the locals both loops keep; what their bodies share is stated once, with the leg's adapter as
  a parameter.

The heartbeats, the log lines, a client that leaves and an engine that throws are left out.
-/

namespace AgyProxy

open Js

/-- What the mapped request fixes for the guards. -/
structure StreamMeta where
  stop : List JsString
  maxTokens : Option ℚ

/-- The locals the chunks and the guards decide. -/
structure LegGuards where
  usage : Option TokenUsage
  holdback : Option StopHoldback
  budget : Option OutputBudget
  stopSequence : Option JsString
  budgetCut : Bool

/-- One leg; `σ` is the state of its adapter and `F` a frame of its stream. -/
structure StreamLeg (σ F : Type) where
  guards : LegGuards
  state : σ
  /-- history: what was written to the stream -/
  frames : List F
  /-- the message of the abort reason, once the leg aborted the engine call -/
  abortReason : Option JsString
  /-- the `for await` goes on -/
  running : Bool

def LegGuards.init (params : StreamMeta) : LegGuards where
  usage := none
  holdback := if params.stop = [] then none else some (.new params.stop)
  budget := params.maxTokens.map .new
  stopSequence := none
  budgetCut := false

namespace StreamChunk

def isFinish : StreamChunk → Bool
  | finish _ _ => true
  | _ => false

/-- The generated text a chunk is charged for. -/
def charged? : StreamChunk → Option JsString
  | textDelta _ text => some text
  | reasoningDelta _ text => some text
  | blockEnd _ (.toolCall _ _ arguments) => some arguments
  | _ => none

end StreamChunk

/-- Budget accounting reads the raw generated text, and stops once it cut. -/
def LegGuards.charge (g : LegGuards) (raw : StreamChunk) : LegGuards :=
  match g.budget, raw.charged? with
  | some budget, some text =>
    if g.budgetCut then g
    else { g with budget := some (budget.charge text).2, budgetCut := (budget.charge text).1 }
  | _, _ => g

namespace StreamLeg

section Body

variable {σ F : Type} (adapter : LegGuards → StreamChunk → σ → List F × σ)

def init (params : StreamMeta) (state : σ) : StreamLeg σ F := ⟨.init params, state, [], none, true⟩

def emit (leg : StreamLeg σ F) (chunk : StreamChunk) : StreamLeg σ F :=
  let (frames, state) := adapter leg.guards chunk leg.state
  { leg with state, frames := leg.frames ++ frames }

/-- The withheld text, when there is some. -/
def emitTail (leg : StreamLeg σ F) (text : JsString) : StreamLeg σ F :=
  if text = [] then leg else leg.emit adapter (.textDelta 0 text)

/-- Close the holdback and flush its tail; the stop it matched. -/
def flush (leg : StreamLeg σ F) : Option JsString × StreamLeg σ F :=
  match leg.guards.holdback with
  | none => (none, leg)
  | some holdback =>
    let ((text, matched), holdback) := holdback.close
    let leg := { leg with guards := { leg.guards with holdback := some holdback } }
    (matched, leg.emitTail adapter text)

/-- The terminal of a successful span; a guard that hit overrides its reason. -/
def emitFinish (leg : StreamLeg σ F) (raw : StreamChunk) : StreamLeg σ F :=
  leg.emit adapter
    (if leg.guards.budgetCut || leg.guards.stopSequence.isSome then
      .finish (if leg.guards.budgetCut then .maxTokens else .stop) none
    else raw)

/-- Text goes through the holdback. -/
def deliver (leg : StreamLeg σ F) (raw : StreamChunk) : StreamLeg σ F :=
  match raw, leg.guards.holdback with
  | .textDelta index text, some holdback =>
    let (out, holdback) := holdback.push text
    { leg with guards := { leg.guards with holdback := some holdback } }.emit adapter (.textDelta index out)
  | raw, _ => leg.emit adapter raw

/-- The cap is reached: abort the engine, flush, end the stream. -/
def cut (leg : StreamLeg σ F) : StreamLeg σ F :=
  let (_, leg) := { leg with abortReason := some (js "output-budget") }.flush adapter
  { leg.emit adapter (.finish .maxTokens none) with running := false }

/-- The loop's body after the accounting, for a chunk that is no finish. -/
def onContent (leg : StreamLeg σ F) (raw : StreamChunk) : StreamLeg σ F :=
  let leg := leg.deliver adapter raw
  if leg.guards.budgetCut then leg.cut adapter else leg

variable (onFinish : StreamLeg σ F → FinishReason → Option JsString → StreamLeg σ F)

/-- The loop's body. -/
def onChunk (leg : StreamLeg σ F) : StreamChunk → StreamLeg σ F
  | .usage usage => { leg with guards := { leg.guards with usage := some usage } }
  | .finish reason replayState => onFinish leg reason replayState
  | raw => { leg with guards := leg.guards.charge raw }.onContent adapter raw

/-- The `for await`, left by `return` and `break`. -/
def run (leg : StreamLeg σ F) (chunks : List StreamChunk) : StreamLeg σ F :=
  chunks.foldl (fun leg raw => if leg.running then leg.onChunk adapter onFinish raw else leg) leg

end Body

end StreamLeg

namespace FinishReason

/-- The failure of the kinds `'error'` and `'aborted'`. -/
def failure? : FinishReason → Option LlmFailure
  | error f => some f
  | aborted f => some f
  | _ => none

def isToolCalls : FinishReason → Bool
  | toolCalls => true
  | _ => false

end FinishReason

/-! ### `POST /v1/chat/completions` -/

abbrev OpenAiLeg := StreamLeg OpenAiStreamState OpenAiFrame

def openAiAdapter (args : OpenAiStreamArgs) (g : LegGuards) : StreamChunk → OpenAiStreamState →
    List OpenAiFrame × OpenAiStreamState :=
  openAiStreamFrames args g.usage

/-- A failed span ends before its holdback is flushed. -/
def OpenAiLeg.onFinish (args : OpenAiStreamArgs) (leg : OpenAiLeg) (reason : FinishReason)
    (replayState : Option JsString) : OpenAiLeg :=
  match reason.failure? with
  | some f =>
    { leg with frames := leg.frames ++ [.error (engineFailureToHttp f.message f.code).body, .done], running := false }
  | none =>
    let (matched, leg) := leg.flush (openAiAdapter args)
    let stopSequence := if reason.isToolCalls then leg.guards.stopSequence else matched.or leg.guards.stopSequence
    { leg with guards := { leg.guards with stopSequence } }.emitFinish (openAiAdapter args) (.finish reason replayState)

def streamOpenAiChat (args : OpenAiStreamArgs) (params : StreamMeta) (chunks : List StreamChunk) : OpenAiLeg :=
  (StreamLeg.init params ⟨false, 0, false⟩).run (openAiAdapter args) (OpenAiLeg.onFinish args) chunks

/-! ### `POST /v1/messages` -/

abbrev AnthropicLeg := StreamLeg AnthropicStreamState AnthropicStreamEvent

def anthropicAdapter (args : AnthropicStreamArgs) (g : LegGuards) : StreamChunk → AnthropicStreamState →
    List AnthropicStreamEvent × AnthropicStreamState :=
  anthropicStreamEvents args g.usage g.stopSequence

/-- The holdback is flushed before every terminal, so no generated text is lost behind it. -/
def AnthropicLeg.onFinish (args : AnthropicStreamArgs) (leg : AnthropicLeg) (reason : FinishReason)
    (replayState : Option JsString) : AnthropicLeg :=
  let (matched, leg) := leg.flush (anthropicAdapter args)
  match reason.failure? with
  | some _ => { leg.emit (anthropicAdapter args) (.finish reason replayState) with running := false }
  | none =>
    let stopSequence := if reason.isToolCalls then leg.guards.stopSequence else matched.or leg.guards.stopSequence
    { leg with guards := { leg.guards with stopSequence } }.emitFinish (anthropicAdapter args)
      (.finish reason replayState)

def streamAnthropicMessages (args : AnthropicStreamArgs) (params : StreamMeta) (chunks : List StreamChunk) :
    AnthropicLeg :=
  (StreamLeg.init params ⟨false, 0, none⟩).run (anthropicAdapter args) (AnthropicLeg.onFinish args) chunks

end AgyProxy
