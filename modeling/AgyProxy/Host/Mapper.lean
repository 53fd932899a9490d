import AgyProxy.Host.Recording
import AgyProxy.Lib.Emit
import Mathlib.Logic.Function.Basic

/-!
# AgyProxy.Host.Mapper — events to chunks (`src/host/mapper.ts`)

`EventMapper` is the state of one mapper instance; its generators are `Emit`s over it.  A completed tool
step cuts the span when `cutOnTool` is set.  The shared usage tracker is a slot: `map` reads it for a
result, and `noted` is the slot after the `noteStepUsage` call `map` makes for a step.
-/

namespace AgyProxy

open Js Lib

def usageFromRaw (raw : RawUsage) : TokenUsage where
  inputTokens := raw.inputTokens.getD 0
  outputTokens := raw.outputTokens.getD 0
  cacheReadTokens := raw.cacheReadTokens
  cacheWriteTokens := raw.cacheWriteTokens
  reasoningTokens := raw.thinkingTokens

/-- Suffix-delta: emit only what grew; fall back to a newline and the full text. -/
def suffixDelta (prev next : JsString) : JsString :=
  if next = prev then []
  else if prev = [] then next
  else if prev.isPrefixOf next then next.drop prev.length
  else js "\n" ++ next

def MIRROR_TOOL_NAME : JsString := js "agy_tool"

structure EventMapper where
  /-- run whose event indices mint mirror call ids -/
  runId : RunId
  /-- cut spans on completed tool steps -/
  cutOnTool : Bool
  blockIdx : ℕ
  openType : Option ProseType
  openAcc : JsString
  /-- `Map<string, string>` read with `?? ''` -/
  emittedByKey : JsString → JsString
  announcedTools : List JsString
  sawTextStep : Bool
  finished : Bool

/-- Generator calls of a mapper. -/
abbrev MapperEmit := Emit EventMapper StreamChunk

namespace EventMapper

def new (runId : RunId) (cutOnTool initialSawText : Bool) : EventMapper where
  runId
  cutOnTool
  blockIdx := 0
  openType := none
  openAcc := []
  emittedByKey := fun _ => []
  announcedTools := []
  sawTextStep := initialSawText
  finished := false

/-! ### Blocks -/

def closeOpen : MapperEmit := fun m =>
  match m.openType with
  | none => (m, [])
  | some type =>
    ({ m with blockIdx := m.blockIdx + 1, openType := none, openAcc := [] },
      [.blockEnd m.blockIdx (type.block m.openAcc)])

/-- Open a block of the type after the previous one was closed. -/
def startBlock (type : ProseType) : MapperEmit := fun m =>
  ({ m with openType := some type, openAcc := [] }, [.blockStart m.blockIdx type.blockType])

def ensureBlock (type : ProseType) : MapperEmit := fun m =>
  if m.openType = some type then (m, []) else Emit.seq closeOpen (startBlock type) m

/-- Append to the open block; nothing is emitted for the empty text. -/
def appendDelta (delta : JsString) : MapperEmit := fun m =>
  if delta = [] then (m, [])
  else
    ({ m with openAcc := m.openAcc ++ delta },
      [if m.openType = some .text then .textDelta m.blockIdx delta else .reasoningDelta m.blockIdx delta])

/-- Usage, then finish: the terminal pair. -/
def finishWith (usage : TokenUsage) (reason : FinishReason) (replayState : Option JsString) : MapperEmit :=
  fun m => ({ m with finished := true }, [.usage usage, .finish reason replayState])

/-! ### Steps -/

/-- `emittedByKey.set(key, text)`. -/
def setEmitted (key text : JsString) (m : EventMapper) : EventMapper :=
  { m with emittedByKey := Function.update m.emittedByKey key text }

/-- The delta of a text or thinking step, and what its key then carries: a fragment appends, a
snapshot emits only what grew. -/
def stepDelta (fragment : Bool) (prev text : JsString) : JsString × JsString :=
  if fragment then (text, prev ++ text) else (suffixDelta prev text, text)

/-- Emit the delta of a step into the open block. -/
def emitStep (fragment : Bool) (key text : JsString) : MapperEmit := fun m =>
  let (delta, acc) := stepDelta fragment (m.emittedByKey key) text
  Emit.seq (Emit.modify (setEmitted key acc)) (appendDelta delta) m

def mapText (s : StepEvent) : MapperEmit :=
  if s.text = [] ∧ s.fragment = false then Emit.nop
  else Emit.seq (Emit.modify fun m => { m with sawTextStep := true })
    (Emit.seq (ensureBlock .text) (emitStep s.fragment s.stepKey s.text))

/-- A thinking step is a snapshot whatever its `fragment` says. -/
def mapThinking (s : StepEvent) : MapperEmit :=
  Emit.seq (ensureBlock .reasoning) (emitStep false s.stepKey s.text)

def mapSubagent (s : StepEvent) : MapperEmit :=
  Emit.seq (ensureBlock .reasoning) (appendDelta (js "[agy subagent] " ++ s.text ++ js "\n"))

/-- `JSON.stringify({ run, step, tool, input? })`. -/
def mirrorArguments (runId : RunId) (absIndex : ℕ) (tool : AgyToolInfo) : JsString :=
  Json.stringify (.obj ([(js "run", .str runId.val), (js "step", .num (.fin absIndex)), (js "tool", .str tool.name)] ++
    (tool.args.map fun a => (js "input", a)).toList))

/-- The tool-call block addressed to the mirror tool. -/
def toolBlock (absIndex : ℕ) (tool : AgyToolInfo) : MapperEmit := fun m =>
  ({ m with blockIdx := m.blockIdx + 1 },
    [.blockStart m.blockIdx .toolCall,
     .blockEnd m.blockIdx (.toolCall (mirrorCallId m.runId absIndex) MIRROR_TOOL_NAME
       (mirrorArguments m.runId absIndex tool))])

def announce (key : JsString) (m : EventMapper) : EventMapper :=
  { m with announcedTools := key :: m.announcedTools }

end EventMapper

/-- A tool step is completed when its output or its error is recorded. -/
def AgyToolInfo.completed (tool : AgyToolInfo) : Bool := tool.output.isSome || tool.error.isSome

namespace EventMapper

/-- The cut: close the open block, one tool-call block, zero usage, finish `tool-calls`. -/
def cutSpan (absIndex : ℕ) (tool : AgyToolInfo) : MapperEmit :=
  Emit.seq closeOpen (Emit.seq (toolBlock absIndex tool) (finishWith .zero .toolCalls none))

def mapTool (s : StepEvent) (tool : AgyToolInfo) (absIndex : ℕ) : MapperEmit := fun m =>
  if !tool.completed then (m, [])
  else if s.stepKey ∈ m.announcedTools then (m, [])
  else if !m.cutOnTool then (announce s.stepKey m, [])
  else Emit.seq (Emit.modify (announce s.stepKey)) (cutSpan absIndex tool) m

def mapStep (s : StepEvent) (absIndex : ℕ) : MapperEmit :=
  match s.stepKind with
  | .text => mapText s
  | .thinking => mapThinking s
  | .subagent => mapSubagent s
  | .tool =>
    match s.tool with
    | some tool => mapTool s tool absIndex
    | none => Emit.nop
  | .title | .userInput | .unknown => Emit.nop

/-! ### Results -/

/-- The terminal pair of a result: its replay state is the conversation id, when there is one. -/
def finishResult (slot : Option RawUsage) (r : ResultEvent) : MapperEmit :=
  finishWith (usageFromRaw (slot.getD r.usage)) .stop
    (if r.conversationId = [] then none else some r.conversationId)

/-- The response as text, unless text was already streamed. -/
def fallbackText (r : ResultEvent) : MapperEmit := fun m =>
  if m.sawTextStep = false ∧ r.response ≠ [] then
    Emit.seq (ensureBlock .text) (appendDelta r.response) m
  else (m, [])

/-- The error of a result as a reasoning annotation. -/
def errorNote (r : ResultEvent) : MapperEmit :=
  match r.error with
  | some e =>
    if e = [] then Emit.nop
    else Emit.seq (ensureBlock .reasoning) (appendDelta (js "[agy finished with error] " ++ e ++ js "\n"))
  | none => Emit.nop

def mapResult (slot : Option RawUsage) (r : ResultEvent) : MapperEmit :=
  if r.ok then Emit.seq (fallbackText r) (Emit.seq closeOpen (finishResult slot r))
  -- a bare error with no response stays passive: the engine owns terminal failures
  else if r.response = [] then Emit.nop
  else Emit.seq (fallbackText r) (Emit.seq (errorNote r) (Emit.seq closeOpen (finishResult slot r)))

/-! ### Events -/

/-- Map one event at its position in the recording. -/
def map (slot : Option RawUsage) (ev : AgyEvent) (absIndex : ℕ) : MapperEmit := fun m =>
  if m.finished then (m, [])
  else
    match ev with
    | .init _ | .garbage _ => (m, [])
    | .step s => mapStep s absIndex m
    | .result r => mapResult slot r m

/-- The usage slot after `map`: a step's usage object is noted, also an empty one. -/
def noted (m : EventMapper) (ev : AgyEvent) (slot : Option RawUsage) : Option RawUsage :=
  if m.finished then slot
  else
    match ev with
    | .step s => s.usage.or slot
    | _ => slot

/-- Terminal error or abort: close what is open, zero usage, failure finish with a scrubbed message. -/
def emitFailure (f : RecordingFailure) : MapperEmit := fun m =>
  if m.finished then (m, [])
  else
    let failure : LlmFailure := ⟨scrubTokenMaterial f.message, f.code⟩
    let reason := match f.kind with
      | .error => FinishReason.error failure
      | .aborted => .aborted failure
    Emit.seq closeOpen (finishWith .zero reason none) m

end EventMapper

end AgyProxy
