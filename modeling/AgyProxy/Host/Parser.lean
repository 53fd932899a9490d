import AgyProxy.Common.Types

/-!
# AgyProxy.Host.Parser — the NDJSON parser (`src/host/parser.ts`)

`classifyEvent` turns one decoded line into an event.  It calls itself on re-shaped objects, so it
takes the call stack it may use; running out of it is the RangeError the language throws.
`StreamJsonParser` is the line buffer around it: a method returns what it returns or throws, and the
parser it leaves behind, also when it throws.
-/

namespace AgyProxy

open Js

/-! ### Vocabulary -/

def TEXT_STEP_TYPES : List JsString := [js "agent_text", js "agenttext", js "text", js "model_response",
  js "modelresponse", js "message", js "response_text", js "agent_response", js "agentresponse"]
def THINKING_STEP_TYPES : List JsString := [js "thinking", js "thought", js "reasoning"]
def TOOL_STEP_TYPES : List JsString := [js "tool_call", js "toolcall", js "tool", js "tool_use",
  js "tooluse", js "tool_run", js "toolrun", js "function_call"]
def TITLE_STEP_TYPES : List JsString := [js "title"]
def SUBAGENT_STEP_TYPES : List JsString := [js "subagent", js "subagent_message", js "subagent_result"]
def USER_INPUT_STEP_TYPES : List JsString := [js "user_input", js "userinput", js "user_message"]

def NUMERIC_STEP_TYPES : List (ℚ × AgyStepKind) :=
  [(14, .thinking), (15, .text), (23, .title), (5, .tool), (7, .tool), (8, .tool), (9, .tool),
    (17, .tool), (21, .tool), (33, .tool), (101, .tool), (132, .tool), (138, .tool), (139, .tool)]

/-- First of the keys whose value is neither `undefined` nor `null`. -/
def pick (o : Obj) : List JsString → Option Json
  | [] => none
  | k :: ks =>
    match o.get? k with
    | none | some .null => pick o ks
    | some v => some v

def str? : Json → Option JsString
  | .str s => some s
  | _ => none

def nonEmptyStr? : Option Json → Option JsString
  | some (.str s) => if s = [] then none else some s
  | _ => none

/-- The object a value is read as, `{}` when it is not an object. -/
def fieldsOf (v : Option Json) : Obj := (v.bind Json.asObject?).getD []

def normalizeStepKind : Option Json → AgyStepKind
  | some (.num (.fin q)) => (NUMERIC_STEP_TYPES.lookup q).getD .unknown
  | some (.str v) =>
    let s := toLowerCase v
    if s ∈ TEXT_STEP_TYPES then .text
    else if s ∈ THINKING_STEP_TYPES then .thinking
    else if s ∈ TOOL_STEP_TYPES then .tool
    else if s ∈ TITLE_STEP_TYPES then .title
    else if s ∈ SUBAGENT_STEP_TYPES then .subagent
    else if s ∈ USER_INPUT_STEP_TYPES then .userInput
    else .unknown
  | _ => .unknown

def extractText (o : Obj) : JsString :=
  match pick o [js "text", js "content", js "agent_text", js "agentText", js "output_text", js "payload_text"] with
  | some (.str s) => s
  | _ =>
    let payload := fieldsOf (pick o [js "payload", js "step_payload", js "stepPayload"])
    match pick payload [js "text", js "content", js "agent_text", js "agentText"] with
    | some (.str s) => s
    | _ => []

/-- agy streams assistant text as `text_delta` fragments. -/
def extractTextDelta (o : Obj) : Option JsString :=
  (pick o [js "text_delta", js "textDelta"]).bind str?

def extractTool (o : Obj) : Option AgyToolInfo :=
  let src := ((pick o [js "tool_info", js "toolInfo", js "tool", js "tool_call", js "toolCall"]).bind
    Json.asObject?).getD o
  match nonEmptyStr? (pick src [js "name", js "tool_name", js "toolName", js "canonical_name"]) with
  | none => none
  | some name => some {
      name
      args := pick src [js "parameters", js "params", js "input", js "args", js "input_json", js "inputJson"]
      output := pick src [js "output", js "result", js "output_text"]
      error := match src.get? (js "error") with
        | some (.str s) => some s
        | v => nonEmptyStr? ((fieldsOf v).get? (js "message")) }

/-- A finite number; `JSON.parse` also yields infinities. -/
def num? : Option Json → Option ℚ
  | some (.num (.fin q)) => some q
  | _ => none

def parseUsage (v : Option Json) : RawUsage :=
  let o := fieldsOf v
  { inputTokens := num? (o.get? (js "input_tokens"))
    outputTokens := num? (o.get? (js "output_tokens"))
    thinkingTokens := num? (o.get? (js "thinking_tokens"))
    cacheReadTokens := num? (o.get? (js "cache_read_tokens"))
    cacheWriteTokens := num? (o.get? (js "cache_write_tokens"))
    totalTokens := num? (o.get? (js "total_tokens")) }

/-! ### classifyEvent -/

/-- `o.event` when it is a string, else `o.type` when that is one, else the empty string. -/
def discriminator (o : Obj) : JsString :=
  match o.get? (js "event") with
  | some (.str s) => s
  | _ =>
    match o.get? (js "type") with
    | some (.str s) => s
    | _ => []

def isInit (evt : JsString) : Bool := evt == js "init" || evt == js "initialized"
def isStepUpdate (evt : JsString) : Bool := evt == js "step_update" || evt == js "step" || evt == js "stepUpdate"
def isFinal (evt : JsString) : Bool := evt == js "result" || evt == js "done" || evt == js "final"

/-- The object under a nested key, `{}` for an array. -/
def nestedFields : Option Json → Obj
  | some (.obj o) => o
  | _ => []

def classifyInit (o : Obj) : InitEvent :=
  let initSrc := nestedFields (o.get? (js "init"))
  let cid := nonEmptyStr? (pick o [js "conversation_id", js "conversationId", js "session_id", js "sessionId"])
  let model := (pick o [js "model", js "model_name", js "modelName"]).or
    (pick initSrc [js "model", js "model_name", js "modelName"])
  { conversationId := cid.or (nonEmptyStr? (pick initSrc [js "conversation_id", js "conversationId"]))
    model := model.bind str? }

def classifyStep (o : Obj) (seq : ℕ) : StepEvent :=
  let su := nestedFields (pick o [js "step_update", js "stepUpdate", js "step"])
  let src := if su.isEmpty then o else su
  let stepKey :=
    match pick src [js "step_index", js "stepIndex", js "idx", js "index", js "step_idx", js "stepIdx",
      js "id", js "step_id", js "stepId"] with
    | some (.num x) => numberToString x
    | some (.str s) => s
    | _ => natDigits seq
  let stepKind := normalizeStepKind (pick src [js "step_type", js "stepType", js "type"])
  let delta := extractTextDelta src
  { stepKey
    stepKind
    text := delta.getD (extractText src)
    fragment := delta.isSome
    tool := if stepKind = .tool then extractTool src else none
    state := (pick src [js "state"]).bind str?
    usage := match pick src [js "usage"] with
      | some v => if v.asObject?.isSome then some (parseUsage (some v)) else none
      | none => none }

/-- The object a result line is read from. -/
def resultFields (o : Obj) : Obj := fieldsOf ((pick o [js "result"]).or (some (.obj o)))

/-- The first argument is the call stack left for `String(status)`. -/
def classifyResult (stack : ℕ) (o : Obj) : Except JsError ResultEvent := do
  let inner := resultFields o
  let error := pick inner [js "error", js "error_message", js "errorMessage"]
  let ok ← match pick inner [js "status"] with
    | none => pure !(error.any Json.truthy)
    | some status => do
      let s ← status.toJsString stack
      pure (toUpperCase s != js "ERROR")
  return {
    conversationId := ((pick inner [js "conversation_id", js "conversationId"]).bind str?).getD []
    ok
    response := ((pick inner [js "structured_output", js "response", js "text", js "content"]).bind str?).getD []
    error := error.bind str?
    usage := parseUsage (inner.get? (js "usage")) }

/-- Shape test of a bare result envelope: an object `usage` next to a `status` or `response`. -/
def hasResultShape (o : Obj) : Bool :=
  ((o.get? (js "usage")).bind Json.asObject?).isSome &&
    ((o.get? (js "status")).isSome || (o.get? (js "response")).isSome)

/-- Shape test of a flat step. -/
def hasStepShape (o : Obj) : Bool := (o.get? (js "step_type")).isSome || (o.get? (js "stepType")).isSome

/-- The bare nested payload `step_update`, when it is an object. -/
def bareStepUpdate (o : Obj) : Option Json :=
  (pick o [js "step_update", js "stepUpdate"]).filter fun v => v.asObject?.isSome

/-- Parse one decoded JSON value into an event; `none` = ignore.  The first argument is the call
stack left for the recursion on re-shaped objects. -/
def classifyEvent : ℕ → Json → ℕ → Except JsError (Option AgyEvent)
  | 0, _, _ => .error .rangeError
  | stack + 1, .obj o, seq =>
    let evt := discriminator o
    if isInit evt then .ok (some (.init (classifyInit o)))
    else if isStepUpdate evt then .ok (some (.step (classifyStep o seq)))
    else if isFinal evt then (classifyResult stack o).map fun r => some (.result r)
    else if hasResultShape o then
      classifyEvent stack (.obj [(js "event", .str (js "result")), (js "result", .obj o)]) seq
    else if hasStepShape o then
      -- `{ event: 'step_update', ...o }`: an `event` of `o` itself wins over the one put in front
      classifyEvent stack (.obj ([(js "event", .str (js "step_update"))] ++ o)) seq
    else
      match bareStepUpdate o with
      | some su => classifyEvent stack (.obj [(js "event", .str (js "step_update")), (js "step_update", su)]) seq
      | none => .ok none
  | _ + 1, _, _ => .ok none

/-! ### StreamJsonParser -/

structure ParserStats where
  lines : ℕ
  garbage : ℕ
  /-- consecutive garbage lines since the last parsed event -/
  consecutiveGarbage : ℕ
  authUrl : Option JsString
  sawAuthFailure : Bool
  /-- error text from the last result envelope -/
  lastResultError : Option JsString
  overflowDrops : ℕ

def MAX_PENDING_CHARS : ℕ := 1048576
def MAX_STORED_LINE_CHARS : ℕ := 4000
def RECENT_BATCH : ℕ := 512
def maxRecent : ℕ := 2000

def truncateStored (line : JsString) : JsString :=
  if MAX_STORED_LINE_CHARS < line.length then line.take MAX_STORED_LINE_CHARS else line

structure StreamJsonParser where
  buffer : JsString
  seq : ℕ
  stats : ParserStats
  /-- ring buffer of raw stdout lines for diagnostics export -/
  recentLines : List JsString

def StreamJsonParser.new : StreamJsonParser where
  buffer := []
  seq := 0
  stats := { lines := 0, garbage := 0, consecutiveGarbage := 0, authUrl := none, sawAuthFailure := false,
             lastResultError := none, overflowDrops := 0 }
  recentLines := []

/-- `line.trim() === ''`. -/
def isBlank (line : JsString) : Bool := (trim line).isEmpty

def pushRecent (recent : List JsString) (line : JsString) : List JsString :=
  let recent := recent ++ [truncateStored line]
  if maxRecent + RECENT_BATCH < recent.length then recent.drop RECENT_BATCH else recent

/-- What `takeLine` books for a line before it is decoded. -/
def ParserStats.noteLine (st : ParserStats) (line : JsString) : ParserStats :=
  { st with
    lines := st.lines + 1
    sawAuthFailure := st.sawAuthFailure || looksLikeAuthFailure line
    -- an empty match is falsy and is not stored
    authUrl := st.authUrl.or ((extractAuthUrl line).filter fun u => !u.isEmpty) }

def ParserStats.noteGarbage (st : ParserStats) : ParserStats :=
  { st with garbage := st.garbage + 1, consecutiveGarbage := st.consecutiveGarbage + 1 }

def ParserStats.noteEvent (st : ParserStats) : AgyEvent → ParserStats
  | .result r => { st with lastResultError := r.error, consecutiveGarbage := 0 }
  | _ => { st with consecutiveGarbage := 0 }

namespace StreamJsonParser

variable (stack : ℕ)

def takeLine (p : StreamJsonParser) (line : JsString) : Except JsError (Option AgyEvent) × StreamJsonParser :=
  if isBlank line then (.ok none, p)
  else
    let p := { p with stats := p.stats.noteLine line, recentLines := pushRecent p.recentLines line }
    match Json.parse line with
    | none => (.ok (some (.garbage (truncateStored line))), { p with stats := p.stats.noteGarbage })
    | some obj =>
      let seq := p.seq
      let p := { p with seq := p.seq + 1 }
      match classifyEvent stack obj seq with
      | .error e => (.error e, p)
      | .ok none => (.ok (some (.garbage line)), { p with stats := p.stats.noteGarbage })
      | .ok (some ev) => (.ok (some ev), { p with stats := p.stats.noteEvent ev })

/-- The `takeLine` calls of one `feed`; a throw leaves the rest of the chunk's lines unread. -/
def takeLines (p : StreamJsonParser) : List JsString → Except JsError (List AgyEvent) × StreamJsonParser
  | [] => (.ok [], p)
  | line :: lines =>
    match takeLine stack p line with
    | (.error e, p') => (.error e, p')
    | (.ok ev, p') =>
      match takeLines p' lines with
      | (.error e, p'') => (.error e, p'')
      | (.ok evs, p'') => (.ok (ev.toList ++ evs), p'')

end StreamJsonParser

/-- `line.replace(/\r$/, '')`. -/
def stripCR (line : JsString) : JsString := if line.getLast? = some 0x0D then line.dropLast else line

/-- The lines a text completes (without their terminators) and the unterminated rest. -/
def splitLines : JsString → List JsString × JsString
  | [] => ([], [])
  | c :: s =>
    let (lines, rest) := splitLines s
    if c = 0x0A then ([] :: lines, rest)
    else
      match lines with
      | [] => ([], c :: rest)
      | l :: ls => ((c :: l) :: ls, rest)

/-- The lines `feed` hands to `takeLine` for a joined buffer. -/
def completeLines (pending : JsString) : List JsString := (splitLines pending).1.map stripCR

/-- The unterminated rest of a joined buffer. -/
def unterminated (pending : JsString) : JsString := (splitLines pending).2

namespace StreamJsonParser

variable (stack : ℕ)

/-- Feed a stdout chunk; returns the events completed by it.  The buffer is written only after the
loop, so a throw leaves it as it was. -/
def feed (p : StreamJsonParser) (chunk : JsString) : Except JsError (List AgyEvent) × StreamJsonParser :=
  let pending := p.buffer ++ chunk
  match takeLines stack p (completeLines pending) with
  | (.error e, p') => (.error e, p')
  | (.ok out, p') =>
    let rest := unterminated pending
    if MAX_PENDING_CHARS < rest.length then
      (.ok out, { p' with
        buffer := []
        stats := { p'.stats with overflowDrops := p'.stats.overflowDrops + 1
                                 consecutiveGarbage := p'.stats.consecutiveGarbage + 1 } })
    else (.ok out, { p' with buffer := rest })

/-- Flush a trailing line without a newline. -/
def flush (p : StreamJsonParser) : Except JsError (List AgyEvent) × StreamJsonParser :=
  let rest := p.buffer
  let p := { p with buffer := [] }
  if isBlank rest then (.ok [], p)
  else
    match takeLine stack p rest with
    | (.error e, p') => (.error e, p')
    | (.ok ev, p') => (.ok ev.toList, p')

end StreamJsonParser

end AgyProxy
