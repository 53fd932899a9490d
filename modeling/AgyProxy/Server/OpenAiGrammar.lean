import AgyProxy.Server.StreamGrammar

/-!
# AgyProxy.Server.OpenAiGrammar — the frame grammar of `POST /v1/chat/completions`

* `OpenAiReply`: the deltas of a stream behind its role; the tool calls are numbered from 0.
* `OpenAiEnded`: the whole streams, written from a reply and their end.
* `OpenAiOpen`: the parts of such a stream before its end, with the state they leave.
* `openAi_stream_grammar`: **every stream of the leg is one of them, however the engine ends**.
-/

namespace AgyProxy

open Js

/-! ### The grammar -/

namespace OpenAiDelta

/-- A delta with content: no role and not the empty one of the finish. -/
def isContent : OpenAiDelta → Bool
  | role => false
  | empty => false
  | _ => true

def toolIndex? : OpenAiDelta → Option ℕ
  | toolCall index _ _ _ => some index
  | _ => none

end OpenAiDelta

/-- The number of the tool calls. -/
def toolCallCount (deltas : List OpenAiDelta) : ℕ := (deltas.filterMap OpenAiDelta.toolIndex?).length

/-- What a stream says between its role and its finish. -/
structure OpenAiReply where
  deltas : List OpenAiDelta
  content : ∀ d ∈ deltas, d.isContent = true
  consecutive : deltas.filterMap OpenAiDelta.toolIndex? = List.range (toolCallCount deltas)

namespace OpenAiReply

def nothing : OpenAiReply := ⟨[], by simp, rfl⟩

theorem toolCallCount_concat (deltas : List OpenAiDelta) (d : OpenAiDelta) :
    toolCallCount (deltas ++ [d]) = toolCallCount deltas + d.toolIndex?.toList.length := by
  unfold toolCallCount
  rw [List.filterMap_append, List.length_append]
  cases d <;> rfl

/-- One delta more; a tool call has the next number. -/
def push (r : OpenAiReply) (d : OpenAiDelta) (hcontent : d.isContent = true)
    (hindex : ∀ index, d.toolIndex? = some index → index = toolCallCount r.deltas) : OpenAiReply where
  deltas := r.deltas ++ [d]
  content := by
    intro d' hd'
    rcases List.mem_append.mp hd' with hold | hnew
    · exact r.content d' hold
    · rw [List.mem_singleton.mp hnew, hcontent]
  consecutive := by
    rw [toolCallCount_concat, List.filterMap_append, r.consecutive]
    cases hd : d.toolIndex? with
    | none =>
      show _ ++ (d.toolIndex?.toList) = _
      rw [hd]
      exact List.append_nil _
    | some index =>
      show _ ++ (d.toolIndex?.toList) = _
      rw [hd, hindex index hd]
      exact (List.range_succ).symm

end OpenAiReply

namespace OpenAiStreamArgs

variable (args : OpenAiStreamArgs)

/-- A choice chunk on the wire: with `include_usage` its usage is null, else it has none. -/
def choiceFrame (choice : OpenAiChoice) : OpenAiFrame :=
  .chunk ⟨args.id, args.created, args.model, [choice], if args.includeUsage then .null else .absent⟩

/-- The role, then the deltas. -/
def replyFrames (r : OpenAiReply) : List OpenAiFrame :=
  args.choiceFrame ⟨.role, none⟩ :: r.deltas.map fun d => args.choiceFrame ⟨d, none⟩

end OpenAiStreamArgs

/-- The whole streams of a leg that saw the usage: a reply with its finish reason, the counts where they were asked
for and the end mark; or what was sent before a failure, the error and the end mark. -/
inductive OpenAiEnded (args : OpenAiStreamArgs) (usage : Option TokenUsage) :
    Option OpenAiErrorBody → List OpenAiFrame → Prop
  | completed (r : OpenAiReply) (reason : OpenAiFinishReason) :
      OpenAiEnded args usage none (args.replyFrames r ++ args.choiceFrame ⟨.empty, some reason⟩ ::
        (if args.includeUsage then [args.usageChunk usage] else []) ++ [.done])
  | failed (sent : Option OpenAiReply) (body : OpenAiErrorBody) :
      OpenAiEnded args usage (some body) (sent.elim [] args.replyFrames ++ [.error body, .done])

/-- A stream that goes on, at a state of the adapter. -/
inductive OpenAiOpen (args : OpenAiStreamArgs) : List OpenAiFrame → OpenAiStreamState → Prop
  | fresh : OpenAiOpen args [] ⟨false, 0, false⟩
  | sent (r : OpenAiReply) (sawTool : Bool) :
      OpenAiOpen args (args.replyFrames r) ⟨true, toolCallCount r.deltas, sawTool⟩

/-! ### The adapter keeps it -/

section Adapter

variable {args : OpenAiStreamArgs} {frames : List OpenAiFrame} {state : OpenAiStreamState}

theorem replyFrames_push (r : OpenAiReply) (d : OpenAiDelta) (hcontent : d.isContent = true)
    (hindex : ∀ index, d.toolIndex? = some index → index = toolCallCount r.deltas) :
    args.replyFrames (r.push d hcontent hindex) = args.replyFrames r ++ [args.choiceFrame ⟨d, none⟩] := by
  show _ :: (r.deltas ++ [d]).map _ = _
  rw [List.map_append]
  rfl

/-- How a frame of the core goes out. -/
def OpenAiStreamArgs.wire (args : OpenAiStreamArgs) (frames : List OpenAiFrame) : List OpenAiFrame :=
  if args.includeUsage then frames.map OpenAiFrame.withUsageKey else frames

theorem wire_nil : args.wire [] = [] := by
  unfold OpenAiStreamArgs.wire
  split <;> rfl

theorem wire_append (a b : List OpenAiFrame) : args.wire (a ++ b) = args.wire a ++ args.wire b := by
  unfold OpenAiStreamArgs.wire
  split
  · exact List.map_append
  · rfl

theorem wire_choice (choice : OpenAiChoice) :
    args.wire [args.openAiChunkOf choice] = [args.choiceFrame choice] := by
  unfold OpenAiStreamArgs.wire OpenAiStreamArgs.choiceFrame
  cases args.includeUsage <;> rfl

theorem wire_done : args.wire [.done] = [.done] := by
  unfold OpenAiStreamArgs.wire
  split <;> rfl

theorem wire_usageChunk (usage : Option TokenUsage) : args.wire [args.usageChunk usage] = [args.usageChunk usage] := by
  unfold OpenAiStreamArgs.wire
  split <;> rfl

/-- The first chunk sends the role, and no other. -/
theorem OpenAiOpen.role (h : OpenAiOpen args frames state) : ∃ r : OpenAiReply,
    frames ++ args.wire (args.roleFrames state) = args.replyFrames r ∧ state.toolIndex = toolCallCount r.deltas := by
  cases h with
  | fresh =>
    refine ⟨.nothing, ?_, rfl⟩
    show args.wire [args.openAiChunkOf ⟨.role, none⟩] = _
    rw [wire_choice]
    rfl
  | sent r sawTool =>
    refine ⟨r, ?_, rfl⟩
    show _ ++ args.wire [] = _
    rw [wire_nil, List.append_nil]

/-- A text that is not empty is one delta. -/
theorem OpenAiOpen.delta {r : OpenAiReply} (hindex : state.toolIndex = toolCallCount r.deltas) (text : JsString)
    (d : OpenAiDelta) (hcontent : d.isContent = true) (hplain : d.toolIndex? = none) :
    OpenAiOpen args (args.replyFrames r ++ args.wire (OpenAiStreamArgs.deltaFrames args text d))
      { state with firstSent := true } := by
  have hstate : ∀ r' : OpenAiReply, toolCallCount r'.deltas = toolCallCount r.deltas →
      OpenAiOpen args (args.replyFrames r') { state with firstSent := true } := by
    intro r' hcount
    have hsent : OpenAiOpen args _ _ := .sent r' state.sawToolThisSpan
    rw [hcount, ← hindex] at hsent
    exact hsent
  unfold OpenAiStreamArgs.deltaFrames
  by_cases htext : text = []
  · rw [if_pos htext]
    rw [wire_nil, List.append_nil]
    exact hstate r rfl
  · have hnone : ∀ index, d.toolIndex? = some index → index = toolCallCount r.deltas := by
      intro index hsome
      rw [hplain] at hsome
      exact absurd hsome (by simp)
    rw [if_neg htext, wire_choice, ← replyFrames_push r d hcontent hnone]
    refine hstate _ ?_
    show toolCallCount (r.deltas ++ [d]) = _
    rw [OpenAiReply.toolCallCount_concat, hplain]
    rfl

/-- A tool call takes the next number. -/
theorem OpenAiOpen.toolCall {r : OpenAiReply} (hindex : state.toolIndex = toolCallCount r.deltas)
    (id name arguments : JsString) :
    OpenAiOpen args
      (args.replyFrames r ++ args.wire [args.openAiChunkOf ⟨.toolCall state.toolIndex id name arguments, none⟩])
      ⟨true, state.toolIndex + 1, true⟩ := by
  have hnext : ∀ index, (OpenAiDelta.toolCall state.toolIndex id name arguments).toolIndex? = some index →
      index = toolCallCount r.deltas := by
    intro index hsome
    rw [← hindex]
    exact (Option.some.inj hsome).symm
  rw [wire_choice, ← replyFrames_push r _ rfl hnext]
  have hcount : toolCallCount (r.push _ rfl hnext).deltas = state.toolIndex + 1 := by
    show toolCallCount (r.deltas ++ [_]) = _
    rw [OpenAiReply.toolCallCount_concat, hindex]
    rfl
  rw [← hcount]
  exact .sent _ true

theorem openAiAdapter_content (g : LegGuards) {chunk : StreamChunk} (hchunk : chunk.isFinish = false)
    (h : OpenAiOpen args frames state) :
    OpenAiOpen args (frames ++ (openAiAdapter args g chunk state).1) (openAiAdapter args g chunk state).2 := by
  obtain ⟨r, hrole, hindex⟩ := h.role
  have hsilent : OpenAiOpen args (args.replyFrames r) { state with firstSent := true } := by
    have hsent : OpenAiOpen args _ _ := .sent r state.sawToolThisSpan
    rw [← hindex] at hsent
    exact hsent
  show OpenAiOpen args (frames ++ args.wire (openAiStreamFramesCore args g.usage chunk state).1)
    (openAiStreamFramesCore args g.usage chunk state).2
  unfold openAiStreamFramesCore
  dsimp only
  cases chunk with
  | textDelta index text =>
    dsimp only
    rw [wire_append, ← List.append_assoc, hrole]
    exact .delta hindex text _ rfl rfl
  | reasoningDelta index text =>
    dsimp only
    rw [wire_append, ← List.append_assoc, hrole]
    exact .delta hindex text _ rfl rfl
  | blockEnd index block =>
    cases block with
    | toolCall id name arguments =>
      dsimp only
      rw [wire_append, ← List.append_assoc, hrole]
      exact .toolCall hindex id name arguments
    | text | reasoning =>
      dsimp only
      rw [hrole]
      exact hsilent
  | finish => exact absurd hchunk Bool.noConfusion
  | blockStart | usage =>
    dsimp only
    rw [hrole]
    exact hsilent

/-- A finish sends the reason, the counts where they were asked for, and the end mark. -/
theorem openAiAdapter_finish (g : LegGuards) (reason : FinishReason) (rs : Option JsString)
    (h : OpenAiOpen args frames state) :
    OpenAiEnded args g.usage none (frames ++ (openAiAdapter args g (.finish reason rs) state).1) := by
  obtain ⟨r, hrole, -⟩ := h.role
  show OpenAiEnded args g.usage none
    (frames ++ args.wire (openAiStreamFramesCore args g.usage (.finish reason rs) state).1)
  unfold openAiStreamFramesCore
  dsimp only
  have hcounts : args.wire (if args.includeUsage = true then [args.usageChunk g.usage] else []) =
      if args.includeUsage = true then [args.usageChunk g.usage] else [] := by
    split
    · exact wire_usageChunk _
    · exact wire_nil
  have hframes : frames ++ args.wire (args.roleFrames state ++ args.openAiChunkOf ⟨.empty, some reason.openAi⟩ ::
        (if args.includeUsage = true then [args.usageChunk g.usage] else []) ++ [.done]) =
      args.replyFrames r ++ args.choiceFrame ⟨.empty, some reason.openAi⟩ ::
        (if args.includeUsage = true then [args.usageChunk g.usage] else []) ++ [.done] := by
    rw [wire_append, wire_append, wire_done, ← List.singleton_append, wire_append, wire_choice, hcounts,
      ← List.append_assoc, ← List.append_assoc, hrole]
    simp only [List.append_assoc, List.cons_append, List.nil_append]
  rw [hframes]
  exact .completed r reason.openAi

def openAiGrammar (args : OpenAiStreamArgs) : StreamGrammar (openAiAdapter args) where
  Open := OpenAiOpen args
  Done usage frames := OpenAiEnded args usage none frames
  content hchunk h := openAiAdapter_content _ hchunk h
  terminal _ h := openAiAdapter_finish _ _ _ h

end Adapter

/-! ### Every stream of the leg -/

/-- How the engine's chunks end. -/
inductive EngineEnd
  | finished (reason : FinishReason) (replayState : Option JsString)
  /-- an exception out of the `for await`, in the words of the `catch` -/
  | thrown (body : OpenAiErrorBody)

/-- The failure of an end. -/
def EngineEnd.failure? : EngineEnd → Option OpenAiErrorBody
  | finished reason _ => reason.failure?.map fun f => (engineFailureToHttp f.message f.code).body
  | thrown body => some body

/-- The `catch` of the leg. -/
def OpenAiLeg.onThrow (leg : OpenAiLeg) (body : OpenAiErrorBody) : OpenAiLeg :=
  { leg with frames := leg.frames ++ [.error body, .done], running := false }

/-- The leg over the chunks before the end and the end itself; a leg that was left hears of no exception. -/
def streamOpenAiChatTo (args : OpenAiStreamArgs) (params : StreamMeta) (body : List StreamChunk) :
    EngineEnd → OpenAiLeg
  | .finished reason replayState => streamOpenAiChat args params (body ++ [.finish reason replayState])
  | .thrown error =>
    let leg := streamOpenAiChat args params body
    if leg.running then leg.onThrow error else leg

section Leg

variable (args : OpenAiStreamArgs) (params : StreamMeta) {body : List StreamChunk}

theorem openAi_init_streaming : (openAiGrammar args).Streaming (.init params ⟨false, 0, false⟩) :=
  ⟨.fresh, rfl, rfl⟩

/-- A stream that goes on ends well-formed in an error. -/
theorem OpenAiOpen.failed {frames : List OpenAiFrame} {state : OpenAiStreamState} (h : OpenAiOpen args frames state)
    (usage : Option TokenUsage) (error : OpenAiErrorBody) :
    OpenAiEnded args usage (some error) (frames ++ [.error error, .done]) := by
  cases h with
  | fresh => exact .failed none error
  | sent r sawTool => exact .failed (some r) error

theorem openAi_onFinish {leg : OpenAiLeg} (h : (openAiGrammar args).Streaming leg) (reason : FinishReason)
    (rs : Option JsString) :
    OpenAiEnded args (leg.onFinish args reason rs).guards.usage (EngineEnd.finished reason rs).failure?
      (leg.onFinish args reason rs).frames ∧ (leg.onFinish args reason rs).abortReason = none := by
  have hflush := (openAiGrammar args).isOpen_flush h.isOpen
  have habort : (leg.flush (openAiAdapter args)).2.abortReason = none :=
    (StreamLeg.flush_flags leg).trans h.abortReason
  show OpenAiEnded args _ (reason.failure?.map _) _ ∧ _
  unfold OpenAiLeg.onFinish
  cases hfail : reason.failure? with
  | some f =>
    dsimp only [Option.map_some]
    exact ⟨OpenAiOpen.failed args h.isOpen _ _, h.abortReason⟩
  | none =>
    dsimp only [Option.map_none]
    generalize (if reason.isToolCalls = true then (leg.flush (openAiAdapter args)).2.guards.stopSequence
      else (leg.flush (openAiAdapter args)).1.or (leg.flush (openAiAdapter args)).2.guards.stopSequence) = stop
    have hdone := (openAiGrammar args).done_emitFinish
      { (leg.flush (openAiAdapter args)).2 with
        guards := { (leg.flush (openAiAdapter args)).2.guards with stopSequence := stop } } rs hfail hflush
    exact ⟨hdone, habort⟩

/-- **The frame grammar**: however the engine ends, the leg wrote a whole stream, with its failure exactly when the
budget had not ended the stream before. -/
theorem openAi_stream_grammar (ending : EngineEnd) (hbody : ∀ c ∈ body, c.isFinish = false) :
    OpenAiEnded args (streamOpenAiChatTo args params body ending).guards.usage
      (if (streamOpenAiChatTo args params body ending).abortReason.isSome then none else ending.failure?)
      (streamOpenAiChatTo args params body ending).frames := by
  have hinit := openAi_init_streaming args params
  have hkept : ∀ leg : OpenAiLeg, leg.abortReason = none → ¬leg.abortReason.isSome = true := by
    intro leg habort
    rw [habort]
    exact Bool.noConfusion
  cases ending with
  | finished reason rs =>
    rcases (openAiGrammar args).run_finish (E := OpenAiLeg.onFinish args) hinit hbody with
      ⟨hstream, hrun⟩ | ⟨hcut, hrun⟩
    · obtain ⟨hended, habort⟩ := openAi_onFinish args hstream reason rs
      rw [show streamOpenAiChatTo args params body (.finished reason rs) = _ from hrun, if_neg (hkept _ habort)]
      exact hended
    · rw [show streamOpenAiChatTo args params body (.finished reason rs) = _ from hrun, if_pos hcut.abortReason]
      exact hcut.done
  | thrown error =>
    have hrun : (openAiGrammar args).Streaming (streamOpenAiChat args params body) ∨
        (openAiGrammar args).Cut (streamOpenAiChat args params body) :=
      (openAiGrammar args).streaming_run (E := OpenAiLeg.onFinish args) hinit hbody
    rcases hrun with hstream | hcut
    · rw [show streamOpenAiChatTo args params body (.thrown error) = _ from if_pos hstream.running,
        if_neg (hkept (OpenAiLeg.onThrow _ error) hstream.abortReason)]
      exact OpenAiOpen.failed args hstream.isOpen _ _
    · rw [show streamOpenAiChatTo args params body (.thrown error) = _ from
        if_neg (by rw [hcut.running]; exact Bool.noConfusion), if_pos hcut.abortReason]
      exact hcut.done

/-- A text and two tool calls with the counts asked for, until the budget ends the stream. -/
theorem openAi_stream_grammar_cut :
    let args : OpenAiStreamArgs := ⟨js "c", 7, js "opus", true⟩
    let body : List StreamChunk := [.textDelta 0 (js "hi"), .blockEnd 1 (.toolCall (js "t") (js "f") (js "12345678")),
      .blockEnd 2 (.toolCall (js "u") (js "f") (js "2"))]
    OpenAiEnded args (streamOpenAiChatTo args ⟨[], some 2⟩ body (.finished .stop none)).guards.usage
      (if (streamOpenAiChatTo args ⟨[], some 2⟩ body (.finished .stop none)).abortReason.isSome then none
        else (EngineEnd.finished .stop none).failure?)
      (streamOpenAiChatTo args ⟨[], some 2⟩ body (.finished .stop none)).frames :=
  openAi_stream_grammar _ _ _ (by decide)

end Leg

end AgyProxy
