import AgyProxy.Server.StreamGrammar

/-!
# AgyProxy.Server.AnthropicGrammar — the event grammar of `POST /v1/messages`

* `SseBlock`: one content block; its deltas are of its type.
* `anthropicStream`: the whole streams, written from their blocks and their terminal.
* `AnthropicWritten`: the parts of such a stream before its terminal, with the state they leave.
* `anthropic_stream_grammar`: **every stream of the leg is one of them**.
-/

namespace AgyProxy

open Js

/-! ### The grammar -/

def AnthropicContentBlock.type : AnthropicContentBlock → AnthropicBlockType
  | text => .text
  | thinking => .thinking
  | toolUse _ _ => .toolUse

/-- The type of the blocks a delta stands in. -/
def AnthropicDelta.type : AnthropicDelta → AnthropicBlockType
  | textDelta _ => .text
  | thinkingDelta _ => .thinking
  | inputJsonDelta _ => .toolUse

/-- A content block with what was streamed into it. -/
structure SseBlock where
  block : AnthropicContentBlock
  deltas : List AnthropicDelta
  fits : ∀ d ∈ deltas, d.type = block.type

namespace SseBlock

/-- The block of index `k` before it is stopped. -/
def openEvents (k : ℕ) (b : SseBlock) : List AnthropicStreamEvent :=
  .contentBlockStart k b.block :: b.deltas.map (.contentBlockDelta k)

/-- The block of index `k`. -/
def events (k : ℕ) (b : SseBlock) : List AnthropicStreamEvent := b.openEvents k ++ [.contentBlockStop k]

/-- A block just started. -/
def start (block : AnthropicContentBlock) : SseBlock := ⟨block, [], by simp⟩

/-- One delta more. -/
def push (b : SseBlock) (d : AnthropicDelta) (h : d.type = b.block.type) : SseBlock where
  block := b.block
  deltas := b.deltas ++ [d]
  fits := by
    intro d' hd'
    rcases List.mem_append.mp hd' with hold | hnew
    · exact b.fits d' hold
    · rw [List.mem_singleton.mp hnew, h]

end SseBlock

/-- The blocks from index `k` on, one after the other. -/
def blocksEvents : ℕ → List SseBlock → List AnthropicStreamEvent
  | _, [] => []
  | k, b :: bs => b.events k ++ blocksEvents (k + 1) bs

inductive AnthropicTerminal
  | message (stopReason : StopReason) (stopSequence : Option JsString) (outputTokens : ℚ)
      (thinkingTokens : Option ℚ)
  | error (body : AnthropicErrorBody)

namespace AnthropicTerminal

def events : AnthropicTerminal → List AnthropicStreamEvent
  | message stopReason stopSequence outputTokens thinkingTokens =>
    [.messageDelta stopReason stopSequence outputTokens thinkingTokens, .messageStop]
  | error body => [.error body]

def isError : AnthropicTerminal → Bool
  | error _ => true
  | _ => false

end AnthropicTerminal

/-- The start of the message and the blocks. -/
def anthropicBlocks (args : AnthropicStreamArgs) (blocks : List SseBlock) : List AnthropicStreamEvent :=
  .messageStart args.id args.model args.inputTokens :: blocksEvents 0 blocks

/-- A whole stream. -/
def anthropicStream (args : AnthropicStreamArgs) (blocks : List SseBlock) (terminal : AnthropicTerminal) :
    List AnthropicStreamEvent :=
  anthropicBlocks args blocks ++ terminal.events

/-- What a message that started has written, at a state of the adapter. -/
inductive AnthropicWritten (args : AnthropicStreamArgs) : List AnthropicStreamEvent → AnthropicStreamState → Prop
  | between (blocks : List SseBlock) : AnthropicWritten args (anthropicBlocks args blocks) ⟨true, blocks.length, none⟩
  | inside (blocks : List SseBlock) (b : SseBlock) :
      AnthropicWritten args (anthropicBlocks args blocks ++ b.openEvents blocks.length)
        ⟨true, blocks.length, some b.block.type⟩

/-! ### The adapter keeps it -/

section Adapter

variable {args : AnthropicStreamArgs} {events : List AnthropicStreamEvent} {state : AnthropicStreamState}
  {type : AnthropicBlockType} {block : AnthropicContentBlock}

theorem blocksEvents_concat (b : SseBlock) : ∀ (k : ℕ) (bs : List SseBlock),
    blocksEvents k (bs ++ [b]) = blocksEvents k bs ++ b.events (k + bs.length)
  | k, [] => by
    show b.events k ++ [] = [] ++ b.events (k + 0)
    rw [List.append_nil, List.nil_append, Nat.add_zero]
  | k, c :: bs => by
    show c.events k ++ blocksEvents (k + 1) (bs ++ [b]) = (c.events k ++ blocksEvents (k + 1) bs) ++ _
    rw [blocksEvents_concat b (k + 1) bs, List.append_assoc, List.length_cons]
    congr 3
    omega

theorem anthropicBlocks_concat (blocks : List SseBlock) (b : SseBlock) :
    anthropicBlocks args (blocks ++ [b]) = anthropicBlocks args blocks ++ b.events blocks.length := by
  unfold anthropicBlocks
  rw [blocksEvents_concat, Nat.zero_add]
  rfl

theorem openEvents_push (k : ℕ) (b : SseBlock) (d : AnthropicDelta) (h : d.type = b.block.type) :
    (b.push d h).openEvents k = b.openEvents k ++ [.contentBlockDelta k d] := by
  show _ :: (b.deltas ++ [d]).map _ = _
  rw [List.map_append]
  rfl

/-- After a close every block is stopped. -/
theorem AnthropicWritten.closeBlock (h : AnthropicWritten args events state) :
    ∃ blocks, events ++ state.closeBlock.1 = anthropicBlocks args blocks ∧
      state.closeBlock.2 = ⟨true, blocks.length, none⟩ := by
  cases h with
  | between blocks => exact ⟨blocks, List.append_nil _, rfl⟩
  | inside blocks b =>
    refine ⟨blocks ++ [b], ?_, ?_⟩
    · rw [anthropicBlocks_concat, List.append_assoc]
      rfl
    · rw [List.length_append]
      rfl

/-- After an opening a block of the type is open. -/
theorem AnthropicWritten.openBlock (h : AnthropicWritten args events state) (hblock : block.type = type) :
    ∃ (blocks : List SseBlock) (b : SseBlock), b.block.type = type ∧
      events ++ (state.openBlock type block).1 = anthropicBlocks args blocks ++ b.openEvents blocks.length ∧
      (state.openBlock type block).2 = ⟨true, blocks.length, some b.block.type⟩ := by
  unfold AnthropicStreamState.openBlock
  by_cases hopen : state.openType = some type
  · rw [if_pos hopen, List.append_nil]
    cases h with
    | between blocks => exact absurd hopen (by simp)
    | inside blocks b => exact ⟨blocks, b, Option.some.inj hopen, rfl, rfl⟩
  · rw [if_neg hopen]
    obtain ⟨blocks, hevents, hstate⟩ := h.closeBlock
    refine ⟨blocks, .start block, hblock, ?_, ?_⟩
    · show events ++ (state.closeBlock.1 ++ [.contentBlockStart state.closeBlock.2.blockIndex block]) = _
      rw [← List.append_assoc, hevents, hstate]
      rfl
    · show ({ state.closeBlock.2 with openType := some type } : AnthropicStreamState) = _
      rw [hstate, ← hblock]
      rfl

theorem AnthropicWritten.deltaEvents (h : AnthropicWritten args events state) (block : AnthropicContentBlock)
    (text : JsString) (delta : AnthropicDelta) (hblock : block.type = type) (hdelta : delta.type = type) :
    AnthropicWritten args (events ++ (state.deltaEvents type block text delta).1)
      (state.deltaEvents type block text delta).2 := by
  obtain ⟨blocks, b, hb, hevents, hstate⟩ := h.openBlock hblock
  unfold AnthropicStreamState.deltaEvents
  dsimp only
  rw [← List.append_assoc, hevents, hstate, List.append_assoc]
  by_cases htext : text = []
  · rw [if_pos htext, List.append_nil]
    exact .inside blocks b
  · have hfits : delta.type = b.block.type := hdelta.trans hb.symm
    rw [if_neg htext, ← openEvents_push _ b delta hfits]
    exact .inside blocks (b.push delta hfits)

/-- A tool call is started, filled and stopped at once. -/
theorem AnthropicWritten.toolUseEvents (h : AnthropicWritten args events state) (id name arguments : JsString) :
    AnthropicWritten args (events ++ (state.toolUseEvents id name arguments).1)
      (state.toolUseEvents id name arguments).2 := by
  obtain ⟨blocks, hevents, hstate⟩ := h.closeBlock
  unfold AnthropicStreamState.toolUseEvents
  dsimp only
  rw [← List.append_assoc, hevents, hstate]
  have hwritten : AnthropicWritten args _ _ := .between
    (blocks ++ [(SseBlock.start (.toolUse id name)).push (.inputJsonDelta arguments) rfl])
  rw [anthropicBlocks_concat, List.length_append] at hwritten
  exact hwritten

end Adapter

/-- The part of a stream before its terminal; nothing is written before the first chunk. -/
def AnthropicOpen (args : AnthropicStreamArgs) (events : List AnthropicStreamEvent)
    (state : AnthropicStreamState) : Prop :=
  (events = [] ∧ state = ⟨false, 0, none⟩) ∨ AnthropicWritten args events state

section Grammar

variable {args : AnthropicStreamArgs} {events : List AnthropicStreamEvent} {state : AnthropicStreamState}

/-- The first chunk starts the message, and no other. -/
theorem AnthropicOpen.started (h : AnthropicOpen args events state) :
    AnthropicWritten args
      (events ++ if state.messageStarted then [] else [.messageStart args.id args.model args.inputTokens])
      { state with messageStarted := true } := by
  rcases h with ⟨rfl, rfl⟩ | hwritten
  · exact .between []
  · cases hwritten with
    | between blocks =>
      rw [if_pos rfl, List.append_nil]
      exact .between blocks
    | inside blocks b =>
      rw [if_pos rfl, List.append_nil]
      exact .inside blocks b

theorem anthropicAdapter_content (g : LegGuards) {chunk : StreamChunk} (hchunk : chunk.isFinish = false)
    (h : AnthropicOpen args events state) :
    AnthropicOpen args (events ++ (anthropicAdapter args g chunk state).1) (anthropicAdapter args g chunk state).2 := by
  have hwritten := h.started
  refine Or.inr ?_
  unfold anthropicAdapter anthropicStreamEvents
  dsimp only
  rw [← List.append_assoc]
  cases chunk with
  | textDelta index text => exact hwritten.deltaEvents .text text (.textDelta text) rfl rfl
  | reasoningDelta index text => exact hwritten.deltaEvents .thinking text (.thinkingDelta text) rfl rfl
  | blockEnd index block =>
    cases block with
    | toolCall id name arguments => exact hwritten.toolUseEvents id name arguments
    | text | reasoning =>
      dsimp only
      rw [List.append_nil]
      exact hwritten
  | finish => exact absurd hchunk Bool.noConfusion
  | blockStart | usage =>
    dsimp only
    rw [List.append_nil]
    exact hwritten

/-- A finish stops the open block; the failures end in the error, the others in the message. -/
theorem anthropicAdapter_finish (g : LegGuards) (reason : FinishReason) (rs : Option JsString)
    (h : AnthropicOpen args events state) : ∃ blocks terminal,
      events ++ (anthropicAdapter args g (.finish reason rs) state).1 = anthropicStream args blocks terminal ∧
      terminal.isError = reason.failure?.isSome := by
  obtain ⟨blocks, hevents, -⟩ := h.started.closeBlock
  have hfinish : ∃ terminal : AnthropicTerminal,
      finishEvents g.usage g.stopSequence reason = terminal.events ∧ terminal.isError = reason.failure?.isSome := by
    cases reason with
    | error f | aborted f => exact ⟨.error ⟨(anthropicStatusFor f.code f.message).type, f.message⟩, rfl, rfl⟩
    | stop | toolCalls | maxTokens => exact ⟨.message _ _ _ _, rfl, rfl⟩
  obtain ⟨terminal, hterminal, hkind⟩ := hfinish
  refine ⟨blocks, terminal, ?_, hkind⟩
  unfold anthropicAdapter anthropicStreamEvents anthropicStream
  dsimp only
  rw [← List.append_assoc, ← List.append_assoc, hevents, hterminal]

def anthropicGrammar (args : AnthropicStreamArgs) : StreamGrammar (anthropicAdapter args) where
  Open := AnthropicOpen args
  Done _ events := ∃ blocks terminal, events = anthropicStream args blocks terminal ∧ terminal.isError = false
  content hchunk h := anthropicAdapter_content _ hchunk h
  terminal hok h := by
    obtain ⟨blocks, terminal, hevents, hkind⟩ := anthropicAdapter_finish _ _ _ h
    rw [hok] at hkind
    exact ⟨blocks, terminal, hevents, hkind⟩

end Grammar

/-! ### Every stream of the leg -/

section Leg

variable (args : AnthropicStreamArgs) (params : StreamMeta) {body : List StreamChunk}

theorem anthropic_init_streaming : (anthropicGrammar args).Streaming (.init params ⟨false, 0, none⟩) :=
  ⟨Or.inl ⟨rfl, rfl⟩, rfl, rfl⟩

/-- The terminal is written from a leg in its loop, behind what the holdback withheld. -/
theorem anthropic_onFinish {leg : AnthropicLeg} (h : (anthropicGrammar args).Streaming leg) (reason : FinishReason)
    (rs : Option JsString) : ∃ blocks terminal,
      (leg.onFinish args reason rs).frames = anthropicStream args blocks terminal ∧
      terminal.isError = reason.failure?.isSome ∧ (leg.onFinish args reason rs).abortReason = none := by
  have hflush := (anthropicGrammar args).isOpen_flush h.isOpen
  have habort : (leg.flush (anthropicAdapter args)).2.abortReason = none :=
    (StreamLeg.flush_flags leg).trans h.abortReason
  unfold AnthropicLeg.onFinish
  dsimp only
  cases hfail : reason.failure? with
  | some f =>
    obtain ⟨blocks, terminal, hframes, hkind⟩ := anthropicAdapter_finish
      (leg.flush (anthropicAdapter args)).2.guards reason rs hflush
    rw [hfail] at hkind
    exact ⟨blocks, terminal, hframes, hkind, habort⟩
  | none =>
    generalize (if reason.isToolCalls = true then (leg.flush (anthropicAdapter args)).2.guards.stopSequence
      else (leg.flush (anthropicAdapter args)).1.or (leg.flush (anthropicAdapter args)).2.guards.stopSequence) = stop
    obtain ⟨blocks, terminal, hframes, hkind⟩ := (anthropicGrammar args).done_emitFinish
      { (leg.flush (anthropicAdapter args)).2 with
        guards := { (leg.flush (anthropicAdapter args)).2.guards with stopSequence := stop } } rs hfail hflush
    exact ⟨blocks, terminal, hframes, hkind, habort⟩

/-- **The event grammar**: whatever the engine streams before its finish, the leg writes one message start, the
blocks by index, each stopped before the next, and one terminal; an error ends it exactly when the engine
failed and the budget had not ended the stream before. -/
theorem anthropic_stream_grammar (reason : FinishReason) (rs : Option JsString)
    (hbody : ∀ c ∈ body, c.isFinish = false) : ∃ blocks terminal,
      (streamAnthropicMessages args params (body ++ [.finish reason rs])).frames =
        anthropicStream args blocks terminal ∧
      (terminal.isError = true ↔ reason.failure?.isSome = true ∧
        (streamAnthropicMessages args params (body ++ [.finish reason rs])).abortReason = none) := by
  unfold streamAnthropicMessages
  rcases (anthropicGrammar args).run_finish (E := AnthropicLeg.onFinish args)
    (anthropic_init_streaming args params) hbody with ⟨hstream, hrun⟩ | ⟨hcut, hrun⟩
  · obtain ⟨blocks, terminal, hframes, hkind, habort⟩ := anthropic_onFinish args hstream reason rs
    rw [hrun]
    refine ⟨blocks, terminal, hframes, ?_⟩
    rw [hkind]
    exact ⟨fun h => ⟨h, habort⟩, fun h => h.1⟩
  · obtain ⟨blocks, terminal, hframes, hkind⟩ := hcut.done
    have hcut' := hcut.abortReason
    rw [hrun]
    refine ⟨blocks, terminal, hframes, ?_⟩
    rw [hkind]
    refine ⟨Bool.noConfusion, ?_⟩
    rintro ⟨-, habort⟩
    rw [habort] at hcut'
    exact absurd hcut' Bool.noConfusion

/-- Text, a tool call and more text: the holdback gives up its tail behind the tool block. -/
theorem anthropic_stream_grammar_tail : ∃ blocks terminal,
    (streamAnthropicMessages ⟨js "m", js "opus", 3⟩ ⟨[js "stop"], none⟩
      ([.textDelta 0 (js "a st"), .blockEnd 1 (.toolCall (js "t") (js "f") (js "\x7b\x7d"))] ++
        [.finish .toolCalls none])).frames = anthropicStream ⟨js "m", js "opus", 3⟩ blocks terminal ∧
    (terminal.isError = true ↔ FinishReason.toolCalls.failure?.isSome = true ∧
      (streamAnthropicMessages ⟨js "m", js "opus", 3⟩ ⟨[js "stop"], none⟩
        ([.textDelta 0 (js "a st"), .blockEnd 1 (.toolCall (js "t") (js "f") (js "\x7b\x7d"))] ++
          [.finish .toolCalls none])).abortReason = none) :=
  anthropic_stream_grammar _ _ _ _ (by decide)

end Leg

end AgyProxy
