import AgyProxy.Host.Span

/-!
# AgyProxy.Host.MapperSpec — the chunk protocol of a span

* `SpanBlock`, `renderBlocks`: what a well-formed span is, a list of finished blocks with consecutive
  indices, each prose block ending with the concatenation of its deltas.
* `Streaming`, `OpenAs`, `Closed`, `Complete`: the block trace as an invariant of the mapper's state and
  of everything yielded so far; one triple for each generator of the mapper.
* `driveSpan_complete`: every span, on every exit, is blocks, one usage and one finish.
-/

namespace AgyProxy

open Js Lib Emit

/-! ### Block traces -/

section Blocks

/-- A finished block: prose with its deltas, or a tool call. -/
inductive SpanBlock
  | prose (type : ProseType) (deltas : List JsString)
  | tool (id name arguments : JsString)

/-- An open prose block with the deltas it has so far. -/
def openChunks (k : ℕ) (type : ProseType) (deltas : List JsString) : List StreamChunk :=
  .blockStart k type.blockType :: deltas.map (type.delta k)

def SpanBlock.chunks (k : ℕ) : SpanBlock → List StreamChunk
  | prose type deltas => openChunks k type deltas ++ [.blockEnd k (type.block deltas.flatten)]
  | tool id name arguments => [.blockStart k .toolCall, .blockEnd k (.toolCall id name arguments)]

/-- Finished blocks one after the other, numbered from `k`. -/
def renderBlocks : ℕ → List SpanBlock → List StreamChunk
  | _, [] => []
  | k, b :: bs => b.chunks k ++ renderBlocks (k + 1) bs

theorem renderBlocks_append : ∀ (k : ℕ) (as bs : List SpanBlock),
    renderBlocks k (as ++ bs) = renderBlocks k as ++ renderBlocks (k + as.length) bs
  | k, [], bs => by simp [renderBlocks]
  | k, a :: as, bs => by
    rw [List.cons_append, renderBlocks, renderBlocks, renderBlocks_append (k + 1) as bs, List.append_assoc,
      List.length_cons]
    congr 3
    omega

/-- One more block at the end. -/
theorem renderBlocks_concat (bs : List SpanBlock) (b : SpanBlock) :
    renderBlocks 0 (bs ++ [b]) = renderBlocks 0 bs ++ b.chunks bs.length := by
  rw [renderBlocks_append, Nat.zero_add]
  simp [renderBlocks]

/-- A complete span: blocks, exactly one usage and right behind it exactly one finish. -/
def Complete (out : List StreamChunk) : Prop :=
  ∃ (blocks : List SpanBlock) (usage : TokenUsage) (reason : FinishReason) (replay : Option JsString),
    out = renderBlocks 0 blocks ++ [.usage usage, .finish reason replay]

end Blocks

/-! ### The trace as an invariant of the mapper -/

section Trace

variable {m : EventMapper} {out : List StreamChunk}

/-- Everything yielded is finished blocks, no block is open. -/
def Closed (m : EventMapper) (out : List StreamChunk) : Prop :=
  m.finished = false ∧ m.openType = none ∧
    ∃ blocks, blocks.length = m.blockIdx ∧ out = renderBlocks 0 blocks

/-- Behind the finished blocks a block of the type is open, with its deltas in `openAcc`. -/
def OpenAs (type : ProseType) (m : EventMapper) (out : List StreamChunk) : Prop :=
  m.finished = false ∧ m.openType = some type ∧
    ∃ blocks deltas, blocks.length = m.blockIdx ∧ m.openAcc = deltas.flatten ∧
      out = renderBlocks 0 blocks ++ openChunks m.blockIdx type deltas

/-- An unfinished mapper between two events. -/
def Streaming (m : EventMapper) (out : List StreamChunk) : Prop :=
  Closed m out ∨ ∃ type, OpenAs type m out

/-- A finished mapper. -/
def Finished (m : EventMapper) (out : List StreamChunk) : Prop := m.finished = true ∧ Complete out

/-- The invariant of a span. -/
def SpanTrace (m : EventMapper) (out : List StreamChunk) : Prop := Streaming m out ∨ Finished m out

theorem Streaming.not_finished (h : Streaming m out) : m.finished = false := by
  rcases h with h | ⟨_, h⟩ <;> exact h.1

theorem streaming_new (runId : RunId) (cutOnTool saw : Bool) :
    Streaming (EventMapper.new runId cutOnTool saw) [] :=
  Or.inl ⟨rfl, rfl, [], rfl, rfl⟩

/-- A change of the bookkeeping that does not concern the blocks. -/
theorem Streaming.of_eq {m' : EventMapper} (h : Streaming m out) (hf : m'.finished = m.finished)
    (hi : m'.blockIdx = m.blockIdx) (ht : m'.openType = m.openType) (ha : m'.openAcc = m.openAcc) :
    Streaming m' out := by
  rcases h with h | ⟨type, h⟩
  · exact Or.inl (by unfold Closed at h ⊢; rwa [hf, hi, ht])
  · exact Or.inr ⟨type, by unfold OpenAs at h ⊢; rwa [hf, hi, ht, ha]⟩

theorem OpenAs.of_eq {type : ProseType} {m' : EventMapper} (h : OpenAs type m out)
    (hf : m'.finished = m.finished) (hi : m'.blockIdx = m.blockIdx) (ht : m'.openType = m.openType)
    (ha : m'.openAcc = m.openAcc) : OpenAs type m' out := by
  unfold OpenAs at h ⊢
  rwa [hf, hi, ht, ha]

end Trace

/-! ### One triple for each generator -/

section Triples

open EventMapper

theorem closeOpen_triple : Triple Streaming closeOpen Closed := by
  rintro m out (h | ⟨type, hf, ht, blocks, deltas, hlen, hacc, rfl⟩)
  · rw [closeOpen, h.2.1]
    simpa using h
  · rw [closeOpen, ht]
    refine ⟨hf, rfl, blocks ++ [.prose type deltas], by simp [hlen], ?_⟩
    rw [renderBlocks_concat, SpanBlock.chunks, hlen, hacc, List.append_assoc]

theorem startBlock_triple (type : ProseType) : Triple Closed (startBlock type) (OpenAs type) := by
  rintro m out ⟨hf, -, blocks, hlen, rfl⟩
  exact ⟨hf, rfl, blocks, [], hlen, rfl, rfl⟩

theorem ensureBlock_triple (type : ProseType) : Triple Streaming (ensureBlock type) (OpenAs type) := by
  intro m out h
  unfold ensureBlock
  by_cases ht : m.openType = some type
  · rw [if_pos ht, List.append_nil]
    rcases h with h | ⟨type', h⟩
    · exact absurd (h.2.1.symm.trans ht) (by simp)
    · obtain rfl : type' = type := Option.some.inj (h.2.1.symm.trans ht)
      exact h
  · rw [if_neg ht]
    exact Triple.seq closeOpen_triple (startBlock_triple type) m out h

theorem appendDelta_triple (type : ProseType) (delta : JsString) :
    Triple (OpenAs type) (appendDelta delta) (OpenAs type) := by
  intro m out h
  unfold appendDelta
  by_cases hd : delta = []
  · rw [if_pos hd, List.append_nil]
    exact h
  · obtain ⟨hf, ht, blocks, deltas, hlen, hacc, rfl⟩ := h
    have hch : (if m.openType = some ProseType.text then StreamChunk.textDelta m.blockIdx delta
        else .reasoningDelta m.blockIdx delta) = type.delta m.blockIdx delta := by
      rw [ht]
      cases type <;> rfl
    rw [if_neg hd, hch]
    refine ⟨hf, ht, blocks, deltas ++ [delta], hlen, by simp [hacc], ?_⟩
    simp [openChunks]

/-- The delta of a step goes into the open block. -/
theorem emitStep_triple (type : ProseType) (fragment : Bool) (key text : JsString) :
    Triple (OpenAs type) (emitStep fragment key text) (OpenAs type) := by
  intro m out h
  exact Triple.seq (Triple.modify fun _ _ hm => hm.of_eq rfl rfl rfl rfl) (appendDelta_triple type _) m out h

theorem OpenAs.streaming {type : ProseType} (m : EventMapper) (out : List StreamChunk)
    (h : OpenAs type m out) : Streaming m out := Or.inr ⟨type, h⟩

/-- A block that is opened if needed and then gets a delta. -/
theorem block_triple (type : ProseType) {f : MapperEmit} (hf : Triple (OpenAs type) f (OpenAs type)) :
    Triple Streaming (seq (ensureBlock type) f) Streaming :=
  Triple.seq (ensureBlock_triple type) (hf.conseq (fun _ _ h => h) OpenAs.streaming)

theorem finishWith_triple (usage : TokenUsage) (reason : FinishReason) (replay : Option JsString) :
    Triple Closed (finishWith usage reason replay) Finished := by
  rintro m out ⟨-, -, blocks, -, rfl⟩
  exact ⟨rfl, blocks, usage, reason, replay, rfl⟩

theorem toolBlock_triple (absIndex : ℕ) (tool : AgyToolInfo) :
    Triple Closed (toolBlock absIndex tool) Closed := by
  rintro m out ⟨hf, ht, blocks, hlen, rfl⟩
  refine ⟨hf, ht, blocks ++ [.tool (mirrorCallId m.runId absIndex) MIRROR_TOOL_NAME
    (mirrorArguments m.runId absIndex tool)], by simp [toolBlock, hlen], ?_⟩
  rw [renderBlocks_concat, hlen]
  rfl

/-- A generator that leaves the block trace as it is. -/
theorem nop_triple : Triple Streaming nop SpanTrace := Triple.nop fun _ _ h => Or.inl h

theorem mapText_triple (s : StepEvent) : Triple Streaming (mapText s) SpanTrace := by
  unfold mapText
  split_ifs
  · exact nop_triple
  · refine Triple.seq (Triple.modify fun m out h => ?_)
      ((block_triple .text (emitStep_triple .text _ _ _)).conseq (fun _ _ h => h) fun _ _ => Or.inl)
    exact h.of_eq rfl rfl rfl rfl

theorem mapThinking_triple (s : StepEvent) : Triple Streaming (mapThinking s) SpanTrace :=
  (block_triple .reasoning (emitStep_triple .reasoning _ _ _)).conseq (fun _ _ h => h) fun _ _ => Or.inl

theorem mapSubagent_triple (s : StepEvent) : Triple Streaming (mapSubagent s) SpanTrace :=
  (block_triple .reasoning (appendDelta_triple .reasoning _)).conseq (fun _ _ h => h) fun _ _ => Or.inl

theorem cutSpan_triple (absIndex : ℕ) (tool : AgyToolInfo) : Triple Streaming (cutSpan absIndex tool) SpanTrace :=
  Triple.seq closeOpen_triple (Triple.seq (toolBlock_triple absIndex tool)
    ((finishWith_triple _ _ _).conseq (fun _ _ h => h) fun _ _ => Or.inr))

theorem mapTool_triple (s : StepEvent) (tool : AgyToolInfo) (absIndex : ℕ) :
    Triple Streaming (mapTool s tool absIndex) SpanTrace := by
  intro m out h
  have hann : Streaming (announce s.stepKey m) out := h.of_eq rfl rfl rfl rfl
  unfold mapTool
  split_ifs
  · exact nop_triple m out h
  · exact nop_triple m out h
  · exact Or.inl (by rwa [List.append_nil])
  · exact Triple.seq (Triple.modify fun m out h => h.of_eq rfl rfl rfl rfl) (cutSpan_triple absIndex tool) m out h

theorem mapStep_triple (s : StepEvent) (absIndex : ℕ) : Triple Streaming (mapStep s absIndex) SpanTrace := by
  unfold mapStep
  split
  · exact mapText_triple s
  · exact mapThinking_triple s
  · exact mapSubagent_triple s
  · split
    · exact mapTool_triple s _ absIndex
    · exact nop_triple
  · exact nop_triple
  · exact nop_triple
  · exact nop_triple

theorem fallbackText_triple (r : ResultEvent) : Triple Streaming (fallbackText r) Streaming := by
  intro m out h
  unfold fallbackText
  split_ifs
  · exact block_triple .text (appendDelta_triple .text _) m out h
  · rwa [List.append_nil]

theorem errorNote_triple (r : ResultEvent) : Triple Streaming (errorNote r) Streaming := by
  unfold errorNote
  split
  · split_ifs
    · exact Triple.nop fun _ _ h => h
    · exact block_triple .reasoning (appendDelta_triple .reasoning _)
  · exact Triple.nop fun _ _ h => h

/-- Closing and the terminal pair. -/
theorem finishResult_triple (slot : Option RawUsage) (r : ResultEvent) :
    Triple Streaming (seq closeOpen (finishResult slot r)) SpanTrace :=
  Triple.seq closeOpen_triple ((finishWith_triple _ _ _).conseq (fun _ _ h => h) fun _ _ => Or.inr)

theorem mapResult_triple (slot : Option RawUsage) (r : ResultEvent) :
    Triple Streaming (mapResult slot r) SpanTrace := by
  unfold mapResult
  split_ifs
  · exact Triple.seq (fallbackText_triple r) (finishResult_triple slot r)
  · exact nop_triple
  · exact Triple.seq (fallbackText_triple r) (Triple.seq (errorNote_triple r) (finishResult_triple slot r))

/-- **One event keeps the block trace**; behind the finish nothing is emitted. -/
theorem map_triple (slot : Option RawUsage) (ev : AgyEvent) (absIndex : ℕ) :
    Triple SpanTrace (EventMapper.map slot ev absIndex) SpanTrace := by
  rintro m out (h | h)
  · unfold EventMapper.map
    rw [h.not_finished]
    cases ev with
    | init _ => exact nop_triple m out h
    | garbage _ => exact nop_triple m out h
    | step s => exact mapStep_triple s absIndex m out h
    | result r => exact mapResult_triple slot r m out h
  · unfold EventMapper.map
    rw [h.1, if_pos rfl, List.append_nil]
    exact Or.inr h

/-- The failure funnel finishes what is not finished. -/
theorem emitFailure_triple (f : RecordingFailure) : Triple SpanTrace (emitFailure f) Finished := by
  rintro m out (h | h)
  · unfold emitFailure
    rw [h.not_finished]
    exact Triple.seq closeOpen_triple (finishWith_triple _ _ _) m out h
  · unfold emitFailure
    rw [h.1, if_pos rfl, List.append_nil]
    exact h

end Triples

/-! ### Spans -/

theorem pump_triple (slots : ℕ → Option RawUsage) : ∀ (evs : List AgyEvent) (i : ℕ),
    Triple SpanTrace (pump slots i evs) SpanTrace
  | [], _ => Triple.nop fun _ _ h => h
  | ev :: evs, i => by
    intro m out h
    have h1 := map_triple (slots i) ev i m out h
    rw [pump]
    split_ifs
    · exact h1
    · rw [← List.append_assoc]
      exact pump_triple slots evs (i + 1) _ _ h1

/-- **Every span is complete**, whatever the log, the cursor, the mode, the usage slot and the settlement:
numbered blocks with at most one open at a time, then one usage, one finish and nothing more. -/
theorem driveSpan_complete (runId : RunId) (cutOnTool saw : Bool) (slots : ℕ → Option RawUsage)
    (events : List AgyEvent) (failure : Option RecordingFailure) (cursor : ℕ) :
    Complete (driveSpan runId cutOnTool saw slots events failure cursor) :=
  (Triple.seq (pump_triple slots (events.drop cursor) cursor) (emitFailure_triple _) _ []
    (Or.inl (streaming_new runId cutOnTool saw))).2

end AgyProxy
