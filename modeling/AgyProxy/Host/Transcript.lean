import AgyProxy.Host.Span

/-!
# AgyProxy.Host.Transcript — what a mapper says, without the blocks

The abstract mapper: of its state only what later text depends on (`Memory`), of its output only the text,
the reasoning and whether a tool call surfaced (`Said`).  `map_heard` is the refinement: the block mapper
of the source says exactly this.

* `Memory.hear`: one event.  `Memory.listen`: a list of events, stopping where the mapper finishes.
* `pump_heard`: the pump of a span, from the refinement of its single events.
* `pump_append`, `pump_slots`: reading on from where a pump stopped; the usage slot changes usage only.
-/

namespace AgyProxy

open Js Lib Emit EventMapper

/-! ### The abstract mapper -/

/-- What one or more events say to the client. -/
structure Said where
  text : JsString
  reasoning : JsString
  /-- a tool call surfaced and cut the span -/
  cut : Bool

/-- Nothing. -/
def Said.silent : Said := ⟨[], [], false⟩

/-- First one, then the other. -/
def Said.append (a b : Said) : Said := ⟨a.text ++ b.text, a.reasoning ++ b.reasoning, a.cut || b.cut⟩

/-- What a mapper remembers, without its blocks. -/
structure Memory where
  cutOnTool : Bool
  emittedByKey : JsString → JsString
  announcedTools : List JsString
  sawTextStep : Bool
  finished : Bool

def EventMapper.memory (m : EventMapper) : Memory :=
  ⟨m.cutOnTool, m.emittedByKey, m.announcedTools, m.sawTextStep, m.finished⟩

section MemoryFields

variable (m : EventMapper)

@[simp] theorem memory_cutOnTool : m.memory.cutOnTool = m.cutOnTool := rfl

@[simp] theorem memory_emittedByKey : m.memory.emittedByKey = m.emittedByKey := rfl

@[simp] theorem memory_announcedTools : m.memory.announcedTools = m.announcedTools := rfl

@[simp] theorem memory_sawTextStep : m.memory.sawTextStep = m.sawTextStep := rfl

@[simp] theorem memory_finished : m.memory.finished = m.finished := rfl

end MemoryFields

namespace Memory

/-- A new mapper's memory. -/
def new (cutOnTool saw : Bool) : Memory := ⟨cutOnTool, fun _ => [], [], saw, false⟩

/-- The key of a step carries its text on. -/
def carry (b : Memory) (fragment : Bool) (key text : JsString) : Memory :=
  { b with emittedByKey := Function.update b.emittedByKey key (stepDelta fragment (b.emittedByKey key) text).2 }

/-- The delta of a step. -/
def delta (b : Memory) (fragment : Bool) (key text : JsString) : JsString :=
  (stepDelta fragment (b.emittedByKey key) text).1

def hearTool (b : Memory) (key : JsString) (tool : AgyToolInfo) : Memory × Said :=
  if tool.completed = false ∨ key ∈ b.announcedTools then (b, .silent)
  else if b.cutOnTool then
    ({ b with announcedTools := key :: b.announcedTools, finished := true }, ⟨[], [], true⟩)
  else ({ b with announcedTools := key :: b.announcedTools }, .silent)

def hearStep (b : Memory) (s : StepEvent) : Memory × Said :=
  match s.stepKind with
  | .text =>
    if s.text = [] ∧ s.fragment = false then (b, .silent)
    else ({ b.carry s.fragment s.stepKey s.text with sawTextStep := true },
      ⟨b.delta s.fragment s.stepKey s.text, [], false⟩)
  | .thinking => (b.carry false s.stepKey s.text, ⟨[], b.delta false s.stepKey s.text, false⟩)
  | .subagent => (b, ⟨[], js "[agy subagent] " ++ s.text ++ js "\n", false⟩)
  | .tool =>
    match s.tool with
    | some tool => b.hearTool s.stepKey tool
    | none => (b, .silent)
  | .title | .userInput | .unknown => (b, .silent)

/-- The response, when no text was seen. -/
def fallback (b : Memory) (r : ResultEvent) : JsString := if b.sawTextStep = false then r.response else []

end Memory

/-- The annotation of a failed result. -/
def ResultEvent.note (r : ResultEvent) : JsString :=
  match r.error with
  | some e => if e = [] then [] else js "[agy finished with error] " ++ e ++ js "\n"
  | none => []

/-- A result the mapper finishes on: ok, or an error that still carries a response. -/
def ResultEvent.consumable (r : ResultEvent) : Bool := r.ok || !r.response.isEmpty

namespace Memory

def hearResult (b : Memory) (r : ResultEvent) : Memory × Said :=
  if r.consumable then ({ b with finished := true }, ⟨b.fallback r, if r.ok then [] else r.note, false⟩)
  else (b, .silent)

/-- One event. -/
def hear (b : Memory) (ev : AgyEvent) : Memory × Said :=
  if b.finished then (b, .silent)
  else
    match ev with
    | .init _ | .garbage _ => (b, .silent)
    | .step s => b.hearStep s
    | .result r => b.hearResult r

/-- Events in order, up to the one that finishes the mapper. -/
def listen (b : Memory) : List AgyEvent → Memory × Said
  | [] => (b, .silent)
  | ev :: evs =>
    let r := b.hear ev
    if r.1.finished then r
    else
      let r' := listen r.1 evs
      (r'.1, r.2.append r'.2)

end Memory

/-! ### What one event does -/

/-- A completed tool step. -/
def AgyEvent.isToolDone : AgyEvent → Bool
  | .step s => s.stepKind == .tool && s.tool.any AgyToolInfo.completed
  | _ => false

/-- A result the mapper finishes on. -/
def AgyEvent.finishes : AgyEvent → Bool
  | .result r => r.consumable
  | _ => false

/-- A text step the mapper does not skip: it has text or is a fragment. -/
def AgyEvent.opensText : AgyEvent → Bool
  | .step s => s.stepKind == .text && (!s.text.isEmpty || s.fragment)
  | _ => false

/-- What the keys carry after one more event: a snapshot replaces, a fragment appends. -/
def carryEvent (t : JsString → JsString) : AgyEvent → JsString → JsString
  | .step s =>
    if AgyEvent.opensText (.step s) then
      Function.update t s.stepKey (stepDelta s.fragment (t s.stepKey) s.text).2
    else if s.stepKind = .thinking then Function.update t s.stepKey s.text
    else t
  | _ => t

namespace Memory

theorem opensText_iff (s : StepEvent) (hk : s.stepKind = .text) :
    AgyEvent.opensText (.step s) = true ↔ ¬(s.text = [] ∧ s.fragment = false) := by
  show (s.stepKind == .text && (!s.text.isEmpty || s.fragment)) = true ↔ _
  rw [hk]
  cases s.text <;> cases s.fragment <;> simp

variable {b : Memory}

theorem hear_of_finished (h : b.finished = true) (ev : AgyEvent) : b.hear ev = (b, .silent) := if_pos h

theorem hear_step (h : b.finished = false) (s : StepEvent) : b.hear (.step s) = b.hearStep s := by
  unfold hear
  rw [h]
  rfl

theorem hear_result (h : b.finished = false) (r : ResultEvent) : b.hear (.result r) = b.hearResult r := by
  unfold hear
  rw [h]
  rfl

theorem hear_init (e : InitEvent) : b.hear (.init e) = (b, .silent) := by
  unfold hear
  exact ite_self _

theorem hear_garbage (l : JsString) : b.hear (.garbage l) = (b, .silent) := by
  unfold hear
  exact ite_self _

/-- An event that cuts finishes the mapper. -/
theorem hear_cut_finished {ev : AgyEvent} (h : (b.hear ev).2.cut = true) : (b.hear ev).1.finished = true := by
  cases hf : b.finished with
  | true =>
    rw [hear_of_finished hf] at h
    cases h
  | false =>
    cases ev with
    | init e =>
      rw [hear_init] at h
      cases h
    | garbage l =>
      rw [hear_garbage] at h
      cases h
    | result r =>
      rw [hear_result hf, hearResult] at h
      split_ifs at h
      cases h
    | step s =>
      rw [hear_step hf] at h ⊢
      unfold hearStep at h ⊢
      cases hk : s.stepKind with
      | text =>
        simp only [hk] at h
        split_ifs at h
        cases h
      | tool =>
        cases ht : s.tool with
        | none =>
          simp only [hk, ht] at h
          cases h
        | some tool =>
          simp only [hk, ht, hearTool] at h ⊢
          split_ifs at h ⊢
          · cases h
          · rfl
          · cases h
      | _ =>
        simp only [hk] at h
        cases h

end Memory

/-! ### Prose -/

section Prose

namespace StreamChunk

/-- Neither a tool call nor part of the terminal pair. -/
def isProse : StreamChunk → Bool
  | blockStart _ _ | textDelta _ _ | reasoningDelta _ _ => true
  | blockEnd _ (.toolCall _ _ _) => false
  | blockEnd _ _ => true
  | usage _ | finish _ _ => false

end StreamChunk

/-- All chunks are prose. -/
def Prose (out : List StreamChunk) : Prop := ∀ ch ∈ out, ch.isProse

theorem Prose.append {a b : List StreamChunk} (ha : Prose a) (hb : Prose b) : Prose (a ++ b) := by
  intro ch h
  rcases List.mem_append.mp h with h | h
  · exact ha ch h
  · exact hb ch h

theorem Prose.toolCallIds {out : List StreamChunk} (h : Prose out) : toolCallIds out = [] := by
  rw [AgyProxy.toolCallIds, List.filterMap_eq_nil_iff]
  intro ch hch
  have := h ch hch
  cases ch with
  | blockEnd k b => cases b <;> simp_all [StreamChunk.isProse, StreamChunk.toolCallId?]
  | _ => rfl

theorem Prose.noCut {out : List StreamChunk} (h : Prose out) :
    out.any StreamChunk.isToolCallsFinish = false := by
  rw [List.any_eq_false]
  intro ch hch
  have := h ch hch
  cases ch with
  | finish r p => simp [StreamChunk.isProse] at this
  | _ => simp [StreamChunk.isToolCallsFinish]

/-- A call of a generator that says prose: the memory it leaves, the text and the reasoning. -/
structure Says (f : MapperEmit) (m : EventMapper) (b : Memory) (text reasoning : JsString) : Prop where
  memory : (f m).1.memory = b
  runId : (f m).1.runId = m.runId
  text : textDeltas (f m).2 = text
  reasoning : reasoningDeltas (f m).2 = reasoning
  prose : Prose (f m).2

theorem Says.seq {f g : MapperEmit} {m : EventMapper} {b b' : Memory} {t t' r r' : JsString}
    (hf : Says f m b t r) (hg : Says g (f m).1 b' t' r') : Says (Emit.seq f g) m b' (t ++ t') (r ++ r') where
  memory := hg.memory
  runId := hg.runId.trans hf.runId
  text := by rw [seq_snd, textDeltas_append, hf.text, hg.text]
  reasoning := by rw [seq_snd, reasoningDeltas_append, hf.reasoning, hg.reasoning]
  prose := hf.prose.append hg.prose

/-- A generator that does the same in this state says the same. -/
theorem Says.of_eq {f g : MapperEmit} {m : EventMapper} {b : Memory} {t r : JsString} (h : Says f m b t r)
    (he : g m = f m) : Says g m b t r := by
  obtain ⟨h1, h2, h3, h4, h5⟩ := h
  rw [← he] at h1 h2 h3 h4 h5
  exact ⟨h1, h2, h3, h4, h5⟩

/-- The text a delta of that type contributes. -/
def ProseType.textPart : ProseType → JsString → JsString
  | text, s => s
  | reasoning, _ => []

/-- The reasoning a delta of that type contributes. -/
def ProseType.reasoningPart : ProseType → JsString → JsString
  | text, _ => []
  | reasoning, s => s

theorem nop_tells (m : EventMapper) : Says nop m m.memory [] [] :=
  ⟨rfl, rfl, rfl, rfl, fun _ h => absurd h List.not_mem_nil⟩

theorem modify_tells {u : EventMapper → EventMapper} (m : EventMapper) (h : (u m).runId = m.runId) :
    Says (modify u) m (u m).memory [] [] :=
  ⟨rfl, h, rfl, rfl, fun _ h => absurd h List.not_mem_nil⟩

/-- One chunk of prose over an unchanged memory. -/
theorem single_tells {f : MapperEmit} {m m' : EventMapper} {ch : StreamChunk} (he : f m = (m', [ch]))
    (hm : m'.memory = m.memory) (hr : m'.runId = m.runId) (hp : ch.isProse) :
    Says f m m.memory ch.textOf ch.reasoningOf := by
  refine ⟨by rw [he, hm], by rw [he, hr], by rw [he]; simp [textDeltas], by rw [he]; simp [reasoningDeltas], ?_⟩
  rw [he]
  intro ch' hch
  obtain rfl := List.mem_singleton.mp hch
  exact hp

theorem closeOpen_tells (m : EventMapper) : Says closeOpen m m.memory [] [] := by
  cases ht : m.openType with
  | none => exact (nop_tells m).of_eq (by rw [closeOpen, ht]; rfl)
  | some type =>
    have hc : closeOpen m = ({ m with blockIdx := m.blockIdx + 1, openType := none, openAcc := [] },
        [.blockEnd m.blockIdx (type.block m.openAcc)]) := by rw [closeOpen, ht]
    exact single_tells hc rfl rfl (by cases type <;> rfl)

theorem startBlock_tells (type : ProseType) (m : EventMapper) : Says (startBlock type) m m.memory [] [] := by
  have hs : startBlock type m =
      ({ m with openType := some type, openAcc := [] }, [.blockStart m.blockIdx type.blockType]) := rfl
  exact single_tells hs rfl rfl rfl

theorem ensureBlock_tells (type : ProseType) (m : EventMapper) :
    Says (ensureBlock type) m m.memory [] [] ∧ (ensureBlock type m).1.openType = some type := by
  by_cases ht : m.openType = some type
  · have he : ensureBlock type m = nop m := by rw [ensureBlock, if_pos ht]; rfl
    exact ⟨(nop_tells m).of_eq he, by rw [he]; exact ht⟩
  · have he : ensureBlock type m = Emit.seq closeOpen (startBlock type) m := by rw [ensureBlock, if_neg ht]
    have hb := startBlock_tells type (closeOpen m).1
    rw [(closeOpen_tells m).memory] at hb
    exact ⟨((closeOpen_tells m).seq hb).of_eq he, by rw [he]; rfl⟩

theorem appendDelta_tells {type : ProseType} (delta : JsString) {m : EventMapper} (ht : m.openType = some type) :
    Says (appendDelta delta) m m.memory (type.textPart delta) (type.reasoningPart delta) := by
  by_cases hd : delta = []
  · subst hd
    have hnil : type.textPart [] = [] ∧ type.reasoningPart [] = [] := by cases type <;> exact ⟨rfl, rfl⟩
    rw [hnil.1, hnil.2]
    exact (nop_tells m).of_eq rfl
  · have ha : appendDelta delta m =
        ({ m with openAcc := m.openAcc ++ delta }, [type.delta m.blockIdx delta]) := by
      rw [appendDelta, if_neg hd, ht]
      cases type <;> rfl
    have hp : (type.delta m.blockIdx delta).isProse := by cases type <;> rfl
    have hs := single_tells ha rfl rfl hp
    cases type <;> exact hs

/-- A delta in a block of its type. -/
theorem block_tells (type : ProseType) (delta : JsString) (m : EventMapper) :
    Says (Emit.seq (ensureBlock type) (appendDelta delta)) m m.memory (type.textPart delta)
      (type.reasoningPart delta) := by
  obtain ⟨he, ht⟩ := ensureBlock_tells type m
  have ha := appendDelta_tells delta ht
  rw [he.memory] at ha
  exact he.seq ha

theorem setEmitted_memory (key text : JsString) (m : EventMapper) :
    (setEmitted key text m).memory =
      { m.memory with emittedByKey := Function.update m.emittedByKey key text } := rfl

/-- The delta of a step in a block of its type; the key carries the text on. -/
theorem emitStep_tells (type : ProseType) (fragment : Bool) (key text : JsString) (m : EventMapper) :
    Says (Emit.seq (ensureBlock type) (emitStep fragment key text)) m (m.memory.carry fragment key text)
      (type.textPart (m.memory.delta fragment key text)) (type.reasoningPart (m.memory.delta fragment key text)) := by
  obtain ⟨he, ht⟩ := ensureBlock_tells type m
  have hkey : (ensureBlock type m).1.emittedByKey = m.emittedByKey := congrArg Memory.emittedByKey he.memory
  let acc := (stepDelta fragment (m.emittedByKey key) text).2
  have hset : (setEmitted key acc (ensureBlock type m).1).memory = m.memory.carry fragment key text := by
    rw [setEmitted_memory, he.memory, hkey]
    rfl
  have hmod : Says (modify (setEmitted key acc)) (ensureBlock type m).1 (m.memory.carry fragment key text) [] [] :=
    hset ▸ modify_tells (ensureBlock type m).1 rfl
  have hdelta : Says (appendDelta (stepDelta fragment (m.emittedByKey key) text).1)
      (setEmitted key acc (ensureBlock type m).1) (m.memory.carry fragment key text)
      (type.textPart (m.memory.delta fragment key text)) (type.reasoningPart (m.memory.delta fragment key text)) :=
    hset ▸ appendDelta_tells _ ht
  exact he.seq ((hmod.seq hdelta).of_eq (by rw [emitStep, hkey]))

end Prose

/-! ### The refinement -/

section Refinement

/-- A call that mapped the event at index `i`: it left that memory and said that. -/
structure Heard (m : EventMapper) (i : ℕ) (r : EventMapper × List StreamChunk) (h : Memory × Said) : Prop where
  memory : r.1.memory = h.1
  runId : r.1.runId = m.runId
  text : textDeltas r.2 = h.2.text
  reasoning : reasoningDeltas r.2 = h.2.reasoning
  calls : toolCallIds r.2 = if h.2.cut then [mirrorCallId m.runId i] else []
  cut : r.2.any StreamChunk.isToolCallsFinish = h.2.cut

variable {f g : MapperEmit} {m : EventMapper} {i : ℕ} {b : Memory} {t r : JsString}

theorem Says.heard (h : Says f m b t r) : Heard m i (f m) (b, ⟨t, r, false⟩) where
  memory := h.memory
  runId := h.runId
  text := h.text
  reasoning := h.reasoning
  calls := h.prose.toolCallIds
  cut := h.prose.noCut

/-- Prose before a call. -/
theorem Says.seq_heard {o : Memory × Said} (h : Says f m b t r) (hg : Heard (f m).1 i (g (f m).1) o) :
    Heard m i (Emit.seq f g m) (o.1, Said.append ⟨t, r, false⟩ o.2) where
  memory := hg.memory
  runId := hg.runId.trans h.runId
  text := by rw [seq_snd, textDeltas_append, h.text, hg.text]; rfl
  reasoning := by rw [seq_snd, reasoningDeltas_append, h.reasoning, hg.reasoning]; rfl
  calls := by
    rw [seq_snd, toolCallIds_append, h.prose.toolCallIds, hg.calls, h.runId]
    simp [Said.append]
  cut := by
    rw [seq_snd, List.any_append, h.prose.noCut, hg.cut]
    rfl

theorem silent_heard (m : EventMapper) (i : ℕ) : Heard m i (m, []) (m.memory, .silent) :=
  (nop_tells m).heard

theorem finishResult_heard (slot : Option RawUsage) (res : ResultEvent) (m : EventMapper) :
    Heard m i (Emit.seq closeOpen (finishResult slot res) m) ({ m.memory with finished := true }, .silent) := by
  have hf : Heard (closeOpen m).1 i (finishResult slot res (closeOpen m).1)
      ({ (closeOpen m).1.memory with finished := true }, .silent) := ⟨rfl, rfl, rfl, rfl, rfl, rfl⟩
  rw [(closeOpen_tells m).memory] at hf
  exact (closeOpen_tells m).seq_heard hf

theorem cutSpan_heard (tool : AgyToolInfo) (m : EventMapper) :
    Heard m i (cutSpan i tool m) ({ m.memory with finished := true }, ⟨[], [], true⟩) := by
  have hf : Heard (closeOpen m).1 i (Emit.seq (toolBlock i tool) (finishWith .zero .toolCalls none) (closeOpen m).1)
      ({ (closeOpen m).1.memory with finished := true }, ⟨[], [], true⟩) := ⟨rfl, rfl, rfl, rfl, rfl, rfl⟩
  rw [(closeOpen_tells m).memory] at hf
  exact (closeOpen_tells m).seq_heard hf

theorem mapText_tells (s : StepEvent) (hb : ¬(s.text = [] ∧ s.fragment = false)) (m : EventMapper) :
    Says (mapText s) m { m.memory.carry s.fragment s.stepKey s.text with sawTextStep := true }
      (m.memory.delta s.fragment s.stepKey s.text) [] := by
  rw [mapText, if_neg hb]
  exact (modify_tells m rfl).seq (emitStep_tells .text s.fragment s.stepKey s.text { m with sawTextStep := true })

theorem mapThinking_tells (s : StepEvent) (m : EventMapper) :
    Says (mapThinking s) m (m.memory.carry false s.stepKey s.text) []
      (m.memory.delta false s.stepKey s.text) :=
  emitStep_tells .reasoning false s.stepKey s.text m

theorem mapTool_heard (s : StepEvent) (tool : AgyToolInfo) (m : EventMapper) :
    Heard m i (mapTool s tool i m) (m.memory.hearTool s.stepKey tool) := by
  unfold mapTool Memory.hearTool
  rw [memory_announcedTools, memory_cutOnTool]
  by_cases hc : tool.completed = false
  · rw [if_pos (by simp [hc]), if_pos (Or.inl hc)]
    exact silent_heard m i
  by_cases ha : s.stepKey ∈ m.announcedTools
  · rw [if_neg (by simpa using hc), if_pos ha, if_pos (Or.inr ha)]
    exact silent_heard m i
  rw [if_neg (by simpa using hc), if_neg ha, if_neg (not_or.mpr ⟨hc, ha⟩)]
  by_cases hcut : m.cutOnTool
  · rw [if_neg (by simp [hcut]), if_pos hcut]
    have hmod : Says (modify (announce s.stepKey)) m (announce s.stepKey m).memory [] [] := modify_tells m rfl
    exact hmod.seq_heard (cutSpan_heard tool (announce s.stepKey m))
  · rw [if_pos (by simpa using hcut), if_neg hcut]
    exact ⟨rfl, rfl, rfl, rfl, rfl, rfl⟩

theorem mapStep_heard (s : StepEvent) (m : EventMapper) :
    Heard m i (mapStep s i m) (m.memory.hearStep s) := by
  unfold mapStep Memory.hearStep
  cases s.stepKind with
  | text =>
    by_cases hb : s.text = [] ∧ s.fragment = false
    · have hm : mapText s = nop := if_pos hb
      simp only [if_pos hb, hm]
      exact silent_heard m i
    · simpa only [if_neg hb] using (mapText_tells s hb m).heard
  | thinking => exact (mapThinking_tells s m).heard
  | subagent => exact (block_tells .reasoning _ m).heard
  | tool =>
    cases s.tool with
    | none => exact silent_heard m i
    | some tool => exact mapTool_heard s tool m
  | _ => exact silent_heard m i

theorem fallbackText_tells (res : ResultEvent) (m : EventMapper) :
    Says (fallbackText res) m m.memory (m.memory.fallback res) [] := by
  by_cases hc : m.sawTextStep = false ∧ res.response ≠ []
  · have hfb : m.memory.fallback res = res.response := if_pos hc.1
    rw [hfb]
    exact (block_tells .text res.response m).of_eq (by rw [fallbackText, if_pos hc])
  · have hfb : m.memory.fallback res = [] := by
      unfold Memory.fallback
      by_cases hs : m.sawTextStep = false
      · have hr : res.response = [] := by
          by_contra hne
          exact hc ⟨hs, hne⟩
        rw [hr, ite_self]
      · exact if_neg hs
    rw [hfb]
    exact (nop_tells m).of_eq (by rw [fallbackText, if_neg hc]; rfl)

theorem errorNote_tells (res : ResultEvent) (m : EventMapper) : Says (errorNote res) m m.memory [] res.note := by
  unfold errorNote ResultEvent.note
  cases res.error with
  | none => exact nop_tells m
  | some e =>
    by_cases he : e = []
    · simp only [if_pos he]
      exact nop_tells m
    · simp only [if_neg he]
      exact block_tells .reasoning _ m

theorem mapResult_heard (slot : Option RawUsage) (res : ResultEvent) (m : EventMapper) :
    Heard m i (mapResult slot res m) (m.memory.hearResult res) := by
  unfold mapResult Memory.hearResult ResultEvent.consumable
  have hfb := fallbackText_tells res m
  cases hok : res.ok with
  | true =>
    have h := finishResult_heard (i := i) slot res (fallbackText res m).1
    rw [hfb.memory] at h
    simpa [Said.append, Said.silent] using hfb.seq_heard h
  | false =>
    by_cases hr : res.response = []
    · simpa [hr] using silent_heard m i
    · have hnote := errorNote_tells res (fallbackText res m).1
      rw [hfb.memory] at hnote
      have hboth := hfb.seq hnote
      have h := finishResult_heard (i := i) slot res (Emit.seq (fallbackText res) (errorNote res) m).1
      rw [hboth.memory] at h
      have hall := hnote.seq_heard h
      simpa [hr, Said.append, Said.silent] using hfb.seq_heard hall

/-- **The refinement of one event**: the mapper of the source leaves the memory of the abstract one and
says the same. -/
theorem map_heard (slot : Option RawUsage) (ev : AgyEvent) (i : ℕ) (m : EventMapper) :
    Heard m i (EventMapper.map slot ev i m) (m.memory.hear ev) := by
  unfold EventMapper.map Memory.hear
  rw [memory_finished]
  by_cases hf : m.finished
  · rw [if_pos hf, if_pos hf]
    exact silent_heard m i
  · rw [if_neg hf, if_neg hf]
    cases ev with
    | init e => exact silent_heard m i
    | garbage l => exact silent_heard m i
    | step s => exact mapStep_heard s m
    | result res => exact mapResult_heard slot res m

end Refinement

/-! ### The pump -/

section Pump

variable {m : EventMapper} (slots : ℕ → Option RawUsage)

/-- Events the mapper takes, up to and including the one it finishes on. -/
def Memory.taken (b : Memory) : List AgyEvent → ℕ
  | [] => 0
  | ev :: evs => if (b.hear ev).1.finished then 1 else taken (b.hear ev).1 evs + 1

theorem map_finished_iff (slot : Option RawUsage) (ev : AgyEvent) (i : ℕ) (m : EventMapper) :
    (EventMapper.map slot ev i m).1.finished = (m.memory.hear ev).1.finished :=
  congrArg Memory.finished (map_heard slot ev i m).memory

/-- A finished mapper is silent. -/
theorem pump_of_finished (h : m.finished = true) (i : ℕ) : ∀ evs : List AgyEvent, pump slots i evs m = (m, [])
  | [] => rfl
  | ev :: evs => by
    have hm : EventMapper.map (slots i) ev i m = (m, []) := by
      unfold EventMapper.map
      exact if_pos h
    rw [pump, hm, if_pos h]

/-- **Reading on**: over an appended log the pump goes on where it stopped, unless it finished. -/
theorem pump_append : ∀ (evs evs' : List AgyEvent) (i : ℕ) (m : EventMapper),
    pump slots i (evs ++ evs') m =
      Emit.seq (pump slots i evs) (pump slots (i + evs.length) evs') m
  | [], evs', i, m => by simp [Emit.seq, pump]
  | ev :: evs, evs', i, m => by
    rw [List.cons_append, pump]
    by_cases hf : (EventMapper.map (slots i) ev i m).1.finished
    · have hp : pump slots i (ev :: evs) m = EventMapper.map (slots i) ev i m := by rw [pump, if_pos hf]
      rw [if_pos hf, Emit.seq, hp, pump_of_finished slots hf, List.append_nil]
    · have hp : pump slots i (ev :: evs) m =
          ((pump slots (i + 1) evs (EventMapper.map (slots i) ev i m).1).1,
            (EventMapper.map (slots i) ev i m).2 ++ (pump slots (i + 1) evs (EventMapper.map (slots i) ev i m).1).2) := by
        rw [pump, if_neg hf]
      rw [if_neg hf, pump_append evs evs' (i + 1), Emit.seq, Emit.seq, hp, List.length_cons,
        show i + 1 + evs.length = i + (evs.length + 1) by omega]
      simp only [List.append_assoc]

/-- One more event, for a mapper that is still reading. -/
theorem pump_concat (evs : List AgyEvent) (ev : AgyEvent) (i : ℕ) (m : EventMapper) :
    pump slots i (evs ++ [ev]) m =
      Emit.seq (pump slots i evs) (EventMapper.map (slots (i + evs.length)) ev (i + evs.length)) m := by
  have hone : pump slots (i + evs.length) [ev] = EventMapper.map (slots (i + evs.length)) ev (i + evs.length) := by
    funext m'
    rw [pump]
    by_cases hf : (EventMapper.map (slots (i + evs.length)) ev (i + evs.length) m').1.finished
    · rw [if_pos hf]
    · rw [if_neg hf]
      simp [pump]
  rw [pump_append, hone]

/-- **The refinement of a pump**: the memory and the transcript are the abstract ones; the call id of a
cut names the last event taken. -/
theorem pump_heard : ∀ (evs : List AgyEvent) (i : ℕ) (m : EventMapper),
    (pump slots i evs m).1.memory = (m.memory.listen evs).1 ∧
    (pump slots i evs m).1.runId = m.runId ∧
    textDeltas (pump slots i evs m).2 = (m.memory.listen evs).2.text ∧
    reasoningDeltas (pump slots i evs m).2 = (m.memory.listen evs).2.reasoning ∧
    toolCallIds (pump slots i evs m).2 =
      (if (m.memory.listen evs).2.cut then [mirrorCallId m.runId (i + m.memory.taken evs - 1)] else []) ∧
    (pump slots i evs m).2.any StreamChunk.isToolCallsFinish = (m.memory.listen evs).2.cut
  | [], i, m => ⟨rfl, rfl, rfl, rfl, rfl, rfl⟩
  | ev :: evs, i, m => by
    obtain ⟨hmem, hrun, htext, hreas, hcalls, hcut⟩ := map_heard (slots i) ev i m
    have hfin := map_finished_iff (slots i) ev i m
    by_cases hf : (m.memory.hear ev).1.finished
    · have hp : pump slots i (ev :: evs) m = EventMapper.map (slots i) ev i m := by
        rw [pump, if_pos (hfin.trans hf)]
      rw [hp, Memory.listen, if_pos hf, Memory.taken, if_pos hf]
      exact ⟨hmem, hrun, htext, hreas, hcalls, hcut⟩
    · have ih := pump_heard evs (i + 1) (EventMapper.map (slots i) ev i m).1
      rw [hmem, hrun] at ih
      obtain ⟨h1, h2, h3, h4, h5, h6⟩ := ih
      -- an event that cuts finishes
      have hnocut : (m.memory.hear ev).2.cut = false := by
        by_contra hc
        exact hf (Memory.hear_cut_finished (by simpa using hc))
      have hp : pump slots i (ev :: evs) m =
          ((pump slots (i + 1) evs (EventMapper.map (slots i) ev i m).1).1,
            (EventMapper.map (slots i) ev i m).2 ++ (pump slots (i + 1) evs (EventMapper.map (slots i) ev i m).1).2) := by
        rw [pump, if_neg (by rw [hfin]; exact hf)]
      rw [hp, Memory.listen, if_neg hf, Memory.taken, if_neg hf]
      refine ⟨h1, h2, ?_, ?_, ?_, ?_⟩
      · rw [textDeltas_append, htext, h3]
        rfl
      · rw [reasoningDeltas_append, hreas, h4]
        rfl
      · rw [toolCallIds_append, hcalls, h5, hnocut]
        simp only [Said.append, hnocut, Bool.false_or, Bool.false_eq_true, if_false, List.nil_append]
        rw [show i + 1 + (m.memory.hear ev).1.taken evs - 1 = i + ((m.memory.hear ev).1.taken evs + 1) - 1 by omega]
      · rw [List.any_append, hcut, h6]
        rfl

end Pump

/-! ### Mappers that cut -/

/-- An event a cutting mapper finishes on. -/
def AgyEvent.ends (ev : AgyEvent) : Bool := ev.isToolDone || ev.finishes

section Cutting

/-- A mapper of a main turn that is still reading: it has announced no tool yet. -/
structure Memory.Cutting (b : Memory) : Prop where
  cuts : b.cutOnTool = true
  fresh : b.announcedTools = []
  reading : b.finished = false

theorem Memory.cutting_new (saw : Bool) : (Memory.new true saw).Cutting := ⟨rfl, rfl, rfl⟩

/-- A cutting mapper finishes on the first completed tool step or consumable result; a tool cuts. -/
theorem Memory.Cutting.hear {b : Memory} (h : b.Cutting) (ev : AgyEvent) :
    (b.hear ev).2.cut = ev.isToolDone ∧ (b.hear ev).1.finished = ev.ends ∧
      (ev.ends = false → (b.hear ev).1.Cutting) := by
  obtain ⟨hc, ha, hf⟩ := h
  have hkeep : b.Cutting := ⟨hc, ha, hf⟩
  cases ev with
  | init e =>
    rw [hear_init]
    exact ⟨rfl, hf, fun _ => hkeep⟩
  | garbage l =>
    rw [hear_garbage]
    exact ⟨rfl, hf, fun _ => hkeep⟩
  | result r =>
    rw [hear_result hf, hearResult]
    have he : (AgyEvent.result r).ends = r.consumable := rfl
    rw [he]
    cases hr : r.consumable with
    | true => exact ⟨rfl, rfl, fun h => by cases h⟩
    | false => exact ⟨rfl, hf, fun _ => hkeep⟩
  | step s =>
    rw [hear_step hf]
    have he : (AgyEvent.step s).ends = (AgyEvent.step s).isToolDone := Bool.or_false _
    rw [he]
    by_cases hk : s.stepKind = .tool
    · have hd : (AgyEvent.step s).isToolDone = s.tool.any AgyToolInfo.completed := by
        simp [AgyEvent.isToolDone, hk]
      rw [hd]
      simp only [hearStep, hk]
      cases ht : s.tool with
      | none => exact ⟨rfl, hf, fun _ => hkeep⟩
      | some tool =>
        simp only [hearTool, ha, List.not_mem_nil, or_false, hc, if_true, Option.any_some]
        cases tool.completed with
        | true => exact ⟨rfl, rfl, fun h => by cases h⟩
        | false => exact ⟨rfl, hf, fun _ => hkeep⟩
    · have hd : (AgyEvent.step s).isToolDone = false := by simp [AgyEvent.isToolDone, hk]
      rw [hd]
      unfold hearStep
      split
      · split_ifs
        · exact ⟨rfl, hf, fun _ => hkeep⟩
        · exact ⟨rfl, hf, fun _ => ⟨hc, ha, hf⟩⟩
      · exact ⟨rfl, hf, fun _ => ⟨hc, ha, hf⟩⟩
      · exact ⟨rfl, hf, fun _ => hkeep⟩
      · rename_i h
        exact absurd h hk
      all_goals exact ⟨rfl, hf, fun _ => hkeep⟩

/-- The failure funnel says nothing. -/
theorem endOfLog_heard (failure : Option RecordingFailure) (m : EventMapper) (i : ℕ) :
    ∃ b, Heard m i (endOfLog failure m) (b, .silent) := by
  unfold endOfLog EventMapper.emitFailure
  split_ifs
  · exact ⟨_, silent_heard m i⟩
  · have hf (reason : FinishReason) (hr : (StreamChunk.finish reason none).isToolCallsFinish = false) :
        Heard (closeOpen m).1 i (finishWith .zero reason none (closeOpen m).1)
          ({ (closeOpen m).1.memory with finished := true }, .silent) :=
      ⟨rfl, rfl, rfl, rfl, rfl, by
        show (false || (StreamChunk.isToolCallsFinish _ || false)) = false
        rw [hr]
        rfl⟩
    refine ⟨_, (closeOpen_tells m).seq_heard (hf _ ?_)⟩
    split <;> rfl

/-- A finished mapper is not failed again. -/
theorem endOfLog_of_finished (failure : Option RecordingFailure) {m : EventMapper} (h : m.finished = true) :
    endOfLog failure m = (m, []) := by
  unfold endOfLog EventMapper.emitFailure
  exact if_pos h

end Cutting

/-! ### The usage slot -/

section Slots

/-- The chunks with every usage value put to zero. -/
def withoutUsage (out : List StreamChunk) : List StreamChunk :=
  out.map fun | .usage _ => .usage .zero | ch => ch

@[simp] theorem withoutUsage_append (a b : List StreamChunk) :
    withoutUsage (a ++ b) = withoutUsage a ++ withoutUsage b := List.map_append

/-- Two calls that differ in usage values only. -/
def SameButUsage (r r' : EventMapper × List StreamChunk) : Prop :=
  r.1 = r'.1 ∧ withoutUsage r.2 = withoutUsage r'.2

theorem SameButUsage.seq {f g g' : MapperEmit} {m : EventMapper}
    (h : ∀ m', SameButUsage (g m') (g' m')) : SameButUsage (Emit.seq f g m) (Emit.seq f g' m) := by
  obtain ⟨h1, h2⟩ := h (f m).1
  exact ⟨h1, by rw [seq_snd, seq_snd, withoutUsage_append, withoutUsage_append, h2]⟩

theorem finishResult_slot (slot slot' : Option RawUsage) (r : ResultEvent) (m : EventMapper) :
    SameButUsage (Emit.seq closeOpen (finishResult slot r) m) (Emit.seq closeOpen (finishResult slot' r) m) :=
  SameButUsage.seq fun _ => ⟨rfl, rfl⟩

/-- The slot shows in the usage value of a result and nowhere else. -/
theorem map_slot (slot slot' : Option RawUsage) (ev : AgyEvent) (i : ℕ) (m : EventMapper) :
    SameButUsage (EventMapper.map slot ev i m) (EventMapper.map slot' ev i m) := by
  unfold EventMapper.map
  split_ifs
  · exact ⟨rfl, rfl⟩
  · cases ev with
    | result r =>
      show SameButUsage (mapResult slot r m) (mapResult slot' r m)
      unfold mapResult
      split_ifs
      · exact SameButUsage.seq (finishResult_slot slot slot' r)
      · exact ⟨rfl, rfl⟩
      · exact SameButUsage.seq fun _ => SameButUsage.seq (finishResult_slot slot slot' r)
    | _ => exact ⟨rfl, rfl⟩

theorem pump_slots (slots slots' : ℕ → Option RawUsage) : ∀ (evs : List AgyEvent) (i : ℕ) (m : EventMapper),
    SameButUsage (pump slots i evs m) (pump slots' i evs m)
  | [], _, _ => ⟨rfl, rfl⟩
  | ev :: evs, i, m => by
    obtain ⟨h1, h2⟩ := map_slot (slots i) (slots' i) ev i m
    obtain ⟨h3, h4⟩ := pump_slots slots slots' evs (i + 1) (EventMapper.map (slots' i) ev i m).1
    rw [pump, pump, h1]
    split_ifs
    · exact ⟨h1, h2⟩
    · exact ⟨h3, by simp only [withoutUsage_append, h2, h4]⟩

end Slots

end AgyProxy
