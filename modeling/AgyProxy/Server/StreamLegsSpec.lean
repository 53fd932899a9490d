import AgyProxy.Server.StreamGuardsSpec
import AgyProxy.Server.StreamLegs

/-!
# AgyProxy.Server.StreamLegsSpec — the two streaming legs against each other

* `Delivered`: what a client reads of a stream, in the same words for both protocols.
* `Progress`: the guards of a leg in its loop, from the chunks alone; they do not depend on the adapter.
* `Alike`: the two legs after the same chunks; every chunk but a failed finish preserves it.
* `legs_agree_iff`: **the legs agree exactly when no failure ends the span behind withheld text**.
-/

namespace AgyProxy

open Js Lib

/-! ### What a client reads -/

/-- How a stream ends. -/
inductive Terminal
  | finished (reason : OpenAiFinishReason)
  | failed
deriving DecidableEq

/-- The visible text, the reasoning text and the terminals. -/
structure Delivered where
  text : JsString
  reasoning : JsString
  terminals : List Terminal
deriving DecidableEq

namespace Delivered

def nothing : Delivered := ⟨[], [], []⟩

def append (a b : Delivered) : Delivered := ⟨a.text ++ b.text, a.reasoning ++ b.reasoning, a.terminals ++ b.terminals⟩

end Delivered

/-- The `stop_reason` in the words of the other protocol. -/
def StopReason.finishReason : StopReason → OpenAiFinishReason
  | .endTurn => .stop
  | .stopSequence => .stop
  | .maxTokens => .length
  | .toolUse => .toolCalls

namespace OpenAiDelta

def text : OpenAiDelta → JsString
  | .content text => text
  | _ => []

def reasoning : OpenAiDelta → JsString
  | .reasoningContent text => text
  | _ => []

end OpenAiDelta

namespace OpenAiFrame

def choices : OpenAiFrame → List OpenAiChoice
  | .chunk c => c.choices
  | _ => []

def text (frame : OpenAiFrame) : JsString := frame.choices.flatMap fun c => c.delta.text

def reasoning (frame : OpenAiFrame) : JsString := frame.choices.flatMap fun c => c.delta.reasoning

def terminal? : OpenAiFrame → Option Terminal
  | .chunk c => (c.choices.findSome? OpenAiChoice.finishReason).map .finished
  | .error _ => some .failed
  | .done => none

end OpenAiFrame

def openAiDelivered (frames : List OpenAiFrame) : Delivered :=
  ⟨frames.flatMap OpenAiFrame.text, frames.flatMap OpenAiFrame.reasoning, frames.filterMap OpenAiFrame.terminal?⟩

namespace AnthropicStreamEvent

def text : AnthropicStreamEvent → JsString
  | .contentBlockDelta _ (.textDelta text) => text
  | _ => []

def reasoning : AnthropicStreamEvent → JsString
  | .contentBlockDelta _ (.thinkingDelta thinking) => thinking
  | _ => []

def terminal? : AnthropicStreamEvent → Option Terminal
  | .messageDelta stopReason _ _ _ => some (.finished stopReason.finishReason)
  | .error _ => some .failed
  | _ => none

end AnthropicStreamEvent

def anthropicDelivered (events : List AnthropicStreamEvent) : Delivered :=
  ⟨events.flatMap AnthropicStreamEvent.text, events.flatMap AnthropicStreamEvent.reasoning,
    events.filterMap AnthropicStreamEvent.terminal?⟩

@[simp] theorem openAiDelivered_append (a b : List OpenAiFrame) :
    openAiDelivered (a ++ b) = (openAiDelivered a).append (openAiDelivered b) := by
  unfold openAiDelivered
  rw [List.flatMap_append, List.flatMap_append, List.filterMap_append]
  rfl

@[simp] theorem anthropicDelivered_append (a b : List AnthropicStreamEvent) :
    anthropicDelivered (a ++ b) = (anthropicDelivered a).append (anthropicDelivered b) := by
  unfold anthropicDelivered
  rw [List.flatMap_append, List.flatMap_append, List.filterMap_append]
  rfl

/-! ### One chunk through the adapters -/

/-- What a chunk delivers, when its reason is not overridden. -/
def StreamChunk.delivered : StreamChunk → Delivered
  | .textDelta _ text => ⟨text, [], []⟩
  | .reasoningDelta _ text => ⟨[], text, []⟩
  | .finish reason _ => ⟨[], [], [if reason.failure?.isSome then .failed else .finished reason.openAi]⟩
  | _ => .nothing

section Adapters

@[simp] theorem Delivered.append_nothing (a : Delivered) : a.append .nothing = a := by
  unfold Delivered.append Delivered.nothing
  simp only [List.append_nil]

@[simp] theorem Delivered.nothing_append (a : Delivered) : Delivered.nothing.append a = a := rfl

theorem roleFrames_delivered (args : OpenAiStreamArgs) (state : OpenAiStreamState) :
    openAiDelivered (args.roleFrames state) = .nothing := by
  unfold OpenAiStreamArgs.roleFrames
  split <;> rfl

theorem core_delivered (args : OpenAiStreamArgs) (usage : Option TokenUsage) {chunk : StreamChunk}
    (state : OpenAiStreamState) (hchunk : ∀ reason rs, chunk = .finish reason rs → reason.failure? = none) :
    openAiDelivered (openAiStreamFramesCore args usage chunk state).1 = chunk.delivered := by
  have hdelta : ∀ text (delta : OpenAiDelta), (text = [] → delta.text = [] ∧ delta.reasoning = []) →
      openAiDelivered (args.deltaFrames text delta) = ⟨delta.text, delta.reasoning, []⟩ := by
    intro text delta hnil
    unfold OpenAiStreamArgs.deltaFrames
    by_cases htext : text = []
    · rw [if_pos htext, (hnil htext).1, (hnil htext).2]
      rfl
    · rw [if_neg htext]
      simp only [openAiDelivered, OpenAiStreamArgs.openAiChunkOf, OpenAiFrame.text, OpenAiFrame.reasoning,
        OpenAiFrame.choices, OpenAiFrame.terminal?, List.flatMap_cons, List.flatMap_nil, List.append_nil]
      rfl
  unfold openAiStreamFramesCore
  cases chunk with
  | textDelta index text =>
    dsimp only
    rw [openAiDelivered_append, roleFrames_delivered, Delivered.nothing_append]
    exact hdelta text _ (by rintro rfl; exact ⟨rfl, rfl⟩)
  | reasoningDelta index text =>
    dsimp only
    rw [openAiDelivered_append, roleFrames_delivered, Delivered.nothing_append]
    exact hdelta text _ (by rintro rfl; exact ⟨rfl, rfl⟩)
  | blockEnd index block =>
    cases block with
    | toolCall id name arguments =>
      dsimp only
      rw [openAiDelivered_append, roleFrames_delivered, Delivered.nothing_append]
      rfl
    | text | reasoning => exact roleFrames_delivered args state
  | finish reason rs =>
    have hok : reason.failure? = none := hchunk reason rs rfl
    have hsome : ¬reason.failure?.isSome = true := by
      rw [hok]
      exact Bool.false_ne_true
    have hdelivered : (StreamChunk.finish reason rs).delivered = ⟨[], [], [.finished reason.openAi]⟩ :=
      congrArg (fun t => (⟨[], [], [t]⟩ : Delivered)) (if_neg hsome)
    dsimp only
    rw [List.append_assoc, openAiDelivered_append, roleFrames_delivered, Delivered.nothing_append, hdelivered]
    cases args.includeUsage <;> rfl
  | blockStart | usage => exact roleFrames_delivered args state

theorem withUsageKey_delivered (frames : List OpenAiFrame) :
    openAiDelivered (frames.map OpenAiFrame.withUsageKey) = openAiDelivered frames := by
  have hframe : ∀ f : OpenAiFrame, f.withUsageKey.text = f.text ∧ f.withUsageKey.reasoning = f.reasoning ∧
      f.withUsageKey.terminal? = f.terminal? := by
    intro f
    cases f with
    | chunk c =>
      by_cases hkey : c.usage = .absent
      · rw [show (OpenAiFrame.chunk c).withUsageKey = .chunk { c with usage := .null } from
          congrArg OpenAiFrame.chunk (if_pos hkey)]
        exact ⟨rfl, rfl, rfl⟩
      · rw [show (OpenAiFrame.chunk c).withUsageKey = .chunk c from congrArg OpenAiFrame.chunk (if_neg hkey)]
        exact ⟨rfl, rfl, rfl⟩
    | error | done => exact ⟨rfl, rfl, rfl⟩
  unfold openAiDelivered
  rw [List.flatMap_map, List.flatMap_map, List.filterMap_map]
  congr 1
  · exact List.flatMap_congr fun f _ => (hframe f).1
  · exact List.flatMap_congr fun f _ => (hframe f).2.1
  · exact List.filterMap_congr fun f _ => (hframe f).2.2

/-- Every chunk but a failed finish delivers the same in the frames of the OpenAI leg. -/
theorem openAiAdapter_delivered (args : OpenAiStreamArgs) (g : LegGuards) {chunk : StreamChunk}
    (state : OpenAiStreamState) (hchunk : ∀ reason rs, chunk = .finish reason rs → reason.failure? = none) :
    openAiDelivered (openAiAdapter args g chunk state).1 = chunk.delivered := by
  rw [← core_delivered args g.usage state hchunk]
  unfold openAiAdapter openAiStreamFrames
  dsimp only
  split
  · exact withUsageKey_delivered _
  · rfl

theorem closeBlock_delivered (state : AnthropicStreamState) :
    anthropicDelivered state.closeBlock.1 = .nothing := by
  unfold AnthropicStreamState.closeBlock
  split <;> rfl

theorem openBlock_delivered (state : AnthropicStreamState) (type : AnthropicBlockType)
    (block : AnthropicContentBlock) : anthropicDelivered (state.openBlock type block).1 = .nothing := by
  unfold AnthropicStreamState.openBlock
  split
  · rfl
  · dsimp only
    rw [anthropicDelivered_append, closeBlock_delivered]
    rfl

theorem deltaEvents_delivered (state : AnthropicStreamState) (type : AnthropicBlockType)
    (block : AnthropicContentBlock) (text : JsString) (delta : AnthropicDelta) {d : Delivered}
    (hd : ∀ index, anthropicDelivered [.contentBlockDelta index delta] = d) (hnil : text = [] → d = .nothing) :
    anthropicDelivered (state.deltaEvents type block text delta).1 = d := by
  unfold AnthropicStreamState.deltaEvents
  dsimp only
  rw [anthropicDelivered_append, openBlock_delivered, Delivered.nothing_append]
  by_cases htext : text = []
  · rw [if_pos htext, hnil htext]
    rfl
  · rw [if_neg htext]
    exact hd _

/-- The same in the events of the Anthropic leg, which also words the failed finishes itself; a stop sequence
is a stop. -/
theorem anthropicAdapter_delivered (args : AnthropicStreamArgs) (g : LegGuards) {chunk : StreamChunk}
    (state : AnthropicStreamState) (hstop : ∀ reason rs, chunk = .finish reason rs → reason.failure? = none →
      g.stopSequence.isSome = true → reason.openAi = .stop) :
    anthropicDelivered (anthropicAdapter args g chunk state).1 = chunk.delivered := by
  unfold anthropicAdapter anthropicStreamEvents
  dsimp only
  rw [anthropicDelivered_append]
  have hstart : anthropicDelivered (if state.messageStarted = true then []
      else [.messageStart args.id args.model args.inputTokens]) = .nothing := by
    split <;> rfl
  rw [hstart, Delivered.nothing_append]
  cases chunk with
  | textDelta index text =>
    refine deltaEvents_delivered _ _ _ _ _ (fun index => ?_) (by rintro rfl; rfl)
    simp [anthropicDelivered, AnthropicStreamEvent.text, AnthropicStreamEvent.reasoning,
      AnthropicStreamEvent.terminal?, StreamChunk.delivered]
  | reasoningDelta index text =>
    refine deltaEvents_delivered _ _ _ _ _ (fun index => ?_) (by rintro rfl; rfl)
    simp [anthropicDelivered, AnthropicStreamEvent.text, AnthropicStreamEvent.reasoning,
      AnthropicStreamEvent.terminal?, StreamChunk.delivered]
  | blockEnd index block =>
    cases block with
    | toolCall id name arguments =>
      show anthropicDelivered (AnthropicStreamState.toolUseEvents _ id name arguments).1 = _
      unfold AnthropicStreamState.toolUseEvents
      dsimp only
      rw [anthropicDelivered_append, closeBlock_delivered]
      rfl
    | text | reasoning => rfl
  | finish reason rs =>
    dsimp only
    rw [anthropicDelivered_append, closeBlock_delivered, Delivered.nothing_append]
    cases hseq : g.stopSequence with
    | none => cases reason <;> rfl
    | some s =>
      have hreason : reason.failure? = none → reason.openAi = .stop := fun hok =>
        hstop reason rs rfl hok (by rw [hseq]; rfl)
      cases reason with
      | stop | error | aborted => rfl
      | toolCalls => exact nomatch hreason rfl
      | maxTokens => exact nomatch hreason rfl
  | blockStart | usage => rfl

end Adapters

/-! ### The guards in the loop -/

/-- The text of a text delta. -/
def StreamChunk.text? : StreamChunk → Option JsString
  | .textDelta _ text => some text
  | _ => none

/-- The text deltas, one by one. -/
def texts (chunks : List StreamChunk) : List JsString := chunks.filterMap StreamChunk.text?

theorem texts_flatten (chunks : List StreamChunk) : (texts chunks).flatten = textDeltas chunks := by
  induction chunks with
  | nil => rfl
  | cons chunk chunks ih =>
    have hcons : textDeltas (chunk :: chunks) = chunk.textOf ++ textDeltas chunks := List.flatMap_cons
    rw [hcons, ← ih]
    cases chunk <;> rfl

/-- The texts the budget is charged for. -/
def charges (chunks : List StreamChunk) : List JsString := chunks.filterMap StreamChunk.charged?

/-- The estimate of all of them. -/
def estimatedOutput (chunks : List StreamChunk) : ℕ := ((charges chunks).map estimateTokens).sum

/-- The budget is exhausted by the chunks: something was generated, and it is estimated at the maximum or more. -/
def Trips (maxTokens : Option ℚ) (chunks : List StreamChunk) : Prop :=
  ∃ max, maxTokens = some max ∧ charges chunks ≠ [] ∧ max ≤ estimatedOutput chunks

theorem estimatedOutput_append (a b : List StreamChunk) :
    estimatedOutput (a ++ b) = estimatedOutput a + estimatedOutput b := by
  unfold estimatedOutput charges
  rw [List.filterMap_append, List.map_append, List.sum_append]

theorem Trips.append {maxTokens : Option ℚ} {chunks : List StreamChunk} (h : Trips maxTokens chunks)
    (more : List StreamChunk) : Trips maxTokens (chunks ++ more) := by
  obtain ⟨max, hmax, hsome, hle⟩ := h
  refine ⟨max, hmax, ?_, ?_⟩
  · unfold charges
    rw [List.filterMap_append]
    exact List.append_ne_nil_of_left_ne_nil hsome _
  · rw [estimatedOutput_append]
    exact hle.trans (by exact_mod_cast Nat.le_add_right _ _)

namespace StreamLeg

section Guards

variable {σ F : Type} {A : LegGuards → StreamChunk → σ → List F × σ}
  {E : StreamLeg σ F → FinishReason → Option JsString → StreamLeg σ F}
  {params : StreamMeta} {seen : List StreamChunk} {leg : StreamLeg σ F} {raw : StreamChunk}

/-- The guards after the chunks, as long as the loop goes on. -/
structure Progress (params : StreamMeta) (seen : List StreamChunk) (leg : StreamLeg σ F) : Prop where
  holdback : leg.guards.holdback =
    if params.stop = [] then none else some ((StopHoldback.new params.stop).pushAll (texts seen))
  budget : leg.guards.budget = params.maxTokens.map fun max => ⟨max, estimatedOutput seen⟩
  stopSequence : leg.guards.stopSequence = none
  budgetCut : leg.guards.budgetCut = false
  abortReason : leg.abortReason = none
  running : leg.running = true
  within : ¬Trips params.maxTokens seen

theorem init_progress (state : σ) : Progress params [] (init params state : StreamLeg σ F) where
  holdback := rfl
  budget := rfl
  stopSequence := rfl
  budgetCut := rfl
  abortReason := rfl
  running := rfl
  within := fun ⟨_, _, hsome, _⟩ => hsome rfl

theorem charges_concat (seen : List StreamChunk) (raw : StreamChunk) :
    charges (seen ++ [raw]) = charges seen ++ raw.charged?.toList := by
  unfold charges
  rw [List.filterMap_append]
  cases hraw : raw.charged? with
  | none => rw [List.filterMap_cons_none hraw]; rfl
  | some text => rw [List.filterMap_cons_some hraw]; rfl

theorem estimatedOutput_singleton (raw : StreamChunk) :
    estimatedOutput [raw] = (raw.charged?.map estimateTokens).getD 0 := by
  unfold estimatedOutput charges
  cases hraw : raw.charged? with
  | none => rw [List.filterMap_cons_none hraw]; rfl
  | some text => rw [List.filterMap_cons_some hraw]; rfl

/-- A chunk that is not charged changes nothing. -/
theorem estimatedOutput_uncharged (h : raw.charged? = none) :
    estimatedOutput (seen ++ [raw]) = estimatedOutput seen := by
  rw [estimatedOutput_append, estimatedOutput_singleton, h]
  rfl

theorem trips_uncharged {maxTokens : Option ℚ} (h : raw.charged? = none) :
    Trips maxTokens (seen ++ [raw]) ↔ Trips maxTokens seen := by
  unfold Trips
  rw [charges_concat, h, estimatedOutput_uncharged h, Option.toList_none, List.append_nil]

theorem estimatedOutput_charged {text : JsString} (h : raw.charged? = some text) :
    estimatedOutput (seen ++ [raw]) = estimatedOutput seen + estimateTokens text := by
  rw [estimatedOutput_append, estimatedOutput_singleton, h]
  rfl

theorem trips_charged {max : ℚ} {text : JsString} (h : raw.charged? = some text) :
    Trips (some max) (seen ++ [raw]) ↔ max ≤ ((estimatedOutput seen + estimateTokens text : ℕ) : ℚ) := by
  rw [← estimatedOutput_charged h]
  constructor
  · rintro ⟨m, hm, -, hle⟩
    obtain rfl := Option.some.inj hm
    exact hle
  · intro hle
    refine ⟨max, rfl, ?_, hle⟩
    rw [charges_concat, h]
    exact List.append_ne_nil_of_right_ne_nil _ (List.cons_ne_nil _ _)

/-- Without a budget, or without a text, the accounting does nothing. -/
theorem charge_eq_self {g : LegGuards} (h : g.budget = none ∨ raw.charged? = none) : g.charge raw = g := by
  unfold LegGuards.charge
  rcases h with h | h
  · rw [h]
  · rw [h]
    cases g.budget <;> rfl

/-- The cut of one charge, and the sum it leaves. -/
theorem charge_text (max : ℚ) (spent : ℕ) (text : JsString) :
    ((OutputBudget.charge ⟨max, spent⟩ text).1 = true ↔ max ≤ ((spent + estimateTokens text : ℕ) : ℚ)) ∧
      ((OutputBudget.charge ⟨max, spent⟩ text).1 = false →
        (OutputBudget.charge ⟨max, spent⟩ text).2 = ⟨max, spent + estimateTokens text⟩) := by
  unfold OutputBudget.charge
  by_cases hspent : max ≤ (spent : ℚ)
  · rw [if_pos hspent]
    exact ⟨⟨fun _ => hspent.trans (by exact_mod_cast Nat.le_add_right _ _), fun _ => rfl⟩, fun h => nomatch h⟩
  · rw [if_neg hspent]
    exact ⟨decide_eq_true_iff, fun _ => rfl⟩

/-- **The accounting**: it cuts exactly when the chunks with this one trip the budget. -/
theorem Progress.charge (h : Progress params seen leg) (raw : StreamChunk) :
    ∃ budget cut, leg.guards.charge raw = { leg.guards with budget, budgetCut := cut } ∧
      (cut = true ↔ Trips params.maxTokens (seen ++ [raw])) ∧
      (cut = false → budget = params.maxTokens.map fun max => ⟨max, estimatedOutput (seen ++ [raw])⟩) := by
  have hbudget := h.budget
  cases hmax : params.maxTokens with
  | none =>
    rw [hmax] at hbudget
    refine ⟨leg.guards.budget, leg.guards.budgetCut, charge_eq_self (Or.inl hbudget), ?_, fun _ => hbudget⟩
    rw [h.budgetCut]
    exact ⟨fun hcut => (nomatch hcut), fun ⟨_, hsome, _⟩ => (nomatch hsome)⟩
  | some max =>
    rw [hmax] at hbudget
    cases htext : raw.charged? with
    | none =>
      refine ⟨leg.guards.budget, leg.guards.budgetCut, charge_eq_self (Or.inr htext), ?_, fun _ => ?_⟩
      · rw [h.budgetCut, trips_uncharged htext, ← hmax]
        exact iff_of_false Bool.false_ne_true h.within
      · rw [hbudget, estimatedOutput_uncharged htext]
    | some text =>
      have hcharge : leg.guards.charge raw = { leg.guards with
          budget := some (OutputBudget.charge ⟨max, estimatedOutput seen⟩ text).2
          budgetCut := (OutputBudget.charge ⟨max, estimatedOutput seen⟩ text).1 } := by
        unfold LegGuards.charge
        rw [hbudget, htext, h.budgetCut]
        rfl
      obtain ⟨hcut, hleft⟩ := charge_text max (estimatedOutput seen) text
      refine ⟨_, _, hcharge, hcut.trans (trips_charged htext).symm, fun hgoes => ?_⟩
      rw [hleft hgoes, estimatedOutput_charged htext]
      rfl

/-- The holdback after one chunk more. -/
theorem deliver_holdback (leg : StreamLeg σ F) (raw : StreamChunk) :
    (leg.deliver A raw).guards =
      { leg.guards with holdback := leg.guards.holdback.map fun hb => hb.pushAll raw.text?.toList } := by
  cases hhb : leg.guards.holdback with
  | none =>
    have hself : leg.guards = { leg.guards with holdback := none } := by rw [← hhb]
    cases raw with
    | textDelta index text =>
      unfold deliver
      rw [hhb]
      exact hself
    | _ =>
      unfold deliver
      exact hself
  | some hb =>
    cases raw with
    | textDelta index text =>
      unfold deliver
      rw [hhb]
      rfl
    | _ =>
      unfold deliver
      show leg.guards = { leg.guards with holdback := some hb }
      rw [← hhb]

theorem pushAll_append (hb : StopHoldback) (ts us : List JsString) :
    hb.pushAll (ts ++ us) = (hb.pushAll ts).pushAll us := List.foldl_append

theorem deliver_flags (leg : StreamLeg σ F) (raw : StreamChunk) :
    (leg.deliver A raw).abortReason = leg.abortReason ∧ (leg.deliver A raw).running = leg.running := by
  unfold deliver
  split
  · exact ⟨rfl, rfl⟩
  · exact ⟨rfl, rfl⟩

theorem flush_flags (leg : StreamLeg σ F) :
    (leg.flush A).2.abortReason = leg.abortReason := by
  unfold flush
  split
  · rfl
  · dsimp only
    unfold emitTail
    split <;> rfl

/-- What the close of the holdback changes. -/
theorem flush_guards (leg : StreamLeg σ F) :
    (leg.flush A).2.guards = { leg.guards with holdback := leg.guards.holdback.map fun hb => hb.close.2 } := by
  cases hhb : leg.guards.holdback with
  | none =>
    unfold flush
    rw [hhb]
    show leg.guards = { leg.guards with holdback := none }
    rw [← hhb]
  | some hb =>
    unfold flush
    rw [hhb]
    dsimp only
    unfold emitTail
    split <;> rfl

/-- The accounting leaves the stop sequence alone. -/
theorem charge_stopSequence (g : LegGuards) (raw : StreamChunk) :
    (g.charge raw).stopSequence = g.stopSequence := by
  unfold LegGuards.charge
  split
  · split <;> rfl
  · rfl

theorem texts_concat (seen : List StreamChunk) (raw : StreamChunk) :
    texts (seen ++ [raw]) = texts seen ++ raw.text?.toList := by
  unfold texts
  rw [List.filterMap_append]
  cases raw <;> rfl

/-- The holdback with one more chunk. -/
theorem Progress.holdback_concat (h : Progress params seen leg) (raw : StreamChunk) :
    (leg.guards.holdback.map fun hb => hb.pushAll raw.text?.toList) =
      if params.stop = [] then none else some ((StopHoldback.new params.stop).pushAll (texts (seen ++ [raw]))) := by
  rw [h.holdback, texts_concat]
  split
  · rfl
  · rw [pushAll_append]
    rfl

/-- A chunk with content, after its charge. -/
theorem Progress.content (h : Progress params seen leg) {leg' : StreamLeg σ F} {budget : Option OutputBudget} {cut : Bool}
    (hguards : leg'.guards = { leg.guards with budget, budgetCut := cut }) (habort : leg'.abortReason = leg.abortReason)
    (hrunning : leg'.running = leg.running) (hcut : cut = true ↔ Trips params.maxTokens (seen ++ [raw]))
    (hbudget : cut = false → budget = params.maxTokens.map fun max => ⟨max, estimatedOutput (seen ++ [raw])⟩) :
    (Trips params.maxTokens (seen ++ [raw]) ∧ (leg'.onContent A raw).running = false ∧
      (leg'.onContent A raw).abortReason = some (js "output-budget")) ∨
    Progress params (seen ++ [raw]) (leg'.onContent A raw) := by
  have hdelivered := deliver_holdback (A := A) leg' raw
  obtain ⟨habort', hrunning'⟩ := deliver_flags (A := A) leg' raw
  rw [hguards] at hdelivered
  unfold onContent
  dsimp only
  cases hc : cut with
  | true =>
    have hcutDelivered : (leg'.deliver A raw).guards.budgetCut = true := by rw [hdelivered, hc]
    rw [if_pos hcutDelivered]
    exact Or.inl ⟨hcut.mp hc, rfl, flush_flags _⟩
  | false =>
    have hcutDelivered : ¬(leg'.deliver A raw).guards.budgetCut = true := by
      rw [hdelivered, hc]
      exact Bool.false_ne_true
    rw [if_neg hcutDelivered]
    refine Or.inr ⟨?_, ?_, ?_, ?_, ?_, ?_, ?_⟩
    · rw [hdelivered]
      exact h.holdback_concat raw
    · rw [hdelivered]
      exact hbudget hc
    · rw [hdelivered]
      exact h.stopSequence
    · rw [hdelivered]
      exact hc
    · exact habort'.trans (habort.trans h.abortReason)
    · exact hrunning'.trans (hrunning.trans h.running)
    · intro htrips
      rw [hcut.mpr htrips] at hc
      exact nomatch hc

/-- The step lemma: a chunk trips the budget and the loop is left, or the loop goes on. -/
theorem Progress.step (h : Progress params seen leg) (hraw : raw.isFinish = false) :
    (Trips params.maxTokens (seen ++ [raw]) ∧ (leg.onChunk A E raw).running = false ∧
      (leg.onChunk A E raw).abortReason = some (js "output-budget")) ∨
    Progress params (seen ++ [raw]) (leg.onChunk A E raw) := by
  obtain ⟨budget, cut, hcharge, hcut, hbudget⟩ := h.charge raw
  cases raw with
  | finish reason rs => exact nomatch hraw
  | usage usage =>
    have huncharged : (StreamChunk.usage usage).charged? = none := rfl
    refine Or.inr ⟨?_, ?_, h.stopSequence, h.budgetCut, h.abortReason, h.running, ?_⟩
    · show leg.guards.holdback = _
      rw [texts_concat]
      exact h.holdback.trans (by rw [show texts seen ++ (StreamChunk.usage usage).text?.toList = texts seen from
        List.append_nil _])
    · show leg.guards.budget = _
      rw [h.budget, estimatedOutput_uncharged huncharged]
    · rw [trips_uncharged huncharged]
      exact h.within
  | _ => exact h.content hcharge rfl rfl hcut hbudget

/-- Once the loop is left, the rest of the chunks is not read. -/
theorem run_left (h : leg.running = false) (chunks : List StreamChunk) :
    leg.run A E chunks = leg := by
  unfold run
  induction chunks with
  | nil => rfl
  | cons raw chunks ih =>
    rw [List.foldl_cons, h]
    exact ih

theorem run_append (leg : StreamLeg σ F) (a b : List StreamChunk) :
    leg.run A E (a ++ b) = (leg.run A E a).run A E b := List.foldl_append

theorem run_cons (h : leg.running = true) (raw : StreamChunk) (chunks : List StreamChunk) :
    leg.run A E (raw :: chunks) = (leg.onChunk A E raw).run A E chunks := by
  unfold run
  rw [List.foldl_cons, h]
  rfl

end Guards

end StreamLeg

/-! ### The two legs side by side -/

section Alike

variable {p : AnthropicStreamArgs} {q : OpenAiStreamArgs} {a : AnthropicLeg} {o : OpenAiLeg}
  {params : StreamMeta} {c raw : StreamChunk} {reason : FinishReason} {s : Option JsString}

/-- The legs have decided the same and delivered the same. -/
structure Alike (a : AnthropicLeg) (o : OpenAiLeg) : Prop where
  guards : a.guards = o.guards
  abortReason : a.abortReason = o.abortReason
  running : a.running = o.running
  delivered : anthropicDelivered a.frames = openAiDelivered o.frames

/-- A chunk both adapters word alike: no failed finish, and no reason but `stop` under a stop sequence. -/
def Plain (g : LegGuards) (c : StreamChunk) : Prop :=
  ∀ reason s, c = .finish reason s →
    reason.failure? = none ∧ (g.stopSequence.isSome = true → reason.openAi = .stop)

theorem plain_of_not_finish {g : LegGuards} (h : c.isFinish = false) : Plain g c := by
  rintro reason s rfl
  exact nomatch h

theorem openAi_emit_delivered (h : ∀ reason s, c = .finish reason s → reason.failure? = none) :
    openAiDelivered (o.emit (openAiAdapter q) c).frames =
      (openAiDelivered o.frames).append c.delivered := by
  rw [show (o.emit (openAiAdapter q) c).frames = o.frames ++ (openAiAdapter q o.guards c o.state).1
    from rfl, openAiDelivered_append,
    openAiAdapter_delivered q o.guards o.state h]

theorem anthropic_emit_delivered (h : ∀ reason s, c = .finish reason s → reason.failure? = none →
      a.guards.stopSequence.isSome = true → reason.openAi = .stop) :
    anthropicDelivered (a.emit (anthropicAdapter p) c).frames =
      (anthropicDelivered a.frames).append c.delivered := by
  rw [show (a.emit (anthropicAdapter p) c).frames =
      a.frames ++ (anthropicAdapter p a.guards c a.state).1 from rfl, anthropicDelivered_append,
    anthropicAdapter_delivered p a.guards a.state h]

theorem Alike.emit (h : Alike a o) (hchunk : Plain o.guards c) :
    Alike (a.emit (anthropicAdapter p) c) (o.emit (openAiAdapter q) c) where
  guards := h.guards
  abortReason := h.abortReason
  running := h.running
  delivered := by
    rw [openAi_emit_delivered fun reason s hfin => (hchunk reason s hfin).1, ← h.delivered]
    exact anthropic_emit_delivered fun reason s hfin _ hseq => (hchunk reason s hfin).2 (h.guards ▸ hseq)

/-- The legs stay alike when their guards are set alike. -/
theorem Alike.setGuards (h : Alike a o) (g : LegGuards) : Alike { a with guards := g } { o with guards := g } :=
  ⟨rfl, h.abortReason, h.running, h.delivered⟩

theorem Alike.flush (h : Alike a o) :
    (a.flush (anthropicAdapter p)).1 = (o.flush (openAiAdapter q)).1 ∧
      Alike (a.flush (anthropicAdapter p)).2 (o.flush (openAiAdapter q)).2 := by
  unfold StreamLeg.flush
  rw [h.guards]
  cases o.guards.holdback with
  | none => exact ⟨rfl, h⟩
  | some hb =>
    refine ⟨rfl, ?_⟩
    have hset := h.setGuards { o.guards with holdback := some hb.close.2 }
    dsimp only
    unfold StreamLeg.emitTail
    split
    · exact hset
    · exact hset.emit (plain_of_not_finish rfl)

theorem Alike.deliver (h : Alike a o) (hraw : raw.isFinish = false) :
    Alike (a.deliver (anthropicAdapter p) raw) (o.deliver (openAiAdapter q) raw) := by
  cases raw with
  | textDelta index text =>
    unfold StreamLeg.deliver
    rw [h.guards]
    cases o.guards.holdback with
    | none => exact h.emit (plain_of_not_finish rfl)
    | some hb => exact (h.setGuards { o.guards with holdback := some (hb.push text).2 }).emit (plain_of_not_finish rfl)
  | finish reason s => exact nomatch hraw
  | blockStart | reasoningDelta | blockEnd | usage => exact h.emit (plain_of_not_finish hraw)

theorem Alike.cut (h : Alike a o) (hseq : o.guards.stopSequence = none) :
    Alike (a.cut (anthropicAdapter p)) (o.cut (openAiAdapter q)) := by
  have haborted : Alike { a with abortReason := some (js "output-budget") }
      { o with abortReason := some (js "output-budget") } := ⟨h.guards, rfl, h.running, h.delivered⟩
  obtain ⟨-, hflushed⟩ := haborted.flush (p := p) (q := q)
  have hplain : Plain (StreamLeg.flush (openAiAdapter q)
      { o with abortReason := some (js "output-budget") }).2.guards (.finish .maxTokens none) := by
    rintro reason s hfin
    obtain ⟨rfl, -⟩ := StreamChunk.finish.inj hfin
    refine ⟨rfl, fun hsome => ?_⟩
    rw [StreamLeg.flush_guards] at hsome
    have hsome : o.guards.stopSequence.isSome = true := hsome
    rw [hseq] at hsome
    exact nomatch hsome
  have hended := hflushed.emit (p := p) (q := q) hplain
  exact ⟨hended.guards, hended.abortReason, rfl, hended.delivered⟩

theorem Alike.onContent (h : Alike a o) (hraw : raw.isFinish = false) (hseq : o.guards.stopSequence = none) :
    Alike (a.onContent (anthropicAdapter p) raw) (o.onContent (openAiAdapter q) raw) := by
  have hdelivered := h.deliver (p := p) (q := q) hraw
  unfold StreamLeg.onContent
  dsimp only
  rw [hdelivered.guards]
  split
  · refine hdelivered.cut ?_
    rw [StreamLeg.deliver_holdback]
    exact hseq
  · exact hdelivered

/-- The step lemma: every chunk but a finish keeps the legs alike. -/
theorem Alike.onChunk (h : Alike a o) (hraw : raw.isFinish = false) (hseq : o.guards.stopSequence = none) :
    Alike (a.onChunk (anthropicAdapter p) (AnthropicLeg.onFinish p) raw)
      (o.onChunk (openAiAdapter q) (OpenAiLeg.onFinish q) raw) := by
  have hcharged : Alike { a with guards := a.guards.charge raw } { o with guards := o.guards.charge raw } :=
    h.guards ▸ h.setGuards (a.guards.charge raw)
  have hseq' : (o.guards.charge raw).stopSequence = none := (StreamLeg.charge_stopSequence _ raw).trans hseq
  cases raw with
  | usage usage => exact ⟨by rw [StreamLeg.onChunk, StreamLeg.onChunk, h.guards], h.abortReason, h.running, h.delivered⟩
  | finish reason s => exact nomatch hraw
  | blockStart | textDelta | reasoningDelta | blockEnd => exact hcharged.onContent rfl hseq'

/-! ### Where the legs end -/

theorem terminals_append (a b : Delivered) : (a.append b).terminals = a.terminals ++ b.terminals := rfl

/-- Only a finish is a terminal. -/
theorem delivered_terminals (hraw : raw.isFinish = false) : raw.delivered.terminals = [] := by
  cases raw with
  | finish reason s => exact nomatch hraw
  | blockStart | textDelta | reasoningDelta | blockEnd | usage => rfl

theorem emit_terminals (hraw : raw.isFinish = false) :
    (openAiDelivered (o.emit (openAiAdapter q) raw).frames).terminals = (openAiDelivered o.frames).terminals := by
  have hplain : Plain o.guards raw := plain_of_not_finish hraw
  rw [openAi_emit_delivered fun reason s hfin => (hplain reason s hfin).1, terminals_append,
    delivered_terminals hraw, List.append_nil]

theorem flush_terminals :
    (openAiDelivered (o.flush (openAiAdapter q)).2.frames).terminals = (openAiDelivered o.frames).terminals := by
  unfold StreamLeg.flush
  split
  · rfl
  · dsimp only
    unfold StreamLeg.emitTail
    split
    · rfl
    · exact emit_terminals rfl

theorem deliver_terminals (hraw : raw.isFinish = false) :
    (openAiDelivered (o.deliver (openAiAdapter q) raw).frames).terminals =
      (openAiDelivered o.frames).terminals := by
  unfold StreamLeg.deliver
  split
  · exact emit_terminals rfl
  · exact emit_terminals hraw

theorem cut_terminals :
    (openAiDelivered (o.cut (openAiAdapter q)).frames).terminals =
      (openAiDelivered o.frames).terminals ++ [.finished .length] := by
  have hok : ∀ reason s, StreamChunk.finish .maxTokens none = .finish reason s → reason.failure? = none := by
    intro reason s hfin
    obtain ⟨rfl, -⟩ := StreamChunk.finish.inj hfin
    rfl
  show (openAiDelivered (StreamLeg.emit (openAiAdapter q)
    (StreamLeg.flush (openAiAdapter q) { o with abortReason := some (js "output-budget") }).2
    (.finish .maxTokens none)).frames).terminals = _
  rw [openAi_emit_delivered hok, terminals_append, flush_terminals]
  rfl

/-- A chunk that is no finish adds a terminal exactly when it ends the loop. -/
theorem onChunk_terminals (hraw : raw.isFinish = false) :
    let o' := o.onChunk (openAiAdapter q) (OpenAiLeg.onFinish q) raw
    (o'.running = false ∧
      (openAiDelivered o'.frames).terminals = (openAiDelivered o.frames).terminals ++ [.finished .length]) ∨
    (o'.running = o.running ∧ (openAiDelivered o'.frames).terminals = (openAiDelivered o.frames).terminals) := by
  have hcontent : ∀ l : OpenAiLeg, l.running = o.running → l.frames = o.frames →
      ((l.onContent (openAiAdapter q) raw).running = false ∧
        (openAiDelivered (l.onContent (openAiAdapter q) raw).frames).terminals =
          (openAiDelivered o.frames).terminals ++ [.finished .length]) ∨
      ((l.onContent (openAiAdapter q) raw).running = o.running ∧
        (openAiDelivered (l.onContent (openAiAdapter q) raw).frames).terminals =
          (openAiDelivered o.frames).terminals) := by
    intro l hrunning hframes
    rw [← hrunning, ← hframes]
    unfold StreamLeg.onContent
    dsimp only
    split
    · exact Or.inl ⟨rfl, by rw [cut_terminals, deliver_terminals hraw]⟩
    · exact Or.inr ⟨(StreamLeg.deliver_flags l raw).2, deliver_terminals hraw⟩
  cases raw with
  | usage usage => exact Or.inr ⟨rfl, rfl⟩
  | finish reason s => exact nomatch hraw
  | blockStart | textDelta | reasoningDelta | blockEnd => exact hcontent _ rfl rfl

/-- The two legs in their loops. -/
structure Together (params : StreamMeta) (seen : List StreamChunk) (a : AnthropicLeg) (o : OpenAiLeg) : Prop where
  alike : Alike a o
  progress : o.Progress params seen
  unended : (openAiDelivered o.frames).terminals = []

/-- Both legs have left their loops at the budget. -/
structure BothCut (params : StreamMeta) (seen : List StreamChunk) (a : AnthropicLeg) (o : OpenAiLeg) : Prop where
  alike : Alike a o
  left : o.running = false
  trips : Trips params.maxTokens seen
  ended : (openAiDelivered o.frames).terminals = [.finished .length]

/-- The step lemma of the pair. -/
theorem Together.step {seen : List StreamChunk} (h : Together params seen a o) (hraw : raw.isFinish = false) :
    BothCut params (seen ++ [raw]) (a.onChunk (anthropicAdapter p) (AnthropicLeg.onFinish p) raw)
        (o.onChunk (openAiAdapter q) (OpenAiLeg.onFinish q) raw) ∨
      Together params (seen ++ [raw]) (a.onChunk (anthropicAdapter p) (AnthropicLeg.onFinish p) raw)
        (o.onChunk (openAiAdapter q) (OpenAiLeg.onFinish q) raw) := by
  have halike := h.alike.onChunk (p := p) (q := q) hraw h.progress.stopSequence
  rcases h.progress.step (A := openAiAdapter q) (E := OpenAiLeg.onFinish q) hraw with
    ⟨htrips, hleft, -⟩ | hnext
  · refine Or.inl ⟨halike, hleft, htrips, ?_⟩
    rcases onChunk_terminals (o := o) (q := q) hraw with ⟨-, hended⟩ | ⟨hsame, -⟩
    · rw [hended, h.unended]
      rfl
    · rw [hleft, h.progress.running] at hsame
      exact nomatch hsame
  · refine Or.inr ⟨halike, hnext, ?_⟩
    rcases onChunk_terminals (o := o) (q := q) hraw with ⟨hleft, -⟩ | ⟨-, hended⟩
    · exact nomatch hleft.symm.trans hnext.running
    · exact hended.trans h.unended

/-- The run lemma of the pair: the legs go on together, or both cut. -/
theorem Together.run :
    ∀ (body : List StreamChunk) {seen : List StreamChunk} {a : AnthropicLeg} {o : OpenAiLeg},
      (∀ raw ∈ body, raw.isFinish = false) → Together params seen a o →
      BothCut params (seen ++ body) (a.run (anthropicAdapter p) (AnthropicLeg.onFinish p) body)
          (o.run (openAiAdapter q) (OpenAiLeg.onFinish q) body) ∨
        Together params (seen ++ body) (a.run (anthropicAdapter p) (AnthropicLeg.onFinish p) body)
          (o.run (openAiAdapter q) (OpenAiLeg.onFinish q) body)
  | [], seen, a, o, _, h => by
    rw [List.append_nil]
    exact Or.inr h
  | raw :: body, seen, a, o, hbody, h => by
    have hrunning : a.running = true := h.alike.running.trans h.progress.running
    rw [StreamLeg.run_cons hrunning, StreamLeg.run_cons h.progress.running, ← List.singleton_append,
      ← List.append_assoc]
    rcases h.step (hbody raw List.mem_cons_self) with hcut | hnext
    · have hleft := hcut.alike.running.trans hcut.left
      rw [StreamLeg.run_left hleft, StreamLeg.run_left hcut.left]
      exact Or.inl ⟨hcut.alike, hcut.left, hcut.trips.append body, hcut.ended⟩
    · exact Together.run body (fun r hr => hbody r (List.mem_cons_of_mem raw hr)) hnext

theorem init_together : Together params [] (StreamLeg.init params ⟨false, 0, none⟩)
    (StreamLeg.init params ⟨false, 0, false⟩) where
  alike := ⟨rfl, rfl, rfl, rfl⟩
  progress := StreamLeg.init_progress _
  unended := rfl

/-! ### The finish -/

/-- The legs deliver the same texts, take the same decision to abort, and end in the same terminal. -/
structure LegsAgree (a : AnthropicLeg) (o : OpenAiLeg) : Prop where
  text : (anthropicDelivered a.frames).text = (openAiDelivered o.frames).text
  reasoning : (anthropicDelivered a.frames).reasoning = (openAiDelivered o.frames).reasoning
  abortReason : a.abortReason = o.abortReason
  terminal : ∃ t, (anthropicDelivered a.frames).terminals = [t] ∧ (openAiDelivered o.frames).terminals = [t]

theorem Alike.agree (h : Alike a o) {t : Terminal} (hended : (openAiDelivered o.frames).terminals = [t]) :
    LegsAgree a o where
  text := congrArg Delivered.text h.delivered
  reasoning := congrArg Delivered.reasoning h.delivered
  abortReason := h.abortReason
  terminal := ⟨t, (congrArg Delivered.terminals h.delivered).trans hended, hended⟩

/-- The terminal of a successful span, when no budget cut it: a stop sequence makes it a plain stop. -/
theorem Alike.emitFinish (h : Alike a o) (hcut : o.guards.budgetCut = false) (hok : reason.failure? = none) :
    Alike (a.emitFinish (anthropicAdapter p) (.finish reason s))
        (o.emitFinish (openAiAdapter q) (.finish reason s)) ∧
      (openAiDelivered (o.emitFinish (openAiAdapter q) (.finish reason s)).frames).terminals =
        (openAiDelivered o.frames).terminals ++
          [.finished (if o.guards.stopSequence.isSome = true then .stop else reason.openAi)] := by
  unfold StreamLeg.emitFinish
  rw [h.guards, hcut, Bool.false_or, if_neg Bool.false_ne_true]
  have hplain : Plain o.guards
      (if o.guards.stopSequence.isSome = true then .finish .stop none else .finish reason s) := by
    rintro reason' s' hfin
    split at hfin
    · obtain ⟨rfl, -⟩ := StreamChunk.finish.inj hfin
      exact ⟨rfl, fun _ => rfl⟩
    · next hnone =>
      obtain ⟨rfl, -⟩ := StreamChunk.finish.inj hfin
      exact ⟨hok, fun hsome => absurd hsome hnone⟩
  refine ⟨h.emit hplain, ?_⟩
  rw [openAi_emit_delivered fun reason' s' hfin => (hplain reason' s' hfin).1, terminals_append]
  split
  · rfl
  · unfold StreamChunk.delivered
    dsimp only
    rw [hok]
    rfl

/-- A successful finish: flush, override, emit. -/
theorem Together.onFinish {seen : List StreamChunk} (h : Together params seen a o) (hok : reason.failure? = none) :
    LegsAgree (a.onFinish p reason s) (o.onFinish q reason s) := by
  obtain ⟨hmatched, hflushed⟩ := h.alike.flush (p := p) (q := q)
  have hcut : (o.flush (openAiAdapter q)).2.guards.budgetCut = false := by
    rw [StreamLeg.flush_guards]
    exact h.progress.budgetCut
  have hunended : (openAiDelivered (o.flush (openAiAdapter q)).2.frames).terminals = [] :=
    flush_terminals.trans h.unended
  unfold AnthropicLeg.onFinish OpenAiLeg.onFinish
  rw [hok]
  dsimp only
  rw [hmatched, hflushed.guards]
  set stopSequence := if reason.isToolCalls = true then (o.flush (openAiAdapter q)).2.guards.stopSequence
    else (o.flush (openAiAdapter q)).1.or (o.flush (openAiAdapter q)).2.guards.stopSequence
  have hset := hflushed.setGuards { (o.flush (openAiAdapter q)).2.guards with stopSequence }
  obtain ⟨halike, hended⟩ := hset.emitFinish (p := p) (q := q) (s := s) hcut hok
  refine halike.agree (t := .finished (if stopSequence.isSome = true then .stop else reason.openAi)) ?_
  rw [hended]
  show (openAiDelivered (o.flush (openAiAdapter q)).2.frames).terminals ++ _ = _
  rw [hunended, List.nil_append]

/-- The text the close of the holdback flushes. -/
def tailText (g : LegGuards) : JsString :=
  match g.holdback with
  | none => []
  | some hb => hb.close.1.1

theorem flush_delivered : anthropicDelivered (a.flush (anthropicAdapter p)).2.frames =
    (anthropicDelivered a.frames).append ⟨tailText a.guards, [], []⟩ := by
  unfold StreamLeg.flush tailText
  cases a.guards.holdback with
  | none => exact (Delivered.append_nothing _).symm
  | some hb =>
    dsimp only
    unfold StreamLeg.emitTail
    split
    · next htail =>
      rw [htail]
      exact (Delivered.append_nothing _).symm
    · exact anthropic_emit_delivered (c := .textDelta 0 _) fun reason s hfin => (nomatch hfin)

/-- **A failed finish**: only the Anthropic leg flushes its holdback, so the legs agree exactly when nothing is
withheld. -/
theorem Together.onFinish_failed {seen : List StreamChunk} (h : Together params seen a o) {f : LlmFailure}
    (hfail : reason.failure? = some f) :
    LegsAgree (a.onFinish p reason s) (o.onFinish q reason s) ↔ tailText o.guards = [] := by
  have ho : openAiDelivered (o.onFinish q reason s).frames =
      (openAiDelivered o.frames).append ⟨[], [], [.failed]⟩ := by
    unfold OpenAiLeg.onFinish
    rw [hfail]
    dsimp only
    rw [openAiDelivered_append]
    rfl
  have hdelivered : (StreamChunk.finish reason s).delivered = ⟨[], [], [.failed]⟩ := by
    unfold StreamChunk.delivered
    dsimp only
    rw [hfail]
    rfl
  have ha : anthropicDelivered (a.onFinish p reason s).frames =
      ((openAiDelivered o.frames).append ⟨tailText o.guards, [], []⟩).append ⟨[], [], [.failed]⟩ := by
    rw [← h.alike.delivered, ← h.alike.guards, ← flush_delivered (p := p), ← hdelivered]
    unfold AnthropicLeg.onFinish
    rw [hfail]
    dsimp only
    refine anthropic_emit_delivered fun reason' s' hfin hok => ?_
    obtain ⟨rfl, -⟩ := StreamChunk.finish.inj hfin
    exact nomatch hfail.symm.trans hok
  have habort : (a.onFinish p reason s).abortReason = (o.onFinish q reason s).abortReason := by
    unfold AnthropicLeg.onFinish OpenAiLeg.onFinish
    rw [hfail]
    exact (StreamLeg.flush_flags a).trans h.alike.abortReason
  have hunended := h.unended
  constructor
  · intro hagree
    have htext := hagree.text
    rw [ha, ho] at htext
    have htext : (openAiDelivered o.frames).text ++ tailText o.guards ++ [] = (openAiDelivered o.frames).text ++ [] := htext
    rw [List.append_nil, List.append_nil] at htext
    exact List.append_right_eq_self.mp htext
  · intro htail
    have hsame : anthropicDelivered (a.onFinish p reason s).frames =
        openAiDelivered (o.onFinish q reason s).frames := by
      rw [ha, ho, htail]
      exact congrArg (Delivered.append · _) (Delivered.append_nothing _)
    refine ⟨congrArg _ hsame, congrArg _ hsame, habort, .failed, ?_, ?_⟩
    · rw [hsame, ho, terminals_append, hunended]
      rfl
    · rw [ho, terminals_append, hunended]
      rfl

theorem tailText_iff {seen : List StreamChunk} (h : o.Progress params seen) :
    tailText o.guards ≠ [] ↔ StopHoldback.EndsHeld params.stop (textDeltas seen) := by
  unfold tailText
  rw [h.holdback]
  by_cases hstop : params.stop = []
  · rw [if_pos hstop, hstop]
    refine ⟨fun hne => absurd rfl hne, ?_⟩
    rintro ⟨-, b, -, -, s, hs, -⟩
    exact absurd hs List.not_mem_nil
  · rw [if_neg hstop, ← texts_flatten]
    exact StopHoldback.close_pushAll_iff _ _

/-- **The two streaming legs agree exactly when no failure ends the span behind withheld text**: unless the
finish is a failure that the budget did not forestall, no stop is complete in the text, and one begins at its
end. -/
theorem legs_agree_iff (args : AnthropicStreamArgs) (args' : OpenAiStreamArgs) (params : StreamMeta)
    {body : List StreamChunk} (hbody : ∀ raw ∈ body, raw.isFinish = false) (reason : FinishReason)
    (rs : Option JsString) :
    LegsAgree (streamAnthropicMessages args params (body ++ [.finish reason rs]))
        (streamOpenAiChat args' params (body ++ [.finish reason rs])) ↔
      ¬(reason.failure?.isSome = true ∧ ¬Trips params.maxTokens body ∧
        StopHoldback.EndsHeld params.stop (textDeltas body)) := by
  unfold streamAnthropicMessages streamOpenAiChat
  rw [StreamLeg.run_append, StreamLeg.run_append]
  rcases Together.run (p := args) (q := args') body hbody init_together with hcut | htogether
  · rw [StreamLeg.run_left (hcut.alike.running.trans hcut.left), StreamLeg.run_left hcut.left]
    exact ⟨fun _ hbad => hbad.2.1 hcut.trips, fun _ => hcut.alike.agree hcut.ended⟩
  · rw [StreamLeg.run_cons (htogether.alike.running.trans htogether.progress.running),
      StreamLeg.run_cons htogether.progress.running]
    cases hfail : reason.failure? with
    | none => exact ⟨fun _ hbad => (nomatch hbad.1), fun _ => htogether.onFinish hfail⟩
    | some f =>
      have hiff := tailText_iff htogether.progress
      constructor
      · intro hagree hbad
        exact hiff.mpr hbad.2.2 ((htogether.onFinish_failed hfail).mp hagree)
      · intro hgood
        refine (htogether.onFinish_failed hfail).mpr ?_
        by_contra htail
        exact hgood ⟨rfl, htogether.progress.within, hiff.mp htail⟩

/-- A span that ends well behind withheld text. -/
theorem legs_agree_withheld :
    LegsAgree
      (streamAnthropicMessages ⟨js "msg_1", js "gemini", 12⟩ ⟨[js "STOP"], some 4096⟩
        ([.blockStart 0 .text, .textDelta 0 (js "Hello ST"), .usage .zero] ++ [.finish .stop none]))
      (streamOpenAiChat ⟨js "chatcmpl-1", 0, js "gemini", true⟩ ⟨[js "STOP"], some 4096⟩
        ([.blockStart 0 .text, .textDelta 0 (js "Hello ST"), .usage .zero] ++ [.finish .stop none])) :=
  (legs_agree_iff _ _ _ (by decide) _ _).mpr fun h => nomatch h.1

/-- The run fails behind withheld text: one leg shows it, the other does not. -/
theorem not_legs_agree_failed :
    ¬LegsAgree
      (streamAnthropicMessages ⟨js "msg_1", js "gemini", 12⟩ ⟨[js "STOP"], none⟩
        [.blockStart 0 .text, .textDelta 0 (js "Hello ST"), .finish (.error ⟨js "boom", .processExit⟩) none])
      (streamOpenAiChat ⟨js "chatcmpl-1", 0, js "gemini", true⟩ ⟨[js "STOP"], none⟩
        [.blockStart 0 .text, .textDelta 0 (js "Hello ST"), .finish (.error ⟨js "boom", .processExit⟩) none]) := by
  intro h
  have htext := h.text
  revert htext
  decide +kernel

end Alike

end AgyProxy
