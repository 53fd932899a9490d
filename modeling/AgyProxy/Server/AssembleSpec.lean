import AgyProxy.Server.Assemble
import AgyProxy.Server.StreamGuardsSpec
import AgyProxy.Server.StreamLegsSpec

/-!
# AgyProxy.Server.AssembleSpec — the two non-streaming bodies against each other

* `SameSpan`: the two legs collected the same span (`sameSpan_collectChunks`).
* `Cut`: what each leg makes of a span's text and finish, from the first stop and the token cut alone.
* `bodies_agree_iff`: **the bodies agree exactly when no stop string stands in a span that the token cut
  shortens or that did not end in a plain stop**.
-/

namespace AgyProxy

open Js Lib

/-! ### The same span -/

/-- The two collections agree on what both keep. -/
structure SameSpan (o : OpenAiCollected) (a : AnthropicCollected) : Prop where
  text : o.text = a.text
  toolCalls : o.toolCalls = a.toolCalls
  usage : o.usage = a.usage
  finish : o.finish = a.finish

theorem SameSpan.add {o : OpenAiCollected} {a : AnthropicCollected} (h : SameSpan o a) (ch : StreamChunk) :
    SameSpan (o.add ch) (a.add ch) := by
  obtain ⟨htext, hcalls, husage, hfinish⟩ := h
  cases ch with
  | textDelta index text => exact ⟨congrArg (· ++ text) htext, hcalls, husage, hfinish⟩
  | blockEnd index block =>
    cases block with
    | toolCall id name arguments =>
      exact ⟨htext, congrArg (· ++ [(⟨id, name, arguments⟩ : ToolCallBlock)]) hcalls, husage, hfinish⟩
    | text | reasoning => exact ⟨htext, hcalls, husage, hfinish⟩
  | usage usage => exact ⟨htext, hcalls, rfl, hfinish⟩
  | finish reason replayState => exact ⟨htext, hcalls, husage, rfl⟩
  | blockStart | reasoningDelta => exact ⟨htext, hcalls, husage, hfinish⟩

/-- Both legs collect the same span from the same chunks. -/
theorem sameSpan_collectChunks (chunks : List StreamChunk) :
    SameSpan (OpenAiCollected.collectChunks chunks) (AnthropicCollected.collectChunks chunks) := by
  unfold OpenAiCollected.collectChunks AnthropicCollected.collectChunks
  induction chunks using List.reverseRecOn with
  | nil => exact ⟨rfl, rfl, rfl, rfl⟩
  | append_singleton chunks ch ih =>
    rw [List.foldl_append, List.foldl_append]
    exact ih.add ch

/-! ### What a client reads of a body -/

/-- The text of the message; a null content shows none. -/
def OpenAiChatCompletion.text (c : OpenAiChatCompletion) : JsString := c.content.getD []

def AnthropicMessageBlock.visible : AnthropicMessageBlock → JsString
  | text t => t
  | _ => []

/-- The texts of the text blocks. -/
def AnthropicMessage.text (m : AnthropicMessage) : JsString := m.content.flatMap AnthropicMessageBlock.visible

/-- The same visible text, and the same reason in the words of either protocol. -/
structure BodiesAgree (c : OpenAiChatCompletion) (m : AnthropicMessage) : Prop where
  text : c.text = m.text
  reason : c.finishReason = m.stopReason.finishReason

theorem assembleCompletion_text (p : CompletionArgs) (raw : OpenAiCollected) :
    (assembleCompletion p raw).text = applyStop (raw.applyMaxTokens p.maxTokens).text p.stop := by
  unfold assembleCompletion OpenAiChatCompletion.text
  dsimp only
  split
  · next h => exact h.1.symm
  · rfl

theorem visible_toolUse (calls : List ToolCallBlock) :
    (calls.map ToolCallBlock.toolUse).flatMap AnthropicMessageBlock.visible = [] := by
  rw [List.flatMap_map, List.flatMap_eq_nil_iff]
  intro t _
  rfl

theorem assembleMessage_text (q : MessageArgs) (raw : AnthropicCollected) :
    (assembleMessage q raw).text = (raw.applyFinishTransforms q.stop q.maxTokens).1.text := by
  unfold assembleMessage AnthropicMessage.text
  dsimp only
  rw [List.flatMap_append, List.flatMap_append, visible_toolUse, List.append_nil]
  have hthinking : (if (raw.applyFinishTransforms q.stop q.maxTokens).1.thinking = [] then []
      else [AnthropicMessageBlock.thinking (raw.applyFinishTransforms q.stop q.maxTokens).1.thinking]).flatMap
        AnthropicMessageBlock.visible = [] := by
    split <;> rfl
  rw [hthinking, List.nil_append]
  split
  · exact List.append_nil _
  · next h => exact (not_not.mp (not_or.mp h).1).symm

theorem assembleCompletion_finishReason (p : CompletionArgs) (raw : OpenAiCollected) :
    (assembleCompletion p raw).finishReason =
      ((raw.applyMaxTokens p.maxTokens).finish.map FinishReason.openAi).getD .stop := rfl

/-! ### The cuts -/

section Cuts

variable {text : JsString} {stop : List JsString}

/-- A stop string occurs in the text. -/
def HasStop (stop : List JsString) (text : JsString) : Prop := ∃ s ∈ stop, ∃ i, Occurs s text i

/-- The text is longer than the output cap allows: more tokens were spent, and there is a text to cut. -/
def OverCap (maxTokens : Option ℕ) (usage : Option TokenUsage) (text : JsString) : Prop :=
  ∃ max, maxTokens = some max ∧ (max : ℚ) < outputTokens usage ∧ text ≠ []

theorem not_hasStop (h : ¬HasStop stop text) : firstMatch text stop = none :=
  firstMatch_eq_none_iff.mpr fun s hs i hocc => h ⟨s, hs, i, hocc⟩

theorem HasStop.first (h : HasStop stop text) : ∃ i s, firstMatch text stop = some (i, s) := by
  cases hfirst : firstMatch text stop with
  | none =>
    obtain ⟨s, hs, i, hocc⟩ := h
    exact absurd hocc (firstMatch_eq_none_iff.mp hfirst s hs i)
  | some b => exact ⟨b.1, b.2, rfl⟩

/-- The first stop lies before the end of the text. -/
theorem firstMatch_lt {i : ℕ} {s : JsString} (hfirst : firstMatch text stop = some (i, s)) (hne : text ≠ []) :
    i < text.length := by
  have hmatch := firstMatch_eq_some_iff.mp hfirst
  have hpos : 0 < text.length := List.length_pos_of_ne_nil hne
  by_cases hs : s = []
  · by_contra hle
    have hbefore := hmatch.1 s hmatch.mem 0 (by omega)
    rw [hs] at hbefore
    exact hbefore List.nil_prefix
  · have hlen := hmatch.occurs.add_length_le hs
    have hspos : 0 < s.length := List.length_pos_of_ne_nil hs
    omega

theorem take_ne_self {i : ℕ} (hi : i < text.length) : text.take i ≠ text := by
  intro heq
  have hlen := congrArg List.length heq
  rw [List.length_take] at hlen
  omega

/-- What is left of a text without stops has none either. -/
theorem not_hasStop_take (h : ¬HasStop stop text) (k : ℕ) : ¬HasStop stop (text.take k) := by
  rintro ⟨s, hs, i, hocc⟩
  refine h ⟨s, hs, i, ?_⟩
  unfold Occurs at hocc ⊢
  rw [List.drop_take] at hocc
  exact hocc.trans (List.take_prefix _ _)

theorem applyStop_of_not_hasStop (h : ¬HasStop stop text) : applyStop text stop = text := by
  unfold applyStop
  rw [applyStopWithHit_eq, not_hasStop h]

/-- The cut changes the text exactly when there is a stop in it, and a text. -/
theorem applyStop_eq_self_iff : applyStop text stop = text ↔ ¬(HasStop stop text ∧ text ≠ []) := by
  constructor
  · rintro heq ⟨hstop, hne⟩
    obtain ⟨i, s, hfirst⟩ := hstop.first
    refine take_ne_self (firstMatch_lt hfirst hne) ?_
    unfold applyStop at heq
    rwa [applyStopWithHit_eq, hfirst] at heq
  · intro h
    by_cases hstop : HasStop stop text
    · obtain rfl : text = [] := not_not.mp fun hne => h ⟨hstop, hne⟩
      unfold applyStop
      rw [applyStopWithHit_eq]
      split
      · exact List.take_nil
      · rfl
    · exact applyStop_of_not_hasStop hstop

theorem keepChars_lt {max : ℕ} {output : ℚ} {length : ℕ} (hmax : (max : ℚ) < output) (hlength : 0 < length) :
    keepChars length max output < length := by
  unfold keepChars
  have hmax0 : (0 : ℚ) ≤ max := Nat.cast_nonneg max
  have houtput : 0 < output := lt_of_le_of_lt hmax0 hmax
  have hlen0 : (0 : ℚ) < length := Nat.cast_pos.mpr hlength
  have hquot : (length * max : ℚ) / output < length := by
    rw [div_lt_iff₀ houtput]
    exact mul_lt_mul_of_pos_left hmax hlen0
  have hfloor : ⌊(length * max : ℚ) / output⌋ < (length : ℤ) := by
    rw [Int.floor_lt]
    exact_mod_cast hquot
  omega

end Cuts

/-! ### The OpenAI body -/

section OpenAi

variable {raw : OpenAiCollected} {maxTokens : Option ℕ}

/-- A stopped span over the cap loses text and ends in `length`. -/
theorem applyMaxTokens_over (hstop : raw.finish = some .stop) (hover : OverCap maxTokens raw.usage raw.text) :
    (raw.applyMaxTokens maxTokens).finish = some .maxTokens := by
  obtain ⟨max, rfl, hmax, htext⟩ := hover
  have houtput : 0 < outputTokens raw.usage := lt_of_le_of_lt (Nat.cast_nonneg max) hmax
  have hkeep := keepChars_lt hmax (List.length_pos_of_ne_nil htext)
  unfold OpenAiCollected.applyMaxTokens
  rw [hstop]
  dsimp only
  rw [if_neg (by push Not; exact ⟨houtput, hmax, htext⟩), if_neg (Nat.not_le.mpr hkeep)]

/-- Every other span is left as it is. -/
theorem applyMaxTokens_within (h : ¬(raw.finish = some .stop ∧ OverCap maxTokens raw.usage raw.text)) :
    raw.applyMaxTokens maxTokens = raw := by
  unfold OpenAiCollected.applyMaxTokens
  split
  · next max hfinish =>
    dsimp only
    refine if_pos ?_
    by_contra hlarge
    push Not at hlarge
    exact h ⟨hfinish, max, rfl, hlarge.2⟩
  · rfl

/-- What is left is a prefix of the text. -/
theorem applyMaxTokens_text (raw : OpenAiCollected) (maxTokens : Option ℕ) :
    ∃ k, (raw.applyMaxTokens maxTokens).text = raw.text.take k := by
  unfold OpenAiCollected.applyMaxTokens
  split
  · dsimp only
    split
    · exact ⟨_, List.take_length.symm⟩
    · split
      · exact ⟨_, List.take_length.symm⟩
      · exact ⟨_, rfl⟩
  · exact ⟨_, List.take_length.symm⟩

theorem applyMaxTokens_finish (hstop : raw.finish = some .stop) :
    (raw.applyMaxTokens maxTokens).finish = some .stop ∨ (raw.applyMaxTokens maxTokens).finish = some .maxTokens := by
  by_cases hover : OverCap maxTokens raw.usage raw.text
  · exact Or.inr (applyMaxTokens_over hstop hover)
  · rw [applyMaxTokens_within fun h => hover h.2]
    exact Or.inl hstop

end OpenAi

/-! ### The Anthropic body -/

section Anthropic

variable {raw : AnthropicCollected} {stop : List JsString} (maxTokens : Option ℕ)

theorem cutAtStop_eq (raw : AnthropicCollected) (stop : List JsString) :
    raw.cutAtStop stop =
      match firstMatch raw.text stop with
      | some (i, s) =>
        if raw.finish = some .stop then ({ raw with text := raw.text.take i }, some s) else (raw, none)
      | none => (raw, none) := by
  have hscan : stop.foldl (noteStop raw.text) (none, none) =
      ((firstMatch raw.text stop).map Prod.fst, (firstMatch raw.text stop).map Prod.snd) :=
    foldl_noteStop raw.text stop none
  unfold AnthropicCollected.cutAtStop
  rw [hscan]
  cases firstMatch raw.text stop <;> rfl

/-- A span that did not end in a plain stop is not cut at all. -/
theorem applyFinishTransforms_of_ne_stop (h : raw.finish ≠ some .stop) :
    raw.applyFinishTransforms stop maxTokens = (raw, none) := by
  have hcut : raw.cutAtStop stop = (raw, none) := by
    rw [cutAtStop_eq]
    split
    · exact if_neg h
    · rfl
  unfold AnthropicCollected.applyFinishTransforms
  rw [hcut]
  unfold AnthropicCollected.cutAtMaxTokens
  cases maxTokens with
  | none => rfl
  | some max => exact congrArg (·, none) (if_neg fun hboth => h hboth.1)

/-- Without a stop in the text only the token cut is made, as the other leg makes it. -/
theorem applyFinishTransforms_of_not_hasStop {o : OpenAiCollected} (hsame : SameSpan o raw)
    (hstop : raw.finish = some .stop) (h : ¬HasStop stop raw.text) :
    (raw.applyFinishTransforms stop maxTokens).1.text = (o.applyMaxTokens maxTokens).text ∧
      (raw.applyFinishTransforms stop maxTokens).1.finish = (o.applyMaxTokens maxTokens).finish ∧
      (raw.applyFinishTransforms stop maxTokens).2 = none := by
  have hcut : raw.cutAtStop stop = (raw, none) := by
    rw [cutAtStop_eq, not_hasStop h]
  obtain ⟨text, thinking, toolCalls, usage, finish⟩ := raw
  obtain ⟨text', chars, toolCalls', usage', finish'⟩ := o
  obtain ⟨rfl, rfl, rfl, rfl⟩ := hsame
  obtain rfl : finish' = some .stop := hstop
  unfold AnthropicCollected.applyFinishTransforms
  rw [hcut]
  unfold AnthropicCollected.cutAtMaxTokens OpenAiCollected.applyMaxTokens
  cases maxTokens with
  | none => exact ⟨rfl, rfl, rfl⟩
  | some max =>
    dsimp only
    rw [if_pos ⟨rfl, rfl⟩]
    by_cases hover : (max : ℚ) < outputTokens usage' ∧ text' ≠ []
    · have houtput : 0 < outputTokens usage' := lt_of_le_of_lt (Nat.cast_nonneg max) hover.1
      have hkeep := keepChars_lt hover.1 (List.length_pos_of_ne_nil hover.2)
      rw [if_pos hover, if_pos hkeep, if_neg (by push Not; exact ⟨houtput, hover.1, hover.2⟩),
        if_neg (Nat.not_le.mpr hkeep)]
      exact ⟨rfl, rfl, rfl⟩
    · have hsmall : outputTokens usage' ≤ 0 ∨ outputTokens usage' ≤ max ∨ text' = [] := by
        by_contra hlarge
        push Not at hlarge
        exact hover hlarge.2
      rw [if_neg hover, if_pos hsmall]
      exact ⟨rfl, rfl, rfl⟩

/-- With a stop in the text, the stop is what ends the message. -/
theorem applyFinishTransforms_of_hasStop (hstop : raw.finish = some .stop) (h : HasStop stop raw.text) :
    (raw.applyFinishTransforms stop maxTokens).2.isSome = true ∧
      (raw.applyFinishTransforms stop maxTokens).1.text = applyStop raw.text stop := by
  obtain ⟨i, s, hfirst⟩ := h.first
  have hcut : raw.cutAtStop stop = ({ raw with text := raw.text.take i }, some s) := by
    rw [cutAtStop_eq, hfirst]
    exact if_pos hstop
  have happly : applyStop raw.text stop = raw.text.take i := by
    unfold applyStop
    rw [applyStopWithHit_eq, hfirst]
  have hhit : s = [] → raw.text.take i = [] := by
    rintro rfl
    have hmatch := firstMatch_eq_some_iff.mp hfirst
    have hi : i = 0 := by
      by_contra hi
      exact hmatch.1 [] hmatch.mem 0 (by omega) List.nil_prefix
    rw [hi]
    rfl
  unfold AnthropicCollected.applyFinishTransforms
  rw [hcut, happly]
  refine ⟨rfl, ?_⟩
  unfold AnthropicCollected.cutAtMaxTokens
  cases maxTokens with
  | none => rfl
  | some max =>
    dsimp only
    split
    · next hboth => rw [if_neg fun hover => hover.2 (hhit hboth.2)]
    · rfl

end Anthropic

/-! ### Agreement -/

section Agreement

variable {o : OpenAiCollected} {a : AnthropicCollected} {reason : FinishReason} (p : CompletionArgs) (id : JsString)

/-- The same arguments for the other leg. -/
def CompletionArgs.messageArgs (p : CompletionArgs) (id : JsString) : MessageArgs :=
  ⟨id, p.requestModel, p.stop, p.maxTokens⟩

theorem assembleMessage_stopReason (raw : AnthropicCollected) :
    (assembleMessage (p.messageArgs id) raw).stopReason =
      ((raw.applyFinishTransforms p.stop p.maxTokens).1.finish.getD .stop).anthropic
        (raw.applyFinishTransforms p.stop p.maxTokens).2 := rfl

theorem finishReason_anthropic (hok : reason.failure? = none) :
    (reason.anthropic none).finishReason = reason.openAi := by
  cases reason with
  | stop | toolCalls | maxTokens => rfl
  | aborted | error => exact nomatch hok

/-- A span that ended otherwise than in a plain stop: one leg cuts it at a stop, the other never does. -/
theorem bodies_agree_of_ne_stop (hsame : SameSpan o a) (hfinish : o.finish = some reason)
    (hok : reason.failure? = none) (hne : reason ≠ .stop) :
    BodiesAgree (assembleCompletion p o) (assembleMessage (p.messageArgs id) a) ↔
      ¬(HasStop p.stop o.text ∧ o.text ≠ []) := by
  have hplain : o.finish ≠ some .stop := by
    rw [hfinish]
    exact fun h => hne (Option.some.inj h)
  have ho : o.applyMaxTokens p.maxTokens = o := applyMaxTokens_within fun h => hplain h.1
  have ha : a.applyFinishTransforms p.stop p.maxTokens = (a, none) :=
    applyFinishTransforms_of_ne_stop _ (hsame.finish ▸ hplain)
  rw [← applyStop_eq_self_iff]
  constructor
  · intro h
    have htext := h.text
    rw [assembleCompletion_text, assembleMessage_text, ho] at htext
    show applyStop o.text p.stop = o.text
    rw [htext, hsame.text]
    exact congrArg (fun r => r.1.text) ha
  · intro h
    refine ⟨?_, ?_⟩
    · rw [assembleCompletion_text, assembleMessage_text, ho, h, hsame.text]
      exact (congrArg (fun r => r.1.text) ha).symm
    · rw [assembleCompletion_finishReason, assembleMessage_stopReason, ho, ha, ← hsame.finish, hfinish]
      exact (finishReason_anthropic hok).symm

/-- A span that ended in a plain stop, with a stop string: one leg makes both cuts, the other the first only. -/
theorem bodies_agree_of_hasStop (hsame : SameSpan o a) (hfinish : o.finish = some .stop)
    (hstop : HasStop p.stop o.text) :
    BodiesAgree (assembleCompletion p o) (assembleMessage (p.messageArgs id) a) ↔
      ¬OverCap p.maxTokens o.usage o.text := by
  obtain ⟨hhit, htext⟩ := applyFinishTransforms_of_hasStop p.maxTokens (hsame.finish ▸ hfinish) (hsame.text ▸ hstop)
  have hended : (assembleMessage (p.messageArgs id) a).stopReason.finishReason = .stop := by
    rw [assembleMessage_stopReason]
    unfold FinishReason.anthropic
    rw [if_pos hhit]
    rfl
  by_cases hover : OverCap p.maxTokens o.usage o.text
  · refine iff_of_false (fun h => ?_) (fun h => h hover)
    have hlength : (assembleCompletion p o).finishReason = .length := by
      rw [assembleCompletion_finishReason, applyMaxTokens_over hfinish hover]
      rfl
    have hcontra := h.reason
    rw [hended, hlength] at hcontra
    exact nomatch hcontra
  · have ho : o.applyMaxTokens p.maxTokens = o := applyMaxTokens_within fun h => hover h.2
    refine iff_of_true ⟨?_, ?_⟩ hover
    · rw [assembleCompletion_text, assembleMessage_text, ho, hsame.text]
      exact htext.symm
    · rw [hended, assembleCompletion_finishReason, ho, hfinish]
      rfl

/-- A span that ended in a plain stop, without a stop string: both legs make the token cut. -/
theorem bodies_agree_of_not_hasStop (hsame : SameSpan o a) (hfinish : o.finish = some .stop)
    (hstop : ¬HasStop p.stop o.text) :
    BodiesAgree (assembleCompletion p o) (assembleMessage (p.messageArgs id) a) := by
  obtain ⟨htext, hfin, hhit⟩ := applyFinishTransforms_of_not_hasStop p.maxTokens hsame (hsame.finish ▸ hfinish)
    (hsame.text ▸ hstop)
  have hleft : ¬HasStop p.stop (o.applyMaxTokens p.maxTokens).text := by
    obtain ⟨k, hk⟩ := applyMaxTokens_text o p.maxTokens
    rw [hk]
    exact not_hasStop_take hstop k
  refine ⟨?_, ?_⟩
  · rw [assembleCompletion_text, assembleMessage_text, applyStop_of_not_hasStop hleft]
    exact htext.symm
  · rw [assembleMessage_stopReason, assembleCompletion_finishReason, hfin, hhit]
    rcases applyMaxTokens_finish hfinish with hfin' | hfin'
    · rw [hfin']
      rfl
    · rw [hfin']
      rfl

theorem bodies_agree_of_stop (hsame : SameSpan o a) (hfinish : o.finish = some .stop) :
    BodiesAgree (assembleCompletion p o) (assembleMessage (p.messageArgs id) a) ↔
      ¬(HasStop p.stop o.text ∧ OverCap p.maxTokens o.usage o.text) := by
  by_cases hstop : HasStop p.stop o.text
  · rw [bodies_agree_of_hasStop p id hsame hfinish hstop]
    exact not_congr (and_iff_right hstop).symm
  · exact iff_of_true (bodies_agree_of_not_hasStop p id hsame hfinish hstop) fun h => hstop h.1

/-- **The two bodies agree exactly when no stop string stands in a span that the token cut shortens or that
did not end in a plain stop.** -/
theorem bodies_agree_iff (hsame : SameSpan o a) (hfinish : o.finish = some reason) (hok : reason.failure? = none) :
    BodiesAgree (assembleCompletion p o) (assembleMessage (p.messageArgs id) a) ↔
      ¬(HasStop p.stop o.text ∧ o.text ≠ [] ∧ (reason = .stop → OverCap p.maxTokens o.usage o.text)) := by
  by_cases hreason : reason = .stop
  · rw [hreason] at hfinish
    rw [bodies_agree_of_stop p id hsame hfinish]
    refine not_congr ⟨fun h => ⟨h.1, ?_, fun _ => h.2⟩, fun h => ⟨h.1, h.2.2 hreason⟩⟩
    obtain ⟨max, -, -, hne⟩ := h.2
    exact hne
  · rw [bodies_agree_of_ne_stop p id hsame hfinish hok hreason]
    exact not_congr ⟨fun h => ⟨h.1, h.2, fun heq => absurd heq hreason⟩, fun h => ⟨h.1, h.2.1⟩⟩

/-- A stop string and no token cut. -/
theorem bodies_agree_stop :
    BodiesAgree
      (assembleCompletion ⟨js "chatcmpl-1", 0, js "gemini", [js "STOP"], some 100⟩
        (OpenAiCollected.collectChunks [.textDelta 0 (js "Hello STOP!"), .usage .zero, .finish .stop none]))
      (assembleMessage (CompletionArgs.messageArgs ⟨js "chatcmpl-1", 0, js "gemini", [js "STOP"], some 100⟩ (js "msg_1"))
        (AnthropicCollected.collectChunks [.textDelta 0 (js "Hello STOP!"), .usage .zero, .finish .stop none])) := by
  refine (bodies_agree_iff _ _ (sameSpan_collectChunks _) rfl rfl).mpr ?_
  rintro ⟨-, -, hover⟩
  obtain ⟨max, hmax, hlt, -⟩ := hover rfl
  obtain rfl : 100 = max := Option.some.inj hmax
  exact absurd hlt (by decide +kernel)

/-- A span that ends in a tool call behind a stop string: one leg cuts its text, the other shows it whole. -/
theorem not_bodies_agree_toolCalls :
    ¬BodiesAgree
      (assembleCompletion ⟨js "chatcmpl-1", 0, js "gemini", [js "STOP"], none⟩
        (OpenAiCollected.collectChunks
          [.textDelta 0 (js "Hello STOP!"), .blockEnd 1 (.toolCall (js "agytc-1") (js "run") (js "\x7b\x7d")),
            .usage .zero, .finish .toolCalls none]))
      (assembleMessage (CompletionArgs.messageArgs ⟨js "chatcmpl-1", 0, js "gemini", [js "STOP"], none⟩ (js "msg_1"))
        (AnthropicCollected.collectChunks
          [.textDelta 0 (js "Hello STOP!"), .blockEnd 1 (.toolCall (js "agytc-1") (js "run") (js "\x7b\x7d")),
            .usage .zero, .finish .toolCalls none])) := by
  intro h
  have htext := h.text
  revert htext
  decide +kernel

end Agreement

end AgyProxy
