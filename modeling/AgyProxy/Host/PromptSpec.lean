import AgyProxy.Host.Prompt

/-!
# AgyProxy.Host.PromptSpec — which messages a prompt carries

* `taggedLoop`: the digest loop with the position of each line's message.
* `carriedPositions`: the positions of the messages a prompt carries, the digest before the live turn.
* `assemblePrompt_carried`: **a prompt is rendered from the messages it carries**.
* `count_carried_last`, `reply_carried`: the live turn is carried once, the reply before it unless it is blank.
-/

namespace AgyProxy

open Js

/-! ### The digest with its positions -/

/-- `digestLoop` over messages with their positions. -/
def taggedLoop : List (PromptMessage × ℕ) → ℕ → List (ℕ × JsString) → List (ℕ × JsString)
  | [], _, parts => parts
  | m :: older, budget, parts =>
    if m.1.isSkipped then taggedLoop older budget parts
    else if budget < m.1.digestLine.length then (m.2, m.1.digestLine.take budget) :: parts
    else taggedLoop older (budget - m.1.digestLine.length) ((m.2, m.1.digestLine) :: parts)

theorem taggedLoop_lines : ∀ (ms : List (PromptMessage × ℕ)) (budget : ℕ) (parts : List (ℕ × JsString)),
    (taggedLoop ms budget parts).map Prod.snd = digestLoop (ms.map Prod.fst) budget (parts.map Prod.snd)
  | [], _, _ => rfl
  | m :: older, budget, parts => by
    show (taggedLoop (m :: older) budget parts).map Prod.snd =
      digestLoop (m.1 :: older.map Prod.fst) budget (parts.map Prod.snd)
    unfold taggedLoop digestLoop
    by_cases hskip : m.1.isSkipped = true
    · rw [if_pos hskip, if_pos hskip]
      exact taggedLoop_lines older budget parts
    · rw [if_neg hskip, if_neg hskip]
      by_cases hcut : budget < m.1.digestLine.length
      · rw [if_pos hcut, if_pos hcut]
        rfl
      · rw [if_neg hcut, if_neg hcut]
        exact taggedLoop_lines older _ _

/-- The lines already there stay. -/
theorem taggedLoop_parts : ∀ (ms : List (PromptMessage × ℕ)) (budget : ℕ) (parts : List (ℕ × JsString)),
    ∀ x ∈ parts, x ∈ taggedLoop ms budget parts
  | [], _, _, x, hx => hx
  | m :: older, budget, parts, x, hx => by
    unfold taggedLoop
    split
    · exact taggedLoop_parts older budget parts x hx
    · split
      · exact List.mem_cons_of_mem _ hx
      · exact taggedLoop_parts older _ _ x (List.mem_cons_of_mem _ hx)

/-- Every line is cut from a message of its position that is not skipped. -/
theorem mem_taggedLoop : ∀ (ms : List (PromptMessage × ℕ)) (budget : ℕ) (parts : List (ℕ × JsString)),
    ∀ x ∈ taggedLoop ms budget parts, x ∈ parts ∨
      ∃ m ∈ ms, m.2 = x.1 ∧ m.1.isSkipped = false ∧ x.2 <+: m.1.digestLine
  | [], _, _, x, hx => Or.inl hx
  | m :: older, budget, parts, x, hx => by
    have hold : (∃ m ∈ older, m.2 = x.1 ∧ m.1.isSkipped = false ∧ x.2 <+: m.1.digestLine) →
        ∃ m' ∈ m :: older, m'.2 = x.1 ∧ m'.1.isSkipped = false ∧ x.2 <+: m'.1.digestLine := by
      rintro ⟨m', hm', h⟩
      exact ⟨m', List.mem_cons_of_mem _ hm', h⟩
    unfold taggedLoop at hx
    by_cases hskip : m.1.isSkipped = true
    · rw [if_pos hskip] at hx
      exact (mem_taggedLoop older budget parts x hx).imp_right hold
    · rw [if_neg hskip] at hx
      have hkept : m.1.isSkipped = false := Bool.eq_false_of_not_eq_true hskip
      by_cases hcut : budget < m.1.digestLine.length
      · rw [if_pos hcut] at hx
        rcases List.mem_cons.mp hx with rfl | hx
        · exact Or.inr ⟨m, List.mem_cons_self, rfl, hkept, List.take_prefix _ _⟩
        · exact Or.inl hx
      · rw [if_neg hcut] at hx
        rcases mem_taggedLoop older _ _ x hx with hx | hx
        · rcases List.mem_cons.mp hx with rfl | hx
          · exact Or.inr ⟨m, List.mem_cons_self, rfl, hkept, List.prefix_refl _⟩
          · exact Or.inl hx
        · exact Or.inr (hold hx)

/-- The newest message has a line, unless it is skipped. -/
theorem taggedLoop_newest {m : PromptMessage × ℕ} (hskip : m.1.isSkipped = false)
    (older : List (PromptMessage × ℕ)) (budget : ℕ) (parts : List (ℕ × JsString)) :
    m.2 ∈ (taggedLoop (m :: older) budget parts).map Prod.fst := by
  unfold taggedLoop
  rw [if_neg (by rw [hskip]; exact Bool.false_ne_true)]
  split
  · exact List.mem_cons_self
  · exact List.mem_map.mpr ⟨_, taggedLoop_parts older _ _ _ List.mem_cons_self, rfl⟩

/-- The turns the digest of a prompt is made from, with their positions. -/
def digestTurns (messages : List PromptMessage) : Option SessionBinding → List (PromptMessage × ℕ)
  | none => if 0 < lastAssistantEnd messages then messages.zipIdx else []
  | some b =>
    let start := min b.lastMessageCount messages.length
    let stop := max start (lastAssistantEnd messages)
    let span := ((messages.zipIdx.take stop).drop start).filter fun m => !m.1.isAssistant || m.1.isForeignAssistant
    if span.any fun m => m.1.isAssistant then span else []

def taggedDigest (messages : List PromptMessage) (binding : Option SessionBinding) : List (ℕ × JsString) :=
  taggedLoop (digestTurns messages binding).reverse digestMaxChars []

/-- The live user turns with a text, with their positions. -/
def liveTurns (messages : List PromptMessage) : List (PromptMessage × ℕ) :=
  ((messages.zipIdx.drop (lastAssistantEnd messages)).filter fun m => m.1.isUser).filter fun m => m.1.text ≠ []

/-- The positions of the messages a prompt carries. -/
def carriedPositions (messages : List PromptMessage) (binding : Option SessionBinding) : List ℕ :=
  (taggedDigest messages binding).map Prod.fst ++ (liveTurns messages).map Prod.snd

section Carried

variable {messages : List PromptMessage} {binding : Option SessionBinding}

/-- The span of the source, with its positions. -/
theorem span_zipIdx (start stop : ℕ) :
    (((messages.zipIdx.take stop).drop start).filter fun m => !m.1.isAssistant || m.1.isForeignAssistant).map Prod.fst =
      ((messages.take stop).drop start).filter fun m => !m.isAssistant || m.isForeignAssistant := by
  have hfst : (messages.take stop).drop start = ((messages.zipIdx.take stop).drop start).map Prod.fst := by
    rw [List.map_drop, List.map_take, List.zipIdx_map_fst]
  rw [hfst, List.filter_map]
  rfl

theorem promptDigest_tagged (messages : List PromptMessage) (binding : Option SessionBinding) :
    promptDigest messages binding = digestText ((taggedDigest messages binding).map Prod.snd) := by
  unfold taggedDigest
  rw [taggedLoop_lines, List.map_reverse]
  cases binding with
  | none =>
    unfold promptDigest digestTurns
    dsimp only
    by_cases hend : 0 < lastAssistantEnd messages
    · rw [if_pos hend, if_pos hend, List.zipIdx_map_fst]
      rfl
    · rw [if_neg hend, if_neg hend]
      rfl
  | some b =>
    unfold promptDigest digestTurns SessionBinding.span
    dsimp only
    rw [← span_zipIdx]
    generalize List.filter _ (List.drop _ (List.take _ messages.zipIdx)) = span
    have hassistant : (span.map Prod.fst).any PromptMessage.isAssistant = span.any fun m => m.1.isAssistant :=
      List.any_map
    rw [hassistant]
    by_cases hany : (span.any fun m => m.1.isAssistant) = true
    · rw [if_pos hany, if_pos hany]
      rfl
    · rw [if_neg hany, if_neg hany]
      rfl

theorem liveText_turns (messages : List PromptMessage) :
    liveText messages = (js "\n\n").intercalate ((liveTurns messages).map fun m => m.1.text) := by
  have hdrop : messages.drop (lastAssistantEnd messages) =
      (messages.zipIdx.drop (lastAssistantEnd messages)).map Prod.fst := by
    rw [List.map_drop, List.zipIdx_map_fst]
  have hlive : trailingUser messages =
      ((messages.zipIdx.drop (lastAssistantEnd messages)).filter fun m => m.1.isUser).map Prod.fst := by
    unfold trailingUser
    rw [hdrop, List.filter_map]
    rfl
  unfold liveText liveTurns
  rw [hlive, List.map_map, List.filter_map]
  rfl

/-- **A prompt is rendered from the messages it carries**: the lines of its digest, then its live turns. -/
theorem assemblePrompt_carried (messages : List PromptMessage) (binding : Option SessionBinding)
    (system : Option JsString) : ∃ instructions,
      assemblePrompt messages binding system = instructions ++
        (digestText ((taggedDigest messages binding).map Prod.snd) ++
          (js "\n\n").intercalate ((liveTurns messages).map fun m => m.1.text)) := by
  unfold assemblePrompt
  dsimp only
  rw [promptDigest_tagged, liveText_turns]
  cases truthy? system with
  | none => exact ⟨[], rfl⟩
  | some system => exact ⟨js "System instructions:\n" ++ system ++ js "\n\n", rfl⟩

theorem mem_slice {start stop : ℕ} {m : PromptMessage × ℕ} :
    m ∈ (messages.zipIdx.take stop).drop start ↔ messages[m.2]? = some m.1 ∧ start ≤ m.2 ∧ m.2 < stop := by
  rw [List.mem_iff_getElem?]
  constructor
  · rintro ⟨j, hj⟩
    rw [List.getElem?_drop, List.getElem?_take] at hj
    by_cases hstop : start + j < stop
    · rw [if_pos hstop, List.getElem?_zipIdx] at hj
      obtain ⟨x, hx, rfl⟩ := Option.map_eq_some_iff.mp hj
      rw [Nat.zero_add]
      exact ⟨hx, Nat.le_add_right _ _, hstop⟩
    · rw [if_neg hstop] at hj
      exact absurd hj (by simp)
  · rintro ⟨hget, hstart, hstop⟩
    refine ⟨m.2 - start, ?_⟩
    rw [List.getElem?_drop, List.getElem?_take, Nat.add_sub_cancel' hstart, if_pos hstop, List.getElem?_zipIdx, hget,
      Nat.zero_add]
    rfl

/-- A turn of the digest stands before the last assistant turn, when there is a binding. -/
theorem mem_digestTurns {b : SessionBinding} {m : PromptMessage × ℕ} (h : m ∈ digestTurns messages (some b)) :
    messages[m.2]? = some m.1 ∧ m.2 < lastAssistantEnd messages := by
  unfold digestTurns at h
  dsimp only at h
  split at h
  · obtain ⟨hget, hstart, hstop⟩ := mem_slice.mp (List.mem_filter.mp h).1
    refine ⟨hget, ?_⟩
    rcases lt_max_iff.mp hstop with hlt | hlt
    · exact absurd hlt (Nat.not_lt.mpr hstart)
    · exact hlt
  · exact absurd h List.not_mem_nil

theorem digestTurns_get {m : PromptMessage × ℕ} (h : m ∈ digestTurns messages binding) :
    messages[m.2]? = some m.1 := by
  cases binding with
  | none =>
    unfold digestTurns at h
    dsimp only at h
    split at h
    · exact List.mem_zipIdx_iff_getElem?.mp h
    · exact absurd h List.not_mem_nil
  | some b => exact (mem_digestTurns h).1

/-- A digested position is that of a turn of the digest with a text. -/
theorem mem_taggedDigest {i : ℕ} (h : i ∈ (taggedDigest messages binding).map Prod.fst) :
    ∃ m, (m, i) ∈ digestTurns messages binding ∧ m.text ≠ [] := by
  obtain ⟨x, hx, rfl⟩ := List.mem_map.mp h
  rcases mem_taggedLoop _ _ _ x hx with hnil | ⟨m, hm, hi, hskip, -⟩
  · exact absurd hnil List.not_mem_nil
  · refine ⟨m.1, ?_, ?_⟩
    · rw [← hi]
      exact List.mem_reverse.mp hm
    · intro htext
      unfold PromptMessage.isSkipped at hskip
      rw [htext] at hskip
      simp at hskip

/-- A carried position is that of a message with a text. -/
theorem carriedPositions_text {i : ℕ} (h : i ∈ carriedPositions messages binding) : ∃ m, messages[i]? = some m ∧ m.text ≠ [] := by
  rcases List.mem_append.mp h with hdigest | hlive
  · obtain ⟨m, hm, htext⟩ := mem_taggedDigest hdigest
    exact ⟨m, digestTurns_get hm, htext⟩
  · obtain ⟨m, hm, rfl⟩ := List.mem_map.mp hlive
    obtain ⟨huser, htext⟩ := List.mem_filter.mp hm
    have hget := List.mem_zipIdx_iff_getElem?.mp (List.mem_of_mem_drop (List.mem_filter.mp huser).1)
    exact ⟨m.1, hget, of_decide_eq_true htext⟩

/-! ### A request whose last message is a user turn behind an assistant turn -/

variable {ms : List PromptMessage} {u : PromptMessage}

theorem PromptMessage.not_assistant {m : PromptMessage} (hu : m.isUser = true) : m.isAssistant = false := by
  unfold PromptMessage.isAssistant
  rw [of_decide_eq_true hu]
  rfl

/-- The live turn is the last message alone. -/
theorem lastAssistantEnd_concat (hu : u.isUser = true) (hms : ∀ m ∈ ms.getLast?, m.isAssistant = true) :
    lastAssistantEnd (ms ++ [u]) = ms.length := by
  have huser : (!u.isAssistant) = true := by
    rw [PromptMessage.not_assistant hu]
    rfl
  unfold lastAssistantEnd
  rw [List.reverse_append, List.reverse_singleton, List.singleton_append, List.dropWhile_cons, if_pos huser]
  rcases List.eq_nil_or_concat ms with rfl | ⟨ms', a, rfl⟩
  · rfl
  · have ha : ¬(!a.isAssistant) = true := by
      rw [hms a (by simp)]
      exact Bool.false_ne_true
    rw [List.concat_eq_append, List.reverse_append, List.reverse_singleton, List.singleton_append,
      List.dropWhile_cons, if_neg ha, List.length_cons, List.length_reverse, List.length_append]
    rfl

theorem liveTurns_concat (hu : u.isUser = true) (htext : u.text ≠ [])
    (hms : ∀ m ∈ ms.getLast?, m.isAssistant = true) : liveTurns (ms ++ [u]) = [(u, ms.length)] := by
  have hdrop : (ms ++ [u]).zipIdx.drop ms.length = [(u, ms.length)] := by
    rw [List.zipIdx_append, List.drop_left' List.length_zipIdx, Nat.zero_add]
    rfl
  unfold liveTurns
  rw [lastAssistantEnd_concat hu hms, hdrop]
  simp [List.filter, hu, htext]

/-- **The live turn is carried exactly once**, when a binding stands or it is the first. -/
theorem count_carried_last (hu : u.isUser = true) (htext : u.text ≠ [])
    (hms : ∀ m ∈ ms.getLast?, m.isAssistant = true) (hbound : binding.isSome = true ∨ ms = []) :
    (carriedPositions (ms ++ [u]) binding).count ms.length = 1 := by
  have hdigest : ms.length ∉ (taggedDigest (ms ++ [u]) binding).map Prod.fst := by
    intro hmem
    obtain ⟨m, hm, -⟩ := mem_taggedDigest hmem
    cases binding with
    | none =>
      obtain rfl : ms = [] := hbound.resolve_left Bool.noConfusion
      unfold digestTurns at hm
      dsimp only at hm
      rw [lastAssistantEnd_concat hu hms, List.length_nil, if_neg (Nat.lt_irrefl 0)] at hm
      exact absurd hm List.not_mem_nil
    | some b =>
      have hlt := (mem_digestTurns hm).2
      rw [lastAssistantEnd_concat hu hms] at hlt
      exact Nat.lt_irrefl _ hlt
  unfold carriedPositions
  rw [List.count_append, List.count_eq_zero.mpr hdigest, liveTurns_concat hu htext hms]
  simp

/-- **The last reply is carried** unless it is blank: it is in the span of every binding of an earlier request and
bears no mark. -/
theorem reply_carried {a : PromptMessage} {b : SessionBinding} (hu : u.isUser = true)
    (ha : a.isForeignAssistant = true) (htext : a.text ≠ []) (hb : b.lastMessageCount ≤ ms.length) :
    ms.length ∈ carriedPositions (ms ++ [a] ++ [u]) (some b) := by
  have hassistant : a.isAssistant = true := ((Bool.and_eq_true _ _).mp ha).1
  have hskip : a.isSkipped = false := by
    unfold PromptMessage.isSkipped
    rw [of_decide_eq_true hassistant]
    simp [htext]
  have hlast : lastAssistantEnd (ms ++ [a] ++ [u]) = ms.length + 1 := by
    rw [lastAssistantEnd_concat hu (by simp [hassistant]), List.length_append]
    rfl
  have hstart : min b.lastMessageCount (ms ++ [a] ++ [u]).length = b.lastMessageCount := by
    simp
    omega
  have hslice : ((ms ++ [a] ++ [u]).zipIdx.take (ms.length + 1)).drop b.lastMessageCount =
      ms.zipIdx.drop b.lastMessageCount ++ [(a, ms.length)] := by
    have htake : (ms ++ [a] ++ [u]).zipIdx.take (ms.length + 1) = ms.zipIdx ++ [(a, ms.length)] := by
      rw [List.zipIdx_append, List.take_left' (by simp), List.zipIdx_append, Nat.zero_add]
      rfl
    rw [htake, List.drop_append_of_le_length (by rw [List.length_zipIdx]; exact hb)]
  have hdigest : ∃ older, digestTurns (ms ++ [a] ++ [u]) (some b) = older ++ [(a, ms.length)] := by
    unfold digestTurns
    dsimp only
    rw [hlast, hstart, max_eq_right (by omega), hslice, List.filter_append]
    generalize List.filter _ (List.drop _ ms.zipIdx) = older
    refine ⟨older, ?_⟩
    simp [List.filter, ha, hassistant]
  obtain ⟨older, hdigest⟩ := hdigest
  refine List.mem_append_left _ ?_
  unfold taggedDigest
  rw [hdigest, List.reverse_append, List.reverse_singleton, List.singleton_append]
  exact taggedLoop_newest hskip older.reverse digestMaxChars []

end Carried

end AgyProxy
