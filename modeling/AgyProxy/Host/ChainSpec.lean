import AgyProxy.Host.Chain
import Mathlib.Algebra.Order.BigOperators.Group.List

/-!
# AgyProxy.Host.ChainSpec — what the client of a whole chain gets

The tables and the saw-text flag of a mapper belong to one span.  These are the consequences for the
client of a chain, each compared with one uncut pass over the same log.

* `noDuplication_iff`: the chain repeats nothing when no span boundary separates a snapshot, or a result,
  from what it depends on (`NothingCarried`) and no tool step is completed twice.
* `answer_shown_iff`: the chain shows some text exactly when some live step or result does (`ShownAt`).
-/

namespace AgyProxy

open Js EventMapper

/-! ### Suffix deltas -/

section SuffixDelta

variable {prev prev' next : JsString}

/-- The delta is empty only for a snapshot that repeats the previous one. -/
theorem suffixDelta_eq_nil : suffixDelta prev next = [] ↔ next = prev := by
  unfold suffixDelta
  by_cases h : next = prev
  · simp [h]
  · rw [if_neg h]
    refine ⟨fun hd => ?_, fun he => absurd he h⟩
    split_ifs at hd with hp hpre
    · rw [hd, hp]
    · -- a proper extension has a suffix left
      obtain ⟨t, rfl⟩ := List.isPrefixOf_iff_prefix.mp hpre
      rw [List.drop_left] at hd
      rw [hd, List.append_nil]
    · cases hd

theorem suffixDelta_of_extends (h : prev <+: next) : suffixDelta prev next = next.drop prev.length := by
  unfold suffixDelta
  split_ifs with he hp hpre
  · rw [he, List.drop_length]
  · rw [hp]
    rfl
  · rfl
  · exact absurd (List.isPrefixOf_iff_prefix.mpr h) hpre

theorem suffixDelta_of_diverges (hp : prev ≠ []) (h : ¬ prev <+: next) :
    suffixDelta prev next = js "\n" ++ next := by
  unfold suffixDelta
  have he : next ≠ prev := by
    rintro rfl
    exact h List.prefix_rfl
  rw [if_neg he, if_neg hp, if_neg (fun hpre => h (List.isPrefixOf_iff_prefix.mp hpre))]

theorem suffixDelta_length_of_extends (h : prev <+: next) :
    (suffixDelta prev next).length = next.length - prev.length := by
  rw [suffixDelta_of_extends h, List.length_drop]

/-- A delta is never shorter than what the snapshot grew by. -/
theorem le_suffixDelta_length (prev next : JsString) : next.length - prev.length ≤ (suffixDelta prev next).length := by
  by_cases h : prev <+: next
  · exact le_of_eq (suffixDelta_length_of_extends h).symm
  · have hp : prev ≠ [] := by
      rintro rfl
      exact h List.nil_prefix
    rw [suffixDelta_of_diverges hp h, List.length_append]
    omega

/-- Two tables of which one lost the front of a text give the same delta. -/
def SameDelta (prev' prev next : JsString) : Prop :=
  prev' = prev ∨ (prev' ≠ [] ∧ ¬ prev' <+: next ∧ ¬ prev <+: next)

instance : Decidable (SameDelta prev' prev next) := inferInstanceAs (Decidable (_ ∨ _))

theorem sameDelta_iff (h : prev' <:+ prev) :
    suffixDelta prev' next = suffixDelta prev next ↔ SameDelta prev' prev next := by
  constructor
  · intro heq
    by_cases hne : prev' = prev
    · exact .inl hne
    have hlt : prev'.length < prev.length := by
      refine lt_of_le_of_ne h.length_le fun hl => hne (h.eq_of_length hl)
    have hprev : prev ≠ [] := by
      rintro rfl
      exact absurd hlt (Nat.not_lt_zero _)
    have hlen := congrArg List.length heq
    have hnot : ¬ prev <+: next := by
      intro hpre
      have h1 := suffixDelta_length_of_extends hpre
      have h2 := le_suffixDelta_length prev' next
      have h3 := hpre.length_le
      omega
    rw [suffixDelta_of_diverges hprev hnot, List.length_append, show (js "\n").length = 1 from rfl] at hlen
    have hnot' : ¬ prev' <+: next := by
      intro hpre
      have h1 := suffixDelta_length_of_extends hpre
      omega
    refine .inr ⟨?_, hnot', hnot⟩
    rintro rfl
    exact hnot' List.nil_prefix
  · rintro (rfl | ⟨hne, h1, h2⟩)
    · rfl
    · have hprev : prev ≠ [] := by
        rintro rfl
        exact hne (List.suffix_nil.mp h)
      rw [suffixDelta_of_diverges hne h1, suffixDelta_of_diverges hprev h2]

end SuffixDelta

/-! ### Point by point -/

section Points

/-- A snapshot of the whole text of its key: a text step with text that is no fragment, or a thinking step. -/
def StepEvent.isSnapshot (s : StepEvent) : Bool :=
  s.stepKind == .thinking || (s.stepKind == .text && !s.text.isEmpty && !s.fragment)

/-- Nothing the event depends on was left behind at the last cut: for a snapshot, what its key carries; for
a result with a response, the text steps seen. -/
def FreshAt (p : List AgyEvent × AgyEvent) : Prop :=
  match p.2 with
  | .step s => s.isSnapshot = true →
      SameDelta (carried (sinceCut p.1) s.stepKey) (carried p.1 s.stepKey) s.text
  | .result r => r.consumable = true → r.response ≠ [] → sawUncut p.1 = true → sawChain p.1 = true
  | _ => True

instance : ∀ p : List AgyEvent × AgyEvent, Decidable (FreshAt p)
  | (_, .init _) | (_, .garbage _) => inferInstanceAs (Decidable True)
  | (pre, .step s) => inferInstanceAs (Decidable (s.isSnapshot = true →
      SameDelta (carried (sinceCut pre) s.stepKey) (carried pre s.stepKey) s.text))
  | (pre, .result r) => inferInstanceAs (Decidable (r.consumable = true → r.response ≠ [] →
      sawUncut pre = true → sawChain pre = true))

/-- What a key carries since the last cut is the end of what it carries. -/
theorem carried_sinceCut_suffix (pre : List AgyEvent) (key : JsString) :
    carried (sinceCut pre) key <:+ carried pre key := by
  induction pre using List.reverseRecOn with
  | nil => exact List.suffix_rfl
  | append_singleton pre ev ih =>
    rw [sinceCut_concat, carried_concat]
    cases ht : ev.isToolDone with
    | true => exact List.nil_suffix
    | false =>
      show carried (sinceCut pre ++ [ev]) key <:+ _
      rw [carried_concat]
      cases ev with
      | step s =>
        by_cases ho : AgyEvent.opensText (.step s) = true
        · rw [carryEvent_opens _ ho, carryEvent_opens _ ho]
          by_cases hk : key = s.stepKey
          · subst hk
            rw [Function.update_self, Function.update_self, stepDelta, stepDelta]
            cases s.fragment with
            | true => exact List.suffix_append_self_iff.mpr ih
            | false => exact List.suffix_rfl
          · rw [Function.update_of_ne hk, Function.update_of_ne hk]
            exact ih
        by_cases ht : s.stepKind = .thinking
        · rw [carryEvent_thinking _ ht, carryEvent_thinking _ ht]
          by_cases hk : key = s.stepKey
          · subst hk
            rewrite [Function.update_self, Function.update_self]
            exact List.suffix_rfl
          · rw [Function.update_of_ne hk, Function.update_of_ne hk]
            exact ih
        · rw [carryEvent_silent _ (by simpa using ho) ht, carryEvent_silent _ (by simpa using ho) ht]
          exact ih
      | _ => exact ih

/-- **Point by point**: chain and uncut pass say the same at a point exactly when it is fresh. -/
theorem freshAt_iff (p : List AgyEvent × AgyEvent) :
    (chainText p = uncutText p ∧ chainReasoning p = uncutReasoning p) ↔ FreshAt p := by
  obtain ⟨pre, ev⟩ := p
  cases ev with
  | init e => exact ⟨fun _ => trivial, fun _ => ⟨rfl, rfl⟩⟩
  | garbage l => exact ⟨fun _ => trivial, fun _ => ⟨rfl, rfl⟩⟩
  | result r =>
    show _ ↔ (r.consumable = true → r.response ≠ [] → sawUncut pre = true → sawChain pre = true)
    have hmono : sawChain pre = true → sawUncut pre = true := sawUncut_of_sawChain
    have hreas : chainReasoning (pre, .result r) = uncutReasoning (pre, .result r) := rfl
    rw [and_iff_left hreas]
    simp only [chainText, uncutText, saidText]
    cases hc : sawChain pre with
    | true => simp [hmono hc]
    | false =>
      cases sawUncut pre with
      | true =>
        -- the chain says the response, the uncut pass does not
        cases r.consumable <;> simp
      | false => simp
  | step s =>
    show _ ↔ (s.isSnapshot = true → SameDelta (carried (sinceCut pre) s.stepKey) (carried pre s.stepKey) s.text)
    rw [← sameDelta_iff (carried_sinceCut_suffix pre s.stepKey)]
    by_cases ho : AgyEvent.opensText (.step s) = true
    · have hk : s.stepKind = .text := by
        simp only [AgyEvent.opensText, Bool.and_eq_true, beq_iff_eq] at ho
        exact ho.1
      have hreas : chainReasoning (pre, .step s) = uncutReasoning (pre, .step s) := by
        simp only [chainReasoning, uncutReasoning, saidReasoning, hk]
      rw [and_iff_left hreas, chainText, uncutText, saidText_opens _ _ ho, saidText_opens _ _ ho]
      cases hf : s.fragment with
      | true =>
        have hs : s.isSnapshot = false := by simp [StepEvent.isSnapshot, hk, hf]
        simp [stepDelta, hs]
      | false =>
        have hne : s.text ≠ [] := fun he => (Memory.opensText_iff s hk).mp ho ⟨he, hf⟩
        have hs : s.isSnapshot = true := by simp [StepEvent.isSnapshot, hk, hf, hne]
        simp [stepDelta, hs]
    · have ho : AgyEvent.opensText (.step s) = false := by simpa using ho
      rw [chainText, uncutText, saidText_silent _ _ ho, saidText_silent _ _ ho, and_iff_right rfl]
      by_cases ht : s.stepKind = .thinking
      · have hs : s.isSnapshot = true := by simp [StepEvent.isSnapshot, ht]
        simp [chainReasoning, uncutReasoning, saidReasoning, ht, hs]
      · have hs : s.isSnapshot = false := by
          cases hk : s.stepKind with
          | text =>
            have := mt (Memory.opensText_iff s hk).mpr (by simp [ho])
            simp_all [StepEvent.isSnapshot]
          | thinking => exact absurd hk ht
          | _ => simp [StepEvent.isSnapshot, hk]
        have hreas : chainReasoning (pre, .step s) = uncutReasoning (pre, .step s) := by
          simp only [chainReasoning, uncutReasoning, saidReasoning]
          cases hk : s.stepKind with
          | thinking => exact absurd hk ht
          | _ => rfl
        simp [hreas, hs]

end Points

/-! ### No duplication -/

section Duplication

/-- Snapshots of the key grow: what the key carries is a prefix of its next snapshot. -/
def CumulativeAt (p : List AgyEvent × AgyEvent) : Prop :=
  match p.2 with
  | .step s => s.isSnapshot = true → carried p.1 s.stepKey <+: s.text
  | _ => True

/-- At a point that is not fresh, the chain says more than the uncut pass when snapshots grow. -/
theorem CumulativeAt.lt {p : List AgyEvent × AgyEvent} (h : CumulativeAt p) (hfresh : ¬ FreshAt p) :
    ((uncutText p).length < (chainText p).length ∧ uncutReasoning p = chainReasoning p) ∨
      (uncutText p = chainText p ∧ (uncutReasoning p).length < (chainReasoning p).length) := by
  obtain ⟨pre, ev⟩ := p
  cases ev with
  | init e => exact absurd trivial hfresh
  | garbage l => exact absurd trivial hfresh
  | result r =>
    have hres : ¬(r.consumable = true → r.response ≠ [] → sawUncut pre = true → sawChain pre = true) := hfresh
    push Not at hres
    obtain ⟨hc, hr, hu, hs⟩ := hres
    refine .inl ⟨?_, rfl⟩
    have hchain : chainText (pre, .result r) = r.response := if_pos ⟨hc, by simpa using hs⟩
    have huncut : uncutText (pre, .result r) = [] := if_neg (by simp [hu])
    rw [hchain, huncut]
    exact List.length_pos_iff.mpr hr
  | step s =>
    have hstep : ¬(s.isSnapshot = true →
      SameDelta (carried (sinceCut pre) s.stepKey) (carried pre s.stepKey) s.text) := hfresh
    push Not at hstep
    obtain ⟨hsnap, hdelta⟩ := hstep
    have hpre : carried pre s.stepKey <+: s.text := h hsnap
    have hlt : (suffixDelta (carried pre s.stepKey) s.text).length <
        (suffixDelta (carried (sinceCut pre) s.stepKey) s.text).length := by
      have hsuf := carried_sinceCut_suffix pre s.stepKey
      have hne : (carried (sinceCut pre) s.stepKey).length ≠ (carried pre s.stepKey).length :=
        fun hl => hdelta (.inl (hsuf.eq_of_length hl))
      have h1 := suffixDelta_length_of_extends hpre
      have h2 := le_suffixDelta_length (carried (sinceCut pre) s.stepKey) s.text
      have h3 := hsuf.length_le
      have h4 := hpre.length_le
      omega
    by_cases ho : AgyEvent.opensText (.step s) = true
    · have hk : s.stepKind = .text := by
        simp only [AgyEvent.opensText, Bool.and_eq_true, beq_iff_eq] at ho
        exact ho.1
      have hf : s.fragment = false := by
        by_contra hf
        simp [StepEvent.isSnapshot, hk, hf] at hsnap
      refine .inl ⟨?_, by simp only [chainReasoning, uncutReasoning, saidReasoning, hk]⟩
      rw [chainText, uncutText, saidText_opens _ _ ho, saidText_opens _ _ ho, hf]
      exact hlt
    · have ho : AgyEvent.opensText (.step s) = false := by simpa using ho
      refine .inr ⟨by rw [chainText, uncutText, saidText_silent _ _ ho, saidText_silent _ _ ho], ?_⟩
      have hk : s.stepKind = .thinking := by
        by_contra hk
        simp only [StepEvent.isSnapshot, Bool.or_eq_true, beq_iff_eq, hk, false_or, Bool.and_eq_true] at hsnap
        simp [AgyEvent.opensText, hsnap.1.1, hsnap.1.2] at ho
      simpa only [chainReasoning, uncutReasoning, saidReasoning, hk] using hlt

/-- Where snapshots grow the chain never says less than the uncut pass. -/
theorem CumulativeAt.le {p : List AgyEvent × AgyEvent} (h : CumulativeAt p) :
    (uncutText p).length ≤ (chainText p).length ∧ (uncutReasoning p).length ≤ (chainReasoning p).length := by
  by_cases hfresh : FreshAt p
  · obtain ⟨h1, h2⟩ := (freshAt_iff p).mpr hfresh
    rw [h1, h2]
    exact ⟨le_rfl, le_rfl⟩
  · rcases h.lt hfresh with ⟨h1, h2⟩ | ⟨h1, h2⟩
    · exact ⟨le_of_lt h1, by rw [h2]⟩
    · exact ⟨by rw [h1], le_of_lt h2⟩

/-- If every part is at least as long and the whole is equal, every part is equally long. -/
theorem length_eq_of_flatMap_eq {α β : Type} {f g : α → List β} {l : List α}
    (hle : ∀ p ∈ l, (g p).length ≤ (f p).length) (h : l.flatMap f = l.flatMap g) :
    ∀ p ∈ l, (g p).length = (f p).length := by
  intro p hp
  by_contra hne
  have hlt := List.sum_lt_sum (fun p => (g p).length) (fun p => (f p).length) hle
    ⟨p, hp, lt_of_le_of_ne (hle p hp) hne⟩
  rw [← List.length_flatMap, ← List.length_flatMap, h] at hlt
  exact lt_irrefl _ hlt

variable (runId : RunId) (log : EventLog) (failure : Option RecordingFailure)

/-- The spans of a chain say together what one uncut pass over the log says, and no step key surfaces
twice. -/
structure NoDuplication (spans : List (List StreamChunk)) : Prop where
  text : ∀ slots, spans.flatMap textDeltas =
    textDeltas (driveSpan runId false false slots log.events failure 0)
  reasoning : ∀ slots, spans.flatMap reasoningDeltas =
    reasoningDeltas (driveSpan runId false false slots log.events failure 0)
  calls : (surfacedKeys log spans).Nodup

/-- No live snapshot and no live result depends on something left behind at a cut, and no step key is
completed as a tool twice. -/
structure NothingCarried : Prop where
  fresh : ∀ p ∈ livePoints [] log.events, FreshAt p
  calls : ((livePoints [] log.events).filterMap fun p => p.2.toolKey?).Nodup

/-- All live snapshots grow. -/
def Cumulative : Prop := ∀ p ∈ livePoints [] log.events, CumulativeAt p

variable {runId log failure}

/-- The uncut pass, point by point. -/
theorem uncut_told (slots : ℕ → Option RawUsage) :
    textDeltas (driveSpan runId false false slots log.events failure 0) =
        (livePoints [] log.events).flatMap uncutText ∧
      reasoningDeltas (driveSpan runId false false slots log.events failure 0) =
        (livePoints [] log.events).flatMap uncutReasoning := by
  obtain ⟨htext, hreas, -⟩ := driveSpan_heard runId false false slots log.events failure 0
  obtain ⟨h1, h2⟩ := uncut_listen log.events [] _ uncutAt_new
  exact ⟨htext.trans h1, hreas.trans h2⟩

/-- What a whole chain says, against the uncut pass. -/
theorem Chain.noDuplication_iff {spans : List (List StreamChunk)} (h : Chain runId log failure 0 spans) :
    NoDuplication runId log failure spans ↔
      (livePoints [] log.events).flatMap chainText = (livePoints [] log.events).flatMap uncutText ∧
      (livePoints [] log.events).flatMap chainReasoning = (livePoints [] log.events).flatMap uncutReasoning ∧
      ((livePoints [] log.events).filterMap fun p => p.2.toolKey?).Nodup := by
  obtain ⟨h1, h2, h3⟩ := h.told rfl
  constructor
  · rintro ⟨ht, hr, hc⟩
    exact ⟨h1.symm.trans ((ht fun _ => none).trans (uncut_told _).1),
      h2.symm.trans ((hr fun _ => none).trans (uncut_told _).2), h3 ▸ hc⟩
  · rintro ⟨ht, hr, hc⟩
    exact ⟨fun slots => h1.trans (ht.trans (uncut_told slots).1.symm),
      fun slots => h2.trans (hr.trans (uncut_told slots).2.symm), h3.symm ▸ hc⟩

/-- **No duplication across spans**: a chain says what the uncut pass says when nothing was carried over a
cut; and when snapshots grow, only then. -/
theorem chain_noDuplication {spans : List (List StreamChunk)} (h : Chain runId log failure 0 spans) :
    (NothingCarried log → NoDuplication runId log failure spans) ∧
      (Cumulative log → (NoDuplication runId log failure spans ↔ NothingCarried log)) := by
  have hif : NothingCarried log → NoDuplication runId log failure spans := by
    intro hn
    have hsame : ∀ p ∈ livePoints [] log.events, chainText p = uncutText p ∧ chainReasoning p = uncutReasoning p :=
      fun p hp => (freshAt_iff p).mpr (hn.fresh p hp)
    exact h.noDuplication_iff.mpr ⟨List.flatMap_congr fun p hp => (hsame p hp).1,
      List.flatMap_congr fun p hp => (hsame p hp).2, hn.calls⟩
  refine ⟨hif, fun hcum => ⟨fun hno => ?_, hif⟩⟩
  obtain ⟨ht, hr, hc⟩ := h.noDuplication_iff.mp hno
  have hlt := length_eq_of_flatMap_eq (fun p hp => (hcum p hp).le.1) ht
  have hlr := length_eq_of_flatMap_eq (fun p hp => (hcum p hp).le.2) hr
  refine ⟨fun p hp => ?_, hc⟩
  by_contra hfresh
  rcases (hcum p hp).lt hfresh with ⟨h1, -⟩ | ⟨-, h2⟩
  · exact absurd (hlt p hp) (ne_of_lt h1)
  · exact absurd (hlr p hp) (ne_of_lt h2)

/-- Fragments around two tool steps. -/
def fragmentsLog : EventLog where
  events :=
    [.step ⟨js "1", .text, js "a", true, none, none, none⟩,
     .step ⟨js "2", .tool, [], false, some ⟨js "ls", none, some (.str []), none⟩, none, none⟩,
     .step ⟨js "1", .text, js "b", true, none, none, none⟩,
     .step ⟨js "3", .tool, [], false, some ⟨js "ls", none, some (.str []), none⟩, none, none⟩,
     .result ⟨[], true, js "ab", none, .empty⟩]
  capped := capped_of_length (by decide)

theorem chain_noDuplication_fragments : ∃ spans, Chain ⟨js "r", by decide⟩ fragmentsLog none 0 spans ∧
    NoDuplication ⟨js "r", by decide⟩ fragmentsLog none spans := by
  obtain ⟨spans, h⟩ := chain_exists ⟨js "r", by decide⟩ fragmentsLog none (fun _ => none) 0 rfl
  have hn : NothingCarried fragmentsLog := ⟨by decide +kernel, by decide +kernel⟩
  exact ⟨spans, h, (chain_noDuplication h).1 hn⟩

/-- Two snapshots of one text step with a tool step between them. -/
def straddlingLog : EventLog where
  events :=
    [.step ⟨js "1", .text, js "a", false, none, none, none⟩,
     .step ⟨js "2", .tool, [], false, some ⟨js "ls", none, some (.str []), none⟩, none, none⟩,
     .step ⟨js "1", .text, js "ab", false, none, none, none⟩,
     .result ⟨[], true, js "ab", none, .empty⟩]
  capped := capped_of_length (by decide)

/-- The second span streams the whole second snapshot again: `aab` for `ab`. -/
theorem not_noDuplication_straddling : ∃ spans, Chain ⟨js "r", by decide⟩ straddlingLog none 0 spans ∧
    ¬ NoDuplication ⟨js "r", by decide⟩ straddlingLog none spans := by
  obtain ⟨spans, h⟩ := chain_exists ⟨js "r", by decide⟩ straddlingLog none (fun _ => none) 0 rfl
  refine ⟨spans, h, fun hno => ?_⟩
  have htext := (h.noDuplication_iff.mp hno).1
  have hne : (livePoints [] straddlingLog.events).flatMap chainText ≠
      (livePoints [] straddlingLog.events).flatMap uncutText := by decide +kernel
  exact hne htext

end Duplication

/-! ### The answer -/

section Answer

/-- A live event that shows text to the client of a chain: a text step with text, unless it is a snapshot
that repeats what its key carries since the last cut; a result with a response, when no text step counts as
seen. -/
def ShownAt (p : List AgyEvent × AgyEvent) : Prop :=
  match p.2 with
  | .step s => AgyEvent.isTextStep (.step s) = true ∧
      (s.fragment = true ∨ carried (sinceCut p.1) s.stepKey ≠ s.text)
  | .result r => r.consumable = true ∧ r.response ≠ [] ∧ sawChain p.1 = false
  | _ => False

instance : ∀ p : List AgyEvent × AgyEvent, Decidable (ShownAt p)
  | (_, .init _) | (_, .garbage _) => inferInstanceAs (Decidable False)
  | (pre, .step s) => inferInstanceAs (Decidable (AgyEvent.isTextStep (.step s) = true ∧
      (s.fragment = true ∨ carried (sinceCut pre) s.stepKey ≠ s.text)))
  | (pre, .result r) => inferInstanceAs (Decidable (r.consumable = true ∧ r.response ≠ [] ∧ sawChain pre = false))

theorem shownAt_iff (p : List AgyEvent × AgyEvent) : chainText p ≠ [] ↔ ShownAt p := by
  obtain ⟨pre, ev⟩ := p
  cases ev with
  | init e => exact ⟨fun h => h rfl, False.elim⟩
  | garbage l => exact ⟨fun h => h rfl, False.elim⟩
  | result r =>
    show _ ↔ (r.consumable = true ∧ r.response ≠ [] ∧ sawChain pre = false)
    simp only [chainText, saidText, ne_eq, ite_eq_right_iff, Classical.not_imp]
    tauto
  | step s =>
    show _ ↔ (AgyEvent.isTextStep (.step s) = true ∧
      (s.fragment = true ∨ carried (sinceCut pre) s.stepKey ≠ s.text))
    by_cases ho : AgyEvent.opensText (.step s) = true
    · have hk : s.stepKind = .text := by
        simp only [AgyEvent.opensText, Bool.and_eq_true, beq_iff_eq] at ho
        exact ho.1
      have ht : AgyEvent.isTextStep (.step s) = true ↔ s.text ≠ [] := by simp [AgyEvent.isTextStep, hk]
      rw [chainText, saidText_opens _ _ ho, ht, stepDelta]
      cases hf : s.fragment with
      | true => simp
      | false =>
        have hne : s.text ≠ [] := fun he => (Memory.opensText_iff s hk).mp ho ⟨he, hf⟩
        simp only [Bool.false_eq_true, if_false, false_or, ne_eq, suffixDelta_eq_nil, hne, not_false_eq_true,
          true_and]
        exact not_congr eq_comm
    · have hn : AgyEvent.isTextStep (.step s) ≠ true := fun ht => ho (isTextStep_opensText ht)
      rw [chainText, saidText_silent _ _ (by simpa using ho)]
      exact ⟨fun h => absurd rfl h, fun h => absurd h.1 hn⟩

/-- The text the client of a chain sees. -/
def visibleText (spans : List (List StreamChunk)) : JsString := spans.flatMap textDeltas

variable {runId : RunId} {log : EventLog} {failure : Option RecordingFailure}

theorem Chain.visibleText_eq {spans : List (List StreamChunk)} (h : Chain runId log failure 0 spans) :
    visibleText spans = (livePoints [] log.events).flatMap chainText :=
  (h.told rfl).1

/-- **The answer is shown** to the client of a chain exactly when some live event shows text. -/
theorem answer_shown_iff {spans : List (List StreamChunk)} (h : Chain runId log failure 0 spans) :
    visibleText spans ≠ [] ↔ ∃ p ∈ livePoints [] log.events, ShownAt p := by
  rw [h.visibleText_eq, ne_eq, List.flatMap_eq_nil_iff]
  push Not
  exact exists_congr fun p => and_congr_right fun _ => shownAt_iff p

theorem answer_shown_fragments : ∃ spans, Chain ⟨js "r", by decide⟩ fragmentsLog none 0 spans ∧
    visibleText spans ≠ [] := by
  obtain ⟨spans, h⟩ := chain_exists ⟨js "r", by decide⟩ fragmentsLog none (fun _ => none) 0 rfl
  have hshown : ∃ p ∈ livePoints [] fragmentsLog.events, ShownAt p := by decide +kernel
  exact ⟨spans, h, (answer_shown_iff h).mpr hshown⟩

/-- An empty fragment before the result. -/
def emptyFragmentLog : EventLog where
  events := [.step ⟨js "1", .text, [], true, none, none, none⟩, .result ⟨[], true, js "hi", none, .empty⟩]
  capped := capped_of_length (by decide)

/-- The empty fragment counts as text: neither it nor the response reaches the client. -/
theorem not_answer_shown_emptyFragment : ∃ spans, Chain ⟨js "r", by decide⟩ emptyFragmentLog none 0 spans ∧
    visibleText spans = [] := by
  obtain ⟨spans, h⟩ := chain_exists ⟨js "r", by decide⟩ emptyFragmentLog none (fun _ => none) 0 rfl
  have hnone : (livePoints [] emptyFragmentLog.events).flatMap chainText = [] := by decide +kernel
  exact ⟨spans, h, h.visibleText_eq.trans hnone⟩

end Answer

end AgyProxy
