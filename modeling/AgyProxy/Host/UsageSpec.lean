import AgyProxy.Host.Usage

/-!
# AgyProxy.Host.UsageSpec — what is billed

* `map_stopUsage`: the one place a mapper reports usage before a stop finish.
* `step_ledger`: what one action does to the slot, the log and the bill.
* `UsageInv`: the slot holds the newest sample unless it is stale.  `usage_exact`: in a run whose reading
  steps keep up, every usage reported is the one to report.
-/

namespace AgyProxy

open Js Lib EventMapper

/-! ### The last result -/

section LastResult

variable {events : List AgyEvent}

theorem lastResultAt?_get {i : ℕ} {r : ResultEvent} (h : lastResultAt? events = some (i, r)) :
    events[i]? = some (.result r) := by
  have hmem := List.mem_of_getLast? h
  obtain ⟨⟨ev, n⟩, hp, hr⟩ := List.mem_filterMap.mp hmem
  rw [List.mem_zipIdx_iff_getElem?] at hp
  cases ev with
  | result r' =>
    obtain ⟨rfl, rfl⟩ : n = i ∧ r' = r := by simpa using hr
    exact hp
  | _ => cases hr

theorem lastResult?_eq (events : List AgyEvent) :
    lastResult? events = (lastResultAt? events).map Prod.snd := by
  rw [lastResult?, lastResultAt?, ← List.getLast?_map, List.map_filterMap]
  conv_lhs => rw [← List.zipIdx_map_fst 0 events, List.filterMap_map]
  congr 2
  funext p
  obtain ⟨ev, n⟩ := p
  cases ev <;> rfl

end LastResult

/-! ### Stop finishes -/

section Stop

def StreamChunk.isStop : StreamChunk → Bool
  | finish .stop _ => true
  | _ => false

/-- No stop finish among the chunks. -/
def NoStop (out : List StreamChunk) : Prop := ∀ ch ∈ out, ch.isStop = false

variable {a b out : List StreamChunk} {v w : TokenUsage} {rs : Option JsString}

theorem noStop_nil : NoStop [] := fun _ h => absurd h List.not_mem_nil

theorem NoStop.append (ha : NoStop a) (hb : NoStop b) : NoStop (a ++ b) := by
  intro ch h
  rcases List.mem_append.mp h with h | h
  · exact ha ch h
  · exact hb ch h

theorem Prose.noStop (h : Prose out) : NoStop out := by
  intro ch hch
  have := h ch hch
  cases ch with
  | finish r p => cases this
  | _ => rfl

theorem NoStop.not_stopUsage (h : NoStop out) : ¬ StopUsage out v := by
  rintro ⟨pre, rs, rest, rfl⟩
  have := h (.finish .stop rs) (by simp)
  cases this

/-- Chunks without a stop finish add no stop usage. -/
theorem StopUsage.of_append (hb : NoStop b) (h : StopUsage (a ++ b) v) : StopUsage a v := by
  obtain ⟨pre, rs, rest, he⟩ := h
  have hnot : StreamChunk.finish .stop rs ∉ b := fun hm => by
    have := hb _ hm
    cases this
  rcases List.append_eq_append_iff.mp he with ⟨mid, -, rfl⟩ | ⟨mid, rfl, hrest⟩
  · exact absurd (by simp) hnot
  · cases mid with
    | nil =>
      rw [List.nil_append] at hrest
      exact absurd (by rw [← hrest]; simp) hnot
    | cons x mid =>
      cases mid with
      | nil =>
        obtain ⟨-, rfl⟩ := List.cons_eq_cons.mp hrest
        exact absurd List.mem_cons_self hnot
      | cons y mid =>
        obtain ⟨rfl, htail⟩ := List.cons_eq_cons.mp hrest
        obtain ⟨rfl, -⟩ := List.cons_eq_cons.mp htail
        exact ⟨pre, rs, mid, rfl⟩

/-- The terminal pair is the only stop usage behind chunks without one. -/
theorem StopUsage.of_pair (ha : NoStop a) (h : StopUsage (a ++ [.usage w, .finish .stop rs]) v) : v = w := by
  obtain ⟨pre, rs', rest, he⟩ := h
  rcases List.eq_nil_or_concat rest with rfl | ⟨rest, ch, rfl⟩
  · have h2 : (a ++ [.usage w]) ++ [StreamChunk.finish .stop rs] = (pre ++ [.usage v]) ++ [.finish .stop rs'] := by
      simpa using he
    obtain ⟨h3, -⟩ := List.append_inj' h2 rfl
    obtain ⟨-, h4⟩ := List.append_inj' h3 rfl
    simpa using h4.symm
  · -- the pair cannot stand before the last chunk
    have h2 : (a ++ [.usage w]) ++ [StreamChunk.finish .stop rs] =
        (pre ++ .usage v :: .finish .stop rs' :: rest) ++ [ch] := by simpa using he
    obtain ⟨h3, -⟩ := List.append_inj' h2 rfl
    have hm : StreamChunk.finish .stop rs' ∈ a ++ [.usage w] := by
      rw [h3]
      simp
    rcases List.mem_append.mp hm with hm | hm
    · have := ha _ hm
      cases this
    · simp at hm

/-- The chunks of one event, as far as stop finishes go. -/
def ReportsAt (slot : Option RawUsage) (ev : AgyEvent) (out : List StreamChunk) : Prop :=
  NoStop out ∨ ∃ r pre rs, ev = .result r ∧ ev.finishes = true ∧ NoStop pre ∧
    out = pre ++ [.usage (usageFromRaw (slot.getD r.usage)), .finish .stop rs]

variable {m : EventMapper} {slot : Option RawUsage}

theorem cutSpan_noStop (i : ℕ) (tool : AgyToolInfo) (m : EventMapper) : NoStop (cutSpan i tool m).2 := by
  refine (closeOpen_tells m).prose.noStop.append ?_
  intro ch h
  simp only [Emit.seq_snd, toolBlock, finishWith, List.cons_append, List.nil_append, List.mem_cons, List.not_mem_nil,
    or_false] at h
  rcases h with rfl | rfl | rfl | rfl <;> rfl

theorem mapTool_noStop (s : StepEvent) (tool : AgyToolInfo) (i : ℕ) (m : EventMapper) :
    NoStop (mapTool s tool i m).2 := by
  unfold mapTool
  split_ifs
  · exact noStop_nil
  · exact noStop_nil
  · exact noStop_nil
  · exact noStop_nil.append (cutSpan_noStop i tool _)

theorem mapStep_noStop (s : StepEvent) (i : ℕ) (m : EventMapper) : NoStop (mapStep s i m).2 := by
  unfold mapStep
  cases s.stepKind with
  | text =>
    show NoStop (mapText s m).2
    by_cases hb : s.text = [] ∧ s.fragment = false
    · rw [mapText, if_pos hb]
      exact noStop_nil
    · exact (mapText_tells s hb m).prose.noStop
  | thinking => exact (mapThinking_tells s m).prose.noStop
  | subagent => exact (block_tells .reasoning _ m).prose.noStop
  | tool =>
    cases s.tool with
    | none => exact noStop_nil
    | some tool => exact mapTool_noStop s tool i m
  | _ => exact noStop_nil

theorem mapResult_reports (slot : Option RawUsage) (r : ResultEvent) (m : EventMapper) :
    ReportsAt slot (.result r) (mapResult slot r m).2 := by
  unfold mapResult
  split_ifs with hok hr
  · have hpre := (fallbackText_tells r m).prose.noStop.append
      (closeOpen_tells (fallbackText r m).1).prose.noStop
    refine .inr ⟨r, _, if r.conversationId = [] then none else some r.conversationId, rfl,
      by simp [AgyEvent.finishes, ResultEvent.consumable, hok], hpre, ?_⟩
    rw [Emit.seq_snd, Emit.seq_snd, List.append_assoc]
    rfl
  · exact .inl noStop_nil
  · have hpre := (fallbackText_tells r m).prose.noStop.append
      ((errorNote_tells r (fallbackText r m).1).prose.noStop.append
        (closeOpen_tells (errorNote r (fallbackText r m).1).1).prose.noStop)
    refine .inr ⟨r, _, if r.conversationId = [] then none else some r.conversationId, rfl,
      by simp [AgyEvent.finishes, ResultEvent.consumable, hr], hpre, ?_⟩
    rw [Emit.seq_snd, Emit.seq_snd, Emit.seq_snd, List.append_assoc, List.append_assoc]
    rfl

/-- **A mapper reports usage** before a stop finish only for a consumable result: the slot's, else the
result's own. -/
theorem map_stopUsage (slot : Option RawUsage) (ev : AgyEvent) (i : ℕ) (m : EventMapper) :
    ReportsAt slot ev (EventMapper.map slot ev i m).2 := by
  unfold EventMapper.map
  split_ifs
  · exact .inl noStop_nil
  · cases ev with
    | init e => exact .inl noStop_nil
    | garbage l => exact .inl noStop_nil
    | step s => exact .inl (mapStep_noStop s i m)
    | result r => exact mapResult_reports slot r m

theorem endOfLog_noStop (failure : Option RecordingFailure) (m : EventMapper) :
    NoStop (endOfLog failure m).2 := by
  unfold endOfLog EventMapper.emitFailure
  split_ifs
  · exact noStop_nil
  · refine (closeOpen_tells m).prose.noStop.append ?_
    intro ch h
    simp only [finishWith, List.mem_cons, List.not_mem_nil, or_false] at h
    rcases h with rfl | rfl
    · rfl
    · split <;> rfl

end Stop

/-! ### What an action does to the slot, the log and the bill -/

section Steps

open SpanState

variable {s s' : SpanState} {a : SpanAction}

/-- The usage slot after an action. -/
def SpanState.slotAfter (s : SpanState) : SpanAction → Option RawUsage
  | .append ev =>
    if s.recording.settled then s.recording.lastStepUsageRaw else ev.sample?.or s.recording.lastStepUsageRaw
  | .pump j =>
    match s.nextEvent? j with
    | some (c, ev) => c.mapper.noted ev s.recording.lastStepUsageRaw
    | none => s.recording.lastStepUsageRaw
  | _ => s.recording.lastStepUsageRaw

/-- The events an action stores. -/
def SpanState.newEvents (s : SpanState) : SpanAction → List AgyEvent
  | .append ev => if s.recording.settled then [] else s.recording.stored ev
  | _ => []

/-- The bill after an action. -/
def SpanState.billedAfter (s : SpanState) : SpanAction → Option (Option TokenUsage)
  | .settle _ books => if books then some (runUsage s.recording) else s.billed
  | _ => s.billed

theorem noteEvent_slot (rec : RunRecording) (ev : AgyEvent) :
    (rec.noteEvent ev).lastStepUsageRaw = ev.sample?.or rec.lastStepUsageRaw := by
  cases ev with
  | step s =>
    unfold RunRecording.noteEvent
    dsimp only
    cases AgyEvent.sample? (.step s) <;> rfl
  | _ => rfl

theorem append_slot {rec : RunRecording} (h : rec.settled = false) (ev : AgyEvent) :
    (rec.append ev).lastStepUsageRaw = ev.sample?.or rec.lastStepUsageRaw := by
  unfold RunRecording.append
  rw [h]
  simp only [Bool.false_eq_true, if_false]
  split_ifs
  · exact noteEvent_slot rec ev
  · exact noteEvent_slot rec ev

theorem settleRun_fields (h : s.recording.settled = false) (failure : Option RecordingFailure) (books : Bool) :
    (s.settleRun failure books).recording.lastStepUsageRaw = s.recording.lastStepUsageRaw ∧
    (s.settleRun failure books).recording.events = s.recording.events ∧
    (s.settleRun failure books).recording.settled = true ∧
    (s.settleRun failure books).billed = if books then some (runUsage s.recording) else s.billed := by
  have hbilled : (s.bill books).billed = if books then some (runUsage s.recording) else s.billed := by
    unfold bill
    split_ifs <;> rfl
  rw [← hbilled]
  unfold settleRun
  rw [settle_bill h]
  dsimp only
  split_ifs
  · exact ⟨rfl, rfl, rfl, rfl⟩
  · exact ⟨rfl, rfl, rfl, rfl⟩

/-- What one action does to the slot, the log and the bill. -/
structure Ledger (s : SpanState) (a : SpanAction) (s' : SpanState) : Prop where
  slot : s'.recording.lastStepUsageRaw = s.slotAfter a
  events : s'.recording.events = s.recording.events ++ s.newEvents a
  billed : s'.billed = s.billedAfter a
  settled : s.recording.settled = true → s'.recording.settled = true
  bills : s'.billed ≠ s.billed → s'.recording.settled = true

theorem Ledger.of_same (hslot : s'.recording.lastStepUsageRaw = s.recording.lastStepUsageRaw)
    (hevents : s'.recording.events = s.recording.events) (hsettled : s'.recording.settled = s.recording.settled)
    (hbilled : s'.billed = s.billed) (h1 : s.slotAfter a = s.recording.lastStepUsageRaw)
    (h2 : s.newEvents a = []) (h3 : s.billedAfter a = s.billed) : Ledger s a s' :=
  ⟨hslot.trans h1.symm, by rw [hevents, h2, List.append_nil], hbilled.trans h3.symm,
    fun h => hsettled.trans h, fun h => absurd hbilled h⟩

theorem forget_billed (s : SpanState) : s.forgetUnlessKept.billed = s.billed := by
  unfold forgetUnlessKept
  split_ifs <;> rfl

/-- A drain that is over leaves the ledger alone. -/
theorem Ledger.of_over {j : ℕ} {c : Consumer} {keep : Bool} (h1 : s.slotAfter a = s.recording.lastStepUsageRaw)
    (h2 : s.newEvents a = []) (h3 : s.billedAfter a = s.billed) :
    Ledger s a ((s.setConsumer j c).setKeep keep).forgetUnlessKept := by
  refine Ledger.of_same ?_ ?_ ?_ ?_ h1 h2 h3
  · rw [forget_recording]
    rfl
  · rw [forget_recording]
    rfl
  · rw [forget_recording]
    rfl
  · rw [forget_billed]
    rfl

/-- The turn of an event pump writes the slot only when it maps an event. -/
theorem pumpTurn_ledger {j : ℕ} {c : Consumer} (hc : s.consumers[j]? = some c) (h : s.pumpTurn j c = some s') :
    Ledger s (.pump j) s' := by
  unfold pumpTurn at h
  have hnext : c.pump ≠ .ready → s.slotAfter (.pump j) = s.recording.lastStepUsageRaw := by
    intro hp
    have : s.nextEvent? j = none := by rw [SpanState.nextEvent?, hc, Option.bind_some, if_neg hp]
    rw [slotAfter, this]
  cases hp : c.pump with
  | ready =>
    rw [hp] at h
    cases he : s.recording.events[c.cursor]? with
    | some ev =>
      simp only [he] at h
      obtain rfl := Option.some.inj h
      have hn : s.nextEvent? j = some (c, ev) := by
        rw [SpanState.nextEvent?, hc, Option.bind_some, if_pos hp, he, Option.map_some]
      exact ⟨by rw [slotAfter, hn], (List.append_nil _).symm, rfl, id, fun hne => absurd rfl hne⟩
    | none =>
      simp only [he] at h
      obtain rfl := Option.some.inj h
      have hn : s.nextEvent? j = none := by
        rw [SpanState.nextEvent?, hc, Option.bind_some, if_pos hp, he, Option.map_none]
      exact Ledger.of_same rfl rfl rfl rfl (by rw [slotAfter, hn]) rfl rfl
  | ended =>
    rw [hp] at h
    obtain rfl := Option.some.inj h
    exact Ledger.of_same rfl rfl rfl rfl (hnext (by rw [hp]; simp)) rfl rfl
  | waiting =>
    rw [hp] at h
    cases h
  | done =>
    rw [hp] at h
    cases h

theorem append_ledger (s : SpanState) (ev : AgyEvent) : Ledger s (.append ev) (s.append ev) := by
  cases hs : s.recording.settled with
  | true =>
    have he : s.append ev = s := if_pos hs
    rw [he]
    exact Ledger.of_same rfl rfl rfl rfl (if_pos hs) (if_pos hs) rfl
  | false =>
    have he : s.append ev =
        { s with recording := s.recording.append ev, consumers := s.consumers.map Consumer.wake } :=
      if_neg (by simp [hs])
    have h1 : s.slotAfter (.append ev) = ev.sample?.or s.recording.lastStepUsageRaw := if_neg (by simp [hs])
    have h2 : s.newEvents (.append ev) = s.recording.stored ev := if_neg (by simp [hs])
    rw [he]
    refine ⟨(append_slot hs ev).trans h1.symm, ?_, rfl, fun ht => ?_, fun hne => absurd rfl hne⟩
    · rw [h2]
      exact RunRecording.append_events hs ev
    · rw [hs] at ht
      cases ht

theorem step_ledger (h : s.step a = some s') : Ledger s a s' := by
  cases step_fires h with
  | @append ev => exact append_ledger s ev
  | @settle failure books hs =>
    obtain ⟨h1, h2, h3, h4⟩ := settleRun_fields hs failure books
    exact ⟨h1, by rw [h2]; exact (List.append_nil _).symm, h4, fun _ => h3, fun _ => h3⟩
  | @settleThrown failure hs =>
    have he : s.settle (some failure) =
        { s with
          recording := { s.recording with settled := true, failure := some failure }
          consumers := s.consumers.map Consumer.wake } := by
      unfold SpanState.settle RunRecording.settle
      rw [if_neg (by simp [hs]), if_neg (by simp [hs])]
    rw [he]
    exact ⟨rfl, (List.append_nil _).symm, rfl, fun _ => rfl, fun hne => absurd rfl hne⟩
  | attach => exact Ledger.of_same rfl rfl rfl rfl rfl rfl rfl
  | pump hc h => exact pumpTurn_ledger hc h
  | drain => exact Ledger.of_same rfl rfl rfl rfl rfl rfl rfl
  | giveUp => exact Ledger.of_same rfl rfl rfl rfl rfl rfl rfl
  | finalize => exact Ledger.of_over rfl rfl rfl
  | tail => exact Ledger.of_over rfl rfl rfl

end Steps

/-! ### The invariant -/

section Invariant

open UsageState

variable {u u' : UsageState} {a : SpanAction}

/-- The samples an action appends. -/
def UsageState.newSamples (u : UsageState) : SpanAction → List RawUsage
  | .append ev => if u.sys.recording.settled then [] else ev.sample?.toList
  | _ => []

theorem note_noteMap (u : UsageState) (j : ℕ) :
    (u.noteMap j).samples = u.samples ∧ (u.noteMap j).samplesBefore = u.samplesBefore := by
  unfold noteMap
  split
  · split <;> exact ⟨rfl, rfl⟩
  · exact ⟨rfl, rfl⟩

/-- The history an action adds. -/
theorem note_history (u : UsageState) (a : SpanAction) :
    (u.note a).samples = u.samples ++ u.newSamples a ∧
      (u.note a).samplesBefore = u.samplesBefore ++ (u.sys.newEvents a).map fun _ => u.samples.length := by
  have hnone : u.newSamples a = [] → u.sys.newEvents a = [] → (u.note a).samples = u.samples →
      (u.note a).samplesBefore = u.samplesBefore → (u.note a).samples = u.samples ++ u.newSamples a ∧
      (u.note a).samplesBefore = u.samplesBefore ++ (u.sys.newEvents a).map fun _ => u.samples.length := by
    intro h1 h2 h3 h4
    rw [h1, h2, h3, h4]
    exact ⟨(List.append_nil _).symm, (List.append_nil _).symm⟩
  cases a with
  | append ev =>
    cases hs : u.sys.recording.settled with
    | true =>
      have he : u.note (.append ev) = u := if_pos hs
      exact hnone (if_pos hs) (if_pos hs) (by rw [he]) (by rw [he])
    | false =>
      have h1 : u.newSamples (.append ev) = ev.sample?.toList := if_neg (by simp [hs])
      have h2 : u.sys.newEvents (.append ev) = u.sys.recording.stored ev := if_neg (by simp [hs])
      rw [h1, h2, UsageState.note, noteAppend, if_neg (by simp [hs])]
      exact ⟨rfl, rfl⟩
  | pump j => exact hnone rfl rfl (note_noteMap u j).1 (note_noteMap u j).2
  | _ => exact hnone rfl rfl rfl rfl

theorem usage_step (h : u.step a = some u') : u.sys.step a = some u'.sys ∧
    u'.samples = u.samples ++ u.newSamples a ∧
    u'.samplesBefore = u.samplesBefore ++ ((u.sys.newEvents a).map fun _ => u.samples.length) ∧
    u'.stale = (u.note a).stale := by
  obtain ⟨sys, hs, rfl⟩ := Option.map_eq_some_iff.mp h
  exact ⟨hs, (note_history u a).1, (note_history u a).2, rfl⟩

/-- What a consumer has reported. -/
structure Reports (u : UsageState) (c : Consumer) : Prop where
  reading : c.pump = .ready ∨ c.pump = .waiting → NoStop c.pushed
  chunks : ∀ v, StopUsage c.pushed v →
    ∃ i r, u.sys.recording.events[i]? = some (.result r) ∧ c.cursor = i + 1 ∧ v = u.usageAt i r

/-- The history matches the log, and the slot holds the newest sample unless it is stale. -/
structure UsageInv (u : UsageState) : Prop where
  sys : SpanInv u.sys
  length : u.samplesBefore.length = u.sys.recording.events.length
  bound : ∀ n ∈ u.samplesBefore, n ≤ u.samples.length
  sample : ∀ (i : ℕ) (s : StepEvent) (raw : RawUsage), u.sys.recording.events[i]? = some (.step s) → s.usage = some raw →
    raw.nonEmpty = true → ∃ n, u.samplesBefore[i]? = some n ∧ u.samples[n]? = some raw
  slot : u.stale = false → u.sys.recording.lastStepUsageRaw = u.samples.getLast?
  reports : ∀ c ∈ u.sys.consumers, Reports u c
  billed : ∀ b, u.sys.billed = some b → u.sys.recording.settled = true ∧
    ∀ i r, lastResultAt? u.sys.recording.events = some (i, r) → b = some (u.usageAt i r)

theorem usageInv_init (runId : RunId) : UsageInv (.init runId) where
  sys := spanInv_init runId
  length := rfl
  bound _ h := absurd h List.not_mem_nil
  sample i s raw h _ _ := by
    have : ([] : List AgyEvent)[i]? = some (.step s) := h
    simp at this
  slot _ := rfl
  reports _ h := absurd h List.not_mem_nil
  billed b h := by cases h

theorem UsageInv.before (h : UsageInv u) {i : ℕ} {ev : AgyEvent} (he : u.sys.recording.events[i]? = some ev) :
    ∃ n, u.samplesBefore[i]? = some n ∧ n ≤ u.samples.length := by
  have hlt : i < u.samplesBefore.length := by
    rw [h.length]
    exact (List.getElem?_eq_some_iff.mp he).1
  exact ⟨u.samplesBefore[i], List.getElem?_eq_getElem hlt, h.bound _ (List.getElem_mem hlt)⟩

/-- What to report for a stored result never changes. -/
theorem UsageInv.usageAt_step (h : UsageInv u) (hs : u.step a = some u') {i : ℕ} {r : ResultEvent}
    (he : u.sys.recording.events[i]? = some (.result r)) : u'.usageAt i r = u.usageAt i r := by
  obtain ⟨-, h1, h2, -⟩ := usage_step hs
  obtain ⟨n, hn, hle⟩ := h.before he
  have hlt : i < u.samplesBefore.length := (List.getElem?_eq_some_iff.mp hn).1
  rw [usageAt, usageAt, h1, h2, List.getElem?_append_left hlt, hn, Option.getD_some, List.take_append_of_le_length hle]

/-- A stored event stays where it is. -/
theorem events_step (hs : u.step a = some u') {i : ℕ} {ev : AgyEvent}
    (he : u.sys.recording.events[i]? = some ev) : u'.sys.recording.events[i]? = some ev := by
  rw [(step_ledger (usage_step hs).1).events, List.getElem?_append_left (List.getElem?_eq_some_iff.mp he).1]
  exact he

/-- A consumer that reported nothing more. -/
theorem Reports.same {c c' : Consumer} (hinv : UsageInv u) (hs : u.step a = some u') (h : Reports u c)
    (hpushed : c'.pushed = c.pushed) (hcursor : c'.cursor = c.cursor)
    (hpump : c'.pump = .ready ∨ c'.pump = .waiting → c.pump = .ready ∨ c.pump = .waiting) : Reports u' c' := by
  refine ⟨fun hp => hpushed ▸ h.reading (hpump hp), fun v hv => ?_⟩
  rw [hpushed] at hv
  obtain ⟨i, r, he, hc, rfl⟩ := h.chunks v hv
  exact ⟨i, r, events_step hs he, hcursor.trans hc, (hinv.usageAt_step hs he).symm⟩

/-- Fresh reading gives the usage to report. -/
theorem UsageInv.fresh (h : UsageInv u) {i : ℕ} (hf : u.ReadsFresh i) (r : ResultEvent) :
    usageFromRaw (u.sys.recording.lastStepUsageRaw.getD r.usage) = u.usageAt i r := by
  obtain ⟨hstale, hn⟩ := hf
  rw [usageAt, hn, Option.getD_some, List.take_length, h.slot hstale]

/-- The event pump of a consumer maps the next event. -/
theorem Reports.mapEvent {c : Consumer} {j : ℕ} {ev : AgyEvent} (hinv : UsageInv u)
    (hs : u.step (.pump j) = some u') (hok : u.KeepsUp (.pump j)) (hj : u.sys.consumers[j]? = some c)
    (hp : c.pump = .ready) (he : u.sys.recording.events[c.cursor]? = some ev) :
    Reports u' (c.mapEvent u.sys.recording.lastStepUsageRaw ev) := by
  have hmem := List.mem_of_getElem? hj
  have hread := (hinv.reports c hmem).reading (.inl hp)
  have hcut := (hinv.sys.consumers c hmem).reads.reading (.inl hp)
  rcases map_stopUsage u.sys.recording.lastStepUsageRaw ev c.cursor c.mapper with hno | ⟨r, pre, rs, rfl, hfin, hpre, hout⟩
  · have hall : NoStop (c.mapEvent u.sys.recording.lastStepUsageRaw ev).pushed := hread.append hno
    exact ⟨fun _ => hall, fun v hv => absurd hv hall.not_stopUsage⟩
  · have hnext : u.sys.nextEvent? j = some (c, .result r) := by
      rw [SpanState.nextEvent?, hj, Option.bind_some, if_pos hp, he, Option.map_some]
    have hfresh := hok _ hnext hfin
    constructor
    · -- the mapper finished on the result
      intro hpump
      have hended : (c.mapEvent u.sys.recording.lastStepUsageRaw (.result r)).pump = .ended := by
        have hf : (EventMapper.map u.sys.recording.lastStepUsageRaw (.result r) c.cursor c.mapper).1.finished = true := by
          rw [map_finished_iff, (hcut.hear (.result r)).2.1, AgyEvent.ends, hfin, Bool.or_true]
        show (if _ then PumpState.ended else PumpState.ready) = _
        rw [if_pos hf]
      rw [hended] at hpump
      simp at hpump
    · intro v hv
      have hpushed : (c.mapEvent u.sys.recording.lastStepUsageRaw (.result r)).pushed =
          (c.pushed ++ pre) ++
            [.usage (usageFromRaw (u.sys.recording.lastStepUsageRaw.getD r.usage)), .finish .stop rs] := by
        rw [List.append_assoc, ← hout]
        rfl
      rw [hpushed] at hv
      refine ⟨c.cursor, r, events_step hs he, rfl, ?_⟩
      rw [hv.of_pair (hread.append hpre), hinv.fresh hfresh r, hinv.usageAt_step hs he]

/-- A turn of a consumer. -/
theorem Reports.turn {c c' : Consumer} {j : ℕ} (hinv : UsageInv u) (hs : u.step a = some u')
    (hok : u.KeepsUp a) (hj : u.sys.consumers[j]? = some c) (ht : Turn u.sys.recording c c')
    (hside : a = .pump j ∨ SameReading c c') : Reports u' c' := by
  have hc := hinv.reports c (List.mem_of_getElem? hj)
  rcases hside with rfl | hsame
  · cases ht with
    | map hp he => exact Reports.mapEvent hinv hs hok hj hp he
    | stop hp _ _ => exact hc.same hinv hs rfl rfl fun _ => .inl hp
    | park hp _ _ => exact hc.same hinv hs rfl rfl fun _ => .inl hp
    | finish hp =>
      have hsame : Reports u' c := hc.same hinv hs rfl rfl id
      refine ⟨fun hpump => ?_, fun v hv => ?_⟩
      · have : (c.finish u.sys.recording.failure).pump = .done := rfl
        rw [this] at hpump
        simp at hpump
      · exact hsame.chunks v (StopUsage.of_append (endOfLog_noStop u.sys.recording.failure c.mapper) hv)
    | drain hd =>
      have hr := drainTurn_reading c
      exact hc.same hinv hs hr.pushed hr.cursor (by rw [hr.pump]; exact id)
    | giveUp hd => exact hc.same hinv hs rfl rfl id
    | «over» hd => exact hc.same hinv hs rfl rfl id
  · exact hc.same hinv hs hsame.pushed hsame.cursor (by rw [hsame.pump]; exact id)

/-- The sample of a newly stored step is the newest one. -/
theorem UsageInv.sample_step (h : UsageInv u) (hs : u.step a = some u') (i : ℕ) (s : StepEvent) (raw : RawUsage)
    (he : u'.sys.recording.events[i]? = some (.step s)) (hu : s.usage = some raw) (hr : raw.nonEmpty = true) :
    ∃ n, u'.samplesBefore[i]? = some n ∧ u'.samples[n]? = some raw := by
  obtain ⟨hsys, h1, h2, -⟩ := usage_step hs
  rw [(step_ledger hsys).events] at he
  by_cases hlt : i < u.sys.recording.events.length
  · rw [List.getElem?_append_left hlt] at he
    obtain ⟨n, hn, hraw⟩ := h.sample i s raw he hu hr
    refine ⟨n, ?_, ?_⟩
    · rw [h2, List.getElem?_append_left (List.getElem?_eq_some_iff.mp hn).1, hn]
    · rw [h1, List.getElem?_append_left (List.getElem?_eq_some_iff.mp hraw).1, hraw]
  · rw [List.getElem?_append_right (by omega)] at he
    -- only an append stores an event
    cases a with
    | append ev =>
      have hs' : u.sys.recording.settled = false := by
        by_contra hne
        have hnil : u.sys.newEvents (.append ev) = [] := if_pos (by simpa using hne)
        rw [hnil] at he
        simp at he
      have hnew : u.sys.newEvents (.append ev) = u.sys.recording.stored ev := if_neg (by simp [hs'])
      rw [hnew, RunRecording.stored] at he
      split_ifs at he with hc
      · simp at he
      · obtain ⟨hi, rfl⟩ : i - u.sys.recording.events.length = 0 ∧ ev = .step s := by
          cases hi : i - u.sys.recording.events.length with
          | zero =>
            rw [hi] at he
            exact ⟨rfl, Option.some.inj he⟩
          | succ k =>
            rw [hi] at he
            cases he
        have hsample : AgyEvent.sample? (.step s) = some raw := by
          show s.usage.filter RawUsage.nonEmpty = some raw
          rw [hu, Option.filter_some_pos hr]
        have hsamples : u.newSamples (.append (.step s)) = [raw] := by
          rw [UsageState.newSamples, if_neg (by simp [hs']), hsample]
          rfl
        refine ⟨u.samples.length, ?_, ?_⟩
        · rw [h2, hnew, RunRecording.stored, if_neg hc, List.getElem?_append_right (by rw [h.length]; omega),
            h.length, hi]
          rfl
        · rw [h1, hsamples]
          simp
    | _ => simp [SpanState.newEvents] at he

theorem nextEvent?_eq_some {s : SpanState} {j : ℕ} {c : Consumer} {ev : AgyEvent}
    (h : s.nextEvent? j = some (c, ev)) :
    s.consumers[j]? = some c ∧ c.pump = .ready ∧ s.recording.events[c.cursor]? = some ev := by
  obtain ⟨c', hj, hc⟩ := Option.bind_eq_some_iff.mp h
  split_ifs at hc with hp
  obtain ⟨ev', he, heq⟩ := Option.map_eq_some_iff.mp hc
  obtain ⟨rfl, rfl⟩ : c' = c ∧ ev' = ev := by simpa using heq
  exact ⟨hj, hp, he⟩

/-- What a mapper notes is the newest sample, unless it makes the slot stale. -/
theorem UsageInv.slot_map (h : UsageInv u) {j : ℕ} {c : Consumer} {ev : AgyEvent}
    (hn : u.sys.nextEvent? j = some (c, ev)) (hstale : (u.noteMap j).stale = false) :
    c.mapper.noted ev u.sys.recording.lastStepUsageRaw = u.samples.getLast? := by
  obtain ⟨hj, hp, he⟩ := nextEvent?_eq_some hn
  have hun : c.mapper.finished = false :=
    ((h.sys.consumers c (List.mem_of_getElem? hj)).reads.reading (.inl hp)).reading
  cases ev with
  | step st =>
    have hnoted : c.mapper.noted (.step st) u.sys.recording.lastStepUsageRaw =
        st.usage.or u.sys.recording.lastStepUsageRaw := if_neg (by simp [hun])
    rw [hnoted]
    cases hu : st.usage with
    | none =>
      have hm : u.noteMap j = u := by simp only [noteMap, hn, hu]
      rw [hm] at hstale
      exact h.slot hstale
    | some raw =>
      have hm : u.noteMap j = { u with stale := !u.isNewest c.cursor raw } := by simp only [noteMap, hn, hu]
      rw [hm] at hstale
      have hnew : u.isNewest c.cursor raw = true := by simpa using hstale
      simp only [isNewest, Bool.and_eq_true, beq_iff_eq] at hnew
      obtain ⟨n, hb, hraw⟩ := h.sample c.cursor st raw he hu hnew.1
      rw [hb, Option.map_some, Option.some.injEq] at hnew
      show some raw = _
      rw [List.getLast?_eq_getElem?, ← hnew.2, Nat.add_sub_cancel, hraw]
  | _ =>
    have hm : u.noteMap j = u := by simp only [noteMap, hn]
    rw [hm] at hstale
    exact (if_neg (by simp [hun])).trans (h.slot hstale)

/-- **The slot** holds the newest sample after every step that does not make it stale. -/
theorem UsageInv.slot_step (h : UsageInv u) (hs : u.step a = some u') (hstale : u'.stale = false) :
    u'.sys.recording.lastStepUsageRaw = u'.samples.getLast? := by
  obtain ⟨hsys, h1, -, h3⟩ := usage_step hs
  rw [(step_ledger hsys).slot, h1]
  rw [h3] at hstale
  cases a with
  | append ev =>
    cases hset : u.sys.recording.settled with
    | true =>
      have hn : u.note (.append ev) = u := if_pos hset
      rw [hn] at hstale
      rw [SpanState.slotAfter, UsageState.newSamples, hset, if_pos rfl, if_pos rfl, List.append_nil]
      exact h.slot hstale
    | false =>
      have hn : (u.note (.append ev)).stale = (u.stale && ev.sample?.isNone) := by
        rw [UsageState.note, noteAppend, if_neg (by simp [hset])]
      rw [hn] at hstale
      rw [SpanState.slotAfter, UsageState.newSamples, hset, if_neg (by simp), if_neg (by simp)]
      cases hsm : ev.sample? with
      | some raw =>
        show some raw = (u.samples ++ [raw]).getLast?
        rw [List.getLast?_concat]
      | none =>
        rw [hsm] at hstale
        rw [Option.none_or, Option.toList_none, List.append_nil]
        exact h.slot (by simpa using hstale)
  | pump j =>
    have hnil : u.newSamples (.pump j) = [] := rfl
    rw [hnil, List.append_nil, SpanState.slotAfter]
    have hstale : (u.noteMap j).stale = false := hstale
    cases hn : u.sys.nextEvent? j with
    | none =>
      have hm : u.noteMap j = u := by simp only [noteMap, hn]
      rw [hm] at hstale
      exact h.slot hstale
    | some p => exact h.slot_map hn hstale
  | _ => exact (h.slot hstale).trans (congrArg List.getLast? (List.append_nil _).symm)

/-- The consumers after a step. -/
theorem UsageInv.reports_step (h : UsageInv u) (hok : u.KeepsUp a) (hs : u.step a = some u') :
    ∀ c ∈ u'.sys.consumers, Reports u' c := by
  obtain ⟨hsys, -, -, -⟩ := usage_step hs
  rcases SpanState.step_cases hsys with ⟨hg, hc⟩ | ⟨j, c, c', hj, ht, hside, hl, hc⟩ | ⟨cursor, -, hl, hc⟩ | hsame
  · intro c hm
    rw [hc] at hm
    obtain ⟨c₀, hm₀, rfl⟩ := List.mem_map.mp hm
    refine (h.reports c₀ hm₀).same h hs rfl rfl fun hp => ?_
    by_contra hne
    rw [not_or] at hne
    have hw : c₀.wake.pump = c₀.pump := if_neg hne.2
    rw [hw] at hp
    exact hp.elim hne.1 hne.2
  · intro c₁ hm
    rw [hc] at hm
    rcases List.mem_or_eq_of_mem_set hm with hm | rfl
    · exact (h.reports c₁ hm).same h hs rfl rfl id
    · exact Reports.turn h hs hok hj ht hside
  · intro c₁ hm
    rw [hc, List.mem_append, List.mem_singleton] at hm
    rcases hm with hm | rfl
    · obtain ⟨c₀, hm₀, rfl⟩ := List.mem_map.mp hm
      exact (h.reports c₀ hm₀).same h hs rfl rfl id
    · exact ⟨fun _ => noStop_nil, fun v hv => absurd hv noStop_nil.not_stopUsage⟩
  · intro c hm
    rw [hsame] at hm
    exact (h.reports c hm).same h hs rfl rfl id

/-- The bill after a step. -/
theorem UsageInv.billed_step (h : UsageInv u) (hok : u.KeepsUp a) (hs : u.step a = some u')
    (b : Option TokenUsage) (hb : u'.sys.billed = some b) : u'.sys.recording.settled = true ∧
      ∀ i r, lastResultAt? u'.sys.recording.events = some (i, r) → b = some (u'.usageAt i r) := by
  obtain ⟨hsys, -, -, -⟩ := usage_step hs
  obtain ⟨-, hevents, hbilled, hset, hbills⟩ := step_ledger hsys
  by_cases hsame : u'.sys.billed = u.sys.billed
  · -- an old bill: the run was settled before, the log stays
    obtain ⟨h1, h2⟩ := h.billed b (hsame ▸ hb)
    have hnil : u.sys.newEvents a = [] := by
      cases a with
      | append ev => exact if_pos h1
      | _ => rfl
    rw [hnil, List.append_nil] at hevents
    refine ⟨hset h1, fun i r hl => ?_⟩
    rw [hevents] at hl
    rw [h2 i r hl, h.usageAt_step hs (lastResultAt?_get hl)]
  · refine ⟨hbills hsame, fun i r hl => ?_⟩
    cases a with
    | settle failure books =>
      cases hbook : books with
      | false => exact absurd (hbilled.trans (by rw [hbook]; rfl)) hsame
      | true =>
        rw [hbook] at hok hbilled hevents hs
        rw [show u.sys.newEvents (.settle failure true) = [] from rfl, List.append_nil] at hevents
        rw [hevents] at hl
        obtain ⟨hfresh, hne⟩ := hok rfl _ hl
        have hrun : SpanState.runUsage u.sys.recording = some (u.usageAt i r) := by
          rw [SpanState.runUsage, RunRecording.getResultRawUsage, lastResult?_eq, hl]
          simp only [Option.map_some, Option.filter_some_pos hne]
          rw [RunRecording.finalUsage, h.fresh hfresh r]
        rw [hbilled, show u.sys.billedAfter (.settle failure true) = some (SpanState.runUsage u.sys.recording) from rfl,
          hrun] at hb
        rw [← Option.some.inj hb, h.usageAt_step hs (lastResultAt?_get hl)]
    | _ => exact absurd hbilled hsame

/-- **One action keeps the invariant** when what it reads is fresh. -/
theorem UsageInv.step (h : UsageInv u) (hok : u.KeepsUp a) (hs : u.step a = some u') : UsageInv u' := by
  obtain ⟨hsys, h1, h2, -⟩ := usage_step hs
  refine ⟨h.sys.step hsys, ?_, ?_, h.sample_step hs, h.slot_step hs, h.reports_step hok hs, h.billed_step hok hs⟩
  · rw [h2, (step_ledger hsys).events, List.length_append, List.length_append, List.length_map, h.length]
  · intro n hn
    rw [h2, List.mem_append] at hn
    rw [h1, List.length_append]
    rcases hn with hn | hn
    · exact Nat.le_add_right_of_le (h.bound n hn)
    · obtain ⟨-, -, rfl⟩ := List.mem_map.mp hn
      exact Nat.le_add_right _ _

theorem UsageInv.exact (h : UsageInv u) : UsageExact u where
  chunks c hc := (h.reports c hc).chunks
  billed b hb := (h.billed b hb).2

/-- **Usage accounting agrees everywhere** in a run whose steps keep up: every usage chunk before a stop
finish and the usage of the final `onRun` are those of the last non-empty sample appended before the
result, else of the result itself. -/
theorem usage_exact (runId : RunId) (as : List SpanAction) (u : UsageState)
    (hok : Every UsageState.step KeepsUp (.init runId) as)
    (h : exec UsageState.step (.init runId) as = some u) : UsageExact u :=
  (exec_invariant (fun _ _ _ hI hok hs => hI.step hok hs) as _ u (usageInv_init runId) hok h).exact

/-- A text step with a sample of that many input tokens. -/
def sampleStep (key : String) (n : ℚ) : AgyEvent :=
  .step ⟨js key, .text, js "hi", false, none, none, some ⟨some n, none, none, none, none, none⟩⟩

/-- An ok result with usage of its own. -/
def usageResult : AgyEvent := .result ⟨[], true, js "hi", none, ⟨some 9, none, none, none, none, none⟩⟩

/-- The consumer maps every event before the next one is appended. -/
def promptRun : List SpanAction :=
  [.attach 0, .append (sampleStep "1" 1), .pump 0, .append (sampleStep "2" 2), .pump 0, .append usageResult,
    .pump 0, .settle none true]

theorem usage_exact_prompt : ∃ u, exec UsageState.step (.init ⟨js "r", by decide⟩) promptRun = some u ∧
    UsageExact u ∧ u.sys.billed = some (some ⟨2, 0, none, none, none⟩) := by
  have hok : Every UsageState.step KeepsUp (.init ⟨js "r", by decide⟩) promptRun := by decide +kernel
  have hrun : (exec UsageState.step (.init ⟨js "r", by decide⟩) promptRun).map (·.sys.billed) =
      some (some (some ⟨2, 0, none, none, none⟩)) := by decide +kernel
  obtain ⟨u, hu, hb⟩ := Option.map_eq_some_iff.mp hrun
  exact ⟨u, hu, usage_exact _ promptRun u hok hu, hb⟩

/-- The consumer maps the first step when both samples and the result are there already. -/
def lateRun : List SpanAction :=
  [.attach 0, .append (sampleStep "1" 1), .append (sampleStep "2" 2), .append usageResult, .pump 0,
    .settle none true]

/-- The late consumer puts the first sample back: it is billed in place of the second. -/
theorem not_usageExact_late : ∃ u, exec UsageState.step (.init ⟨js "r", by decide⟩) lateRun = some u ∧
    u.sys.billed = some (some ⟨1, 0, none, none, none⟩) ∧ ¬ UsageExact u := by
  have hrun : (exec UsageState.step (.init ⟨js "r", by decide⟩) lateRun).map
      (fun u => (u.sys.billed, (lastResultAt? u.sys.recording.events).map fun p => (p.1, u.usageAt p.1 p.2))) =
      some (some (some ⟨1, 0, none, none, none⟩), some (2, ⟨2, 0, none, none, none⟩)) := by decide +kernel
  obtain ⟨u, hu, hp⟩ := Option.map_eq_some_iff.mp hrun
  obtain ⟨hb, hl⟩ := Prod.mk.inj hp
  obtain ⟨⟨i, r⟩, hlast, hat⟩ := Option.map_eq_some_iff.mp hl
  refine ⟨u, hu, hb, fun hex => ?_⟩
  have hsame := Option.some.inj (hex.billed _ hb i r hlast)
  rw [(Prod.mk.inj hat).2] at hsame
  exact absurd (congrArg TokenUsage.inputTokens hsame) (by decide)

end Invariant

end AgyProxy
