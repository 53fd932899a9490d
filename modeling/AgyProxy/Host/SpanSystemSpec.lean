import AgyProxy.Host.SpanSystem
import AgyProxy.Host.Transcript
import AgyProxy.Host.RecordingSpec

/-!
# AgyProxy.Host.SpanSystemSpec — every span is the fold of its part of the log

* `step_fires`: the guard of an action, and the state it leaves.
* `step_cases`: what one action can do, said once: the log grows and wakes the waiters, one consumer takes
  a turn over the same log, or a consumer is added.
* `ConsumerInv`: the invariant of a consumer.  Up to usage values what it pushed is the pure fold of its
  new mapper over the events it read; nothing is lost between the pump and the client; a parked party has
  nothing to do.
* `reaches_inv`: it holds in every reached state.
-/

namespace AgyProxy

open Js Lib EventMapper

/-! ### What an action can do -/

section Actions

/-- The recordings agree on the log and on the settlement. -/
structure SameLog (rec rec' : RunRecording) : Prop where
  runId : rec'.runId = rec.runId
  events : rec'.events = rec.events
  settled : rec'.settled = rec.settled
  failure : rec'.failure = rec.failure

/-- The log of an unsettled recording grew, or the recording was settled. -/
structure LogGrows (rec rec' : RunRecording) : Prop where
  runId : rec'.runId = rec.runId
  live : rec.settled = false
  events : ∃ new, rec'.events = rec.events ++ new
  capped : Capped rec.events → Capped rec'.events

/-- The consumers agree on what their event pumps did. -/
structure SameReading (c c' : Consumer) : Prop where
  start : c'.start = c.start
  saw : c'.saw = c.saw
  mapper : c'.mapper = c.mapper
  cursor : c'.cursor = c.cursor
  pump : c'.pump = c.pump
  pushed : c'.pushed = c.pushed
  cutOnToolEnd : c'.cutOnToolEnd = c.cutOnToolEnd

theorem drainTurn_reading (c : Consumer) : SameReading c c.drainTurn := by
  unfold Consumer.drainTurn
  split <;> exact ⟨rfl, rfl, rfl, rfl, rfl, rfl, rfl⟩

/-- What one party does to a consumer in one turn. -/
inductive Turn (rec : RunRecording) (c : Consumer) : Consumer → Prop
  | map {ev : AgyEvent} : c.pump = .ready → rec.events[c.cursor]? = some ev →
      Turn rec c (c.mapEvent rec.lastStepUsageRaw ev)
  | stop : c.pump = .ready → rec.events[c.cursor]? = none → rec.settled = true →
      Turn rec c { c with pump := .ended }
  | park : c.pump = .ready → rec.events[c.cursor]? = none → rec.settled = false →
      Turn rec c { c with pump := .waiting }
  | finish : c.pump = .ended → Turn rec c (c.finish rec.failure)
  | drain : c.drain = .ready ∨ c.drain = .yielded → Turn rec c c.drainTurn
  | giveUp : c.drain = .yielded → Turn rec c { c with drain := .returning }
  | over : c.drain = .returning ∨ c.drain = .drained → Turn rec c { c with drain := .over }

namespace SpanState

/-- **What one action can do** to the recording and the consumers. -/
inductive Effect (s : SpanState) (a : SpanAction) (s' : SpanState) : Prop
  | log : LogGrows s.recording s'.recording → s'.consumers = s.consumers.map Consumer.wake → Effect s a s'
  | turn (j : ℕ) (c c' : Consumer) : s.consumers[j]? = some c → Turn s.recording c c' →
      a = .pump j ∨ SameReading c c' → SameLog s.recording s'.recording →
      s'.consumers = s.consumers.set j c' → Effect s a s'
  | attach (cursor : ℕ) : a = .attach cursor → SameLog s.recording s'.recording →
      s'.consumers = s.consumers.map (·.noteResume cursor) ++ [Consumer.attach s.recording cursor] → Effect s a s'
  | nothing : s' = s → Effect s a s'

theorem SameLog.rfl' (rec : RunRecording) : SameLog rec rec := ⟨rfl, rfl, rfl, rfl⟩

theorem forget_consumers (s : SpanState) : s.forgetUnlessKept.consumers = s.consumers := by
  unfold forgetUnlessKept
  split_ifs <;> rfl

theorem forget_recording (s : SpanState) : s.forgetUnlessKept.recording = s.recording := by
  unfold forgetUnlessKept
  split_ifs <;> rfl

theorem append_grows {s : SpanState} (h : s.recording.settled = false) (ev : AgyEvent) :
    LogGrows s.recording (s.append ev).recording ∧ (s.append ev).consumers = s.consumers.map Consumer.wake := by
  have he : s.append ev = { s with recording := s.recording.append ev, consumers := s.consumers.map Consumer.wake } := by
    unfold SpanState.append
    rw [h]
    rfl
  rw [he]
  exact ⟨⟨(RunRecording.append_other h ev).1, h, ⟨_, RunRecording.append_events h ev⟩,
    fun hc => RunRecording.append_capped hc ev⟩, rfl⟩

theorem settle_grows {s : SpanState} (h : s.recording.settled = false) (failure : Option RecordingFailure) :
    LogGrows s.recording (s.settle failure).recording ∧
      (s.settle failure).consumers = s.consumers.map Consumer.wake := by
  have he : s.settle failure =
      { s with recording := { s.recording with settled := true, failure }, consumers := s.consumers.map Consumer.wake } := by
    unfold SpanState.settle RunRecording.settle
    rw [h]
    rfl
  rw [he]
  exact ⟨⟨rfl, h, ⟨[], by simp⟩, id⟩, rfl⟩

theorem bill_same (s : SpanState) (books : Bool) :
    (s.bill books).recording = s.recording ∧ (s.bill books).consumers = s.consumers := by
  unfold bill
  split_ifs <;> exact ⟨rfl, rfl⟩

theorem settleRun_grows {s : SpanState} (h : s.recording.settled = false) (failure : Option RecordingFailure)
    (books : Bool) : LogGrows s.recording (s.settleRun failure books).recording ∧
      (s.settleRun failure books).consumers = s.consumers.map Consumer.wake := by
  obtain ⟨hr, hc⟩ := bill_same s books
  have hg := settle_grows (hr ▸ h : (s.bill books).recording.settled = false) failure
  rw [hr, hc] at hg
  unfold settleRun
  dsimp only
  split_ifs
  · exact hg
  · exact hg

/-- The settlement of a recording that is open. -/
theorem settle_bill {s : SpanState} (h : s.recording.settled = false) (failure : Option RecordingFailure)
    (books : Bool) : (s.bill books).settle failure =
      { s.bill books with
        recording := { s.recording with settled := true, failure }
        consumers := (s.bill books).consumers.map Consumer.wake } := by
  unfold SpanState.settle RunRecording.settle
  rw [(bill_same s books).1, h]
  rfl

/-- The turn of an event pump. -/
theorem pumpTurn_cases {s s' : SpanState} {j : ℕ} {c : Consumer} (h : s.pumpTurn j c = some s') :
    ∃ c', Turn s.recording c c' ∧ SameLog s.recording s'.recording ∧ s'.consumers = s.consumers.set j c' := by
  unfold pumpTurn at h
  cases hp : c.pump with
  | ready =>
    rw [hp] at h
    cases he : s.recording.events[c.cursor]? with
    | some ev =>
      simp only [he] at h
      obtain rfl := Option.some.inj h
      exact ⟨_, .map hp he, ⟨rfl, rfl, rfl, rfl⟩, rfl⟩
    | none =>
      simp only [he] at h
      obtain rfl := Option.some.inj h
      cases hs : s.recording.settled with
      | true => exact ⟨_, .stop hp he hs, SameLog.rfl' _, rfl⟩
      | false => exact ⟨_, .park hp he hs, SameLog.rfl' _, rfl⟩
  | ended =>
    rw [hp] at h
    obtain rfl := Option.some.inj h
    exact ⟨_, .finish hp, SameLog.rfl' _, rfl⟩
  | waiting =>
    rw [hp] at h
    cases h
  | done =>
    rw [hp] at h
    cases h

/-- The guard of an action, and the state it leaves. -/
inductive Fires (s : SpanState) : SpanAction → SpanState → Prop
  | append {ev : AgyEvent} : Fires s (.append ev) (s.append ev)
  | settle {failure : Option RecordingFailure} {books : Bool} : s.recording.settled = false →
      Fires s (.settle failure books) (s.settleRun failure books)
  | settleThrown {failure : RecordingFailure} : s.recording.settled = false →
      Fires s (.settleThrown failure) (s.settle (some failure))
  | attach {cursor : ℕ} : s.registered = true → Fires s (.attach cursor)
      { s with consumers := s.consumers.map (·.noteResume cursor) ++ [Consumer.attach s.recording cursor] }
  | pump {j : ℕ} {c : Consumer} {s' : SpanState} : s.consumers[j]? = some c → s.pumpTurn j c = some s' →
      Fires s (.pump j) s'
  | drain {j : ℕ} {c : Consumer} : s.consumers[j]? = some c → c.drain = .ready ∨ c.drain = .yielded →
      Fires s (.drain j) (s.setConsumer j c.drainTurn)
  | giveUp {j : ℕ} {c : Consumer} : s.consumers[j]? = some c → c.drain = .yielded →
      Fires s (.giveUp j) (s.setConsumer j { c with drain := .returning })
  | finalize {j : ℕ} {c : Consumer} : s.consumers[j]? = some c → c.drain = .returning →
      Fires s (.finalize j) ((s.setConsumer j { c with drain := .over }).setKeep
        (c.clientSawToolCall || s.recording.keepForContinuation)).forgetUnlessKept
  | tail {j : ℕ} {c : Consumer} : s.consumers[j]? = some c → c.drain = .drained →
      Fires s (.tail j) ((s.setConsumer j { c with drain := .over }).setKeep c.cutOnToolEnd).forgetUnlessKept

theorem step_fires {s s' : SpanState} {a : SpanAction} (h : s.step a = some s') : Fires s a s' := by
  cases a with
  | append ev =>
    obtain rfl := Option.some.inj h
    exact .append
  | settle failure books =>
    simp only [step] at h
    split_ifs at h with hs
    obtain rfl := Option.some.inj h
    exact .settle (by simpa using hs)
  | settleThrown failure =>
    simp only [step] at h
    split_ifs at h with hs
    obtain rfl := Option.some.inj h
    exact .settleThrown (by simpa using hs)
  | attach cursor =>
    simp only [step] at h
    split_ifs at h with hr
    obtain rfl := Option.some.inj h
    exact .attach hr
  | pump j =>
    obtain ⟨c, hc, h⟩ := Option.bind_eq_some_iff.mp h
    exact .pump hc h
  | drain j =>
    obtain ⟨c, hc, h⟩ := Option.bind_eq_some_iff.mp h
    split_ifs at h with hd
    obtain rfl := Option.some.inj h
    exact .drain hc hd
  | giveUp j =>
    obtain ⟨c, hc, h⟩ := Option.bind_eq_some_iff.mp h
    split_ifs at h with hd
    obtain rfl := Option.some.inj h
    exact .giveUp hc hd
  | finalize j =>
    obtain ⟨c, hc, h⟩ := Option.bind_eq_some_iff.mp h
    split_ifs at h with hd
    obtain rfl := Option.some.inj h
    exact .finalize hc hd
  | tail j =>
    obtain ⟨c, hc, h⟩ := Option.bind_eq_some_iff.mp h
    split_ifs at h with hd
    obtain rfl := Option.some.inj h
    exact .tail hc hd

theorem forget_sameLog (s : SpanState) (j : ℕ) (c : Consumer) (keep : Bool) :
    SameLog s.recording ((s.setConsumer j c).setKeep keep).forgetUnlessKept.recording ∧
      ((s.setConsumer j c).setKeep keep).forgetUnlessKept.consumers = s.consumers.set j c := by
  rw [forget_recording, forget_consumers]
  exact ⟨⟨rfl, rfl, rfl, rfl⟩, rfl⟩

theorem step_cases {s s' : SpanState} {a : SpanAction} (h : s.step a = some s') : Effect s a s' := by
  cases step_fires h with
  | @append ev =>
    cases hs : s.recording.settled with
    | true => exact .nothing (if_pos hs)
    | false => exact .log (append_grows hs ev).1 (append_grows hs ev).2
  | @settle failure books hs =>
    obtain ⟨hg, hc⟩ := settleRun_grows hs failure books
    exact .log hg hc
  | @settleThrown failure hs =>
    obtain ⟨hg, hc⟩ := settle_grows hs (some failure)
    exact .log hg hc
  | @attach cursor => exact .attach cursor rfl (SameLog.rfl' _) rfl
  | @pump j c s' hc h =>
    obtain ⟨c', ht, hl, hset⟩ := pumpTurn_cases h
    exact .turn j c c' hc ht (.inl rfl) hl hset
  | @drain j c hc hd => exact .turn j c _ hc (.drain hd) (.inr (drainTurn_reading c)) (SameLog.rfl' _) rfl
  | @giveUp j c hc hd =>
    exact .turn j c _ hc (.giveUp hd) (.inr ⟨rfl, rfl, rfl, rfl, rfl, rfl, rfl⟩) (SameLog.rfl' _) rfl
  | @finalize j c hc hd =>
    obtain ⟨hl, hset⟩ := forget_sameLog s j { c with drain := .over } _
    exact .turn j c _ hc (.over (.inl hd)) (.inr ⟨rfl, rfl, rfl, rfl, rfl, rfl, rfl⟩) hl hset
  | @tail j c hc hd =>
    obtain ⟨hl, hset⟩ := forget_sameLog s j { c with drain := .over } _
    exact .turn j c _ hc (.over (.inr hd)) (.inr ⟨rfl, rfl, rfl, rfl, rfl, rfl, rfl⟩) hl hset

end SpanState

end Actions

/-! ### What a consumer has read -/

section Reads

/-- The part of the log a consumer has mapped. -/
def Consumer.slice (c : Consumer) (events : List AgyEvent) : List AgyEvent :=
  (events.drop c.start).take (c.cursor - c.start)

/-- The pure fold of the consumer's new mapper over the events it has mapped. -/
def Consumer.fold (rec : RunRecording) (c : Consumer) : EventMapper × List StreamChunk :=
  AgyProxy.pump (fun _ => none) c.start (c.slice rec.events) (.new rec.runId true c.saw)

/-- The same with the failure funnel behind it. -/
def Consumer.foldEnd (rec : RunRecording) (c : Consumer) : EventMapper × List StreamChunk :=
  Emit.seq (AgyProxy.pump (fun _ => none) c.start (c.slice rec.events)) (endOfLog rec.failure)
    (.new rec.runId true c.saw)

/-- The reading side of a consumer. -/
structure Reads (rec : RunRecording) (c : Consumer) : Prop where
  start_le : c.start ≤ c.cursor
  cursor_le : c.cursor ≤ max c.start rec.events.length
  mapper_eq : c.pump ≠ .done → c.mapper = (c.fold rec).1
  pushed_eq : c.pump ≠ .done → withoutUsage c.pushed = withoutUsage (c.fold rec).2
  done_eq : c.pump = .done → withoutUsage c.pushed = withoutUsage (c.foldEnd rec).2
  reading : c.pump = .ready ∨ c.pump = .waiting → c.mapper.memory.Cutting
  caughtUp : c.pump = .waiting → rec.events.length ≤ c.cursor ∧ rec.settled = false
  stopped : c.pump = .ended ∨ c.pump = .done →
    (c.fold rec).1.finished = true ∨ rec.settled = true ∧ rec.events.length ≤ c.cursor
  calls : toolCallIds c.pushed = if c.cutOnToolEnd then [mirrorCallId rec.runId (c.cursor - 1)] else []
  cut : c.cutOnToolEnd = true → c.start < c.cursor ∧ (c.pump = .ended ∨ c.pump = .done) ∧
    ∃ ev, rec.events[c.cursor - 1]? = some ev ∧ ev.isToolDone = true

variable {rec rec' : RunRecording} {c : Consumer}

theorem slice_length (h : c.cursor ≤ max c.start rec.events.length) :
    (c.slice rec.events).length = c.cursor - c.start := by
  rw [Consumer.slice, List.length_take, List.length_drop]
  omega

/-- What was read does not change when the log grows. -/
theorem slice_append (h : c.cursor ≤ max c.start rec.events.length) (new : List AgyEvent) :
    c.slice (rec.events ++ new) = c.slice rec.events := by
  rw [Consumer.slice, Consumer.slice]
  by_cases hs : c.start ≤ rec.events.length
  · rw [List.drop_append_of_le_length hs, List.take_append_of_le_length]
    rw [List.length_drop]
    omega
  · have h0 : c.cursor - c.start = 0 := by omega
    rw [h0, List.take_zero, List.take_zero]

/-- The next event is appended to what was read. -/
theorem slice_concat {ev : AgyEvent} (hs : c.start ≤ c.cursor) (he : rec.events[c.cursor]? = some ev) :
    (rec.events.drop c.start).take (c.cursor + 1 - c.start) = c.slice rec.events ++ [ev] := by
  have hev : (rec.events.drop c.start)[c.cursor - c.start]? = some ev := by
    rw [List.getElem?_drop, show c.start + (c.cursor - c.start) = c.cursor by omega, he]
  rw [show c.cursor + 1 - c.start = c.cursor - c.start + 1 by omega, List.take_add_one, hev]
  rfl

/-- The fold grows by the next event. -/
theorem fold_concat {ev : AgyEvent} {c' : Consumer} (h : Reads rec c) (he : rec.events[c.cursor]? = some ev)
    (h1 : c'.start = c.start) (h2 : c'.saw = c.saw) (h3 : c'.cursor = c.cursor + 1) :
    c'.fold rec = ((EventMapper.map none ev c.cursor (c.fold rec).1).1,
      (c.fold rec).2 ++ (EventMapper.map none ev c.cursor (c.fold rec).1).2) := by
  have hslice : c'.slice rec.events = c.slice rec.events ++ [ev] := by
    rw [Consumer.slice, h1, h3, slice_concat h.start_le he]
  have hidx : c.start + (c.slice rec.events).length = c.cursor := by
    rw [slice_length h.cursor_le]
    have := h.start_le
    omega
  rw [Consumer.fold, hslice, h1, h2, pump_concat, hidx]
  rfl

/-- The log the invariant is about did not change. -/
theorem Reads.of_sameLog (h : Reads rec c) (hl : SameLog rec rec') : Reads rec' c := by
  obtain ⟨hr, he, hs, hf⟩ := hl
  have hfold : c.fold rec' = c.fold rec := by rw [Consumer.fold, Consumer.fold, hr, he]
  have hend : c.foldEnd rec' = c.foldEnd rec := by rw [Consumer.foldEnd, Consumer.foldEnd, hr, he, hf]
  obtain ⟨h1, h2, h3, h4, h5, h6, h7, h8, h9, h10⟩ := h
  rw [← he] at h2 h7 h8 h10
  rw [← hs] at h7 h8
  rw [← hfold] at h3 h4 h8
  rw [← hend] at h5
  rw [← hr] at h9
  exact ⟨h1, h2, h3, h4, h5, h6, h7, h8, h9, h10⟩

/-- A waker makes waiting pumps ready, and does nothing else. -/
theorem wake_pump_iff {p : PumpState} (hp : p ≠ .waiting) (hp' : p ≠ .ready) : c.wake.pump = p ↔ c.pump = p := by
  unfold Consumer.wake
  dsimp only
  split_ifs with hw
  · rw [hw]
    exact ⟨fun h => absurd h.symm hp', fun h => absurd h.symm hp⟩
  · rfl

theorem wake_not_waiting : c.wake.pump ≠ .waiting := by
  unfold Consumer.wake
  dsimp only
  split_ifs with hw
  · simp
  · exact hw

/-- The end of the log adds nothing to a mapper that has finished. -/
theorem foldEnd_of_finished (h : (c.fold rec).1.finished = true) : (c.foldEnd rec).2 = (c.fold rec).2 := by
  show (c.fold rec).2 ++ (endOfLog rec.failure (c.fold rec).1).2 = _
  rw [endOfLog_of_finished rec.failure h, List.append_nil]

/-- The recording grew or settled, and woke its waiters. -/
theorem Reads.wake (h : Reads rec c) (hl : LogGrows rec rec') : Reads rec' c.wake := by
  obtain ⟨hr, hlive, ⟨new, he⟩, -⟩ := hl
  have hslice : c.slice rec'.events = c.slice rec.events := by rw [he, slice_append h.cursor_le]
  have hfold : c.wake.fold rec' = c.fold rec := by
    show pump _ c.start (c.slice rec'.events) (.new rec'.runId true c.saw) = _
    rw [hslice, hr]
    rfl
  have hdone : c.wake.pump = .done ↔ c.pump = .done := wake_pump_iff (by simp) (by simp)
  have hended : c.wake.pump = .ended ↔ c.pump = .ended := wake_pump_iff (by simp) (by simp)
  -- an unsettled recording stops a pump by the finish of its mapper only
  have hfin : c.pump = .ended ∨ c.pump = .done → (c.fold rec).1.finished = true := by
    intro hp
    rcases h.stopped hp with hf | ⟨hs, -⟩
    · exact hf
    · rw [hlive] at hs
      cases hs
  refine ⟨h.start_le, ?_, ?_, ?_, ?_, ?_, fun hw => absurd hw wake_not_waiting, ?_, ?_, ?_⟩
  · have := h.cursor_le
    rw [he, List.length_append]
    show c.cursor ≤ max c.start _
    omega
  · intro hp
    rw [hfold]
    exact h.mapper_eq fun hd => hp (hdone.mpr hd)
  · intro hp
    rw [hfold]
    exact h.pushed_eq fun hd => hp (hdone.mpr hd)
  · intro hp
    have hd := hdone.mp hp
    have hf := hfin (.inr hd)
    have hf' : (c.wake.fold rec').1.finished = true := by
      rw [hfold]
      exact hf
    have hpushed := h.done_eq hd
    rw [foldEnd_of_finished hf] at hpushed
    rw [foldEnd_of_finished hf', hfold]
    exact hpushed
  · intro hp
    refine h.reading ?_
    by_contra hc
    rw [not_or] at hc
    have : c.wake.pump = c.pump := by
      unfold Consumer.wake
      exact if_neg hc.2
    rw [this] at hp
    exact hp.elim hc.1 hc.2
  · intro hp
    rw [hfold]
    exact Or.inl (hfin (hp.imp hended.mp hdone.mp))
  · rw [hr]
    exact h.calls
  · intro hc
    obtain ⟨hlt, hp, ev, hev, ht⟩ := h.cut hc
    refine ⟨hlt, hp.imp hended.mpr hdone.mpr, ev, ?_, ht⟩
    rw [he, List.getElem?_append_left]
    · exact hev
    · exact (List.getElem?_eq_some_iff.mp hev).1

/-- Only the client side of the consumer changed. -/
theorem Reads.of_client {c' : Consumer} (h : Reads rec c) (hs : SameReading c c') : Reads rec c' := by
  obtain ⟨h1, h2, h3, h4, h5, h6, h7⟩ := hs
  have hslice : c'.slice rec.events = c.slice rec.events := by rw [Consumer.slice, Consumer.slice, h1, h4]
  have hfold : c'.fold rec = c.fold rec := by rw [Consumer.fold, Consumer.fold, hslice, h1, h2]
  have hend : c'.foldEnd rec = c.foldEnd rec := by rw [Consumer.foldEnd, Consumer.foldEnd, hslice, h1, h2]
  constructor
  · rw [h1, h4]
    exact h.start_le
  · rw [h1, h4]
    exact h.cursor_le
  · rw [h5, h3, hfold]
    exact h.mapper_eq
  · rw [h5, h6, hfold]
    exact h.pushed_eq
  · rw [h5, h6, hend]
    exact h.done_eq
  · rw [h5, h3]
    exact h.reading
  · rw [h5, h4]
    exact h.caughtUp
  · rw [h5, h4, hfold]
    exact h.stopped
  · rw [h6, h7, h4]
    exact h.calls
  · rw [h7, h1, h4, h5]
    exact h.cut

/-- Before its end no span has been cut at a tool call. -/
theorem Reads.cutOnToolEnd_of_ready (h : Reads rec c) (hp : c.pump = .ready) : c.cutOnToolEnd = false := by
  by_contra hne
  obtain ⟨-, hp', -⟩ := h.cut (by simpa using hne)
  rw [hp] at hp'
  simp at hp'

/-- Where the pump stands behind an event. -/
theorem Reads.mapEvent_pump (h : Reads rec c) (slot : Option RawUsage) (hp : c.pump = .ready) (ev : AgyEvent) :
    (EventMapper.map slot ev c.cursor c.mapper).1.finished = ev.ends ∧
      (c.mapEvent slot ev).pump = if ev.ends then .ended else .ready := by
  obtain ⟨-, hc2, -⟩ := (h.reading (.inl hp)).hear ev
  have hfin : (EventMapper.map slot ev c.cursor c.mapper).1.finished = ev.ends :=
    (map_finished_iff slot ev c.cursor c.mapper).trans hc2
  refine ⟨hfin, ?_⟩
  rw [← hfin]
  rfl

theorem Reads.mapEvent_cutOnToolEnd (h : Reads rec c) (slot : Option RawUsage) (hp : c.pump = .ready)
    (ev : AgyEvent) : (c.mapEvent slot ev).cutOnToolEnd = ev.isToolDone := by
  obtain ⟨hc1, -, -⟩ := (h.reading (.inl hp)).hear ev
  show (c.cutOnToolEnd || (EventMapper.map slot ev c.cursor c.mapper).2.any StreamChunk.isToolCallsFinish) = _
  rw [h.cutOnToolEnd_of_ready hp, Bool.false_or, (map_heard slot ev c.cursor c.mapper).cut, hc1]

/-- The pump maps the next event. -/
theorem Reads.mapEvent {ev : AgyEvent} (h : Reads rec c) (slot : Option RawUsage) (hp : c.pump = .ready)
    (he : rec.events[c.cursor]? = some ev) : Reads rec (c.mapEvent slot ev) := by
  have hlt : c.cursor < rec.events.length := (List.getElem?_eq_some_iff.mp he).1
  have hfold : (c.mapEvent slot ev).fold rec = ((EventMapper.map none ev c.cursor (c.fold rec).1).1,
      (c.fold rec).2 ++ (EventMapper.map none ev c.cursor (c.fold rec).1).2) := fold_concat h he rfl rfl rfl
  have hnd : c.pump ≠ .done := by rw [hp]; simp
  have hmapper := h.mapper_eq hnd
  obtain ⟨hs1, hs2⟩ := map_slot slot none ev c.cursor c.mapper
  have hheard := map_heard slot ev c.cursor c.mapper
  obtain ⟨hc1, -, hc3⟩ := (h.reading (.inl hp)).hear ev
  obtain ⟨hfin, hpump⟩ := h.mapEvent_pump slot hp ev
  have hcutEnd := h.mapEvent_cutOnToolEnd slot hp ev
  have hrun : c.mapper.runId = rec.runId := by
    rw [hmapper]
    exact (pump_heard (fun _ => none) (c.slice rec.events) c.start (.new rec.runId true c.saw)).2.1
  have hnotdone : (c.mapEvent slot ev).pump ≠ .done := by
    rw [hpump]
    split_ifs <;> simp
  constructor
  · exact Nat.le_succ_of_le h.start_le
  · show c.cursor + 1 ≤ max c.start rec.events.length
    omega
  · intro _
    rw [hfold]
    show (EventMapper.map slot ev c.cursor c.mapper).1 = _
    rw [hs1, hmapper]
  · intro _
    rw [hfold]
    show withoutUsage (c.pushed ++ (EventMapper.map slot ev c.cursor c.mapper).2) = _
    rw [withoutUsage_append, withoutUsage_append, h.pushed_eq hnd, hs2, hmapper]
  · exact fun hd => absurd hd hnotdone
  · intro hr
    have hends : ev.ends = false := by
      by_contra hne
      rw [hpump, if_pos (by simpa using hne)] at hr
      simp at hr
    show (EventMapper.map slot ev c.cursor c.mapper).1.memory.Cutting
    rw [hheard.memory]
    exact hc3 hends
  · intro hw
    rw [hpump] at hw
    split_ifs at hw
  · intro hst
    refine Or.inl ?_
    rw [hfold]
    show (EventMapper.map none ev c.cursor (c.fold rec).1).1.finished = true
    rw [← hmapper, ← hs1, hfin]
    by_contra hne
    rw [hpump, if_neg hne] at hst
    simp at hst
  · show toolCallIds (c.pushed ++ (EventMapper.map slot ev c.cursor c.mapper).2) = _
    have hold : toolCallIds c.pushed = [] := by rw [h.calls, h.cutOnToolEnd_of_ready hp]; rfl
    rw [toolCallIds_append, hold, hheard.calls, hc1, hcutEnd, hrun]
    rfl
  · intro hc
    rw [hcutEnd] at hc
    refine ⟨Nat.lt_succ_of_le h.start_le, Or.inl ?_, ev, he, hc⟩
    rw [hpump, if_pos]
    unfold AgyEvent.ends
    rw [hc]
    rfl

/-- The failure funnel and the close behind the loop. -/
theorem Reads.finish (h : Reads rec c) (hp : c.pump = .ended) : Reads rec (c.finish rec.failure) := by
  have hnd : c.pump ≠ .done := by rw [hp]; simp
  have hmapper := h.mapper_eq hnd
  obtain ⟨b, hheard⟩ := endOfLog_heard rec.failure c.mapper (c.cursor - 1)
  constructor
  · exact h.start_le
  · exact h.cursor_le
  · exact fun hne => absurd rfl hne
  · exact fun hne => absurd rfl hne
  · intro _
    show withoutUsage (c.pushed ++ (endOfLog rec.failure c.mapper).2) =
      withoutUsage ((c.fold rec).2 ++ (endOfLog rec.failure (c.fold rec).1).2)
    rw [withoutUsage_append, withoutUsage_append, h.pushed_eq hnd, hmapper]
  · rintro (h | h) <;> cases h
  · intro h
    cases h
  · exact fun _ => h.stopped (.inl hp)
  · show toolCallIds (c.pushed ++ (endOfLog rec.failure c.mapper).2) = _
    rw [toolCallIds_append, h.calls, hheard.calls]
    exact List.append_nil _
  · intro hc
    obtain ⟨h1, -, h2⟩ := h.cut hc
    exact ⟨h1, Or.inr rfl, h2⟩

/-- **A turn keeps the reading side.** -/
theorem Reads.turn {c' : Consumer} (h : Reads rec c) (ht : Turn rec c c') : Reads rec c' := by
  cases ht with
  | map hp he => exact h.mapEvent _ hp he
  | finish hp => exact h.finish hp
  | stop hp hn hs =>
    have hlen : rec.events.length ≤ c.cursor := List.getElem?_eq_none_iff.mp hn
    have hnd : c.pump ≠ .done := by rw [hp]; simp
    refine ⟨h.start_le, h.cursor_le, fun _ => h.mapper_eq hnd, fun _ => h.pushed_eq hnd, fun hd => ?_, fun hd => ?_,
      fun hd => ?_, fun _ => Or.inr ⟨hs, hlen⟩, h.calls, fun hc => ?_⟩
    · cases hd
    · rcases hd with hd | hd <;> cases hd
    · cases hd
    · obtain ⟨h1, -, h2⟩ := h.cut hc
      exact ⟨h1, Or.inl rfl, h2⟩
  | park hp hn hs =>
    have hlen : rec.events.length ≤ c.cursor := List.getElem?_eq_none_iff.mp hn
    have hnd : c.pump ≠ .done := by rw [hp]; simp
    refine ⟨h.start_le, h.cursor_le, fun _ => h.mapper_eq hnd, fun _ => h.pushed_eq hnd, fun hd => ?_,
      fun _ => h.reading (.inl hp), fun _ => ⟨hlen, hs⟩, fun hd => ?_, h.calls, fun hc => ?_⟩
    · cases hd
    · rcases hd with hd | hd <;> cases hd
    · obtain ⟨-, hp', -⟩ := h.cut hc
      rw [hp] at hp'
      simp at hp'
  | drain hd => exact h.of_client (drainTurn_reading c)
  | giveUp hd => exact h.of_client ⟨rfl, rfl, rfl, rfl, rfl, rfl, rfl⟩
  | «over» hd => exact h.of_client ⟨rfl, rfl, rfl, rfl, rfl, rfl, rfl⟩

/-- A new consumer has read nothing. -/
theorem reads_attach (rec : RunRecording) (cursor : ℕ) : Reads rec (Consumer.attach rec cursor) := by
  have hslice : (Consumer.attach rec cursor).slice rec.events = [] := by
    rw [Consumer.slice]
    show (rec.events.drop cursor).take (cursor - cursor) = []
    rw [Nat.sub_self, List.take_zero]
  have hfold : (Consumer.attach rec cursor).fold rec = (.new rec.runId true (sawTextBefore rec.events cursor), []) := by
    rw [Consumer.fold, hslice]
    rfl
  constructor
  · exact Nat.le_refl _
  · exact Nat.le_max_left _ _
  · intro _
    rw [hfold]
    rfl
  · intro _
    rw [hfold]
    rfl
  · intro h
    cases h
  · exact fun _ => Memory.cutting_new _
  · intro h
    cases h
  · rintro (h | h) <;> cases h
  · rfl
  · intro h
    cases h

end Reads

/-! ### What a client has received -/

section Delivers

/-- The client side of a consumer: the queue is what was pushed less what was delivered. -/
structure Delivers (c : Consumer) : Prop where
  queue_eq : c.delivered ++ c.queue.pending = c.pushed
  head_le : c.queue.head ≤ c.queue.chunks.length
  closed_iff : c.queue.closed = true ↔ c.pump = .done
  parked : c.drain = .waiting → c.queue.pending = [] ∧ c.queue.closed = false
  completed : c.completed = true → c.queue.closed = true ∧ c.queue.pending = []
  drained : c.drain = .drained → c.completed = true
  saw : c.clientSawToolCall = c.delivered.any StreamChunk.isToolCallEnd

variable {rec : RunRecording} {c : Consumer}

theorem pending_push (q : ChunkQueue) (h : q.head ≤ q.chunks.length) (out : List StreamChunk) :
    (q.push out).pending = q.pending ++ out := List.drop_append_of_le_length h

theorem Delivers.open_of_not_done (h : Delivers c) (hp : c.pump ≠ .done) :
    c.queue.closed = false ∧ c.completed = false := by
  have hc : c.queue.closed = false := by
    by_contra hne
    exact hp (h.closed_iff.mp (by simpa using hne))
  refine ⟨hc, ?_⟩
  by_contra hne
  rw [(h.completed (by simpa using hne)).1] at hc
  cases hc

theorem Delivers.wake (h : Delivers c) : Delivers c.wake := by
  obtain ⟨h1, h2, h3, h4, h5, h6, h7⟩ := h
  refine ⟨h1, h2, h3.trans ?_, h4, h5, h6, h7⟩
  unfold Consumer.wake
  dsimp only
  split_ifs with hw
  · rw [hw]
    simp
  · rfl

/-- Pushing chunks into an open queue, whatever else the pump does. -/
theorem Delivers.push (h : Delivers c) (hp : c.pump ≠ .done) (out : List StreamChunk) :
    Delivers (c.push out) := by
  obtain ⟨hopen, hcomp⟩ := h.open_of_not_done hp
  constructor
  · show c.delivered ++ (c.queue.push out).pending = c.pushed ++ out
    rw [pending_push _ h.head_le, ← List.append_assoc, h.queue_eq]
  · show c.queue.head ≤ (c.queue.chunks ++ out).length
    have := h.head_le
    rw [List.length_append]
    omega
  · exact h.closed_iff
  · intro hd
    have hw : c.drain = .waiting ∧ out = [] := by
      simp only [Consumer.push] at hd
      split_ifs at hd with hc
      exact ⟨hd, by_contra fun hne => hc ⟨hd, hne⟩⟩
    show (c.queue.push out).pending = [] ∧ c.queue.closed = false
    rw [pending_push _ h.head_le, hw.2, List.append_nil]
    exact h.parked hw.1
  · intro hc
    have : c.completed = true := hc
    rw [hcomp] at this
    cases this
  · intro hd
    simp only [Consumer.push] at hd
    split_ifs at hd
    exact h.drained hd
  · exact h.saw

theorem Delivers.drainTurn (h : Delivers c) : Delivers c.drainTurn := by
  unfold Consumer.drainTurn
  split
  · rename_i ch hch
    have hlt := (List.getElem?_eq_some_iff.mp hch).1
    have hpend : c.queue.pending = ch :: c.queue.chunks.drop (c.queue.head + 1) := by
      rw [ChunkQueue.pending, List.drop_eq_getElem_cons hlt, (List.getElem?_eq_some_iff.mp hch).2]
    constructor
    · show (c.delivered ++ [ch]) ++ c.queue.chunks.drop (c.queue.head + 1) = c.pushed
      rw [List.append_assoc, List.singleton_append, ← hpend]
      exact h.queue_eq
    · exact hlt
    · exact h.closed_iff
    · intro hd
      cases hd
    · intro hc
      have h2 := (h.completed hc).2
      rw [hpend] at h2
      cases h2
    · intro hd
      cases hd
    · show (c.clientSawToolCall || ch.isToolCallEnd) = _
      rw [h.saw, List.any_append]
      simp
  · rename_i hnone
    have hlen : c.queue.chunks.length ≤ c.queue.head := List.getElem?_eq_none_iff.mp hnone
    have hpend : c.queue.pending = [] := List.drop_eq_nil_of_le hlen
    have hcompact : c.queue.compact.pending = [] := by
      show (c.queue.chunks.drop c.queue.head).drop 0 = []
      rw [List.drop_zero]
      exact hpend
    constructor
    · show c.delivered ++ c.queue.compact.pending = c.pushed
      rw [hcompact, ← hpend]
      exact h.queue_eq
    · exact Nat.zero_le _
    · exact h.closed_iff
    · intro hd
      refine ⟨hcompact, ?_⟩
      show c.queue.closed = false
      by_contra hne
      have hc : c.queue.closed = true := by simpa using hne
      simp [hc] at hd
    · exact fun hc => ⟨hc, hcompact⟩
    · intro hd
      show c.queue.closed = true
      by_contra hne
      simp [hne] at hd
    · exact h.saw

/-- The client leaves the loop. -/
theorem Delivers.setDrain (h : Delivers c) {d : DrainState} (hw : d ≠ .waiting) (hd : d ≠ .drained) :
    Delivers { c with drain := d } :=
  ⟨h.queue_eq, h.head_le, h.closed_iff, fun hp => absurd hp hw, h.completed, fun hp => absurd hp hd, h.saw⟩

/-- **A turn keeps the client side.** -/
theorem Delivers.turn {c' : Consumer} (h : Delivers c) (ht : Turn rec c c') : Delivers c' := by
  cases ht with
  | @map ev hp he =>
    have hnd : c.pump ≠ .done := by rw [hp]; simp
    obtain ⟨h1, h2, h3, h4, h5, h6, h7⟩ :=
      h.push hnd (EventMapper.map rec.lastStepUsageRaw ev c.cursor c.mapper).2
    refine ⟨h1, h2, ?_, h4, h5, h6, h7⟩
    show c.queue.closed = true ↔ (if _ then PumpState.ended else PumpState.ready) = PumpState.done
    rw [(h.open_of_not_done hnd).1]
    split_ifs <;> simp
  | stop hp hn hs =>
    have hnd : c.pump ≠ .done := by rw [hp]; simp
    exact ⟨h.queue_eq, h.head_le, by rw [(h.open_of_not_done hnd).1]; simp, h.parked, h.completed, h.drained, h.saw⟩
  | park hp hn hs =>
    have hnd : c.pump ≠ .done := by rw [hp]; simp
    exact ⟨h.queue_eq, h.head_le, by rw [(h.open_of_not_done hnd).1]; simp, h.parked, h.completed, h.drained, h.saw⟩
  | finish hp =>
    have hnd : c.pump ≠ .done := by rw [hp]; simp
    obtain ⟨h1, h2, h3, h4, h5, h6, h7⟩ := h.push hnd (endOfLog rec.failure c.mapper).2
    have hcomp : c.completed = false := (h.open_of_not_done hnd).2
    refine ⟨h1, h2, ?_, ?_, ?_, ?_, h7⟩
    · show true = true ↔ PumpState.done = PumpState.done
      simp
    · intro hd
      simp only [Consumer.finish, Consumer.close] at hd
      split_ifs at hd
      contradiction
    · intro hc
      have : c.completed = true := hc
      rw [hcomp] at this
      cases this
    · intro hd
      simp only [Consumer.finish, Consumer.close] at hd
      split_ifs at hd
      exact h6 hd
  | drain hd => exact h.drainTurn
  | giveUp hd => exact h.setDrain (by simp) (by simp)
  | «over» hd => exact h.setDrain (by simp) (by simp)

theorem delivers_attach (rec : RunRecording) (cursor : ℕ) : Delivers (Consumer.attach rec cursor) where
  queue_eq := rfl
  head_le := Nat.le_refl _
  closed_iff := by simp [Consumer.attach, ChunkQueue.new]
  parked h := by cases h
  completed h := by cases h
  drained h := by cases h
  saw := rfl

end Delivers

/-! ### The invariant of a run -/

section Invariant

open SpanState

/-- A consumer of the recording. -/
structure ConsumerInv (rec : RunRecording) (c : Consumer) : Prop where
  reads : Reads rec c
  delivers : Delivers c
  attached_le : c.attachedAt ≤ rec.events.length
  saw_eq : c.start ≤ c.attachedAt → c.saw = sawTextBefore rec.events c.start

structure SpanInv (s : SpanState) : Prop where
  capped : Capped s.recording.events
  consumers : ∀ c ∈ s.consumers, ConsumerInv s.recording c

variable {rec rec' : RunRecording} {c c' : Consumer}

theorem sawTextBefore_append {events : List AgyEvent} {n : ℕ} (h : n ≤ events.length) (new : List AgyEvent) :
    sawTextBefore (events ++ new) n = sawTextBefore events n := by
  rw [sawTextBefore, sawTextBefore, List.take_append_of_le_length h]

theorem ConsumerInv.of_sameLog (h : ConsumerInv rec c) (hl : SameLog rec rec') : ConsumerInv rec' c where
  reads := h.reads.of_sameLog hl
  delivers := h.delivers
  attached_le := hl.events ▸ h.attached_le
  saw_eq hs := hl.events ▸ h.saw_eq hs

theorem ConsumerInv.wake (h : ConsumerInv rec c) (hl : LogGrows rec rec') : ConsumerInv rec' c.wake := by
  obtain ⟨new, he⟩ := hl.events
  refine ⟨h.reads.wake hl, h.delivers.wake, ?_, ?_⟩
  · have := h.attached_le
    rw [he, List.length_append]
    show c.attachedAt ≤ _
    omega
  · intro hs
    have hs' : c.start ≤ c.attachedAt := hs
    show c.saw = sawTextBefore rec'.events c.start
    rw [he, sawTextBefore_append (hs'.trans h.attached_le)]
    exact h.saw_eq hs'

/-- A turn changes neither where a span began nor what its mapper was told then. -/
theorem Turn.same (ht : Turn rec c c') :
    c'.start = c.start ∧ c'.saw = c.saw ∧ c'.attachedAt = c.attachedAt ∧ c'.resumed = c.resumed := by
  cases ht with
  | drain hd =>
    unfold Consumer.drainTurn
    split <;> exact ⟨rfl, rfl, rfl, rfl⟩
  | _ => exact ⟨rfl, rfl, rfl, rfl⟩

theorem ConsumerInv.turn (h : ConsumerInv rec c) (ht : Turn rec c c') : ConsumerInv rec c' := by
  obtain ⟨h1, h2, h3, -⟩ := ht.same
  refine ⟨h.reads.turn ht, h.delivers.turn ht, h3 ▸ h.attached_le, ?_⟩
  rw [h1, h2, h3]
  exact h.saw_eq

theorem ConsumerInv.noteResume (h : ConsumerInv rec c) (cursor : ℕ) : ConsumerInv rec (c.noteResume cursor) :=
  ⟨h.reads.of_client ⟨rfl, rfl, rfl, rfl, rfl, rfl, rfl⟩,
    ⟨h.delivers.queue_eq, h.delivers.head_le, h.delivers.closed_iff, h.delivers.parked, h.delivers.completed,
      h.delivers.drained, h.delivers.saw⟩, h.attached_le, h.saw_eq⟩

theorem consumerInv_attach (rec : RunRecording) (cursor : ℕ) : ConsumerInv rec (Consumer.attach rec cursor) :=
  ⟨reads_attach rec cursor, delivers_attach rec cursor, Nat.le_refl _, fun _ => rfl⟩

theorem spanInv_init (runId : RunId) : SpanInv (init runId) :=
  ⟨capped_nil, fun _ h => absurd h List.not_mem_nil⟩

/-- **One action keeps the invariant.** -/
theorem SpanInv.step {s s' : SpanState} {a : SpanAction} (h : SpanInv s) (hs : s.step a = some s') :
    SpanInv s' := by
  rcases step_cases hs with ⟨hg, hc⟩ | ⟨j, c, c', hj, ht, -, hl, hc⟩ | ⟨cursor, -, hl, hc⟩ | rfl
  · refine ⟨hg.capped h.capped, fun c hm => ?_⟩
    rw [hc] at hm
    obtain ⟨c₀, hm₀, rfl⟩ := List.mem_map.mp hm
    exact (h.consumers c₀ hm₀).wake hg
  · refine ⟨hl.events ▸ h.capped, fun c₁ hm => ?_⟩
    rw [hc] at hm
    rcases List.mem_or_eq_of_mem_set hm with hm | rfl
    · exact (h.consumers c₁ hm).of_sameLog hl
    · exact ((h.consumers c (List.mem_of_getElem? hj)).turn ht).of_sameLog hl
  · refine ⟨hl.events ▸ h.capped, fun c₁ hm => ?_⟩
    rw [hc, List.mem_append, List.mem_singleton] at hm
    rcases hm with hm | rfl
    · obtain ⟨c₀, hm₀, rfl⟩ := List.mem_map.mp hm
      exact ((h.consumers c₀ hm₀).noteResume cursor).of_sameLog hl
    · exact (consumerInv_attach s.recording cursor).of_sameLog hl
  · exact h

end Invariant

/-! ### Spans and chains -/

section Exact

open SpanState

/-- What holds of a span in a reached state. -/
structure SpanExact (rec : RunRecording) (c : Consumer) : Prop where
  /-- while the pump is in its loop, what it pushed is the fold over the events it read -/
  fold : c.pump ≠ .done → ∀ slots, withoutUsage c.pushed =
    withoutUsage (pump slots c.start (c.slice rec.events) (.new rec.runId true c.saw)).2
  /-- a pump that is done pushed the whole span -/
  whole : c.pump = .done → ∀ slots, withoutUsage c.pushed =
    withoutUsage (driveSpan rec.runId true c.saw slots rec.events rec.failure c.start)
  /-- the mapper was told what the log before the cursor says -/
  saw : c.start ≤ c.attachedAt → c.saw = sawTextBefore rec.events c.start
  /-- the queue keeps what the client has not received yet, in order -/
  queue : c.delivered ++ c.queue.pending = c.pushed
  completed : c.completed = true → c.pump = .done ∧ c.delivered = c.pushed
  /-- a waiting pump has read the log and the run goes on -/
  pumpParked : c.pump = .waiting → rec.events.length ≤ c.cursor ∧ rec.settled = false
  /-- a waiting client has received everything pushed and more may come -/
  clientParked : c.drain = .waiting → c.delivered = c.pushed ∧ c.pump ≠ .done
  /-- a call id names its run and the completed tool step it was minted for, the last event read -/
  calls : ∀ id ∈ toolCallIds c.pushed, ∃ i ev, parseMirrorCallId id = some (rec.runId.val, i) ∧
    rec.events[i]? = some ev ∧ ev.isToolDone = true ∧ c.start ≤ i ∧ c.cursor = i + 1

variable {rec : RunRecording} {c : Consumer}

/-- The tool step a consumer was cut on. -/
theorem Reads.call (h : Reads rec c) (hcap : Capped rec.events) {id : JsString}
    (hid : id ∈ toolCallIds c.pushed) : ∃ i ev, parseMirrorCallId id = some (rec.runId.val, i) ∧
      rec.events[i]? = some ev ∧ ev.isToolDone = true ∧ c.start ≤ i ∧ c.cursor = i + 1 := by
  rw [h.calls] at hid
  split_ifs at hid with hcut
  · obtain rfl := List.mem_singleton.mp hid
    obtain ⟨hlt, -, ev, hev, ht⟩ := h.cut hcut
    have hres : ev.isResult = false := by
      cases ev with
      | result r => cases ht
      | _ => rfl
    have hi := hcap _ ev hev hres
    have hbig : c.cursor - 1 < 2 ^ 53 := hi.trans (by decide)
    exact ⟨_, ev, parse_mirrorCallId rec.runId hbig, hev, ht, by omega, by omega⟩
  · cases hid

/-- A pump that stopped has read all that counts. -/
theorem Reads.whole (h : Reads rec c) (hd : c.pump = .done) (slots : ℕ → Option RawUsage) :
    withoutUsage c.pushed =
      withoutUsage (driveSpan rec.runId true c.saw slots rec.events rec.failure c.start) := by
  have hdrop : rec.events.drop c.start =
      c.slice rec.events ++ (rec.events.drop c.start).drop (c.cursor - c.start) :=
    (List.take_append_drop _ _).symm
  have hall : AgyProxy.pump (fun _ => none) c.start (rec.events.drop c.start) (.new rec.runId true c.saw) =
      c.fold rec := by
    rcases h.stopped (.inr hd) with hf | ⟨-, hlen⟩
    · have hf' : (AgyProxy.pump (fun _ => none) c.start (c.slice rec.events)
          (.new rec.runId true c.saw)).1.finished = true := hf
      rw [hdrop, pump_append, Emit.seq, pump_of_finished _ hf', List.append_nil]
      rfl
    · rw [hdrop, List.drop_drop, List.drop_eq_nil_of_le (by have := h.start_le; omega), List.append_nil]
      rfl
  obtain ⟨h1, h2⟩ := pump_slots slots (fun _ => none) (rec.events.drop c.start) c.start (.new rec.runId true c.saw)
  rw [h.done_eq hd, driveSpan, Emit.seq_snd, withoutUsage_append, h1, h2, hall]
  show withoutUsage ((c.fold rec).2 ++ _) = _
  rw [withoutUsage_append]
  rfl

theorem ConsumerInv.exact (h : ConsumerInv rec c) (hcap : Capped rec.events) : SpanExact rec c where
  fold hp slots := by
    rw [h.reads.pushed_eq hp]
    exact (pump_slots _ slots _ _ _).2
  whole hd slots := h.reads.whole hd slots
  saw := h.saw_eq
  queue := h.delivers.queue_eq
  completed hc := by
    obtain ⟨h1, h2⟩ := h.delivers.completed hc
    refine ⟨h.delivers.closed_iff.mp h1, ?_⟩
    rw [← h.delivers.queue_eq, h2, List.append_nil]
  pumpParked := h.reads.caughtUp
  clientParked hd := by
    obtain ⟨h1, h2⟩ := h.delivers.parked hd
    refine ⟨by rw [← h.delivers.queue_eq, h1, List.append_nil], fun hp => ?_⟩
    rw [h.delivers.closed_iff.mpr hp] at h2
    cases h2
  calls _ hid := h.reads.call hcap hid

/-- Spans of which each next one was attached behind the tool step its predecessor's call id names. -/
def IsChain (rec : RunRecording) : ℕ → List Consumer → Prop
  | _, [] => True
  | n, [c] => c.start = n
  | n, c :: d :: cs => c.start = n ∧ ∃ id ∈ toolCallIds c.pushed, ∃ i,
      parseMirrorCallId id = some (rec.runId.val, i) ∧ IsChain rec (i + 1) (d :: cs)

end Exact

end AgyProxy
