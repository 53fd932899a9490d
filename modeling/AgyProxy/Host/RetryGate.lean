import AgyProxy.Host.DispatchSpec
import AgyProxy.Host.LateOutput
import AgyProxy.Host.RecordingSpec
import AgyProxy.Host.Transcript

/-!
# AgyProxy.Host.RetryGate — what a client has been sent when another attempt begins

* `AgyEvent.silent`: an event no mapper makes a chunk of; `unseenAt_iff`: it is the only kind no client sees.
* `Gated`: what the retry gate has checked of the log, from the gate to the next attempt (`gated_step`).
* `Round`: what one action does to the log and to the count of the attempts.
* `retry_unseen_iff`: the gate reads the last result only, and the log as it is then; so nothing of an earlier attempt
  is seen exactly when the results before the last are passive as well and what comes behind the exit is silent.
-/

namespace AgyProxy

open Js Lib

/-! ### Events that map to no chunk -/

/-- `!ok` with an empty response: the mapper returns without a chunk. -/
def ResultEvent.passive (r : ResultEvent) : Bool := !r.consumable

/-- The result envelopes of a log, in order. -/
def resultEvents (events : List AgyEvent) : List ResultEvent :=
  events.filterMap fun | .result r => some r | _ => none

/-- Steps without a chunk: an empty snapshot of text, a tool that is not completed, and the kinds no client sees. -/
def StepEvent.silent (s : StepEvent) : Bool :=
  match s.stepKind with
  | .text => s.text.isEmpty && !s.fragment
  | .thinking | .subagent => false
  | .tool => s.tool.all fun tool => !tool.completed
  | .title | .userInput | .unknown => true

/-- Neither a step with a chunk nor a result to finish on. -/
def AgyEvent.silent : AgyEvent → Bool
  | .init _ | .garbage _ => true
  | .step s => s.silent
  | .result r => r.passive

section Map

variable {slot : Option RawUsage} {m : EventMapper}

theorem mapResult_passive {r : ResultEvent} (h : r.passive = true) (slot : Option RawUsage) (m : EventMapper) :
    EventMapper.mapResult slot r m = (m, []) := by
  obtain ⟨hok, hresp⟩ : r.ok = false ∧ r.response = [] := by
    simpa [ResultEvent.passive, ResultEvent.consumable] using h
  unfold EventMapper.mapResult
  rw [if_neg (by simp [hok]), if_pos hresp]
  rfl

/-- Any other result finishes the span. -/
theorem mapResult_loud {r : ResultEvent} (h : r.passive = false) (slot : Option RawUsage) (m : EventMapper) :
    (EventMapper.mapResult slot r m).2 ≠ [] := by
  unfold EventMapper.mapResult
  by_cases hok : r.ok = true
  · rw [if_pos hok]
    intro hnil
    simp [EventMapper.finishResult, EventMapper.finishWith] at hnil
  · have hresp : r.response ≠ [] := by
      simpa [ResultEvent.passive, ResultEvent.consumable, hok] using h
    rw [if_neg hok, if_neg hresp]
    intro hnil
    simp [EventMapper.finishResult, EventMapper.finishWith] at hnil

theorem mapStep_silent {s : StepEvent} (h : s.silent = true) (i : ℕ) (m : EventMapper) :
    EventMapper.mapStep s i m = (m, []) := by
  unfold StepEvent.silent at h
  unfold EventMapper.mapStep
  cases hkind : s.stepKind with
  | text =>
    rw [hkind] at h
    have hempty : s.text = [] ∧ s.fragment = false := by simpa using h
    exact congrFun (if_pos hempty) m
  | thinking | subagent =>
    rw [hkind] at h
    exact absurd h Bool.false_ne_true
  | tool =>
    rw [hkind] at h
    cases htool : s.tool with
    | none => rfl
    | some tool =>
      rw [htool, Option.all_some] at h
      exact if_pos h
  | title | userInput | unknown => rfl

/-- Opening a block is a chunk. -/
theorem ensureBlock_loud (type : ProseType) (hm : m.openType = none) : (EventMapper.ensureBlock type m).2 ≠ [] := by
  unfold EventMapper.ensureBlock
  rw [if_neg (by simp [hm]), Emit.seq_snd]
  exact List.append_ne_nil_of_right_ne_nil _ (List.cons_ne_nil _ _)

/-- A cutting mapper that has opened and announced nothing sends a chunk for any other step. -/
theorem mapStep_loud {s : StepEvent} (h : s.silent = false) (i : ℕ) (hopen : m.openType = none)
    (hannounced : m.announcedTools = []) (hcut : m.cutOnTool = true) : (EventMapper.mapStep s i m).2 ≠ [] := by
  unfold StepEvent.silent at h
  unfold EventMapper.mapStep
  cases hkind : s.stepKind with
  | text =>
    rw [hkind] at h
    have hsome : ¬(s.text = [] ∧ s.fragment = false) := by
      intro hempty
      simp [hempty.1, hempty.2] at h
    dsimp only
    unfold EventMapper.mapText
    rw [if_neg hsome, Emit.seq_snd, Emit.seq_snd]
    refine List.append_ne_nil_of_right_ne_nil _ (List.append_ne_nil_of_left_ne_nil (ensureBlock_loud .text ?_) _)
    exact hopen
  | thinking | subagent => exact List.append_ne_nil_of_left_ne_nil (ensureBlock_loud .reasoning hopen) _
  | tool =>
    rw [hkind] at h
    cases htool : s.tool with
    | none =>
      rw [htool] at h
      exact absurd h Bool.noConfusion
    | some tool =>
      rw [htool, Option.all_some] at h
      have hdone : ¬(!tool.completed) = true := by simp [h]
      dsimp only
      unfold EventMapper.mapTool
      rw [if_neg hdone, if_neg (by simp [hannounced]), if_neg (by simp [hcut]), Emit.seq_snd]
      refine List.append_ne_nil_of_right_ne_nil _ ?_
      unfold EventMapper.cutSpan
      rw [Emit.seq_snd, Emit.seq_snd]
      exact List.append_ne_nil_of_right_ne_nil _ (List.append_ne_nil_of_left_ne_nil (List.cons_ne_nil _ _) _)
  | title | userInput | unknown =>
    rw [hkind] at h
    exact absurd h Bool.noConfusion

/-- A silent event leaves every mapper as it was. -/
theorem map_silent {ev : AgyEvent} (h : ev.silent = true) (slot : Option RawUsage) (i : ℕ) (m : EventMapper) :
    m.map slot ev i = (m, []) := by
  unfold EventMapper.map
  split
  · rfl
  · cases ev with
    | init _ | garbage _ => rfl
    | step s => exact mapStep_silent h i m
    | result r => exact mapResult_passive h slot m

/-- Any other event is a chunk for a client that begins there. -/
theorem map_loud {ev : AgyEvent} (h : ev.silent = false) (slot : Option RawUsage) (i : ℕ) (runId : RunId) (saw : Bool) :
    ((EventMapper.new runId true saw).map slot ev i).2 ≠ [] := by
  unfold EventMapper.map
  rw [if_neg (show ¬(EventMapper.new runId true saw).finished = true from Bool.false_ne_true)]
  cases ev with
  | init _ | garbage _ => exact absurd h Bool.noConfusion
  | step s => exact mapStep_loud h i rfl rfl rfl
  | result r => exact mapResult_loud h slot _

end Map

/-- The event at `i` maps to no chunk for any client, whichever event it reads from and whatever the usage slot
holds. -/
def RunRecording.UnseenAt (rec : RunRecording) (i : ℕ) : Prop :=
  ∀ ev ∈ rec.events[i]?, ∀ (cutOnTool : Bool) (slots : ℕ → Option RawUsage) (cursor : ℕ), cursor ≤ i →
    let m := (pump slots cursor ((rec.events.take i).drop cursor)
      (EventMapper.new rec.runId cutOnTool (sawTextBefore rec.events cursor))).1
    (m.map (slots i) ev i).2 = []

theorem unseenAt_iff {rec : RunRecording} {i : ℕ} : rec.UnseenAt i ↔ ∀ ev ∈ rec.events[i]?, ev.silent = true := by
  constructor
  · intro h ev hev
    by_contra hloud
    have hnil := h ev hev true (fun _ => none) i le_rfl
    rw [List.drop_eq_nil_of_le (List.length_take_le i rec.events)] at hnil
    exact map_loud (Bool.eq_false_iff.mpr hloud) none i rec.runId _ hnil
  · intro h ev hev cutOnTool slots cursor _
    exact congrArg Prod.snd (map_silent (h ev hev) (slots i) i _)

/-! ### The gate -/

/-- What the retry gate asks of the log: no step, and a last result, if any, that is passive. -/
structure Passes (events : List AgyEvent) : Prop where
  noSteps : events.any AgyEvent.isStep = false
  last : ∀ r, lastResult? events = some r → r.passive = true

/-- The results before the last one are passive. -/
def EarlierPassive (events : List AgyEvent) : Prop := ∀ r ∈ (resultEvents events).dropLast, r.passive = true

theorem silent_iff_passive {events : List AgyEvent} (hsteps : events.any AgyEvent.isStep = false) :
    (∀ ev ∈ events, ev.silent = true) ↔ ∀ r ∈ resultEvents events, r.passive = true := by
  constructor
  · intro h r hr
    obtain ⟨ev, hev, heq⟩ := List.mem_filterMap.mp hr
    cases ev with
    | result r' =>
      obtain rfl : r' = r := Option.some.inj heq
      exact h _ hev
    | _ => cases heq
  · intro h ev hev
    cases ev with
    | result r => exact h r (List.mem_filterMap.mpr ⟨_, hev, rfl⟩)
    | step s =>
      have hno := (List.any_eq_false.mp hsteps) _ hev
      exact absurd rfl hno
    | init _ => rfl
    | garbage _ => rfl

/-- A log that passed the gate is silent exactly when its earlier results are passive. -/
theorem Passes.silent_iff {events : List AgyEvent} (h : Passes events) :
    (∀ ev ∈ events, ev.silent = true) ↔ EarlierPassive events := by
  rw [silent_iff_passive h.noSteps]
  unfold EarlierPassive
  cases hlast : (resultEvents events).getLast? with
  | none =>
    rw [List.getLast?_eq_none_iff.mp hlast]
    exact Iff.rfl
  | some r =>
    have hsplit : (resultEvents events).dropLast ++ [r] = resultEvents events := List.dropLast_append_getLast? r hlast
    refine ⟨fun hall r hr => hall r ((List.dropLast_sublist _).subset hr), fun hall r' hr' => ?_⟩
    rw [← hsplit] at hr'
    rcases List.mem_append.mp hr' with hr' | hr'
    · exact hall r' hr'
    · rw [List.mem_singleton.mp hr']
      exact h.last r hlast

namespace Dispatch

/-- From the start of an attempt to its process, and from the gate to the next start, the log is one the
gate lets pass. -/
def Gated (s : Dispatch) : Prop :=
  match s.phase with
  | .queued | .spacing | .delaying _ => Passes s.recording.events
  | .live _ | .done => True

theorem init_gated (call : DispatchCall) (runId : RunId) : (init call runId).Gated :=
  ⟨rfl, fun _ h => by cases h⟩

section Step

variable {stack : ℕ} {s s' : Dispatch}

/-- The gate checks the log, as far as the attempt read its own result off it. -/
theorem conclude_gated {r : AttemptResult}
    (hr : Passes s.recording.events ∨ r.resultEvent = s.recording.getResultEvent) : (s.conclude r).Gated := by
  unfold conclude
  split
  · trivial
  · rename_i hfinal
    have hretry : s.canRetry r = true := by
      by_contra hno
      exact hfinal (by simp [isFinal, hno])
    show Passes s.recording.events
    rcases hr with hpass | hread
    · exact hpass
    · unfold canRetry at hretry
      simp only [Bool.and_eq_true, Bool.not_eq_true'] at hretry
      refine ⟨hretry.2, fun e he => ?_⟩
      have hshape := hretry.1.2
      rw [hread, RunRecording.getResultEvent, he] at hshape
      simpa [ResultEvent.passive, ResultEvent.consumable] using hshape

/-- The result of an attempt with a process is read off its log. -/
theorem conclude_resultEvent {env : AttemptEnv} {rec recording : RunRecording} {l : LiveAttempt}
    {x : ProcessExit} {r : AttemptResult} (h : l.conclude stack env rec x = .ok (recording, r)) :
    r.resultEvent = recording.getResultEvent := by
  unfold LiveAttempt.conclude at h
  split at h
  · cases h
  · obtain ⟨rfl, rfl⟩ := Prod.mk.inj (Except.ok.inj h)
    rfl

theorem startTask_gated (hs : Passes s.recording.events) {turn : TaskTurn} (h : s.startTask turn = some s') :
    s'.Gated := by
  cases turn with
  | spaced =>
    simp only [startTask] at h
    split at h
    · obtain rfl := Option.some.inj h
      exact hs
    · cases h
  | spawned =>
    obtain rfl := Option.some.inj h
    trivial
  | spawnThrew msg =>
    obtain rfl := Option.some.inj h
    exact conclude_gated (Or.inl hs)

theorem abortProcess_gated (hs : s.Gated) (steered : Bool) (reason : Option JsString) :
    Gated { s.abortProcess with steerAborted := steered, reason } := by
  unfold abortProcess
  cases s.phase with
  | live l => trivial
  | _ => exact hs

theorem nextRound_gated (hs : Passes s.recording.events) : s.nextRound.Gated := by
  unfold nextRound
  cases s.recording.settled with
  | true => trivial
  | false => exact hs

theorem retry_gated {last : AttemptResult} (hs : Passes s.recording.events) (sel : Reselection) :
    (s.retry last sel).Gated := by
  unfold retry
  split
  · trivial
  · cases sel with
    | noneFound => trivial
    | noAccounts => exact nextRound_gated hs
    | found id => exact nextRound_gated hs

theorem runTask_gated (hs : Passes s.recording.events) {turn : TaskTurn} (h : s.runTask turn = some s') : s'.Gated := by
  unfold runTask at h
  split_ifs at h with hsup
  · obtain rfl := Option.some.inj h
    exact conclude_gated (Or.inl hs)
  · exact startTask_gated hs h

/-- **Step lemma**: every action keeps the gate's account of the log. -/
theorem gated_step {a : DispatchAction} (hs : s.Gated) (h : s.step stack a = some s') : s'.Gated := by
  cases step_fires h with
  | steer => exact abortProcess_gated hs true _
  | abortSignal => exact abortProcess_gated hs _ (some _)
  | taskTurn hp h =>
    unfold Gated at hs
    rcases hp with hp | hp
    · rw [hp] at hs
      exact runTask_gated hs h
    · rw [hp] at hs
      exact runTask_gated hs h
  | stdout | stderr | watchdog => trivial
  | @exit l x hp =>
    unfold onExit
    cases hc : l.conclude stack s.env s.recording x with
    | error e => trivial
    | ok p => exact conclude_gated (Or.inr (conclude_resultEvent hc))
  | delayEnds hp =>
    unfold Gated at hs
    rw [hp] at hs
    exact retry_gated hs _

/-- What one action does to the log, which only grows, and to the count of the attempts, which the gate raises once. -/
structure Round (s s' : Dispatch) : Prop where
  log : s.recording.events <+: s'.recording.events
  count : s'.attempt = s.attempt ∧ (∀ last, s'.phase = .delaying last → s.phase = .delaying last) ∨
    s.attempt = 0 ∧ s'.attempt = 1 ∧ ∃ last, s'.phase = .delaying last

theorem events_append (rec : RunRecording) (ev : AgyEvent) : rec.events <+: (rec.append ev).events := by
  cases hs : rec.settled with
  | true =>
    have hsame : rec.append ev = rec := if_pos hs
    exact ⟨[], by rw [hsame, List.append_nil]⟩
  | false =>
    rw [RunRecording.append_events hs]
    exact List.prefix_append _ _

theorem events_foldl : ∀ (evs : List AgyEvent) (rec : RunRecording),
    rec.events <+: (evs.foldl RunRecording.append rec).events
  | [], _ => List.prefix_refl _
  | ev :: evs, rec => (events_append rec ev).trans (events_foldl evs (rec.append ev))

theorem events_settle (rec : RunRecording) (failure : Option RecordingFailure) :
    (rec.settle failure).events = rec.events := by
  unfold RunRecording.settle
  split <;> rfl

/-- The loop's body after `runOnce` settles the run or goes into its one backoff. -/
theorem conclude_round (s : Dispatch) (r : AttemptResult) : Round s (s.conclude r) ∧
    ((s.conclude r).phase = .done ∨ (s.conclude r).attempt = s.attempt + 1) := by
  unfold conclude
  split
  · refine ⟨⟨?_, Or.inl ⟨rfl, fun _ h => by cases h⟩⟩, Or.inl rfl⟩
    exact ⟨[], (List.append_nil _).trans (events_settle s.recording r.failure).symm⟩
  · rename_i hfinal
    have hfirst : s.attempt = 0 := by
      by_contra hlater
      have hmax : maxRetries ≤ s.attempt := Nat.one_le_iff_ne_zero.mpr hlater
      exact hfinal (by simp [isFinal, hmax])
    exact ⟨⟨List.prefix_refl _, Or.inr ⟨hfirst, congrArg (· + 1) hfirst, r, rfl⟩⟩, Or.inr rfl⟩

/-- Only what is no backoff changes, and not the log. -/
theorem Round.of_same (hlog : s'.recording.events = s.recording.events) (hcount : s'.attempt = s.attempt)
    (hphase : ∀ last, s'.phase = .delaying last → s.phase = .delaying last) : Round s s' :=
  ⟨hlog ▸ List.prefix_refl _, Or.inl ⟨hcount, hphase⟩⟩

theorem abortProcess_round (s : Dispatch) (steered : Bool) (reason : Option JsString) :
    Round s { s.abortProcess with steerAborted := steered, reason } := by
  unfold abortProcess
  cases hp : s.phase with
  | live l => exact .of_same rfl rfl fun _ h => by cases h
  | _ => exact .of_same rfl rfl fun _ h => h

theorem runTask_round {turn : TaskTurn} (h : s.runTask turn = some s') : Round s s' := by
  unfold runTask at h
  split_ifs at h with hsup
  · obtain rfl := Option.some.inj h
    exact (conclude_round s _).1
  · cases turn with
    | spaced =>
      simp only [startTask] at h
      split at h
      · obtain rfl := Option.some.inj h
        exact .of_same rfl rfl fun _ h => by cases h
      · cases h
    | spawned =>
      obtain rfl := Option.some.inj h
      exact .of_same rfl rfl fun _ h => by cases h
    | spawnThrew msg =>
      obtain rfl := Option.some.inj h
      exact (conclude_round s _).1

theorem nextRound_round (s : Dispatch) : Round s s.nextRound := by
  refine .of_same rfl rfl fun _ h => ?_
  change (if s.recording.settled then Phase.done else .queued) = _ at h
  split_ifs at h

theorem retry_round (s : Dispatch) (last : AttemptResult) (sel : Reselection) : Round s (s.retry last sel) := by
  unfold retry
  split
  · exact .of_same (events_settle _ _) rfl fun _ h => by cases h
  · cases sel with
    | noneFound => exact .of_same (events_settle _ _) rfl fun _ h => by cases h
    | noAccounts => exact nextRound_round s
    | found id =>
      obtain ⟨hlog, hcount⟩ := nextRound_round { s with attemptAccount := some id }
      exact ⟨hlog, hcount⟩

theorem onStdout_round {l : LiveAttempt} (chunk : JsString) : Round s (s.onStdout stack l chunk) := by
  refine ⟨?_, Or.inl ⟨rfl, fun _ h => by cases h⟩⟩
  show s.recording.events <+: (l.onChunk stack s.recording chunk).1.events
  unfold LiveAttempt.onChunk
  split
  · exact events_foldl _ _
  · exact List.prefix_refl _

/-- An exit settles the run or goes into the backoff. -/
theorem onExit_round (s : Dispatch) (l : LiveAttempt) (x : ProcessExit) : Round s (s.onExit stack l x) ∧
    ((s.onExit stack l x).phase = .done ∨ (s.onExit stack l x).attempt = s.attempt + 1) := by
  unfold onExit
  cases hc : l.conclude stack s.env s.recording x with
  | error e =>
    refine ⟨.of_same (events_settle _ _) rfl fun _ h => ?_, Or.inl rfl⟩
    cases h
  | ok p =>
    obtain ⟨recording, r⟩ := p
    obtain ⟨⟨hlog, hcount⟩, hends⟩ := conclude_round { s with recording } r
    refine ⟨⟨List.IsPrefix.trans ?_ hlog, ?_⟩, hends⟩
    · unfold LiveAttempt.conclude at hc
      split at hc
      · cases hc
      · obtain ⟨rfl, -⟩ := Prod.mk.inj (Except.ok.inj hc)
        exact events_foldl _ _
    · rcases hcount with ⟨hsame, hphase⟩ | hraised
      · exact Or.inl ⟨hsame, hphase⟩
      · exact Or.inr hraised

theorem step_round {a : DispatchAction} (h : s.step stack a = some s') : Round s s' := by
  cases step_fires h with
  | steer => exact abortProcess_round s true _
  | abortSignal => exact abortProcess_round s _ (some _)
  | taskTurn _ h => exact runTask_round h
  | stdout => exact onStdout_round _
  | stderr | watchdog => exact .of_same rfl rfl fun _ h => by cases h
  | exit => exact (onExit_round s _ _).1
  | delayEnds => exact retry_round s _ _

end Step

end Dispatch

/-! ### Runs, with the output from behind the exits -/

namespace PipedDispatch

/-- What an earlier attempt has recorded, before the gate or behind its exit, no client sees. -/
def EarlierUnseen (s : PipedDispatch) : Prop := ∀ i, i < s.gate ∨ i ∈ s.late → s.dispatch.recording.UnseenAt i

/-- What an earlier attempt delivered behind its exit maps to no chunk. -/
def LateSilent (s : PipedDispatch) : Prop := ∀ i ∈ s.late, ∀ ev ∈ s.events[i]?, ev.silent = true

/-- In the first attempt nothing has come from behind an exit; after it the gate's account holds of the log up to
the gate. -/
structure Inv (s : PipedDispatch) : Prop where
  first : s.dispatch.attempt = 0 → s.retried = false ∧ (s.dispatch.phase = .done ∨ s.pipes = [] ∧ s.dispatch.Gated)
  between : ∀ last, s.dispatch.phase = .delaying last → s.dispatch.attempt ≠ 0
  later : s.dispatch.attempt ≠ 0 → s.gate ≤ s.events.length ∧ Passes (s.events.take s.gate)

variable {stack : ℕ} {s s' : PipedDispatch} {call : DispatchCall} {runId : RunId}

theorem init_inv (call : DispatchCall) (runId : RunId) : (init call runId).Inv :=
  ⟨fun _ => ⟨rfl, Or.inr ⟨rfl, Dispatch.init_gated call runId⟩⟩, fun _ h => (nomatch h), fun h => absurd rfl h⟩

/-- A log that grows keeps what the gate has seen. -/
theorem Inv.grow (hs : s.Inv) (hlater : s.dispatch.attempt ≠ 0) {events : List AgyEvent} (hlog : s.events <+: events) :
    s.gate ≤ events.length ∧ Passes (events.take s.gate) := by
  obtain ⟨hgate, hpasses⟩ := hs.later hlater
  obtain ⟨more, rfl⟩ := hlog
  rw [List.length_append, List.take_append_of_le_length hgate]
  exact ⟨by omega, hpasses⟩

/-- Still the first attempt: it goes on without an exit, or is settled. -/
theorem Inv.first_advance (hs : s.Inv) {a : DispatchAction} {next : Dispatch}
    (h : s.dispatch.step stack a = some next) (hzero : next.attempt = 0) :
    (s.advance stack a next).retried = false ∧
      (next.phase = .done ∨ (s.advance stack a next).pipes = [] ∧ next.Gated) := by
  have hfirst : s.dispatch.attempt = 0 := by
    rcases (Dispatch.step_round h).count with ⟨hsame, -⟩ | ⟨hfirst, -⟩
    · exact hsame.symm.trans hzero
    · exact hfirst
  obtain ⟨hretried, hstands⟩ := hs.first hfirst
  constructor
  · unfold PipedDispatch.advance
    dsimp only
    rw [hretried, Bool.false_or]
    cases hp : s.dispatch.phase with
    | delaying last => exact absurd hfirst (hs.between last hp)
    | _ => rfl
  · rcases hstands with hdone | ⟨hpipes, hgated⟩
    · exact Or.inl (Dispatch.done_step hdone h).2.1
    · by_cases hexit : ∃ x, a = .exit x
      · obtain ⟨x, rfl⟩ := hexit
        left
        cases Dispatch.step_fires h with
        | exit hp =>
          refine (Dispatch.onExit_round s.dispatch _ x).2.resolve_right fun hraised => ?_
          omega
      · refine Or.inr ⟨?_, Dispatch.gated_step hgated h⟩
        show s.pipes ++ ((s.dispatch.exitParser? stack a).map (LatePipe.mk s.dispatch.attempt)).toList = []
        rw [hpipes]
        cases a with
        | exit x => exact absurd ⟨x, rfl⟩ hexit
        | _ => rfl

/-- Behind the gate the log grows; at the gate it is the whole log. -/
theorem Inv.later_advance (hs : s.Inv) {a : DispatchAction} {next : Dispatch}
    (h : s.dispatch.step stack a = some next) (hlater : next.attempt ≠ 0) :
    (s.advance stack a next).gate ≤ next.recording.events.length ∧
      Passes (next.recording.events.take (s.advance stack a next).gate) := by
  obtain ⟨hlog, hcount⟩ := Dispatch.step_round h
  unfold PipedDispatch.advance
  dsimp only
  rcases hcount with ⟨hsame, -⟩ | ⟨hzero, hone, last, hlast⟩
  · rw [if_neg (by omega)]
    exact hs.grow (hsame ▸ hlater) hlog
  · rw [if_pos (by omega), List.take_length]
    refine ⟨le_rfl, ?_⟩
    rcases (hs.first hzero).2 with hdone | ⟨-, hgated⟩
    · have hstill := (Dispatch.done_step hdone h).2.1
      rw [hlast] at hstill
      cases hstill
    · have hnext := Dispatch.gated_step hgated h
      unfold Dispatch.Gated at hnext
      rwa [hlast] at hnext

theorem Inv.advance (hs : s.Inv) {a : DispatchAction} {next : Dispatch} (h : s.dispatch.step stack a = some next) :
    (s.advance stack a next).Inv := by
  refine ⟨hs.first_advance h, fun last hlast => ?_, hs.later_advance h⟩
  change next.phase = .delaying last at hlast
  show next.attempt ≠ 0
  rcases (Dispatch.step_round h).count with ⟨hsame, hphase⟩ | ⟨-, hone, -⟩
  · exact hsame ▸ hs.between last (hphase last hlast)
  · omega

theorem Inv.onLateStdout (hs : s.Inv) {i : ℕ} {pipe : LatePipe} (hpipe : s.pipes[i]? = some pipe)
    (chunk : JsString) : (s.onLateStdout stack i pipe chunk).Inv := by
  have hlog : s.events <+: (onLateChunk stack s.dispatch.recording pipe.parser chunk).1.events := by
    unfold onLateChunk
    split
    · exact Dispatch.events_foldl _ _
    · exact List.prefix_refl _
  refine ⟨fun hzero => ?_, hs.between, fun hlater => hs.grow hlater hlog⟩
  obtain ⟨hretried, hdone | ⟨hpipes, -⟩⟩ := hs.first hzero
  · exact ⟨hretried, Or.inl hdone⟩
  · rw [hpipes] at hpipe
    cases hpipe

/-- **Step lemma**. -/
theorem Inv.step (hs : s.Inv) {a : PipedAction} (h : s.step stack a = some s') : s'.Inv := by
  cases a with
  | act a =>
    obtain ⟨next, hnext, rfl⟩ := Option.map_eq_some_iff.mp h
    exact hs.advance hnext
  | lateStdout i chunk =>
    obtain ⟨pipe, hpipe, rfl⟩ := Option.map_eq_some_iff.mp h
    exact hs.onLateStdout hpipe chunk

theorem run_inv {as : List PipedAction} (h : exec (step stack) (init call runId) as = some s) : s.Inv :=
  exec_invariant' (fun _ _ _ hs hstep => hs.step hstep) as _ s (init_inv call runId) h

/-- No client sees the events of the earlier attempts exactly when each of them is silent. -/
theorem earlierUnseen_iff : s.EarlierUnseen ↔ (∀ ev ∈ s.events.take s.gate, ev.silent = true) ∧ s.LateSilent := by
  unfold EarlierUnseen LateSilent
  constructor
  · intro h
    refine ⟨fun ev hev => ?_, fun i hi => unseenAt_iff.mp (h i (Or.inr hi))⟩
    obtain ⟨i, hlt, hi⟩ := List.mem_take_iff_getElem.mp hev
    exact unseenAt_iff.mp (h i (Or.inl (lt_of_lt_of_le hlt (min_le_left _ _)))) ev
      (List.getElem?_eq_some_iff.mpr ⟨lt_of_lt_of_le hlt (min_le_right _ _), hi⟩)
  · rintro ⟨hgate, hlate⟩ i (hlt | hi)
    · refine unseenAt_iff.mpr fun ev hev => hgate ev ?_
      obtain ⟨hlen, hi⟩ := List.getElem?_eq_some_iff.mp hev
      exact List.mem_take_iff_getElem.mpr ⟨i, lt_min hlt hlen, hi⟩
    · exact unseenAt_iff.mpr (hlate i hi)

/-- **Whenever another attempt has begun, no client has seen or will see anything of the earlier one exactly when its
results before the last were passive at the gate and what comes from behind its exit is silent**; the gate itself sees
to the last result and to the steps. -/
theorem retry_unseen_iff {as : List PipedAction} (h : exec (step stack) (init call runId) as = some s)
    (hretried : s.retried = true) : s.EarlierUnseen ↔ EarlierPassive (s.events.take s.gate) ∧ s.LateSilent := by
  have hinv := run_inv h
  have hlater : s.dispatch.attempt ≠ 0 := by
    intro hzero
    rw [(hinv.first hzero).1] at hretried
    exact absurd hretried Bool.false_ne_true
  rw [earlierUnseen_iff, (hinv.later hlater).2.silent_iff]

/-- A crash with an error and no answer, a last word from its pipe, and the loop round again, to an answer whose end
comes behind the exit as well. -/
def crashRun : List PipedAction :=
  [.act (.taskTurn .spawned), .act (.stdout (js "\x7b\"event\":\"result\",\"error\":\"boom\"\x7d\n")),
    .act (.exit ⟨some 1, none, 900, none⟩), .lateStdout 0 (js "terminated\n"), .act (.delayEnds .noAccounts),
    .act (.taskTurn .spawned), .act (.stdout (js "\x7b\"step_type\":\"text\",\"text\":\"hi\"\x7d\n")),
    .act (.exit ⟨some 0, none, 900, none⟩),
    .lateStdout 1 (js "\x7b\"step_type\":\"text\",\"text\":\"hi there\"\x7d\n")]

theorem retry_unseen_crash : ∃ s, exec (step 10000) (init promptCall dispatchRunId) crashRun = some s ∧
    s.gate = 1 ∧ s.late = [1] ∧ s.EarlierUnseen := by
  obtain ⟨s, hs, hends⟩ := Option.map_eq_some_iff.mp
    (show (exec (step 10000) (init promptCall dispatchRunId) crashRun).map
      (fun s => (s.retried, s.gate, s.late, (resultEvents (s.events.take s.gate)).dropLast.length,
        s.late.all fun i => s.events[i]?.all AgyEvent.silent)) = some (true, 1, [1], 0, true) by decide +kernel)
  simp only [Prod.mk.injEq] at hends
  obtain ⟨hretried, hgate, hlate, hearlier, hsilent⟩ := hends
  refine ⟨s, hs, hgate, hlate, (retry_unseen_iff hs hretried).mpr ⟨fun r hr => ?_, fun i hi ev hev => ?_⟩⟩
  · rw [List.eq_nil_of_length_eq_zero hearlier] at hr
    exact absurd hr List.not_mem_nil
  · have hall := List.all_eq_true.mp hsilent i hi
    rwa [Option.mem_def.mp hev, Option.all_some] at hall

/-- An answer, then an error without a response, then a crash. -/
def answerThenError : List PipedAction :=
  [.act (.taskTurn .spawned), .act (.stdout (js "\x7b\"event\":\"result\",\"response\":\"hi\"\x7d\n")),
    .act (.stdout (js "\x7b\"event\":\"result\",\"error\":\"boom\"\x7d\n")),
    .act (.exit ⟨some 1, none, 900, none⟩), .act (.delayEnds .noAccounts)]

/-- A crash without output, and the rest of the pipe during the backoff. -/
def exitBeforeOutput : List PipedAction :=
  [.act (.taskTurn .spawned), .act (.exit ⟨some 1, none, 900, none⟩),
    .lateStdout 0 (js "\x7b\"step_type\":\"text\",\"text\":\"hi\"\x7d\n"), .act (.delayEnds .noAccounts)]

/-- The loop goes round again although the answer was sent and finished, or text is sent meanwhile. -/
theorem retry_not_unseen : (∃ s, exec (step 10000) (init promptCall dispatchRunId) answerThenError = some s ∧
      s.retried = true ∧ ¬s.EarlierUnseen) ∧
    ∃ s, exec (step 10000) (init promptCall dispatchRunId) exitBeforeOutput = some s ∧
      s.retried = true ∧ ¬s.EarlierUnseen := by
  constructor
  · obtain ⟨s, hs, hends⟩ := Option.map_eq_some_iff.mp
      (show (exec (step 10000) (init promptCall dispatchRunId) answerThenError).map
        (fun s => (s.retried, (s.events.take s.gate).any fun ev => !ev.silent)) = some (true, true) by decide +kernel)
    obtain ⟨hretried, hloud⟩ := Prod.mk.inj hends
    refine ⟨s, hs, hretried, fun hunseen => ?_⟩
    obtain ⟨ev, hev, hloud⟩ := List.any_eq_true.mp hloud
    rw [(earlierUnseen_iff.mp hunseen).1 ev hev] at hloud
    exact absurd hloud Bool.false_ne_true
  · obtain ⟨s, hs, hends⟩ := Option.map_eq_some_iff.mp
      (show (exec (step 10000) (init promptCall dispatchRunId) exitBeforeOutput).map
        (fun s => (s.retried, s.late, s.events[0]?.any fun ev => !ev.silent)) =
          some (true, [0], true) by decide +kernel)
    simp only [Prod.mk.injEq] at hends
    obtain ⟨hretried, hlate, hloud⟩ := hends
    refine ⟨s, hs, hretried, fun hunseen => ?_⟩
    obtain ⟨ev, hev, hloud⟩ := (Option.any_eq_true _ _).mp hloud
    rw [(earlierUnseen_iff.mp hunseen).2 0 (hlate ▸ List.mem_singleton_self 0) ev hev] at hloud
    exact absurd hloud Bool.false_ne_true

end PipedDispatch

end AgyProxy
