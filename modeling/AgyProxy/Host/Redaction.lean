import AgyProxy.Host.DispatchSpec

/-!
# AgyProxy.Host.Redaction — the dispatch loop without the model's prose

`redact` keeps of a text step's text, and of a result's response, only whether there is any.  Everything
the dispatch loop does outside the parser's sniffing commutes with it, so two runs that agree up to
redaction stay so.

* `append_redact`, `getResultEvent_redact`, …: the recording.
* `conclude_redact`, `step_redact`: the loop, at the end of an attempt and between the processes.
-/

namespace AgyProxy

open Js Lib

/-! ### Events and recordings -/

section Recordings

/-- Whether there is text, and nothing else of it. -/
def redactText (s : JsString) : JsString := if s.isEmpty then [] else js "*"

@[simp] theorem redactText_isEmpty (s : JsString) : (redactText s).isEmpty = s.isEmpty := by
  unfold redactText
  cases h : s.isEmpty
  · rfl
  · rfl

/-- The event without the prose of the model. -/
def AgyEvent.redact : AgyEvent → AgyEvent
  | .step s => .step { s with text := if s.stepKind = .text then redactText s.text else s.text }
  | .result r => .result { r with response := redactText r.response }
  | ev => ev

theorem redact_isTextStep (ev : AgyEvent) : ev.redact.isTextStep = ev.isTextStep := by
  cases ev with
  | step s =>
    cases hk : s.stepKind <;> simp [AgyEvent.redact, AgyEvent.isTextStep, hk]
  | _ => rfl

theorem redact_isResult (ev : AgyEvent) : ev.redact.isResult = ev.isResult := by cases ev <;> rfl

theorem redact_isStep (ev : AgyEvent) : ev.redact.isStep = ev.isStep := by cases ev <;> rfl

theorem redact_noteCid (cid : Option JsString) (ev : AgyEvent) : noteCid cid ev.redact = noteCid cid ev := by
  cases ev <;> rfl

theorem redact_noteResultCid (cid : Option JsString) (ev : AgyEvent) :
    noteResultCid cid ev.redact = noteResultCid cid ev := by
  cases ev <;> rfl

/-- A fold that does not look at prose can be run on the redacted events. -/
theorem foldl_redact {α : Type} {f : α → AgyEvent → α} (h : ∀ a ev, f a ev.redact = f a ev) (a : α)
    (evs : List AgyEvent) : (evs.map AgyEvent.redact).foldl f a = evs.foldl f a := by
  rw [List.foldl_map]
  simp only [h]

namespace RunRecording

def redact (rec : RunRecording) : RunRecording := { rec with events := rec.events.map AgyEvent.redact }

theorem noteEvent_redact (rec : RunRecording) (ev : AgyEvent) :
    (rec.noteEvent ev).redact = rec.redact.noteEvent ev.redact := by
  cases ev with
  | step s =>
    unfold noteEvent AgyEvent.redact AgyEvent.sample?
    dsimp only
    cases s.usage.filter RawUsage.nonEmpty <;> rfl
  | _ => rfl

theorem append_redact (rec : RunRecording) (ev : AgyEvent) :
    (rec.append ev).redact = rec.redact.append ev.redact := by
  cases hs : rec.settled with
  | true =>
    have hs' : rec.redact.settled = true := hs
    rw [show rec.append ev = rec from if_pos hs, show rec.redact.append ev.redact = rec.redact from if_pos hs']
  | false =>
    have hs' : rec.redact.settled = false := hs
    unfold append
    simp only [hs, hs', Bool.false_eq_true, if_false, redact_isResult, ← noteEvent_redact]
    have hlen : (rec.noteEvent ev).redact.events.length = (rec.noteEvent ev).events.length := List.length_map _
    rw [hlen]
    split_ifs with hcap
    · rfl
    · simp [redact]

theorem foldl_append_redact (evs : List AgyEvent) : ∀ rec : RunRecording,
    (evs.foldl append rec).redact = (evs.map AgyEvent.redact).foldl append rec.redact := by
  induction evs with
  | nil => exact fun _ => rfl
  | cons ev evs ih =>
    intro rec
    rw [List.foldl_cons, ih, append_redact]
    rfl

theorem settle_redact (rec : RunRecording) (failure : Option RecordingFailure) :
    (rec.settle failure).redact = rec.redact.settle failure := by
  unfold settle
  rw [show rec.redact.settled = rec.settled from rfl]
  split_ifs <;> rfl

/-- The last result of a redacted log is the redacted last result. -/
theorem lastResult?_redact (events : List AgyEvent) : lastResult? (events.map AgyEvent.redact) =
    (lastResult? events).map fun r => { r with response := redactText r.response } := by
  unfold lastResult?
  rw [← List.getLast?_map, List.filterMap_map, List.map_filterMap]
  congr 2
  funext ev
  cases ev <;> rfl

theorem getResultEvent_redact (rec : RunRecording) :
    rec.redact.getResultEvent = rec.getResultEvent.map (Prod.map id redactText) := by
  unfold getResultEvent
  rw [show rec.redact.events = rec.events.map AgyEvent.redact from rfl, lastResult?_redact, Option.map_map,
    Option.map_map]
  rfl

theorem runUsage_redact (rec : RunRecording) : SpanState.runUsage rec.redact = SpanState.runUsage rec := by
  have hraw : rec.redact.getResultRawUsage = rec.getResultRawUsage := by
    unfold getResultRawUsage
    rw [show rec.redact.events = rec.events.map AgyEvent.redact from rfl, lastResult?_redact, Option.map_map]
    rfl
  unfold SpanState.runUsage
  rw [hraw]
  rfl

theorem hasClientMappedEvents_redact (rec : RunRecording) :
    rec.redact.hasClientMappedEvents = rec.hasClientMappedEvents := by
  simp only [hasClientMappedEvents, redact, List.any_map]
  exact congrArg (List.any rec.events) (funext redact_isStep)

theorem sawText_redact (rec : RunRecording) :
    sawTextBefore rec.redact.events rec.redact.events.length = sawTextBefore rec.events rec.events.length := by
  simp only [sawTextBefore, redact, List.take_length, List.any_map]
  exact congrArg (List.any rec.events) (funext redact_isTextStep)

end RunRecording

end Recordings

/-! ### The dispatch loop -/

section Loop

/-- The attempt without prose: neither the excerpt of stdout nor the response itself. -/
def AttemptResult.redact (r : AttemptResult) : AttemptResult :=
  { r with
    outcome := { r.outcome with stdout := [] }
    resultEvent := r.resultEvent.map (Prod.map id redactText) }

/-- What the cascade reads, without the response itself. -/
def AttemptFacts.redact (f : AttemptFacts) : AttemptFacts :=
  { f with resultEvent := f.resultEvent.map (Prod.map id redactText) }

theorem canceledEmpty_redact (f : AttemptFacts) : f.redact.canceledEmpty = f.canceledEmpty := by
  simp [AttemptFacts.redact, AttemptFacts.canceledEmpty, Option.any_map]

theorem consumable_redact (f : AttemptFacts) : f.redact.consumable = f.consumable := by
  simp only [AttemptFacts.consumable, canceledEmpty_redact]
  simp [AttemptFacts.redact, Option.any_map]

namespace Dispatch

def redactPhase : Phase → Phase
  | .delaying last => .delaying last.redact
  | phase => phase

def redact (s : Dispatch) : Dispatch :=
  { s with recording := s.recording.redact, phase := redactPhase s.phase }

theorem isFinal_redact (s : Dispatch) (r : AttemptResult) : s.redact.isFinal r.redact = s.isFinal r := by
  have hshape : (r.redact.resultEvent.all fun e => !e.1 && e.2.isEmpty) =
      r.resultEvent.all fun e => !e.1 && e.2.isEmpty := by
    simp [AttemptResult.redact, Option.all_map]
  unfold isFinal canRetry
  rw [hshape, show s.redact.recording.hasClientMappedEvents = _ from s.recording.hasClientMappedEvents_redact]
  rfl

theorem runInfo_redact (s : Dispatch) (r : AttemptResult) (final : Bool) :
    s.redact.runInfo r.redact final = s.runInfo r final := by
  unfold runInfo
  rw [show SpanState.runUsage s.redact.recording = _ from s.recording.runUsage_redact]
  rfl

theorem settleRun_redact (s : Dispatch) (r : AttemptResult) :
    (s.settleRun r).redact = s.redact.settleRun r.redact := by
  unfold settleRun redact
  rw [RunRecording.settle_redact]
  rfl

theorem fireRun_redact (s : Dispatch) (r : AttemptResult) (final : Bool) :
    (s.fireRun r final).redact = s.redact.fireRun r.redact final := by
  unfold fireRun
  rw [runInfo_redact]
  rfl

/-- **The end of an attempt** looks at nothing that redaction takes away. -/
theorem conclude_redact (s : Dispatch) (r : AttemptResult) :
    (s.conclude r).redact = s.redact.conclude r.redact := by
  unfold conclude
  rw [isFinal_redact]
  split_ifs
  · rw [settleRun_redact, fireRun_redact]
  · rw [← fireRun_redact]
    rfl

/-- Between the processes: the actions that neither bring output nor end a process. -/
def betweenProcesses : DispatchAction → Bool
  | .steer | .abortSignal _ | .taskTurn _ | .delayEnds _ => true
  | .stdout _ | .stderr _ | .watchdog | .exit _ => false

theorem abortProcess_redact (s : Dispatch) : s.abortProcess.redact = s.redact.abortProcess := by
  unfold abortProcess
  cases hp : s.phase <;> simp [redact, redactPhase, hp]

theorem superseded_redact (s : Dispatch) : s.redact.superseded = s.superseded := rfl

theorem startTask_redact (s : Dispatch) (turn : TaskTurn) :
    (s.startTask turn).map redact = s.redact.startTask turn := by
  cases turn with
  | spaced =>
    unfold startTask
    cases hp : s.phase <;> cases ha : s.attemptAccount <;> simp [redact, redactPhase, hp, ha]
  | spawned => rfl
  | spawnThrew msg =>
    show some ((s.conclude _).redact) = some (s.redact.conclude _)
    rw [conclude_redact]
    rfl

theorem runTask_redact (s : Dispatch) (turn : TaskTurn) : (s.runTask turn).map redact = s.redact.runTask turn := by
  unfold runTask
  rw [superseded_redact]
  split_ifs
  · show some ((s.conclude _).redact) = some (s.redact.conclude _)
    rw [conclude_redact]
    rfl
  · exact startTask_redact s turn

theorem nextRound_redact (s : Dispatch) : s.nextRound.redact = s.redact.nextRound := by
  unfold nextRound redact
  rw [show s.recording.redact.settled = s.recording.settled from rfl]
  cases s.recording.settled <;> rfl

theorem retry_redact (s : Dispatch) (last : AttemptResult) (sel : Reselection) :
    (s.retry last sel).redact = s.redact.retry last.redact sel := by
  unfold retry
  rw [superseded_redact]
  split_ifs
  · rw [settleRun_redact, fireRun_redact]
    rfl
  · cases sel with
    | noAccounts => exact nextRound_redact s
    | noneFound => exact settleRun_redact s last
    | found id => exact nextRound_redact _

/-- **Between the processes** the loop commutes with redaction. -/
theorem step_redact (stack : ℕ) (s : Dispatch) {a : DispatchAction} (ha : betweenProcesses a = true) :
    (s.step stack a).map redact = s.redact.step stack a := by
  cases a with
  | steer =>
    show some ({ s.abortProcess with steerAborted := true } : Dispatch).redact =
      some { s.redact.abortProcess with steerAborted := true }
    rw [← abortProcess_redact]
    rfl
  | abortSignal reason =>
    show (if s.reason.isSome then none else some { s.abortProcess with reason := some reason }).map redact =
      if s.reason.isSome then none else some { s.redact.abortProcess with reason := some reason }
    rw [← abortProcess_redact]
    split_ifs <;> rfl
  | taskTurn turn =>
    have hphase : s.redact.phase = redactPhase s.phase := rfl
    simp only [step, hphase]
    cases s.phase with
    | queued => exact runTask_redact s turn
    | spacing => exact runTask_redact s turn
    | _ => rfl
  | delayEnds sel =>
    have hphase : s.redact.phase = redactPhase s.phase := rfl
    simp only [step, hphase]
    cases s.phase with
    | delaying last => exact congrArg some (retry_redact s last sel)
    | _ => rfl
  | _ => cases ha

end Dispatch

end Loop

end AgyProxy
