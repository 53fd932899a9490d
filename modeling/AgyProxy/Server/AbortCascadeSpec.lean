import AgyProxy.Host.DispatchSpec
import AgyProxy.Host.RecordingSpec
import AgyProxy.Server.AbortCascade

/-!
# AgyProxy.Server.AbortCascadeSpec — when giving up on a request reaches its processes

* `Wired`: the dispatch knows of an abort exactly when the call's signal does, and its process was sent the
  kill exactly then.
* `halted_step`, `halted_exec`: a request with nothing left to stop starts no process.
* `revives_of_not_halted`: any other request without a process can still start one.
* `cascades_iff`: **the abort cascade**; a disconnect or the end of the grace stops a request exactly when its run
  hears the signal and its response is still open, or nothing was left to stop.
-/

namespace AgyProxy

open Js Lib

/-! ### The dispatch loop and its signal -/

section Dispatch

variable {stack : ℕ} {d d' : Dispatch} {a : DispatchAction} {reason : Option JsString}

namespace Dispatch

/-- The loop under a signal with that abort reason. -/
structure Heeding (reason : Option JsString) (d : Dispatch) : Prop where
  signal : d.reason = reason
  steer : d.steerAborted = false
  settled : d.phase ≠ .done → d.recording.settled = false
  killed : ∀ l, d.phase = .live l → l.capture.aborted = reason.isSome

theorem init_heeding {call : DispatchCall} {runId : RunId} : (Dispatch.init call runId).Heeding none where
  signal := rfl
  steer := rfl
  settled := fun _ => rfl
  killed := fun _ h => nomatch h

theorem Heeding.superseded (h : d.Heeding reason) (hd : d.phase ≠ .done) : d.superseded = reason.isSome := by
  rw [Dispatch.superseded, h.settled hd, h.steer, h.signal]
  rfl

/-- The abort of the signal kills the live process. -/
theorem Heeding.abort (h : d.Heeding none) (why : JsString) :
    Heeding (some why) { d.abortProcess with reason := some why } := by
  unfold abortProcess
  cases hp : d.phase with
  | live l =>
    refine ⟨rfl, h.steer, fun _ => h.settled (by simp [hp]), fun l' hl' => ?_⟩
    obtain rfl := Phase.live.inj hl'
    rfl
  | queued | spacing | delaying | done =>
    exact ⟨rfl, h.steer, h.settled, fun l' hl' => nomatch hp.symm.trans hl'⟩

/-- The loop goes on in a phase without a process. -/
theorem Heeding.phase (h : d.Heeding reason) {phase : Phase} (hd : d.phase ≠ .done) (hp : ∀ l, phase ≠ .live l) :
    Heeding reason { d with phase } where
  signal := h.signal
  steer := h.steer
  settled := fun _ => h.settled hd
  killed := fun l hl => absurd hl (hp l)

/-- Once it is done, only the signal matters. -/
theorem heeding_of_done (hsignal : d.reason = reason) (hsteer : d.steerAborted = false) (hd : d.phase = .done) :
    d.Heeding reason where
  signal := hsignal
  steer := hsteer
  settled := fun hnd => absurd hd hnd
  killed := fun _ hl => nomatch hd.symm.trans hl

theorem Heeding.conclude (h : d.Heeding reason) {recording : RunRecording} (hrec : recording.settled = false)
    (r : AttemptResult) : Heeding reason ({ d with recording }.conclude r) := by
  cases hf : ({ d with recording } : Dispatch).isFinal r with
  | true =>
    rw [show ({ d with recording } : Dispatch).conclude r = _ from if_pos hf]
    exact heeding_of_done h.signal h.steer rfl
  | false =>
    rw [show ({ d with recording } : Dispatch).conclude r = _ from if_neg (Bool.eq_false_iff.mp hf)]
    exact ⟨h.signal, h.steer, fun _ => hrec, fun l hl => nomatch hl⟩

theorem Heeding.runTask (h : d.Heeding reason) (hd : d.phase ≠ .done) {turn : TaskTurn}
    (hs : d.runTask turn = some d') : d'.Heeding reason := by
  have hrec := h.settled hd
  unfold Dispatch.runTask at hs
  by_cases hsup : d.superseded = true
  · rw [if_pos hsup] at hs
    obtain rfl := Option.some.inj hs
    exact h.conclude hrec _
  · rw [if_neg hsup] at hs
    cases turn with
    | spaced =>
      simp only [startTask] at hs
      split at hs
      · obtain rfl := Option.some.inj hs
        exact h.phase hd (by simp)
      · simp at hs
    | spawned =>
      obtain rfl := Option.some.inj hs
      refine ⟨h.signal, h.steer, fun _ => hrec, fun l hl => ?_⟩
      obtain rfl := Phase.live.inj hl
      rw [h.superseded hd] at hsup
      exact (Bool.not_eq_true _ ▸ hsup : reason.isSome = false).symm
    | spawnThrew msg =>
      obtain rfl := Option.some.inj hs
      exact h.conclude hrec _

theorem Heeding.retry (h : d.Heeding reason) {last : AttemptResult} (hp : d.phase = .delaying last)
    (selected : Reselection) : (d.retry last selected).Heeding reason := by
  have hd : d.phase ≠ .done := by simp [hp]
  unfold Dispatch.retry
  split
  · exact heeding_of_done h.signal h.steer rfl
  · next hsup =>
    have hlive : d.superseded = false := Bool.not_eq_true _ ▸ hsup
    cases selected with
    | noAccounts =>
      show d.nextRound.Heeding reason
      rw [nextRound_eq hlive]
      exact h.phase hd (by simp)
    | noneFound => exact heeding_of_done h.signal h.steer rfl
    | found id =>
      show ({ d with attemptAccount := some id } : Dispatch).nextRound.Heeding reason
      rw [nextRound_eq (s := { d with attemptAccount := some id }) hlive]
      exact ⟨h.signal, h.steer, fun _ => h.settled hd, fun l hl => nomatch hl⟩

theorem foldl_append_settled (evs : List AgyEvent) (rec : RunRecording) (h : rec.settled = false) :
    (evs.foldl RunRecording.append rec).settled = false := by
  induction evs generalizing rec with
  | nil => exact h
  | cons ev evs ih => exact ih _ (RunRecording.append_other h ev).2.1

theorem onChunk_heeding {rec : RunRecording} (h : rec.settled = false) (l : LiveAttempt) (chunk : JsString) :
    (l.onChunk stack rec chunk).1.settled = false ∧
      (l.onChunk stack rec chunk).2.capture.aborted = l.capture.aborted := by
  unfold LiveAttempt.onChunk
  split
  · exact ⟨foldl_append_settled _ _ h, rfl⟩
  · exact ⟨h, rfl⟩

/-- The live attempt changes, its flag does not. -/
theorem Heeding.live (h : d.Heeding reason) {l l' : LiveAttempt} {recording : RunRecording} (hp : d.phase = .live l)
    (hrec : recording.settled = false) (hkill : l'.capture.aborted = l.capture.aborted) :
    Heeding reason { d with recording, phase := .live l' } where
  signal := h.signal
  steer := h.steer
  settled := fun _ => hrec
  killed := by
    intro l₁ hl₁
    obtain rfl := Phase.live.inj hl₁
    exact hkill.trans (h.killed l hp)

theorem Heeding.step (h : d.Heeding reason) (hown : a.isOwn = true) (hs : d.step stack a = some d') :
    d'.Heeding reason := by
  cases step_fires hs with
  | steer => exact nomatch hown
  | abortSignal => exact nomatch hown
  | taskTurn hp hs =>
    rcases hp with hp | hp
    · exact h.runTask (by simp [hp]) hs
    · exact h.runTask (by simp [hp]) hs
  | @stdout l chunk hp =>
    obtain ⟨hrec, hkill⟩ := onChunk_heeding (h.settled (by simp [hp])) l chunk
    exact h.live hp hrec hkill
  | stderr hp => exact h.live hp (h.settled (by simp [hp])) rfl
  | watchdog hp => exact h.live hp (h.settled (by simp [hp])) rfl
  | exit hp =>
    unfold onExit LiveAttempt.conclude
    split
    · exact heeding_of_done h.signal h.steer rfl
    · next hok =>
      split at hok
      · simp at hok
      · obtain ⟨rfl, rfl⟩ := Prod.mk.inj (Except.ok.inj hok)
        exact h.conclude (foldl_append_settled _ _ (h.settled (by simp [hp]))) _
  | delayEnds hp => exact h.retry hp _

/-- In every run without a newer prompt the loop heeds its signal. -/
theorem run_heeding {call : DispatchCall} {runId : RunId} {as : List DispatchAction} (hsteer : ∀ a ∈ as, a ≠ .steer)
    (hrun : exec (Dispatch.step stack) (.init call runId) as = some d) : d.Heeding d.reason := by
  have hall : Every (Dispatch.step stack) (fun _ a => a ≠ .steer) (.init call runId) as := Every.of_forall hsteer
  refine exec_invariant (I := fun d => d.Heeding d.reason) ?_ as _ d init_heeding hall hrun
  intro d a d' h hnot hs
  by_cases hown : a.isOwn = true
  · have h' := h.step hown hs
    exact h'.signal.symm ▸ h'
  · cases a with
    | steer => exact absurd rfl hnot
    | abortSignal why =>
      obtain ⟨hnone, hs⟩ := Option.ite_none_left_eq_some.mp hs
      obtain rfl := Option.some.inj hs
      rw [Option.not_isSome_iff_eq_none.mp hnone] at h
      exact h.abort why
    | _ => exact absurd rfl hown

/-- **No spawn after an abort**, and none after the settlement. -/
theorem Heeding.spawns_eq (h : d.Heeding reason) (hrest : reason.isSome = true ∨ d.phase = .done)
    (hs : d.step stack a = some d') : d'.spawns = d.spawns := by
  have hsame : ∀ (e : Dispatch) (r : AttemptResult), (e.conclude r).spawns = e.spawns := by
    intro e r
    unfold Dispatch.conclude
    split <;> rfl
  cases step_cases hs with
  | quiet hq => exact hq.spawns
  | spawn hd hsup =>
    rcases hrest with hrest | hrest
    · rw [h.superseded hd, hrest] at hsup
      exact nomatch hsup
    · exact absurd hrest hd
  | noProcess => exact hsame _ _
  | exit => exact hsame _ _
  | thrown => rfl
  | gaveUp => rfl
  | unretried => rfl

end Dispatch

end Dispatch

/-! ### The request and its signal -/

section Request

variable {stack : ℕ} {r r' : GatewayRequest} {a : GatewayAction}

namespace GatewayRequest

/-- The dispatch heeds the signal of the call, and only an abort drops a parked waiter. -/
structure Wired (r : GatewayRequest) : Prop where
  dispatch : ∀ d, r.stage = .dispatching d → d.Heeding r.callSignal
  dropped : r.stage = .acquiring (some .aborted) → r.callSignal.isSome = true
  tracked : r.tracked = !r.writableEnded

theorem Begins.wired (h : Begins stack r) : r.Wired := by
  cases h with
  | own protocol streaming limited call =>
    refine ⟨fun d hd => ?_, fun hd => ?_, rfl⟩
    · cases limited <;> exact nomatch hd
    · cases limited <;> exact nomatch hd
  | continues protocol streaming hsteer hrun =>
    refine ⟨fun d hd => ?_, fun hd => (nomatch hd), rfl⟩
    obtain rfl := GatewayStage.dispatching.inj hd
    exact Dispatch.run_heeding hsteer hrun
  | lost => exact ⟨fun d hd => (nomatch hd), fun hd => (nomatch hd), rfl⟩

/-- Before the dispatch, on the way to it. -/
def isEarly (r : GatewayRequest) : Bool :=
  match r.stage with
  | .rateWait => true
  | .preparing => true
  | .acquiring _ => true
  | _ => false

/-- What one step of the request's own makes of its stage. -/
inductive Moves (stack : ℕ) (r : GatewayRequest) : GatewayStage → Prop
  | ends (hfrom : r.isEarly = true) : Moves stack r .ended
  | prepares (hfrom : r.stage = .rateWait) : Moves stack r .preparing
  | queues (hfrom : r.stage = .preparing) : Moves stack r (.acquiring none)
  | granted (hfrom : r.isEarly = true) : Moves stack r (.acquiring (some .granted))
  | starts (runId : RunId) (hfrom : r.isEarly = true) (hsignal : r.callSignal = none) :
      Moves stack r (.dispatching (.init r.call runId))
  | loops {d d' : Dispatch} {a : DispatchAction} (hfrom : r.stage = .dispatching d) (hown : a.isOwn = true)
      (hstep : d.step stack a = some d') : Moves stack r (.dispatching d')

theorem isEarly_of {stage : GatewayStage} (h : r.stage = stage) :
    r.isEarly = isEarly { r with stage } := by
  rw [isEarly, h]
  rfl

theorem unlessAborted_cases (r : GatewayRequest) (stage : GatewayStage) :
    r.unlessAborted stage = { r with stage := .ended } ∨
      r.callSignal = none ∧ r.unlessAborted stage = { r with stage } := by
  unfold unlessAborted
  cases hsignal : r.callSignal with
  | none => exact Or.inr ⟨rfl, rfl⟩
  | some why => exact Or.inl rfl

theorem progress_rateWait (hstage : r.stage = .rateWait) (h : r.progress stack a = some r') :
    ∃ stage, Moves stack r stage ∧ r' = { r with stage } := by
  have hearly : r.isEarly = true := isEarly_of hstage
  unfold progress at h
  rw [hstage] at h
  cases a with
  | windowOpens =>
    obtain rfl := Option.some.inj h
    rcases r.unlessAborted_cases .preparing with heq | ⟨-, heq⟩
    · exact ⟨_, .ends hearly, heq⟩
    · exact ⟨_, .prepares hstage, heq⟩
  | fail => exact ⟨_, .ends hearly, (Option.some.inj h).symm⟩
  | _ => exact nomatch h

theorem progress_preparing (hstage : r.stage = .preparing) (h : r.progress stack a = some r') :
    ∃ stage, Moves stack r stage ∧ r' = { r with stage } := by
  have hearly : r.isEarly = true := isEarly_of hstage
  unfold progress at h
  rw [hstage] at h
  cases a with
  | acquire answer =>
    cases answer with
    | free => exact ⟨_, .granted hearly, (Option.some.inj h).symm⟩
    | waits =>
      obtain rfl := Option.some.inj h
      rcases r.unlessAborted_cases (.acquiring none) with heq | ⟨-, heq⟩
      · exact ⟨_, .ends hearly, heq⟩
      · exact ⟨_, .queues hstage, heq⟩
    | full => exact ⟨_, .ends hearly, (Option.some.inj h).symm⟩
  | fail => exact ⟨_, .ends hearly, (Option.some.inj h).symm⟩
  | _ => exact nomatch h

theorem progress_acquiring {settled : Option Settlement} (hstage : r.stage = .acquiring settled)
    (h : r.progress stack a = some r') : ∃ stage, Moves stack r stage ∧ r' = { r with stage } := by
  have hearly : r.isEarly = true := isEarly_of hstage
  unfold progress at h
  rw [hstage] at h
  rcases settled with - | ⟨- | -⟩
  · cases a with
    | granted => exact ⟨_, .granted hearly, (Option.some.inj h).symm⟩
    | _ => exact nomatch h
  · cases a with
    | resume runId =>
      obtain rfl := Option.some.inj h
      rcases r.unlessAborted_cases (.dispatching (.init r.call runId)) with heq | ⟨hsignal, heq⟩
      · exact ⟨_, .ends hearly, heq⟩
      · exact ⟨_, .starts runId hearly hsignal, heq⟩
    | _ => exact nomatch h
  · cases a with
    | resume runId => exact ⟨_, .ends hearly, (Option.some.inj h).symm⟩
    | _ => exact nomatch h

theorem progress_cases (h : r.progress stack a = some r') :
    (∃ stage, Moves stack r stage ∧ r' = { r with stage }) ∨ r' = r.abort (js "output-budget") := by
  cases hstage : r.stage with
  | rateWait => exact Or.inl (progress_rateWait hstage h)
  | preparing => exact Or.inl (progress_preparing hstage h)
  | acquiring settled => exact Or.inl (progress_acquiring hstage h)
  | dispatching d =>
    unfold progress at h
    rw [hstage] at h
    cases a with
    | dispatch a =>
      obtain ⟨hown, hs⟩ := Option.ite_none_right_eq_some.mp h
      obtain ⟨d', hstep, rfl⟩ := Option.map_eq_some_iff.mp hs
      exact Or.inl ⟨_, .loops hstage hown hstep, rfl⟩
    | budgetCut =>
      obtain ⟨-, hs⟩ := Option.ite_none_right_eq_some.mp h
      exact Or.inr (Option.some.inj hs).symm
    | _ => exact nomatch h
  | ended =>
    unfold progress at h
    rw [hstage] at h
    exact nomatch h

/-! ### Aborting -/

theorem abort_of_aborted (h : r.aborted.isSome = true) (why : JsString) : r.abort why = r := if_pos h

theorem abort_of_fresh (h : r.aborted = none) (why : JsString) :
    r.abort why = { r with aborted := some why, stage := if r.listens then r.stage.onAbort why else r.stage } :=
  if_neg (by rw [h]; exact Bool.false_ne_true)

theorem callSignal_of_listens (hl : r.listens = true) : r.callSignal = r.aborted := by
  cases horigin : r.origin with
  | own =>
    rw [callSignal, horigin]
    exact if_pos hl
  | recorded aborted =>
    rw [listens, horigin] at hl
    exact absurd hl Bool.false_ne_true

theorem abort_listens (r : GatewayRequest) (why : JsString) : (r.abort why).listens = r.listens := by
  unfold GatewayRequest.abort
  split <;> rfl

theorem abort_aborted (r : GatewayRequest) (why : JsString) : (r.abort why).aborted.isSome = true := by
  cases haborted : r.aborted with
  | some why' =>
    rw [abort_of_aborted (by rw [haborted]; rfl), haborted]
    rfl
  | none =>
    rw [abort_of_fresh haborted]
    rfl

theorem abort_callSignal (hl : r.listens = true) (why : JsString) : (r.abort why).callSignal.isSome = true := by
  rw [callSignal_of_listens ((abort_listens r why).trans hl)]
  exact abort_aborted r why

/-- A run that does not hear the controller does not notice. -/
theorem abort_deaf (h : r.listens = false) (why : JsString) :
    (r.abort why).callSignal = r.callSignal ∧ (r.abort why).stage = r.stage := by
  cases haborted : r.aborted with
  | some why' =>
    rw [abort_of_aborted (by rw [haborted]; rfl)]
    exact ⟨rfl, rfl⟩
  | none =>
    rw [abort_of_fresh haborted, h]
    refine ⟨?_, rfl⟩
    have hdeaf : ∀ t : GatewayRequest, t.origin = r.origin → t.listens = false → t.callSignal = r.callSignal := by
      intro t horigin ht
      unfold callSignal
      rw [horigin, ht, h]
      cases r.origin <;> rfl
    exact hdeaf _ rfl h

/-- The signal of the run aborts, and its listeners fire. -/
theorem Wired.onAbort (h : r.Wired) (hbefore : r.callSignal = none) {why : JsString}
    (hstage : r'.stage = r.stage.onAbort why) (hsignal : r'.callSignal = some why)
    (htracked : r'.tracked = !r'.writableEnded) : r'.Wired := by
  refine ⟨fun d hd => ?_, fun _ => by rw [hsignal]; rfl, htracked⟩
  rw [hstage] at hd
  rw [hsignal]
  cases hfrom : r.stage with
  | dispatching d₀ =>
    rw [hfrom] at hd
    obtain rfl := GatewayStage.dispatching.inj hd
    exact (hbefore ▸ h.dispatch d₀ hfrom).abort why
  | acquiring settled =>
    rw [hfrom] at hd
    cases settled <;> exact nomatch hd
  | rateWait | preparing | ended =>
    rw [hfrom] at hd
    exact nomatch hd

theorem Wired.abort (h : r.Wired) (why : JsString) : (r.abort why).Wired := by
  cases haborted : r.aborted with
  | some why' => rwa [abort_of_aborted (by rw [haborted]; rfl)]
  | none =>
    cases hl : r.listens with
    | false =>
      obtain ⟨hsignal, hstage⟩ := abort_deaf hl why
      rw [abort_of_fresh haborted] at hsignal hstage ⊢
      refine ⟨fun d hd => ?_, fun hd => ?_, h.tracked⟩
      · rw [hsignal]
        exact h.dispatch d (hstage.symm.trans hd)
      · rw [hsignal]
        exact h.dropped (hstage.symm.trans hd)
    | true =>
      have hsignal := callSignal_of_listens ((abort_listens r why).trans hl)
      rw [abort_of_fresh haborted] at hsignal ⊢
      exact h.onAbort ((callSignal_of_listens hl).trans haborted) (if_pos hl) hsignal h.tracked

theorem abort_writableEnded (r : GatewayRequest) (why : JsString) :
    (r.abort why).writableEnded = r.writableEnded := by
  unfold GatewayRequest.abort
  split <;> rfl

theorem onAbort_spawns (r : GatewayRequest) (why : JsString) :
    spawns { r with stage := r.stage.onAbort why } = r.spawns := by
  cases hstage : r.stage with
  | dispatching d =>
    rw [spawns, spawns, hstage]
    show d.abortProcess.spawns = d.spawns
    unfold Dispatch.abortProcess
    split <;> rfl
  | acquiring settled =>
    rw [spawns, spawns, hstage]
    cases settled <;> rfl
  | rateWait | preparing | ended =>
    rw [spawns, spawns, hstage]
    rfl

theorem abort_spawns (r : GatewayRequest) (why : JsString) : (r.abort why).spawns = r.spawns := by
  cases haborted : r.aborted with
  | some why' => rw [abort_of_aborted (by rw [haborted]; rfl)]
  | none =>
    rw [abort_of_fresh haborted]
    cases hl : r.listens with
    | true => exact onAbort_spawns r why
    | false => rfl

/-! ### One action -/

/-- What one action makes of the request. -/
inductive Effect (stack : ℕ) (r : GatewayRequest) : GatewayRequest → Prop
  | moves {stage : GatewayStage} (h : Moves stack r stage) : Effect stack r { r with stage }
  | aborts (why : JsString) : Effect stack r (r.abort why)
  | responds : Effect stack r { r with tracked := false, writableEnded := true }
  | originAborts (why : JsString) (h : r.origin = .recorded none) :
      Effect stack r { r with origin := .recorded (some why), stage := r.stage.onAbort why }
  | still : Effect stack r r

/-- A second abort changes nothing, so the end of the grace aborts at most once. -/
theorem onGrace_eq (h : r.Wired) :
    r.onGrace = if r.writableEnded then r else r.abort (js "server shutting down") := by
  unfold onGrace
  rw [h.tracked]
  cases hended : r.writableEnded with
  | true => exact if_pos hended
  | false =>
    show (r.abort _).onClose = r.abort _
    unfold onClose
    rw [abort_writableEnded, hended]
    exact abort_of_aborted (abort_aborted r _) _

theorem step_effect (h : r.Wired) (hs : r.step stack a = some r') : Effect stack r r' := by
  have hown : ∀ {a}, r.progress stack a = some r' → Effect stack r r' := by
    intro a hp
    rcases progress_cases hp with ⟨stage, hmoves, rfl⟩ | rfl
    · exact .moves hmoves
    · exact .aborts _
  cases a with
  | respond =>
    obtain ⟨-, hs⟩ := Option.ite_none_left_eq_some.mp hs
    obtain rfl := Option.some.inj hs
    exact .responds
  | disconnect =>
    obtain ⟨hended, hs⟩ := Option.ite_none_left_eq_some.mp hs
    obtain rfl := Option.some.inj hs
    rw [onClose, if_neg hended]
    exact .aborts _
  | graceExpires =>
    obtain rfl := Option.some.inj hs
    rw [onGrace_eq h]
    split
    · exact .still
    · exact .aborts _
  | windowOpens => exact hown hs
  | acquire answer => exact hown hs
  | granted => exact hown hs
  | resume runId => exact hown hs
  | fail => exact hown hs
  | dispatch a => exact hown hs
  | budgetCut => exact hown hs
  | originAborts why =>
    change r.onOriginAbort why = some r' at hs
    unfold onOriginAbort at hs
    split at hs
    next horigin =>
      obtain rfl := Option.some.inj hs
      exact .originAborts why horigin
    next => exact nomatch hs

theorem callSignal_of_recorded {aborted : Option JsString} (h : r.origin = .recorded aborted) :
    r.callSignal = aborted := by
  rw [callSignal, h]

theorem Wired.step (h : r.Wired) (hs : r.step stack a = some r') : r'.Wired := by
  cases step_effect h hs with
  | moves hm =>
    cases hm with
    | ends => exact ⟨fun d hd => (nomatch hd), fun hd => (nomatch hd), h.tracked⟩
    | prepares => exact ⟨fun d hd => (nomatch hd), fun hd => (nomatch hd), h.tracked⟩
    | queues => exact ⟨fun d hd => (nomatch hd), fun hd => (nomatch hd), h.tracked⟩
    | granted => exact ⟨fun d hd => (nomatch hd), fun hd => (nomatch hd), h.tracked⟩
    | starts runId hearly hsignal =>
      refine ⟨fun d hd => ?_, fun hd => (nomatch hd), h.tracked⟩
      obtain rfl := GatewayStage.dispatching.inj hd
      show Dispatch.Heeding r.callSignal _
      rw [hsignal]
      exact Dispatch.init_heeding
    | loops hfrom hown hstep =>
      refine ⟨fun d hd => ?_, fun hd => (nomatch hd), h.tracked⟩
      obtain rfl := GatewayStage.dispatching.inj hd
      exact (h.dispatch _ hfrom).step hown hstep
  | aborts why => exact h.abort why
  | originAborts why horigin => exact h.onAbort (callSignal_of_recorded horigin) rfl rfl h.tracked
  | responds => exact ⟨h.dispatch, h.dropped, rfl⟩
  | still => exact h

/-! ### A request with nothing left to stop -/

theorem halted_iff : r.Halted = true ↔ r.callSignal.isSome = true ∨ r.stage = .ended ∨
    ∃ d, r.stage = .dispatching d ∧ d.phase = .done := by
  unfold Halted
  rw [Bool.or_eq_true]
  refine or_congr_right ?_
  cases hstage : r.stage with
  | ended => exact ⟨fun _ => Or.inl rfl, fun _ => rfl⟩
  | dispatching d =>
    constructor
    · intro hd
      refine Or.inr ⟨d, rfl, ?_⟩
      cases hp : d.phase with
      | done => rfl
      | queued | spacing | live | delaying => simp [hp] at hd
    · rintro (h | ⟨e, he, hd⟩)
      · exact nomatch h
      · obtain rfl := GatewayStage.dispatching.inj he
        simp [hd]
  | rateWait | preparing | acquiring =>
    refine ⟨fun h => (nomatch h), ?_⟩
    rintro (h | ⟨d, hd, -⟩)
    · exact nomatch h
    · exact nomatch hd

theorem isEarly_spawns (h : r.isEarly = true) : r.spawns = [] := by
  cases hstage : r.stage with
  | rateWait | preparing | acquiring | ended => rw [spawns, hstage]
  | dispatching d =>
    rw [isEarly, hstage] at h
    exact nomatch h

theorem isEarly_halted (h : r.isEarly = true) (hr : r.Halted = true) : r.callSignal.isSome = true := by
  rcases halted_iff.mp hr with hsignal | hended | ⟨d, hd, -⟩
  · exact hsignal
  · rw [isEarly, hended] at h
    exact nomatch h
  · rw [isEarly, hd] at h
    exact nomatch h

/-- Without the signal an abort stops nothing that had not stopped by itself. -/
theorem abort_halted_of_deaf (hl : r.listens = false) (why : JsString) : (r.abort why).Halted = r.Halted := by
  obtain ⟨hsignal, hstage⟩ := abort_deaf hl why
  unfold Halted
  rw [hsignal, hstage]

theorem abort_halted (hl : r.listens = true) (why : JsString) : (r.abort why).Halted = true :=
  halted_iff.mpr (Or.inl (abort_callSignal hl why))

theorem halted_abort (h : r.Halted = true) (why : JsString) : (r.abort why).Halted = true := by
  cases hl : r.listens with
  | true => exact abort_halted hl why
  | false => rwa [abort_halted_of_deaf hl]

/-- The step lemma: nothing is started and nothing comes back to life. -/
theorem halted_step (h : r.Wired) (hr : r.Halted = true) (hs : r.step stack a = some r') :
    r'.Halted = true ∧ r'.spawns = r.spawns := by
  cases step_effect h hs with
  | moves hm =>
    cases hm with
    | ends hearly => exact ⟨halted_iff.mpr (Or.inr (Or.inl rfl)), (isEarly_spawns hearly).symm⟩
    | prepares hfrom =>
      have hearly : r.isEarly = true := isEarly_of hfrom
      have hsignal := isEarly_halted hearly hr
      exact ⟨halted_iff.mpr (Or.inl hsignal), (isEarly_spawns hearly).symm⟩
    | queues hfrom =>
      have hearly : r.isEarly = true := isEarly_of hfrom
      have hsignal := isEarly_halted hearly hr
      exact ⟨halted_iff.mpr (Or.inl hsignal), (isEarly_spawns hearly).symm⟩
    | granted hearly =>
      have hsignal := isEarly_halted hearly hr
      exact ⟨halted_iff.mpr (Or.inl hsignal), (isEarly_spawns hearly).symm⟩
    | starts runId hearly hsignal =>
      have := isEarly_halted hearly hr
      rw [hsignal] at this
      exact nomatch this
    | @loops d d' a hfrom hown hstep =>
      have hsp : r.spawns = d.spawns := by rw [spawns, hfrom]
      rcases halted_iff.mp hr with hsignal | hended | ⟨e, he, hdone⟩
      · refine ⟨halted_iff.mpr (Or.inl hsignal), ?_⟩
        rw [hsp]
        exact (h.dispatch d hfrom).spawns_eq (Or.inl hsignal) hstep
      · exact nomatch hfrom.symm.trans hended
      · obtain rfl := GatewayStage.dispatching.inj (hfrom.symm.trans he)
        refine ⟨halted_iff.mpr (Or.inr (Or.inr ⟨d', rfl, (Dispatch.done_step hdone hstep).2.1⟩)), ?_⟩
        rw [hsp]
        exact (h.dispatch d hfrom).spawns_eq (Or.inr hdone) hstep
  | aborts why => exact ⟨halted_abort hr why, abort_spawns r why⟩
  | originAborts why => exact ⟨halted_iff.mpr (Or.inl rfl), onAbort_spawns r why⟩
  | responds => exact ⟨hr, rfl⟩
  | still => exact ⟨hr, rfl⟩

/-- The run lemma. -/
theorem halted_exec (h : r.Wired) (hr : r.Halted = true) (as : List GatewayAction) (s : GatewayRequest)
    (hrun : exec (step stack) r as = some s) : s.spawns = r.spawns := by
  have hinv := exec_invariant' (I := fun s => s.Wired ∧ s.Halted = true ∧ s.spawns = r.spawns)
    (fun s a s' ⟨hw, hh, hc⟩ hs => by
      obtain ⟨hh', hc'⟩ := halted_step hw hh hs
      exact ⟨hw.step hs, hh', hc'.trans hc⟩) as r s ⟨h, hr, rfl⟩ hrun
  exact hinv.2.2

/-! ### Any other request can still start a process -/

/-- Some run from here starts a process beyond those. -/
def Revives (stack : ℕ) (started : List Spawn) (r : GatewayRequest) : Prop :=
  ∃ as s, Lib.exec (step stack) r as = some s ∧ s.spawns ≠ started

theorem Revives.of_step {started : List Spawn} {a : GatewayAction} (hs : r.step stack a = some r')
    (h : r'.Revives stack started) : r.Revives stack started := by
  obtain ⟨as, s, hrun, hne⟩ := h
  refine ⟨a :: as, s, ?_, hne⟩
  rw [Lib.exec, hs]
  exact hrun

/-- The task's turn comes and finds nothing that supersedes it. -/
theorem queued_revives {d : Dispatch} (h : d.Heeding none) (hp : d.phase = .queued ∨ d.phase = .spacing) :
    Revives stack d.spawns { r with stage := .dispatching d } := by
  have hd : d.phase ≠ .done := by
    rcases hp with hp | hp
    · simp [hp]
    · simp [hp]
  have hsup : ¬d.superseded = true := by
    rw [h.superseded hd]
    exact Bool.false_ne_true
  have hturn : ∃ d', d.step stack (.taskTurn .spawned) = some d' ∧
      d'.spawns = d.spawns ++ [⟨d.attemptAccount, d.conversationArg⟩] := by
    have hrun : d.runTask .spawned = d.startTask .spawned := if_neg hsup
    rcases hp with hp | hp
    · simp only [Dispatch.step, hp, hrun]
      exact ⟨_, rfl, rfl⟩
    · simp only [Dispatch.step, hp, hrun]
      exact ⟨_, rfl, rfl⟩
  obtain ⟨d', hstep, hspawns⟩ := hturn
  refine ⟨[.dispatch (.taskTurn .spawned)], { r with stage := .dispatching d' }, ?_, ?_⟩
  · have hgo : step stack { r with stage := .dispatching d } (.dispatch (.taskTurn .spawned)) =
        some { r with stage := .dispatching d' } :=
      congrArg (Option.map fun d' => ({ r with stage := .dispatching d' } : GatewayRequest)) hstep
    rw [Lib.exec, hgo]
    rfl
  · rw [show spawns { r with stage := .dispatching d' } = d'.spawns from rfl, hspawns]
    exact fun hself => List.cons_ne_nil _ _ (List.append_right_eq_self.mp hself)

theorem delaying_revives {d : Dispatch} {last : AttemptResult} (h : d.Heeding none) (hp : d.phase = .delaying last) :
    Revives stack d.spawns { r with stage := .dispatching d } := by
  have hd : d.phase ≠ .done := by simp [hp]
  have hsup : d.superseded = false := h.superseded hd
  have hstep : d.step stack (.delayEnds .noAccounts) = some { d with phase := .queued } := by
    simp only [Dispatch.step, hp]
    rw [Dispatch.retry, if_neg (by rw [hsup]; exact Bool.false_ne_true)]
    exact congrArg some (Dispatch.nextRound_eq hsup)
  refine Revives.of_step (a := .dispatch (.delayEnds .noAccounts))
    (congrArg (Option.map fun d' => ({ r with stage := .dispatching d' } : GatewayRequest)) hstep) ?_
  exact queued_revives (d := { d with phase := .queued }) (h.phase hd (by simp)) (Or.inl rfl)

theorem unlessAborted_eq (h : r.callSignal = none) (stage : GatewayStage) :
    r.unlessAborted stage = { r with stage } := by
  unfold unlessAborted
  rw [h]
  rfl

theorem granted_revives (h : r.callSignal = none) :
    Revives stack [] { r with stage := .acquiring (some .granted) } := by
  refine Revives.of_step (a := .resume ⟨js "r", by decide⟩)
    (congrArg some (unlessAborted_eq (r := { r with stage := .acquiring (some .granted) }) h _)) ?_
  exact queued_revives Dispatch.init_heeding (Or.inl rfl)

theorem preparing_revives (h : r.callSignal = none) : Revives stack [] { r with stage := .preparing } :=
  Revives.of_step (a := .acquire .free) rfl (granted_revives h)

theorem revives_of_not_halted (h : r.Wired) (hr : r.Halted = false) (hl : r.live? = none) :
    r.Revives stack r.spawns := by
  have hnone : r.callSignal = none := by
    cases hsignal : r.callSignal with
    | none => rfl
    | some why => rw [halted_iff.mpr (Or.inl (by rw [hsignal]; rfl))] at hr; exact nomatch hr
  have hself : ∀ {stage}, r.stage = stage → r = { r with stage } := by
    rintro _ rfl
    rfl
  cases hstage : r.stage with
  | rateWait =>
    rw [isEarly_spawns (isEarly_of hstage), hself hstage]
    exact Revives.of_step (a := .windowOpens)
      (congrArg some (unlessAborted_eq (r := { r with stage := .rateWait }) hnone _)) (preparing_revives hnone)
  | preparing =>
    rw [isEarly_spawns (isEarly_of hstage), hself hstage]
    exact preparing_revives hnone
  | acquiring settled =>
    rw [isEarly_spawns (isEarly_of hstage), hself hstage]
    rcases settled with - | ⟨- | -⟩
    · exact Revives.of_step (a := .granted) rfl (granted_revives hnone)
    · exact granted_revives hnone
    · have := h.dropped hstage
      rw [hnone] at this
      exact nomatch this
  | dispatching d =>
    have hheed : d.Heeding none := hnone ▸ h.dispatch d hstage
    rw [show r.spawns = d.spawns by rw [spawns, hstage], hself hstage]
    cases hp : d.phase with
    | queued => exact queued_revives hheed (Or.inl hp)
    | spacing => exact queued_revives hheed (Or.inr hp)
    | delaying last => exact delaying_revives hheed hp
    | live l =>
      have hlive : r.live? = some l := by simp only [live?, hstage, Dispatch.live?, hp]
      exact nomatch hl.symm.trans hlive
    | done =>
      rw [halted_iff.mpr (Or.inr (Or.inr ⟨d, hstage, hp⟩))] at hr
      exact nomatch hr
  | ended =>
    rw [halted_iff.mpr (Or.inr (Or.inl hstage))] at hr
    exact nomatch hr

/-! ### The abort cascade -/

theorem live?_eq_some {l : LiveAttempt} (h : r.live? = some l) :
    ∃ d, r.stage = .dispatching d ∧ d.phase = .live l := by
  cases hstage : r.stage with
  | dispatching d =>
    rw [live?, hstage] at h
    have h : d.live? = some l := h
    cases hp : d.phase with
    | live l' =>
      rw [Dispatch.live?, hp] at h
      exact ⟨d, rfl, hp.trans (congrArg _ (Option.some.inj h))⟩
    | queued | spacing | delaying | done =>
      rw [Dispatch.live?, hp] at h
      exact nomatch h
  | rateWait | preparing | acquiring | ended =>
    rw [live?, hstage] at h
    exact nomatch h

theorem cascades_iff_halted (h : r.Wired) : r.Cascades stack ↔ r.Halted = true := by
  constructor
  · rintro ⟨hstop, hkill⟩
    by_contra hr
    have hr : r.Halted = false := Bool.eq_false_iff.mpr hr
    cases hl : r.live? with
    | none =>
      obtain ⟨as, s, hrun, hne⟩ := revives_of_not_halted h hr hl
      exact hne (hstop as s hrun)
    | some l =>
      obtain ⟨d, hstage, hp⟩ := live?_eq_some hl
      have hsome : r.callSignal.isSome = true := by
        rw [← (h.dispatch d hstage).killed l hp]
        exact hkill l hl
      rw [halted_iff.mpr (Or.inl hsome)] at hr
      exact nomatch hr
  · intro hr
    refine ⟨fun as s hrun => halted_exec h hr as s hrun, fun l hl => ?_⟩
    obtain ⟨d, hstage, hp⟩ := live?_eq_some hl
    rw [(h.dispatch d hstage).killed l hp]
    rcases halted_iff.mp hr with hsignal | hended | ⟨e, he, hd⟩
    · exact hsignal
    · exact nomatch hstage.symm.trans hended
    · obtain rfl := GatewayStage.dispatching.inj (hstage.symm.trans he)
      exact nomatch hp.symm.trans hd

theorem giveUp_eq (h : r.Wired) (hgives : GivesUp a) (hs : r.step stack a = some r') :
    r' = r ∧ r.writableEnded = true ∨ (∃ why, r' = r.abort why) ∧ r.writableEnded = false := by
  rcases hgives with rfl | rfl
  · obtain ⟨hended, hs⟩ := Option.ite_none_left_eq_some.mp hs
    obtain rfl := Option.some.inj hs
    exact Or.inr ⟨⟨_, if_neg hended⟩, Bool.eq_false_iff.mpr hended⟩
  · obtain rfl := Option.some.inj hs
    rw [onGrace_eq h]
    cases hended : r.writableEnded with
    | true => exact Or.inl ⟨rfl, rfl⟩
    | false => exact Or.inr ⟨⟨_, rfl⟩, rfl⟩

/-- **The abort cascade**: after a disconnect or the end of the grace no process is started for the request any
more and the one that runs is sent the kill, exactly when nothing was left to stop or the run hears the controller's
signal and the response is still open.  The request may start a run or continue one. -/
theorem cascades_iff (stack : ℕ) {start s s' : GatewayRequest} (hstart : Begins stack start)
    {as : List GatewayAction} {a : GatewayAction} (hrun : exec (step stack) start as = some s) (hgives : GivesUp a)
    (hs : s.step stack a = some s') :
    s'.Cascades stack ↔ s.Halted = true ∨ s.listens = true ∧ s.writableEnded = false := by
  have hw : s.Wired := exec_invariant' (fun _ _ _ h hs => h.step hs) as _ s hstart.wired hrun
  rw [cascades_iff_halted (hw.step hs)]
  rcases giveUp_eq hw hgives hs with ⟨rfl, hended⟩ | ⟨⟨why, rfl⟩, hopen⟩
  · rw [hended]
    exact ⟨Or.inl, fun h => h.elim id fun ⟨_, hf⟩ => nomatch hf⟩
  · cases hl : s.listens with
    | true => exact ⟨fun _ => Or.inr ⟨rfl, hopen⟩, fun _ => abort_halted hl why⟩
    | false =>
      rw [abort_halted_of_deaf hl why]
      exact ⟨Or.inl, fun h => h.elim id fun ⟨hf, _⟩ => nomatch hf⟩

/-- The run of a recorded call whose process is live. -/
def liveRun : Dispatch :=
  { Dispatch.init promptCall dispatchRunId with phase := .live .new, spawns := [⟨promptCall.account, none⟩] }

theorem liveRun_reached : exec (Dispatch.step 10000) (.init promptCall dispatchRunId) [.taskTurn .spawned] =
    some liveRun := rfl

/-- A streaming client leaves while its process runs: the process is sent the kill, and none follows.  So it is for
a continuation whose run the client that started it has given up. -/
theorem cascades_streaming : (∃ s s', exec (step 10000) (init .anthropic true true promptCall)
      [.windowOpens, .acquire .waits, .granted, .resume dispatchRunId, .dispatch (.taskTurn .spawned)] = some s ∧
    s.step 10000 .disconnect = some s' ∧ s'.live?.isSome = true ∧ s'.Cascades 10000) ∧
    ∃ s s', exec (step 10000) (continuation .anthropic true liveRun) [.originAborts (js "client disconnected")] =
        some s ∧ s.step 10000 .disconnect = some s' ∧ s'.live?.isSome = true ∧ s'.Cascades 10000 := by
  constructor
  · refine ⟨_, _, rfl, rfl, rfl, ?_⟩
    exact (@cascades_iff 10000 _ _ _ (.own .anthropic true true promptCall)
      [.windowOpens, .acquire .waits, .granted, .resume dispatchRunId, .dispatch (.taskTurn .spawned)] _
      rfl (Or.inl rfl) rfl).mpr (Or.inr ⟨rfl, rfl⟩)
  · refine ⟨_, _, rfl, rfl, rfl, ?_⟩
    exact (@cascades_iff 10000 _ _ _ (.continues .anthropic true (by simp) liveRun_reached)
      [.originAborts (js "client disconnected")] _ rfl (Or.inl rfl) rfl).mpr (Or.inl rfl)

/-- A collecting client leaves while its run is queued for the account, and the process starts all the same; a
continuing client leaves, streaming or not, and the process of its run is not killed. -/
theorem not_cascades_unheard : (∃ s s', exec (step 10000) (init .openai false false promptCall)
      [.acquire .free, .resume dispatchRunId] = some s ∧
    s.step 10000 .disconnect = some s' ∧ ¬s'.Cascades 10000) ∧
    Begins 10000 (continuation .openai true liveRun) ∧
    ∃ s', (continuation .openai true liveRun).step 10000 .disconnect = some s' ∧ ¬s'.Cascades 10000 := by
  refine ⟨⟨_, _, rfl, rfl, fun h => ?_⟩, .continues .openai true (by simp) liveRun_reached, _, rfl, fun h => ?_⟩
  · have hlate := h.1 [.dispatch (.taskTurn .spawned)] _ rfl
    exact List.cons_ne_nil _ _ hlate
  · have hkill := h.2 .new rfl
    exact absurd hkill Bool.false_ne_true

end GatewayRequest

end Request

end AgyProxy
