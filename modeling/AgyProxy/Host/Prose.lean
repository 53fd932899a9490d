import AgyProxy.Host.Redaction
import AgyProxy.Host.ParserStream

/-!
# AgyProxy.Host.Prose — what the model's prose can do to a settlement

Two runs of the dispatch loop whose processes say the same up to prose, side by side.

* `SameProcess`, `SameRun`: the same actions, but the stdout of the processes agrees only up to redaction.
* `Unswayed`: no line throws, and the authentication sniffing of raw stdout either does not matter or comes
  out the same.
* `run_process`: a live attempt as a function of its output.  `settlement_unswayed`: such runs settle alike.
-/

namespace AgyProxy

open Js Lib

/-! ### The actions of one process -/

section Process

variable {stack : ℕ}

namespace Dispatch

/-- What can happen while a process runs. -/
def whileLive : DispatchAction → Bool
  | .stdout _ | .stderr _ | .watchdog | .steer | .abortSignal _ => true
  | .taskTurn _ | .exit _ | .delayEnds _ => false

def chunk? : DispatchAction → Option JsString
  | .stdout chunk => some chunk
  | _ => none

def isSteer : DispatchAction → Bool
  | .steer => true
  | _ => false

def abortReason? : DispatchAction → Option JsString
  | .abortSignal reason => some reason
  | _ => none

def chunks (ps : List DispatchAction) : List JsString := ps.filterMap chunk?

/-- Everything the process wrote to stdout. -/
def output (ps : List DispatchAction) : JsString := (chunks ps).flatten

/-- The actions besides stdout. -/
def rest (ps : List DispatchAction) : List DispatchAction := ps.filter fun a => (chunk? a).isNone

/-- What an action does to the runner's buffers. -/
def noteCapture (c : Capture) : DispatchAction → Capture
  | .stdout chunk => c.onStdout chunk
  | .stderr chunk => c.onStderr chunk
  | .watchdog => c.onWatchdog
  | .steer | .abortSignal _ => c.onAbort
  | _ => c

def capture (ps : List DispatchAction) : Capture := ps.foldl noteCapture .new

theorem chunks_concat (ps : List DispatchAction) (a : DispatchAction) :
    chunks (ps ++ [a]) = chunks ps ++ (chunk? a).toList := by
  rw [chunks, List.filterMap_append]
  cases a <;> rfl

theorem output_concat (ps : List DispatchAction) (a : DispatchAction) :
    output (ps ++ [a]) = output ps ++ (chunk? a).getD [] := by
  rw [output, chunks_concat, List.flatten_append]
  cases a <;> simp [chunk?, output]

theorem capture_holds (ps : List DispatchAction) : (capture ps).Holds (output ps) := by
  induction ps using List.reverseRecOn with
  | nil => exact Capture.holds_new
  | append_singleton ps a ih =>
    rw [output_concat, capture, List.foldl_append]
    cases a with
    | stdout chunk => exact Capture.Holds.onStdout ih chunk
    | _ =>
      simp only [chunk?, Option.getD_none, List.append_nil]
      exact ⟨ih.1, ih.2⟩

/-- The state after the actions of a live attempt: they moved the attempt, the recording and the two
flags, each as a function of what happened. -/
def after (s : Dispatch) (ps : List DispatchAction) (evs : List AgyEvent) (p : StreamJsonParser) : Dispatch :=
  { s with
    recording := evs.foldl RunRecording.append s.recording
    phase := .live ⟨p, evs.foldl noteCid none, capture ps⟩
    steerAborted := s.steerAborted || ps.any isSteer
    reason := s.reason.or (ps.findSome? abortReason?) }

theorem after_concat {s : Dispatch} {ps : List DispatchAction} {evs : List AgyEvent} {p : StreamJsonParser}
    {a : DispatchAction} : after s (ps ++ [a]) evs p =
      { after s ps evs p with
        phase := .live ⟨p, evs.foldl noteCid none, noteCapture (capture ps) a⟩
        steerAborted := (after s ps evs p).steerAborted || isSteer a
        reason := (after s ps evs p).reason.or (abortReason? a) } := by
  have hcap : capture (ps ++ [a]) = noteCapture (capture ps) a := List.foldl_concat ..
  have hfind : [a].findSome? abortReason? = abortReason? a := by
    cases h : abortReason? a <;> simp [h]
  unfold after
  rw [hcap, List.any_append, List.findSome?_append, hfind]
  simp [Bool.or_assoc, Option.or_assoc]

/-- One more action of a live attempt besides stdout. -/
theorem step_after {s t : Dispatch} {ps : List DispatchAction} {evs : List AgyEvent} {p : StreamJsonParser}
    {a : DispatchAction} (ha : whileLive a = true) (hc : chunk? a = none)
    (h : (after s ps evs p).step stack a = some t) : t = after s (ps ++ [a]) evs p := by
  rw [after_concat]
  cases a with
  | stdout chunk => simp [chunk?] at hc
  | stderr chunk =>
    obtain rfl := Option.some.inj h
    simp [after, noteCapture, isSteer, abortReason?]
  | watchdog =>
    obtain rfl := Option.some.inj h
    simp [after, noteCapture, isSteer, abortReason?]
  | steer =>
    obtain rfl := Option.some.inj h
    simp [after, abortProcess, noteCapture, isSteer, abortReason?]
  | abortSignal reason =>
    simp only [step] at h
    split_ifs at h with hr
    have hnone : (after s ps evs p).reason = none := by simpa using hr
    obtain rfl := Option.some.inj h
    rw [hnone]
    simp [after, abortProcess, noteCapture, isSteer, abortReason?]
  | _ => cases ha

theorem underCap_concat {cs : List JsString} {c : JsString} (h : UnderCap (cs ++ [c])) :
    UnderCap cs ∧ (unterminated (cs.flatten ++ c)).length ≤ MAX_PENDING_CHARS := by
  refine ⟨fun k => ?_, ?_⟩
  · have hk := h (min k cs.length)
    rwa [List.take_append_of_le_length (Nat.min_le_right ..), ← List.take_eq_take_min] at hk
  · have hall := h (cs.length + 1)
    rw [List.take_of_length_le (by simp), List.flatten_append] at hall
    simpa using hall

/-- **A live attempt**: what its actions leave is a function of its output and of the other actions, however
the output was chunked. -/
theorem run_process (hstack : 2 ≤ stack) {s : Dispatch} (hlive : s.phase = .live .new) (ps : List DispatchAction) :
    ∀ t : Dispatch, (∀ a ∈ ps, whileLive a = true) → (∀ l ∈ completeLines (output ps), badLine stack l = false) →
      UnderCap (chunks ps) → exec (step stack) s ps = some t →
      ∃ evs p, Took stack (output ps) evs p ∧ t = after s ps evs p := by
  induction ps using List.reverseRecOn with
  | nil =>
    intro t _ _ _ h
    obtain rfl := Option.some.inj h
    refine ⟨[], .new, took_new, ?_⟩
    obtain ⟨call, recording, attempt, account, steer, reason, phase, runs, spawns, poolOps, storeOps⟩ := s
    obtain rfl : phase = .live .new := hlive
    simp [after, capture, LiveAttempt.new]
  | append_singleton ps a ih =>
    intro t hps hgood hcap h
    rw [exec_append] at h
    obtain ⟨u, hu, h⟩ := Option.bind_eq_some_iff.mp h
    obtain ⟨v, hv, h⟩ := exec_cons h
    obtain rfl := Option.some.inj h
    have hps' : ∀ b ∈ ps, whileLive b = true := fun b hb => hps b (List.mem_append_left _ hb)
    have ha : whileLive a = true := hps a (by simp)
    cases hc : chunk? a with
    | none =>
      have hchunks : chunks (ps ++ [a]) = chunks ps := by rw [chunks_concat, hc]; simp
      have hout : output (ps ++ [a]) = output ps := by rw [output, hchunks]; rfl
      rw [hout] at hgood ⊢
      obtain ⟨evs, p, htook, rfl⟩ := ih u hps' hgood (hchunks ▸ hcap) hu
      exact ⟨evs, p, htook, step_after ha hc hv⟩
    | some c =>
      obtain rfl : a = .stdout c := by
        cases a <;> simp_all [chunk?]
      have hchunks : chunks (ps ++ [.stdout c]) = chunks ps ++ [c] := chunks_concat ps _
      have hout : output (ps ++ [.stdout c]) = output ps ++ c := output_concat ps _
      rw [hchunks] at hcap
      rw [hout] at hgood ⊢
      obtain ⟨hcap', hlast⟩ := underCap_concat hcap
      have hgood' : ∀ l ∈ completeLines (output ps), badLine stack l = false := fun l hl =>
        hgood l (completeLines_append (output ps) c ▸ List.mem_append_left _ hl)
      obtain ⟨evs, p, htook, rfl⟩ := ih u hps' hgood' hcap' hu
      obtain ⟨new, p', hfeed, htook'⟩ := feed_lines hstack htook hgood hlast
      refine ⟨evs ++ new, p', htook', ?_⟩
      have hchunk : (⟨p, evs.foldl noteCid none, capture ps⟩ : LiveAttempt).onChunk stack
          (evs.foldl RunRecording.append s.recording) c =
          (new.foldl RunRecording.append (evs.foldl RunRecording.append s.recording),
            ⟨p', new.foldl noteCid (evs.foldl noteCid none), (capture ps).onStdout c⟩) := by
        unfold LiveAttempt.onChunk
        simp only [hfeed]
      obtain rfl := Option.some.inj hv
      show (after s ps evs p).onStdout stack _ c = _
      unfold onStdout
      rw [show (after s ps evs p).recording = evs.foldl RunRecording.append s.recording from rfl, hchunk]
      simp [after, capture, noteCapture, isSteer, abortReason?, List.foldl_append]

end Dispatch

end Process

/-! ### The classification -/

section Classification

/-- The outcome without its excerpt of stdout. -/
def RunOutcome.redact (o : RunOutcome) : RunOutcome := { o with stdout := [] }

/-- The authentication sniffing of raw stdout, by line and by head. -/
def sniffs (text : JsString) : Bool :=
  (nonBlank (textLines text)).any looksLikeAuthFailure || looksLikeAuthFailure (text.take SNIFF_HEAD)

/-- **The cascade** reads of the prose only whether there is any, unless it gets to the sniffing. -/
theorem attemptFailure_congr {f g : AttemptFacts} {st st' : ParserStats} {o o' : RunOutcome}
    (hf : f.redact = g.redact) (hgarbage : st.garbage = st'.garbage)
    (herror : st.lastResultError = st'.lastResultError) (ho : o.redact = o'.redact)
    (hauth : o.aborted = true ∨ o.timedOut = true ∨ sawAuthFailure st o = sawAuthFailure st' o') :
    attemptFailure f st o = attemptFailure g st' o' := by
  have htime : f.timeoutMs = g.timeoutMs := (AttemptFacts.mk.inj hf).1
  have habort : f.abort = g.abort := (AttemptFacts.mk.inj hf).2.1
  have hcanceled : f.canceledEmpty = g.canceledEmpty := by rw [← canceledEmpty_redact, hf, canceledEmpty_redact]
  have hconsumable : f.consumable = g.consumable := by rw [← consumable_redact, hf, consumable_redact]
  obtain ⟨code, signal, timedOut, aborted, stdout, stderrTail, ms⟩ := o
  obtain ⟨code', signal', timedOut', aborted', stdout', stderrTail', ms'⟩ := o'
  simp only [RunOutcome.redact, RunOutcome.mk.injEq, true_and] at ho
  obtain ⟨rfl, rfl, rfl, rfl, rfl, rfl⟩ := ho
  have hvalidation : validationFailure st ⟨code, signal, timedOut, aborted, stdout, stderrTail, ms⟩ =
      validationFailure st' ⟨code, signal, timedOut, aborted, stdout', stderrTail, ms⟩ := by
    simp only [validationFailure, errorDetail, herror]
  have hrate : rateLimitFailure st ⟨code, signal, timedOut, aborted, stdout, stderrTail, ms⟩ =
      rateLimitFailure st' ⟨code, signal, timedOut, aborted, stdout', stderrTail, ms⟩ := by
    simp only [rateLimitFailure, herror]
  have hexit : exitFailure st ⟨code, signal, timedOut, aborted, stdout, stderrTail, ms⟩ =
      exitFailure st' ⟨code, signal, timedOut, aborted, stdout', stderrTail, ms⟩ := by
    simp only [exitFailure, errorDetail, herror]
  have hraw : rawErrorText st ⟨code, signal, timedOut, aborted, stdout, stderrTail, ms⟩ =
      rawErrorText st' ⟨code, signal, timedOut, aborted, stdout', stderrTail, ms⟩ := by
    simp only [rawErrorText, herror]
  have houtput : outputFailure st g.canceledEmpty = outputFailure st' g.canceledEmpty := by
    simp only [outputFailure, herror, hgarbage]
  unfold attemptFailure
  dsimp only
  rw [hvalidation, hrate, hexit, hraw, hcanceled, hconsumable, houtput, habort, htime]
  cases aborted with
  | true => rfl
  | false =>
    cases timedOut with
    | true => rfl
    | false =>
      rcases hauth with h | h | h
      · cases h
      · cases h
      · rw [h]

end Classification

/-! ### The end of one process -/

section Exits

variable {stack : ℕ}

namespace Dispatch

/-- The events of a text: those of its complete lines, and those of its last one. -/
def textEvents (stack : ℕ) (text : JsString) : Option (List AgyEvent × List AgyEvent) :=
  match StreamJsonParser.takeLines stack .new (completeLines text) with
  | (.error _, _) => none
  | (.ok evs, q) =>
    match StreamJsonParser.takeLines stack q [unterminated text] with
    | (.error _, _) => none
    | (.ok last, _) => some (evs, last)

/-- The stderr and the flags of the runner, without the buffers of stdout. -/
def withoutStdout (c : Capture) : Capture := { c with stdoutHead := [], stdoutTail := [], stdoutTotal := 0 }

/-- The other actions decide about stderr and the flags. -/
theorem capture_rest (ps : List DispatchAction) : withoutStdout (capture ps) = capture (rest ps) := by
  induction ps using List.reverseRecOn with
  | nil => rfl
  | append_singleton ps a ih =>
    have hcap : capture (ps ++ [a]) = noteCapture (capture ps) a := List.foldl_concat ..
    rw [hcap]
    cases hc : chunk? a with
    | some c =>
      have hrest : rest (ps ++ [a]) = rest ps := by simp [rest, List.filter_append, hc]
      rw [hrest, ← ih]
      cases a <;> first | rfl | simp [chunk?] at hc
    | none =>
      have hrest : rest (ps ++ [a]) = rest ps ++ [a] := by simp [rest, List.filter_append, hc]
      rw [hrest, show capture (rest ps ++ [a]) = noteCapture (capture (rest ps)) a from List.foldl_concat .., ← ih]
      cases a <;> first | rfl | simp [chunk?] at hc

theorem any_isSteer_rest (ps : List DispatchAction) : ps.any isSteer = (rest ps).any isSteer := by
  induction ps with
  | nil => rfl
  | cons a ps ih => cases a <;> simp_all [rest, chunk?, isSteer]

theorem findSome?_rest (ps : List DispatchAction) :
    ps.findSome? abortReason? = (rest ps).findSome? abortReason? := by
  induction ps with
  | nil => rfl
  | cons a ps ih => cases a <;> simp_all [rest, chunk?, abortReason?, List.findSome?_cons]

theorem withoutStdout_eq {ps qs : List DispatchAction} (h : rest ps = rest qs) :
    withoutStdout (capture ps) = withoutStdout (capture qs) := by
  rw [capture_rest, capture_rest, h]

/-- The outcome of a process, up to its excerpt of stdout, by its other actions. -/
theorem outcome_rest {ps qs : List DispatchAction} (h : rest ps = rest qs) (x : ProcessExit) :
    ((capture ps).outcome x.code x.signal x.durationMs).redact =
      ((capture qs).outcome x.code x.signal x.durationMs).redact := by
  have hout : ∀ c : Capture, (c.outcome x.code x.signal x.durationMs).redact =
      ((withoutStdout c).outcome x.code x.signal x.durationMs).redact := by
    intro c
    simp only [RunOutcome.redact, Capture.outcome, withoutStdout]
  rw [hout (capture ps), hout (capture qs), withoutStdout_eq h]

/-- **The exit of a live attempt**: the recording and the result, in terms of the output's events. -/
theorem exit_after (hstack : 2 ≤ stack) {s t : Dispatch} {ps : List DispatchAction} {evs : List AgyEvent}
    {p : StreamJsonParser} (htook : Took stack (output ps) evs p)
    (hgood : ∀ l ∈ textLines (output ps), badLine stack l = false) {x : ProcessExit}
    (h : (after s ps evs p).step stack (.exit x) = some t) :
    ∃ last stats recording, textEvents stack (output ps) = some (evs, last) ∧
      StatsAfter StreamJsonParser.new.stats (textLines (output ps)) (evs ++ last) stats ∧
      recording = (evs ++ last).foldl RunRecording.append s.recording ∧
      t = ({ after s ps evs p with recording } : Dispatch).conclude
        (attemptResult (after s ps evs p).env recording stats ((capture ps).outcome x.code x.signal x.durationMs)
          ((last.foldl noteResultCid (evs.foldl noteCid none)).or x.diffed)) := by
  obtain ⟨last, q, q', hevs, hlast, hflush, hall⟩ := flush_lines hstack htook hgood
  refine ⟨last, q'.stats, _, ?_, takeLines_stats hall, rfl, ?_⟩
  · simp [textEvents, hevs, hlast]
  · obtain rfl := Option.some.inj h
    show (after s ps evs p).onExit stack ⟨p, evs.foldl noteCid none, capture ps⟩ x = _
    unfold onExit LiveAttempt.conclude
    simp only [hflush, List.foldl_append]
    rfl

end Dispatch

end Exits

/-! ### Two runs side by side -/

section Runs

variable {stack : ℕ}

namespace Dispatch

/-- The events of a text without prose. -/
def redactedEvents (stack : ℕ) (text : JsString) : Option (List AgyEvent × List AgyEvent) :=
  (textEvents stack text).map (Prod.map (List.map AgyEvent.redact) (List.map AgyEvent.redact))

/-- Two processes whose output differs at most in prose, in chunks of any size under the parser's cap. -/
structure SameProcess (stack : ℕ) (ps qs : List DispatchAction) : Prop where
  live : ∀ a ∈ ps, whileLive a = true
  live' : ∀ a ∈ qs, whileLive a = true
  rest : rest ps = rest qs
  underCap : UnderCap (chunks ps)
  underCap' : UnderCap (chunks qs)
  events : redactedEvents stack (output ps) = redactedEvents stack (output qs)

/-- The prose cannot sway the classification: the parser throws on no line, and the sniffing of stdout is
either not reached, or already decided by stderr, or comes out the same. -/
structure Unswayed (stack : ℕ) (ps qs : List DispatchAction) : Prop where
  good : ∀ l ∈ textLines (output ps), badLine stack l = false
  good' : ∀ l ∈ textLines (output qs), badLine stack l = false
  sniff : (capture ps).aborted = true ∨ (capture ps).timedOut = true ∨
    looksLikeAuthFailure (sliceLast STDERR_KEEP (capture ps).stderr) = true ∨
    sniffs (output ps) = sniffs (output qs)

/-- Two runs with the same actions, but for processes that are only the same up to prose and meet `ok`. -/
inductive SameRun (stack : ℕ) (ok : List DispatchAction → List DispatchAction → Prop) :
    List DispatchAction → List DispatchAction → Prop
  | done : SameRun stack ok [] []
  | act {a : DispatchAction} {as bs : List DispatchAction} : betweenProcesses a = true → SameRun stack ok as bs →
      SameRun stack ok (a :: as) (a :: bs)
  | process {ps qs as bs : List DispatchAction} {x : ProcessExit} : SameProcess stack ps qs → ok ps qs →
      SameRun stack ok as bs →
      SameRun stack ok (.taskTurn .spawned :: (ps ++ .exit x :: as)) (.taskTurn .spawned :: (qs ++ .exit x :: bs))

/-- The same failure code, the same pool calls and the same session store calls. -/
structure SameSettlement (s t : Dispatch) : Prop where
  code : s.recording.failure.map RecordingFailure.code = t.recording.failure.map RecordingFailure.code
  poolOps : s.poolOps = t.poolOps
  storeOps : s.storeOps = t.storeOps

/-- What the classification sniffs, in terms of the whole output. -/
theorem sawAuthFailure_eq {ps : List DispatchAction} {evs : List AgyEvent} {stats : ParserStats}
    (h : StatsAfter StreamJsonParser.new.stats (textLines (output ps)) evs stats) (x : ProcessExit) :
    sawAuthFailure stats ((capture ps).outcome x.code x.signal x.durationMs) =
      (looksLikeAuthFailure (sliceLast STDERR_KEEP (capture ps).stderr) || sniffs (output ps)) := by
  have hkeep : SNIFF_HEAD ≤ HEAD_KEEP := by simp [SNIFF_HEAD, HEAD_KEEP]
  have hhead : ((capture ps).outcome x.code x.signal x.durationMs).stdout.take SNIFF_HEAD =
      (output ps).take SNIFF_HEAD := (capture_holds ps).outcome_head hkeep x.code x.signal x.durationMs
  have hflag : stats.sawAuthFailure = (nonBlank (textLines (output ps))).any looksLikeAuthFailure := by
    rw [h.sawAuthFailure]
    rfl
  unfold AgyProxy.sawAuthFailure sniffs
  rw [hhead, hflag, Capture.outcome_stderrTail, Bool.or_comm (List.any _ _) _, Bool.or_assoc]

/-- Attempts that agree up to prose are classified into results that agree up to prose. -/
theorem attemptResult_redact (env : AttemptEnv) (cid : Option JsString) {rec rec' : RunRecording}
    {st st' : ParserStats} {o o' : RunOutcome} (hrec : rec.redact = rec'.redact) (hgarbage : st.garbage = st'.garbage)
    (herror : st.lastResultError = st'.lastResultError) (ho : o.redact = o'.redact)
    (hauth : o.aborted = true ∨ o.timedOut = true ∨ sawAuthFailure st o = sawAuthFailure st' o') :
    (attemptResult env rec st o cid).redact = (attemptResult env rec' st' o' cid).redact := by
  have hresult : rec.getResultEvent.map (Prod.map id redactText) = rec'.getResultEvent.map (Prod.map id redactText) := by
    rw [← RunRecording.getResultEvent_redact, ← RunRecording.getResultEvent_redact, hrec]
  have hsaw : sawTextBefore rec.events rec.events.length = sawTextBefore rec'.events rec'.events.length := by
    rw [← rec.sawText_redact, ← rec'.sawText_redact, hrec]
  have hstderr : o.stderrTail = o'.stderrTail := (RunOutcome.mk.inj ho).2.2.2.2.2.1
  have hraw : rawErrorText st o = rawErrorText st' o' := by simp only [rawErrorText, herror, hstderr]
  have hfailure := attemptFailure_congr
    (f := ⟨env.timeoutMs, abortFailure env.steerAborted env.reason, rec.getResultEvent,
      sawTextBefore rec.events rec.events.length⟩)
    (g := ⟨env.timeoutMs, abortFailure env.steerAborted env.reason, rec'.getResultEvent,
      sawTextBefore rec'.events rec'.events.length⟩)
    (by simp only [AttemptFacts.redact, hresult, hsaw]) hgarbage herror ho hauth
  unfold attemptResult AttemptResult.redact
  dsimp only
  rw [hfailure, hraw, hresult, show ({ o with stdout := [] } : RunOutcome) = { o' with stdout := [] } from ho]

/-- The flags of a live attempt move alike, and so does what its result is settled with. -/
theorem after_flags {s t : Dispatch} {ps qs : List DispatchAction} (hst : s.redact = t.redact)
    (hrest : rest ps = rest qs) :
    (s.steerAborted || ps.any isSteer) = (t.steerAborted || qs.any isSteer) ∧
      s.reason.or (ps.findSome? abortReason?) = t.reason.or (qs.findSome? abortReason?) := by
  obtain ⟨-, -, -, -, hsteer, hreason, -⟩ := Dispatch.mk.inj hst
  rw [any_isSteer_rest ps, any_isSteer_rest qs, findSome?_rest ps, findSome?_rest qs, hrest, hsteer, hreason]
  exact ⟨rfl, rfl⟩

theorem redact_noteError (error : Option JsString) (ev : AgyEvent) :
    noteError error ev.redact = noteError error ev := by
  cases ev <;> rfl

theorem countP_isGarbage_redact (evs : List AgyEvent) :
    (evs.map AgyEvent.redact).countP AgyEvent.isGarbage = evs.countP AgyEvent.isGarbage := by
  rw [List.countP_map]
  exact congrArg (List.countP · evs) (funext fun ev => by cases ev <;> rfl)

/-- **Two processes** whose outputs agree up to prose leave two loops that agree up to prose. -/
theorem process_redact (hstack : 2 ≤ stack) {s t u v : Dispatch} {ps qs : List DispatchAction} {x : ProcessExit}
    (hst : s.redact = t.redact) (hs : s.phase = .live .new) (ht : t.phase = .live .new)
    (hsame : SameProcess stack ps qs) (hok : Unswayed stack ps qs)
    (hu : exec (step stack) s (ps ++ [.exit x]) = some u) (hv : exec (step stack) t (qs ++ [.exit x]) = some v) :
    u.redact = v.redact := by
  rw [exec_append] at hu hv
  obtain ⟨s₁, hs₁, hu⟩ := Option.bind_eq_some_iff.mp hu
  obtain ⟨t₁, ht₁, hv⟩ := Option.bind_eq_some_iff.mp hv
  obtain ⟨u', hxu, hu⟩ := exec_cons hu
  obtain ⟨v', hxv, hv⟩ := exec_cons hv
  obtain rfl := Option.some.inj hu
  obtain rfl := Option.some.inj hv
  obtain ⟨evs, p, htook, rfl⟩ := run_process hstack hs ps s₁ hsame.live
    (fun l hl => hok.good l (List.mem_append_left _ hl)) hsame.underCap hs₁
  obtain ⟨evs', p', htook', rfl⟩ := run_process hstack ht qs t₁ hsame.live'
    (fun l hl => hok.good' l (List.mem_append_left _ hl)) hsame.underCap' ht₁
  obtain ⟨last, stats, rec, hev, hstats, hrec, rfl⟩ := exit_after hstack htook hok.good hxu
  obtain ⟨last', stats', rec', hev', hstats', hrec', rfl⟩ := exit_after hstack htook' hok.good' hxv
  obtain ⟨hcall, hrecording, hattempt, hacc, -, -, -, hruns, hspawns, hpool, hstore⟩ := Dispatch.mk.inj hst
  -- the events agree without prose, and so does all that is folded over them
  have hevents := hsame.events
  rw [redactedEvents, redactedEvents, hev, hev'] at hevents
  obtain ⟨hevs, hlast⟩ := Prod.mk.inj (Option.some.inj hevents)
  have hall : (evs ++ last).map AgyEvent.redact = (evs' ++ last').map AgyEvent.redact := by
    simp only [List.map_append, hevs, hlast]
  have hrecs : rec.redact = rec'.redact := by
    rw [hrec, hrec', RunRecording.foldl_append_redact, RunRecording.foldl_append_redact, hall, hrecording]
  have hcid : (last.foldl noteResultCid (evs.foldl noteCid none)).or x.diffed =
      (last'.foldl noteResultCid (evs'.foldl noteCid none)).or x.diffed := by
    rw [← foldl_redact redact_noteCid none evs, ← foldl_redact redact_noteCid none evs', hevs,
      ← foldl_redact redact_noteResultCid _ last, ← foldl_redact redact_noteResultCid _ last', hlast]
  have hgarbage : stats.garbage = stats'.garbage := by
    rw [hstats.garbage, hstats'.garbage, ← countP_isGarbage_redact, hall, countP_isGarbage_redact]
  have herror : stats.lastResultError = stats'.lastResultError := by
    rw [hstats.lastResultError, hstats'.lastResultError, ← foldl_redact redact_noteError, hall,
      foldl_redact redact_noteError]
  -- the flags and stderr come from the other actions, the same in both
  obtain ⟨hsteer, hreason⟩ := after_flags hst hsame.rest
  have henv : (after s ps evs p).env = (after t qs evs' p').env := by
    unfold env after
    simp only [hcall, hacc, hsteer, hreason]
  have hstderr : (capture ps).stderr = (capture qs).stderr :=
    (Capture.mk.inj (withoutStdout_eq hsame.rest)).2.2.2.1
  have hauth : ((capture ps).outcome x.code x.signal x.durationMs).aborted = true ∨
      ((capture ps).outcome x.code x.signal x.durationMs).timedOut = true ∨
      sawAuthFailure stats ((capture ps).outcome x.code x.signal x.durationMs) =
        sawAuthFailure stats' ((capture qs).outcome x.code x.signal x.durationMs) := by
    rw [Capture.outcome_aborted, Capture.outcome_timedOut, sawAuthFailure_eq hstats x, sawAuthFailure_eq hstats' x,
      hstderr]
    rcases hok.sniff with h | h | h | h
    · exact Or.inl h
    · exact Or.inr (Or.inl h)
    · exact Or.inr (Or.inr (by rw [← hstderr, h, Bool.true_or, Bool.true_or]))
    · exact Or.inr (Or.inr (by rw [h]))
  have hresult := attemptResult_redact (after s ps evs p).env
    ((last.foldl noteResultCid (evs.foldl noteCid none)).or x.diffed)
    hrecs hgarbage herror (outcome_rest hsame.rest x) hauth
  have hphase : ∀ (w : Dispatch) (r : AttemptResult),
      w.conclude r = ({ w with phase := .done } : Dispatch).conclude r := fun _ _ => rfl
  have hstate : ({ after s ps evs p with recording := rec, phase := .done } : Dispatch).redact =
      ({ after t qs evs' p' with recording := rec', phase := .done } : Dispatch).redact := by
    unfold redact after
    simp only [hrecs, hcall, hattempt, hacc, hsteer, hreason, hruns, hspawns, hpool, hstore, redactPhase]
  rw [hphase, hphase { after t qs evs' p' with recording := rec' }, conclude_redact, conclude_redact, hresult, hstate,
    henv, hcid]

/-- Without a process the actions of one do not bring one about. -/
theorem exec_not_live : ∀ (ps : List DispatchAction) (s t : Dispatch), (∀ a ∈ ps, whileLive a = true) →
    live? s = none → exec (step stack) s ps = some t → live? t = none
  | [], s, t, _, hs, h => by
    obtain rfl := Option.some.inj h
    exact hs
  | a :: ps, s, t, hps, hs, h => by
    obtain ⟨u, hu, h⟩ := exec_cons h
    have ha : whileLive a = true := hps a List.mem_cons_self
    have hstay : s.abortProcess = s := by
      unfold abortProcess
      cases hp : s.phase <;> simp_all [live?]
    have hlive : live? u = none := by
      cases a with
      | steer =>
        obtain rfl := Option.some.inj hu
        rwa [hstay]
      | abortSignal reason =>
        simp only [step, hstay] at hu
        split_ifs at hu
        obtain rfl := Option.some.inj hu
        exact hs
      | stdout chunk => cases hp : s.phase <;> simp_all [live?, step]
      | stderr chunk => cases hp : s.phase <;> simp_all [live?, step]
      | watchdog => cases hp : s.phase <;> simp_all [live?, step]
      | _ => cases ha
    exact exec_not_live ps u t (fun b hb => hps b (List.mem_cons_of_mem _ hb)) hlive h

/-- A queue's task behind which a process exits has started that process. -/
theorem spawned_live {s u v : Dispatch} {ps : List DispatchAction} {x : ProcessExit}
    (hps : ∀ a ∈ ps, whileLive a = true) (hu : s.step stack (.taskTurn .spawned) = some u)
    (hv : exec (step stack) u (ps ++ [.exit x]) = some v) : u.phase = .live .new := by
  rw [exec_append] at hv
  obtain ⟨w, hw, hv⟩ := Option.bind_eq_some_iff.mp hv
  obtain ⟨v', hx, -⟩ := exec_cons hv
  have hlive : live? w ≠ none := by
    intro hnone
    cases hp : w.phase <;> simp_all [live?, step]
  have hrun : s.runTask .spawned = some u := by
    cases hp : s.phase <;> simp_all [step]
  unfold runTask at hrun
  split_ifs at hrun with hsup
  · obtain rfl := Option.some.inj hrun
    refine absurd (exec_not_live ps _ w hps ?_ hw) hlive
    unfold conclude
    split_ifs <;> rfl
  · obtain rfl := Option.some.inj hrun
    rfl

/-- **Side by side**: runs that are the same but for prose which cannot sway them leave loops that agree up
to prose. -/
theorem sameRun_redact (hstack : 2 ≤ stack) {as bs : List DispatchAction}
    (h : SameRun stack (Unswayed stack) as bs) : ∀ {s t u v : Dispatch}, s.redact = t.redact →
      exec (step stack) s as = some u → exec (step stack) t bs = some v → u.redact = v.redact := by
  induction h with
  | done =>
    intro s t u v hst hu hv
    obtain rfl := Option.some.inj hu
    obtain rfl := Option.some.inj hv
    exact hst
  | @act a as bs ha _ ih =>
    intro s t u v hst hu hv
    obtain ⟨s₁, hs₁, hu⟩ := exec_cons hu
    obtain ⟨t₁, ht₁, hv⟩ := exec_cons hv
    refine ih ?_ hu hv
    have hs := step_redact stack s ha
    have ht := step_redact stack t ha
    rw [hs₁] at hs
    rw [ht₁, ← hst, ← hs] at ht
    exact (Option.some.inj ht).symm
  | @process ps qs as bs x hsame hok _ ih =>
    intro s t u v hst hu hv
    obtain ⟨s₁, hs₁, hu⟩ := exec_cons hu
    obtain ⟨t₁, ht₁, hv⟩ := exec_cons hv
    rw [List.append_cons, exec_append] at hu hv
    obtain ⟨s₂, hs₂, hu⟩ := Option.bind_eq_some_iff.mp hu
    obtain ⟨t₂, ht₂, hv⟩ := Option.bind_eq_some_iff.mp hv
    have hstart : s₁.redact = t₁.redact := by
      have hs := step_redact stack s (show betweenProcesses (.taskTurn .spawned) = true from rfl)
      have ht := step_redact stack t (show betweenProcesses (.taskTurn .spawned) = true from rfl)
      rw [hs₁] at hs
      rw [ht₁, ← hst, ← hs] at ht
      exact (Option.some.inj ht).symm
    exact ih (process_redact hstack hstart (spawned_live hsame.live hs₁ hs₂) (spawned_live hsame.live' ht₁ ht₂)
      hsame hok hs₂ ht₂) hu hv

/-- **Prose that cannot sway the classification does not steer account health**: two settled runs whose
processes differ only in it settle with the same failure code, the same pool calls and the same calls of
the session store. -/
theorem settlement_unswayed (hstack : 2 ≤ stack) {call : DispatchCall} {runId : RunId}
    {as bs : List DispatchAction} {s t : Dispatch} (hsame : SameRun stack (Unswayed stack) as bs)
    (hs : Settles stack call runId as s) (ht : Settles stack call runId bs t) : SameSettlement s t := by
  have hred := sameRun_redact hstack hsame rfl hs.1 ht.1
  obtain ⟨-, hrec, -, -, -, -, -, -, -, hpool, hstore⟩ := Dispatch.mk.inj hred
  have hfail : s.recording.failure = t.recording.failure := by
    show s.recording.redact.failure = t.recording.redact.failure
    rw [hrec]
  exact ⟨by rw [hfail], hpool, hstore⟩

def result? : AgyEvent → Option ResultEvent
  | .result r => some r
  | _ => none

/-- Events that are results are given by them. -/
theorem eq_results {evs : List AgyEvent} {rs : List ResultEvent} (h : evs.map result? = rs.map some) :
    evs = rs.map .result := by
  induction evs generalizing rs with
  | nil =>
    cases rs with
    | nil => rfl
    | cons r rs => cases h
  | cons ev evs ih =>
    cases rs with
    | nil => cases h
    | cons r rs =>
      obtain ⟨hev, hevs⟩ := List.cons.inj h
      rw [ih hevs, List.map_cons]
      cases ev with
      | result r' => rw [Option.some.inj hev]
      | _ => cases hev

/-- The events of a text whose lines are results. -/
theorem textEvents_results (rs ls : List ResultEvent) {text : JsString}
    (h : (textEvents stack text).map (Prod.map (List.map result?) (List.map result?)) =
      some (rs.map some, ls.map some)) : textEvents stack text = some (rs.map .result, ls.map .result) := by
  obtain ⟨⟨evs, last⟩, he, hp⟩ := Option.map_eq_some_iff.mp h
  obtain ⟨h1, h2⟩ := Prod.mk.inj hp
  rw [he, eq_results h1, eq_results h2]

/-- A result with that response. -/
def responseEvent (response : JsString) : ResultEvent := ⟨[], true, response, none, .empty⟩

/-- The line of a result with that response. -/
def responseLine (response : String) : JsString :=
  js "\x7b\"event\":\"result\",\"response\":\"" ++ js response ++ js "\"\x7d\n"

/-- Two processes that say one result each, in good lines, are the same but for the response. -/
theorem sameProcess_responses (r r' : ResultEvent) {ps qs : List DispatchAction}
    (hr : ({ r with response := redactText r.response } : ResultEvent) = { r' with response := redactText r'.response })
    (hps : ∀ a ∈ ps, whileLive a = true) (hqs : ∀ a ∈ qs, whileLive a = true) (hrest : rest ps = rest qs)
    (hcap : (output ps).length ≤ MAX_PENDING_CHARS) (hcap' : (output qs).length ≤ MAX_PENDING_CHARS)
    (hp : (textEvents stack (output ps)).map (Prod.map (List.map result?) (List.map result?)) = some ([some r], []))
    (hq : (textEvents stack (output qs)).map (Prod.map (List.map result?) (List.map result?)) =
      some ([some r'], [])) : SameProcess stack ps qs where
  live := hps
  live' := hqs
  rest := hrest
  underCap := underCap_of_length hcap
  underCap' := underCap_of_length hcap'
  events := by
    rw [redactedEvents, redactedEvents, textEvents_results [r] [] hp, textEvents_results [r'] [] hq]
    simp only [Option.map_some, Prod.map_apply, List.map_cons, List.map_nil, AgyEvent.redact, hr]

/-- One process that says its piece and exits well. -/
def oneProcess (ps : List DispatchAction) : List DispatchAction :=
  .taskTurn .spawned :: (ps ++ [.exit ⟨some 0, none, 900, none⟩])

/-- A greeting in one chunk. -/
def shortGreeting : List DispatchAction := [.stdout (responseLine "hi")]

/-- A longer greeting in two chunks. -/
def longGreeting : List DispatchAction :=
  [.stdout ((responseLine "hello there").take 30), .stdout ((responseLine "hello there").drop 30)]

/-- A response that talks of signing in. -/
def signInTalk : List DispatchAction := [.stdout (responseLine "please sign in at the desk")]

/-- Two greetings settle alike. -/
theorem settlement_unswayed_greetings : ∃ s t, Settles 10000 promptCall dispatchRunId (oneProcess shortGreeting) s ∧
    Settles 10000 promptCall dispatchRunId (oneProcess longGreeting) t ∧ SameSettlement s t := by
  obtain ⟨s, hs, hsd⟩ := Option.map_eq_some_iff.mp
    (show (exec (step 10000) (Dispatch.init promptCall dispatchRunId) (oneProcess shortGreeting)).map
      isDone = some true by decide +kernel)
  obtain ⟨t, ht, htd⟩ := Option.map_eq_some_iff.mp
    (show (exec (step 10000) (Dispatch.init promptCall dispatchRunId) (oneProcess longGreeting)).map
      isDone = some true by decide +kernel)
  have hsame : SameProcess 10000 shortGreeting longGreeting :=
    sameProcess_responses (responseEvent (js "hi")) (responseEvent (js "hello there"))
      (by decide +kernel) (by decide +kernel) (by decide +kernel) rfl (by decide +kernel) (by decide +kernel)
      (by decide +kernel) (by decide +kernel)
  have hok : Unswayed 10000 shortGreeting longGreeting :=
    ⟨by decide +kernel, by decide +kernel, by decide +kernel⟩
  exact ⟨s, t, ⟨hs, hsd⟩, ⟨ht, htd⟩,
    settlement_unswayed (by omega) (.process hsame hok .done) ⟨hs, hsd⟩ ⟨ht, htd⟩⟩

/-- A response that merely talks of signing in: the run settles as an authentication failure, where the same
run with a greeting settles well. -/
theorem not_settlement_signInTalk : ∃ s t, SameRun 10000 (fun _ _ => True) (oneProcess shortGreeting)
      (oneProcess signInTalk) ∧ Settles 10000 promptCall dispatchRunId (oneProcess shortGreeting) s ∧
    Settles 10000 promptCall dispatchRunId (oneProcess signInTalk) t ∧ ¬ SameSettlement s t := by
  obtain ⟨s, hs, hsd⟩ := Option.map_eq_some_iff.mp
    (show (exec (step 10000) (Dispatch.init promptCall dispatchRunId) (oneProcess shortGreeting)).map
      (fun s => (s.isDone, s.recording.failure.map RecordingFailure.code)) = some (true, none)
      by decide +kernel)
  obtain ⟨t, ht, htd⟩ := Option.map_eq_some_iff.mp
    (show (exec (step 10000) (Dispatch.init promptCall dispatchRunId) (oneProcess signInTalk)).map
      (fun s => (s.isDone, s.recording.failure.map RecordingFailure.code)) =
        some (true, some .auth) by decide +kernel)
  have hsame : SameProcess 10000 shortGreeting signInTalk :=
    sameProcess_responses (responseEvent (js "hi")) (responseEvent (js "please sign in at the desk"))
      (by decide +kernel) (by decide +kernel) (by decide +kernel) rfl (by decide +kernel) (by decide +kernel)
      (by decide +kernel) (by decide +kernel)
  obtain ⟨hs1, hs2⟩ := Prod.mk.inj hsd
  obtain ⟨ht1, ht2⟩ := Prod.mk.inj htd
  refine ⟨s, t, .process hsame trivial .done, ⟨hs, hs1⟩, ⟨ht, ht1⟩, fun h => ?_⟩
  have hcode := h.code
  rw [hs2, ht2] at hcode
  cases hcode

end Dispatch

end Runs

end AgyProxy
