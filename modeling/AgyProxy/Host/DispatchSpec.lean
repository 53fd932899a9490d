import AgyProxy.Host.Dispatch
import AgyProxy.Host.ParserSpec

/-!
# AgyProxy.Host.DispatchSpec — one ledger row per settled run

* `step_fires`: the phase an action of the dispatch loop needs, and the state it leaves.
* `step_cases`: what it does to the calls, said once.
* `booked_eq`: the books hold one row and one event for each final `onRun` call.
* `booked_once_iff`: a settled run is booked once exactly when each of its steps meets `FiresFinal`.
-/

namespace AgyProxy

open Js Lib

/-! ### What an action can do -/

section Actions

variable {stack : ℕ}

namespace Dispatch

/-- The loop neither called anything nor left a phase for good. -/
structure SameCalls (s s' : Dispatch) : Prop where
  call : s'.call = s.call
  runs : s'.runs = s.runs
  spawns : s'.spawns = s.spawns
  poolOps : s'.poolOps = s.poolOps
  storeOps : s'.storeOps = s.storeOps
  done : s'.phase = .done ↔ s.phase = .done
  delaying : ∀ last, s'.phase = .delaying last → s.phase = .delaying last

/-- **What one action can do.** -/
inductive Effect (stack : ℕ) (s : Dispatch) : DispatchAction → Dispatch → Prop
  | quiet {a : DispatchAction} {s' : Dispatch} : SameCalls s s' →
      (∀ x, a ≠ .exit x) → (∀ sel, a = .delayEnds sel → s.superseded = false ∧ sel ≠ .noneFound) →
      Effect stack s a s'
  | spawn : s.phase ≠ .done → s.superseded = false → Effect stack s (.taskTurn .spawned)
      { s with phase := .live .new, spawns := s.spawns ++ [⟨s.attemptAccount, s.conversationArg⟩] }
  /-- an attempt that never had a process -/
  | noProcess {turn : TaskTurn} {r : AttemptResult} : s.phase ≠ .done → r.failure.isSome → r.account = s.attemptAccount →
      Effect stack s (.taskTurn turn) (s.conclude r)
  | exit {l : LiveAttempt} {x : ProcessExit} {recording : RunRecording} {r : AttemptResult} : s.phase = .live l →
      l.conclude stack s.env s.recording x = .ok (recording, r) →
      Effect stack s (.exit x) ({ s with recording }.conclude r)
  | thrown {l : LiveAttempt} {x : ProcessExit} {e : JsError} : s.phase = .live l →
      l.conclude stack s.env s.recording x = .error e → Effect stack s (.exit x) (s.settleThrown e)
  | gaveUp {last : AttemptResult} {sel : Reselection} : s.phase = .delaying last → s.superseded = true →
      Effect stack s (.delayEnds sel)
        ((s.fireRun (spawnFailedAbort s.env) true).settleRun (spawnFailedAbort s.env))
  | unretried {last : AttemptResult} : s.phase = .delaying last → s.superseded = false →
      Effect stack s (.delayEnds .noneFound) (s.settleRun last)

theorem abortProcess_same (s : Dispatch) : SameCalls s s.abortProcess := by
  unfold abortProcess
  cases hp : s.phase with
  | live l => exact ⟨rfl, rfl, rfl, rfl, rfl, by simp [hp], by simp⟩
  | _ => exact ⟨rfl, rfl, rfl, rfl, rfl, Iff.rfl, fun _ h => hp ▸ h⟩

theorem startTask_cases {s s' : Dispatch} {turn : TaskTurn} (hp : s.phase ≠ .done)
    (hs : s.superseded = false) (h : s.startTask turn = some s') : Effect stack s (.taskTurn turn) s' := by
  cases turn with
  | spaced =>
    simp only [startTask] at h
    split at h
    · obtain rfl := Option.some.inj h
      exact .quiet ⟨rfl, rfl, rfl, rfl, rfl, by simp [hp], by simp⟩ (by simp) (by simp)
    · cases h
  | spawned =>
    obtain rfl := Option.some.inj h
    exact .spawn hp hs
  | spawnThrew msg =>
    obtain rfl := Option.some.inj h
    exact .noProcess hp rfl rfl

theorem runTask_cases {s s' : Dispatch} {turn : TaskTurn} (hp : s.phase ≠ .done)
    (h : s.runTask turn = some s') : Effect stack s (.taskTurn turn) s' := by
  unfold runTask at h
  split_ifs at h with hs
  · obtain rfl := Option.some.inj h
    exact .noProcess hp (spawnFailedAbort_failure _) rfl
  · exact startTask_cases hp (by simpa using hs) h

/-- Without an early settlement the loop's top goes on to the next round. -/
theorem nextRound_eq {s : Dispatch} (h : s.superseded = false) : s.nextRound = { s with phase := .queued } := by
  have hs : s.recording.settled = false := by
    simp only [superseded, Bool.or_eq_false_iff] at h
    exact h.1.1
  unfold nextRound
  rw [hs]
  rfl

theorem retry_cases {s : Dispatch} {last : AttemptResult} (sel : Reselection) (hp : s.phase = .delaying last) :
    Effect stack s (.delayEnds sel) (s.retry last sel) := by
  cases hs : s.superseded with
  | true =>
    rw [show s.retry last sel = _ from if_pos hs]
    exact .gaveUp hp hs
  | false =>
    unfold Dispatch.retry
    rw [if_neg (by simp [hs])]
    cases sel with
    | noAccounts =>
      show Effect stack s _ s.nextRound
      rw [nextRound_eq hs]
      exact .quiet ⟨rfl, rfl, rfl, rfl, rfl, by simp [hp], by simp⟩ (by simp) (by simp [hs])
    | noneFound => exact .unretried hp hs
    | found id =>
      show Effect stack s _ ({ s with attemptAccount := some id } : Dispatch).nextRound
      rw [nextRound_eq (s := { s with attemptAccount := some id }) hs]
      exact .quiet ⟨rfl, rfl, rfl, rfl, rfl, by simp [hp], by simp⟩ (by simp) (by simp [hs])

/-- A change of the live attempt only. -/
theorem live_same {s s' : Dispatch} {l l' : LiveAttempt} (hp : s.phase = .live l)
    (h : s' = { s with recording := s'.recording, phase := .live l' }) : SameCalls s s' := by
  rw [h]
  exact ⟨rfl, rfl, rfl, rfl, rfl, by simp [hp], by simp⟩

/-- The phase an action needs, and the state it leaves. -/
inductive Fires (stack : ℕ) (s : Dispatch) : DispatchAction → Dispatch → Prop
  | steer : Fires stack s .steer { s.abortProcess with steerAborted := true }
  | abortSignal {reason : JsString} : s.reason = none →
      Fires stack s (.abortSignal reason) { s.abortProcess with reason := some reason }
  | taskTurn {turn : TaskTurn} {s' : Dispatch} : s.phase = .queued ∨ s.phase = .spacing →
      s.runTask turn = some s' → Fires stack s (.taskTurn turn) s'
  | stdout {l : LiveAttempt} {chunk : JsString} : s.phase = .live l →
      Fires stack s (.stdout chunk) (s.onStdout stack l chunk)
  | stderr {l : LiveAttempt} {chunk : JsString} : s.phase = .live l →
      Fires stack s (.stderr chunk) { s with phase := .live { l with capture := l.capture.onStderr chunk } }
  | watchdog {l : LiveAttempt} : s.phase = .live l →
      Fires stack s .watchdog { s with phase := .live { l with capture := l.capture.onWatchdog } }
  | exit {l : LiveAttempt} {x : ProcessExit} : s.phase = .live l → Fires stack s (.exit x) (s.onExit stack l x)
  | delayEnds {last : AttemptResult} {sel : Reselection} : s.phase = .delaying last →
      Fires stack s (.delayEnds sel) (s.retry last sel)

theorem step_fires {s s' : Dispatch} {a : DispatchAction} (h : s.step stack a = some s') : Fires stack s a s' := by
  cases a with
  | steer =>
    obtain rfl := Option.some.inj h
    exact .steer
  | abortSignal reason =>
    obtain ⟨hreason, heq⟩ := Option.ite_none_left_eq_some.mp h
    obtain rfl := Option.some.inj heq
    exact .abortSignal (Option.not_isSome_iff_eq_none.mp hreason)
  | taskTurn turn =>
    cases hp : s.phase with
    | queued =>
      simp only [step, hp] at h
      exact .taskTurn (Or.inl hp) h
    | spacing =>
      simp only [step, hp] at h
      exact .taskTurn (Or.inr hp) h
    | _ => simp [step, hp] at h
  | delayEnds sel =>
    cases hp : s.phase with
    | delaying last =>
      simp only [step, hp] at h
      obtain rfl := Option.some.inj h
      exact .delayEnds hp
    | _ => simp [step, hp] at h
  | stdout chunk =>
    cases hp : s.phase with
    | live l =>
      simp only [step, hp] at h
      obtain rfl := Option.some.inj h
      exact .stdout hp
    | _ => simp [step, hp] at h
  | stderr chunk =>
    cases hp : s.phase with
    | live l =>
      simp only [step, hp] at h
      obtain rfl := Option.some.inj h
      exact .stderr hp
    | _ => simp [step, hp] at h
  | watchdog =>
    cases hp : s.phase with
    | live l =>
      simp only [step, hp] at h
      obtain rfl := Option.some.inj h
      exact .watchdog hp
    | _ => simp [step, hp] at h
  | exit x =>
    cases hp : s.phase with
    | live l =>
      simp only [step, hp] at h
      obtain rfl := Option.some.inj h
      exact .exit hp
    | _ => simp [step, hp] at h

theorem step_cases {s s' : Dispatch} {a : DispatchAction} (h : s.step stack a = some s') :
    Effect stack s a s' := by
  cases step_fires h with
  | steer =>
    obtain ⟨h1, h2, h3, h4, h5, h6, h7⟩ := abortProcess_same s
    exact .quiet ⟨h1, h2, h3, h4, h5, h6, h7⟩ (by simp) (by simp)
  | abortSignal =>
    obtain ⟨h1, h2, h3, h4, h5, h6, h7⟩ := abortProcess_same s
    exact .quiet ⟨h1, h2, h3, h4, h5, h6, h7⟩ (by simp) (by simp)
  | taskTurn hp h =>
    rcases hp with hp | hp
    · exact runTask_cases (by simp [hp]) h
    · exact runTask_cases (by simp [hp]) h
  | stdout hp => exact .quiet (live_same hp rfl) (by simp) (by simp)
  | stderr hp => exact .quiet (live_same hp rfl) (by simp) (by simp)
  | watchdog hp => exact .quiet (live_same hp rfl) (by simp) (by simp)
  | @exit l x hp =>
    unfold onExit
    cases hc : l.conclude stack s.env s.recording x with
    | error e => exact .thrown hp hc
    | ok p => exact .exit hp hc
  | delayEnds hp => exact retry_cases _ hp

end Dispatch

end Actions

/-! ### The books -/

section Books

theorem onRun_concat (b : Books) (runs : List RunInfo) :
    runs.foldl onRun b = ⟨b.ledger ++ (runs.filter RunInfo.final).map RunInfo.ledgerRow,
      b.runEvents ++ (runs.filter RunInfo.final).map RunInfo.busRun⟩ := by
  induction runs generalizing b with
  | nil => simp
  | cons i runs ih =>
    rw [List.foldl_cons, ih]
    cases hf : i.final with
    | true => simp [onRun, hf]
    | false => simp [onRun, hf]

/-- **The books**: a ledger row and a run event for each final call, in order. -/
theorem booked_eq (runs : List RunInfo) :
    booked runs = ⟨(runs.filter RunInfo.final).map RunInfo.ledgerRow,
      (runs.filter RunInfo.final).map RunInfo.busRun⟩ := onRun_concat ⟨[], []⟩ runs

end Books

/-! ### Exactly one final call -/

section Booked

variable {stack : ℕ}

namespace Dispatch

/-- `onRun` was called with `final` exactly once, and so one ledger row and one run event are booked. -/
def BookedOnce (s : Dispatch) : Prop :=
  ∃ i, s.runs.filter RunInfo.final = [i] ∧ booked s.runs = ⟨[i.ledgerRow], [i.busRun]⟩

theorem bookedOnce_iff (s : Dispatch) : s.BookedOnce ↔ ∃ i, s.runs.filter RunInfo.final = [i] := by
  refine exists_congr fun i => ⟨And.left, fun h => ⟨h, ?_⟩⟩
  rw [booked_eq, h]
  rfl

/-- The unterminated line a live attempt's parser holds. -/
def pendingLine? (s : Dispatch) : Option JsString :=
  match s.phase with
  | .live l => some l.parser.buffer
  | _ => none

/-- The step does not leave the loop behind `fireRun`'s back: the line flushed at an exit is none the
parser throws on, and a re-selection before a retry finds an account, when the pool has any. -/
def FiresFinal (stack : ℕ) (s : Dispatch) : DispatchAction → Prop
  | .exit _ => s.pendingLine?.any (badLine stack) = false
  | .delayEnds selected => s.superseded = true ∨ selected ≠ .noneFound
  | _ => True

instance : ∀ (s : Dispatch) (a : DispatchAction), Decidable (FiresFinal stack s a)
  | s, .exit _ => inferInstanceAs (Decidable (s.pendingLine?.any (badLine stack) = false))
  | s, .delayEnds selected => inferInstanceAs (Decidable (s.superseded = true ∨ selected ≠ .noneFound))
  | _, .steer | _, .abortSignal _ | _, .taskTurn _ | _, .stdout _ | _, .stderr _ | _, .watchdog =>
    inferInstanceAs (Decidable True)

/-- No final call yet, and the loop still runs. -/
def Unbooked (s : Dispatch) : Prop := s.phase ≠ .done ∧ s.runs.filter RunInfo.final = []

def Booked (s : Dispatch) : Prop := s.phase = .done ∧ ∃ i, s.runs.filter RunInfo.final = [i]

/-- The loop ended without a final call. -/
def Lost (s : Dispatch) : Prop := s.phase = .done ∧ s.runs.filter RunInfo.final = []

/-- The end of an attempt fires the final call exactly when it settles. -/
theorem conclude_books {s : Dispatch} (h : s.runs.filter RunInfo.final = []) (r : AttemptResult) :
    (s.conclude r).Unbooked ∨ (s.conclude r).Booked := by
  cases hf : s.isFinal r with
  | true =>
    rw [show s.conclude r = (s.fireRun r true).settleRun r from if_pos hf]
    exact Or.inr ⟨rfl, s.runInfo r true, by simp [settleRun, fireRun, h, runInfo]⟩
  | false =>
    rw [show s.conclude r = _ from if_neg (by simp [hf])]
    exact Or.inl ⟨by simp, by simp [fireRun, h, runInfo]⟩

/-- The flush at an exit throws exactly on a bad line. -/
theorem conclude_isOk_iff (hstack : 2 ≤ stack) (env : AttemptEnv) (rec : RunRecording) (l : LiveAttempt)
    (x : ProcessExit) : (∃ p, l.conclude stack env rec x = .ok p) ↔ badLine stack l.parser.buffer = false := by
  unfold LiveAttempt.conclude
  cases hb : badLine stack l.parser.buffer with
  | true =>
    obtain ⟨e, he⟩ := flush_bad hstack l.parser hb
    obtain ⟨q, hq⟩ : ∃ q, l.parser.flush stack = (.error e, q) := ⟨_, Prod.ext he rfl⟩
    simp [hq]
  | false =>
    obtain ⟨evs, he, -⟩ := flush_good hstack l.parser hb
    obtain ⟨q, hq⟩ : ∃ q, l.parser.flush stack = (.ok evs, q) := ⟨_, Prod.ext he rfl⟩
    simp [hq]

theorem Unbooked.step (hstack : 2 ≤ stack) {s s' : Dispatch} {a : DispatchAction} (hs : s.Unbooked)
    (h : s.step stack a = some s') :
    FiresFinal stack s a ∧ (s'.Unbooked ∨ s'.Booked) ∨ ¬ FiresFinal stack s a ∧ s'.Lost := by
  obtain ⟨hnd, hnone⟩ := hs
  cases step_cases h with
  | quiet hsame hexit hdelay =>
    refine Or.inl ⟨?_, Or.inl ⟨fun hd => hnd (hsame.done.mp hd), hsame.runs ▸ hnone⟩⟩
    cases a with
    | exit x => exact absurd rfl (hexit x)
    | delayEnds sel => exact Or.inr (hdelay sel rfl).2
    | _ => trivial
  | spawn => exact Or.inl ⟨trivial, Or.inl ⟨by simp, hnone⟩⟩
  | noProcess => exact Or.inl ⟨trivial, conclude_books hnone _⟩
  | @exit l x recording r hp hc =>
    have hgood := (conclude_isOk_iff hstack _ _ _ _).mp ⟨_, hc⟩
    have hbooks := conclude_books (s := { s with recording }) hnone r
    exact Or.inl ⟨by simp [FiresFinal, pendingLine?, hp, hgood], hbooks⟩
  | @thrown l x e hp hc =>
    have hbad : badLine stack l.parser.buffer ≠ false := by
      intro hgood
      obtain ⟨p, hok⟩ := (conclude_isOk_iff hstack s.env s.recording l x).mpr hgood
      rw [hc] at hok
      cases hok
    exact Or.inr ⟨by simpa [FiresFinal, pendingLine?, hp] using hbad, rfl, hnone⟩
  | gaveUp _ hsup =>
    exact Or.inl ⟨Or.inl hsup, Or.inr ⟨rfl, s.runInfo (spawnFailedAbort s.env) true,
      by simp [settleRun, fireRun, hnone, runInfo]⟩⟩
  | unretried _ hsup => exact Or.inr ⟨by simp [FiresFinal, hsup], rfl, hnone⟩

/-- After the settlement only the flags of the two ways to give up still change. -/
theorem done_step {s s' : Dispatch} {a : DispatchAction} (hd : s.phase = .done) (h : s.step stack a = some s') :
    FiresFinal stack s a ∧ s'.phase = .done ∧ s'.runs = s.runs := by
  cases step_cases h with
  | quiet hsame hexit hdelay =>
    refine ⟨?_, hsame.done.mpr hd, hsame.runs⟩
    cases a with
    | exit x => exact absurd rfl (hexit x)
    | delayEnds sel => exact Or.inr (hdelay sel rfl).2
    | _ => trivial
  | spawn hnd => exact absurd hd hnd
  | noProcess hnd => exact absurd hd hnd
  | exit hp => simp [hd] at hp
  | thrown hp => simp [hd] at hp
  | gaveUp hp => simp [hd] at hp
  | unretried hp => simp [hd] at hp

end Dispatch

open Dispatch

/-- **One ledger row per run**: a settled run is booked exactly once if and only if no step of it throws in
the flush at an exit, or leaves the loop because the re-selection before a retry found no account. -/
theorem booked_once_iff (hstack : 2 ≤ stack) {call : DispatchCall} {runId : RunId}
    {as : List DispatchAction} {s : Dispatch} (h : Settles stack call runId as s) :
    s.BookedOnce ↔ Every (step stack) (FiresFinal stack) (Dispatch.init call runId) as := by
  have hinit : (Dispatch.init call runId).Unbooked := ⟨by simp [Dispatch.init], rfl⟩
  have hgood : ∀ (s : Dispatch) a s', s.Booked → s.step stack a = some s' → FiresFinal stack s a ∧ s'.Booked := by
    intro s a s' hs h
    obtain ⟨hok, hd, hr⟩ := done_step hs.1 h
    exact ⟨hok, hd, hr ▸ hs.2⟩
  have hlost : ∀ (s : Dispatch) a s', s.Lost → s.step stack a = some s' → s'.Lost := by
    intro s a s' hs h
    obtain ⟨-, hd, hr⟩ := done_step hs.1 h
    exact ⟨hd, hr ▸ hs.2⟩
  have hdone : s.phase = .done := by
    have hm := h.2
    cases hp : s.phase <;> simp_all
  have hrun := exec_dichotomy (fun s a s' hs h => Unbooked.step hstack hs h) hgood hlost as _ s (Or.inl hinit) h.1
  rw [bookedOnce_iff]
  rcases hrun with ⟨hall, hs | hs⟩ | ⟨hall, hs⟩
  · exact absurd hdone hs.1
  · exact ⟨fun _ => hall, fun _ => hs.2⟩
  · exact ⟨fun hi => by simp [hs.2] at hi, fun h => absurd h hall⟩

def accountA : AccountId := ⟨js "acc_1_a", by decide⟩
def accountB : AccountId := ⟨js "acc_2_b", by decide⟩

/-- A first prompt that was given an account of the pool. -/
def promptCall : DispatchCall where
  account := some accountA
  sessionAccountKey := js "root::acc_1_a"
  binding := none
  family := .google
  model := js "gemini-3.6-flash"
  activeModel := js "gemini-3.6-flash"
  defaultModel := js "gemini-3.6-flash"
  messageCount := 1
  timeoutMs := 300000
  callMeta := ⟨some (js "req-1"), none, .openai⟩

def dispatchRunId : RunId := ⟨js "run-1", by decide⟩

/-- A crash, rescued by the retry on another account. -/
theorem booked_once_rescued : ∃ s, Settles 10000 promptCall dispatchRunId
    [.taskTurn .spawned, .exit ⟨some 1, none, 900, none⟩, .delayEnds (.found accountB), .taskTurn .spaced,
      .taskTurn .spawned, .stdout (js "\x7b\"event\":\"result\",\"response\":\"hi\"\x7d\n"),
      .exit ⟨some 0, none, 900, none⟩] s ∧ s.BookedOnce := by
  obtain ⟨s, hs, hd⟩ := Option.map_eq_some_iff.mp
    (show (exec (step 10000) (Dispatch.init promptCall dispatchRunId) [.taskTurn .spawned,
      .exit ⟨some 1, none, 900, none⟩, .delayEnds (.found accountB), .taskTurn .spaced, .taskTurn .spawned,
      .stdout (js "\x7b\"event\":\"result\",\"response\":\"hi\"\x7d\n"), .exit ⟨some 0, none, 900, none⟩]).map
        Dispatch.isDone = some true by decide +kernel)
  exact ⟨s, ⟨hs, hd⟩, (booked_once_iff (by omega) ⟨hs, hd⟩).mpr (by decide +kernel)⟩

/-- A crash, and no account left for the retry: the run settles with no final call. -/
theorem not_booked_once_noAccountLeft : ∃ s, Settles 10000 promptCall dispatchRunId
    [.taskTurn .spawned, .exit ⟨some 1, none, 900, none⟩, .delayEnds .noneFound] s ∧ ¬ s.BookedOnce := by
  obtain ⟨s, hs, hd⟩ := Option.map_eq_some_iff.mp
    (show (exec (step 10000) (Dispatch.init promptCall dispatchRunId) [.taskTurn .spawned,
      .exit ⟨some 1, none, 900, none⟩, .delayEnds .noneFound]).map
        (fun s => (s.isDone, (s.runs.filter RunInfo.final).length)) = some (true, 0)
      by decide +kernel)
  obtain ⟨hdone, hnone⟩ := Prod.mk.inj hd
  refine ⟨s, ⟨hs, hdone⟩, fun hb => ?_⟩
  obtain ⟨i, hi⟩ := (bookedOnce_iff s).mp hb
  rw [hi] at hnone
  cases hnone

end Booked

end AgyProxy
