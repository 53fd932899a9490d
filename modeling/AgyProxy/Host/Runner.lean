import AgyProxy.Common.Types

/-!
# AgyProxy.Host.Runner — what a child process leaves behind (`src/host/runner.ts`)

The buffers of `startAgyProcess` for a process whose stdout goes to a chunk consumer, and the outcome
built from them when it exits.  The kill ladder and the timers themselves are the environment's: the
watchdog and an abort only set their flag here.  A child `error` is a last piece of stderr followed by an
exit with neither code nor signal.
-/

namespace AgyProxy

open Js

/-- The outcome of one process; `code` is null when a signal ended it or it never ran. -/
structure RunOutcome where
  code : Option ℤ
  signal : Option JsString
  timedOut : Bool
  aborted : Bool
  /-- head and tail excerpt of the stream -/
  stdout : JsString
  stderrTail : JsString
  durationMs : ℕ

def HEAD_KEEP : ℕ := 4096
def TAIL_KEEP : ℕ := 65536
def STDERR_KEEP : ℕ := 4096

/-- `s.slice(-n)` for a positive `n`. -/
def sliceLast (n : ℕ) (s : JsString) : JsString := s.drop (s.length - n)

/-- The buffers and flags of a running process. -/
structure Capture where
  stdoutHead : JsString
  stdoutTail : JsString
  stdoutTotal : ℕ
  stderr : JsString
  timedOut : Bool
  aborted : Bool

namespace Capture

def new : Capture := ⟨[], [], 0, [], false, false⟩

/-- The stdout handler, up to the call of the consumer. -/
def onStdout (c : Capture) (chunk : JsString) : Capture :=
  let tail := c.stdoutTail ++ chunk
  { c with
    stdoutTotal := c.stdoutTotal + chunk.length
    stdoutHead :=
      if c.stdoutHead.length < HEAD_KEEP then (c.stdoutHead ++ chunk).take HEAD_KEEP else c.stdoutHead
    stdoutTail := if TAIL_KEEP * 2 < tail.length then sliceLast (TAIL_KEEP * 2) tail else tail }

def onStderr (c : Capture) (chunk : JsString) : Capture :=
  let stderr := c.stderr ++ chunk
  { c with stderr := if STDERR_KEEP * 2 < stderr.length then sliceLast (STDERR_KEEP * 2) stderr else stderr }

/-- `safeOnChunk`: what the consumer throws is parked in the stderr tail. -/
def park (c : Capture) (err : JsError) : Capture :=
  { c with stderr := sliceLast STDERR_KEEP (c.stderr ++ js "[onChunk] " ++ err.toJsString) }

def onWatchdog (c : Capture) : Capture := { c with timedOut := true }

/-- `kill('abort')`, or the abort of the call's signal. -/
def onAbort (c : Capture) : Capture := { c with aborted := true }

/-- `finish`: the outcome the promise resolves to. -/
def outcome (c : Capture) (code : Option ℤ) (signal : Option JsString) (durationMs : ℕ) : RunOutcome where
  code
  signal
  timedOut := c.timedOut
  aborted := c.aborted
  -- the tail is left out when the whole stream fits into the head
  stdout := if c.stdoutTotal ≤ HEAD_KEEP then c.stdoutHead
    else c.stdoutHead ++ sliceLast TAIL_KEEP c.stdoutTail
  stderrTail := sliceLast STDERR_KEEP c.stderr
  durationMs

@[simp] theorem outcome_timedOut (c : Capture) (code : Option ℤ) (signal : Option JsString) (durationMs : ℕ) :
    (c.outcome code signal durationMs).timedOut = c.timedOut := by
  simp only [outcome]

@[simp] theorem outcome_aborted (c : Capture) (code : Option ℤ) (signal : Option JsString) (durationMs : ℕ) :
    (c.outcome code signal durationMs).aborted = c.aborted := by
  simp only [outcome]

@[simp] theorem outcome_stderrTail (c : Capture) (code : Option ℤ) (signal : Option JsString) (durationMs : ℕ) :
    (c.outcome code signal durationMs).stderrTail = sliceLast STDERR_KEEP c.stderr := by
  simp only [outcome]

/-! ### The head of the stream -/

/-- The head window holds the first `HEAD_KEEP` units of the stream. -/
def Holds (c : Capture) (text : JsString) : Prop :=
  c.stdoutHead = text.take HEAD_KEEP ∧ c.stdoutTotal = text.length

theorem holds_new : Capture.new.Holds [] := ⟨rfl, rfl⟩

theorem Holds.onStdout {c : Capture} {text : JsString} (h : c.Holds text) (chunk : JsString) :
    (c.onStdout chunk).Holds (text ++ chunk) := by
  refine ⟨?_, by simp [Capture.onStdout, h.2]⟩
  show (if c.stdoutHead.length < HEAD_KEEP then (c.stdoutHead ++ chunk).take HEAD_KEEP else c.stdoutHead) = _
  rw [h.1, List.length_take]
  by_cases hlen : text.length < HEAD_KEEP
  · rw [if_pos (by omega), List.take_of_length_le (le_of_lt hlen)]
  · rw [if_neg (by omega), List.take_append_of_le_length (by omega)]

/-- What the engine sniffs of the stdout excerpt is the head of the whole stream. -/
theorem Holds.outcome_head {c : Capture} {text : JsString} (h : c.Holds text) {n : ℕ} (hn : n ≤ HEAD_KEEP)
    (code : Option ℤ) (signal : Option JsString) (durationMs : ℕ) :
    (c.outcome code signal durationMs).stdout.take n = text.take n := by
  have hhead : c.stdoutHead.take n = text.take n := by
    rw [h.1, List.take_take, Nat.min_eq_left hn]
  by_cases hfit : c.stdoutTotal ≤ HEAD_KEEP
  · rw [show (c.outcome code signal durationMs).stdout = c.stdoutHead from if_pos hfit, hhead]
  · rw [show (c.outcome code signal durationMs).stdout = _ from if_neg hfit]
    have hfull : c.stdoutHead.length = HEAD_KEEP := by
      rw [h.1, List.length_take]
      have := h.2
      omega
    rw [List.take_append_of_le_length (by omega), hhead]

end Capture

end AgyProxy
