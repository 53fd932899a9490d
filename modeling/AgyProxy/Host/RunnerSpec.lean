import AgyProxy.Host.Runner

/-!
# AgyProxy.Host.RunnerSpec — the excerpts a process reports do not depend on its chunks

* `PipeEvent`, `Capture.feed`: whatever the pipes, the watchdog and an abort do before the process is over, in any
  order; `ProcessEnd`, `Capture.finish`: how it is over.
* `Keeps`: the buffers as functions of the whole streams; every event keeps it (`Keeps.on`).
* `finish_excerpts`: **the excerpts** are those of the whole streams.
-/

namespace AgyProxy

open Js

/-! ### The end of a string -/

/-- A cut that fits the last part sees no more. -/
theorem sliceLast_append_of_le {n : ℕ} (s : JsString) {t : JsString} (h : n ≤ t.length) :
    sliceLast n (s ++ t) = sliceLast n t := by
  unfold sliceLast
  have hlen : (s ++ t).length - n = s.length + (t.length - n) := by
    rw [List.length_append]
    omega
  rw [hlen, List.drop_append]
  have hdrop : s.drop (s.length + (t.length - n)) = [] := List.drop_eq_nil_of_le (Nat.le_add_right _ _)
  rw [hdrop, Nat.add_sub_cancel_left, List.nil_append]

theorem sliceLast_of_length_le {n : ℕ} {s : JsString} (h : s.length ≤ n) : sliceLast n s = s := by
  unfold sliceLast
  rw [Nat.sub_eq_zero_of_le h, List.drop_zero]

/-- What is cut off early is not missed by a shorter cut later. -/
theorem sliceLast_append_sliceLast {m n : ℕ} (h : m ≤ n) (s t : JsString) :
    sliceLast m (sliceLast n s ++ t) = sliceLast m (s ++ t) := by
  by_cases hfits : s.length ≤ n
  · rw [sliceLast_of_length_le hfits]
  · have hsplit : s = s.take (s.length - n) ++ sliceLast n s := (List.take_append_drop _ s).symm
    have hlen : (sliceLast n s).length = n := by
      unfold sliceLast
      rw [List.length_drop]
      omega
    conv_rhs => rw [hsplit, List.append_assoc]
    refine (sliceLast_append_of_le _ ?_).symm
    rw [List.length_append]
    omega

theorem sliceLast_sliceLast {m n : ℕ} (h : m ≤ n) (s : JsString) : sliceLast m (sliceLast n s) = sliceLast m s := by
  have hnil := sliceLast_append_sliceLast h s []
  rwa [List.append_nil, List.append_nil] at hnil

/-- The amortised trim is a cut: what fits is left as it is. -/
theorem trim_eq_sliceLast (n : ℕ) (s : JsString) : (if n < s.length then sliceLast n s else s) = sliceLast n s := by
  by_cases h : n < s.length
  · rw [if_pos h]
  · rw [if_neg h, sliceLast_of_length_le (Nat.not_lt.mp h)]

/-! ### A run -/

inductive PipeEvent
  | stdout (chunk : JsString)
  | stderr (chunk : JsString)
  | watchdog
  | abort

/-- How the outcome promise is resolved. -/
inductive ProcessEnd
  | exit (code : Option ℤ) (signal : Option JsString)
  /-- the child's `'error'`: `String(err)` is the last piece of stderr -/
  | error (text : JsString)

namespace PipeEvent

def stdout? : PipeEvent → JsString
  | stdout chunk => chunk
  | _ => []

def stderr? : PipeEvent → JsString
  | stderr chunk => chunk
  | _ => []

end PipeEvent

/-- What of stdout arrives before the process ends; what its pipe delivers later is not in the report. -/
def stdoutText (es : List PipeEvent) : JsString := es.flatMap PipeEvent.stdout?

def stderrText (es : List PipeEvent) : JsString := es.flatMap PipeEvent.stderr?

def ProcessEnd.stderr? : ProcessEnd → JsString
  | exit _ _ => []
  | error text => text

/-- The excerpt of a stream: all of it when it fits the head window, else its head and its tail. -/
def excerpt (text : JsString) : JsString :=
  if text.length ≤ HEAD_KEEP then text else text.take HEAD_KEEP ++ sliceLast TAIL_KEEP text

namespace Capture

/-- One event; the chunk consumer does not throw. -/
def on (c : Capture) : PipeEvent → Capture
  | .stdout chunk => c.onStdout chunk
  | .stderr chunk => c.onStderr chunk
  | .watchdog => c.onWatchdog
  | .abort => c.onAbort

def feed (c : Capture) (es : List PipeEvent) : Capture := es.foldl on c

/-- The `'exit'` and the `'error'` handler. -/
def finish (c : Capture) (how : ProcessEnd) (durationMs : ℕ) : RunOutcome :=
  match how with
  | .exit code signal => c.outcome code signal durationMs
  | .error text => { c with stderr := sliceLast STDERR_KEEP (c.stderr ++ text) }.outcome none none durationMs

theorem finish_exit (c : Capture) (code : Option ℤ) (signal : Option JsString) (durationMs : ℕ) :
    c.finish (.exit code signal) durationMs = c.outcome code signal durationMs := rfl

theorem finish_error (c : Capture) (text : JsString) (durationMs : ℕ) : c.finish (.error text) durationMs =
    { c with stderr := sliceLast STDERR_KEEP (c.stderr ++ text) }.outcome none none durationMs := rfl

/-- The buffers hold twice their window of the streams. -/
structure Keeps (c : Capture) (out err : JsString) : Prop where
  head : c.Holds out
  tail : c.stdoutTail = sliceLast (TAIL_KEEP * 2) out
  stderr : c.stderr = sliceLast (STDERR_KEEP * 2) err

variable {c : Capture} {out err : JsString}

theorem keeps_new : Capture.new.Keeps [] [] := ⟨holds_new, rfl, rfl⟩

theorem Keeps.onStdout (h : c.Keeps out err) (chunk : JsString) : (c.onStdout chunk).Keeps (out ++ chunk) err := by
  refine ⟨h.head.onStdout chunk, ?_, h.stderr⟩
  show (if TAIL_KEEP * 2 < (c.stdoutTail ++ chunk).length then sliceLast (TAIL_KEEP * 2) (c.stdoutTail ++ chunk)
    else c.stdoutTail ++ chunk) = _
  rw [trim_eq_sliceLast, h.tail, sliceLast_append_sliceLast le_rfl]

theorem Keeps.onStderr (h : c.Keeps out err) (chunk : JsString) : (c.onStderr chunk).Keeps out (err ++ chunk) := by
  refine ⟨h.head, h.tail, ?_⟩
  show (if STDERR_KEEP * 2 < (c.stderr ++ chunk).length then sliceLast (STDERR_KEEP * 2) (c.stderr ++ chunk)
    else c.stderr ++ chunk) = _
  rw [trim_eq_sliceLast, h.stderr, sliceLast_append_sliceLast le_rfl]

/-- **One event**. -/
theorem Keeps.on (h : c.Keeps out err) (e : PipeEvent) : (c.on e).Keeps (out ++ e.stdout?) (err ++ e.stderr?) := by
  cases e with
  | stdout chunk =>
    have hkeeps := h.onStdout chunk
    rwa [← List.append_nil err] at hkeeps
  | stderr chunk =>
    have hkeeps := h.onStderr chunk
    rwa [← List.append_nil out] at hkeeps
  | watchdog =>
    show c.onWatchdog.Keeps (out ++ []) (err ++ [])
    rw [List.append_nil, List.append_nil]
    exact ⟨h.head, h.tail, h.stderr⟩
  | abort =>
    show c.onAbort.Keeps (out ++ []) (err ++ [])
    rw [List.append_nil, List.append_nil]
    exact ⟨h.head, h.tail, h.stderr⟩

/-- **Every run**. -/
theorem Keeps.feed : ∀ (es : List PipeEvent) {c : Capture} {out err : JsString}, c.Keeps out err →
    (c.feed es).Keeps (out ++ stdoutText es) (err ++ stderrText es)
  | [], _, _, _, h => by
    rw [stdoutText, stderrText, List.flatMap_nil, List.flatMap_nil, List.append_nil, List.append_nil]
    exact h
  | e :: es, c, out, err, h => by
    have hrest := Keeps.feed es (h.on e)
    rw [List.append_assoc, List.append_assoc] at hrest
    exact hrest

/-- The reported stdout is the excerpt of the stream: the exact tail is taken from the doubled window. -/
theorem Holds.outcome_stdout (hhead : c.Holds out) (htail : c.stdoutTail = sliceLast (TAIL_KEEP * 2) out)
    (code : Option ℤ) (signal : Option JsString) (durationMs : ℕ) :
    (c.outcome code signal durationMs).stdout = excerpt out := by
  show (if c.stdoutTotal ≤ HEAD_KEEP then c.stdoutHead else c.stdoutHead ++ sliceLast TAIL_KEEP c.stdoutTail) = _
  unfold excerpt
  rw [hhead.1, hhead.2, htail, sliceLast_sliceLast (by decide)]
  by_cases hfits : out.length ≤ HEAD_KEEP
  · rw [if_pos hfits, if_pos hfits, List.take_of_length_le hfits]
  · rw [if_neg hfits, if_neg hfits]

/-- **The excerpts**: whatever the chunks and their order, the report shows the excerpt of all of stdout and the end
of all of stderr, which an `'error'` closes with its own text. -/
theorem finish_excerpts (es : List PipeEvent) (how : ProcessEnd) (durationMs : ℕ) :
    ((Capture.new.feed es).finish how durationMs).stdout = excerpt (stdoutText es) ∧
      ((Capture.new.feed es).finish how durationMs).stderrTail =
        sliceLast STDERR_KEEP (stderrText es ++ how.stderr?) := by
  have hkeeps := Keeps.feed es keeps_new
  rw [List.nil_append, List.nil_append] at hkeeps
  cases how with
  | exit code signal =>
    refine ⟨hkeeps.head.outcome_stdout hkeeps.tail code signal durationMs, ?_⟩
    rw [finish_exit, outcome_stderrTail, hkeeps.stderr, sliceLast_sliceLast (by decide)]
    exact congrArg _ (List.append_nil _).symm
  | error text =>
    rw [finish_error]
    have hhead : Holds { Capture.new.feed es with
        stderr := sliceLast STDERR_KEEP ((Capture.new.feed es).stderr ++ text) } (stdoutText es) :=
      ⟨hkeeps.head.1, hkeeps.head.2⟩
    refine ⟨hhead.outcome_stdout hkeeps.tail none none durationMs, ?_⟩
    rw [outcome_stderrTail, sliceLast_sliceLast le_rfl, hkeeps.stderr,
      sliceLast_append_sliceLast (by decide)]
    exact congrArg _ rfl

end Capture

end AgyProxy
