import AgyProxy.Lib.Timers

/-!
# AgyProxy.Host.KillLadder — how a child process is brought down (`src/host/runner.ts`)

The watchdog, the abort listener and the kill ladder of `startAgyProcess` on POSIX, as a guarded step function: a
silent process, an abort of the call's signal and `kill()` each send a first `SIGTERM`; a process that survives it is
sent `SIGKILL` after one grace period and once more, directly, after two.

* `KillLadder`: the flags, the three timers and the blows sent so far; `killTree`, `refreshWatchdog`, `finish`.
* `step`: any interleaving of output, aborts, `kill()` calls, the timers, the exit and the passing of time.

What the process prints is in `Host.Runner`.  A timer of the source fires at its deadline or later.  The two times
are whole milliseconds here; `config.ts` takes any finite number for `timeoutMs`, and one that is not positive arms
no watchdog, as 0 does.
-/

namespace AgyProxy

open Lib

/-- One signal sent to the process. -/
inductive Blow
  /-- `sendKill(child, false)`: `SIGTERM` to the group -/
  | term
  /-- `sendKill(child, true)`: `SIGKILL` to the group -/
  | kill
  /-- `child.kill('SIGKILL')` -/
  | killChild
deriving DecidableEq

inductive KillReason
  | timeout | abort
deriving DecidableEq

structure KillLadder where
  /-- `opts.timeoutMs`; 0 for none -/
  timeoutMs : ℕ
  /-- `Math.max(0, opts.killGraceMs ?? GRACE_MS)`; the constant is 5000 -/
  graceMs : ℕ
  clock : ℕ
  timedOut : Bool
  aborted : Bool
  settled : Bool
  escalated : Bool
  /-- the `abort` listener is registered -/
  listening : Bool
  watchdog : Timer
  escalationTimer : Timer
  finalKillTimer : Timer
  /-- history: the blows with their times, the first one first -/
  blows : List (ℕ × Blow)
  /-- history: when the process started or last wrote something -/
  lastOutput : ℕ
deriving DecidableEq

inductive LadderAction
  | tick (now : ℕ)
  /-- a piece of stdout or stderr -/
  | output
  /-- the call's signal aborts -/
  | abort
  /-- `kill(reason)` of the running process -/
  | kill (reason : KillReason)
  | watchdogFires
  | escalationFires
  | finalKillFires
  /-- the child's `'exit'` or `'error'` -/
  | finish

namespace KillLadder

/-- The three timers. -/
def timers (s : KillLadder) : List Timer := [s.watchdog, s.escalationTimer, s.finalKillTimer]

def sendBlow (s : KillLadder) (b : Blow) : KillLadder := { s with blows := s.blows ++ [(s.clock, b)] }

/-- The armed escalation of the ladder. -/
def escalate (s : KillLadder) : KillLadder :=
  { s with
    escalated := true
    escalationTimer := some (s.clock + s.graceMs)
    finalKillTimer := some (s.clock + s.graceMs * 2) }

/-- `killTree(false)`; its other calls pass `force` and only send the blow. -/
def killTree (s : KillLadder) : KillLadder :=
  let s := s.sendBlow .term
  if s.escalated || s.settled || s.graceMs == 0 then s else s.escalate

def refreshWatchdog (s : KillLadder) : KillLadder :=
  if s.timeoutMs == 0 || s.settled then s else { s with watchdog := some (s.clock + s.timeoutMs) }

/-- `startAgyProcess` behind its `spawn`. -/
def start (timeoutMs graceMs now : ℕ) (signal : Bool) : KillLadder :=
  refreshWatchdog
    { timeoutMs, graceMs
      clock := now
      timedOut := false
      aborted := false
      settled := false
      escalated := false
      listening := signal
      watchdog := none
      escalationTimer := none
      finalKillTimer := none
      blows := []
      lastOutput := now }

def output (s : KillLadder) : KillLadder := { s.refreshWatchdog with lastOutput := s.clock }

/-- `onAbort`, registered with `once`. -/
def onAbort (s : KillLadder) : KillLadder := killTree { s with aborted := true, listening := false }

/-- `kill` of the `RunningProcess`. -/
def kill (s : KillLadder) : KillReason → KillLadder
  | .timeout => killTree { s with timedOut := true, watchdog := none }
  | .abort => killTree { s with aborted := true, watchdog := none }

def onWatchdog (s : KillLadder) : KillLadder := killTree { s with timedOut := true, watchdog := none }

def onEscalation (s : KillLadder) : KillLadder :=
  let s := { s with escalationTimer := none }
  if s.settled then s else s.sendBlow .kill

def onFinalKill (s : KillLadder) : KillLadder :=
  let s := { s with finalKillTimer := none }
  if s.settled then s else s.sendBlow .killChild

/-- `finish`, `disarmEscalation` with it. -/
def finish (s : KillLadder) : KillLadder :=
  if s.settled then s
  else { s with settled := true, watchdog := none, escalationTimer := none, finalKillTimer := none, listening := false }

/-- One action; `none` when it is not enabled. -/
def step (s : KillLadder) : LadderAction → Option KillLadder
  | .tick now => if s.clock ≤ now then some { s with clock := now } else none
  | .output => some s.output
  | .abort => some (if s.listening then s.onAbort else s)
  | .kill reason => some (s.kill reason)
  | .watchdogFires => if s.watchdog.ready s.clock then some s.onWatchdog else none
  | .escalationFires => if s.escalationTimer.ready s.clock then some s.onEscalation else none
  | .finalKillFires => if s.finalKillTimer.ready s.clock then some s.onFinalKill else none
  | .finish => some s.finish

end KillLadder

end AgyProxy
