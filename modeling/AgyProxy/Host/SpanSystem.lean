import AgyProxy.Host.Span
import AgyProxy.Lib.Machine

/-!
# AgyProxy.Host.SpanSystem — one run, its recording and its span consumers

The concurrent part of `src/host/engine.ts`, as a guarded step function: the process pump appends, the
dispatcher settles, and any number of `driveSpan` calls read the recording, each with its own event pump,
its `ChunkQueue` and a client that drains it.  An action is what one party does between two awaits.

* `Consumer`: one `driveSpan` call.  `pump` and `drain` say where its two loops stand.
* `SpanState`: the recording, whether the registry still has it, and the consumers attached so far.
* `step`: append, settle, attach, pump, drain, and the two ways a span ends (`tail`, `finalize`).

Capacity eviction is not a step of this system.
-/

namespace AgyProxy

open Js Lib

/-- Where the event pump of a span stands. -/
inductive PumpState
  /-- about to look at the log -/
  | ready
  /-- in the waiter set of the recording -/
  | waiting
  /-- out of the loop; the failure funnel and `queue.close()` are still to come -/
  | ended
  | done
deriving DecidableEq

/-- Where the client side of a span stands. -/
inductive DrainState
  /-- about to look at the queue -/
  | ready
  /-- parked in the queue's `wake` -/
  | waiting
  /-- paused at the yield of a chunk the client has received -/
  | yielded
  /-- the loop ran to its end; the call site's tail is still to come -/
  | drained
  /-- the client returned the generator at a yield; the `finally` is still to come -/
  | returning
  | over
deriving DecidableEq

structure ChunkQueue where
  chunks : List StreamChunk
  /-- consumed-prefix cursor -/
  head : ℕ
  closed : Bool

namespace ChunkQueue

def new : ChunkQueue := ⟨[], 0, false⟩

def push (q : ChunkQueue) (out : List StreamChunk) : ChunkQueue := { q with chunks := q.chunks ++ out }

def close (q : ChunkQueue) : ChunkQueue := { q with closed := true }

/-- `chunks.splice(0, head); head = 0`. -/
def compact (q : ChunkQueue) : ChunkQueue := { q with chunks := q.chunks.drop q.head, head := 0 }

/-- What the client has not received yet. -/
def pending (q : ChunkQueue) : List StreamChunk := q.chunks.drop q.head

end ChunkQueue

/-- One `driveSpan` call. -/
structure Consumer where
  start : ℕ
  saw : Bool
  mapper : EventMapper
  /-- index of the next event to map -/
  cursor : ℕ
  pump : PumpState
  queue : ChunkQueue
  drain : DrainState
  cutOnToolEnd : Bool
  clientSawToolCall : Bool
  completed : Bool
  /-- history: everything pushed into the queue -/
  pushed : List StreamChunk
  /-- history: everything the client received -/
  delivered : List StreamChunk
  /-- history: the length of the log when the span began -/
  attachedAt : ℕ
  /-- history: a span was attached at this span's cut after its tool call was delivered -/
  resumed : Bool

structure SpanState where
  recording : RunRecording
  /-- the registry still has the recording -/
  registered : Bool
  consumers : List Consumer
  /-- the usage of the final `onRun` -/
  billed : Option (Option TokenUsage)

inductive SpanAction
  | append (ev : AgyEvent)
  /-- the dispatcher settles; `books` when it fired the final `onRun` right before -/
  | settle (failure : Option RecordingFailure) (books : Bool)
  /-- the dispatcher's catch branch settles -/
  | settleThrown (failure : RecordingFailure)
  /-- a request resumes the run at a cursor (or starts reading it at 0) -/
  | attach (cursor : ℕ)
  | pump (j : ℕ)
  | drain (j : ℕ)
  /-- the client returns the generator early -/
  | giveUp (j : ℕ)
  | finalize (j : ℕ)
  | tail (j : ℕ)

namespace Consumer

def attach (rec : RunRecording) (cursor : ℕ) : Consumer where
  start := cursor
  saw := sawTextBefore rec.events cursor
  mapper := .new rec.runId true (sawTextBefore rec.events cursor)
  cursor
  pump := .ready
  queue := .new
  drain := .ready
  cutOnToolEnd := false
  clientSawToolCall := false
  completed := false
  pushed := []
  delivered := []
  attachedAt := rec.events.length
  resumed := false

/-- The recording wakes its waiters. -/
def wake (c : Consumer) : Consumer :=
  { c with pump := if c.pump = .waiting then .ready else c.pump }

/-- `queue.push` of each chunk: wakes a parked client. -/
def push (c : Consumer) (out : List StreamChunk) : Consumer :=
  { c with
    queue := c.queue.push out
    pushed := c.pushed ++ out
    drain := if c.drain = .waiting ∧ out ≠ [] then .ready else c.drain }

def close (c : Consumer) : Consumer :=
  { c with
    queue := c.queue.close
    drain := if c.drain = .waiting then .ready else c.drain }

/-- Map one event and push its chunks. -/
def mapEvent (c : Consumer) (slot : Option RawUsage) (ev : AgyEvent) : Consumer :=
  let r := c.mapper.map slot ev c.cursor
  { c.push r.2 with
    mapper := r.1
    cursor := c.cursor + 1
    cutOnToolEnd := c.cutOnToolEnd || r.2.any StreamChunk.isToolCallsFinish
    pump := if r.1.finished then .ended else .ready }

/-- The failure funnel and `queue.close()`. -/
def finish (c : Consumer) (failure : Option RecordingFailure) : Consumer :=
  let r := endOfLog failure c.mapper
  { (c.push r.2).close with mapper := r.1, pump := .done }

/-- One turn of `drain`: deliver the next chunk, or compact and stop or park. -/
def drainTurn (c : Consumer) : Consumer :=
  match c.queue.chunks[c.queue.head]? with
  | some ch =>
    { c with
      queue := { c.queue with head := c.queue.head + 1 }
      delivered := c.delivered ++ [ch]
      -- flagged before the yield: the client has the chunk when it breaks on it
      clientSawToolCall := c.clientSawToolCall || ch.isToolCallEnd
      drain := .yielded }
  | none =>
    { c with
      queue := c.queue.compact
      completed := c.queue.closed
      drain := if c.queue.closed then .drained else .waiting }

/-- A span attached at the cut of a delivered tool call resumes this one. -/
def noteResume (c : Consumer) (cursor : ℕ) : Consumer :=
  { c with resumed := c.resumed || (c.clientSawToolCall && c.cursor == cursor) }

end Consumer

namespace SpanState

def init (runId : RunId) : SpanState where
  recording := .new runId
  registered := true
  consumers := []
  billed := none

def setConsumer (s : SpanState) (j : ℕ) (c : Consumer) : SpanState :=
  { s with consumers := s.consumers.set j c }

/-- `runs.forget(rec.runId)`. -/
def forget (s : SpanState) : SpanState := { s with registered := false }

/-- `rec.keepForContinuation = keep`. -/
def setKeep (s : SpanState) (keep : Bool) : SpanState :=
  { s with recording := { s.recording with keepForContinuation := keep } }

/-- `if (!rec.keepForContinuation && rec.isSettled) runs.forget(rec.runId)`. -/
def forgetUnlessKept (s : SpanState) : SpanState :=
  if !s.recording.keepForContinuation && s.recording.settled then s.forget else s

/-- The usage `fireRun` reports. -/
def runUsage (rec : RunRecording) : Option TokenUsage :=
  rec.getResultRawUsage.map fun raw => usageFromRaw (rec.finalUsage raw)

def append (s : SpanState) (ev : AgyEvent) : SpanState :=
  if s.recording.settled then s
  else { s with recording := s.recording.append ev, consumers := s.consumers.map Consumer.wake }

/-- `rec.settle(failure)` and its wake. -/
def settle (s : SpanState) (failure : Option RecordingFailure) : SpanState :=
  if s.recording.settled then s
  else { s with recording := s.recording.settle failure, consumers := s.consumers.map Consumer.wake }

/-- `fireRun(last, attempt, true)`, when the exit of the dispatch loop fires it. -/
def bill (s : SpanState) (books : Bool) : SpanState :=
  if books then { s with billed := some (runUsage s.recording) } else s

/-- The dispatcher's settlement: final `onRun`, settle, forget unless a continuation may come. -/
def settleRun (s : SpanState) (failure : Option RecordingFailure) (books : Bool) : SpanState :=
  let settled := (s.bill books).settle failure
  if settled.recording.keepForContinuation then settled else settled.forget

/-- The event pump's turn of a consumer. -/
def pumpTurn (s : SpanState) (j : ℕ) (c : Consumer) : Option SpanState :=
  match c.pump with
  | .ready =>
    match s.recording.events[c.cursor]? with
    | some ev => some
        { s.setConsumer j (c.mapEvent s.recording.lastStepUsageRaw ev) with
          recording := { s.recording with lastStepUsageRaw := c.mapper.noted ev s.recording.lastStepUsageRaw } }
    | none => some (s.setConsumer j { c with pump := if s.recording.settled then .ended else .waiting })
  | .ended => some (s.setConsumer j (c.finish s.recording.failure))
  | .waiting | .done => none

/-- One action; `none` when it is not enabled. -/
def step (s : SpanState) : SpanAction → Option SpanState
  | .append ev => some (s.append ev)
  | .settle failure books =>
    if s.recording.settled then none else some (s.settleRun failure books)
  | .settleThrown failure => if s.recording.settled then none else some (s.settle (some failure))
  | .attach cursor =>
    if s.registered then
      some { s with consumers := s.consumers.map (·.noteResume cursor) ++ [Consumer.attach s.recording cursor] }
    else none
  | .pump j => s.consumers[j]?.bind fun c => s.pumpTurn j c
  | .drain j =>
    s.consumers[j]?.bind fun c =>
      if c.drain = .ready ∨ c.drain = .yielded then some (s.setConsumer j c.drainTurn) else none
  | .giveUp j =>
    s.consumers[j]?.bind fun c =>
      if c.drain = .yielded then some (s.setConsumer j { c with drain := .returning }) else none
  | .finalize j =>
    s.consumers[j]?.bind fun c =>
      if c.drain = .returning then
        some ((s.setConsumer j { c with drain := .over }).setKeep
          (c.clientSawToolCall || s.recording.keepForContinuation)).forgetUnlessKept
      else none
  | .tail j =>
    s.consumers[j]?.bind fun c =>
      if c.drain = .drained then
        some ((s.setConsumer j { c with drain := .over }).setKeep c.cutOnToolEnd).forgetUnlessKept
      else none

/-- The states a run can be in. -/
def Reaches (runId : RunId) (as : List SpanAction) (s : SpanState) : Prop :=
  exec step (init runId) as = some s

end SpanState

end AgyProxy
