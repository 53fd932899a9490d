import AgyProxy.Host.Dispatch

/-!
# AgyProxy.Host.LateOutput — output behind the exit of a process (`src/host/runner.ts`, `src/host/engine.ts`)

The outcome of a process resolves on its `exit` event; the listener on its stdout stays, and what the pipe still
delivers goes through its parser into the run's recording: during the backoff, the wait of the next attempt and the
next process.

* `PipedDispatch`: the dispatch loop with the parsers of the processes that have exited; as history, how much of the
  log the retry gate let pass, whether another attempt has begun and where the late events of earlier attempts stand.
* `PipedDispatch.step`: the actions of the loop, and a chunk from the pipe of an exited process.
-/

namespace AgyProxy

open Js Lib

/-- The pipe of a process that has exited: the attempt it ran for, and the parser behind it. -/
structure LatePipe where
  attempt : ℕ
  parser : StreamJsonParser

structure PipedDispatch where
  dispatch : Dispatch
  pipes : List LatePipe
  /-- history: the length of the log when the gate let it pass -/
  gate : ℕ
  /-- history: another attempt has begun -/
  retried : Bool
  /-- history: where the events that earlier attempts delivered behind their exit stand in the log -/
  late : List ℕ

inductive PipedAction
  | act (a : DispatchAction)
  /-- a chunk from the pipe of an exited process -/
  | lateStdout (i : ℕ) (chunk : JsString)

variable (stack : ℕ)

/-- The parser of the process whose exit the action is. -/
def Dispatch.exitParser? (s : Dispatch) : DispatchAction → Option StreamJsonParser
  | .exit _ => s.live?.map fun l => (l.parser.flush stack).2
  | _ => none

/-- `onChunk` for a process that has exited: the parser and the recording are all that is left of it. -/
def onLateChunk (rec : RunRecording) (parser : StreamJsonParser) (chunk : JsString) : RunRecording × StreamJsonParser :=
  match parser.feed stack chunk with
  | (.ok evs, parser) => (evs.foldl RunRecording.append rec, parser)
  | (.error _, parser) => (rec, parser)

namespace PipedDispatch

def init (call : DispatchCall) (runId : RunId) : PipedDispatch := ⟨.init call runId, [], 0, false, []⟩

/-- The log of the run. -/
def events (s : PipedDispatch) : List AgyEvent := s.dispatch.recording.events

/-- After an action of the loop that leads to `next`. -/
def advance (s : PipedDispatch) (a : DispatchAction) (next : Dispatch) : PipedDispatch where
  dispatch := next
  pipes := s.pipes ++ ((s.dispatch.exitParser? stack a).map (LatePipe.mk s.dispatch.attempt)).toList
  gate := if s.dispatch.attempt < next.attempt then next.recording.events.length else s.gate
  retried := s.retried || (s.dispatch.phase matches .delaying _) && (next.phase matches .queued)
  late := s.late

/-- After a chunk from the pipe `i`. -/
def onLateStdout (s : PipedDispatch) (i : ℕ) (pipe : LatePipe) (chunk : JsString) : PipedDispatch :=
  let r := onLateChunk stack s.dispatch.recording pipe.parser chunk
  { s with
    dispatch := { s.dispatch with recording := r.1 }
    pipes := s.pipes.set i { pipe with parser := r.2 }
    late :=
      -- the last attempt's own words are no earlier attempt's
      if pipe.attempt < s.dispatch.attempt then
        s.late ++ List.range' s.events.length (r.1.events.length - s.events.length)
      else s.late }

/-- One action; `none` when it is not enabled. -/
def step (s : PipedDispatch) : PipedAction → Option PipedDispatch
  | .act a => (s.dispatch.step stack a).map (s.advance stack a)
  | .lateStdout i chunk => s.pipes[i]?.map fun pipe => s.onLateStdout stack i pipe chunk

end PipedDispatch

end AgyProxy
