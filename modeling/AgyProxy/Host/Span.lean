import AgyProxy.Host.Mapper

/-!
# AgyProxy.Host.Span — one span of a recording (`driveSpan` in `src/host/engine.ts`)

What the pump of `driveSpan` computes from a settled log: it maps the events from the cursor until the
mapper finishes, and surfaces the failure of the recording when it never does.  The shared usage slot may
hold another value at every event, so it is a function of the event's index.
-/

namespace AgyProxy

open Js Lib

/-- The pump's loop over the events from index `i` on: `map`, push, stop once the mapper finished. -/
def pump (slots : ℕ → Option RawUsage) : ℕ → List AgyEvent → MapperEmit
  | _, [], m => (m, [])
  | i, ev :: evs, m =>
    let r := m.map (slots i) ev i
    if r.1.finished then r
    else
      let r' := pump slots (i + 1) evs r.1
      (r'.1, r.2 ++ r'.2)

/-- `'agy stream ended without a result event'`. -/
def noResultFailure : RecordingFailure :=
  ⟨.error, .invalidOutput, js "agy stream ended without a result event"⟩

/-- What the pump emits once the log is read: nothing behind a finish, else the failure of the
recording. -/
def endOfLog (failure : Option RecordingFailure) : MapperEmit := fun m =>
  m.emitFailure (failure.getD noResultFailure)

/-- The chunks of the span from a cursor over a settled log, for a mapper that starts with `saw`. -/
def driveSpan (runId : RunId) (cutOnTool saw : Bool) (slots : ℕ → Option RawUsage) (events : List AgyEvent)
    (failure : Option RecordingFailure) (cursor : ℕ) : List StreamChunk :=
  (Emit.seq (pump slots cursor (events.drop cursor)) (endOfLog failure)
    (EventMapper.new runId cutOnTool saw)).2

end AgyProxy
