import AgyProxy.Js.Json
import AgyProxy.Lib.Timers

/-!
# AgyProxy.Server.Sse — the SSE writer of the streaming responses (`src/server/sse.ts`)

* `dataFrame`, `eventFrame`: the bytes of one frame; `SseFrame`: one accepted call of the producer.
* `SseWriter`: the flags of both sides of the socket, the heartbeat interval, the parked writes with their stall
  timers.
* `step`: any interleaving of the producer's calls, the interval, the stall timers, the events of the raw socket and
  the passing of time.

Whether a write is taken at once is the socket's answer and part of the action.  The response head and the promise
`done` are left out: nothing of the writer reads them.  `heartbeatMs` and `stallMs` are whole milliseconds here, while
`config.ts` takes any finite number from 0 on for the heartbeat.
-/

namespace AgyProxy

open Js Lib

/-- `stallWindowMs(heartbeatMs)`. -/
def stallWindowMs (heartbeatMs : ℕ) : ℕ := if 0 < heartbeatMs then max (3 * heartbeatMs) 180000 else 180000

/-- One frame. -/
inductive SseFrame
  /-- `data(payload)` -/
  | data (payload : Json)
  /-- `event(name, payload, id?)` -/
  | event (name : JsString) (payload : Json) (id : Option Js.Num)

def doneMark : JsString := js "[DONE]"

/-- The body of `dataFrame`: the sentinel is written as it is. -/
def dataBody : Json → JsString
  | .str s => if s = doneMark then doneMark else (Json.str s).stringify
  | payload => payload.stringify

def dataFrame (payload : Json) : JsString := js "data: " ++ dataBody payload ++ js "\n\n"

def eventFrame (name : JsString) (payload : Json) (id : Option Js.Num) : JsString :=
  let idLine := match id with
    | some id => js "id: " ++ numberToString id ++ js "\n"
    | none => []
  js "event: " ++ name ++ js "\n" ++ idLine ++ js "data: " ++ payload.stringify ++ js "\n\n"

def SseFrame.bytes : SseFrame → JsString
  | data payload => dataFrame payload
  | event name payload id => eventFrame name payload id

/-- The keepalive frames of the three streams. -/
inductive Keepalive
  /-- the chat completions and the admin events: a comment -/
  | comment
  /-- the Anthropic messages: an event -/
  | ping
deriving DecidableEq

def Keepalive.bytes : Keepalive → JsString
  | comment => js ": ping\n\n"
  | ping => js "event: ping\ndata: \x7b\"type\":\"ping\"\x7d\n\n"

/-- What one write to the socket carries. -/
inductive SsePart
  | frames (fs : List SseFrame)
  | keepalive

/-- A write that waits for the socket. -/
structure ParkedWrite where
  since : ℕ
  stallTimer : Timer
deriving DecidableEq

structure SseWriter where
  heartbeatMs : ℕ
  stallMs : ℕ
  keepalive : Keepalive
  clock : ℕ
  opened : Bool
  closed : Bool
  /-- `raw.destroyed` -/
  destroyed : Bool
  /-- `raw.writableEnded` -/
  writableEnded : Bool
  lastSendAt : ℕ
  heartbeatTimer : Timer
  parked : List ParkedWrite
  /-- history: what the socket was handed, with the time, the first write first -/
  writes : List (ℕ × SsePart)

inductive SseAction
  | tick (now : ℕ)
  | openStream
  /-- `data`, `event`, `dataAll`, `eventAll`: one write for the frames; the socket takes it at once or not -/
  | send (frames : List SseFrame) (taken : Bool)
  /-- the interval fires -/
  | heartbeat (taken : Bool)
  /-- the stall timer of a parked write fires -/
  | stall (i : ℕ)
  /-- the raw `'drain'`, or its `'error'` -/
  | settle
  /-- the raw `'close'`: the client left, or the socket is destroyed or ended -/
  | gone
  | close

namespace SseWriter

def new (heartbeatMs stallMs : ℕ) (keepalive : Keepalive) (now : ℕ) : SseWriter :=
  { heartbeatMs, stallMs, keepalive
    clock := now
    opened := false
    closed := false
    destroyed := false
    writableEnded := false
    lastSendAt := 0
    heartbeatTimer := none
    parked := []
    writes := [] }

/-- The interval and the stall timers. -/
def timers (s : SseWriter) : List Timer := s.heartbeatTimer :: s.parked.map ParkedWrite.stallTimer

/-- The writer takes frames. -/
def live (s : SseWriter) : Bool := !(s.closed || s.destroyed || s.writableEnded)

/-- `open()`, called once and before any frame. -/
def openStream (s : SseWriter) : SseWriter :=
  if s.closed then { s with opened := true }
  else
    { s with
      opened := true
      lastSendAt := s.clock
      heartbeatTimer := if 0 < s.heartbeatMs then some (s.clock + s.heartbeatMs) else s.heartbeatTimer }

/-- `writeRaw(frame)` up to its first `await`. -/
def writeRaw (s : SseWriter) (part : SsePart) (taken : Bool) : SseWriter :=
  if s.live then
    let s := { s with writes := s.writes ++ [(s.clock, part)] }
    if taken then s else { s with parked := s.parked ++ [⟨s.clock, some (s.clock + s.stallMs)⟩] }
  else s

/-- The four calls of the producer; an empty batch is no call. -/
def send (s : SseWriter) (frames : List SseFrame) (taken : Bool) : SseWriter :=
  if frames.isEmpty then s else writeRaw { s with lastSendAt := s.clock } (.frames frames) taken

/-- `tick()`; the interval is armed again when its callback has run. -/
def heartbeat (s : SseWriter) (taken : Bool) : SseWriter :=
  let s := { s with heartbeatTimer := some (s.clock + s.heartbeatMs) }
  if s.closed then s
  else if s.clock - s.lastSendAt < s.heartbeatMs then s
  else { s.writeRaw .keepalive taken with lastSendAt := s.clock }

/-- The last resort for a client that reads nothing. -/
def stall (s : SseWriter) (i : ℕ) : SseWriter :=
  { s with destroyed := true, parked := s.parked.modify i fun w => { w with stallTimer := none } }

/-- `settle()` of every parked write. -/
def settle (s : SseWriter) : SseWriter := { s with parked := [] }

/-- `stop()`, and `settle()` of every parked write. -/
def gone (s : SseWriter) : SseWriter := { s with destroyed := true, heartbeatTimer := none, parked := [] }

def close (s : SseWriter) : SseWriter :=
  if s.closed then s else { s with closed := true, heartbeatTimer := none, writableEnded := true }

/-- One action; `none` when it is not enabled. -/
def step (s : SseWriter) : SseAction → Option SseWriter
  | .tick now => if s.clock ≤ now then some { s with clock := now } else none
  | .openStream => if s.opened then none else some s.openStream
  | .send frames taken => if s.opened then some (s.send frames taken) else none
  | .heartbeat taken => if s.heartbeatTimer.ready s.clock then some (s.heartbeat taken) else none
  | .stall i => if s.parked[i]?.any fun w => w.stallTimer.ready s.clock then some (s.stall i) else none
  | .settle => some s.settle
  | .gone => some s.gone
  | .close => some s.close

end SseWriter

end AgyProxy
