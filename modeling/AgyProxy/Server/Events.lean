import AgyProxy.Host.Dispatch
import AgyProxy.Lib.Machine

/-!
# AgyProxy.Server.Events — the admin event bus and its SSE route (`src/server/events.ts`, `admin-api.ts`)

* `AdminEventBus`: the sequence number, the ring and the debounce timer, with `canReplayFrom`,
  `replayAfter`, `append` and `schedulePoolChange`.
* `SseConn`: one `GET /admin/events` connection and the frames its replay loop still holds.
* `AdminFeed`: the bus with the pool behind it (`pool.ts`: `persist`, `persistSoon`) and its connections.
* `step`: any interleaving of pool mutations, timers, run events, connects, awaited writes and
  disconnects.

`P` is what `getPool()` returns.  A ring event holds the account objects of the pool, so a replay
serialises them as they are by then: `reread p data` is what a ring event that held `p` shows when the pool
is `data`.
-/

namespace AgyProxy

open Lib

/-- What an `AdminEvent` carries beside its `seq`. -/
inductive AdminEventBody (P : Type)
  | snapshot (pool : P)
  | run (run : BusRun)
  | pool (pool : P)

structure AdminEvent (P : Type) where
  body : AdminEventBody P
  seq : ℕ

variable {P : Type}

/-- The pool of a `snapshot` or `pool` event. -/
def AdminEventBody.pool? : AdminEventBody P → Option P
  | .snapshot p => some p
  | .run _ => none
  | .pool p => some p

/-- `publishSnapshot` alone appends without fanning out. -/
def AdminEventBody.isBroadcast : AdminEventBody P → Bool
  | .snapshot _ => false
  | .run _ => true
  | .pool _ => true

def AdminEvent.pool? (e : AdminEvent P) : Option P := e.body.pool?

structure AdminEventBus (P : Type) where
  capacity : ℕ
  ring : List (AdminEvent P)
  seq : ℕ
  /-- a publish of the pool is pending -/
  debounceTimer : Bool

namespace AdminEventBus

def canReplayFrom (b : AdminEventBus P) (seq : ℕ) : Bool :=
  if b.seq < seq then false
  else if seq = b.seq then true
  else b.ring.head?.any fun oldest => decide (oldest.seq ≤ seq)

/-- The events after `seq`, oldest first. -/
def replayAfter (b : AdminEventBus P) (seq : ℕ) : List (AdminEvent P) := b.ring.filter fun ev => seq < ev.seq

def nextEvent (b : AdminEventBus P) (body : AdminEventBody P) : AdminEvent P := ⟨body, b.seq + 1⟩

/-- `append` without the fan-out: the ring evicts from the front. -/
def append (b : AdminEventBus P) (body : AdminEventBody P) : AdminEventBus P :=
  let ring := b.ring ++ [b.nextEvent body]
  { b with seq := b.seq + 1, ring := ring.drop (ring.length - b.capacity) }

def schedulePoolChange (b : AdminEventBus P) : AdminEventBus P := { b with debounceTimer := true }

end AdminEventBus

/-- What has become of a connection. -/
inductive SseStatus
  | connected
  /-- the socket is gone, `'close'` is not handled yet: `writeRaw` drops every frame -/
  | dropped
  /-- `end()` has unregistered client and subscriber -/
  | ended
deriving DecidableEq

structure SseConn (P : Type) where
  status : SseStatus
  /-- the snapshot's `seq`, or the `Last-Event-ID` -/
  start : ℕ
  /-- the events the replay loop has not written yet -/
  pending : List (AdminEvent P)
  /-- history: the `seq` of the written frames, in order -/
  sent : List ℕ
  /-- history: the last pool its client was sent, here or in an earlier connection -/
  view : Option P

namespace SseConn

/-- `sse.event`: one frame, unless the socket takes none. -/
def event (c : SseConn P) (seq : ℕ) (pool : Option P) : SseConn P :=
  if c.status = .connected then { c with sent := c.sent ++ [seq], view := pool.or c.view } else c

/-- The next turn of the replay loop. -/
def replayNext (reread : P → P → P) (data : P) (c : SseConn P) : SseConn P :=
  match c.pending with
  | [] => c
  | ev :: rest => { c with pending := rest }.event ev.seq (ev.pool?.map fun p => reread p data)

/-- The id of the last frame: what its `EventSource` sends when it reconnects. -/
def lastEventId (c : SseConn P) : ℕ := c.sent.getLast?.getD c.start

end SseConn

structure AdminFeed (P : Type) where
  bus : AdminEventBus P
  /-- what `getPool()` returns -/
  data : P
  persistTimer : Bool
  persistDirty : Bool
  conns : List (SseConn P)
  /-- history: every event appended -/
  log : List (AdminEvent P)
  /-- history: since the last event with the pool a due publish has found nobody connected -/
  skipped : Bool

inductive FeedAction (P : Type)
  /-- a pool method that calls `persist()` -/
  | mutate (pool : P)
  /-- a pool method that calls `persistSoon()` -/
  | mutateSoon (pool : P)
  /-- `quota.onChange` -/
  | quotaChange (pool : P)
  | persistTimer
  | flush
  | debounceTimer
  | publishRun (run : BusRun)
  /-- `GET /admin/events` by the client of an earlier connection, or by a new one -/
  | connect (client lastEventId : Option ℕ)
  /-- an awaited frame of a replay loop is through -/
  | replayNext (conn : ℕ)
  /-- the socket of a client breaks -/
  | drop (conn : ℕ)
  /-- `end()`: `'close'` is handled, or the sweeper ends the stream -/
  | ended (conn : ℕ)

namespace AdminFeed

def init (capacity : ℕ) (data : P) : AdminFeed P := ⟨⟨capacity, [], 0, false⟩, data, false, false, [], [], false⟩

/-- The pool's listeners schedule a publish. -/
def notify (s : AdminFeed P) : AdminFeed P := { s with bus := s.bus.schedulePoolChange }

def persist (s : AdminFeed P) : AdminFeed P := { s with persistDirty := false, persistTimer := false }.notify

def persistSoon (s : AdminFeed P) : AdminFeed P := { s with persistDirty := true, persistTimer := true }

def flush (s : AdminFeed P) : AdminFeed P := if s.persistDirty then s.persist else s

def append (s : AdminFeed P) (body : AdminEventBody P) : AdminFeed P :=
  { s with
    bus := s.bus.append body
    log := s.log ++ [s.bus.nextEvent body]
    skipped := s.skipped && body.pool?.isNone }

/-- An event for everybody: each subscriber writes its frame at once. -/
def publish (s : AdminFeed P) (body : AdminEventBody P) : AdminFeed P :=
  { s.append body with conns := s.conns.map fun c => c.event (s.bus.nextEvent body).seq body.pool? }

/-- The debounce timer fires: the pool is published if anybody is registered. -/
def publishDue (s : AdminFeed P) : AdminFeed P :=
  let t := { s with bus := { s.bus with debounceTimer := false } }
  if s.conns.any fun c => decide (c.status ≠ .ended) then t.publish (.pool s.data) else { t with skipped := true }

/-- The earlier connection of the client. -/
def earlier (s : AdminFeed P) (client : Option ℕ) : Option (SseConn P) := client.bind fun j => s.conns[j]?

/-- A connection whose initial delivery starts. -/
def fresh (s : AdminFeed P) (client : Option ℕ) (start : ℕ) (pending : List (AdminEvent P)) : SseConn P :=
  ⟨.connected, start, pending, [], (s.earlier client).bind SseConn.view⟩

/-- Replay: the loop writes its first frame at once. -/
def connectReplay (reread : P → P → P) (s : AdminFeed P) (client : Option ℕ) (last : ℕ) : AdminFeed P :=
  let c := s.fresh client last (s.bus.replayAfter last)
  { s with conns := s.conns ++ [c.replayNext reread s.data] }

/-- Snapshot: appended for this client alone. -/
def connectSnapshot (s : AdminFeed P) (client : Option ℕ) : AdminFeed P :=
  let snap := s.bus.nextEvent (.snapshot s.data)
  { s.append snap.body with conns := s.conns ++ [(s.fresh client snap.seq []).event snap.seq snap.pool?] }

def connect (reread : P → P → P) (s : AdminFeed P) (client lastEventId : Option ℕ) : AdminFeed P :=
  match lastEventId with
  | none => s.connectSnapshot client
  | some last => if s.bus.canReplayFrom last then s.connectReplay reread client last else s.connectSnapshot client

def setStatus (s : AdminFeed P) (conn : ℕ) (status : SseStatus) : AdminFeed P :=
  { s with conns := s.conns.modify conn fun c => { c with status := status } }

/-- Whether the connection exists and meets `p`. -/
def has (s : AdminFeed P) (conn : ℕ) (p : SseConn P → Bool) : Bool := s.conns[conn]?.any p

def step (reread : P → P → P) (s : AdminFeed P) : FeedAction P → Option (AdminFeed P)
  | .mutate pool => some { s with data := pool }.persist
  | .mutateSoon pool => some { s with data := pool }.persistSoon
  | .quotaChange pool => some { s with data := pool }.notify
  | .persistTimer => if s.persistTimer then some { s with persistTimer := false }.flush else none
  | .flush => some s.flush
  | .debounceTimer => if s.bus.debounceTimer then some s.publishDue else none
  | .publishRun run => some (s.publish (.run run))
  | .connect client lastEventId => some (s.connect reread client lastEventId)
  | .replayNext conn =>
    if s.has conn fun c => !c.pending.isEmpty then
      some { s with conns := s.conns.modify conn (·.replayNext reread s.data) }
    else none
  | .drop conn => if s.has conn fun c => c.status = .connected then some (s.setStatus conn .dropped) else none
  | .ended conn => if s.has conn fun c => c.status ≠ .ended then some (s.setStatus conn .ended) else none

end AdminFeed

end AgyProxy
