import AgyProxy.Host.Persistence
import AgyProxy.Lib.Timers
import AgyProxy.Server.KeyTouchSpec
import AgyProxy.Server.UsageLedger

/-!
# AgyProxy.Server.Shutdown — from the first signal to the exit (`src/server/shutdown.ts`, the hooks in `src/index.ts`)

* `UsageLedger.close`; `teardown`: what `index.ts` runs behind `app.close()`, up to its first `await`.
* `Gateway`: what the process still has to write, the shutdown's phase, the grace timer, the calls in flight.
* `step`: any interleaving of the gateway's work, signals, the grace timer, and the promises the sequence awaits.

`app.close()` and `poolAuth.cancel()` are promises of the environment; they settle at any time or never.  The pollers
that the teardown stops, the housekeeping prune (off unless a retention is set), the administration of the keys and the
log lines are left out.
-/

namespace AgyProxy

open Js Lib

/-- `close()`: the last batch is written or dropped; further records are no-ops. -/
def UsageLedger.close (l : UsageLedger) (now : ℕ) (fails : Bool) : UsageLedger :=
  if l.closed then l
  else if fails then
    { l with closed := true, tokensTodayCache := fun _ => none, buffer := [], dropped := l.dropped ++ l.buffer }
  else
    { l with
      closed := true
      tokensTodayCache := fun _ => none
      buffer := []
      table := l.table.insertBatch l.buffer now
      flushed := l.flushed ++ l.buffer.map fun r => ⟨r, now⟩ }

/-- Where `runShutdownSequence` stands; `failed` once `app.close()` rejected. -/
inductive ShutdownPhase
  | serving
  /-- `await built.app.close()` -/
  | closing
  /-- `await poolAuth.cancel()` of the teardown -/
  | cancelling (failed : Bool)
  /-- `await opts.teardown()` -/
  | tornDown (failed : Bool)
  | exited (code : ℕ)
deriving DecidableEq

/-- What the sequence did, one entry a step. -/
inductive ShutdownEvent
  | preClose
  | appClosed (failed : Bool)
  | flushed
  | ledgerClosed
  | exit (code : ℕ)
deriving DecidableEq

/-- Work of the gateway that leaves something to write. -/
inductive GatewayWork
  | ledger (a : LedgerAction)
  | pool (c : StoreCall PoolEdit)
  | sessions (c : StoreCall SessionEdit)
  | touch (id : JsString) (now : ℕ)

structure Gateway where
  ledger : UsageLedger
  pool : DebouncedStore AccountPoolData
  sessions : DebouncedStore SessionStore
  keys : TouchRun
  graceMs : ℕ
  clock : ℕ
  phase : ShutdownPhase
  graceTimer : Timer
  /-- `inFlight.controllers` -/
  inFlight : List ℕ
  /-- the controllers that `abortAll` reached -/
  aborted : List ℕ
  /-- history: when the first signal came -/
  signalledAt : Option ℕ
  /-- history: the controllers that were added behind `abortAll` -/
  addedLate : List ℕ
  /-- history: the rows handed to an open ledger -/
  recorded : List InsertParams
  /-- history: there was work behind the teardown's flushes -/
  workedLate : Bool
  /-- history -/
  events : List ShutdownEvent

inductive ProcessAction
  | tick (now : ℕ)
  | work (w : GatewayWork)
  | add (controller : ℕ)
  | remove (controller : ℕ)
  /-- `SIGTERM` or `SIGINT`; `fails`: the transaction of its flush would fail -/
  | signal (now : ℕ) (fails : Bool)
  | graceFires
  /-- `app.close()` settles, and the teardown runs to its first `await` -/
  | appClosed (failed : Bool) (poolDisk sessionsDisk : Bool) (now : ℕ)
  /-- `poolAuth.cancel()` settles, and the ledger closes -/
  | cancelled (now : ℕ) (fails : Bool)
  /-- the teardown's promise settles -/
  | finished

namespace Gateway

section Environment

variable (dateParse : JsString → Option ℤ) (startOfToday : ℕ → ℕ)

/-- `main()` up to `installShutdown`, on the files and tables of earlier processes. -/
def boot (graceMs now : ℕ) (table : UsageTable) (pool : AccountPoolData) (sessions : SessionStore)
    (keys : KeyTable) : Gateway :=
  { ledger := .init none table
    pool := .load pool
    sessions := .load sessions
    keys := .start none keys now
    graceMs
    clock := now
    phase := .serving
    graceTimer := none
    inFlight := []
    aborted := []
    signalledAt := none
    addedLate := []
    recorded := []
    workedLate := false
    events := [] }

/-- The flushes of the teardown are behind. -/
def tearing (s : Gateway) : Bool :=
  match s.phase with
  | .serving | .closing => false
  | _ => true

/-- A touch on a closed database is swallowed. -/
def touch (s : Gateway) (id : JsString) (now : ℕ) : Option Gateway :=
  if s.ledger.closed then some s else (s.keys.step (.touch id now)).map fun keys => { s with keys }

def work (s : Gateway) (w : GatewayWork) : Option Gateway :=
  let s := { s with workedLate := s.workedLate || s.tearing }
  match w with
  | .ledger a =>
    some
      { s with
        ledger := s.ledger.step startOfToday a
        recorded := if s.ledger.closed then s.recorded else s.recorded ++ a.row?.toList }
  | .pool c => (poolCall dateParse s.pool c).map fun pool => { s with pool }
  | .sessions c => (sessionCall s.sessions c).map fun sessions => { s with sessions }
  | .touch id now => s.touch id now

/-- `createShutdown`: the first signal starts the sequence, a second one forces the exit. -/
def signal (s : Gateway) (now : ℕ) (fails : Bool) : Gateway :=
  match s.phase with
  | .serving =>
    { s with
      ledger := s.ledger.flush now fails
      phase := .closing
      graceTimer := some (s.clock + s.graceMs)
      signalledAt := some s.clock
      events := s.events ++ [.preClose] }
  | _ => { s with phase := .exited 1, events := s.events ++ [.exit 1] }

/-- The grace window is over. -/
def graceOver (s : Gateway) : Bool := s.signalledAt.isSome && s.graceTimer.isNone

def add (s : Gateway) (c : ℕ) : Gateway :=
  { s with
    inFlight := s.inFlight ++ [c]
    addedLate := if s.graceOver then s.addedLate ++ [c] else s.addedLate }

/-- `abortAll`. -/
def graceFires (s : Gateway) : Gateway := { s with graceTimer := none, aborted := s.aborted ++ s.inFlight }

/-- The teardown up to its first `await`: the files of the pool and the sessions, then the touches of the keys. -/
def teardown (s : Gateway) (failed poolDisk sessionsDisk : Bool) (now : ℕ) : Gateway :=
  { s with
    pool := s.pool.flush poolDisk now
    sessions := s.sessions.flush sessionsDisk now
    keys := { s.keys with store := s.keys.store.flushTouch }
    phase := .cancelling failed
    events := s.events ++ [.appClosed failed, .flushed] }

/-- One action; `none` when it is not enabled.  After the exit there is none. -/
def step (s : Gateway) (a : ProcessAction) : Option Gateway :=
  match s.phase with
  | .exited _ => none
  | phase =>
    match a with
    | .tick now => if s.clock ≤ now then some { s with clock := now } else none
    | .work w => s.work dateParse startOfToday w
    | .add c => some (s.add c)
    | .remove c => some { s with inFlight := s.inFlight.erase c }
    | .signal now fails => some (s.signal now fails)
    | .graceFires => if s.graceTimer.ready s.clock then some s.graceFires else none
    | .appClosed failed poolDisk sessionsDisk now =>
      if phase = .closing then some (s.teardown failed poolDisk sessionsDisk now) else none
    | .cancelled now fails =>
      match phase with
      | .cancelling failed =>
        some
          { s with
            ledger := s.ledger.close now fails
            phase := .tornDown failed
            events := s.events ++ [.ledgerClosed] }
      | _ => none
    | .finished =>
      match phase with
      | .tornDown failed =>
        let code := if failed then 1 else 0
        some { s with phase := .exited code, events := s.events ++ [.exit code] }
      | _ => none

end Environment

end Gateway

end AgyProxy
