import AgyProxy.Host.Dispatch
import AgyProxy.Lib.Tally
import AgyProxy.Server.Semaphore

/-!
# AgyProxy.Server.BusyMarks — the calls of `stream`, their busy marks and slots (`src/host/engine.ts`)

What `AgyEngine` counts while calls run side by side in front of one `GatewaySemaphore`.

* `BusyMarks`: `inFlightCount` and `busyAccounts`, with `trackBusy` and `untrackBusy`.
* `StreamCall`: one call from the selection of its account, with the slot that its `release` gives back.
* `step`: any interleaving of the calls' own progress with aborts and changes of the limits.
* `Conserved`: the marks are those of the live calls, and every slot is given back once.

A call is marked in the block that selects its account, so that no other call sees it in between.  Which account
is selected, what throws and when a call goes on is the environment's choice; `selectAccount` does not throw.
-/

namespace AgyProxy

open Js Lib

/-! ### The marks -/

structure BusyMarks where
  inFlightCount : AccountId → Option ℤ
  busyAccounts : Finset AccountId

namespace BusyMarks

def empty : BusyMarks := ⟨fun _ => none, ∅⟩

def trackBusy (m : BusyMarks) : Option AccountId → BusyMarks
  | none => m
  | some id =>
    { inFlightCount := Function.update m.inFlightCount id (some ((m.inFlightCount id).getD 0 + 1))
      busyAccounts := insert id m.busyAccounts }

def untrackBusy (m : BusyMarks) : Option AccountId → BusyMarks
  | none => m
  | some id =>
    let left := (m.inFlightCount id).getD 1 - 1
    if left ≤ 0 then
      { inFlightCount := Function.update m.inFlightCount id none
        busyAccounts := m.busyAccounts.erase id }
    else { m with inFlightCount := Function.update m.inFlightCount id (some left) }

end BusyMarks

/-- The marks around the selection before a retry. -/
def Dispatch.remark (d : Dispatch) (m : BusyMarks) : DispatchAction → BusyMarks
  | .delayEnds selected =>
    if d.superseded then m
    else
      match selected with
      | .noAccounts => m
      | .noneFound => (m.untrackBusy d.attemptAccount).trackBusy d.attemptAccount
      | .found id => (m.untrackBusy d.attemptAccount).trackBusy (some id)
  | _ => m

/-! ### The calls -/

/-- Where a call stands behind the selection. -/
inductive StreamStage
  /-- stages images, assembles the arguments, writes the schema file -/
  | preparing
  /-- its acquire waits in the queue -/
  | parked (ticket : ℕ)
  /-- its acquire returned, the `await` has not continued yet -/
  | admitted (ticket : ℕ)
  /-- its acquire threw, the `await` has not continued yet -/
  | rejected
  | dispatching (ticket : ℕ) (d : Dispatch)
  /-- it threw before the dispatch, or its dispatch is over; history: the slot it had acquired -/
  | ended (slot : Option ℕ)

namespace StreamStage

def isLive : StreamStage → Bool
  | ended _ => false
  | _ => true

/-- The slot the call acquired. -/
def slot : StreamStage → Option ℕ
  | admitted ticket => some ticket
  | dispatching ticket _ => some ticket
  | ended slot => slot
  | _ => none

end StreamStage

structure StreamCall where
  /-- what `stream` fixes for its dispatch, with the account selected first -/
  call : DispatchCall
  signal : Option ℕ
  stage : StreamStage

namespace StreamCall

/-- `attemptAccount`, before the dispatch `account`. -/
def current (c : StreamCall) : Option AccountId :=
  match c.stage with
  | .dispatching _ d => d.attemptAccount
  | _ => c.call.account

/-- The account that a live call works for. -/
def mark (c : StreamCall) : Option AccountId := if c.stage.isLive then c.current else none

end StreamCall

inductive CallAction
  /-- something before the acquire throws -/
  | fail
  | acquire
  /-- the `finally` behind `await slot` runs -/
  | wake
  /-- `await deps.acquire(call.signal)` continues -/
  | proceed (runId : RunId)
  /-- `throws` tells whether something behind `releaseOnce()` throws -/
  | dispatch (a : DispatchAction) (throws : Bool)
  /-- something in the loop throws, such as the `onRun` hook -/
  | throw

inductive StreamAction
  /-- a call selects its account -/
  | select (signal : Option ℕ) (call : DispatchCall)
  | progress (i : ℕ) (a : CallAction)
  | abort (signal : ℕ) (reason : JsString)
  | resize (max maxQueued : ℚ)

structure EngineCalls where
  sem : GatewaySemaphore
  marks : BusyMarks
  /-- in the order they selected their accounts -/
  calls : List StreamCall
  /-- history: the tickets of the slots given back, in order -/
  released : List ℕ

namespace EngineCalls

def init (max maxQueued : ℚ) : EngineCalls := ⟨.init max maxQueued, .empty, [], []⟩

def setStage (s : EngineCalls) (i : ℕ) (c : StreamCall) (stage : StreamStage) : EngineCalls :=
  { s with calls := s.calls.set i { c with stage } }

def untrack (s : EngineCalls) (account : Option AccountId) : EngineCalls :=
  { s with marks := s.marks.untrackBusy account }

/-- `release()`. -/
def release (s : EngineCalls) (ticket : ℕ) : EngineCalls :=
  { s with sem := s.sem.release ticket, released := s.released ++ [ticket] }

/-- `releaseOnce`, with its latch. -/
def releaseOnce (ticket : ℕ) (p : EngineCalls × Bool) : EngineCalls × Bool :=
  if p.2 then p else (p.1.release ticket, true)

/-- The way out of the dispatch: the slot, the catch if something behind it throws, the `finally`. -/
def leave (s : EngineCalls) (i : ℕ) (c : StreamCall) (ticket : ℕ) (account : Option AccountId) (throws : Bool) :
    EngineCalls :=
  let p := releaseOnce ticket (s, false)
  let p := if throws then releaseOnce ticket p else p
  (p.1.untrack account).setStage i c (.ended (some ticket))

/-- The catch before the dispatch, of a call without a slot. -/
def failCall (s : EngineCalls) (i : ℕ) (c : StreamCall) : EngineCalls :=
  (s.untrack c.call.account).setStage i c (.ended none)

def acquire (s : EngineCalls) (i : ℕ) (c : StreamCall) : EngineCalls :=
  let ticket := s.sem.tickets
  { s with sem := s.sem.acquire c.signal }.setStage i c
    (if (s.sem.refusal? c.signal).isSome then .rejected
    else if s.sem.mustWait then .parked ticket
    else .admitted ticket)

def proceed (s : EngineCalls) (i : ℕ) (c : StreamCall) (ticket : ℕ) (runId : RunId) : EngineCalls :=
  if s.sem.isAborted c.signal then
    ((s.release ticket).untrack c.call.account).setStage i c (.ended (some ticket))
  else s.setStage i c (.dispatching ticket (.init c.call runId))

section Step

variable (stack : ℕ)

def dispatch (s : EngineCalls) (i : ℕ) (c : StreamCall) (ticket : ℕ) (d : Dispatch) (a : DispatchAction)
    (throws : Bool) : Option EngineCalls :=
  (d.step stack a).map fun d' =>
    let s := { s with marks := d.remark s.marks a }
    if d'.isDone then s.leave i c ticket d'.attemptAccount throws else s.setStage i c (.dispatching ticket d')

/-- One action of a call; `none` when the call does not stand there. -/
def progress (s : EngineCalls) (i : ℕ) (c : StreamCall) (a : CallAction) : Option EngineCalls :=
  match c.stage, a with
  | .preparing, .fail => some (s.failCall i c)
  | .preparing, .acquire => some (s.acquire i c)
  | .parked ticket, .wake =>
    (s.sem.settlements.lookup ticket).map fun
      | .granted => { s with sem := s.sem.resume ticket }.setStage i c (.admitted ticket)
      | .aborted => { s with sem := s.sem.resume ticket }.setStage i c .rejected
  | .rejected, .proceed _ => some (s.failCall i c)
  | .admitted ticket, .proceed runId => some (s.proceed i c ticket runId)
  -- the signal aborts for all who listen to it
  | .dispatching _ _, .dispatch (.abortSignal _) _ => none
  | .dispatching ticket d, .dispatch a throws => s.dispatch stack i c ticket d a throws
  | .dispatching ticket d, .throw => some (s.leave i c ticket d.attemptAccount false)
  | _, _ => none

/-- The abort listeners of the dispatches. -/
def onAbort (signal : ℕ) (reason : JsString) (c : StreamCall) : StreamCall :=
  match c.stage with
  | .dispatching ticket d =>
    if c.signal = some signal then
      { c with stage := .dispatching ticket ((d.step stack (.abortSignal reason)).getD d) }
    else c
  | _ => c

/-- One action; `none` when it is not enabled. -/
def step (s : EngineCalls) : StreamAction → Option EngineCalls
  | .select signal call => some
      { s with
        marks := s.marks.trackBusy call.account
        calls := s.calls ++ [⟨call, signal, .preparing⟩] }
  | .progress i a => s.calls[i]?.bind fun c => s.progress stack i c a
  | .abort signal reason => some
      { s with
        sem := s.sem.abort signal
        calls := s.calls.map (onAbort stack signal reason) }
  | .resize max maxQueued => some { s with sem := { s.sem with max, maxQueued } }

end Step

/-! ### Conservation -/

/-- How many calls between their selection and the end of their dispatch work for the account. -/
def working (s : EngineCalls) (a : AccountId) : ℕ := load StreamCall.mark s.calls a

structure Conserved (s : EngineCalls) : Prop where
  /-- no entry stands for 0 -/
  counts : ∀ a, s.marks.inFlightCount a = if s.working a = 0 then none else some (s.working a : ℤ)
  support : ∀ a, a ∈ s.marks.busyAccounts ↔ s.marks.inFlightCount a ≠ none
  released_once : ∀ c ∈ s.calls, ∀ ticket, c.stage.slot = some ticket →
    s.released.count ticket = if c.stage.isLive then 0 else 1
  idle : (∀ c ∈ s.calls, c.stage.isLive = false) →
    (∀ a, s.marks.inFlightCount a = none) ∧ s.marks.busyAccounts = ∅ ∧ s.sem.held = [] ∧ s.sem.active = 0

end EngineCalls

end AgyProxy
