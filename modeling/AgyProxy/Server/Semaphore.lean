import AgyProxy.Host.StreamTypes
import AgyProxy.Lib.Machine

/-!
# AgyProxy.Server.Semaphore — the request gateway semaphore (`src/server/semaphore.ts`)

* `GatewaySemaphore`: the counter, the queue of parked waiters with their latches and abort listeners,
  and the two limits as the next operation reads them.
* `acquire`, `release`, `abort`, `resume`: what one call, one released slot, one fired signal and one
  continued `await slot` do.
* `step`: any interleaving of these and of changes of the limits, which are runtime-writable numbers.

Acquires are numbered in the order they are called.  `held`, `handedOff` and `settlements` are history.
-/

namespace AgyProxy

open Js Lib

/-- One parked acquire. -/
structure Waiter where
  ticket : ℕ
  /-- the `AbortSignal` of the call, when it has one -/
  signal : Option ℕ
deriving DecidableEq

/-- How a parked waiter settles. -/
inductive Settlement
  /-- `wake()`: `release` handed it a slot -/
  | granted
  /-- `drop()`: its signal fired -/
  | aborted
deriving DecidableEq

structure GatewaySemaphore where
  /-- `this.max()` -/
  max : ℚ
  /-- `this.maxQueued()` -/
  maxQueued : ℚ
  active : ℤ
  waiting : List Waiter
  /-- the tickets whose `settled` latch is set -/
  settled : List ℕ
  /-- the abort listeners that are registered, in order -/
  listeners : List Waiter
  /-- the signals that have fired -/
  fired : List ℕ
  /-- how many acquires there were -/
  tickets : ℕ
  /-- history: the granted slots that are not released -/
  held : List ℕ
  /-- history: the waiters that were handed a slot, in order -/
  handedOff : List ℕ
  /-- history: the settlements of the parked waiters, in order -/
  settlements : List (ℕ × Settlement)

inductive SemaphoreAction
  | acquire (signal : Option ℕ)
  /-- the holder calls the function its acquire returned -/
  | release (ticket : ℕ)
  | abort (signal : ℕ)
  /-- the `finally` behind `await slot` runs -/
  | resume (ticket : ℕ)
  /-- a settings write changes what `max()` and `maxQueued()` return -/
  | resize (max maxQueued : ℚ)
deriving DecidableEq

namespace GatewaySemaphore

def init (max maxQueued : ℚ) : GatewaySemaphore := ⟨max, maxQueued, 0, [], [], [], [], 0, [], [], []⟩

/-- `signal?.aborted ?? false`. -/
def isAborted (s : GatewaySemaphore) (signal : Option ℕ) : Bool := signal.any s.fired.contains

def abortedFailure : LlmFailure := ⟨js "request aborted while waiting for a concurrency slot", .aborted⟩

def queueFullFailure (s : GatewaySemaphore) : LlmFailure :=
  ⟨js "request queue is full (" ++ numberToString (.fin s.waiting.length) ++ js " waiting, max " ++
    numberToString (.fin s.maxQueued) ++ js ")", .busy⟩

/-- No slot is free, or somebody waits already. -/
def mustWait (s : GatewaySemaphore) : Bool := decide (s.max ≤ s.active) || !s.waiting.isEmpty

/-- The error `acquire` throws at once. -/
def refusal? (s : GatewaySemaphore) (signal : Option ℕ) : Option LlmFailure :=
  if s.mustWait then
    if s.isAborted signal then some abortedFailure
    else if s.maxQueued ≤ s.waiting.length then some s.queueFullFailure
    else none
  else none

/-- The call joins the queue and listens for its signal. -/
def park (s : GatewaySemaphore) (signal : Option ℕ) : GatewaySemaphore :=
  { s with
    waiting := s.waiting ++ [⟨s.tickets, signal⟩]
    listeners := s.listeners ++ if signal.isSome then [⟨s.tickets, signal⟩] else [] }

/-- The fast path. -/
def grant (s : GatewaySemaphore) : GatewaySemaphore :=
  { s with active := s.active + 1, held := s.held ++ [s.tickets] }

def acquire (s : GatewaySemaphore) (signal : Option ℕ) : GatewaySemaphore :=
  let t := if (s.refusal? signal).isSome then s else if s.mustWait then s.park signal else s.grant
  { t with tickets := s.tickets + 1 }

/-- The first waiter of the queue whose latch is not set, and the queue behind it. -/
def nextWaiter (settled : List ℕ) : List Waiter → Option Waiter × List Waiter
  | [] => (none, [])
  | w :: rest => if w.ticket ∈ settled then nextWaiter settled rest else (some w, rest)

/-- The slot of the released ticket goes to the next waiter, the count unchanged, or comes free. -/
def release (s : GatewaySemaphore) (ticket : ℕ) : GatewaySemaphore :=
  match nextWaiter s.settled s.waiting with
  | (some next, rest) =>
    { s with
      waiting := rest
      settled := next.ticket :: s.settled
      held := s.held.erase ticket ++ [next.ticket]
      handedOff := s.handedOff ++ [next.ticket]
      settlements := s.settlements ++ [(next.ticket, .granted)] }
  | (none, rest) => { s with waiting := rest, active := s.active - 1, held := s.held.erase ticket }

/-- `onAbort`: nothing once the latch is set; otherwise the waiter leaves the queue and is dropped. -/
def onAbort (s : GatewaySemaphore) (w : Waiter) : GatewaySemaphore :=
  if w.ticket ∈ s.settled then s
  else
    { s with
      settled := w.ticket :: s.settled
      waiting := s.waiting.erase w
      settlements := s.settlements ++ [(w.ticket, .aborted)] }

/-- The listeners of the signal run in order, once. -/
def abort (s : GatewaySemaphore) (signal : ℕ) : GatewaySemaphore :=
  if signal ∈ s.fired then s
  else
    let t := (s.listeners.filter fun w => w.signal = some signal).foldl onAbort s
    { t with
      fired := signal :: t.fired
      listeners := t.listeners.filter fun w => w.signal ≠ some signal }

/-- The awaiting acquire goes on behind its settled promise and takes its listener away. -/
def resume (s : GatewaySemaphore) (ticket : ℕ) : GatewaySemaphore :=
  { s with listeners := s.listeners.filter fun w => w.ticket ≠ ticket }

/-- One operation.  A holder releases once, and only when its acquire has returned; an acquire goes on
only when its promise is settled. -/
def step (s : GatewaySemaphore) : SemaphoreAction → Option GatewaySemaphore
  | .acquire signal => some (s.acquire signal)
  | .release ticket =>
    if ticket ∈ s.held ∧ ticket ∉ s.listeners.map Waiter.ticket then some (s.release ticket) else none
  | .abort signal => some (s.abort signal)
  | .resume ticket => if ticket ∈ s.settled then some (s.resume ticket) else none
  | .resize max maxQueued => some { s with max, maxQueued }

end GatewaySemaphore

end AgyProxy
