import AgyProxy.Host.Attempt
import AgyProxy.Lib.Machine
import AgyProxy.Lib.SerialQueue

/-!
# AgyProxy.Host.AccountQueue — when a process is spawned (`runOnce` of `src/host/engine.ts`)

* `AgyEngine`: one queue per account, the time of its last spawn and the processes that run.
* `beginTask`: a task up to its process or its wait; `serve`: the tasks a queue can begin, one after the other.
* `step`: any interleaving of attempts, callers that leave, waits that end and processes that exit, on any accounts.

The queue is a parameter (`SerialQueue`).  A wait ends at its time or later; what the processes print is in
`Host.Runner`, and a spawn that throws is a process that exits at once.
-/

namespace AgyProxy

open Lib

/-- One call of `runOnce`. -/
structure SpawnTask where
  /-- the recording -/
  run : ℕ
  /-- `Math.floor(Math.random() * 300)` -/
  jitter : Fin 300
deriving DecidableEq

/-- A process of agy; without an account when the pool is off. -/
structure AgyProcess where
  account : Option AccountId
  run : ℕ
deriving DecidableEq

/-- A process that was started. -/
structure SpawnedProcess where
  account : Option AccountId
  run : ℕ
  spawnedAt : ℕ
deriving DecidableEq

structure AgyEngine (P : SerialQueue SpawnTask) where
  clock : ℕ
  accountQueues : AccountId → P.Store
  /-- 0 for none -/
  lastAccountSpawnTime : AccountId → ℕ
  /-- the end of the wait of the task that a queue serves -/
  sleeping : AccountId → Option ℕ
  processes : List AgyProcess
  /-- `rec.isSettled || steerAborted` -/
  superseded : ℕ → Bool
  /-- `call.signal.aborted` -/
  aborted : ℕ → Bool
  /-- history: the attempts on an account, as they came -/
  arrived : List (AccountId × SpawnTask)
  /-- history: the attempts that are over -/
  served : List (AccountId × SpawnTask)
  /-- history: the processes started -/
  spawned : List SpawnedProcess

inductive SpawnAction
  | tick (now : ℕ)
  | attempt (account : Option AccountId) (task : SpawnTask)
  | supersede (run : ℕ)
  | abort (run : ℕ)
  /-- the wait of an account's task is over -/
  | wake (account : AccountId)
  /-- the `i`-th process exits -/
  | exit (i : ℕ)

def minSpawnIntervalMs : ℕ := 500

namespace AgyEngine

variable {P : SerialQueue SpawnTask}

def init (now : ℕ) : AgyEngine P where
  clock := now
  accountQueues _ := P.fresh
  lastAccountSpawnTime _ := 0
  sleeping _ := none
  processes := []
  superseded _ := false
  aborted _ := false
  arrived := []
  served := []
  spawned := []

/-- The caller of a run has left. -/
def gone (s : AgyEngine P) (run : ℕ) : Bool := s.superseded run || s.aborted run

def spawn (s : AgyEngine P) (account : Option AccountId) (run : ℕ) : AgyEngine P :=
  { s with
    processes := s.processes ++ [⟨account, run⟩]
    spawned := s.spawned ++ [⟨account, run, s.clock⟩] }

/-- The spawn of an account's task. -/
def spawnOn (s : AgyEngine P) (a : AccountId) (run : ℕ) : AgyEngine P :=
  { s with lastAccountSpawnTime := Function.update s.lastAccountSpawnTime a s.clock }.spawn (some a) run

/-- The task that the queue serves is over. -/
def finish (s : AgyEngine P) (a : AccountId) (task : SpawnTask) : AgyEngine P :=
  { s with
    accountQueues := Function.update s.accountQueues a (P.next (s.accountQueues a))
    served := s.served ++ [(a, task)] }

/-- A task begins: unless its caller has left, it waits out the spacing or spawns. -/
def beginTask (s : AgyEngine P) (a : AccountId) (task : SpawnTask) : AgyEngine P :=
  let elapsed := s.clock - s.lastAccountSpawnTime a
  let targetInterval := minSpawnIntervalMs + task.jitter
  if elapsed < targetInterval then
    { s with sleeping := Function.update s.sleeping a (some (s.clock + (targetInterval - elapsed))) }
  else s.spawnOn a task.run

/-- The queue of an account goes on, for at most so many tasks. -/
def serve (a : AccountId) : ℕ → AgyEngine P → AgyEngine P
  | 0, s => s
  | n + 1, s =>
    match P.running (s.accountQueues a) with
    | none => s
    | some task => if s.gone task.run then serve a n (s.finish a task) else s.beginTask a task

/-- The queue of an account goes on. -/
def serveAll (s : AgyEngine P) (a : AccountId) : AgyEngine P := s.serve a (P.jobs (s.accountQueues a)).length

/-- A task is over, and the next begins. -/
def finishOn (s : AgyEngine P) (a : AccountId) : AgyEngine P :=
  match P.running (s.accountQueues a) with
  | none => s
  | some task => (s.finish a task).serveAll a

/-- `q.add(task)` but for the start of the task. -/
def enqueue (s : AgyEngine P) (a : AccountId) (task : SpawnTask) : AgyEngine P :=
  { s with
    accountQueues := Function.update s.accountQueues a (P.add (s.accountQueues a) task)
    arrived := s.arrived ++ [(a, task)] }

/-- A queue that serves no task begins the new one at once. -/
def attempt (s : AgyEngine P) (account : Option AccountId) (task : SpawnTask) : AgyEngine P :=
  match account with
  | none => if s.gone task.run then s else s.spawn none task.run
  | some a =>
    if (P.running (s.accountQueues a)).isNone then (s.enqueue a task).serveAll a else s.enqueue a task

/-- Behind the wait, the caller may have left. -/
def wake (s : AgyEngine P) (a : AccountId) (task : SpawnTask) : AgyEngine P :=
  let s := { s with sleeping := Function.update s.sleeping a none }
  if s.gone task.run then s.finishOn a else s.spawnOn a task.run

def exit (s : AgyEngine P) (i : ℕ) (p : AgyProcess) : AgyEngine P :=
  let s := { s with processes := s.processes.eraseIdx i }
  match p.account with
  | none => s
  | some a => s.finishOn a

/-- A wait ends at its time, or at once when the caller's signal aborts. -/
def step (s : AgyEngine P) : SpawnAction → Option (AgyEngine P)
  | .tick now => if s.clock ≤ now then some { s with clock := now } else none
  | .attempt account task => some (s.attempt account task)
  | .supersede run => some { s with superseded := Function.update s.superseded run true }
  | .abort run => some { s with aborted := Function.update s.aborted run true }
  | .wake a =>
    match P.running (s.accountQueues a), s.sleeping a with
    | some task, some endsAt => if endsAt ≤ s.clock ∨ s.aborted task.run = true then some (s.wake a task) else none
    | _, _ => none
  | .exit i => s.processes[i]?.map (s.exit i)

end AgyEngine

end AgyProxy
