import AgyProxy.Js.Str
import AgyProxy.Lib.Machine

/-!
# AgyProxy.Host.PoolDirs — the accounts and their directories (`src/host/pool.ts`)

* `AccountPool`: the accounts in memory, the pool file, and the directories next to it, by name.
* `createStagingSlot`, `commitStagingAccount`, `cleanupStagingSlot`, `createAccountSlot`, `deleteAccount`.
* `restart`: the next process loads the file and sweeps (`sweepStaleStaging`, `src/index.ts`).

Whether a rename, a removal or a write of the pool file succeeds is the environment's choice.
-/

namespace AgyProxy

open Js Lib

/-- `acc_<time>_<random>`. -/
structure SlotId where
  val : JsString
  isAcc : js "acc_" <+: val
deriving DecidableEq

/-- The name of a staging directory. -/
def stagingName (id : SlotId) : JsString := js "staging_" ++ id.val

def isStaging (entry : JsString) : Bool := (js "staging_").isPrefixOf entry

structure ManagedAccount where
  id : SlotId
  aliasName : JsString
  /-- the name of the account's home under the base directory -/
  dir : JsString
  email : Option JsString
  proxyUrl : Option JsString
  enabled : Bool
  createdAt : ℕ
deriving DecidableEq

/-- History of one boot sweep: what it removed, and the homes of the accounts just loaded. -/
structure BootSweep where
  removed : List JsString
  homes : List JsString
deriving DecidableEq

structure AccountPool where
  /-- `this.data.accounts` -/
  accounts : List ManagedAccount
  /-- what `pool.json` holds -/
  file : List ManagedAccount
  dirs : List JsString
  /-- history: the homes `deleteAccount` removed -/
  deleted : List JsString
  /-- history -/
  sweeps : List BootSweep

/-- `mkdirSync`, which is content with a directory that is there. -/
def mkdir (dirs : List JsString) (dir : JsString) : List JsString := if dir ∈ dirs then dirs else dirs ++ [dir]

/-- `rmSync`. -/
def rmdir (dirs : List JsString) (dir : JsString) : List JsString := dirs.filter fun d => decide (d ≠ dir)

/-- The staging entries are removed in turn; `failAt` says after how many removals one fails, which ends the
sweep.  The entries left, and those removed. -/
def sweepStaleStaging : List JsString → Option ℕ → List JsString × List JsString
  | [], _ => ([], [])
  | entry :: rest, failAt =>
    if !isStaging entry then
      let swept := sweepStaleStaging rest failAt
      (entry :: swept.1, swept.2)
    else if failAt = some 0 then (entry :: rest, [])
    else
      let swept := sweepStaleStaging rest (failAt.map (· - 1))
      (swept.1, entry :: swept.2)

namespace AccountPool

def init : AccountPool := ⟨[], [], [], [], []⟩

/-- `persist`, best-effort. -/
def persist (s : AccountPool) (written : Bool) : AccountPool :=
  if written then { s with file := s.accounts } else s

def createStagingSlot (s : AccountPool) (id : SlotId) : AccountPool :=
  { s with dirs := mkdir s.dirs (stagingName id) }

/-- The rename of `commitStagingAccount`. -/
def renameStaging (dirs : List JsString) (id : SlotId) (renamed : Bool) : List JsString :=
  if stagingName id ∈ dirs ∧ renamed then mkdir (rmdir dirs (stagingName id)) id.val else dirs

/-- The account the slot becomes. -/
def committed (s : AccountPool) (dirs : List JsString) (id : SlotId) (aliasName email proxyUrl : Option JsString)
    (now : ℕ) : ManagedAccount where
  id
  aliasName := (aliasName.filter (· ≠ [])).getD (js "备用 Google 账号 " ++ natDigits (s.accounts.length + 1))
  dir := if id.val ∈ dirs then id.val else stagingName id
  email := email.filter (· ≠ [])
  proxyUrl := proxyUrl.filter (· ≠ [])
  enabled := true
  createdAt := now

def commitStagingAccount (s : AccountPool) (id : SlotId) (aliasName email proxyUrl : Option JsString) (now : ℕ)
    (renamed written : Bool) : AccountPool :=
  let dirs := renameStaging s.dirs id renamed
  persist { s with dirs, accounts := s.accounts ++ [s.committed dirs id aliasName email proxyUrl now] } written

def cleanupStagingSlot (s : AccountPool) (id : SlotId) (removed : Bool) : AccountPool :=
  if removed then { s with dirs := rmdir s.dirs (stagingName id) } else s

def createAccountSlot (s : AccountPool) (id : SlotId) (aliasName : Option JsString) (now : ℕ) (written : Bool) :
    AccountPool :=
  let count := natDigits (s.accounts.length + 1)
  persist
    { s with
      dirs := mkdir s.dirs id.val
      accounts := s.accounts ++
        [{ id
           aliasName := (aliasName.filter (· ≠ [])).getD (js "备用账号 " ++ count ++ js " (Account " ++ count ++ js ")")
           dir := id.val
           email := none
           proxyUrl := none
           enabled := true
           createdAt := now }] } written

/-- The first account of that id goes, with its home. -/
def deleteAccount (s : AccountPool) (id : SlotId) (removed written : Bool) : AccountPool :=
  match s.accounts.find? fun a => decide (a.id = id) with
  | none => s
  | some account =>
    let s := { s with accounts := s.accounts.eraseP fun a => decide (a.id = id) }
    persist
      (if removed then { s with dirs := rmdir s.dirs account.dir, deleted := s.deleted ++ [account.dir] } else s)
      written

/-- The next process: an unreadable file is put aside and the pool starts from the defaults. -/
def load (s : AccountPool) (readable : Bool) : AccountPool :=
  let accounts := if readable then s.file else []
  { s with accounts, file := accounts }

def restart (s : AccountPool) (readable : Bool) (failAt : Option ℕ) : AccountPool :=
  let s := s.load readable
  let swept := sweepStaleStaging s.dirs failAt
  { s with dirs := swept.1, sweeps := s.sweeps ++ [⟨swept.2, s.accounts.map ManagedAccount.dir⟩] }

end AccountPool

inductive PoolAction
  | createStagingSlot (id : SlotId)
  | commitStagingAccount (id : SlotId) (aliasName email proxyUrl : Option JsString) (now : ℕ) (renamed written : Bool)
  | cleanupStagingSlot (id : SlotId) (removed : Bool)
  | createAccountSlot (id : SlotId) (aliasName : Option JsString) (now : ℕ) (written : Bool)
  | deleteAccount (id : SlotId) (removed written : Bool)
  /-- a later write of the file -/
  | persist (written : Bool)
  | restart (readable : Bool) (failAt : Option ℕ)

namespace AccountPool

def step (s : AccountPool) : PoolAction → Option AccountPool
  | .createStagingSlot id => some (s.createStagingSlot id)
  | .commitStagingAccount id aliasName email proxyUrl now renamed written =>
    some (s.commitStagingAccount id aliasName email proxyUrl now renamed written)
  | .cleanupStagingSlot id removed => some (s.cleanupStagingSlot id removed)
  | .createAccountSlot id aliasName now written => some (s.createAccountSlot id aliasName now written)
  | .deleteAccount id removed written => some (s.deleteAccount id removed written)
  | .persist written => some (s.persist written)
  | .restart readable failAt => some (s.restart readable failAt)

end AccountPool

end AgyProxy
