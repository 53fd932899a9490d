import AgyProxy.Common.ResetDuration
import AgyProxy.Host.Dispatch
import AgyProxy.Host.PoolDirs
import AgyProxy.Lib.Cyclic
import AgyProxy.Lib.Keyed
import Mathlib.Data.ENat.Basic
import Mathlib.Data.List.Sort

/-!
# AgyProxy.Host.Pool — cooldowns, quarantine and scheduling of the accounts (`AccountPoolManager` in `src/host/pool.ts`)

* `AccountPoolData`: the accounts, no id twice, and the active account of every model family.
* `selectAccount`: the scheduler, in both modes; `getEarliestResetCountdown` and `earliestResetMs`
  (`src/host/engine.ts`): when it may find an account again.
* `recordFailure`, `recordSuccess` and the operations of the admin panel; `PoolEdit` lists them.

One call reads the clock once; `selectAccount` reads it again when it falls back to busy accounts, here at the same
millisecond.  Clocks show whole milliseconds; `⊤` is the end of a cooldown whose announced length no double holds.  The
directories and the file are in `PoolDirs`.
-/

namespace AgyProxy

open Js Lib

inductive PoolMode
  | sequential | roundRobin
deriving DecidableEq

structure FamilyCooldownState where
  cooldownUntil : ℕ∞
  reason : JsString
  consecutiveFailures : ℕ
deriving DecidableEq

/-- The 5-hour and the weekly window of a family. -/
structure FamilyQuotaInfo where
  remainingFraction : Option ℚ
  resetTime : Option JsString
  weeklyFraction : Option ℚ
  weeklyResetTime : Option JsString
deriving DecidableEq

/-- `ManagedAccount` with its clocks and flags. -/
structure PoolAccount extends ManagedAccount where
  lastUsedAt : Option ℕ
  authRequired : Bool
  authError : Option JsString
  cooldowns : ModelFamily → Option FamilyCooldownState
  quotas : ModelFamily → Option FamilyQuotaInfo

namespace PoolAccount

/-- The id the pool's calls name the account by. -/
def key (a : PoolAccount) : JsString := a.id.val

/-- `lastUsedAt ?? 0`. -/
def usedAt (a : PoolAccount) : ℕ := a.lastUsedAt.getD 0

/-- An account after a change, which its id survives. -/
def change (f : PoolAccount → PoolAccount) (a : PoolAccount) : PoolAccount := { f a with id := a.id }

@[simp] theorem key_change (f : PoolAccount → PoolAccount) (a : PoolAccount) : (a.change f).key = a.key := rfl

/-- An account that was just pushed. -/
def fresh (account : ManagedAccount) : PoolAccount where
  toManagedAccount := account
  lastUsedAt := none
  authRequired := false
  authError := none
  cooldowns := fun _ => none
  quotas := fun _ => none

end PoolAccount

structure AccountPoolData where
  mode : PoolMode
  defaultCooldownMs : ℕ
  maxCooldownMs : ℕ
  primaryAccountId : Option JsString
  /-- currently active account per family -/
  activeAccountIds : ModelFamily → Option JsString
  accounts : List PoolAccount
  unique : (accounts.map PoolAccount.key).Nodup

def defaultPoolData : AccountPoolData where
  mode := .sequential
  defaultCooldownMs := 15 * 60 * 1000
  maxCooldownMs := 60 * 60 * 1000
  primaryAccountId := none
  activeAccountIds := fun _ => none
  accounts := []
  unique := List.nodup_nil

/-! ### Eligibility -/

/-- `0.02`. -/
def FRACTION_5H : ℚ := 5764607523034235 / 2 ^ 58
/-- `0.01`. -/
def FRACTION_WEEKLY : ℚ := 5764607523034235 / 2 ^ 59

example : roundToDouble (2 / 100) = .fin FRACTION_5H ∧ roundToDouble (1 / 100) = .fin FRACTION_WEEKLY := by
  decide +kernel

section Date

variable (dateParse : JsString → Option ℤ)

/-- `Date.parse` of a reset time, when it lies in the future. -/
def futureReset (now : ℕ) (resetTime : Option JsString) : Option ℕ :=
  (((truthy? resetTime).bind dateParse).filter fun resetMs => decide ((now : ℤ) < resetMs)).map Int.toNat

/-- A window with hardly anything left that resets in the future. -/
def windowExhausted (now : ℕ) (threshold : ℚ) (fraction : Option ℚ) (resetTime : Option JsString) : Bool :=
  (fraction.any fun f => f ≤ threshold) && (futureReset dateParse now resetTime).isSome

def FamilyQuotaInfo.exhausted (quota : FamilyQuotaInfo) (now : ℕ) : Bool :=
  windowExhausted dateParse now FRACTION_5H quota.remainingFraction quota.resetTime ||
    windowExhausted dateParse now FRACTION_WEEKLY quota.weeklyFraction quota.weeklyResetTime

/-- `cd && cd.cooldownUntil > now`. -/
def FamilyCooldownState.live (cd : FamilyCooldownState) (now : ℕ) : Bool := (now : ℕ∞) < cd.cooldownUntil

/-- The filter of `selectAccount`, the busy set apart. -/
def PoolAccount.eligible (family : ModelFamily) (now : ℕ) (a : PoolAccount) : Bool :=
  a.enabled && !a.authRequired && !((a.cooldowns family).any fun cd => cd.live now) &&
    !((a.quotas family).any fun quota => quota.exhausted dateParse now)

end Date

namespace AccountPoolData

/-! ### Scheduling -/

def getAccount (s : AccountPoolData) (id : JsString) : Option PoolAccount :=
  s.accounts.find? fun a => decide (a.key = id)

/-- `activeAccountIds[family] = id`. -/
def setActive (s : AccountPoolData) (family : ModelFamily) (id : JsString) : AccountPoolData :=
  { s with activeAccountIds := fun f => if f = family then some id else s.activeAccountIds f }

/-- The least recently used candidate; the sort is stable. -/
def leastRecentlyUsed (candidates : List PoolAccount) : Option PoolAccount :=
  (candidates.insertionSort fun a b => a.usedAt ≤ b.usedAt).head?

/-- The active account's id. -/
def activeId (s : AccountPoolData) (family : ModelFamily) : Option JsString := truthy? (s.activeAccountIds family)

/-- The position of the active account in the list. -/
def activeIndex (s : AccountPoolData) (family : ModelFamily) : Option ℕ :=
  (s.activeId family).bind fun id => s.accounts.findIdx? fun a => decide (a.key = id)

/-- Step 2 of the drain: the next candidate in cyclic order. -/
def nextAccount (s : AccountPoolData) (family : ModelFamily) (first : PoolAccount) (candidates : List PoolAccount) :
    PoolAccount :=
  let after := (s.activeIndex family).bind fun i =>
    (cyclicAfter s.accounts i).find? fun a => (first :: candidates).any fun c => decide (c.key = a.key)
  after.getD first

/-- The choice among at least one candidate. -/
def selectAmong (s : AccountPoolData) (family : ModelFamily) (first : PoolAccount) (candidates : List PoolAccount) :
    Option PoolAccount × AccountPoolData :=
  if s.mode = .roundRobin ∧ candidates ≠ [] then (leastRecentlyUsed (first :: candidates), s)
  else
    let active := (s.activeId family).bind fun id => (first :: candidates).find? fun a => decide (a.key = id)
    match active with
    | some a => (some a, s)
    | none =>
      let next := s.nextAccount family first candidates
      (some next, s.setActive family next.key)

section Date

variable (dateParse : JsString → Option ℤ)

def candidates (s : AccountPoolData) (family : ModelFamily) (busy : List JsString) (now : ℕ) : List PoolAccount :=
  s.accounts.filter fun a => !busy.contains a.key && a.eligible dateParse family now

def selectAccount (s : AccountPoolData) (family : ModelFamily) (busy : List JsString) (now : ℕ) :
    Option PoolAccount × AccountPoolData :=
  match s.candidates dateParse family busy now with
  | first :: rest => s.selectAmong family first rest
  | [] =>
    -- everything healthy is busy: the selection again, without the busy set
    match s.candidates dateParse family [] now with
    | first :: rest => s.selectAmong family first rest
    | [] => (none, s)

end Date

/-! ### Edits -/

/-- The account of that id changes. -/
def edit (s : AccountPoolData) (id : JsString) (f : PoolAccount → PoolAccount) : AccountPoolData :=
  { s with
    accounts := updateAt PoolAccount.key id (PoolAccount.change f) s.accounts
    unique := by
      rw [map_updateAt (PoolAccount.key_change f)]
      exact s.unique }

/-- The families stuck to that account are freed. -/
def clearActive (s : AccountPoolData) (id : JsString) : AccountPoolData :=
  { s with activeAccountIds := fun f => (s.activeAccountIds f).filter fun accId => decide (accId ≠ id) }

/-- `accounts.push`. -/
def push (s : AccountPoolData) (account : ManagedAccount) (hfresh : account.id.val ∉ s.accounts.map PoolAccount.key) :
    AccountPoolData :=
  { s with
    accounts := s.accounts ++ [.fresh account]
    unique := by
      rw [List.map_append, List.nodup_append]
      refine ⟨s.unique, List.nodup_singleton _, ?_⟩
      rintro id hid id' hid' rfl
      rw [List.mem_singleton.mp hid'] at hid
      exact hfresh hid }

/-- The account of `createAccountSlot`, which makes `count` of them. -/
def slotAccount (count : ℕ) (id : SlotId) (aliasName : Option JsString) (now : ℕ) : ManagedAccount where
  id
  aliasName := (truthy? aliasName).getD
    (js "备用账号 " ++ natDigits count ++ js " (Account " ++ natDigits count ++ js ")")
  dir := id.val
  email := none
  proxyUrl := none
  enabled := true
  createdAt := now

def createAccountSlot (s : AccountPoolData) (id : SlotId) (aliasName : Option JsString) (now : ℕ)
    (hfresh : id.val ∉ s.accounts.map PoolAccount.key) : AccountPoolData :=
  s.push (slotAccount (s.accounts.length + 1) id aliasName now) hfresh

/-- The account of `commitStagingAccount`; `dir` is the home it was left with. -/
def stagedAccount (count : ℕ) (id : SlotId) (dir : JsString) (aliasName email proxyUrl : Option JsString) (now : ℕ) :
    ManagedAccount where
  id
  aliasName := (truthy? aliasName).getD (js "备用 Google 账号 " ++ natDigits count)
  dir
  email := truthy? email
  proxyUrl := truthy? proxyUrl
  enabled := true
  createdAt := now

def commitStagingAccount (s : AccountPoolData) (id : SlotId) (dir : JsString)
    (aliasName email proxyUrl : Option JsString) (now : ℕ)
    (hfresh : id.val ∉ s.accounts.map PoolAccount.key) : AccountPoolData :=
  s.push (stagedAccount (s.accounts.length + 1) id dir aliasName email proxyUrl now) hfresh

def deleteAccount (s : AccountPoolData) (id : JsString) : AccountPoolData :=
  match s.getAccount id with
  | none => s
  | some _ =>
    clearActive
      { s with
        primaryAccountId := s.primaryAccountId.filter fun accId => decide (accId ≠ id)
        accounts := s.accounts.eraseP fun a => decide (a.key = id)
        unique := s.unique.sublist (List.eraseP_sublist.map _) } id

def setAccountProxy (s : AccountPoolData) (id : JsString) (proxyUrl : Option JsString) : AccountPoolData :=
  s.edit id fun a => { a with proxyUrl := truthy? (proxyUrl.map trim) }

def setAccountAlias (s : AccountPoolData) (id aliasName : JsString) : AccountPoolData :=
  s.edit id fun a => { a with aliasName := trim aliasName }

def setAccountEnabled (s : AccountPoolData) (id : JsString) (enabled : Bool) : AccountPoolData :=
  match s.getAccount id with
  | none => s
  | some _ =>
    let s := s.edit id fun a => { a with enabled }
    if enabled then s else s.clearActive id

def markAuthRequired (s : AccountPoolData) (id : JsString) (reason : Option JsString) : AccountPoolData :=
  match s.getAccount id with
  | none => s
  | some _ =>
    let authError := (truthy? reason).getD (js "Authentication expired or revoked (invalid_grant)")
    clearActive (s.edit id fun a => { a with authRequired := true, authError := some authError }) id

def clearAuthRequired (s : AccountPoolData) (id : JsString) : AccountPoolData :=
  s.edit id fun a => { a with authRequired := false, authError := none }

def resetAccountIdentity (s : AccountPoolData) (id newEmail : JsString) : AccountPoolData :=
  s.edit id fun a =>
    { a with
      email := some newEmail
      cooldowns := fun _ => none
      quotas := fun _ => none
      authRequired := false
      authError := none }

/-- The loop of `reorderAccounts` over the accounts that are left; those it took, and those it left. -/
def takeInOrder : List JsString → List PoolAccount → List PoolAccount × List PoolAccount
  | [], left => ([], left)
  | id :: ids, left =>
    match left.find? fun a => decide (a.key = id) with
    | some acc =>
      let taken := takeInOrder ids (left.eraseP fun a => decide (a.key = id))
      (acc :: taken.1, taken.2)
    | none => takeInOrder ids left

theorem takeInOrder_perm (ids : List JsString) (left : List PoolAccount) :
    ((takeInOrder ids left).1 ++ (takeInOrder ids left).2).Perm left := by
  induction ids generalizing left with
  | nil => exact List.Perm.refl left
  | cons id ids ih =>
    unfold takeInOrder
    cases hacc : left.find? fun a => decide (a.key = id) with
    | none => exact ih left
    | some acc =>
      obtain ⟨hkey, before, after, rfl, hbefore⟩ := List.find?_eq_some_iff_append.mp hacc
      have herase : (before ++ acc :: after).eraseP (fun a => decide (a.key = id)) = before ++ after := by
        have hnone : ∀ a ∈ before, ¬ decide (a.key = id) = true := by
          intro a ha
          simpa using hbefore a ha
        rw [List.eraseP_append_right _ hnone, List.eraseP_cons, hkey, cond_true]
      have hrest := ih ((before ++ acc :: after).eraseP fun a => decide (a.key = id))
      rw [herase] at hrest
      show (acc :: ((takeInOrder ids _).1 ++ (takeInOrder ids _).2)).Perm _
      rw [herase]
      exact (hrest.cons acc).trans List.perm_middle.symm

def reorderAccounts (s : AccountPoolData) (ids : List JsString) : AccountPoolData :=
  let taken := takeInOrder ids s.accounts
  { s with
    accounts := taken.1 ++ taken.2
    unique := ((takeInOrder_perm ids s.accounts).map _).nodup_iff.mpr s.unique }

def setMode (s : AccountPoolData) (mode : PoolMode) : AccountPoolData := { s with mode }

def updateAccountQuotas (s : AccountPoolData) (id : JsString) (quotas : ModelFamily → Option FamilyQuotaInfo)
    (email : Option JsString) : AccountPoolData :=
  s.edit id fun a =>
    { a with
      quotas := fun family => (quotas family).or (a.quotas family)
      email := (truthy? email).or a.email }

/-- `delete cooldowns[family]`, or all of them. -/
def clearedCooldowns (family : Option ModelFamily) (a : PoolAccount) : PoolAccount :=
  match family with
  | some family => { a with cooldowns := Function.update a.cooldowns family none }
  | none => { a with cooldowns := fun _ => none }

theorem key_clearedCooldowns (family : Option ModelFamily) :
    PoolAccount.key ∘ clearedCooldowns family = PoolAccount.key := by
  funext a
  cases family with
  | none => rfl
  | some family => rfl

def clearCooldown (s : AccountPoolData) (id : Option JsString) (family : Option ModelFamily) : AccountPoolData :=
  match truthy? id with
  | some id => s.edit id (clearedCooldowns family)
  | none =>
    { s with
      accounts := s.accounts.map (clearedCooldowns family)
      unique := by
        rw [List.map_map, key_clearedCooldowns]
        exact s.unique }

/-! ### Outcomes -/

/-- The end of a cooldown of that length, with the safety buffer. -/
def announcedEnd (now : ℕ) : Js.Num → ℕ∞
  | .fin q => now + q.floor.toNat + 10000
  | _ => ⊤

section Date

variable (dateParse : JsString → Option ℤ)

/-- When the cooldown of a failure ends, the `failures`-th in a row. -/
def cooldownEnd (s : AccountPoolData) (failures : ℕ) (reason : JsString) (serverResetTime : Option JsString) (now : ℕ) :
    ℕ∞ :=
  let serverResetTime := truthy? serverResetTime
  match (parseResetDurationMs dateParse now (serverResetTime.getD reason)).filter Js.Num.isPositive with
  | some parsedDuration => announcedEnd now parsedDuration
  | none =>
    match futureReset dateParse now serverResetTime with
    | some parsed => parsed + 10000
    | none => now + min (s.defaultCooldownMs * failures) s.maxCooldownMs

def recordFailure (s : AccountPoolData) (id : JsString) (family : ModelFamily) (reason : JsString)
    (serverResetTime : Option JsString) (now : ℕ) : AccountPoolData :=
  s.edit id fun a =>
    let failures := ((a.cooldowns family).map FamilyCooldownState.consecutiveFailures).getD 0 + 1
    let cooldownUntil := s.cooldownEnd dateParse failures reason serverResetTime now
    { a with cooldowns := Function.update a.cooldowns family (some ⟨cooldownUntil, reason, failures⟩) }

end Date

def recordSuccess (s : AccountPoolData) (id : JsString) (family : ModelFamily) (now : ℕ) : AccountPoolData :=
  s.edit id fun a =>
    { a with
      lastUsedAt := some now
      authRequired := false
      authError := if a.authRequired then none else a.authError
      cooldowns := Function.update a.cooldowns family none }

/-! ### When the pool recovers -/

/-- `consider`: the earlier of the two, as far as they are known. -/
def consider (earliest t : Option ℕ∞) : Option ℕ∞ :=
  match t, earliest with
  | none, earliest => earliest
  | some t, none => some t
  | some t, some e => if t < e then some t else some e

/-- The end of an account's live cooldown. -/
def liveCooldownEnd (family : ModelFamily) (now : ℕ) (a : PoolAccount) : Option ℕ∞ :=
  ((a.cooldowns family).filter fun cd => cd.live now).map FamilyCooldownState.cooldownUntil

/-- A difference of times is not below zero: `max(0, …)`. -/
def getEarliestResetCountdown (s : AccountPoolData) (family : ModelFamily) (now : ℕ) : Option ℕ∞ :=
  let earliest := s.accounts.foldl
    (fun earliest acc => if acc.enabled then consider earliest (liveCooldownEnd family now acc) else earliest) none
  earliest.map fun t => t - now

section Date

variable (dateParse : JsString → Option ℤ)

/-- The engine's minimum over live cooldown clocks and future quota resets; null when every clock is unknown. -/
def earliestResetMs (s : AccountPoolData) (family : ModelFamily) (now : ℕ) : Option ℕ∞ :=
  let countdown := (s.getEarliestResetCountdown family now).map fun d => (now : ℕ∞) + d
  let earliest := s.accounts.foldl
    (fun earliest acc =>
      if acc.enabled then
        match acc.quotas family with
        | none => earliest
        | some fq =>
          consider (consider earliest ((futureReset dateParse now fq.resetTime).map Nat.cast))
            ((futureReset dateParse now fq.weeklyResetTime).map Nat.cast)
      else earliest) (consider none countdown)
  earliest.map fun t => t - now

end Date

end AccountPoolData

/-! ### Runs of the pool -/

inductive PoolEdit
  | createAccountSlot (id : SlotId) (aliasName : Option JsString) (now : ℕ)
  | commitStagingAccount (id : SlotId) (dir : JsString) (aliasName email proxyUrl : Option JsString) (now : ℕ)
  | deleteAccount (id : JsString)
  | setAccountProxy (id : JsString) (proxyUrl : Option JsString)
  | setAccountAlias (id aliasName : JsString)
  | setAccountEnabled (id : JsString) (enabled : Bool)
  | markAuthRequired (id : JsString) (reason : Option JsString)
  | clearAuthRequired (id : JsString)
  | resetAccountIdentity (id newEmail : JsString)
  | reorderAccounts (ids : List JsString)
  | setMode (mode : PoolMode)
  | updateAccountQuotas (id : JsString) (quotas : ModelFamily → Option FamilyQuotaInfo) (email : Option JsString)
  | recordFailure (id : JsString) (family : ModelFamily) (reason : JsString) (serverResetTime : Option JsString)
      (now : ℕ)
  | recordSuccess (id : JsString) (family : ModelFamily) (now : ℕ)
  | clearCooldown (id : Option JsString) (family : Option ModelFamily)
  | selectAccount (family : ModelFamily) (busy : List JsString) (now : ℕ)

namespace AccountPoolData

/-- One call; `none` for a new account under an id that is taken. -/
def step (dateParse : JsString → Option ℤ) (s : AccountPoolData) : PoolEdit → Option AccountPoolData
  | .createAccountSlot id aliasName now =>
    if hfresh : id.val ∉ s.accounts.map PoolAccount.key then some (s.createAccountSlot id aliasName now hfresh)
    else none
  | .commitStagingAccount id dir aliasName email proxyUrl now =>
    if hfresh : id.val ∉ s.accounts.map PoolAccount.key then
      some (s.commitStagingAccount id dir aliasName email proxyUrl now hfresh)
    else none
  | .deleteAccount id => some (s.deleteAccount id)
  | .setAccountProxy id proxyUrl => some (s.setAccountProxy id proxyUrl)
  | .setAccountAlias id aliasName => some (s.setAccountAlias id aliasName)
  | .setAccountEnabled id enabled => some (s.setAccountEnabled id enabled)
  | .markAuthRequired id reason => some (s.markAuthRequired id reason)
  | .clearAuthRequired id => some (s.clearAuthRequired id)
  | .resetAccountIdentity id newEmail => some (s.resetAccountIdentity id newEmail)
  | .reorderAccounts ids => some (s.reorderAccounts ids)
  | .setMode mode => some (s.setMode mode)
  | .updateAccountQuotas id quotas email => some (s.updateAccountQuotas id quotas email)
  | .recordFailure id family reason serverResetTime now =>
    some (s.recordFailure dateParse id family reason serverResetTime now)
  | .recordSuccess id family now => some (s.recordSuccess id family now)
  | .clearCooldown id family => some (s.clearCooldown id family)
  | .selectAccount family busy now => some (s.selectAccount dateParse family busy now).2

end AccountPoolData

end AgyProxy
