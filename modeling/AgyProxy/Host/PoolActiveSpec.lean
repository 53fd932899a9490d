import AgyProxy.Host.PoolSelectSpec

/-!
# AgyProxy.Host.PoolActiveSpec — the scheduler never sticks to an account it must not use

* `Effect`: what one call can do to the pool; `step_effect`.
* `ActiveSound`: every active account exists, is enabled and is not in quarantine.
* `Keeps s s'`: what every effect but a selection's does to the active accounts.
* `pool_invariant`: **the invariant**, over every run from the default pool; with it ids are unique, and
  `reorderAccounts` permutes the accounts whatever ids it is given.
* `SameAccounts`: the accounts here and those of `PoolDirs`, whose directories are modelled there.
-/

namespace AgyProxy

open Js Lib

section Active

variable {s s' : AccountPoolData} {dateParse : JsString → Option ℤ} {id : JsString} {a : PoolAccount}
  {f : PoolAccount → PoolAccount}

/-- An account the scheduler may stick to. -/
structure Usable (a : PoolAccount) : Prop where
  enabled : a.enabled = true
  signedIn : a.authRequired = false

/-- When a call stamps an account. -/
def PoolEdit.stamp : PoolEdit → Option ℕ
  | .recordSuccess _ _ now => some now
  | _ => none

namespace AccountPoolData

/-! ### What a call can do -/

/-- The pool after a call, by the kinds of change there are. -/
inductive Effect (s : AccountPoolData) (e : PoolEdit) : AccountPoolData → Prop
  | unchanged : Effect s e s
  | pushed (account : ManagedAccount) (hfresh : account.id.val ∉ s.accounts.map PoolAccount.key) :
    Effect s e (s.push account hfresh)
  | deleted (id : JsString) : Effect s e (s.deleteAccount id)
  /-- an edit that takes nobody out of use -/
  | edited (id : JsString) (f : PoolAccount → PoolAccount) (husable : ∀ a, Usable a → Usable (f a))
    (hused : ∀ a, (f a).usedAt = a.usedAt ∨ e.stamp = some (f a).usedAt) : Effect s e (s.edit id f)
  /-- an edit of an account that no family is stuck to afterwards -/
  | withdrawn (id : JsString) (f : PoolAccount → PoolAccount) (hused : ∀ a, (f a).usedAt = a.usedAt) :
    Effect s e ((s.edit id f).clearActive id)
  | reordered (ids : List JsString) : Effect s e (s.reorderAccounts ids)
  /-- an edit of every account -/
  | swept (s' : AccountPoolData) (f : PoolAccount → PoolAccount) (hkey : PoolAccount.key ∘ f = PoolAccount.key)
    (husable : ∀ a, Usable a → Usable (f a)) (hused : ∀ a, (f a).usedAt = a.usedAt)
    (haccounts : s'.accounts = s.accounts.map f) (hactive : s'.activeAccountIds = s.activeAccountIds) : Effect s e s'
  | retuned (mode : PoolMode) : Effect s e (s.setMode mode)
  | stuck (family : ModelFamily) (a : PoolAccount) (ha : a ∈ s.accounts) (husable : Usable a) :
    Effect s e (s.setActive family a.key)

variable {e : PoolEdit}

/-- An edit of fields that neither take the account out of use nor say when it was used. -/
theorem Effect.plain (id : JsString) (f : PoolAccount → PoolAccount) (husable : ∀ a, Usable a → Usable (f a))
    (hused : ∀ a, (f a).usedAt = a.usedAt) : Effect s e (s.edit id f) :=
  .edited id f husable fun a => Or.inl (hused a)

theorem effect_setAccountEnabled (s : AccountPoolData) (id : JsString) (enabled : Bool) :
    Effect s e (s.setAccountEnabled id enabled) := by
  unfold setAccountEnabled
  split
  · exact .unchanged
  · cases enabled with
    | true =>
      rw [if_pos rfl]
      exact .plain id _ (fun a ha => ⟨rfl, ha.signedIn⟩) fun _ => rfl
    | false => exact .withdrawn id _ fun _ => rfl

theorem effect_markAuthRequired (s : AccountPoolData) (id : JsString) (reason : Option JsString) :
    Effect s e (s.markAuthRequired id reason) := by
  unfold markAuthRequired
  split
  · exact .unchanged
  · exact .withdrawn id _ fun _ => rfl

theorem usable_clearedCooldowns (family : Option ModelFamily) (a : PoolAccount) (h : Usable a) :
    Usable (clearedCooldowns family a) := by
  cases family with
  | none => exact ⟨h.enabled, h.signedIn⟩
  | some family => exact ⟨h.enabled, h.signedIn⟩

theorem usedAt_clearedCooldowns (family : Option ModelFamily) (a : PoolAccount) :
    (clearedCooldowns family a).usedAt = a.usedAt := by
  cases family with
  | none => rfl
  | some family => rfl

theorem effect_clearCooldown (s : AccountPoolData) (id : Option JsString) (family : Option ModelFamily) :
    Effect s e (s.clearCooldown id family) := by
  unfold clearCooldown
  split
  · exact .plain _ _ (usable_clearedCooldowns family) (usedAt_clearedCooldowns family)
  · exact .swept _ _ (key_clearedCooldowns family) (usable_clearedCooldowns family) (usedAt_clearedCooldowns family)
      rfl rfl

/-- The account the selection sticks to is one it may use. -/
theorem effect_selectAccount (dateParse : JsString → Option ℤ) (s : AccountPoolData) (family : ModelFamily)
    (busy : List JsString) (now : ℕ) : Effect s e (s.selectAccount dateParse family busy now).2 := by
  cases hchoices : choices dateParse s family busy now with
  | nil =>
    rw [selectAccount_of_nil hchoices]
    exact .unchanged
  | cons first rest =>
    have hsub : ∀ c ∈ first :: rest, c ∈ choices dateParse s family busy now := fun c hc => hchoices ▸ hc
    rw [selectAccount_of_cons hchoices]
    obtain ⟨a, ha, hcases⟩ := selectAmong_cases family fun c hc => choices_sublist.subset (hsub c hc)
    have hchoice := mem_choices_iff.mp (hsub a ha)
    rcases hcases with hr | hr
    · rw [hr]
      exact .unchanged
    · rw [hr]
      exact .stuck family a hchoice.mem ⟨hchoice.eligible.enabled, hchoice.eligible.signedIn⟩

theorem step_effect (s : AccountPoolData) (e : PoolEdit) (s' : AccountPoolData)
    (hstep : s.step dateParse e = some s') : Effect s e s' := by
  cases e with
  | createAccountSlot id aliasName now =>
    obtain ⟨hfresh, hs⟩ := Option.dite_none_right_eq_some.mp hstep
    obtain rfl := Option.some.inj hs
    exact .pushed _ hfresh
  | commitStagingAccount id dir aliasName email proxyUrl now =>
    obtain ⟨hfresh, hs⟩ := Option.dite_none_right_eq_some.mp hstep
    obtain rfl := Option.some.inj hs
    exact .pushed _ hfresh
  | deleteAccount id =>
    obtain rfl := Option.some.inj hstep
    exact .deleted id
  | setAccountProxy id proxyUrl =>
    obtain rfl := Option.some.inj hstep
    exact .plain id _ (fun a ha => ⟨ha.enabled, ha.signedIn⟩) fun _ => rfl
  | setAccountAlias id aliasName =>
    obtain rfl := Option.some.inj hstep
    exact .plain id _ (fun a ha => ⟨ha.enabled, ha.signedIn⟩) fun _ => rfl
  | setAccountEnabled id enabled =>
    obtain rfl := Option.some.inj hstep
    exact effect_setAccountEnabled s id enabled
  | markAuthRequired id reason =>
    obtain rfl := Option.some.inj hstep
    exact effect_markAuthRequired s id reason
  | clearAuthRequired id =>
    obtain rfl := Option.some.inj hstep
    exact .plain id _ (fun a ha => ⟨ha.enabled, rfl⟩) fun _ => rfl
  | resetAccountIdentity id newEmail =>
    obtain rfl := Option.some.inj hstep
    exact .plain id _ (fun a ha => ⟨ha.enabled, rfl⟩) fun _ => rfl
  | reorderAccounts ids =>
    obtain rfl := Option.some.inj hstep
    exact .reordered ids
  | setMode mode =>
    obtain rfl := Option.some.inj hstep
    exact .retuned mode
  | updateAccountQuotas id quotas email =>
    obtain rfl := Option.some.inj hstep
    exact .plain id _ (fun a ha => ⟨ha.enabled, ha.signedIn⟩) fun _ => rfl
  | recordFailure id family reason serverResetTime now =>
    obtain rfl := Option.some.inj hstep
    exact .plain id _ (fun a ha => ⟨ha.enabled, ha.signedIn⟩) fun _ => rfl
  | recordSuccess id family now =>
    obtain rfl := Option.some.inj hstep
    exact .edited id _ (fun a ha => ⟨ha.enabled, rfl⟩) fun _ => Or.inr rfl
  | clearCooldown id family =>
    obtain rfl := Option.some.inj hstep
    exact effect_clearCooldown s id family
  | selectAccount family busy now =>
    obtain rfl := Option.some.inj hstep
    exact effect_selectAccount dateParse s family busy now

/-! ### The active accounts -/

def ActiveSound (s : AccountPoolData) : Prop :=
  ∀ family id, s.activeAccountIds family = some id → ∃ a ∈ s.accounts, a.key = id ∧ Usable a

/-- An active account that is still active is still there, and as usable as it was. -/
def Keeps (s s' : AccountPoolData) : Prop :=
  ∀ family id, s'.activeAccountIds family = some id → s.activeAccountIds family = some id ∧
    ∀ a ∈ s.accounts, a.key = id → Usable a → ∃ b ∈ s'.accounts, b.key = id ∧ Usable b

theorem ActiveSound.mono (h : ActiveSound s) (hkeeps : Keeps s s') : ActiveSound s' := by
  intro family id hid
  obtain ⟨hactive, hmem⟩ := hkeeps family id hid
  obtain ⟨a, ha, hkey, husable⟩ := h family id hactive
  exact hmem a ha hkey husable

theorem Keeps.refl (s : AccountPoolData) : Keeps s s :=
  fun _ _ hid => ⟨hid, fun a ha hkey husable => ⟨a, ha, hkey, husable⟩⟩

/-- An edit that takes nobody out of use. -/
theorem keeps_edit (hkeep : ∀ a, Usable a → Usable (f a)) : Keeps s (s.edit id f) := by
  intro family active hid
  refine ⟨hid, ?_⟩
  intro a ha hkey husable
  by_cases h : a.key = id
  · have hmem : a.change f ∈ (s.edit id f).accounts := mem_updateAt_iff.mpr (Or.inr ⟨a, ha, h, rfl⟩)
    exact ⟨a.change f, hmem, hkey, (hkeep a husable).enabled, (hkeep a husable).signedIn⟩
  · exact ⟨a, mem_updateAt_iff.mpr (Or.inl ⟨ha, h⟩), hkey, husable⟩

theorem clearActive_eq_some_iff {family : ModelFamily} {active : JsString} :
    (s.clearActive id).activeAccountIds family = some active ↔
      s.activeAccountIds family = some active ∧ active ≠ id := by
  unfold clearActive
  rw [Option.filter_eq_some_iff, decide_eq_true_iff]

/-- An edit of an account that no family is stuck to afterwards. -/
theorem keeps_edit_clearActive (f : PoolAccount → PoolAccount) : Keeps s ((s.edit id f).clearActive id) := by
  intro family active hid
  obtain ⟨hactive, hne⟩ := clearActive_eq_some_iff.mp hid
  refine ⟨hactive, ?_⟩
  intro a ha hkey husable
  exact ⟨a, mem_updateAt_iff.mpr (Or.inl ⟨ha, hkey ▸ hne⟩), hkey, husable⟩

theorem keeps_push {account : ManagedAccount} (hfresh : account.id.val ∉ s.accounts.map PoolAccount.key) :
    Keeps s (s.push account hfresh) := by
  intro family active hid
  refine ⟨hid, ?_⟩
  intro a ha hkey husable
  exact ⟨a, List.mem_append_left _ ha, hkey, husable⟩

theorem keeps_deleteAccount (s : AccountPoolData) (id : JsString) : Keeps s (s.deleteAccount id) := by
  unfold deleteAccount
  split
  · exact Keeps.refl s
  · intro family active hid
    obtain ⟨hactive, hne⟩ := clearActive_eq_some_iff.mp hid
    refine ⟨hactive, ?_⟩
    intro a ha hkey husable
    have hother : ¬ decide (a.key = id) = true := by simp [hkey, hne]
    have hmem : a ∈ s.accounts.eraseP fun a => decide (a.key = id) :=
      (List.mem_eraseP_of_neg (p := fun a : PoolAccount => decide (a.key = id)) hother).mpr ha
    exact ⟨a, hmem, hkey, husable⟩

theorem reorderAccounts_perm (s : AccountPoolData) (ids : List JsString) :
    (s.reorderAccounts ids).accounts.Perm s.accounts :=
  takeInOrder_perm ids s.accounts

theorem keeps_reorderAccounts (s : AccountPoolData) (ids : List JsString) : Keeps s (s.reorderAccounts ids) := by
  intro family active hid
  refine ⟨hid, ?_⟩
  intro a ha hkey husable
  exact ⟨a, (reorderAccounts_perm s ids).mem_iff.mpr ha, hkey, husable⟩

/-- What one call does to the invariant. -/
theorem activeSound_step (s : AccountPoolData) (e : PoolEdit) (s' : AccountPoolData) (h : ActiveSound s)
    (hstep : s.step dateParse e = some s') : ActiveSound s' := by
  cases step_effect s e s' hstep with
  | unchanged => exact h
  | pushed account hfresh => exact h.mono (keeps_push hfresh)
  | deleted id => exact h.mono (keeps_deleteAccount s id)
  | edited id f husable hused => exact h.mono (keeps_edit husable)
  | withdrawn id f hused => exact h.mono (keeps_edit_clearActive f)
  | reordered ids => exact h.mono (keeps_reorderAccounts s ids)
  | swept _ f hkey husable hused haccounts hactive =>
    intro family active hid
    rw [hactive] at hid
    obtain ⟨a, ha, hakey, hausable⟩ := h family active hid
    refine ⟨f a, haccounts ▸ List.mem_map_of_mem ha, ?_, husable a hausable⟩
    exact (congrFun hkey a).trans hakey
  | retuned mode => exact h
  | stuck family a ha husable =>
    intro other active hid
    by_cases hfamily : other = family
    · obtain rfl : a.key = active := Option.some.inj ((if_pos hfamily).symm.trans hid)
      exact ⟨a, ha, rfl, husable⟩
    · exact h other active ((if_neg hfamily).symm.trans hid)

/-! ### Runs -/

theorem activeSound_default : ActiveSound defaultPoolData :=
  fun _ _ hid => absurd hid (Option.some_ne_none _).symm

/-- **The pool's invariant** in every state reachable from the default pool. -/
theorem pool_invariant (dateParse : JsString → Option ℤ) (edits : List PoolEdit) (s : AccountPoolData)
    (hrun : exec (step dateParse) defaultPoolData edits = some s) :
    ActiveSound s ∧ (s.accounts.map PoolAccount.key).Nodup ∧
      ∀ ids, (s.reorderAccounts ids).accounts.Perm s.accounts :=
  ⟨exec_invariant' activeSound_step edits _ s activeSound_default hrun, s.unique, reorderAccounts_perm s⟩

/-- Two accounts: the first cools down, the second is quarantined while it is active, and comes back. -/
def slotA : SlotId := ⟨js "acc_1_a", by decide⟩
def slotB : SlotId := ⟨js "acc_2_b", by decide⟩

def quarantineRun : List PoolEdit :=
  [.createAccountSlot slotA none 1000, .commitStagingAccount slotB slotB.val none none none 1500,
    .selectAccount .google [] 2000, .recordFailure slotA.val .google (js "Resets in 5m") none 3000,
    .selectAccount .google [] 3500, .markAuthRequired slotB.val none,
    .reorderAccounts [slotB.val, slotB.val, js "unknown"], .selectAccount .google [] 3600,
    .clearAuthRequired slotB.val, .selectAccount .google [] 3700]

theorem pool_invariant_quarantine : ∃ s, exec (step fun _ => none) defaultPoolData quarantineRun = some s ∧
    s.activeAccountIds .google = some slotB.val ∧ s.accounts.map PoolAccount.key = [slotB.val, slotA.val] ∧
      ActiveSound s := by
  have hview : (exec (step fun _ => none) defaultPoolData quarantineRun).map
      (fun s => (s.activeAccountIds .google, s.accounts.map PoolAccount.key)) =
        some (some slotB.val, [slotB.val, slotA.val]) := by decide +kernel
  obtain ⟨s, hrun, hs⟩ := Option.map_eq_some_iff.mp hview
  exact ⟨s, hrun, congrArg Prod.fst hs, congrArg Prod.snd hs, (pool_invariant _ _ s hrun).1⟩

/-! ### The homes -/

/-- The pool whose directories are modelled holds the same accounts. -/
def SameAccounts (p : AccountPool) (s : AccountPoolData) : Prop :=
  s.accounts.map PoolAccount.toManagedAccount = p.accounts

theorem SameAccounts.length_eq {p : AccountPool} (h : SameAccounts p s) : s.accounts.length = p.accounts.length := by
  rw [← h, List.length_map]

theorem truthy?_eq_filter (text : Option JsString) : truthy? text = text.filter (· ≠ []) := by
  cases text with
  | none => rfl
  | some t => cases t <;> rfl

/-- An account that is pushed on both sides. -/
theorem SameAccounts.push {p : AccountPool} {account : ManagedAccount} (h : SameAccounts p s)
    (hfresh : account.id.val ∉ s.accounts.map PoolAccount.key) :
    (s.push account hfresh).accounts.map PoolAccount.toManagedAccount = p.accounts ++ [account] := by
  show (s.accounts ++ [PoolAccount.fresh account]).map PoolAccount.toManagedAccount = _
  rw [List.map_append, h]
  rfl

theorem persist_accounts (p : AccountPool) (written : Bool) : (p.persist written).accounts = p.accounts := by
  unfold AccountPool.persist
  split
  · rfl
  · rfl

theorem SameAccounts.createAccountSlot {p : AccountPool} (h : SameAccounts p s) (slot : SlotId)
    (aliasName : Option JsString) (now : ℕ) (written : Bool) (hfresh : slot.val ∉ s.accounts.map PoolAccount.key) :
    SameAccounts (p.createAccountSlot slot aliasName now written) (s.createAccountSlot slot aliasName now hfresh) := by
  unfold SameAccounts AccountPool.createAccountSlot AccountPoolData.createAccountSlot
  rw [persist_accounts]
  refine (h.push hfresh).trans ?_
  unfold slotAccount
  rw [truthy?_eq_filter, h.length_eq]

theorem SameAccounts.commitStagingAccount {p : AccountPool} (h : SameAccounts p s) (slot : SlotId)
    (aliasName email proxyUrl : Option JsString) (now : ℕ) (renamed written : Bool)
    (hfresh : slot.val ∉ s.accounts.map PoolAccount.key) :
    SameAccounts (p.commitStagingAccount slot aliasName email proxyUrl now renamed written)
      (s.commitStagingAccount slot
        (if slot.val ∈ AccountPool.renameStaging p.dirs slot renamed then slot.val else stagingName slot)
        aliasName email proxyUrl now hfresh) := by
  unfold SameAccounts AccountPool.commitStagingAccount AccountPoolData.commitStagingAccount
  rw [persist_accounts]
  refine (h.push hfresh).trans ?_
  unfold stagedAccount AccountPool.committed
  rw [truthy?_eq_filter, truthy?_eq_filter, truthy?_eq_filter, h.length_eq]

theorem key_eq_iff (a : PoolAccount) (slot : SlotId) : a.key = slot.val ↔ a.toManagedAccount.id = slot := by
  constructor
  · intro h
    cases ha : a.id with
    | mk val isAcc =>
      cases slot with
      | mk val' isAcc' =>
        obtain rfl : val = val' := by
          rw [PoolAccount.key, ha] at h
          exact h
        rfl
  · intro h
    exact congrArg SlotId.val h

theorem SameAccounts.deleteAccount {p : AccountPool} (h : SameAccounts p s) (slot : SlotId) (removed written : Bool) :
    SameAccounts (p.deleteAccount slot removed written) (s.deleteAccount slot.val) := by
  have hkey : (fun a : PoolAccount => decide (a.key = slot.val)) =
      (fun m : ManagedAccount => decide (m.id = slot)) ∘ PoolAccount.toManagedAccount :=
    funext fun a => decide_eq_decide.mpr (key_eq_iff a slot)
  have hfind : p.accounts.find? (fun m => decide (m.id = slot)) =
      (s.getAccount slot.val).map PoolAccount.toManagedAccount := by
    unfold getAccount
    rw [← h, hkey, List.find?_map]
  have herase : (s.accounts.eraseP fun a => decide (a.key = slot.val)).map PoolAccount.toManagedAccount =
      p.accounts.eraseP fun m => decide (m.id = slot) := by
    rw [← h, hkey, List.eraseP_map]
  unfold SameAccounts AccountPool.deleteAccount AccountPoolData.deleteAccount
  cases hget : s.getAccount slot.val with
  | none =>
    rw [hget, Option.map_none] at hfind
    rw [hfind]
    exact h
  | some a =>
    rw [hget, Option.map_some] at hfind
    rw [hfind]
    refine herase.trans ?_
    show _ = (AccountPool.persist _ written).accounts
    rw [persist_accounts]
    split
    · rfl
    · rfl

end AccountPoolData

end Active

end AgyProxy
