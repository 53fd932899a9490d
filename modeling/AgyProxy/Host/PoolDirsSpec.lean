import AgyProxy.Host.PoolDirs

/-!
# AgyProxy.Host.PoolDirsSpec — what the boot sweep may remove

* `SweepSafe`, `HomesKept`: no sweep removes the home of a loaded account; every account has its home unless
  `deleteAccount` removed it.
* `FindsHome`: a commit after which the account's own directory is there.
* `sweep_spares_homes`: in a run of such commits both hold throughout; a commit of another kind, once written,
  loses its home at the next boot.
-/

namespace AgyProxy

open Js Lib

section Names

variable {id : SlotId} {dirs : List JsString} {d e : JsString}

theorem isStaging_stagingName (id : SlotId) : isStaging (stagingName id) = true :=
  List.isPrefixOf_iff_prefix.mpr (List.prefix_append _ _)

/-- An account's own directory is no staging directory. -/
theorem isStaging_id (id : SlotId) : isStaging id.val = false := by
  rw [Bool.eq_false_iff]
  intro h
  obtain ⟨rest, hrest⟩ := List.isPrefixOf_iff_prefix.mp h
  obtain ⟨rest', hrest'⟩ := id.isAcc
  have hheads := congrArg List.head? (hrest.trans hrest'.symm)
  exact absurd hheads (by simp [js, utf16])

theorem mem_mkdir_iff : e ∈ mkdir dirs d ↔ e ∈ dirs ∨ e = d := by
  unfold mkdir
  split
  next hd => exact ⟨Or.inl, fun h => h.elim (fun h => h) fun h => h ▸ hd⟩
  next hd => rw [List.mem_append, List.mem_singleton]

theorem mem_rmdir_iff : e ∈ rmdir dirs d ↔ e ∈ dirs ∧ e ≠ d := by
  unfold rmdir
  rw [List.mem_filter, decide_eq_true_iff]

/-- The sweep keeps what is no staging directory and removes staging directories only. -/
theorem sweep_spec : ∀ (dirs : List JsString) (failAt : Option ℕ),
    (∀ d ∈ dirs, isStaging d = false → d ∈ (sweepStaleStaging dirs failAt).1) ∧
      ∀ d ∈ (sweepStaleStaging dirs failAt).2, isStaging d = true
  | [], _ => ⟨fun _ hd => absurd hd List.not_mem_nil, fun _ hd => absurd hd List.not_mem_nil⟩
  | entry :: rest, failAt => by
    unfold sweepStaleStaging
    split_ifs with hentry hfail
    · obtain ⟨hkept, hremoved⟩ := sweep_spec rest failAt
      refine ⟨fun d hd hstaging => ?_, hremoved⟩
      rcases List.mem_cons.mp hd with rfl | hd
      · exact List.mem_cons_self
      · exact List.mem_cons_of_mem entry (hkept d hd hstaging)
    · exact ⟨fun d hd _ => hd, fun d hd => absurd hd List.not_mem_nil⟩
    · obtain ⟨hkept, hremoved⟩ := sweep_spec rest (failAt.map (· - 1))
      have hstaged : isStaging entry = true := by simpa using hentry
      refine ⟨fun d hd hstaging => ?_, fun d hd => ?_⟩
      · rcases List.mem_cons.mp hd with rfl | hd
        · exact absurd hstaged (by simp [hstaging])
        · exact hkept d hd hstaging
      · rcases List.mem_cons.mp hd with rfl | hd
        · exact hstaged
        · exact hremoved d hd

/-- A sweep that meets no error leaves no staging directory. -/
theorem sweep_full : ∀ (dirs : List JsString) (d : JsString), isStaging d = true →
    d ∉ (sweepStaleStaging dirs none).1
  | [], _, _ => List.not_mem_nil
  | entry :: rest, d, hd => by
    unfold sweepStaleStaging
    have hrest : d ∉ (sweepStaleStaging rest none).1 := sweep_full rest d hd
    split_ifs with hentry hfail
    · intro hmem
      rcases List.mem_cons.mp hmem with rfl | hmem
      · exact absurd hd (by simpa using hentry)
      · exact hrest hmem
    · exact absurd hfail (by simp)
    · exact hrest

end Names

/-! ### The properties -/

namespace AccountPool

/-- No boot sweep removed the home of an account loaded at that boot. -/
def SweepSafe (s : AccountPool) : Prop := ∀ sweep ∈ s.sweeps, ∀ d ∈ sweep.removed, d ∉ sweep.homes

/-- Every account has its home, unless `deleteAccount` removed it. -/
def HomesKept (s : AccountPool) : Prop := ∀ a ∈ s.accounts, a.dir ∈ s.dirs ∨ a.dir ∈ s.deleted

/-- A commit after which the account's own directory is there: the slot is still staged and the rename
succeeds, or the directory already exists. -/
def FindsHome (s : AccountPool) : PoolAction → Prop
  | .commitStagingAccount id _ _ _ _ renamed _ => stagingName id ∈ s.dirs ∧ renamed = true ∨ id.val ∈ s.dirs
  | _ => True

/-- The accounts of a process or of its file: each has the directory named after it, or had it deleted. -/
def Housed (s : AccountPool) (accounts : List ManagedAccount) : Prop :=
  ∀ a ∈ accounts, a.dir = a.id.val ∧ (a.dir ∈ s.dirs ∨ a.dir ∈ s.deleted)

/-- The invariant. -/
structure Sound (s : AccountPool) : Prop where
  accounts : s.Housed s.accounts
  file : s.Housed s.file
  deleted : ∀ d ∈ s.deleted, isStaging d = false
  sweeps : s.SweepSafe

variable {s s' : AccountPool}

/-- What happens to the directories of others does not matter. -/
theorem Housed.mono {accounts : List ManagedAccount} (h : s.Housed accounts)
    (hdirs : ∀ id : SlotId, id.val ∈ s.dirs → id.val ∈ s'.dirs ∨ id.val ∈ s'.deleted)
    (hdeleted : ∀ d ∈ s.deleted, d ∈ s'.deleted) : s'.Housed accounts := by
  intro a ha
  obtain ⟨hdir, hhome⟩ := h a ha
  refine ⟨hdir, ?_⟩
  rcases hhome with hhome | hhome
  · rw [hdir] at hhome ⊢
    exact hdirs a.id hhome
  · exact Or.inr (hdeleted a.dir hhome)

theorem Housed.append {as bs : List ManagedAccount} (ha : s.Housed as) (hb : s.Housed bs) : s.Housed (as ++ bs) :=
  List.forall_mem_append.mpr ⟨ha, hb⟩

theorem Sound.persist (h : s.Sound) (written : Bool) : (s.persist written).Sound := by
  unfold AccountPool.persist
  split
  · exact ⟨h.accounts, h.accounts, h.deleted, h.sweeps⟩
  · exact h

/-- The directories change, the accounts stay. -/
theorem Sound.redir (h : s.Sound) {dirs : List JsString} (hdirs : ∀ id : SlotId, id.val ∈ s.dirs → id.val ∈ dirs) :
    Sound { s with dirs } := by
  have hkept : ∀ {accounts}, s.Housed accounts → Housed { s with dirs } accounts := fun ha =>
    ha.mono (fun id hid => Or.inl (hdirs id hid)) fun _ hd => hd
  exact ⟨hkept h.accounts, hkept h.file, h.deleted, h.sweeps⟩

/-- A new account with its directory. -/
theorem Sound.add (h : s.Sound) {a : ManagedAccount} (hdir : a.dir = a.id.val) (hhome : a.dir ∈ s.dirs)
    (written : Bool) : (AccountPool.persist { s with accounts := s.accounts ++ [a] } written).Sound := by
  have hadded : s.Housed (s.accounts ++ [a]) :=
    Housed.append h.accounts (List.forall_mem_singleton.mpr ⟨hdir, Or.inl hhome⟩)
  have hsound : Sound { s with accounts := s.accounts ++ [a] } := ⟨hadded, h.file, h.deleted, h.sweeps⟩
  exact hsound.persist written

theorem mem_renameStaging {dirs : List JsString} {id : SlotId} (renamed : Bool) {id' : SlotId}
    (h : id'.val ∈ dirs) : id'.val ∈ renameStaging dirs id renamed := by
  unfold renameStaging
  split
  · have hne : id'.val ≠ stagingName id := by
      intro heq
      have hstaging := isStaging_id id'
      rw [heq, isStaging_stagingName] at hstaging
      exact Bool.noConfusion hstaging
    exact mem_mkdir_iff.mpr (Or.inl (mem_rmdir_iff.mpr ⟨h, hne⟩))
  · exact h

theorem Sound.commit (h : s.Sound) {id : SlotId} {renamed : Bool}
    (hhome : stagingName id ∈ s.dirs ∧ renamed = true ∨ id.val ∈ s.dirs) (aliasName email proxyUrl : Option JsString)
    (now : ℕ) (written : Bool) :
    (s.commitStagingAccount id aliasName email proxyUrl now renamed written).Sound := by
  have hfinal : id.val ∈ renameStaging s.dirs id renamed := by
    rcases hhome with hstaged | hmem
    · unfold renameStaging
      rw [if_pos hstaged]
      exact mem_mkdir_iff.mpr (Or.inr rfl)
    · exact mem_renameStaging renamed hmem
  have hdir : (s.committed (renameStaging s.dirs id renamed) id aliasName email proxyUrl now).dir = id.val :=
    if_pos hfinal
  exact (h.redir fun _ hid => mem_renameStaging renamed hid).add hdir (hdir ▸ hfinal) written

theorem Sound.delete (h : s.Sound) (id : SlotId) (removed written : Bool) :
    (s.deleteAccount id removed written).Sound := by
  unfold deleteAccount
  split
  next => exact h
  next account hfound =>
    have hmem : account ∈ s.accounts := List.mem_of_find?_eq_some hfound
    have hrest : ∀ {t : AccountPool}, t.Housed s.accounts →
        t.Housed (s.accounts.eraseP fun a => decide (a.id = id)) := fun ha a hmem' =>
      ha a (List.eraseP_subset hmem')
    refine Sound.persist ?_ written
    split
    · -- the home goes into the history when it leaves the disk
      have hdirs : ∀ id' : SlotId, id'.val ∈ s.dirs →
          id'.val ∈ rmdir s.dirs account.dir ∨ id'.val ∈ s.deleted ++ [account.dir] := by
        intro id' hid'
        by_cases heq : id'.val = account.dir
        · exact Or.inr (List.mem_append_right _ (List.mem_singleton.mpr heq))
        · exact Or.inl (mem_rmdir_iff.mpr ⟨hid', heq⟩)
      have hdeleted : ∀ d ∈ s.deleted, d ∈ s.deleted ++ [account.dir] := fun d hd => List.mem_append_left _ hd
      refine ⟨hrest (h.accounts.mono hdirs hdeleted), h.file.mono hdirs hdeleted, ?_, h.sweeps⟩
      intro d hd
      rcases List.mem_append.mp hd with hd | hd
      · exact h.deleted d hd
      · rw [List.mem_singleton.mp hd, (h.accounts account hmem).1]
        exact isStaging_id account.id
    · exact ⟨hrest h.accounts, h.file, h.deleted, h.sweeps⟩

/-- No account comes back from the file with a staging directory, so the sweep passes all homes by. -/
theorem Sound.restart (h : s.Sound) (readable : Bool) (failAt : Option ℕ) : (s.restart readable failAt).Sound := by
  have hload : (s.load readable).Sound := by
    have hloaded : s.Housed (if readable then s.file else []) := by
      split
      · exact h.file
      · exact fun a ha => absurd ha List.not_mem_nil
    exact ⟨hloaded, hloaded, h.deleted, h.sweeps⟩
  obtain ⟨hkept, hremoved⟩ := sweep_spec s.dirs failAt
  have hswept : Sound { s.load readable with dirs := (sweepStaleStaging s.dirs failAt).1 } :=
    hload.redir fun id hid => hkept id.val hid (isStaging_id id)
  refine ⟨hswept.accounts, hswept.file, hswept.deleted, ?_⟩
  intro sweep hsweep d hd hhome
  rcases List.mem_append.mp hsweep with hsweep | hsweep
  · exact h.sweeps sweep hsweep d hd hhome
  · obtain rfl := List.mem_singleton.mp hsweep
    obtain ⟨a, ha, rfl⟩ := List.mem_map.mp hhome
    have hstaging : isStaging a.dir = true := hremoved a.dir hd
    rw [(hload.accounts a ha).1, isStaging_id] at hstaging
    exact Bool.noConfusion hstaging

/-- The step lemma. -/
theorem Sound.step (h : s.Sound) {a : PoolAction} (hok : s.FindsHome a) (hstep : s.step a = some s') : s'.Sound := by
  cases a with
  | createStagingSlot id =>
    obtain rfl := Option.some.inj hstep
    exact h.redir fun _ hid => mem_mkdir_iff.mpr (Or.inl hid)
  | commitStagingAccount id aliasName email proxyUrl now renamed written =>
    obtain rfl := Option.some.inj hstep
    exact h.commit hok aliasName email proxyUrl now written
  | cleanupStagingSlot id removed =>
    obtain rfl := Option.some.inj hstep
    unfold cleanupStagingSlot
    split
    · refine h.redir fun id' hid' => mem_rmdir_iff.mpr ⟨hid', fun heq => ?_⟩
      have hstaging := isStaging_id id'
      rw [heq, isStaging_stagingName] at hstaging
      exact Bool.noConfusion hstaging
    · exact h
  | createAccountSlot id aliasName now written =>
    obtain rfl := Option.some.inj hstep
    exact (h.redir fun _ hid => mem_mkdir_iff.mpr (Or.inl hid)).add rfl (mem_mkdir_iff.mpr (Or.inr rfl)) written
  | deleteAccount id removed written =>
    obtain rfl := Option.some.inj hstep
    exact h.delete id removed written
  | persist written =>
    obtain rfl := Option.some.inj hstep
    exact h.persist written
  | restart readable failAt =>
    obtain rfl := Option.some.inj hstep
    exact h.restart readable failAt

theorem init_sound : init.Sound where
  accounts := fun _ ha => absurd ha List.not_mem_nil
  file := fun _ ha => absurd ha List.not_mem_nil
  deleted := fun _ hd => absurd hd List.not_mem_nil
  sweeps := fun _ hsweep => absurd hsweep List.not_mem_nil

/-- The run lemma. -/
theorem run_sound {as : List PoolAction} (hok : Every AccountPool.step FindsHome init as)
    (h : exec AccountPool.step init as = some s) : s.Sound :=
  exec_invariant (fun _ _ _ hs ha hstep => Sound.step hs ha hstep) as init s init_sound hok h

/-- A commit that finds no home of its own is lost at the next boot, once it is in the file. -/
theorem Sound.unhomed_lost (h : s.Sound) {id : SlotId} {aliasName email proxyUrl : Option JsString} {now : ℕ}
    {renamed : Bool} (hlost : ¬s.FindsHome (.commitStagingAccount id aliasName email proxyUrl now renamed true)) :
    ¬((s.commitStagingAccount id aliasName email proxyUrl now renamed true).restart true none).HomesKept := by
  obtain ⟨hunrenamed, hfinal⟩ := not_or.mp hlost
  have hdirs : renameStaging s.dirs id renamed = s.dirs := if_neg hunrenamed
  have hdir : (s.committed s.dirs id aliasName email proxyUrl now).dir = stagingName id := if_neg hfinal
  intro hkept
  have hhome := hkept (s.committed s.dirs id aliasName email proxyUrl now)
    (List.mem_append_right _ (List.mem_singleton.mpr (by rw [hdirs])))
  rw [hdir] at hhome
  rcases hhome with hhome | hhome
  · exact sweep_full _ (stagingName id) (isStaging_stagingName id) hhome
  · have hstaging : isStaging (stagingName id) = false := h.deleted (stagingName id) hhome
    rw [isStaging_stagingName] at hstaging
    exact Bool.noConfusion hstaging

/-- **The sweep spares the homes**: in every run in which each commit finds its own directory, no boot sweep
removes the home of a loaded account and every account keeps its home until `deleteAccount` removes it.  A
commit that does not find it loses its home at the next boot, once it is in the file. -/
theorem sweep_spares_homes {as : List PoolAction} (hok : Every AccountPool.step FindsHome init as)
    (h : exec AccountPool.step init as = some s) :
    (s.SweepSafe ∧ s.HomesKept) ∧ ∀ id aliasName email proxyUrl now renamed,
      ¬s.FindsHome (.commitStagingAccount id aliasName email proxyUrl now renamed true) →
        ¬((s.commitStagingAccount id aliasName email proxyUrl now renamed true).restart true none).HomesKept := by
  have hsound : s.Sound := run_sound hok h
  refine ⟨⟨hsound.sweeps, fun a ha => (hsound.accounts a ha).2⟩, ?_⟩
  intro id aliasName email proxyUrl now renamed hlost
  exact hsound.unhomed_lost hlost

def slotA : SlotId := ⟨js "acc_1760000000000_k3x9q", by decide +kernel⟩
def slotB : SlotId := ⟨js "acc_1760000009999_m2p4r", by decide +kernel⟩

/-- A committed account, a slot left over from an interrupted login, and a restart. -/
def interruptedLogin : List PoolAction :=
  [.createStagingSlot slotA, .commitStagingAccount slotA none none none 1000 true true, .createStagingSlot slotB,
    .restart true none]

theorem sweep_spares_homes_interrupted : ∃ s, exec AccountPool.step init interruptedLogin = some s ∧
    s.accounts.map ManagedAccount.dir = [slotA.val] ∧ s.dirs = [slotA.val] ∧ s.SweepSafe ∧ s.HomesKept := by
  have hok : Every AccountPool.step FindsHome init interruptedLogin :=
    ⟨trivial, fun s hs => ⟨?_, fun t ht => ⟨trivial, fun u hu => ⟨trivial, fun _ _ => trivial⟩⟩⟩⟩
  · exact ⟨_, rfl, by decide +kernel, by decide +kernel, (sweep_spares_homes hok rfl).1⟩
  · obtain rfl := Option.some.inj hs
    exact Or.inl ⟨by decide +kernel, rfl⟩

/-- The rename fails, so the account keeps the staging directory and the next boot removes it. -/
theorem not_sweep_safe_unrenamed : ¬∀ as s, exec AccountPool.step init as = some s → s.SweepSafe ∧ s.HomesKept := by
  intro hall
  have hrun := hall [.createStagingSlot slotA, .commitStagingAccount slotA none none none 1000 false true,
    .restart true none] _ rfl
  have hsafe := hrun.1 ⟨[stagingName slotA], [stagingName slotA]⟩ (by decide +kernel)
  exact hsafe (stagingName slotA) List.mem_cons_self List.mem_cons_self

end AccountPool

end AgyProxy
