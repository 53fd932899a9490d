import AgyProxy.Host.Engine
import AgyProxy.Host.Pool
import AgyProxy.Lib.Machine

/-!
# AgyProxy.Host.Persistence — the debounced files of the stores (`src/host/sessions.ts`, `src/host/pool.ts`)

`SessionStore` and `AccountPoolManager` keep their data in memory and rewrite one file, by the same three
functions: `persist`, `persistSoon` and `flush`.

* `DebouncedStore`: the data, the dirty mark, the timer and the file.
* `DebouncedStore.call`: one call on a store; each of its mutations is written soon, at once or not at all.
* `Trails`: the file is what the store held after some of its mutations, whatever the disk does.
* `SessionEdit`, `AccountPoolData.effect`: the mutations of the two stores; `poolFile_trails`.
* `keepsWrites_iff`: every step keeps what was not written exactly when no write that it needs fails.
* `stores_keep_writes_iff`: for both stores; `stores_lose_write`: one failed write, and `flush` writes nothing.

A failed write leaves the file as it was: the temporary file is renamed last.
-/

namespace AgyProxy

open Js Lib

/-! ### The three functions -/

/-- `PERSIST_WARN_MS`. -/
def PERSIST_WARN_MS : ℕ := 60000

structure DebouncedStore (D : Type) where
  data : D
  persistDirty : Bool
  /-- `persistTimer !== null` -/
  persistTimer : Bool
  lastPersistWarn : ℕ
  /-- the data the file is the text of -/
  file : D

namespace DebouncedStore

variable {D : Type}

/-- A store after its constructor: `load` read the file, or put it aside and started over. -/
def load (data : D) : DebouncedStore D := ⟨data, false, false, 0, data⟩

/-- `writeFileSync` and `renameSync`; `disk` tells whether they work. -/
def write (s : DebouncedStore D) (disk : Bool) (now : ℕ) : DebouncedStore D :=
  if disk then { s with file := s.data }
  else if PERSIST_WARN_MS < now - s.lastPersistWarn then { s with lastPersistWarn := now }
  else s

def persist (s : DebouncedStore D) (disk : Bool) (now : ℕ) : DebouncedStore D :=
  -- the mark goes before the write is tried, and the catch does not bring it back
  write { s with persistDirty := false, persistTimer := false } disk now

def persistSoon (s : DebouncedStore D) : DebouncedStore D := { s with persistDirty := true, persistTimer := true }

/-- The callback of `setTimeout`. -/
def onTimer (s : DebouncedStore D) (disk : Bool) (now : ℕ) : DebouncedStore D :=
  if s.persistDirty then persist { s with persistTimer := false } disk now else { s with persistTimer := false }

def flush (s : DebouncedStore D) (disk : Bool) (now : ℕ) : DebouncedStore D :=
  if s.persistDirty then s.persist disk now else s

variable (s : DebouncedStore D) (disk : Bool) (now : ℕ)

@[simp] theorem write_data : (s.write disk now).data = s.data := by
  unfold write
  split_ifs <;> rfl

@[simp] theorem write_dirty : (s.write disk now).persistDirty = s.persistDirty := by
  unfold write
  split_ifs <;> rfl

@[simp] theorem write_file : (s.write disk now).file = if disk then s.data else s.file := by
  unfold write
  split_ifs <;> rfl

@[simp] theorem persist_data : (s.persist disk now).data = s.data := write_data _ _ _

@[simp] theorem persist_dirty : (s.persist disk now).persistDirty = false := write_dirty _ _ _

@[simp] theorem persist_file : (s.persist disk now).file = if disk then s.data else s.file := write_file _ _ _

end DebouncedStore

/-! ### Calls on a store -/

/-- What a mutation does: nothing, or new data that is written soon or at once. -/
inductive Mutation (D : Type)
  | nothing
  | soon (data : D)
  | atOnce (data : D)

/-- The data after the mutation. -/
def Mutation.after {D : Type} (data : D) : Mutation D → D
  | .nothing => data
  | .soon data => data
  | .atOnce data => data

/-- A call, with what the disk does and what the clock shows. -/
inductive StoreCall (E : Type)
  | mutate (e : E) (disk : Bool) (now : ℕ)
  | timer (disk : Bool) (now : ℕ)
  | flush (disk : Bool) (now : ℕ)

/-- The mutation the call makes. -/
def StoreCall.edit? {E : Type} : StoreCall E → Option E
  | .mutate e _ _ => some e
  | .timer _ _ | .flush _ _ => none

def StoreCall.disk {E : Type} : StoreCall E → Bool
  | .mutate _ disk _ => disk
  | .timer disk _ => disk
  | .flush disk _ => disk

namespace DebouncedStore

variable {D E : Type}

def mutate (s : DebouncedStore D) (disk : Bool) (now : ℕ) : Mutation D → DebouncedStore D
  | .nothing => s
  | .soon data => persistSoon { s with data }
  | .atOnce data => persist { s with data } disk now

section Calls

variable (effect : D → E → Option (Mutation D))

/-- One call; the timer fires only when it is set. -/
def call (s : DebouncedStore D) : StoreCall E → Option (DebouncedStore D)
  | .mutate e disk now => (effect s.data e).map (s.mutate disk now)
  | .timer disk now => if s.persistTimer then some (s.onTimer disk now) else none
  | .flush disk now => some (s.flush disk now)

/-- The call loses no write: it clears the mark only by a write that works, and a flush of the store it leaves
brings the file up to the data. -/
def KeepsWrites (s : DebouncedStore D) (c : StoreCall E) : Prop :=
  ∀ s', s.call effect c = some s' →
    (s.persistDirty = true → s'.persistDirty = false → c.disk = true ∧ s'.file = s'.data) ∧
      ∀ now, (s'.flush true now).file = s'.data

/-- A write that the call tries works; a clean store whose data the call leaves as they were needs none. -/
def WriteWorks (s : DebouncedStore D) : StoreCall E → Prop
  | .mutate e disk _ =>
    disk = true ∨ ∀ data, effect s.data e = some (.atOnce data) → s.persistDirty = false ∧ data = s.data
  | .timer disk _ => disk = true ∨ s.persistDirty = false
  | .flush disk _ => disk = true ∨ s.persistDirty = false

/-- What the file lacks is marked. -/
def Landed (s : DebouncedStore D) : Prop := s.persistDirty = true ∨ s.file = s.data

theorem landed_iff_flush {s : DebouncedStore D} : s.Landed ↔ ∀ now, (s.flush true now).file = s.data := by
  unfold Landed flush
  cases hdirty : s.persistDirty with
  | true => simp
  | false => simp

variable {effect} {s s' t : DebouncedStore D} {c : StoreCall E} {disk : Bool} {now : ℕ}

/-- What `KeepsWrites` says of the state after the call. -/
def Kept (s : DebouncedStore D) (disk : Bool) (s' : DebouncedStore D) : Prop :=
  (s.persistDirty = true → s'.persistDirty = false → disk = true ∧ s'.file = s'.data) ∧ s'.Landed

theorem keepsWrites_iff_kept (h : s.call effect c = some s') : s.KeepsWrites effect c ↔ s.Kept c.disk s' := by
  constructor
  · intro hkeeps
    exact (hkeeps s' h).imp_right landed_iff_flush.mpr
  · rintro hkept t ht
    obtain rfl := Option.some.inj (h.symm.trans ht)
    exact hkept.imp_right landed_iff_flush.mp

/-- A write that was tried: it works, or it was not needed. -/
theorem persist_kept_iff (hs : s.Landed) (hfile : t.file = s.file) :
    s.Kept disk (t.persist disk now) ↔ disk = true ∨ s.persistDirty = false ∧ t.data = s.data := by
  cases disk with
  | true => simp [Kept, Landed]
  | false =>
    simp only [Kept, Landed, persist_dirty, persist_file, persist_data, hfile]
    rcases hs with hdirty | hclean
    · simp [hdirty]
    · rw [hclean, eq_comm (a := t.data)]
      simp

/-- A call that tries no write keeps what was marked. -/
theorem kept_of_quiet (hs : s.Landed) (hdirty : s'.persistDirty = s.persistDirty) (hfile : s'.file = s.file)
    (hdata : s'.data = s.data) : s.Kept disk s' := by
  refine ⟨fun h h' => ?_, ?_⟩
  · rw [hdirty, h] at h'
    cases h'
  · unfold Landed
    rw [hdirty, hfile, hdata]
    exact hs

/-- **One call** on a store that marks what its file lacks. -/
theorem kept_iff (hs : s.Landed) (h : s.call effect c = some s') : s.Kept c.disk s' ↔ s.WriteWorks effect c := by
  cases c with
  | mutate e disk now =>
    obtain ⟨m, hm, rfl⟩ := Option.map_eq_some_iff.mp h
    show s.Kept disk (s.mutate disk now m) ↔ disk = true ∨ ∀ data, effect s.data e = some (.atOnce data) → _
    rw [hm]
    cases m with
    | nothing =>
      have hkept : s.Kept disk s := kept_of_quiet hs rfl rfl rfl
      simp [mutate, hkept]
    | soon data =>
      have hkept : s.Kept disk (persistSoon { s with data }) := ⟨fun _ h => (nomatch h), Or.inl rfl⟩
      simp [mutate, hkept]
    | atOnce data =>
      have hwrite : s.Kept disk (persist { s with data } disk now) ↔
          disk = true ∨ s.persistDirty = false ∧ data = s.data :=
        persist_kept_iff hs rfl
      simp [mutate, hwrite]
  | timer disk now =>
    have hrun : s.onTimer disk now = s' := by
      unfold call at h
      split_ifs at h
      exact Option.some.inj h
    subst hrun
    show s.Kept disk (s.onTimer disk now) ↔ disk = true ∨ s.persistDirty = false
    unfold onTimer
    by_cases hdirty : s.persistDirty = true
    · rw [if_pos hdirty]
      refine (persist_kept_iff (t := { s with persistTimer := false }) hs rfl).trans ?_
      simp [hdirty]
    · rw [if_neg hdirty]
      have hkept : s.Kept disk { s with persistTimer := false } := kept_of_quiet hs rfl rfl rfl
      exact iff_of_true hkept (Or.inr (Bool.eq_false_of_not_eq_true hdirty))
  | flush disk now =>
    obtain rfl : s.flush disk now = s' := Option.some.inj h
    show s.Kept disk (s.flush disk now) ↔ disk = true ∨ s.persistDirty = false
    unfold flush
    by_cases hdirty : s.persistDirty = true
    · rw [if_pos hdirty]
      refine (persist_kept_iff hs rfl).trans ?_
      simp [hdirty]
    · rw [if_neg hdirty]
      have hkept : s.Kept disk s := kept_of_quiet hs rfl rfl rfl
      exact iff_of_true hkept (Or.inr (Bool.eq_false_of_not_eq_true hdirty))

/-- **A run loses no write exactly when every write it needs works.** -/
theorem keepsWrites_iff : ∀ (cs : List (StoreCall E)) (s s' : DebouncedStore D), s.Landed →
    exec (call effect) s cs = some s' →
      (Every (call effect) (KeepsWrites effect) s cs ↔ Every (call effect) (WriteWorks effect) s cs)
  | [], _, _, _, _ => Iff.rfl
  | c :: cs, s, s', hs, h => by
    obtain ⟨t, ht, h'⟩ := exec_cons h
    rw [every_cons_iff ht, every_cons_iff ht, keepsWrites_iff_kept ht, ← kept_iff hs ht]
    exact and_congr_right fun hkept => keepsWrites_iff cs t s' hkept.2 h'

/-! ### The file behind the data -/

variable {machine : D → E → Option D}

/-- The mutations are the steps of a machine on the data alone. -/
def Follows (effect : D → E → Option (Mutation D)) (machine : D → E → Option D) : Prop :=
  ∀ data e, (effect data e).map (Mutation.after data) = machine data e

/-- Some of the mutations led from `d` to the file, and the others from the file to the data. -/
def Trails (machine : D → E → Option D) (d : D) (es : List E) (s : DebouncedStore D) : Prop :=
  ∃ written since, es = written ++ since ∧ exec machine d written = some s.file ∧
    exec machine s.file since = some s.data

theorem call_data (hfollows : Follows effect machine) (h : s.call effect c = some s') :
    exec machine s.data c.edit?.toList = some s'.data := by
  cases c with
  | mutate e disk now =>
    obtain ⟨m, hm, rfl⟩ := Option.map_eq_some_iff.mp h
    have hstep : machine s.data e = some (m.after s.data) := by rw [← hfollows, hm, Option.map_some]
    have hafter : (s.mutate disk now m).data = m.after s.data := by
      cases m with
      | nothing | soon data => rfl
      | atOnce data => exact persist_data _ disk now
    simp [StoreCall.edit?, exec, hstep, hafter]
  | timer disk now =>
    have hdata : (s.onTimer disk now).data = s.data := by
      unfold onTimer
      split_ifs <;> simp
    unfold call at h
    split_ifs at h
    rw [← Option.some.inj h, hdata]
    rfl
  | flush disk now =>
    have hdata : (s.flush disk now).data = s.data := by
      unfold flush
      split_ifs <;> simp
    rw [← Option.some.inj h, hdata]
    rfl

/-- A call leaves the file alone or brings it up to the data. -/
theorem call_file (h : s.call effect c = some s') : s'.file = s.file ∨ s'.file = s'.data := by
  have hpersist : ∀ (t : DebouncedStore D) (disk : Bool) (now : ℕ), t.file = s.file →
      (t.persist disk now).file = s.file ∨ (t.persist disk now).file = (t.persist disk now).data := by
    intro t disk now ht
    rw [persist_file, persist_data]
    cases disk with
    | true => exact Or.inr rfl
    | false => exact Or.inl ht
  cases c with
  | mutate e disk now =>
    obtain ⟨m, -, rfl⟩ := Option.map_eq_some_iff.mp h
    cases m with
    | nothing | soon data => exact Or.inl rfl
    | atOnce data => exact hpersist { s with data } disk now rfl
  | timer disk now =>
    unfold call onTimer at h
    split_ifs at h
    · rw [← Option.some.inj h]
      exact hpersist { s with persistTimer := false } disk now rfl
    · rw [← Option.some.inj h]
      exact Or.inl rfl
  | flush disk now =>
    obtain rfl : s.flush disk now = s' := Option.some.inj h
    unfold flush
    split_ifs
    · exact hpersist s disk now rfl
    · exact Or.inl rfl

theorem trails_call (hfollows : Follows effect machine) {d : D} {es : List E} (hs : Trails machine d es s)
    (h : s.call effect c = some s') : Trails machine d (es ++ c.edit?.toList) s' := by
  obtain ⟨written, since, rfl, hwritten, hsince⟩ := hs
  have hdata := call_data hfollows h
  rcases call_file h with hfile | hfile
  · refine ⟨written, since ++ c.edit?.toList, List.append_assoc .., ?_, ?_⟩
    · rw [hfile, hwritten]
    · rw [hfile, exec_append, hsince]
      exact hdata
  · refine ⟨written ++ since ++ c.edit?.toList, [], (List.append_nil _).symm, ?_, ?_⟩
    · rw [hfile, exec_append, exec_append, hwritten, Option.bind_some, hsince]
      exact hdata
    · rw [hfile]
      rfl

/-- **Over a run the file trails the data.** -/
theorem trails_exec (hfollows : Follows effect machine) {d : D} : ∀ (cs : List (StoreCall E)) (es : List E)
    (s s' : DebouncedStore D), Trails machine d es s → exec (call effect) s cs = some s' →
      Trails machine d (es ++ cs.filterMap StoreCall.edit?) s'
  | [], es, s, s', hs, h => by
    obtain rfl := Option.some.inj h
    simpa using hs
  | c :: cs, es, s, s', hs, h => by
    obtain ⟨t, ht, h'⟩ := exec_cons h
    have hrest := trails_exec hfollows cs _ t s' (trails_call hfollows hs ht) h'
    have hsplit : (c :: cs).filterMap StoreCall.edit? = c.edit?.toList ++ cs.filterMap StoreCall.edit? := by
      cases c with
      | mutate | timer | flush => rfl
    rw [hsplit, ← List.append_assoc]
    exact hrest

end Calls

end DebouncedStore

/-! ### `SessionStore` -/

inductive SessionEdit
  | set (key : JsString) (b : SessionBinding)
  | delete (key : JsString)
  | clear

def SessionEdit.effect (store : SessionStore) : SessionEdit → Option (Mutation SessionStore)
  | .set key b => some (.soon ((StoreOp.set key b).apply store))
  | .delete key => some (.soon ((StoreOp.delete key).apply store))
  | .clear => some (.soon fun _ => none)

abbrev sessionCall : DebouncedStore SessionStore → StoreCall SessionEdit → Option (DebouncedStore SessionStore) :=
  DebouncedStore.call SessionEdit.effect

/-! ### `AccountPoolManager` -/

inductive PersistKind
  | nothing | soon | atOnce

namespace AccountPoolData

/-- The persist call of a mutation of one account; an unknown id returns before it. -/
def persistOf (s : AccountPoolData) (id : JsString) (kind : PersistKind) : PersistKind :=
  if (s.getAccount id).isSome then kind else .nothing

/-- `selectAmong` moves the cursor. -/
def advances (s : AccountPoolData) (family : ModelFamily) (first : PoolAccount) (candidates : List PoolAccount) :
    PersistKind :=
  if s.mode = .roundRobin ∧ candidates ≠ [] then .nothing
  else
    match (s.activeId family).bind fun id => (first :: candidates).find? fun a => decide (a.key = id) with
    | some _ => .nothing
    | none => .soon

/-- The persist call each method ends with. -/
def persistKind (dateParse : JsString → Option ℤ) (s : AccountPoolData) : PoolEdit → PersistKind
  | .createAccountSlot _ _ _ => .atOnce
  | .commitStagingAccount _ _ _ _ _ _ => .atOnce
  | .deleteAccount id => s.persistOf id .atOnce
  | .setAccountProxy id _ => s.persistOf id .atOnce
  | .setAccountAlias id _ => s.persistOf id .atOnce
  | .setAccountEnabled id _ => s.persistOf id .atOnce
  | .markAuthRequired id _ => s.persistOf id .atOnce
  | .clearAuthRequired id => s.persistOf id .atOnce
  | .resetAccountIdentity id _ => s.persistOf id .atOnce
  | .reorderAccounts _ => .atOnce
  | .setMode _ => .atOnce
  | .updateAccountQuotas id _ _ => s.persistOf id .soon
  | .recordFailure id _ _ _ _ => s.persistOf id .soon
  | .recordSuccess id _ _ => s.persistOf id .soon
  | .clearCooldown id _ =>
    match truthy? id with
    | some id => s.persistOf id .atOnce
    | none => .atOnce
  | .selectAccount family busy now =>
    match s.candidates dateParse family busy now with
    | first :: rest => s.advances family first rest
    | [] =>
      match s.candidates dateParse family [] now with
      | first :: rest => s.advances family first rest
      | [] => .nothing

/-- The mutation with its persist call. -/
def effect (dateParse : JsString → Option ℤ) (s : AccountPoolData) (e : PoolEdit) : Option (Mutation AccountPoolData) :=
  (s.step dateParse e).map fun s' =>
    match s.persistKind dateParse e with
    | .nothing => .nothing
    | .soon => .soon s'
    | .atOnce => .atOnce s'

/-- An edit of an unknown account. -/
theorem edit_absent {s : AccountPoolData} {id : JsString} {f : PoolAccount → PoolAccount} (h : s.getAccount id = none) :
    s.edit id f = s := by
  have hkeys : ∀ a ∈ s.accounts, a.key ≠ id := find?_key_none_iff.mp h
  have hsame : updateAt PoolAccount.key id (PoolAccount.change f) s.accounts = s.accounts := by
    unfold updateAt
    exact (List.map_congr_left fun a ha => if_neg (hkeys a ha)).trans (List.map_id _)
  unfold edit
  simp only [hsame]

theorem persistOf_nothing {s : AccountPoolData} {id : JsString} {kind : PersistKind}
    (h : s.persistOf id kind = .nothing) (hkind : kind ≠ .nothing) : s.getAccount id = none := by
  unfold persistOf at h
  split at h
  · exact absurd h hkind
  · exact Option.not_isSome_iff_eq_none.mp ‹_›

theorem advances_nothing {s : AccountPoolData} {family : ModelFamily} {first : PoolAccount}
    {candidates : List PoolAccount} (h : s.advances family first candidates = .nothing) :
    (s.selectAmong family first candidates).2 = s := by
  unfold advances at h
  unfold selectAmong
  split at h
  · rw [if_pos ‹_›]
  · rw [if_neg ‹_›]
    split at h
    · rename_i a ha
      rw [ha]
    · cases h

/-- A method that returns before its persist call has changed nothing. -/
theorem persistKind_nothing {dateParse : JsString → Option ℤ} {s s' : AccountPoolData} {e : PoolEdit}
    (h : s.step dateParse e = some s') (hkind : s.persistKind dateParse e = .nothing) : s' = s := by
  have hsoon : PersistKind.soon ≠ .nothing := fun h => nomatch h
  have hatOnce : PersistKind.atOnce ≠ .nothing := fun h => nomatch h
  cases e with
  | createAccountSlot | commitStagingAccount | reorderAccounts | setMode => exact absurd hkind hatOnce
  | setAccountProxy | setAccountAlias | clearAuthRequired | resetAccountIdentity =>
    obtain rfl := Option.some.inj h
    exact edit_absent (persistOf_nothing hkind hatOnce)
  | updateAccountQuotas | recordFailure | recordSuccess =>
    obtain rfl := Option.some.inj h
    exact edit_absent (persistOf_nothing hkind hsoon)
  -- these three read the account before they change it
  | deleteAccount id =>
    obtain rfl := Option.some.inj h
    unfold deleteAccount
    rw [persistOf_nothing hkind hatOnce]
  | setAccountEnabled id enabled =>
    obtain rfl := Option.some.inj h
    unfold setAccountEnabled
    rw [persistOf_nothing hkind hatOnce]
  | markAuthRequired id reason =>
    obtain rfl := Option.some.inj h
    unfold markAuthRequired
    rw [persistOf_nothing hkind hatOnce]
  | clearCooldown id family =>
    obtain rfl := Option.some.inj h
    simp only [persistKind] at hkind
    unfold clearCooldown
    cases hid : truthy? id with
    | none =>
      rw [hid] at hkind
      exact absurd hkind hatOnce
    | some accId =>
      rw [hid] at hkind
      exact edit_absent (persistOf_nothing hkind hatOnce)
  | selectAccount family busy now =>
    obtain rfl := Option.some.inj h
    simp only [persistKind] at hkind
    unfold selectAccount
    cases hcandidates : s.candidates dateParse family busy now with
    | cons first rest =>
      rw [hcandidates] at hkind
      exact advances_nothing hkind
    | nil =>
      rw [hcandidates] at hkind
      simp only at hkind ⊢
      cases hcandidates' : s.candidates dateParse family [] now with
      | cons first rest =>
        rw [hcandidates'] at hkind
        exact advances_nothing hkind
      | nil => rfl

/-- The mutation leaves the data the method leaves. -/
theorem effect_follows (dateParse : JsString → Option ℤ) :
    DebouncedStore.Follows (effect dateParse) (step dateParse) := by
  intro s e
  unfold effect
  cases h : s.step dateParse e with
  | none => rfl
  | some s' =>
    cases hkind : s.persistKind dateParse e with
    | nothing => exact congrArg some (persistKind_nothing h hkind).symm
    | soon => rfl
    | atOnce => rfl

end AccountPoolData

abbrev poolCall (dateParse : JsString → Option ℤ) :
    DebouncedStore AccountPoolData → StoreCall PoolEdit → Option (DebouncedStore AccountPoolData) :=
  DebouncedStore.call (AccountPoolData.effect dateParse)

/-- The next start reads a pool that some first part of the edits made, though writes were debounced or failed. -/
theorem poolFile_trails (dateParse : JsString → Option ℤ) {accounts : AccountPoolData}
    {cs : List (StoreCall PoolEdit)} {pool : DebouncedStore AccountPoolData}
    (h : exec (poolCall dateParse) (.load accounts) cs = some pool) :
    DebouncedStore.Trails (AccountPoolData.step dateParse) accounts (cs.filterMap StoreCall.edit?) pool :=
  DebouncedStore.trails_exec (AccountPoolData.effect_follows dateParse) cs [] _ pool ⟨[], [], rfl, rfl, rfl⟩ h

/-! ### Both stores -/

section Stores

open DebouncedStore

/-- **Debounced stores lose no write exactly when every write they need works**, over whole runs of both. -/
theorem stores_keep_writes_iff (dateParse : JsString → Option ℤ) (bindings : SessionStore)
    (sessionCalls : List (StoreCall SessionEdit)) (sessions : DebouncedStore SessionStore)
    (hsessions : exec sessionCall (load bindings) sessionCalls = some sessions)
    (accounts : AccountPoolData) (poolCalls : List (StoreCall PoolEdit)) (pool : DebouncedStore AccountPoolData)
    (hpool : exec (poolCall dateParse) (load accounts) poolCalls = some pool) :
    (Every sessionCall (KeepsWrites SessionEdit.effect) (load bindings) sessionCalls ↔
        Every sessionCall (WriteWorks SessionEdit.effect) (load bindings) sessionCalls) ∧
      (Every (poolCall dateParse) (KeepsWrites (AccountPoolData.effect dateParse)) (load accounts) poolCalls ↔
        Every (poolCall dateParse) (WriteWorks (AccountPoolData.effect dateParse)) (load accounts) poolCalls) :=
  ⟨keepsWrites_iff sessionCalls (load bindings) sessions (Or.inr rfl) hsessions,
    keepsWrites_iff poolCalls (load accounts) pool (Or.inr rfl) hpool⟩

/-- A binding of one message. -/
def boundSession : SessionBinding := ⟨js "conversation", 1, []⟩

theorem stores_keep_writes_iff_one :
    (Every sessionCall (KeepsWrites SessionEdit.effect) (load fun _ => none)
          [.mutate (.set (js "key") boundSession) true 0, .timer true 500] ↔
        Every sessionCall (WriteWorks SessionEdit.effect) (load fun _ => none)
          [.mutate (.set (js "key") boundSession) true 0, .timer true 500]) ∧
      (Every (poolCall fun _ => none) (KeepsWrites (AccountPoolData.effect fun _ => none)) (load defaultPoolData)
          [.mutate (.setMode .roundRobin) true 0] ↔
        Every (poolCall fun _ => none) (WriteWorks (AccountPoolData.effect fun _ => none)) (load defaultPoolData)
          [.mutate (.setMode .roundRobin) true 0]) :=
  stores_keep_writes_iff (fun _ => none) (fun _ => none) _ _ rfl defaultPoolData _ _ rfl

/-- The write of the timer fails, or the one of a mode switch: the mark is gone, the flush that follows has
nothing to do on a working disk, and the file stays behind. -/
theorem stores_lose_write :
    ¬ Every sessionCall (KeepsWrites SessionEdit.effect) (load fun _ => none)
        [.mutate (.set (js "key") boundSession) true 0, .timer false 500] ∧
      (∃ s, exec sessionCall (load fun _ => none)
          [.mutate (.set (js "key") boundSession) true 0, .timer false 500, .flush true 600] = some s ∧
        s.data (js "key") = some boundSession ∧ s.file (js "key") = none) ∧
      ¬ Every (poolCall fun _ => none) (KeepsWrites (AccountPoolData.effect fun _ => none)) (load defaultPoolData)
        [.mutate (.setMode .roundRobin) false 0] ∧
      ∃ s, exec (poolCall fun _ => none) (load defaultPoolData)
          [.mutate (.setMode .roundRobin) false 0, .flush true 600] = some s ∧
        s.data.mode = .roundRobin ∧ s.file.mode = .sequential := by
  refine ⟨fun h => ?_, ⟨_, rfl, rfl, rfl⟩, fun h => ?_, ⟨_, rfl, rfl, rfl⟩⟩
  · have hstep := (h.2 _ rfl).1 _ rfl
    exact Bool.false_ne_true (hstep.1 rfl rfl).1
  · have hflush := (h.1 _ rfl).2 600
    exact absurd (congrArg AccountPoolData.mode hflush) (fun h => nomatch h)

end Stores

end AgyProxy
