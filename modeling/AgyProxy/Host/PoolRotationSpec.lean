import AgyProxy.Host.DispatchSpec
import AgyProxy.Host.PoolActiveSpec
import AgyProxy.Lib.Rotation

/-!
# AgyProxy.Host.PoolRotationSpec — how fair round-robin is

Runs one after the other, each on the account the scheduler picks and each with an outcome; the settlement
makes the pool calls of `DispatchCall.poolOps` (`src/host/engine.ts`).  A retry is part of its run: it finds
the pool as the first attempt did.

* `sequentialRun`: one run, under a clock that advances between runs.
* `stamp`: when an account was last used; only a success writes it.
* `UsedBy s t`: nobody was used later than `t`; so it is of every pool whose clock has not passed `t`.
* `Picks`: the scheduler's choice by stamps; `rotates_of_runs`: the runs are turns of `Lib.Rotation`.
* `rotation_fair_iff`: **fairness holds exactly** when every run but the last succeeds, or when no two
  accounts are eligible.
-/

namespace AgyProxy

open Js Lib

/-- The pool call of a settlement. -/
def PoolOp.apply (dateParse : JsString → Option ℤ) (now : ℕ) (s : AccountPoolData) : PoolOp → AccountPoolData
  | .recordSuccess id family => s.recordSuccess id.val family now
  | .recordFailure id family reason => s.recordFailure dateParse id.val family reason none now
  | .markAuthRequired id reason => s.markAuthRequired id.val (some reason)

structure GatewayRun where
  call : DispatchCall
  selectedAt : ℕ
  settledAt : ℕ
  /-- what the run settles with -/
  last : AttemptResult

structure GatewayRuns where
  pool : AccountPoolData
  /-- the clock at the last settlement -/
  clock : ℕ
  /-- history: the accounts selected -/
  selected : List JsString

def GatewayRuns.start (pool : AccountPoolData) (clock : ℕ) : GatewayRuns := ⟨pool, clock, []⟩

/-- `none` when no account is selected, or the outcome is another account's. -/
def sequentialRun (dateParse : JsString → Option ℤ) (s : GatewayRuns) (r : GatewayRun) : Option GatewayRuns :=
  if r.selectedAt ≤ s.clock ∨ r.settledAt < r.selectedAt then none
  else
    match s.pool.selectAccount dateParse r.call.family [] r.selectedAt with
    | (none, _) => none
    | (some account, pool) =>
      if r.last.account.map AccountId.val = some account.key then
        some
          { pool := (r.call.poolOps r.last).foldl (PoolOp.apply dateParse r.settledAt) pool
            clock := r.settledAt
            selected := s.selected ++ [account.key] }
      else none

/-- The eligible accounts at the run's selection, in the pool's order; a run does not reorder them. -/
def EligibleAre (dateParse : JsString → Option ℤ) (E : List JsString) (s : GatewayRuns) (r : GatewayRun) : Prop :=
  (s.pool.candidates dateParse r.call.family [] r.selectedAt).map PoolAccount.key = E

instance (dateParse : JsString → Option ℤ) (E : List JsString) (s : GatewayRuns) (r : GatewayRun) :
    Decidable (EligibleAre dateParse E s r) :=
  inferInstanceAs (Decidable (_ = _))

section Rotation

variable {s s' : AccountPoolData} {dateParse : JsString → Option ℤ} {id k : JsString} {a first : PoolAccount}
  {rest : List PoolAccount} {f : PoolAccount → PoolAccount} {family : ModelFamily} {now : ℕ} {E : List JsString}

namespace AccountPoolData

/-! ### Stamps -/

/-- When the account of that id was last used. -/
def stamp (s : AccountPoolData) (id : JsString) : ℕ := ((s.getAccount id).map PoolAccount.usedAt).getD 0

theorem stamp_of_mem (ha : a ∈ s.accounts) : s.stamp a.key = a.usedAt := by
  have hget : s.getAccount a.key = some a := (find?_key_iff s.unique).mpr ⟨ha, rfl⟩
  unfold stamp
  rw [hget]
  rfl

theorem getAccount_edit : (s.edit id f).getAccount k =
    (s.getAccount k).map fun a => if a.key = id then a.change f else a := by
  have hkey : (fun a : PoolAccount => decide (a.key = k)) ∘ (fun a => if a.key = id then a.change f else a) =
      fun a => decide (a.key = k) := by
    funext a
    show decide ((if a.key = id then a.change f else a).key = k) = _
    split
    · rfl
    · rfl
  show (s.accounts.map fun a => if a.key = id then a.change f else a).find?
    (fun a => decide (a.key = k)) = _
  rw [List.find?_map, hkey]
  rfl

def UsedBy (s : AccountPoolData) (t : ℕ) : Prop := ∀ a ∈ s.accounts, a.usedAt ≤ t

/-- The clock a call stamps an account with has not passed `t`. -/
def StampsBy (t : ℕ) (e : PoolEdit) : Prop := ∀ now, e.stamp = some now → now ≤ t

theorem UsedBy.edit {t : ℕ} (h : UsedBy s t) (hf : ∀ a, a.usedAt ≤ t → (f a).usedAt ≤ t) : UsedBy (s.edit id f) t := by
  intro b hb
  rcases mem_updateAt_iff.mp hb with ⟨hmem, -⟩ | ⟨a, ha, -, rfl⟩
  · exact h b hmem
  · exact hf a (h a ha)

theorem usedBy_step {t : ℕ} (s : AccountPoolData) (e : PoolEdit) (s' : AccountPoolData) (h : UsedBy s t)
    (he : StampsBy t e) (hstep : s.step dateParse e = some s') : UsedBy s' t := by
  cases step_effect s e s' hstep with
  | unchanged => exact h
  | pushed account hfresh =>
    intro b hb
    rcases List.mem_append.mp hb with hb | hb
    · exact h b hb
    · rw [List.mem_singleton.mp hb]
      exact Nat.zero_le t
  | deleted id =>
    unfold deleteAccount
    split
    · exact h
    · exact fun b hb => h b (List.mem_of_mem_eraseP hb)
  | edited id f husable hused =>
    refine h.edit fun a ha => ?_
    rcases hused a with hsame | hstamp
    · exact hsame.trans_le ha
    · exact he _ hstamp
  | withdrawn id f hused => exact h.edit fun a ha => (hused a).trans_le ha
  | reordered ids => exact fun b hb => h b ((reorderAccounts_perm s ids).mem_iff.mp hb)
  | swept _ f hkey husable hused haccounts hactive =>
    intro b hb
    rw [haccounts] at hb
    obtain ⟨a, ha, rfl⟩ := List.mem_map.mp hb
    exact (hused a).trans_le (h a ha)
  | retuned mode => exact h
  | stuck family a ha husable => exact h

/-- A pool whose clock has not passed `t`. -/
theorem usedBy_of_exec {t : ℕ} {edits : List PoolEdit} (hedits : ∀ e ∈ edits, StampsBy t e)
    (hrun : exec (step dateParse) defaultPoolData edits = some s) : UsedBy s t :=
  exec_invariant usedBy_step edits defaultPoolData s (fun _ h => absurd h List.not_mem_nil) (Every.of_forall hedits)
    hrun

/-- What leaves the mode, the ids and the stamps alone. -/
structure Unstamped (s s' : AccountPoolData) : Prop where
  mode : s'.mode = s.mode
  stamp : s'.stamp = s.stamp

theorem Unstamped.trans {s'' : AccountPoolData} (h : Unstamped s s') (h' : Unstamped s' s'') : Unstamped s s'' :=
  ⟨h'.mode.trans h.mode, h'.stamp.trans h.stamp⟩

theorem unstamped_edit (hused : ∀ a, (f a).usedAt = a.usedAt) : Unstamped s (s.edit id f) := by
  refine ⟨rfl, funext fun k => ?_⟩
  unfold stamp
  rw [getAccount_edit, Option.map_map]
  congr 2
  funext a
  show (if a.key = id then a.change f else a).usedAt = a.usedAt
  split
  · exact hused a
  · rfl

theorem unstamped_markAuthRequired (s : AccountPoolData) (id : JsString) (reason : Option JsString) :
    Unstamped s (s.markAuthRequired id reason) := by
  unfold markAuthRequired
  split
  · exact ⟨rfl, rfl⟩
  · exact ⟨rfl, (unstamped_edit (f := fun a => { a with authRequired := true, authError := _ }) fun _ => rfl).stamp⟩

/-- The pool calls that do not report a success. -/
def ReportsFailure : PoolOp → Prop
  | .recordSuccess _ _ => False
  | .recordFailure _ _ _ | .markAuthRequired _ _ => True

theorem unstamped_apply (dateParse : JsString → Option ℤ) (now : ℕ) {op : PoolOp} (hop : ReportsFailure op)
    (s : AccountPoolData) : Unstamped s (op.apply dateParse now s) := by
  cases op with
  | recordSuccess id family => exact hop.elim
  | recordFailure id family reason => exact unstamped_edit fun _ => rfl
  | markAuthRequired id reason => exact unstamped_markAuthRequired s id.val (some reason)

theorem unstamped_foldl (dateParse : JsString → Option ℤ) (now : ℕ) {ops : List PoolOp}
    (hops : ∀ op ∈ ops, ReportsFailure op) (s : AccountPoolData) :
    Unstamped s (ops.foldl (PoolOp.apply dateParse now) s) := by
  induction ops generalizing s with
  | nil => exact ⟨rfl, rfl⟩
  | cons op ops ih =>
    have hop := unstamped_apply dateParse now (hops op List.mem_cons_self) s
    exact hop.trans (ih (fun op' h => hops op' (List.mem_cons_of_mem _ h)) _)

/-- The settlement of a failure reports nothing else. -/
theorem reportsFailure_of_mem {family : ModelFamily} {last : AttemptResult} {failure : RecordingFailure}
    (op : PoolOp) (h : op ∈ failurePoolOps family last failure) : ReportsFailure op := by
  unfold failurePoolOps at h
  split at h
  · exact absurd h List.not_mem_nil
  · rcases List.mem_append.mp h with h | h
    · split at h
      · rw [List.mem_singleton.mp h]
        exact trivial
      · exact absurd h List.not_mem_nil
    · split at h
      · rw [List.mem_singleton.mp h]
        exact trivial
      · exact absurd h List.not_mem_nil

theorem stamp_recordSuccess (ha : a ∈ s.accounts) :
    (s.recordSuccess a.key family now).stamp = Function.update s.stamp a.key now := by
  funext k
  unfold stamp recordSuccess
  rw [getAccount_edit]
  by_cases hk : k = a.key
  · have hget : s.getAccount a.key = some a := (find?_key_iff s.unique).mpr ⟨ha, rfl⟩
    rw [hk, Function.update_self, hget, Option.map_some, Option.map_some, if_pos rfl]
    rfl
  · rw [Function.update_of_ne hk]
    cases hget : s.getAccount k with
    | none => rfl
    | some b =>
      have hfound := List.find?_some (show s.accounts.find? (fun a => decide (a.key = k)) = some b from hget)
      have hb : b.key = k := of_decide_eq_true hfound
      rw [Option.map_some, if_neg fun h => hk (hb.symm.trans h)]

/-! ### The choice -/

/-- The first of `E` with the least stamp. -/
def Picks (E : List JsString) (stamps : JsString → ℕ) (id : JsString) : Prop :=
  (E.insertionSort fun x y => stamps x ≤ stamps y).head? = some id

theorem Picks.mem {stamps : JsString → ℕ} (h : Picks E stamps id) : id ∈ E :=
  (List.mem_insertionSort _).mp (List.mem_of_mem_head? (Option.mem_def.mpr h))

theorem Picks.le {stamps : JsString → ℕ} (h : Picks E stamps id) (hk : k ∈ E) : stamps id ≤ stamps k := by
  have hsorted := List.pairwise_insertionSort (fun x y => stamps x ≤ stamps y) E
  have hmem := (List.mem_insertionSort fun x y => stamps x ≤ stamps y).mpr hk
  unfold Picks at h
  cases hl : E.insertionSort fun x y => stamps x ≤ stamps y with
  | nil =>
    rw [hl] at h
    exact absurd h (Option.some_ne_none _).symm
  | cons x rest =>
    rw [hl] at h hsorted hmem
    obtain rfl : x = id := Option.some.inj h
    rcases List.mem_cons.mp hmem with rfl | hmem
    · exact le_rfl
    · exact (List.pairwise_cons.mp hsorted).1 k hmem

theorem leastRecentlyUsed_picks {l : List PoolAccount} (hl : ∀ c ∈ l, c ∈ s.accounts)
    (h : leastRecentlyUsed l = some a) : Picks (l.map PoolAccount.key) s.stamp a.key := by
  unfold Picks
  rw [← List.map_insertionSort (fun a b : PoolAccount => a.usedAt ≤ b.usedAt), List.head?_map]
  · unfold leastRecentlyUsed at h
    rw [h]
    rfl
  · intro b hb c hc
    rw [stamp_of_mem (hl b hb), stamp_of_mem (hl c hc)]

/-- A selection in round-robin mode picks, and touches neither stamps nor accounts. -/
theorem picks_of_select (hmode : s.mode = .roundRobin)
    (h : s.selectAccount dateParse family [] now = (some a, s')) :
    Picks ((s.candidates dateParse family [] now).map PoolAccount.key) s.stamp a.key ∧ a ∈ s'.accounts ∧
      Unstamped s s' := by
  have hchoices : choices dateParse s family [] now = s.candidates dateParse family [] now := by
    unfold choices
    split
    · rfl
    · rfl
  cases hc : s.candidates dateParse family [] now with
  | nil =>
    rw [selectAccount_of_nil (hchoices.trans hc)] at h
    exact absurd (congrArg Prod.fst h).symm (Option.some_ne_none a)
  | cons first rest =>
    have hsub : ∀ c ∈ first :: rest, c ∈ s.accounts := by
      intro c hmem
      rw [← hc] at hmem
      exact (mem_candidates_iff.mp hmem).1
    rw [selectAccount_of_cons (hchoices.trans hc)] at h
    obtain ⟨b, hb, hcases⟩ := selectAmong_cases family hsub
    have hframe : b = a ∧ s'.accounts = s.accounts ∧ Unstamped s s' := by
      rcases hcases with h' | h'
      · obtain ⟨hba, rfl⟩ := Prod.mk.inj (h'.symm.trans h)
        exact ⟨Option.some.inj hba, rfl, rfl, rfl⟩
      · obtain ⟨hba, rfl⟩ := Prod.mk.inj (h'.symm.trans h)
        exact ⟨Option.some.inj hba, rfl, rfl, rfl⟩
    obtain ⟨rfl, haccounts, hframe⟩ := hframe
    refine ⟨?_, haccounts ▸ hsub b hb, hframe⟩
    cases rest with
    | nil =>
      obtain rfl := List.mem_singleton.mp hb
      rfl
    | cons second rest =>
      unfold selectAmong at h
      rw [if_pos ⟨hmode, List.cons_ne_nil second rest⟩] at h
      exact leastRecentlyUsed_picks hsub (congrArg Prod.fst h)

end AccountPoolData

open AccountPoolData

/-! ### Runs -/

/-- A run succeeded. -/
def GatewayRun.ok (r : GatewayRun) : Bool := r.last.failure.isNone

/-- The turn a run is. -/
def GatewayRun.turn (r : GatewayRun) (who : JsString) : StampTurn JsString := ⟨who, r.settledAt, r.ok⟩

/-- What the settlement does to the stamps. -/
theorem stamp_settle (dateParse : JsString → Option ℤ) (call : DispatchCall) {last : AttemptResult} {s : AccountPoolData} {a : PoolAccount}
    (ha : a ∈ s.accounts) (hlast : last.account.map AccountId.val = some a.key) (now : ℕ) :
    ((call.poolOps last).foldl (PoolOp.apply dateParse now) s).mode = s.mode ∧
      ((call.poolOps last).foldl (PoolOp.apply dateParse now) s).stamp =
        StampTurn.restamp ⟨a.key, now, last.failure.isNone⟩ s.stamp := by
  unfold DispatchCall.poolOps StampTurn.restamp
  cases hfailure : last.failure with
  | none =>
    obtain ⟨id, hid, hkey⟩ := Option.map_eq_some_iff.mp hlast
    rw [hid]
    show (s.recordSuccess id.val call.family now).mode = s.mode ∧ (s.recordSuccess id.val call.family now).stamp = _
    rw [hkey]
    exact ⟨rfl, stamp_recordSuccess ha⟩
  | some failure =>
    have hops : Unstamped s ((failurePoolOps call.family last failure).foldl (PoolOp.apply dateParse now) s) :=
      unstamped_foldl dateParse now reportsFailure_of_mem s
    exact ⟨hops.mode, hops.stamp⟩

/-- One run is one turn. -/
theorem turn_of_run {s t : GatewayRuns} {r : GatewayRun} (hmode : s.pool.mode = .roundRobin)
    (hsame : EligibleAre dateParse E s r) (h : sequentialRun dateParse s r = some t) :
    ∃ who, Picks E s.pool.stamp who ∧ s.clock < r.settledAt ∧ t.selected = s.selected ++ [who] ∧
      t.clock = r.settledAt ∧ t.pool.mode = .roundRobin ∧ t.pool.stamp = (r.turn who).restamp s.pool.stamp := by
  unfold sequentialRun at h
  split at h
  · exact absurd h (Option.some_ne_none t).symm
  · rename_i hclock
    split at h
    · exact absurd h (Option.some_ne_none t).symm
    · rename_i account pool hselect
      split at h
      · rename_i hlast
        obtain rfl := Option.some.inj h
        obtain ⟨hpicks, hmem, hframe⟩ := picks_of_select hmode hselect
        rw [hsame] at hpicks
        obtain ⟨hmode', hstamp⟩ := stamp_settle dateParse r.call hmem hlast r.settledAt
        refine ⟨account.key, hpicks, by omega, rfl, rfl, ?_, ?_⟩
        · exact hmode'.trans (hframe.mode.trans hmode)
        · rw [hframe.stamp] at hstamp
          exact hstamp
      · exact absurd h (Option.some_ne_none t).symm

theorem rotates_of_runs : ∀ {runs : List GatewayRun} {s s' : GatewayRuns}, s.pool.mode = .roundRobin →
    exec (sequentialRun dateParse) s runs = some s' →
    Every (sequentialRun dateParse) (EligibleAre dateParse E) s runs →
    ∃ turns : List (StampTurn JsString), s'.selected = s.selected ++ turns.map StampTurn.who ∧
      turns.map StampTurn.stamped = runs.map GatewayRun.ok ∧ Rotates (Picks E) s.pool.stamp s.clock turns
  | [], s, s', _, hrun, _ => by
    obtain rfl := Option.some.inj hrun
    exact ⟨[], (List.append_nil _).symm, rfl, trivial⟩
  | r :: runs, s, s', hmode, hrun, hsame => by
    obtain ⟨t, ht, hrest⟩ := exec_cons hrun
    obtain ⟨who, hpicks, hclock, hselected, htime, hmode', hstamp⟩ := turn_of_run hmode hsame.1 ht
    obtain ⟨turns, htrace, hflags, hturns⟩ := rotates_of_runs hmode' hrest (hsame.2 t ht)
    rw [hstamp, htime] at hturns
    refine ⟨r.turn who :: turns, ?_, ?_, hpicks, hclock, hturns⟩
    · rw [htrace, hselected, List.append_assoc]
      rfl
    · rw [List.map_cons, List.map_cons, hflags]
      rfl

/-- **When round-robin is fair**: no eligible account comes a second time before every other one has. -/
theorem rotation_fair_iff (dateParse : JsString → Option ℤ) (E : List JsString) (pool : AccountPoolData) (clock : ℕ)
    (runs : List GatewayRun) (s : GatewayRuns) (hmode : pool.mode = .roundRobin)
    (hclock : UsedBy pool clock)
    (hrun : exec (sequentialRun dateParse) (.start pool clock) runs = some s)
    (hsame : Every (sequentialRun dateParse) (EligibleAre dateParse E) (.start pool clock) runs) :
    Fair (· ∈ E) s.selected ↔
      (∀ r ∈ runs.dropLast, r.last.failure = none) ∨ ∀ x y, x ∈ E → y ∈ E → x = y := by
  obtain ⟨turns, htrace, hflags, hturns⟩ := rotates_of_runs (s := .start pool clock) hmode hrun hsame
  have hstamped : Stamped (· ∈ E) pool.stamp clock := by
    intro id _
    unfold stamp
    cases hget : pool.getAccount id with
    | none => exact Nat.zero_le clock
    | some a => exact hclock a (List.mem_of_find?_eq_some hget)
  have hdrop : (∀ turn ∈ turns.dropLast, turn.stamped = true) ↔ ∀ r ∈ runs.dropLast, r.last.failure = none := by
    have hmap : turns.dropLast.map StampTurn.stamped = runs.dropLast.map GatewayRun.ok := by
      rw [List.map_dropLast, hflags, List.map_dropLast]
    calc (∀ turn ∈ turns.dropLast, turn.stamped = true)
        ↔ ∀ b ∈ turns.dropLast.map StampTurn.stamped, b = true := by rw [List.forall_mem_map]
      _ ↔ ∀ r ∈ runs.dropLast, r.ok = true := by rw [hmap, List.forall_mem_map]
      _ ↔ ∀ r ∈ runs.dropLast, r.last.failure = none := forall₂_congr fun r _ => Option.isNone_iff_eq_none
  rw [htrace, ← hdrop]
  exact fair_iff (fun _ _ h => h.mem) (fun _ _ h _ hk => h.le hk)
    (fun _ _ _ h h' => Option.some.inj (h.symm.trans h')) hstamped hturns

/-- Two accounts that were never used, in round-robin mode. -/
def rotatingPool : AccountPoolData :=
  ((defaultPoolData.createAccountSlot slotA none 1000 List.not_mem_nil).createAccountSlot slotB none 2000
    (by decide)).setMode .roundRobin

theorem exec_rotatingPool : exec (step fun _ => none) defaultPoolData
    [.createAccountSlot slotA none 1000, .createAccountSlot slotB none 2000, .setMode .roundRobin] =
      some rotatingPool := by
  rfl

/-- A run whose process could not be started. -/
def spawnFailedRun (selectedAt : ℕ) (id : AccountId) : GatewayRun :=
  ⟨promptCall, selectedAt, selectedAt + 100, spawnFailed (js "failed to spawn agy: spawn agy ENOENT") (some id)⟩

def okRun (selectedAt : ℕ) (id : AccountId) : GatewayRun :=
  { spawnFailedRun selectedAt id with last := { spawnFailed [] (some id) with failure := none } }

/-- After a failed run the scheduler picks the same account again. -/
theorem rotation_unfair_spawnFailed : ∃ s,
    exec (sequentialRun fun _ => none) (.start rotatingPool 2000)
      [spawnFailedRun 3000 accountA, spawnFailedRun 4000 accountA] = some s ∧
    Every (sequentialRun fun _ => none) (EligibleAre (fun _ => none) [accountA.val, accountB.val])
      (.start rotatingPool 2000) [spawnFailedRun 3000 accountA, spawnFailedRun 4000 accountA] ∧
    s.selected = [accountA.val, accountA.val] ∧ ¬ Fair (· ∈ [accountA.val, accountB.val]) s.selected := by
  obtain ⟨s, hrun, hselected⟩ := Option.map_eq_some_iff.mp
    (show (exec (sequentialRun fun _ => none) (.start rotatingPool 2000)
      [spawnFailedRun 3000 accountA, spawnFailedRun 4000 accountA]).map GatewayRuns.selected =
        some [accountA.val, accountA.val] by decide +kernel)
  refine ⟨s, hrun, by decide +kernel, hselected, ?_⟩
  rw [hselected]
  intro hfair
  have hmem := hfair [] [] [] accountA.val rfl accountB.val (by decide) (by decide)
  exact List.not_mem_nil hmem

theorem rotation_fair_success : ∃ s,
    exec (sequentialRun fun _ => none) (.start rotatingPool 2000)
      [okRun 3000 accountA, okRun 4000 accountB, spawnFailedRun 5000 accountA] = some s ∧
    Fair (· ∈ [accountA.val, accountB.val]) s.selected := by
  obtain ⟨s, hrun, -⟩ := Option.map_eq_some_iff.mp
    (show (exec (sequentialRun fun _ => none) (.start rotatingPool 2000)
      [okRun 3000 accountA, okRun 4000 accountB, spawnFailedRun 5000 accountA]).map GatewayRuns.selected =
        some [accountA.val, accountB.val, accountA.val] by decide +kernel)
  have hclock : UsedBy rotatingPool 2000 := usedBy_of_exec (by simp [StampsBy, PoolEdit.stamp]) exec_rotatingPool
  have hiff := rotation_fair_iff _ [accountA.val, accountB.val] _ _ _ s rfl hclock hrun (by decide +kernel)
  exact ⟨s, hrun, hiff.mpr (Or.inl (by decide +kernel))⟩

end Rotation

end AgyProxy
