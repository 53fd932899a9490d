import AgyProxy.Lib.Deferred
import AgyProxy.Server.KeyStoreSpec

/-!
# AgyProxy.Server.KeyTouchSpec — when the last use of a key is stored

* `TouchRun`: a key store with its clock and, as history, the last touch of each id and the writes that a touch was
  seen to make (`storedNow`); `step`: touches, flushes and removals in any order over a clock that does not go back.
* `cell?`: the stamps of one key, as the cell of the library; each operation of the store is the cell's
  (`cell?_touch`, `cell?_flushTouch`, `cell?_remove`).
* `lastUsed_debounced`: **the debounce**; a flush stores the last touch, the stored stamp only grows, and the
  immediate writes of a key are a window apart.
-/

namespace AgyProxy

open Js Lib

/-- A call has stored the time `now` in the row of the key: the row shows it, and it did not before or no time is
left for a flush. -/
def KeyStore.storedNow (before after : KeyStore) (id : JsString) (now : ℕ) : Bool :=
  ((after.table.get id).any fun r => decide (r.lastUsedAt = some now)) &&
    ((after.touchPending id).isNone || (before.table.get id).any fun r => decide (r.lastUsedAt ≠ some now))

structure TouchRun where
  store : KeyStore
  clock : ℕ
  /-- history: the last touch of each id -/
  touched : JsString → Option ℕ
  /-- history: the stamps that touches have stored, in order -/
  immediate : List (JsString × ℕ)

inductive TouchAction
  | touch (id : JsString) (now : ℕ)
  | flushTouch
  | remove (id : JsString)

namespace TouchRun

/-- A new process on a database of earlier ones. -/
def start (masterKey : Option JsString) (table : KeyTable) (clock : ℕ) : TouchRun :=
  ⟨.init masterKey table, clock, fun _ => none, []⟩

/-- One call; a touch reads the clock. -/
def step (s : TouchRun) : TouchAction → Option TouchRun
  | .touch id now =>
    if s.clock ≤ now then
      some
        { store := s.store.touch id now
          clock := now
          touched := Function.update s.touched id (some now)
          immediate :=
            if s.store.storedNow (s.store.touch id now) id now then s.immediate ++ [(id, now)] else s.immediate }
    else none
  | .flushTouch => some { s with store := s.store.flushTouch }
  | .remove id => some { s with store := (s.store.remove id).2 }

/-- The stamps written at once for a key. -/
def immediateOf (s : TouchRun) (id : JsString) : List ℕ :=
  s.immediate.filterMap fun write => if write.1 = id then some write.2 else none

end TouchRun

/-! ### The statements -/

namespace KeyTable

variable (t : KeyTable) {id id' : JsString}

theorem get_stmtTouch (ts : ℕ) : (KeyStore.stmtTouch t ts id).get id' =
    (t.get id').map fun r => if r.id = id then { r with lastUsedAt := some ts } else r := by
  obtain ⟨t', ht', hrows⟩ := update_of_kept (t := t) (f := fun r => { r with lastUsedAt := some ts }) id
    (fun _ => rfl) fun _ => rfl
  unfold KeyStore.stmtTouch get
  rw [ht']
  show t'.rows.find? _ = _
  rw [hrows]
  exact find?_updateAt fun _ => rfl

theorem get_delete {t' : KeyTable} (ht' : t.delete id = some t') :
    t'.get id' = if id' = id then none else t.get id' := by
  obtain ⟨t'', ht'', hrows⟩ := t.delete_rows id
  obtain rfl := Option.some.inj (ht'.symm.trans ht'')
  unfold get
  rw [hrows, List.find?_filter]
  by_cases hid : id' = id
  · rw [if_pos hid, List.find?_eq_none]
    rintro r - hr
    simp [hid] at hr
  · rw [if_neg hid]
    congr 1
    funext r
    by_cases hr : r.id = id'
    · simp [hr, hid]
    · simp [hr]

end KeyTable

/-! ### One key -/

section Cell

namespace KeyStore

variable {s : KeyStore} {id id' : JsString} {now : ℕ}

/-- The stamps of a key that has a row. -/
def cell? (s : KeyStore) (id : JsString) : Option Deferred :=
  (s.table.get id).map fun r => ⟨r.lastUsedAt, s.lastWritten id, s.touchPending id⟩

/-- A touch is the cell's; other keys do not notice. -/
theorem cell?_touch (s : KeyStore) (id id' : JsString) (now : ℕ) : (s.touch id now).cell? id' =
    if id' = id then (s.cell? id').map fun c => c.touch TOUCH_DEBOUNCE_MS now else s.cell? id' := by
  unfold touch
  by_cases hnow : now < (s.lastWritten id).getD 0 + TOUCH_DEBOUNCE_MS
  · rw [if_pos hnow]
    by_cases hid : id' = id
    · subst hid
      rw [if_pos rfl]
      unfold cell?
      rw [Option.map_map]
      congr 1
      funext r
      have hdue : Deferred.due TOUCH_DEBOUNCE_MS ⟨r.lastUsedAt, s.lastWritten id', s.touchPending id'⟩ now = false := by
        unfold Deferred.due
        exact decide_eq_false (Nat.not_le.mpr hnow)
      rw [Function.comp_apply]
      show (⟨r.lastUsedAt, s.lastWritten id', Function.update s.touchPending id' (some now) id'⟩ : Deferred) =
        Deferred.touch TOUCH_DEBOUNCE_MS _ now
      unfold Deferred.touch
      rw [hdue, if_neg Bool.false_ne_true, Function.update_self]
    · rw [if_neg hid]
      unfold cell?
      congr 1
      funext r
      show (⟨r.lastUsedAt, s.lastWritten id', Function.update s.touchPending id (some now) id'⟩ : Deferred) = _
      rw [Function.update_of_ne hid]
  · rw [if_neg hnow]
    unfold writeTouch cell?
    show ((stmtTouch s.table now id).get id').map _ = _
    rw [KeyTable.get_stmtTouch, Option.map_map]
    by_cases hid : id' = id
    · subst hid
      rw [if_pos rfl, Option.map_map]
      refine Option.map_congr fun r hr => ?_
      have hrid : r.id = id' := (KeyTable.get_eq_some_iff.mp hr).2
      have hdue : Deferred.due TOUCH_DEBOUNCE_MS ⟨r.lastUsedAt, s.lastWritten id', s.touchPending id'⟩ now = true := by
        unfold Deferred.due
        exact decide_eq_true (Nat.not_lt.mp hnow)
      rw [Function.comp_apply, Function.comp_apply]
      show (⟨(if r.id = id' then { r with lastUsedAt := some now } else r).lastUsedAt,
          Function.update s.lastWritten id' (some now) id', Function.update s.touchPending id' none id'⟩ : Deferred) =
        Deferred.touch TOUCH_DEBOUNCE_MS _ now
      unfold Deferred.touch
      rw [hdue, if_pos rfl, if_pos hrid, Function.update_self, Function.update_self]
    · rw [if_neg hid]
      refine Option.map_congr fun r hr => ?_
      have hrid : r.id ≠ id := fun h => hid ((KeyTable.get_eq_some_iff.mp hr).2.symm.trans h)
      show (⟨(if r.id = id then { r with lastUsedAt := some now } else r).lastUsedAt,
          Function.update s.lastWritten id (some now) id', Function.update s.touchPending id none id'⟩ : Deferred) = _
      rw [if_neg hrid, Function.update_of_ne hid, Function.update_of_ne hid]

/-- What a flush makes of a row. -/
def landed (pending : JsString → Option ℕ) (r : KeyRow) : KeyRow :=
  match pending r.id with
  | some ts => { r with lastUsedAt := some ts }
  | none => r

theorem landed_landed (pending : JsString → Option ℕ) (r : KeyRow) :
    landed pending (landed pending r) = landed pending r := by
  unfold landed
  cases hpending : pending r.id with
  | none =>
    dsimp only
    rw [hpending]
  | some ts =>
    dsimp only
    rw [hpending]

theorem get_landTouch (pending : JsString → Option ℕ) (t : KeyTable) (r : KeyRow) :
    (landTouch pending t r).get id = (t.get id).map fun x => if x.id = r.id then landed pending x else x := by
  unfold landTouch
  cases hpending : pending r.id with
  | none =>
    have hkeep : ∀ x ∈ t.get id, (if x.id = r.id then landed pending x else x) = x := by
      intro x _
      split
      · rename_i hid
        unfold landed
        rw [hid, hpending]
      · rfl
    exact (Option.map_congr hkeep).trans (Option.map_id' ..) |>.symm
  | some ts =>
    show (stmtTouch t ts r.id).get id = _
    rw [KeyTable.get_stmtTouch]
    refine Option.map_congr fun x _ => ?_
    by_cases hid : x.id = r.id
    · rw [if_pos hid, if_pos hid]
      unfold landed
      rw [hid, hpending]
    · rw [if_neg hid, if_neg hid]

theorem get_foldl_landTouch (pending : JsString → Option ℕ) : ∀ (rows : List KeyRow) (t : KeyTable),
    (rows.foldl (landTouch pending) t).get id =
      (t.get id).map fun x => if x.id ∈ rows.map KeyRow.id then landed pending x else x
  | [], t => by
    have hnone : (fun x : KeyRow => if x.id ∈ ([] : List KeyRow).map KeyRow.id then landed pending x else x) =
        fun x => x :=
      funext fun x => if_neg List.not_mem_nil
    rw [hnone, List.foldl_nil]
    exact (Option.map_id' ..).symm
  | r :: rows, t => by
    rw [List.foldl_cons, get_foldl_landTouch pending rows, get_landTouch, Option.map_map]
    refine Option.map_congr fun x _ => ?_
    show (if (if x.id = r.id then landed pending x else x).id ∈ rows.map KeyRow.id then
        landed pending (if x.id = r.id then landed pending x else x)
      else if x.id = r.id then landed pending x else x) = _
    have hkeep : (landed pending x).id = x.id := by
      unfold landed
      split <;> rfl
    by_cases hr : x.id = r.id
    · rw [if_pos hr, landed_landed, ite_self, if_pos]
      rw [hr]
      exact List.mem_cons_self
    · rw [if_neg hr]
      refine if_congr ?_ rfl rfl
      rw [List.map_cons, List.mem_cons, or_iff_right hr]

theorem cell?_flushTouch (s : KeyStore) (id : JsString) : s.flushTouch.cell? id = (s.cell? id).map Deferred.flush := by
  unfold cell? flushTouch
  show ((s.table.rows.foldl (landTouch s.touchPending) s.table).get id).map _ = _
  rw [get_foldl_landTouch, Option.map_map, Option.map_map]
  refine Option.map_congr fun r hr => ?_
  obtain ⟨hmem, hrid⟩ := KeyTable.get_eq_some_iff.mp hr
  show (⟨(if r.id ∈ s.table.rows.map KeyRow.id then landed s.touchPending r else r).lastUsedAt,
    (s.touchPending id).or (s.lastWritten id), none⟩ : Deferred) = Deferred.flush _
  rw [if_pos (List.mem_map_of_mem hmem)]
  unfold landed Deferred.flush
  rw [hrid]
  cases s.touchPending id with
  | none => rfl
  | some ts => rfl

theorem cell?_remove (s : KeyStore) (id id' : JsString) :
    (s.remove id).2.cell? id' = if id' = id then none else s.cell? id' := by
  obtain ⟨t, ht, -⟩ := s.table.delete_rows id
  unfold remove
  rw [ht]
  unfold cell?
  show (t.get id').map _ = _
  rw [KeyTable.get_delete s.table ht]
  by_cases hid : id' = id
  · rw [if_pos hid, if_pos hid]
    rfl
  · rw [if_neg hid, if_neg hid]
    refine Option.map_congr fun r _ => ?_
    show (⟨r.lastUsedAt, Function.update s.lastWritten id none id', Function.update s.touchPending id none id'⟩ :
      Deferred) = _
    rw [Function.update_of_ne hid, Function.update_of_ne hid]

/-- What one call has stored is what its cell shows. -/
theorem storedNow_of_cell {before after : KeyStore} {c c' : Deferred} (h : before.cell? id = some c)
    (h' : after.cell? id = some c') : before.storedNow after id now = c.storedNow c' now := by
  obtain ⟨r, hr, rfl⟩ := Option.map_eq_some_iff.mp h
  obtain ⟨r', hr', rfl⟩ := Option.map_eq_some_iff.mp h'
  unfold storedNow Deferred.storedNow
  rw [hr, hr', Option.any_some, Option.any_some]

/-- A touch stores its time exactly when there is a row and its cell is due. -/
theorem storedNow_touch (s : KeyStore) (id : JsString) (now : ℕ) :
    s.storedNow (s.touch id now) id now = (s.cell? id).any fun c => c.due TOUCH_DEBOUNCE_MS now := by
  have htouch := s.cell?_touch id id now
  rw [if_pos rfl] at htouch
  cases hc : s.cell? id with
  | none =>
    rw [hc] at htouch
    have hrow : (s.touch id now).table.get id = none := Option.map_eq_none_iff.mp htouch
    unfold storedNow
    rw [hrow]
    rfl
  | some c =>
    rw [hc] at htouch
    rw [storedNow_of_cell hc htouch, Deferred.storedNow_touch, Option.any_some]

end KeyStore

end Cell

/-! ### Runs -/

section Runs

namespace TouchRun

variable {s s' : TouchRun} {a : TouchAction} {id : JsString}

/-- Every key that has a row is reconciled with its history, and the writes of every key are apart. -/
structure Inv (s : TouchRun) : Prop where
  cell : ∀ id c, s.store.cell? id = some c →
    c.Reconciled TOUCH_DEBOUNCE_MS s.clock (s.touched id) (s.immediateOf id)
  spaced : ∀ id, (s.immediateOf id).Pairwise fun t t' => t + TOUCH_DEBOUNCE_MS ≤ t'

theorem start_inv (masterKey : Option JsString) {table : KeyTable} {clock : ℕ}
    (h : ∀ r ∈ table.rows, ∀ t ∈ r.lastUsedAt, t ≤ clock) : (start masterKey table clock).Inv := by
  refine ⟨fun id c hc => ?_, fun id => List.Pairwise.nil⟩
  obtain ⟨r, hr, rfl⟩ := Option.map_eq_some_iff.mp hc
  exact Deferred.reconciled_new (h r (KeyTable.get_eq_some_iff.mp hr).1)

theorem immediateOf_touch (s : TouchRun) (store : KeyStore) (id id' : JsString) (now : ℕ)
    (touched : JsString → Option ℕ) :
    immediateOf ⟨store, now, touched,
        if s.store.storedNow store id now then s.immediate ++ [(id, now)] else s.immediate⟩ id' =
      if s.store.storedNow store id now = true ∧ id' = id then s.immediateOf id' ++ [now] else s.immediateOf id' := by
  unfold immediateOf
  by_cases hnow : s.store.storedNow store id now = true
  · rw [if_pos hnow]
    by_cases hid : id' = id
    · rw [if_pos ⟨hnow, hid⟩, List.filterMap_append, List.filterMap_cons, if_pos hid.symm]
      rfl
    · rw [if_neg fun h => hid h.2, List.filterMap_append, List.filterMap_cons, if_neg (Ne.symm hid),
        List.filterMap_nil, List.append_nil]
  · rw [if_neg hnow, if_neg fun h => hnow h.1]

/-- **One call**. -/
theorem Inv.step (h : s.Inv) (hstep : s.step a = some s') : s'.Inv := by
  cases a with
  | touch id now =>
    obtain ⟨hclock, hs⟩ := Option.ite_none_right_eq_some.mp hstep
    obtain rfl := Option.some.inj hs
    refine ⟨fun id' c hc => ?_, fun id' => ?_⟩
    · rw [immediateOf_touch]
      change (s.store.touch id now).cell? id' = some c at hc
      show c.Reconciled TOUCH_DEBOUNCE_MS now (Function.update s.touched id (some now) id') _
      rw [KeyStore.cell?_touch] at hc
      by_cases hid : id' = id
      · subst hid
        rw [if_pos rfl] at hc
        obtain ⟨c₀, hc₀, rfl⟩ := Option.map_eq_some_iff.mp hc
        have hdue : s.store.storedNow (s.store.touch id' now) id' now = c₀.due TOUCH_DEBOUNCE_MS now := by
          rw [KeyStore.storedNow_touch, hc₀, Option.any_some]
        rw [Function.update_self, hdue]
        have hcell := (h.cell id' c₀ hc₀).touch hclock
        simp only [and_true]
        exact hcell
      · rw [if_neg hid] at hc
        rw [Function.update_of_ne hid, if_neg fun h => hid h.2]
        exact (h.cell id' c hc).later hclock
    · rw [immediateOf_touch]
      split
      · rename_i hnow
        obtain ⟨hnow, rfl⟩ := hnow
        -- what the touch stored, its cell had due
        rw [KeyStore.storedNow_touch] at hnow
        obtain ⟨c, hc, hdue⟩ := (Option.any_eq_true _ _).mp hnow
        have hcell := ((h.cell id' c hc).touch hclock).spaced
        rwa [if_pos hdue] at hcell
      · exact h.spaced id'
  | flushTouch =>
    obtain rfl := Option.some.inj hstep
    refine ⟨fun id' c hc => ?_, h.spaced⟩
    change s.store.flushTouch.cell? id' = some c at hc
    rw [KeyStore.cell?_flushTouch] at hc
    obtain ⟨c₀, hc₀, rfl⟩ := Option.map_eq_some_iff.mp hc
    exact (h.cell id' c₀ hc₀).flush
  | remove id =>
    obtain rfl := Option.some.inj hstep
    refine ⟨fun id' c hc => ?_, h.spaced⟩
    change (s.store.remove id).2.cell? id' = some c at hc
    rw [KeyStore.cell?_remove] at hc
    obtain ⟨-, hc'⟩ := Option.ite_none_left_eq_some.mp hc
    exact h.cell id' c hc'

/-- A key with a row had it before, with a stamp that was not later. -/
theorem Inv.stored_step (h : s.Inv) (hstep : s.step a = some s') {c' : Deferred} (hc' : s'.store.cell? id = some c') :
    ∃ c, s.store.cell? id = some c ∧ Deferred.NotAfter c.stored c'.stored := by
  cases a with
  | touch id₀ now =>
    obtain ⟨hclock, hs⟩ := Option.ite_none_right_eq_some.mp hstep
    obtain rfl := Option.some.inj hs
    change (s.store.touch id₀ now).cell? id = some c' at hc'
    rw [KeyStore.cell?_touch] at hc'
    split at hc'
    · obtain ⟨c, hc, rfl⟩ := Option.map_eq_some_iff.mp hc'
      exact ⟨c, hc, (h.cell id c hc).stored_touch hclock⟩
    · exact ⟨c', hc', Deferred.NotAfter.refl _⟩
  | flushTouch =>
    obtain rfl := Option.some.inj hstep
    change s.store.flushTouch.cell? id = some c' at hc'
    rw [KeyStore.cell?_flushTouch] at hc'
    obtain ⟨c, hc, rfl⟩ := Option.map_eq_some_iff.mp hc'
    exact ⟨c, hc, (h.cell id c hc).stored_flush⟩
  | remove id₀ =>
    obtain rfl := Option.some.inj hstep
    change (s.store.remove id₀).2.cell? id = some c' at hc'
    rw [KeyStore.cell?_remove] at hc'
    obtain ⟨-, hc⟩ := Option.ite_none_left_eq_some.mp hc'
    exact ⟨c', hc, Deferred.NotAfter.refl _⟩

theorem Inv.stored_exec : ∀ (as : List TouchAction) {s s' : TouchRun}, s.Inv → exec TouchRun.step s as = some s' →
    ∀ {c' : Deferred}, s'.store.cell? id = some c' →
      ∃ c, s.store.cell? id = some c ∧ Deferred.NotAfter c.stored c'.stored
  | [], s, s', _, hexec, c', hc' => by
    obtain rfl : s = s' := Option.some.inj hexec
    exact ⟨c', hc', Deferred.NotAfter.refl _⟩
  | a :: as, s, s', h, hexec, c', hc' => by
    obtain ⟨t, hstep, hrest⟩ := exec_cons hexec
    obtain ⟨c₁, hc₁, hafter⟩ := Inv.stored_exec as (h.step hstep) hrest hc'
    obtain ⟨c, hc, hbefore⟩ := h.stored_step hstep hc₁
    exact ⟨c, hc, hbefore.trans hafter⟩

/-- **The debounce**: after a flush the row of a touched key shows its last touch, whatever follows the stored stamp
does not go back, and the writes at once of one key are a window apart. -/
theorem lastUsed_debounced (masterKey : Option JsString) (table : KeyTable) (clock : ℕ)
    (hclock : ∀ r ∈ table.rows, ∀ t ∈ r.lastUsedAt, t ≤ clock) (as : List TouchAction) (s : TouchRun)
    (hs : exec step (start masterKey table clock) as = some s) :
    (∀ r ∈ s.store.flushTouch.table.rows, ∀ t, s.touched r.id = some t → r.lastUsedAt = some t) ∧
      (∀ bs s', exec step s bs = some s' → ∀ r ∈ s.store.table.rows, ∀ r' ∈ s'.store.table.rows, r.id = r'.id →
        ∀ t ∈ r.lastUsedAt, ∃ t' ∈ r'.lastUsedAt, t ≤ t') ∧
      s.immediate.Pairwise fun w w' => w.1 = w'.1 → w.2 + TOUCH_DEBOUNCE_MS ≤ w'.2 := by
  have hinv : s.Inv :=
    exec_invariant' (fun _ _ _ h hstep => h.step hstep) as _ s (start_inv masterKey hclock) hs
  refine ⟨fun r hr t ht => ?_, fun bs s' hbs r hr r' hr' hid => ?_, ?_⟩
  · have hcell : s.store.flushTouch.cell? r.id = some ⟨r.lastUsedAt, s.store.flushTouch.lastWritten r.id,
        s.store.flushTouch.touchPending r.id⟩ := by
      unfold KeyStore.cell?
      rw [KeyTable.get_eq_some_iff.mpr ⟨hr, rfl⟩]
      rfl
    have hflush := hcell
    rw [KeyStore.cell?_flushTouch] at hflush
    obtain ⟨c, hc, heq⟩ := Option.map_eq_some_iff.mp hflush
    have hstored := (hinv.cell r.id c hc).flush_stored ht
    rwa [heq] at hstored
  · have hcell' : s'.store.cell? r.id = some ⟨r'.lastUsedAt, s'.store.lastWritten r.id,
        s'.store.touchPending r.id⟩ := by
      unfold KeyStore.cell?
      rw [KeyTable.get_eq_some_iff.mpr ⟨hr', hid.symm⟩]
      rfl
    obtain ⟨c, hc, hafter⟩ := hinv.stored_exec bs hbs hcell'
    unfold KeyStore.cell? at hc
    rw [KeyTable.get_eq_some_iff.mpr ⟨hr, rfl⟩] at hc
    obtain rfl := Option.some.inj hc
    exact hafter
  · refine List.pairwise_iff_forall_sublist.mpr fun {w w'} hsub hid => ?_
    have hpair : List.Sublist [w.2, w'.2] (s.immediateOf w.1) := by
      have hmap := hsub.filterMap fun write => if write.1 = w.1 then some write.2 else none
      have htwo : [w, w'].filterMap (fun write => if write.1 = w.1 then some write.2 else none) = [w.2, w'.2] := by
        simp [hid]
      rwa [htwo] at hmap
    exact List.pairwise_iff_forall_sublist.mp (hinv.spaced w.1) hpair

/-- A table with one key of an earlier process. -/
def oneKey : KeyTable where
  rows := [⟨js "key_1", js "default", js "h", js "p", 0, none, 0, 0, none, some 50000, none⟩]
  uniqueId := List.nodup_singleton _
  uniqueHash := List.nodup_singleton _

/-- A write at once, a deferred one that is flushed, a write a window after it, and a deferred one. -/
def touches : List TouchAction :=
  [.touch (js "key_1") 100000, .touch (js "key_1") 130000, .flushTouch, .touch (js "key_1") 190000,
    .touch (js "key_1") 200000]

theorem lastUsed_debounced_touches : ∃ s, exec step (start none oneKey 60000) touches = some s ∧
    (∀ r ∈ s.store.flushTouch.table.rows, ∀ t, s.touched r.id = some t → r.lastUsedAt = some t) ∧
      (∀ bs s', exec step s bs = some s' → ∀ r ∈ s.store.table.rows, ∀ r' ∈ s'.store.table.rows, r.id = r'.id →
        ∀ t ∈ r.lastUsedAt, ∃ t' ∈ r'.lastUsedAt, t ≤ t') ∧
      s.immediate.Pairwise fun w w' => w.1 = w'.1 → w.2 + TOUCH_DEBOUNCE_MS ≤ w'.2 := by
  have hrun : (exec step (start none oneKey 60000) touches).isSome = true := by decide +kernel
  obtain ⟨s, hs⟩ := Option.isSome_iff_exists.mp hrun
  have hclock : ∀ r ∈ oneKey.rows, ∀ t ∈ r.lastUsedAt, t ≤ 60000 := by
    intro r hr t ht
    obtain rfl := List.mem_singleton.mp hr
    obtain rfl : 50000 = t := Option.some.inj ht
    decide
  exact ⟨s, hs, lastUsed_debounced none oneKey 60000 hclock touches s hs⟩

end TouchRun

end Runs

end AgyProxy
