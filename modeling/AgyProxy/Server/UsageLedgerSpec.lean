import AgyProxy.Lib.Spool
import AgyProxy.Server.UsageLedger

/-!
# AgyProxy.Server.UsageLedgerSpec — no row lost, doubled or reordered

* `UsageLedger.spool`: the ledger as a `Spool`; `flush` is its `drain` or its `overflow`.
* `Settled`: what every sequence of `record` and `flush` keeps, proved for one action and then for a run.
* `ledger_accounts`: **inserted and buffered rows are the accepted ones in order, only the oldest of an
  overflowing failure are dropped, the buffer is bounded, and the first row of an id stays**.
-/

namespace AgyProxy

open Js Lib

/-! ### The table -/

namespace UsageTable

/-- A row of an id the table knows is not inserted. -/
theorem find?_insertOrIgnore (t : UsageTable) (r : UsageRow) (id : JsString) :
    (t.insertOrIgnore r).rows.find? (fun x => x.requestId == id) =
      (t.rows ++ [r]).find? fun x => x.requestId == id := by
  unfold insertOrIgnore
  split
  · next h =>
    rw [List.find?_append]
    by_cases hid : r.requestId = id
    · obtain ⟨x, hx, hxid⟩ := List.mem_map.mp (hasId_iff.mp h)
      have hsome : (t.rows.find? fun x => x.requestId == id).isSome = true := by
        rw [List.find?_isSome]
        exact ⟨x, hx, beq_iff_eq.mpr (hxid.trans hid)⟩
      rw [Option.or_of_isSome hsome]
    · have hnone : [r].find? (fun x => x.requestId == id) = none :=
        List.find?_eq_none.mpr fun x hx heq => hid (List.mem_singleton.mp hx ▸ beq_iff_eq.mp heq)
      rw [hnone, Option.or_none]
  · rfl

/-- The first row inserted under an id is the one the table has. -/
theorem find?_insertBatch (ts : ℕ) (id : JsString) :
    ∀ (batch : List InsertParams) (t : UsageTable),
      (t.insertBatch batch ts).rows.find? (fun x => x.requestId == id) =
        (t.rows ++ batch.map (UsageRow.mk · ts)).find? fun x => x.requestId == id
  | [], t => by
    rw [List.map_nil, List.append_nil]
    rfl
  | r :: batch, t => by
    have hnext := find?_insertBatch ts id batch (t.insertOrIgnore ⟨r, ts⟩)
    rw [List.find?_append, find?_insertOrIgnore, ← List.find?_append, List.append_assoc] at hnext
    exact hnext

/-- Rows of new and different ids are all inserted. -/
theorem insertBatch_rows (ts : ℕ) :
    ∀ (batch : List InsertParams) (t : UsageTable),
      (t.rows.map UsageRow.requestId ++ batch.map InsertParams.requestId).Nodup →
      (t.insertBatch batch ts).rows = t.rows ++ batch.map (UsageRow.mk · ts)
  | [], t, _ => by
    rw [List.map_nil, List.append_nil]
    rfl
  | r :: batch, t, hnew => by
    have hr : r.requestId ∉ t.rows.map UsageRow.requestId := fun hmem =>
      (List.nodup_append.mp hnew).2.2 _ hmem _ List.mem_cons_self rfl
    have hrows : (t.insertOrIgnore ⟨r, ts⟩).rows = t.rows ++ [⟨r, ts⟩] := by
      unfold insertOrIgnore
      exact congrArg UsageTable.rows (dif_neg fun h => hr (hasId_iff.mp h))
    have hnext : ((t.insertOrIgnore ⟨r, ts⟩).rows.map UsageRow.requestId ++
        batch.map InsertParams.requestId).Nodup := by
      rw [hrows, List.map_append, List.append_assoc]
      exact hnew
    have hbatch := insertBatch_rows ts batch (t.insertOrIgnore ⟨r, ts⟩) hnext
    rw [hrows, List.append_assoc] at hbatch
    exact hbatch

end UsageTable

/-! ### One action -/

namespace UsageLedger

/-- Sent is what went through a transaction, lost what was dropped. -/
def spool (l : UsageLedger) : Spool InsertParams := ⟨l.flushed.map UsageRow.params, l.buffer, l.dropped⟩

section Flush

variable {l : UsageLedger}

theorem trim_spool (l : UsageLedger) : l.trim.spool = l.spool.overflow l.maxPendingRows := by
  unfold trim
  split
  · rfl
  · next h => exact (Spool.overflow_of_le (Nat.not_lt.mp h)).symm

theorem flush_fails (hopen : l.closed = false) (now : ℕ) : l.flush now true = l.trim := by
  unfold flush
  rw [hopen, Bool.false_or]
  split
  · next hempty =>
    unfold trim
    rw [List.isEmpty_iff.mp hempty]
    exact (if_neg (Nat.not_lt_zero _)).symm
  · rfl

theorem flush_succeeds (hopen : l.closed = false) (now : ℕ) : l.flush now false =
    { l with
      buffer := []
      table := l.table.insertBatch l.buffer now
      flushed := l.flushed ++ l.buffer.map (UsageRow.mk · now) } := by
  unfold flush
  rw [hopen, Bool.false_or]
  split
  · next hempty =>
    obtain ⟨buffer, cap, closed, cache, table, flushed, dropped⟩ := l
    obtain rfl : buffer = [] := List.isEmpty_iff.mp hempty
    obtain rfl : closed = false := hopen
    rw [List.map_nil, List.append_nil]
    rfl
  · rfl

/-- A flush drains the buffer, or puts it back and trims it. -/
theorem flush_spool (hopen : l.closed = false) (now : ℕ) (fails : Bool) :
    (l.flush now fails).spool = if fails = true then l.spool.overflow l.maxPendingRows else l.spool.drain := by
  cases fails with
  | true => rw [flush_fails hopen, trim_spool, if_pos rfl]
  | false =>
    rw [flush_succeeds hopen, if_neg Bool.false_ne_true]
    unfold spool Spool.drain
    rw [List.map_append, List.map_map]
    refine congrArg (fun sent => Spool.mk (l.flushed.map UsageRow.params ++ sent) [] l.dropped) ?_
    exact List.map_id l.buffer

theorem flush_closed (l : UsageLedger) (now : ℕ) (fails : Bool) : (l.flush now fails).closed = l.closed := by
  unfold flush trim
  split_ifs <;> rfl

theorem flush_cap (l : UsageLedger) (now : ℕ) (fails : Bool) :
    (l.flush now fails).maxPendingRows = l.maxPendingRows := by
  unfold flush trim
  split_ifs <;> rfl

theorem flush_length (hopen : l.closed = false) (now : ℕ) (fails : Bool) :
    (l.flush now fails).buffer.length ≤ min l.buffer.length l.maxPendingRows := by
  show (l.flush now fails).spool.queue.length ≤ _
  rw [flush_spool hopen]
  cases fails with
  | true => exact (Spool.length_overflow l.spool l.maxPendingRows).le
  | false => exact Nat.zero_le _

end Flush

section Step

variable (startOfToday : ℕ → ℕ) {l : UsageLedger}

/-- What waits when the transaction of an action is due. -/
def pending (l : UsageLedger) (a : LedgerAction) : List InsertParams := l.buffer ++ a.row?.toList

/-- An action appends its row, and then flushes or not. -/
theorem step_cases (hopen : l.closed = false) (a : LedgerAction) :
    ∃ m : UsageLedger, m.buffer = l.pending a ∧ m.maxPendingRows = l.maxPendingRows ∧ m.closed = false ∧
      m.table = l.table ∧ m.flushed = l.flushed ∧ m.dropped = l.dropped ∧
      ((∃ now, step startOfToday l a = m.flush now a.fails) ∨
        step startOfToday l a = m ∧ m.buffer.length ≤ max 499 l.buffer.length) := by
  cases a with
  | flush now fails => exact ⟨l, (List.append_nil _).symm, rfl, hopen, rfl, rfl, rfl, Or.inl ⟨now, rfl⟩⟩
  | record rec uuid now fails =>
    refine ⟨l.push startOfToday rec uuid now, rfl, rfl, hopen, rfl, rfl, rfl, ?_⟩
    show (∃ now', l.record startOfToday rec uuid now fails = _) ∨ l.record startOfToday rec uuid now fails = _ ∧ _
    unfold record
    rw [hopen, if_neg Bool.false_ne_true]
    dsimp only
    by_cases hfull : 500 ≤ (l.push startOfToday rec uuid now).buffer.length
    · rw [if_pos hfull]
      exact Or.inl ⟨now, rfl⟩
    · rw [if_neg hfull]
      exact Or.inr ⟨rfl, by omega⟩

/-- Rows are dropped only by a failed flush over the cap, and then they are the oldest that wait. -/
def DropsOldest (l : UsageLedger) (a : LedgerAction) (l' : UsageLedger) : Prop :=
  l'.dropped = l.dropped ∨
    a.fails = true ∧ l.maxPendingRows < (l.pending a).length ∧
      ∃ d, d ++ l'.buffer = l.pending a ∧ l'.buffer.length = l.maxPendingRows ∧ l'.dropped = l.dropped ++ d

theorem step_dropsOldest (hopen : l.closed = false) (a : LedgerAction) :
    DropsOldest l a (step startOfToday l a) := by
  obtain ⟨m, hbuffer, hcap, hmopen, -, -, hdropped, ⟨now, hstep⟩ | ⟨hstep, -⟩⟩ :=
    step_cases startOfToday hopen a
  · rw [hstep]
    unfold DropsOldest
    cases hfails : a.fails with
    | false =>
      rw [flush_succeeds hmopen]
      exact Or.inl hdropped
    | true =>
      rw [flush_fails hmopen, ← hbuffer, ← hcap, ← hdropped]
      unfold trim
      split
      · next hover =>
        refine Or.inr ⟨rfl, hover, _, List.take_append_drop _ _, ?_, rfl⟩
        rw [List.length_drop]
        omega
      · exact Or.inl rfl
  · rw [hstep]
    exact Or.inl hdropped

end Step

/-! ### Every run -/

/-- The ids of the accepted rows are new and do not repeat. -/
def DistinctIds (table : UsageTable) (rows : List InsertParams) : Prop :=
  (table.rows.map UsageRow.requestId ++ rows.map InsertParams.requestId).Nodup

/-- What a run over a table keeps of its rows; `rows` are the rows accepted so far. -/
structure Kept (table : UsageTable) (rows : List InsertParams) (l : UsageLedger) : Prop where
  accounts : DistinctIds table rows → l.spool.Accounts rows
  inserted : DistinctIds table rows → l.table.rows = table.rows ++ l.flushed
  first : ∀ id, l.table.rows.find? (fun x => x.requestId == id) =
    (table.rows ++ l.flushed).find? fun x => x.requestId == id

/-- The invariant of a run. -/
structure Settled (table : UsageTable) (cap : ℕ) (rows : List InsertParams) (l : UsageLedger) : Prop where
  isOpen : l.closed = false
  capped : l.maxPendingRows = cap
  bounded : l.buffer.length ≤ max 499 cap
  kept : Kept table rows l

section Run

variable (startOfToday : ℕ → ℕ) {table : UsageTable} {cap : ℕ} {rows : List InsertParams} {l m : UsageLedger}

theorem DistinctIds.nodup (h : DistinctIds table rows) : rows.Nodup :=
  List.Nodup.of_map _ (List.nodup_append.mp h).2.1

theorem DistinctIds.left {more : List InsertParams} (h : DistinctIds table (rows ++ more)) : DistinctIds table rows := by
  unfold DistinctIds at h
  rw [List.map_append, ← List.append_assoc] at h
  exact (List.nodup_append.mp h).1

/-- The append keeps it. -/
theorem Kept.append (h : Kept table rows l) (a : LedgerAction) (hbuffer : m.buffer = l.pending a)
    (htable : m.table = l.table) (hflushed : m.flushed = l.flushed) (hdropped : m.dropped = l.dropped) :
    Kept table (rows ++ a.row?.toList) m := by
  refine ⟨fun hids => ?_, fun hids => ?_, ?_⟩
  · have hacc := h.accounts hids.left
    have hspool : m.spool = ⟨l.flushed.map UsageRow.params, l.buffer ++ a.row?.toList, l.dropped⟩ := by
      unfold spool
      rw [hbuffer, hflushed, hdropped]
      rfl
    rw [hspool]
    cases hrow : a.row? with
    | none =>
      show Spool.Accounts ⟨_, l.buffer ++ [], _⟩ (rows ++ [])
      rw [List.append_nil, List.append_nil]
      exact hacc
    | some r =>
      refine hacc.push fun hmem => ?_
      rw [hrow] at hids
      exact (List.nodup_append.mp hids.nodup).2.2 r hmem r List.mem_cons_self rfl
  · rw [htable, hflushed]
    exact h.inserted hids.left
  · rw [htable, hflushed]
    exact h.first

/-- Rows that wait have ids the table does not know. -/
theorem Kept.fresh (h : Kept table rows m) (hids : DistinctIds table rows) :
    (m.table.rows.map UsageRow.requestId ++ m.buffer.map InsertParams.requestId).Nodup := by
  have hsub : (m.spool.sent ++ m.spool.queue).Sublist rows := by
    rw [(h.accounts hids).kept]
    exact List.filter_sublist
  have hmap : m.flushed.map UsageRow.requestId = (m.flushed.map UsageRow.params).map InsertParams.requestId :=
    (List.map_map ..).symm
  rw [h.inserted hids, List.map_append, hmap, List.append_assoc, ← List.map_append]
  exact List.Nodup.sublist (List.Sublist.append_left (hsub.map _) _) hids

/-- A flush keeps it. -/
theorem Kept.flush (h : Kept table rows m) (hopen : m.closed = false) (now : ℕ) (fails : Bool) :
    Kept table rows (m.flush now fails) := by
  refine ⟨fun hids => ?_, ?_, ?_⟩
  · rw [flush_spool hopen]
    split
    · exact (h.accounts hids).overflow hids.nodup _
    · exact (h.accounts hids).drain
  · intro hids
    cases fails with
    | true =>
      rw [flush_fails hopen]
      unfold trim
      split <;> exact h.inserted hids
    | false =>
      rw [flush_succeeds hopen]
      dsimp only
      rw [UsageTable.insertBatch_rows now m.buffer m.table (h.fresh hids), h.inserted hids, List.append_assoc]
  · intro id
    cases fails with
    | true =>
      rw [flush_fails hopen]
      unfold trim
      split <;> exact h.first id
    | false =>
      rw [flush_succeeds hopen]
      dsimp only
      rw [UsageTable.find?_insertBatch, List.find?_append, h.first id, ← List.find?_append, List.append_assoc]

theorem init_settled (cap : Option ℕ) (table : UsageTable) :
    Settled table (max 1 (cap.getD MAX_PENDING_ROWS)) [] (init cap table) where
  isOpen := rfl
  capped := rfl
  bounded := Nat.zero_le _
  kept := ⟨fun _ => Spool.accounts_empty, fun _ => (List.append_nil _).symm, 
    fun _ => congrArg (List.find? _) (List.append_nil _).symm⟩

/-- The step lemma. -/
theorem Settled.step (h : Settled table cap rows l) (a : LedgerAction) :
    Settled table cap (rows ++ a.row?.toList) (step startOfToday l a) := by
  obtain ⟨m, hbuffer, hcap, hmopen, htable, hflushed, hdropped, hstep⟩ :=
    step_cases startOfToday h.isOpen a
  have hkept := h.kept.append a hbuffer htable hflushed hdropped
  have hbounded := h.bounded
  rcases hstep with ⟨now, hstep⟩ | ⟨hstep, hlength⟩
  · rw [hstep]
    refine ⟨(flush_closed m now a.fails).trans hmopen, ?_, ?_, hkept.flush hmopen now a.fails⟩
    · rw [flush_cap, hcap, h.capped]
    · have hlen := flush_length hmopen now a.fails
      rw [hcap, h.capped] at hlen
      omega
  · rw [hstep]
    exact ⟨hmopen, hcap.trans h.capped, by omega, hkept⟩

/-- The run lemma. -/
theorem run_settled (cap : Option ℕ) (table : UsageTable) (as : List LedgerAction) :
    Settled table (max 1 (cap.getD MAX_PENDING_ROWS)) (accepted as) (run startOfToday (init cap table) as) := by
  induction as using List.reverseRecOn with
  | nil => exact init_settled cap table
  | append_singleton as a ih =>
    have hrows : accepted (as ++ [a]) = accepted as ++ a.row?.toList := by
      unfold accepted
      rw [List.filterMap_append]
      rfl
    unfold run
    rw [hrows, List.foldl_append]
    exact ih.step startOfToday a

/-- **The ledger accounts for every row**: over every sequence of `record` and `flush`, whatever
transactions fail. -/
theorem ledger_accounts (startOfToday : ℕ → ℕ) (cap : Option ℕ) (table : UsageTable) (as : List LedgerAction) :
    (DistinctIds table (accepted as) →
      ∃ inserted, (run startOfToday (init cap table) as).table.rows = table.rows ++ inserted ∧
        inserted.map UsageRow.params ++ (run startOfToday (init cap table) as).buffer =
          (accepted as).filter (fun r => decide (r ∉ (run startOfToday (init cap table) as).dropped)) ∧
        (inserted.map UsageRow.params ++ (run startOfToday (init cap table) as).buffer).Nodup) ∧
      (∀ a, DropsOldest (run startOfToday (init cap table) as) a
        (UsageLedger.step startOfToday (run startOfToday (init cap table) as) a)) ∧
      (run startOfToday (init cap table) as).buffer.length ≤ max 499 (max 1 (cap.getD MAX_PENDING_ROWS)) ∧
      ((run startOfToday (init cap table) as).table.rows.map UsageRow.requestId).Nodup ∧
      ∀ id, (run startOfToday (init cap table) as).table.rows.find? (fun x => x.requestId == id) =
        (table.rows ++ (run startOfToday (init cap table) as).flushed).find? fun x => x.requestId == id := by
  have h := run_settled startOfToday cap table as
  refine ⟨fun hids => ?_, step_dropsOldest startOfToday h.isOpen, h.bounded, UsageTable.unique _, h.kept.first⟩
  have hacc := h.kept.accounts hids
  exact ⟨_, h.kept.inserted hids, hacc.kept, hacc.nodup hids.nodup⟩

/-- A record of a run without text or tokens. -/
def plainRecord (requestId : JsString) : UsageRecord where
  requestId
  keyId := none
  accountId := none
  model := js "gemini"
  family := js "google"
  protocol := .openai
  promptTokens := 0
  completionTokens := 0
  reasoningTokens := none
  cacheReadTokens := none
  status := js "OK"
  durationMs := none
  errorText := none

/-- Two records, a flush that fails and one that succeeds. -/
def retried : List LedgerAction :=
  [.record (plainRecord (js "a")) [] 0 false, .record (plainRecord (js "b")) [] 0 false, .flush 1 true, .flush 2 false]

/-- Over a cap of one the older record is dropped at the failure, and the newer is inserted at the retry. -/
theorem ledger_accounts_overflow :
    (run id (init (some 1) .empty) retried).dropped = [(plainRecord (js "a")).insertParams []] ∧
      ∃ inserted, (run id (init (some 1) .empty) retried).table.rows = UsageTable.empty.rows ++ inserted ∧
        inserted.map UsageRow.params ++ (run id (init (some 1) .empty) retried).buffer =
          (accepted retried).filter (fun r => decide (r ∉ (run id (init (some 1) .empty) retried).dropped)) ∧
        (inserted.map UsageRow.params ++ (run id (init (some 1) .empty) retried).buffer).Nodup := by
  have hids : DistinctIds .empty (accepted retried) := by
    unfold DistinctIds
    decide +kernel
  exact ⟨by decide +kernel, (ledger_accounts id (some 1) .empty retried).1 hids⟩

end Run

end UsageLedger

end AgyProxy
