import AgyProxy.Host.Dispatch
import Mathlib.Data.List.Nodup

/-!
# AgyProxy.Server.UsageLedger — the usage ledger (`src/server/usage-ledger.ts`, the table in `src/server/db.ts`)

* `UsageTable`: the rows in the order of `seq`; `request_id` is unique, and `INSERT OR IGNORE` keeps it so.
* `UsageLedger`: the buffer, the day totals, the table, and, as history, the rows that went through a
  transaction and the rows dropped.
* `record`, `flush`: before `close`, with transactions that succeed or fail as a whole.

The database, the clock and its local midnights are the environment; the log lines and the flush timer are left out.
-/

namespace AgyProxy

open Js Lib

/-- `MAX_PENDING_ROWS`. -/
def MAX_PENDING_ROWS : ℕ := 5000

structure UsageRecord where
  requestId : JsString
  /-- null for the bootstrap root key -/
  keyId : Option JsString
  accountId : Option JsString
  model : JsString
  family : JsString
  protocol : Protocol
  promptTokens : ℚ
  completionTokens : ℚ
  reasoningTokens : Option ℚ
  cacheReadTokens : Option ℚ
  status : JsString
  durationMs : Option ℚ
  errorText : Option JsString

/-- The buffer's row shape; `createdAt` is stamped at flush time. -/
structure InsertParams where
  requestId : JsString
  keyId : Option JsString
  accountId : Option JsString
  model : JsString
  family : JsString
  protocol : Protocol
  promptTokens : ℚ
  completionTokens : ℚ
  reasoningTokens : Option ℚ
  cacheReadTokens : Option ℚ
  totalTokens : ℚ
  status : JsString
  durationMs : Option ℚ
  errorText : Option JsString
deriving DecidableEq

/-- A row of the table. -/
structure UsageRow where
  params : InsertParams
  createdAt : ℕ
deriving DecidableEq

def UsageRow.requestId (r : UsageRow) : JsString := r.params.requestId

/-- `ERROR_TEXT_MAX`. -/
def ERROR_TEXT_MAX : ℕ := 500

/-- The row buffered for a record; `uuid` is what `randomUUID` returns. -/
def UsageRecord.insertParams (rec : UsageRecord) (uuid : JsString) : InsertParams where
  requestId := if rec.requestId ≠ [] then rec.requestId else uuid
  keyId := rec.keyId
  accountId := rec.accountId
  model := rec.model
  family := rec.family
  protocol := rec.protocol
  promptTokens := rec.promptTokens
  completionTokens := rec.completionTokens
  reasoningTokens := rec.reasoningTokens
  cacheReadTokens := rec.cacheReadTokens
  totalTokens := rec.promptTokens + rec.completionTokens
  status := rec.status
  durationMs := rec.durationMs
  errorText := (truthy? rec.errorText).map fun text => text.take ERROR_TEXT_MAX

/-! ### The table -/

structure UsageTable where
  rows : List UsageRow
  unique : (rows.map UsageRow.requestId).Nodup

namespace UsageTable

def empty : UsageTable := ⟨[], List.nodup_nil⟩

def hasId (t : UsageTable) (id : JsString) : Bool := t.rows.any fun r => r.requestId == id

theorem hasId_iff {t : UsageTable} {id : JsString} : t.hasId id = true ↔ id ∈ t.rows.map UsageRow.requestId := by
  unfold hasId
  rw [List.any_eq_true, List.mem_map]
  exact exists_congr fun r => and_congr_right fun _ => beq_iff_eq

/-- `INSERT OR IGNORE`. -/
def insertOrIgnore (t : UsageTable) (r : UsageRow) : UsageTable :=
  if h : t.hasId r.requestId then t
  else
    { rows := t.rows ++ [r]
      unique := by
        rw [List.map_append, List.map_singleton]
        refine List.nodup_append.mpr ⟨t.unique, List.nodup_singleton _, ?_⟩
        rintro id hid _ hr rfl
        exact h (hasId_iff.mpr (List.mem_singleton.mp hr ▸ hid)) }

/-- `insertBatch`: one transaction. -/
def insertBatch (t : UsageTable) (batch : List InsertParams) (ts : ℕ) : UsageTable :=
  batch.foldl (fun t r => t.insertOrIgnore ⟨r, ts⟩) t

end UsageTable

/-! ### The ledger -/

/-- An entry of `tokensTodayCache`; `day` is a local midnight. -/
structure DayTotal where
  day : ℕ
  total : ℚ

structure UsageLedger where
  buffer : List InsertParams
  maxPendingRows : ℕ
  closed : Bool
  tokensTodayCache : JsString → Option DayTotal
  table : UsageTable
  /-- history: the rows successful transactions went through -/
  flushed : List UsageRow
  /-- history: the rows dropped -/
  dropped : List InsertParams

inductive LedgerAction
  /-- `fails`: the transaction fails, should one be due -/
  | record (rec : UsageRecord) (uuid : JsString) (now : ℕ) (fails : Bool)
  | flush (now : ℕ) (fails : Bool)

namespace UsageLedger

/-- `new UsageLedger(db, { maxPendingRows })`. -/
def init (maxPendingRows : Option ℕ) (table : UsageTable) : UsageLedger where
  buffer := []
  maxPendingRows := max 1 (maxPendingRows.getD MAX_PENDING_ROWS)
  closed := false
  tokensTodayCache := fun _ => none
  table
  flushed := []
  dropped := []

/-- `buffer.slice(-maxPendingRows)`, and what it cuts off. -/
def trim (l : UsageLedger) : UsageLedger :=
  if l.maxPendingRows < l.buffer.length then
    { l with
      buffer := l.buffer.drop (l.buffer.length - l.maxPendingRows)
      dropped := l.dropped ++ l.buffer.take (l.buffer.length - l.maxPendingRows) }
  else l

/-- The swap, the transaction and the requeue are one synchronous step. -/
def flush (l : UsageLedger) (now : ℕ) (fails : Bool) : UsageLedger :=
  if l.closed || l.buffer.isEmpty then l
  else if fails then l.trim
  else
    { l with
      buffer := []
      table := l.table.insertBatch l.buffer now
      flushed := l.flushed ++ l.buffer.map fun r => ⟨r, now⟩ }

section Clock

variable (startOfToday : ℕ → ℕ)

/-- A same-day entry of the key is advanced. -/
def countToday (cache : JsString → Option DayTotal) (rec : UsageRecord) (now : ℕ) : JsString → Option DayTotal :=
  match rec.keyId with
  | none => cache
  | some key =>
    match cache key with
    | none => cache
    | some cached =>
      if cached.day = startOfToday now then
        Function.update cache key (some { cached with total := cached.total + rec.promptTokens + rec.completionTokens })
      else cache

/-- The append of `record`. -/
def push (l : UsageLedger) (rec : UsageRecord) (uuid : JsString) (now : ℕ) : UsageLedger :=
  { l with
    buffer := l.buffer ++ [rec.insertParams uuid]
    tokensTodayCache := countToday startOfToday l.tokensTodayCache rec now }

def record (l : UsageLedger) (rec : UsageRecord) (uuid : JsString) (now : ℕ) (fails : Bool) : UsageLedger :=
  if l.closed then l
  else
    let l := l.push startOfToday rec uuid now
    if 500 ≤ l.buffer.length then l.flush now fails else l

def step (l : UsageLedger) : LedgerAction → UsageLedger
  | .record rec uuid now fails => l.record startOfToday rec uuid now fails
  | .flush now fails => l.flush now fails

def run (l : UsageLedger) (as : List LedgerAction) : UsageLedger := as.foldl (step startOfToday) l

end Clock

end UsageLedger

namespace LedgerAction

/-- The row an action brings. -/
def row? : LedgerAction → Option InsertParams
  | record rec uuid _ _ => some (rec.insertParams uuid)
  | flush _ _ => none

/-- The transaction of the action would fail. -/
def fails : LedgerAction → Bool
  | record _ _ _ fails => fails
  | flush _ fails => fails

end LedgerAction

/-- The rows recorded, in record order. -/
def accepted (as : List LedgerAction) : List InsertParams := as.filterMap LedgerAction.row?

end AgyProxy
