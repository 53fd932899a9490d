import AgyProxy.Server.UsageLedger

/-!
# AgyProxy.Server.DailyBudget — the daily token budget of a key (`src/server/usage-ledger.ts`)

* `tokensUsedToday`: the cached day total of a key, seeded from the table and the buffer.
* `pruneOlderThan`: the retention sweep.
* `BudgetAction`, `runBudget`: the calls, each with the clock readings it takes; a record that fills the
  buffer reads the clock again for its flush.

Token counts are exact.  `startOfToday` maps an instant to the local midnight before it.
-/

namespace AgyProxy

open Js Lib

/-- The local calendar: the midnight before an instant, which never moves back. -/
structure LocalDays where
  startOfToday : ℕ → ℕ
  mono : Monotone startOfToday
  le : ∀ now, startOfToday now ≤ now

/-- `DELETE FROM usage WHERE created_at < ?`. -/
def UsageTable.deleteBefore (t : UsageTable) (cutoff : ℤ) : UsageTable where
  rows := t.rows.filter fun r => decide (cutoff ≤ r.createdAt)
  unique := t.unique.sublist (List.filter_sublist.map _)

/-- `SELECT COALESCE(SUM(total_tokens), 0) FROM usage WHERE key_id = ? AND created_at >= ?`. -/
def UsageTable.tokensSince (t : UsageTable) (key : JsString) (midnight : ℕ) : ℚ :=
  ((t.rows.filter fun r => decide (r.params.keyId = some key ∧ midnight ≤ r.createdAt)).map
    fun r => r.params.totalTokens).sum

namespace UsageLedger

section Clock

variable (startOfToday : ℕ → ℕ)

/-- `record`, its flush at the clock reading `flushAt`. -/
def recordAt (l : UsageLedger) (rec : UsageRecord) (uuid : JsString) (now flushAt : ℕ) (fails : Bool) : UsageLedger :=
  if l.closed then l
  else
    let l := l.push startOfToday rec uuid now
    if 500 ≤ l.buffer.length then l.flush flushAt fails else l

/-- What a miss computes: the sum of the table, and the key's rows of the buffer one by one. -/
def seedTotal (l : UsageLedger) (key : JsString) (midnight : ℕ) : ℚ :=
  l.buffer.foldl (fun total b => if b.keyId = some key then total + b.totalTokens else total)
    (l.table.tokensSince key midnight)

def seed (l : UsageLedger) (key : JsString) (midnight : ℕ) : ℚ × UsageLedger :=
  (l.seedTotal key midnight,
    { l with
      tokensTodayCache := Function.update l.tokensTodayCache key (some ⟨midnight, l.seedTotal key midnight⟩) })

def tokensUsedToday (l : UsageLedger) (key : JsString) (now : ℕ) : ℚ × UsageLedger :=
  match l.tokensTodayCache key with
  | none => l.seed key (startOfToday now)
  | some cached => if cached.day = startOfToday now then (cached.total, l) else l.seed key (startOfToday now)

/-- `pruneOlderThan`: the rows deleted are counted; `fails` when the statement throws. -/
def pruneOlderThan (l : UsageLedger) (days : Js.Num) (now : ℕ) (fails : Bool) : ℕ × UsageLedger :=
  match days with
  | .fin days =>
    if days ≤ 0 then (0, l)
    else
      let cutoff : ℤ := startOfToday now - ⌊days⌋ * 86400000
      if fails then (0, l)
      else
        (l.table.rows.length - (l.table.deleteBefore cutoff).rows.length,
          { l with table := l.table.deleteBefore cutoff })
  | _ => (0, l)

end Clock

end UsageLedger

inductive BudgetAction
  /-- `flushAt` and `fails` tell of the flush, should one be due -/
  | record (rec : UsageRecord) (uuid : JsString) (now flushAt : ℕ) (fails : Bool)
  | flush (now : ℕ) (fails : Bool)
  | pruneOlderThan (days : Js.Num) (now : ℕ) (fails : Bool)
  | tokensUsedToday (key : JsString) (now : ℕ)

namespace BudgetAction

/-- The clock readings of a call, in order. -/
def readings : BudgetAction → List ℕ
  | record _ _ now flushAt _ => [now, flushAt]
  | flush now _ => [now]
  | pruneOlderThan _ now _ => [now]
  | tokensUsedToday _ now => [now]

/-- The row a call brings. -/
def row? : BudgetAction → Option InsertParams
  | record rec uuid _ _ _ => some (rec.insertParams uuid)
  | _ => none

end BudgetAction

namespace UsageLedger

section Clock

variable (startOfToday : ℕ → ℕ)

def stepBudget (l : UsageLedger) : BudgetAction → UsageLedger
  | .record rec uuid now flushAt fails => l.recordAt startOfToday rec uuid now flushAt fails
  | .flush now fails => l.flush now fails
  | .pruneOlderThan days now fails => (l.pruneOlderThan startOfToday days now fails).2
  | .tokensUsedToday key now => (l.tokensUsedToday startOfToday key now).2

def runBudget (l : UsageLedger) (as : List BudgetAction) : UsageLedger := as.foldl (stepBudget startOfToday) l

end Clock

end UsageLedger

end AgyProxy
