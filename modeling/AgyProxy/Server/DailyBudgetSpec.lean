import AgyProxy.Lib.Memo
import AgyProxy.Server.DailyBudget
import AgyProxy.Server.UsageLedgerSpec

/-!
# AgyProxy.Server.DailyBudgetSpec — the cached day total is the sum it stands for

* `tokensToday`: the definition, over the table and the buffer.
* `tokensSince_insertBatch`, `tokensSince_deleteBefore`: what a flush and a prune do to the table's part.
* `Budgeted`: what every call keeps; the cache is a `MemoAgrees` whose epochs are the local midnights.
* `tokensUsedToday_eq`: **after every sequence of calls, at every later instant, every key reads its sum**.
-/

namespace AgyProxy

open Js Lib

/-- The tokens of a key among rows that wait. -/
def bufferedTokens (buffer : List InsertParams) (key : JsString) : ℚ :=
  ((buffer.filter fun b => decide (b.keyId = some key)).map InsertParams.totalTokens).sum

/-- The day's tokens of a key: its rows of the table since midnight and its rows that wait. -/
def UsageLedger.tokensToday (l : UsageLedger) (key : JsString) (midnight : ℕ) : ℚ :=
  l.table.tokensSince key midnight + bufferedTokens l.buffer key

theorem bufferedTokens_append (buffer more : List InsertParams) (key : JsString) :
    bufferedTokens (buffer ++ more) key = bufferedTokens buffer key + bufferedTokens more key := by
  unfold bufferedTokens
  rw [List.filter_append, List.map_append, List.sum_append]

theorem bufferedTokens_cons (b : InsertParams) (buffer : List InsertParams) (key : JsString) :
    bufferedTokens (b :: buffer) key =
      (if b.keyId = some key then b.totalTokens else 0) + bufferedTokens buffer key := by
  unfold bufferedTokens
  by_cases hb : b.keyId = some key
  · rw [List.filter_cons, if_pos (decide_eq_true hb), if_pos hb, List.map_cons, List.sum_cons]
  · rw [List.filter_cons, if_neg (by rwa [decide_eq_true_iff]), if_neg hb, zero_add]

/-! ### The table's part -/

namespace UsageTable

variable {t : UsageTable} {key : JsString} {midnight ts : ℕ}

/-- Rows stamped today count as they did while they waited. -/
theorem tokensSince_insertBatch {batch : List InsertParams} (hids : UsageLedger.DistinctIds t batch) (hts : midnight ≤ ts) :
    (t.insertBatch batch ts).tokensSince key midnight = t.tokensSince key midnight + bufferedTokens batch key := by
  have hfilter : (batch.map (UsageRow.mk · ts)).filter
      (fun r => decide (r.params.keyId = some key ∧ midnight ≤ r.createdAt)) =
        (batch.filter fun b => decide (b.keyId = some key)).map (UsageRow.mk · ts) := by
    rw [List.filter_map]
    refine congrArg _ (List.filter_congr fun b _ => ?_)
    exact decide_eq_decide.mpr (and_iff_left hts)
  unfold tokensSince bufferedTokens
  rw [insertBatch_rows ts batch t hids, List.filter_append, List.map_append, List.sum_append, hfilter, List.map_map]
  rfl

/-- Rows of earlier days do not count. -/
theorem tokensSince_deleteBefore {cutoff : ℤ} (hcutoff : cutoff ≤ midnight) :
    (t.deleteBefore cutoff).tokensSince key midnight = t.tokensSince key midnight := by
  unfold tokensSince deleteBefore
  dsimp only
  rw [List.filter_filter]
  refine congrArg (fun rows => (List.map _ rows).sum) (List.filter_congr fun r _ => ?_)
  rw [← Bool.decide_and]
  refine decide_eq_decide.mpr ⟨And.left, fun h => ⟨h, ?_⟩⟩
  have hrow := h.2
  omega

end UsageTable

namespace UsageLedger

variable {days : LocalDays} {more : List InsertParams} {clock now : ℕ} {l : UsageLedger} {key : JsString}

/-! ### One call -/

theorem seedTotal_eq (l : UsageLedger) (key : JsString) (midnight : ℕ) :
    l.seedTotal key midnight = l.tokensToday key midnight := by
  unfold seedTotal tokensToday
  generalize l.table.tokensSince key midnight = total
  induction l.buffer generalizing total with
  | nil => exact (add_zero total).symm
  | cons b buffer ih =>
    rw [List.foldl_cons, ih, bufferedTokens_cons, ← add_assoc]
    split
    · rfl
    · rw [add_zero]

/-- What a run keeps; `more` are the rows still to come. -/
structure Budgeted (days : LocalDays) (more : List InsertParams) (clock : ℕ) (l : UsageLedger) : Prop where
  isOpen : l.closed = false
  fresh : DistinctIds l.table (l.buffer ++ more)
  agrees : MemoAgrees DayTotal.day DayTotal.total l.tokensTodayCache
    (fun key => l.tokensToday key (days.startOfToday clock)) (days.startOfToday clock)

namespace Budgeted

/-- The clock advances. -/
theorem wait (h : Budgeted days more clock l) (hle : clock ≤ now) : Budgeted days more now l where
  isOpen := h.isOpen
  fresh := h.fresh
  agrees := h.agrees.advance (days.mono hle) fun hsame key => by rw [hsame]

/-- A row waits; a same-day entry of its key is advanced by its tokens. -/
theorem push {rec : UsageRecord} {uuid : JsString} (h : Budgeted days (rec.insertParams uuid :: more) now l) :
    Budgeted days more now (l.push days.startOfToday rec uuid now) := by
  refine ⟨h.isOpen, ?_, ?_⟩
  · show DistinctIds l.table (l.buffer ++ [rec.insertParams uuid] ++ more)
    rw [List.append_assoc]
    exact h.fresh
  · have htotal : ∀ key, (l.push days.startOfToday rec uuid now).tokensToday key (days.startOfToday now) =
        l.tokensToday key (days.startOfToday now) +
          if rec.keyId = some key then rec.promptTokens + rec.completionTokens else 0 := fun key => by
      have hbuffer : (l.push days.startOfToday rec uuid now).buffer = l.buffer ++ [rec.insertParams uuid] := rfl
      unfold tokensToday
      rw [hbuffer, bufferedTokens_append, bufferedTokens_cons, ← add_assoc, ← add_assoc]
      exact add_zero _
    have hother : ∀ key, rec.keyId ≠ some key →
        (l.push days.startOfToday rec uuid now).tokensToday key (days.startOfToday now) =
          l.tokensToday key (days.startOfToday now) := fun key hkey => by
      rw [htotal, if_neg hkey, add_zero]
    show MemoAgrees _ _ (countToday days.startOfToday l.tokensTodayCache rec now) _ _
    unfold countToday
    cases hkey : rec.keyId with
    | none =>
      exact h.agrees.advance le_rfl fun _ key => hother key (hkey ▸ (Option.some_ne_none key).symm)
    | some key =>
      have hkeys : ∀ key', key' ≠ key → (l.push days.startOfToday rec uuid now).tokensToday key' _ =
          l.tokensToday key' _ := fun key' hne =>
        hother key' fun heq => hne (Option.some.inj (heq.symm.trans hkey))
      dsimp only
      cases hcached : l.tokensTodayCache key with
      | none =>
        exact h.agrees.stale hkeys fun c hc => absurd (hc.symm.trans hcached) (Option.some_ne_none c)
      | some cached =>
        dsimp only
        split
        · next hday =>
          refine h.agrees.set hkeys hday ?_
          rw [htotal, if_pos hkey, ← h.agrees.right key cached hcached hday, ← add_assoc]
        · next hday =>
          exact h.agrees.stale hkeys fun c hc => Option.some.inj (hcached.symm.trans hc) ▸ hday

/-- A flush that drops nothing keeps every sum. -/
theorem flush {fails : Bool} (h : Budgeted days more now l) (hfits : (l.flush now fails).dropped = l.dropped) :
    Budgeted days more now (l.flush now fails) := by
  cases fails with
  | true =>
    rw [flush_fails h.isOpen] at hfits ⊢
    unfold trim at hfits ⊢
    split at hfits
    · next hover =>
      have hlength := congrArg List.length hfits
      dsimp only at hlength
      rw [List.length_append, List.length_take] at hlength
      omega
    · next hover =>
      rw [if_neg hover]
      exact h
  | false =>
    have hbuffer : DistinctIds l.table l.buffer := h.fresh.left
    have hrows := UsageTable.insertBatch_rows now l.buffer l.table hbuffer
    rw [flush_succeeds h.isOpen]
    refine ⟨h.isOpen, ?_, ?_⟩
    · have hfresh := h.fresh
      unfold DistinctIds at hfresh ⊢
      dsimp only
      rw [hrows, List.nil_append, List.map_append, List.map_map, List.append_assoc]
      rw [List.map_append] at hfresh
      exact hfresh
    · refine h.agrees.advance le_rfl fun _ key => ?_
      unfold tokensToday
      dsimp only
      rw [UsageTable.tokensSince_insertBatch hbuffer (days.le now), add_assoc]
      exact congrArg _ (add_zero _)

theorem prune {age : Js.Num} {fails : Bool} (h : Budgeted days more now l) :
    Budgeted days more now (l.pruneOlderThan days.startOfToday age now fails).2 := by
  unfold pruneOlderThan
  split
  · next age =>
    split_ifs with hage
    · exact h
    · exact h
    · have hcutoff : (days.startOfToday now : ℤ) - ⌊age⌋ * 86400000 ≤ days.startOfToday now := by
        have hfloor : 0 ≤ ⌊age⌋ := Int.floor_nonneg.mpr (not_le.mp hage).le
        omega
      refine ⟨h.isOpen, ?_, h.agrees.advance le_rfl fun _ key => ?_⟩
      · exact h.fresh.sublist ((List.filter_sublist.map _).append_right _)
      · unfold tokensToday
        rw [UsageTable.tokensSince_deleteBefore hcutoff]
  · exact h

/-- A read gives the sum, cached or not. -/
theorem read (h : Budgeted days more now l) (key : JsString) :
    (l.tokensUsedToday days.startOfToday key now).1 = l.tokensToday key (days.startOfToday now) ∧
      Budgeted days more now (l.tokensUsedToday days.startOfToday key now).2 := by
  have hseed : (l.seed key (days.startOfToday now)).1 = l.tokensToday key (days.startOfToday now) ∧
      Budgeted days more now (l.seed key (days.startOfToday now)).2 :=
    ⟨seedTotal_eq l key _, h.isOpen, h.fresh, h.agrees.set (fun _ _ => rfl) rfl (seedTotal_eq l key _)⟩
  unfold tokensUsedToday
  cases hcached : l.tokensTodayCache key with
  | none => exact hseed
  | some cached =>
    dsimp only
    split
    · next hday => exact ⟨h.agrees.right key cached hcached hday, h⟩
    · exact hseed

end Budgeted

/-! ### Every run -/

/-- The last clock reading of a call. -/
def lastReading : BudgetAction → ℕ
  | .record _ _ _ flushAt _ => flushAt
  | .flush now _ => now
  | .pruneOlderThan _ now _ => now
  | .tokensUsedToday _ now => now

theorem lastReading_sublist (a : BudgetAction) : [lastReading a].Sublist a.readings := by
  cases a with
  | record rec uuid now flushAt fails => exact List.sublist_cons_self now [flushAt]
  | flush now fails => exact List.Sublist.refl _
  | pruneOlderThan age now fails => exact List.Sublist.refl _
  | tokensUsedToday key now => exact List.Sublist.refl _

/-- The step lemma. -/
theorem Budgeted.step {a : BudgetAction} (h : Budgeted days (a.row?.toList ++ more) clock l)
    (hclock : (clock :: a.readings).Pairwise (· ≤ ·))
    (hfits : (stepBudget days.startOfToday l a).dropped = l.dropped) :
    Budgeted days more (lastReading a) (stepBudget days.startOfToday l a) := by
  obtain ⟨hle, hreadings⟩ := List.pairwise_cons.mp hclock
  cases a with
  | record rec uuid now flushAt fails =>
    have hnow : now ≤ flushAt := (List.pairwise_cons.mp hreadings).1 flushAt List.mem_cons_self
    have hpush := ((h.wait (hle now List.mem_cons_self)).push).wait hnow
    show Budgeted days more flushAt (l.recordAt days.startOfToday rec uuid now flushAt fails)
    have hdropped : (l.recordAt days.startOfToday rec uuid now flushAt fails).dropped = l.dropped := hfits
    unfold recordAt at hdropped ⊢
    rw [h.isOpen, if_neg Bool.false_ne_true] at hdropped ⊢
    dsimp only at hdropped ⊢
    split at hdropped
    · next hfull =>
      rw [if_pos hfull]
      exact hpush.flush hdropped
    · next hroom =>
      rw [if_neg hroom]
      exact hpush
  | flush now fails => exact (h.wait (hle now List.mem_cons_self)).flush hfits
  | pruneOlderThan age now fails => exact (h.wait (hle now List.mem_cons_self)).prune
  | tokensUsedToday key now => exact ((h.wait (hle now List.mem_cons_self)).read key).2

theorem flush_dropped (l : UsageLedger) (now : ℕ) (fails : Bool) : l.dropped <+: (l.flush now fails).dropped := by
  unfold flush trim
  split_ifs
  · exact List.prefix_rfl
  · exact List.prefix_append _ _
  · exact List.prefix_rfl
  · exact List.prefix_rfl

/-- What was dropped stays dropped. -/
theorem stepBudget_dropped (startOfToday : ℕ → ℕ) (l : UsageLedger) (a : BudgetAction) :
    l.dropped <+: (stepBudget startOfToday l a).dropped := by
  cases a with
  | record rec uuid now flushAt fails =>
    show l.dropped <+: (l.recordAt startOfToday rec uuid now flushAt fails).dropped
    unfold recordAt
    dsimp only
    split_ifs
    · exact List.prefix_rfl
    · exact flush_dropped (l.push startOfToday rec uuid now) flushAt fails
    · exact List.prefix_rfl
  | flush now fails => exact flush_dropped l now fails
  | pruneOlderThan age now fails =>
    show l.dropped <+: (l.pruneOlderThan startOfToday age now fails).2.dropped
    unfold pruneOlderThan
    split
    · dsimp only
      split_ifs <;> exact List.prefix_rfl
    · exact List.prefix_rfl
  | tokensUsedToday key now =>
    show l.dropped <+: (l.tokensUsedToday startOfToday key now).2.dropped
    unfold tokensUsedToday
    split
    · exact List.prefix_rfl
    · split_ifs <;> exact List.prefix_rfl

theorem runBudget_dropped (startOfToday : ℕ → ℕ) :
    ∀ (as : List BudgetAction) (l : UsageLedger), l.dropped <+: (runBudget startOfToday l as).dropped
  | [], _ => List.prefix_rfl
  | a :: as, l =>
    (stepBudget_dropped startOfToday l a).trans (runBudget_dropped startOfToday as (stepBudget startOfToday l a))

/-- The run lemma: the clock never goes back and no row is dropped. -/
theorem Budgeted.run : ∀ (as : List BudgetAction) (clock : ℕ) (l : UsageLedger),
    Budgeted days (as.filterMap BudgetAction.row?) clock l →
    (clock :: as.flatMap BudgetAction.readings ++ [now]).Pairwise (· ≤ ·) →
    (runBudget days.startOfToday l as).dropped = l.dropped →
    Budgeted days [] now (runBudget days.startOfToday l as)
  | [], clock, l, h, hclock, _ => h.wait ((List.pairwise_cons.mp hclock).1 now List.mem_cons_self)
  | a :: as, clock, l, h, hclock, hfits => by
    have hrows : (a :: as).filterMap BudgetAction.row? = a.row?.toList ++ as.filterMap BudgetAction.row? := by
      rw [List.filterMap_cons]
      cases a.row? <;> rfl
    have hstepped := stepBudget_dropped days.startOfToday l a
    have hrest := runBudget_dropped days.startOfToday as (stepBudget days.startOfToday l a)
    have hstep : (stepBudget days.startOfToday l a).dropped = l.dropped :=
      (hstepped.eq_of_length_le (hfits ▸ hrest.length_le)).symm
    rw [List.flatMap_cons, List.cons_append, List.append_assoc] at hclock
    have hfirst : (clock :: a.readings).Pairwise (· ≤ ·) :=
      hclock.sublist (List.Sublist.cons_cons _ (List.sublist_append_left _ _))
    have hlater : (lastReading a :: as.flatMap BudgetAction.readings ++ [now]).Pairwise (· ≤ ·) :=
      (List.pairwise_cons.mp hclock).2.sublist ((lastReading_sublist a).append_right _)
    exact Budgeted.run as (lastReading a) _ (((hrows ▸ h).step hfirst) hstep) hlater (hfits.trans hstep.symm)

/-- **The daily budget is exact**: after every sequence of calls that drops no row, at every later instant,
a key reads the tokens of its rows of the table since midnight and of its rows that wait. -/
theorem tokensUsedToday_eq (days : LocalDays) (cap : Option ℕ) (table : UsageTable) (as : List BudgetAction)
    (key : JsString) (now : ℕ) (hclock : (as.flatMap BudgetAction.readings ++ [now]).Pairwise (· ≤ ·))
    (hids : DistinctIds table (as.filterMap BudgetAction.row?))
    (hfits : (runBudget days.startOfToday (init cap table) as).dropped = []) :
    ((runBudget days.startOfToday (init cap table) as).tokensUsedToday days.startOfToday key now).1 =
      (runBudget days.startOfToday (init cap table) as).table.tokensSince key (days.startOfToday now) +
        bufferedTokens (runBudget days.startOfToday (init cap table) as).buffer key := by
  have hinit : Budgeted days (as.filterMap BudgetAction.row?) 0 (init cap table) := ⟨rfl, hids, MemoAgrees.empty⟩
  have hfrom : (0 :: as.flatMap BudgetAction.readings ++ [now]).Pairwise (· ≤ ·) :=
    List.pairwise_cons.mpr ⟨fun t _ => Nat.zero_le t, hclock⟩
  exact ((hinit.run as 0 _ hfrom hfits).read key).1

/-- Midnights of a clock without an offset. -/
def utcDays : LocalDays where
  startOfToday now := now - now % 86400000
  mono a b hab := by
    show a - a % 86400000 ≤ b - b % 86400000
    omega
  le now := Nat.sub_le _ _

/-- A record and a read just before midnight, a record, a failed flush, a flush and a prune after it. -/
def overMidnight : List BudgetAction :=
  [.record { plainRecord (js "a") with keyId := some (js "k"), promptTokens := 10 } [] 86399000 86399000 false,
    .tokensUsedToday (js "k") 86399500,
    .record { plainRecord (js "b") with keyId := some (js "k"), promptTokens := 7 } [] 86400500 86400500 false,
    .tokensUsedToday (js "k") 86400600, .flush 86401000 true, .flush 86402000 false,
    .pruneOlderThan (.fin (1 / 2)) 86403000 false]

/-- The row recorded the day before counts on the day of its flush. -/
theorem tokensUsedToday_eq_overMidnight :
    ((runBudget utcDays.startOfToday (init none .empty) overMidnight).tokensUsedToday utcDays.startOfToday
        (js "k") 86404000).1 = 17 ∧
      ((runBudget utcDays.startOfToday (init none .empty) overMidnight).tokensUsedToday utcDays.startOfToday
          (js "k") 86404000).1 =
        (runBudget utcDays.startOfToday (init none .empty) overMidnight).table.tokensSince (js "k")
            (utcDays.startOfToday 86404000) +
          bufferedTokens (runBudget utcDays.startOfToday (init none .empty) overMidnight).buffer (js "k") := by
  have hclock : (overMidnight.flatMap BudgetAction.readings ++ [86404000]).Pairwise (· ≤ ·) := by decide +kernel
  have hids : DistinctIds .empty (overMidnight.filterMap BudgetAction.row?) := by
    unfold DistinctIds
    decide +kernel
  exact ⟨by decide +kernel,
    tokensUsedToday_eq utcDays none .empty overMidnight (js "k") 86404000 hclock hids (by decide +kernel)⟩

end UsageLedger

end AgyProxy
