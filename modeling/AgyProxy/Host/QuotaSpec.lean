import AgyProxy.Host.Quota

/-!
# AgyProxy.Host.QuotaSpec — when the quota of a family does not depend on the listing order

* `readings`: what the discovered models of a family report; `Aggregated`: the least fraction, with the latest
  reset among the models that show it.
* `recordedReading_first`, `recordedReading_below`: which reading the fold records.
* `orderFree_iff`: the record is the aggregate in every order exactly when the readings leave no choice.
-/

namespace AgyProxy

open Js Lib

section Quota

/-- What a model reports: its remaining fraction and its reset time. -/
abbrev QuotaReading := ℚ × Option JsString

variable (dateParse : JsString → Option ℤ)

/-- The reading of a model of the family. -/
def readingOf (fam : ModelFamily) (model : JsString × DiscoveredModelEntry) : Option QuotaReading :=
  if modelFamilyOf model.1 = fam ∧ fam ≠ .unknown then
    (finiteNumber? model.2.remainingFraction).map fun remaining => (remaining, model.2.resetTime)
  else none

def readings (fam : ModelFamily) (models : List (JsString × DiscoveredModelEntry)) : List QuotaReading :=
  models.filterMap (readingOf fam)

/-- The fraction and the reset time recorded for the family. -/
def FamilyQuotaRecord.reading (quota : FamilyQuotaRecord) : Option ℚ × Option JsString :=
  (quota.remainingFraction, quota.resetTime)

/-- What a refresh records for the family. -/
def recordedReading (stored : FamilyQuotas) (now : ℕ) (groups : List QuotaSummaryGroup)
    (discovered : DiscoveredModels) (fam : ModelFamily) : Option (Option ℚ × Option JsString) :=
  (refreshAccountQuota dateParse stored now (some groups) (some discovered)).bind fun familyQuotas =>
    (familyQuotas fam).map FamilyQuotaRecord.reading

/-- The least fraction, with the latest reset time of the readings that show it. -/
structure Aggregated (seen : List QuotaReading) (recorded : QuotaReading) : Prop where
  mem : recorded ∈ seen
  least : ∀ r ∈ seen, recorded.1 ≤ r.1
  latest : ∀ r ∈ seen, r.1 = recorded.1 → laterReset dateParse r.2 recorded.2 = false

/-- Whatever the order of the models, the same reading is recorded, and it is the aggregate. -/
structure OrderFree (stored : FamilyQuotas) (now : ℕ) (groups : List QuotaSummaryGroup)
    (discovered : DiscoveredModels) (fam : ModelFamily) : Prop where
  same : ∀ permuted : DiscoveredModels, permuted.entries.Perm discovered.entries →
    recordedReading dateParse stored now groups permuted fam =
      recordedReading dateParse stored now groups discovered fam
  aggregated : readings fam discovered.entries ≠ [] →
    ∃ r : QuotaReading, recordedReading dateParse stored now groups discovered fam = some (some r.1, r.2) ∧
      Aggregated dateParse (readings fam discovered.entries) r

/-- The readings leave no choice: without a summary entry all are one; beside an entry without a fraction there
is one below the full quota, and those below are one. -/
def Unambiguous (now : ℕ) (groups : List QuotaSummaryGroup) (fam : ModelFamily) (seen : List QuotaReading) : Prop :=
  match summaryQuotas now groups fam with
  | none => ∀ r ∈ seen, ∀ r' ∈ seen, r = r'
  | some _ => seen = [] ∨ (∃ r ∈ seen, r.1 < 1) ∧ ∀ r ∈ seen, ∀ r' ∈ seen, r.1 < 1 → r'.1 < 1 → r = r'

variable {dateParse} {stored : FamilyQuotas} {now : ℕ} {groups : List QuotaSummaryGroup}
  {fam : ModelFamily} {models : List (JsString × DiscoveredModelEntry)} {acc : QuotaIngest}

/-! ### One model of the fold -/

/-- The entry of the family after one of its models. -/
def afterReading (dateParse : JsString → Option ℤ) (prev : Option FamilyQuotaRecord) (now : ℕ)
    (quota : Option FamilyQuotaRecord) (r : QuotaReading) : Option FamilyQuotaRecord :=
  match quota with
  | none => some (mergeFallbackFamilyQuota prev ⟨⟨some r.1, r.2, none, none⟩, none, some now, none⟩)
  | some quota => some (foldReading dateParse quota r.1 r.2)

/-- **One model**: the entry of a family changes by the reading of the model, if it has one. -/
theorem ingestModel_familyQuotas (model : JsString × DiscoveredModelEntry) :
    (ingestModel dateParse stored now acc model).familyQuotas fam =
      match readingOf fam model with
      | none => acc.familyQuotas fam
      | some r => afterReading dateParse (stored fam) now (acc.familyQuotas fam) r := by
  unfold ingestModel readingOf
  by_cases hunknown : modelFamilyOf model.1 = .unknown
  · have hno : ¬ (modelFamilyOf model.1 = fam ∧ fam ≠ .unknown) := fun h => h.2 (h.1 ▸ hunknown)
    rw [if_pos hunknown, if_neg hno]
  · rw [if_neg hunknown]
    by_cases hfam : modelFamilyOf model.1 = fam
    · subst hfam
      rw [if_pos ⟨rfl, hunknown⟩]
      cases finiteNumber? model.2.remainingFraction with
      | none => rfl
      | some remaining =>
        show Function.update acc.familyQuotas _ _ _ = _
        rw [Function.update_self]
        show _ = afterReading dateParse _ now _ (remaining, model.2.resetTime)
        unfold afterReading
        cases acc.familyQuotas (modelFamilyOf model.1) with
        | none => rfl
        | some quota => rfl
    · have hno : ¬ (modelFamilyOf model.1 = fam ∧ fam ≠ .unknown) := fun h => hfam h.1
      rw [if_neg hno]
      cases finiteNumber? model.2.remainingFraction with
      | none => rfl
      | some remaining => exact Function.update_of_ne (Ne.symm hfam) _ _

/-- The fold sees of a family its readings only. -/
theorem foldl_ingestModel : ∀ (models : List (JsString × DiscoveredModelEntry)) (acc : QuotaIngest),
    (models.foldl (ingestModel dateParse stored now) acc).familyQuotas fam =
      (readings fam models).foldl (afterReading dateParse (stored fam) now) (acc.familyQuotas fam)
  | [], _ => rfl
  | model :: models, acc => by
    rw [List.foldl_cons, foldl_ingestModel models, ingestModel_familyQuotas]
    unfold readings
    cases hreading : readingOf fam model with
    | none => rw [List.filterMap_cons_none hreading]
    | some r => rw [List.filterMap_cons_some hreading, List.foldl_cons]

theorem recordedReading_eq (discovered : DiscoveredModels) :
    recordedReading dateParse stored now groups discovered fam =
      ((readings fam discovered.entries).foldl (afterReading dateParse (stored fam) now)
        (summaryQuotas now groups fam)).map FamilyQuotaRecord.reading := by
  have hsome : ¬ (some groups = none ∧ some discovered = none) := fun h => nomatch h.1
  unfold recordedReading refreshAccountQuota
  rw [if_neg hsome, Option.bind_some]
  show Option.map FamilyQuotaRecord.reading (Option.map _ _) = _
  rw [Option.map_map]
  show Option.map FamilyQuotaRecord.reading
    ((ingestModels dateParse stored now groups discovered.entries).familyQuotas fam) = _
  unfold ingestModels
  rw [foldl_ingestModel]

/-! ### Which reading is recorded -/

/-- An entry with a fraction keeps its reading. -/
theorem foldl_settled {prev : Option FamilyQuotaRecord} :
    ∀ (seen : List QuotaReading) {quota : FamilyQuotaRecord}, quota.remainingFraction ≠ none →
      seen.foldl (afterReading dateParse prev now) (some quota) = some quota
  | [], _, _ => rfl
  | r :: seen, quota, hquota => by
    have hstep : afterReading dateParse prev now (some quota) r = some quota := congrArg some (if_neg hquota)
    rw [List.foldl_cons, hstep, foldl_settled seen hquota]

/-- **Without an entry the first model decides.** -/
theorem foldl_first {prev : Option FamilyQuotaRecord} (hprev : ∀ quota ∈ prev, quota.remainingFraction = none)
    (r : QuotaReading) (seen : List QuotaReading) :
    ((r :: seen).foldl (afterReading dateParse prev now) none).map FamilyQuotaRecord.reading =
      some (some r.1, r.2) := by
  have hstep : afterReading dateParse prev now none r =
      some ⟨⟨some r.1, r.2, none, none⟩, none, some now, none⟩ := by
    show some (mergeFallbackFamilyQuota prev _) = _
    cases prev with
    | none => rfl
    | some quota =>
      have hnone : ¬ quota.remainingFraction.isSome = true := by
        rw [hprev quota rfl]
        exact Bool.false_ne_true
      exact congrArg some (if_neg hnone)
  rw [List.foldl_cons, hstep, foldl_settled seen (Option.some_ne_none r.1)]
  rfl

/-- **Beside an entry without a fraction the first model below the full quota decides**; the entry has no
fraction after models that are all at the full quota. -/
theorem foldl_below {prev : Option FamilyQuotaRecord} :
    ∀ (seen : List QuotaReading) {quota : FamilyQuotaRecord}, quota.remainingFraction = none →
      ∃ result, seen.foldl (afterReading dateParse prev now) (some quota) = some result ∧
        match seen.find? fun r => decide (r.1 < 1) with
        | some r => result.reading = (some r.1, r.2)
        | none => result.remainingFraction = none
  | [], quota, hquota => ⟨quota, rfl, hquota⟩
  | r :: seen, quota, hquota => by
    have hstep : afterReading dateParse prev now (some quota) r =
        some (if r.1 < 1 then { quota with remainingFraction := some r.1, resetTime := r.2 }
          else if r.1 = 1 ∧ laterReset dateParse r.2 quota.resetTime then { quota with resetTime := r.2 }
          else quota) := by
      show some (foldReading dateParse quota r.1 r.2) = _
      unfold foldReading
      rw [if_pos hquota, hquota]
      rfl
    rw [List.foldl_cons, hstep]
    by_cases hbelow : r.1 < 1
    · have hfind : (r :: seen).find? (fun r => decide (r.1 < 1)) = some r :=
        List.find?_cons_of_pos (decide_eq_true hbelow)
      rw [if_pos hbelow, hfind]
      exact ⟨_, foldl_settled seen (Option.some_ne_none r.1), rfl⟩
    · have hfind : (r :: seen).find? (fun r => decide (r.1 < 1)) = seen.find? fun r => decide (r.1 < 1) :=
        List.find?_cons_of_neg (by simpa using hbelow)
      rw [if_neg hbelow, hfind]
      by_cases hlater : r.1 = 1 ∧ laterReset dateParse r.2 quota.resetTime
      · rw [if_pos hlater]
        exact foldl_below seen hquota
      · rw [if_neg hlater]
        exact foldl_below seen hquota

/-! ### Orders -/

/-- Another order of the models is another order of their readings. -/
theorem readings_perm (fam : ModelFamily) {permuted discovered : DiscoveredModels}
    (hperm : permuted.entries.Perm discovered.entries) :
    (readings fam permuted.entries).Perm (readings fam discovered.entries) :=
  hperm.filterMap _

/-- A model that reports can be listed first. -/
theorem exists_perm_cons (discovered : DiscoveredModels) {r : QuotaReading}
    (hr : r ∈ readings fam discovered.entries) :
    ∃ permuted : DiscoveredModels, permuted.entries.Perm discovered.entries ∧
      ∃ rest, readings fam permuted.entries = r :: rest := by
  obtain ⟨model, hmodel, hreading⟩ := List.mem_filterMap.mp hr
  obtain ⟨front, back, hentries⟩ := List.append_of_mem hmodel
  have hperm : (model :: (front ++ back)).Perm discovered.entries := by
    rw [hentries]
    exact List.perm_middle.symm
  refine ⟨⟨model :: (front ++ back), (hperm.map Prod.fst).nodup_iff.mpr discovered.unique⟩, hperm, ?_⟩
  exact ⟨readings fam (front ++ back), List.filterMap_cons_some hreading⟩

/-- A reading that is alone among those that count is the aggregate. -/
theorem aggregated_of_below {seen : List QuotaReading} {r : QuotaReading} (hr : r ∈ seen)
    (hsame : ∀ r' ∈ seen, r'.1 ≤ r.1 → r' = r) : Aggregated dateParse seen r := by
  have hirrefl : ∀ reset, laterReset dateParse reset reset = false := by
    intro reset
    unfold laterReset
    cases truthy? reset with
    | none => rfl
    | some c =>
      cases hc : dateParse c with
      | none => simp [hc]
      | some t => simp [hc]
  refine ⟨hr, fun r' hr' => ?_, fun r' hr' heq => ?_⟩
  · rcases le_total r'.1 r.1 with hle | hle
    · exact (congrArg Prod.fst (hsame r' hr' hle)).ge
    · exact hle
  · rw [hsame r' hr' heq.le]
    exact hirrefl r.2

theorem reading_injective {r r' : QuotaReading}
    (h : some (some r.1, r.2) = (some (some r'.1, r'.2) : Option (Option ℚ × Option JsString))) : r = r' := by
  obtain ⟨hfraction, hreset⟩ := Prod.mk.inj (Option.some.inj h)
  exact Prod.ext (Option.some.inj hfraction) hreset

variable {discovered : DiscoveredModels}

/-- No summary entry: the family's first model is recorded. -/
theorem recordedReading_first (hstored : ∀ quota ∈ stored fam, quota.remainingFraction = none)
    (hnone : summaryQuotas now groups fam = none) {r : QuotaReading} {rest : List QuotaReading}
    (hseen : readings fam discovered.entries = r :: rest) :
    recordedReading dateParse stored now groups discovered fam = some (some r.1, r.2) := by
  rw [recordedReading_eq, hnone, hseen]
  exact foldl_first hstored r rest

/-- A summary entry without a fraction: the family's first model below the full quota is recorded. -/
theorem recordedReading_below {quota : FamilyQuotaRecord} (hsome : summaryQuotas now groups fam = some quota)
    (hquota : quota.remainingFraction = none) {r : QuotaReading}
    (hfind : (readings fam discovered.entries).find? (fun r => decide (r.1 < 1)) = some r) :
    recordedReading dateParse stored now groups discovered fam = some (some r.1, r.2) := by
  obtain ⟨result, hresult, hreading⟩ :=
    foldl_below (readings fam discovered.entries) hquota
  rw [hfind] at hreading
  rw [recordedReading_eq, hsome, hresult]
  exact congrArg some hreading

/-- A family without a reading is recorded in one way in every order. -/
theorem recordedReading_of_nil (hseen : readings fam discovered.entries = []) {permuted : DiscoveredModels}
    (hperm : permuted.entries.Perm discovered.entries) :
    recordedReading dateParse stored now groups permuted fam =
      recordedReading dateParse stored now groups discovered fam := by
  have hreadings := readings_perm fam hperm
  rw [hseen] at hreadings
  rw [recordedReading_eq, recordedReading_eq, hseen, hreadings.eq_nil]

/-- If one reading is recorded in every order and it is alone among those below it, the order does not matter. -/
theorem orderFree_of_recorded {r : QuotaReading} (hr : r ∈ readings fam discovered.entries)
    (hrecorded : ∀ permuted : DiscoveredModels, permuted.entries.Perm discovered.entries →
      recordedReading dateParse stored now groups permuted fam = some (some r.1, r.2))
    (hsame : ∀ r' ∈ readings fam discovered.entries, r'.1 ≤ r.1 → r' = r) :
    OrderFree dateParse stored now groups discovered fam := by
  have hhere := hrecorded discovered (List.Perm.refl _)
  refine ⟨fun permuted hperm => ?_, fun _ => ⟨r, hhere, aggregated_of_below hr hsame⟩⟩
  rw [hrecorded permuted hperm, hhere]

theorem orderFree_iff_of_none (hstored : ∀ quota ∈ stored fam, quota.remainingFraction = none)
    (hnone : summaryQuotas now groups fam = none) :
    OrderFree dateParse stored now groups discovered fam ↔
      ∀ r ∈ readings fam discovered.entries, ∀ r' ∈ readings fam discovered.entries, r = r' := by
  constructor
  · intro hfree
    -- whichever model is listed first is the one recorded
    have hfirst : ∀ r ∈ readings fam discovered.entries,
        recordedReading dateParse stored now groups discovered fam = some (some r.1, r.2) := by
      intro r hr
      obtain ⟨permuted, hperm, rest, hseen⟩ := exists_perm_cons discovered hr
      rw [← hfree.same permuted hperm]
      exact recordedReading_first hstored hnone hseen
    intro r hr r' hr'
    exact reading_injective ((hfirst r hr).symm.trans (hfirst r' hr'))
  · intro hsame
    cases hseen : readings fam discovered.entries with
    | nil => exact ⟨fun permuted hperm => recordedReading_of_nil hseen hperm, fun hne => absurd hseen hne⟩
    | cons r rest =>
      have hr : r ∈ readings fam discovered.entries := hseen ▸ List.mem_cons_self
      refine orderFree_of_recorded hr (fun permuted hperm => ?_) fun r' hr' _ => hsame r' hr' r hr
      have hreadings := readings_perm fam hperm
      obtain ⟨r', rest', hseen'⟩ := List.exists_cons_of_ne_nil (List.ne_nil_of_mem (hreadings.symm.subset hr))
      have hr' : r' ∈ readings fam discovered.entries := hreadings.subset (hseen' ▸ List.mem_cons_self)
      rw [recordedReading_first hstored hnone hseen', hsame r' hr' r hr]

/-- With every model at the full quota no fraction is recorded, so the record is not the aggregate. -/
theorem OrderFree.exists_below (hfree : OrderFree dateParse stored now groups discovered fam)
    {quota : FamilyQuotaRecord} (hsome : summaryQuotas now groups fam = some quota)
    (hquota : quota.remainingFraction = none) (hseen : readings fam discovered.entries ≠ []) :
    ∃ r ∈ readings fam discovered.entries, r.1 < 1 := by
  obtain ⟨recorded, hrecorded, -⟩ := hfree.aggregated hseen
  by_contra hfull
  have hfind : (readings fam discovered.entries).find? (fun r => decide (r.1 < 1)) = none := by
    rw [List.find?_eq_none]
    exact fun r hr hbelow => hfull ⟨r, hr, of_decide_eq_true hbelow⟩
  obtain ⟨result, hresult, hreading⟩ := foldl_below (readings fam discovered.entries) hquota
  rw [hfind] at hreading
  rw [recordedReading_eq, hsome, hresult] at hrecorded
  have hfraction : result.remainingFraction = some recorded.1 := congrArg Prod.fst (Option.some.inj hrecorded)
  exact absurd (hreading.symm.trans hfraction) (Option.some_ne_none _).symm

theorem orderFree_iff_of_some {quota : FamilyQuotaRecord} (hsome : summaryQuotas now groups fam = some quota)
    (hquota : quota.remainingFraction = none) :
    OrderFree dateParse stored now groups discovered fam ↔
      readings fam discovered.entries = [] ∨ (∃ r ∈ readings fam discovered.entries, r.1 < 1) ∧
        ∀ r ∈ readings fam discovered.entries, ∀ r' ∈ readings fam discovered.entries, r.1 < 1 → r'.1 < 1 → r = r' := by
  constructor
  · intro hfree
    by_cases hseen : readings fam discovered.entries = []
    · exact Or.inl hseen
    · refine Or.inr ⟨hfree.exists_below hsome hquota hseen, fun r hr r' hr' hbelow hbelow' => ?_⟩
      -- of the models below the full quota, whichever is listed first is the one recorded
      have hfirst : ∀ r ∈ readings fam discovered.entries, r.1 < 1 →
          recordedReading dateParse stored now groups discovered fam = some (some r.1, r.2) := by
        intro r hr hbelow
        obtain ⟨permuted, hperm, rest, hseen⟩ := exists_perm_cons discovered hr
        rw [← hfree.same permuted hperm]
        refine recordedReading_below hsome hquota ?_
        rw [hseen]
        exact List.find?_cons_of_pos (decide_eq_true hbelow)
      exact reading_injective ((hfirst r hr hbelow).symm.trans (hfirst r' hr' hbelow'))
  · rintro (hseen | ⟨⟨least, hleast, hbelow⟩, hsame⟩)
    · exact ⟨fun permuted hperm => recordedReading_of_nil hseen hperm, fun hne => absurd hseen hne⟩
    · refine orderFree_of_recorded hleast (fun permuted hperm => ?_) fun r' hr' hle =>
        hsame r' hr' least hleast (lt_of_le_of_lt hle hbelow) hbelow
      have hreadings := readings_perm fam hperm
      have hfound : ((readings fam permuted.entries).find? fun r => decide (r.1 < 1)).isSome = true :=
        List.find?_isSome.mpr ⟨least, hreadings.symm.subset hleast, decide_eq_true hbelow⟩
      obtain ⟨r, hfind⟩ := Option.isSome_iff_exists.mp hfound
      have hr : r ∈ readings fam discovered.entries := hreadings.subset (List.mem_of_find?_eq_some hfind)
      have hfits := List.find?_some hfind
      have hrbelow : r.1 < 1 := of_decide_eq_true hfits
      rw [recordedReading_below hsome hquota hfind, hsame r hr least hleast hrbelow hbelow]

/-- **Order independence**: for a family that neither the summary nor the stored quotas give a fraction, the
record is the same aggregate in every order exactly when the readings leave no choice. -/
theorem orderFree_iff (dateParse : JsString → Option ℤ) (stored : FamilyQuotas) (now : ℕ)
    (groups : List QuotaSummaryGroup) (discovered : DiscoveredModels) (fam : ModelFamily)
    (hsummary : ∀ quota ∈ summaryQuotas now groups fam, quota.remainingFraction = none)
    (hstored : ∀ quota ∈ stored fam, quota.remainingFraction = none) :
    OrderFree dateParse stored now groups discovered fam ↔
      Unambiguous now groups fam (readings fam discovered.entries) := by
  unfold Unambiguous
  cases hentry : summaryQuotas now groups fam with
  | none => exact orderFree_iff_of_none hstored hentry
  | some quota => exact orderFree_iff_of_some hentry (hsummary quota hentry)

/-! ### An exhausted model behind a healthy one -/

/-- `Date.parse` on the times of the example. -/
def octoberDate (s : JsString) : Option ℤ :=
  if s = js "2026-10-01T06:00:00Z" then some 1790834400000
  else if s = js "2026-10-01T09:00:00Z" then some 1790845200000
  else none

def quotaEntry (fraction : ℚ) (resetTime : String) : DiscoveredModelEntry :=
  ⟨some (.num (.fin fraction)), some (js resetTime), none⟩

/-- The exhausted model is listed second. -/
def healthyFirst : DiscoveredModels where
  entries := [(js "gemini-3-flash", quotaEntry (3 / 4) "2026-10-01T06:00:00Z"),
    (js "gemini-3-pro", quotaEntry 0 "2026-10-01T09:00:00Z")]
  unique := by decide

def exhaustedFirst : DiscoveredModels where
  entries := healthyFirst.entries.reverse
  unique := by decide

theorem not_orderFree_healthyFirst :
    ¬ OrderFree octoberDate (fun _ => none) 1790823600000 [] healthyFirst .google := by
  intro hfree
  have hsame := hfree.same exhaustedFirst (List.reverse_perm _)
  exact absurd hsame (by decide +kernel)

/-- Whether the scheduler takes the family for exhausted after a refresh. -/
def exhaustedAfter (discovered : DiscoveredModels) : Option Bool :=
  (refreshAccountQuota octoberDate (fun _ => none) 1790823600000 (some []) (some discovered)).bind fun quotas =>
    (quotas .google).map fun quota => quota.exhausted octoberDate 1790823600000

/-- The account is taken although one of its models has nothing left. -/
example : exhaustedAfter healthyFirst = some false ∧ exhaustedAfter exhaustedFirst = some true := by
  decide +kernel

/-- Two exhausted models of one reset beside a full one, and two equal ones of another family. -/
def equalReadings : DiscoveredModels where
  entries := [(js "gemini-3-pro", quotaEntry 0 "2026-10-01T09:00:00Z"),
    (js "gemini-2.5-pro", quotaEntry 1 "2026-10-01T06:00:00Z"),
    (js "claude-opus-4.5", quotaEntry (1 / 2) "2026-10-01T06:00:00Z"),
    (js "gemini-3-flash", quotaEntry 0 "2026-10-01T09:00:00Z"),
    (js "claude-sonnet-4.5", quotaEntry (1 / 2) "2026-10-01T06:00:00Z")]
  unique := by decide

/-- A summary that knows only the weekly window of one family. -/
def weeklyGroups : List QuotaSummaryGroup :=
  [⟨some (js "Gemini models"), none, [⟨none, some (js "weekly"), some (js "2026-10-05T00:00:00Z"), some (9 / 10)⟩]⟩]

/-- Last known entries of which none has a fraction. -/
def weeklyStored : FamilyQuotas := fun _ =>
  some ⟨⟨none, none, some (1 / 3), some (js "2026-10-05T00:00:00Z")⟩, none, some 1790820000000, none⟩

/-- Equal readings leave no choice, with a summary entry that has no fraction and without one. -/
theorem orderFree_equalReadings :
    OrderFree octoberDate weeklyStored 1790823600000 weeklyGroups equalReadings .google ∧
      OrderFree octoberDate weeklyStored 1790823600000 weeklyGroups equalReadings .anthropic := by
  have hstored : ∀ fam, ∀ quota ∈ weeklyStored fam, quota.remainingFraction = none := by
    intro fam quota hquota
    obtain rfl := Option.some.inj hquota
    rfl
  have hgoogle : summaryQuotas 1790823600000 weeklyGroups .google =
      some ⟨⟨none, none, some (9 / 10), some (js "2026-10-05T00:00:00Z")⟩, none, some 1790823600000, none⟩ := by
    decide +kernel
  have hanthropic : summaryQuotas 1790823600000 weeklyGroups .anthropic = none := by decide +kernel
  constructor
  · refine (orderFree_iff octoberDate weeklyStored 1790823600000 weeklyGroups equalReadings .google ?_
      (hstored .google)).mpr ?_
    · intro quota hquota
      obtain rfl := Option.some.inj (hgoogle.symm.trans hquota)
      rfl
    · unfold Unambiguous
      rw [hgoogle]
      decide +kernel
  · refine (orderFree_iff octoberDate weeklyStored 1790823600000 weeklyGroups equalReadings .anthropic ?_
      (hstored .anthropic)).mpr ?_
    · intro quota hquota
      exact absurd (hanthropic.symm.trans hquota) (Option.some_ne_none quota).symm
    · unfold Unambiguous
      rw [hanthropic]
      decide +kernel

end Quota

end AgyProxy
