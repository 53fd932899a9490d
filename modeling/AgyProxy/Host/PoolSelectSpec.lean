import AgyProxy.Host.Pool

/-!
# AgyProxy.Host.PoolSelectSpec — what the scheduler picks

* `Eligible`: an account that may serve a family at a time; `eligible_iff`: the filter decides it.
* `Choosable`: eligible, and not busy unless all that are eligible are; `mem_choices_iff`.
* `SequentialChoice`: stick to the active account, else advance in a circle.
* `selectAccount_correct`: **correctness**, for every pool, family, busy set and time.
-/

namespace AgyProxy

open Js Lib

section Select

variable {dateParse : JsString → Option ℤ} {s : AccountPoolData} {family : ModelFamily} {busy : List JsString}
  {now : ℕ} {a b first : PoolAccount} {rest : List PoolAccount} {id : JsString}

/-! ### Eligibility -/

/-- A window that is used up at that time, by its own clock. -/
def WindowExhausted (dateParse : JsString → Option ℤ) (now : ℕ) (threshold : ℚ) (fraction : Option ℚ)
    (resetTime : Option JsString) : Prop :=
  ∃ f text reset, fraction = some f ∧ f ≤ threshold ∧ resetTime = some text ∧ text ≠ [] ∧
    dateParse text = some reset ∧ (now : ℤ) < reset

structure Eligible (dateParse : JsString → Option ℤ) (family : ModelFamily) (now : ℕ) (a : PoolAccount) : Prop where
  enabled : a.enabled = true
  signedIn : a.authRequired = false
  cool : ∀ cd, a.cooldowns family = some cd → cd.cooldownUntil ≤ now
  fiveHours : ∀ quota, a.quotas family = some quota →
    ¬ WindowExhausted dateParse now FRACTION_5H quota.remainingFraction quota.resetTime
  weekly : ∀ quota, a.quotas family = some quota →
    ¬ WindowExhausted dateParse now FRACTION_WEEKLY quota.weeklyFraction quota.weeklyResetTime

theorem futureReset_eq_some_iff {resetTime : Option JsString} {t : ℕ} :
    futureReset dateParse now resetTime = some t ↔
      ∃ text reset, resetTime = some text ∧ text ≠ [] ∧ dateParse text = some reset ∧ (now : ℤ) < reset ∧
        reset.toNat = t := by
  unfold futureReset truthy?
  simp only [Option.map_eq_some_iff, Option.filter_eq_some_iff, Option.bind_eq_some_iff, Bool.not_eq_true',
    List.isEmpty_eq_false_iff, decide_eq_true_eq]
  constructor
  · rintro ⟨reset, ⟨⟨text, ⟨htext, hne⟩, hparse⟩, hlt⟩, rfl⟩
    exact ⟨text, reset, htext, hne, hparse, hlt, rfl⟩
  · rintro ⟨text, reset, htext, hne, hparse, hlt, rfl⟩
    exact ⟨reset, ⟨⟨text, ⟨htext, hne⟩, hparse⟩, hlt⟩, rfl⟩

theorem windowExhausted_iff {threshold : ℚ} {fraction : Option ℚ} {resetTime : Option JsString} :
    windowExhausted dateParse now threshold fraction resetTime = true ↔
      WindowExhausted dateParse now threshold fraction resetTime := by
  unfold windowExhausted WindowExhausted
  rw [Bool.and_eq_true, Option.any_eq_true, Option.isSome_iff_exists]
  constructor
  · rintro ⟨⟨f, hf, hle⟩, t, ht⟩
    obtain ⟨text, reset, htext, hne, hparse, hlt, -⟩ := futureReset_eq_some_iff.mp ht
    exact ⟨f, text, reset, hf, of_decide_eq_true hle, htext, hne, hparse, hlt⟩
  · rintro ⟨f, text, reset, hf, hle, htext, hne, hparse, hlt⟩
    exact ⟨⟨f, hf, decide_eq_true hle⟩, reset.toNat,
      futureReset_eq_some_iff.mpr ⟨text, reset, htext, hne, hparse, hlt, rfl⟩⟩

theorem live_eq_false_iff {cd : FamilyCooldownState} : cd.live now = false ↔ cd.cooldownUntil ≤ now := by
  unfold FamilyCooldownState.live
  rw [decide_eq_false_iff_not, not_lt]

theorem eligible_iff : a.eligible dateParse family now = true ↔ Eligible dateParse family now a := by
  unfold PoolAccount.eligible
  simp only [Bool.and_eq_true, Bool.not_eq_true', Option.any_eq_false, FamilyQuotaInfo.exhausted,
    Bool.or_eq_false_iff]
  constructor
  · rintro ⟨⟨⟨henabled, hauth⟩, hcool⟩, hquota⟩
    refine ⟨henabled, hauth, ?_, ?_, ?_⟩
    · intro cd hcd
      exact live_eq_false_iff.mp (hcool cd hcd)
    · intro quota hq h
      exact absurd (windowExhausted_iff.mpr h) (Bool.eq_false_iff.mp (hquota quota hq).1)
    · intro quota hq h
      exact absurd (windowExhausted_iff.mpr h) (Bool.eq_false_iff.mp (hquota quota hq).2)
  · rintro ⟨henabled, hauth, hcool, hfive, hweek⟩
    refine ⟨⟨⟨henabled, hauth⟩, ?_⟩, ?_⟩
    · intro cd hcd
      exact live_eq_false_iff.mpr (hcool cd hcd)
    · intro quota hq
      exact ⟨Bool.eq_false_iff.mpr fun h => hfive quota hq (windowExhausted_iff.mp h),
        Bool.eq_false_iff.mpr fun h => hweek quota hq (windowExhausted_iff.mp h)⟩

namespace AccountPoolData

theorem eq_of_key_eq (ha : a ∈ s.accounts) (hb : b ∈ s.accounts) (h : a.key = b.key) : a = b :=
  List.inj_on_of_nodup_map s.unique ha hb h

/-! ### The candidates -/

theorem mem_candidates_iff : a ∈ s.candidates dateParse family busy now ↔
    a ∈ s.accounts ∧ a.key ∉ busy ∧ Eligible dateParse family now a := by
  unfold candidates
  rw [List.mem_filter, Bool.and_eq_true, Bool.not_eq_true', List.contains_eq_mem, decide_eq_false_iff_not,
    eligible_iff]

/-- The candidates, or all that are eligible when those are all busy. -/
def choices (dateParse : JsString → Option ℤ) (s : AccountPoolData) (family : ModelFamily) (busy : List JsString)
    (now : ℕ) : List PoolAccount :=
  if s.candidates dateParse family busy now = [] then s.candidates dateParse family [] now
  else s.candidates dateParse family busy now

structure Choosable (dateParse : JsString → Option ℤ) (s : AccountPoolData) (family : ModelFamily)
    (busy : List JsString) (now : ℕ) (a : PoolAccount) : Prop where
  mem : a ∈ s.accounts
  eligible : Eligible dateParse family now a
  freeFirst : a.key ∈ busy → ∀ b ∈ s.accounts, Eligible dateParse family now b → b.key ∈ busy

theorem mem_choices_iff : a ∈ choices dateParse s family busy now ↔ Choosable dateParse s family busy now a := by
  unfold choices
  split
  · rename_i hnone
    -- nobody eligible is free
    have hbusy : ∀ b ∈ s.accounts, Eligible dateParse family now b → b.key ∈ busy := by
      intro b hb he
      by_contra hfree
      have hmem : b ∈ s.candidates dateParse family busy now := mem_candidates_iff.mpr ⟨hb, hfree, he⟩
      rw [hnone] at hmem
      exact List.not_mem_nil hmem
    rw [mem_candidates_iff]
    constructor
    · rintro ⟨ha, -, he⟩
      exact ⟨ha, he, fun _ => hbusy⟩
    · rintro ⟨ha, he, -⟩
      exact ⟨ha, List.not_mem_nil, he⟩
  · rename_i hsome
    obtain ⟨c, hc⟩ := List.exists_mem_of_ne_nil _ hsome
    obtain ⟨hcmem, hcfree, hce⟩ := mem_candidates_iff.mp hc
    rw [mem_candidates_iff]
    constructor
    · rintro ⟨ha, hfree, he⟩
      exact ⟨ha, he, fun h => absurd h hfree⟩
    · rintro ⟨ha, he, hbusy⟩
      exact ⟨ha, fun h => hcfree (hbusy h c hcmem hce), he⟩

theorem choices_eq_nil_iff : choices dateParse s family busy now = [] ↔
    ∀ a ∈ s.accounts, ¬ Eligible dateParse family now a := by
  constructor
  · intro h a ha he
    have hall : s.candidates dateParse family [] now = [] := by
      unfold choices at h
      split at h
      · exact h
      · exact absurd h ‹_›
    have hmem : a ∈ s.candidates dateParse family [] now := mem_candidates_iff.mpr ⟨ha, List.not_mem_nil, he⟩
    rw [hall] at hmem
    exact List.not_mem_nil hmem
  · intro h
    rw [List.eq_nil_iff_forall_not_mem]
    intro a ha
    have hchoice := mem_choices_iff.mp ha
    exact h a hchoice.mem hchoice.eligible

/-- The list of the accounts, as far as they may be chosen. -/
theorem choices_sublist : (choices dateParse s family busy now).Sublist s.accounts := by
  unfold choices
  split
  · exact List.filter_sublist
  · exact List.filter_sublist

theorem selectAccount_of_nil (h : choices dateParse s family busy now = []) :
    s.selectAccount dateParse family busy now = (none, s) := by
  have hall := h
  unfold choices at h
  split at h
  · rename_i hnone
    unfold selectAccount
    rw [hnone, h]
  · exact absurd h ‹_›

theorem selectAccount_of_cons (h : choices dateParse s family busy now = first :: rest) :
    s.selectAccount dateParse family busy now = s.selectAmong family first rest := by
  unfold choices at h
  unfold selectAccount
  split at h
  · rename_i hnone
    rw [hnone, h]
  · rw [h]

/-! ### The choice -/

theorem leastRecentlyUsed_mem {l : List PoolAccount} (h : leastRecentlyUsed l = some a) : a ∈ l := by
  have hmem := List.mem_of_mem_head? (Option.mem_def.mpr h)
  exact (List.mem_insertionSort _).mp hmem

theorem leastRecentlyUsed_isSome (first : PoolAccount) (rest : List PoolAccount) :
    ∃ a, leastRecentlyUsed (first :: rest) = some a := by
  unfold leastRecentlyUsed
  rw [← Option.isSome_iff_exists, List.isSome_head?]
  intro h
  have hperm := List.perm_insertionSort (fun a b : PoolAccount => a.usedAt ≤ b.usedAt) (first :: rest)
  rw [h] at hperm
  exact absurd hperm.symm.eq_nil (List.cons_ne_nil first rest)

theorem nextAccount_mem (hsub : ∀ c ∈ first :: rest, c ∈ s.accounts) :
    s.nextAccount family first rest ∈ first :: rest := by
  unfold nextAccount
  cases hafter : (s.activeIndex family).bind fun i =>
      (cyclicAfter s.accounts i).find? fun a => (first :: rest).any fun c => decide (c.key = a.key) with
  | none => exact List.mem_cons_self
  | some a =>
    obtain ⟨i, -, hfind⟩ := Option.bind_eq_some_iff.mp hafter
    have hany := List.find?_some hfind
    obtain ⟨c, hc, hkey⟩ := List.any_eq_true.mp hany
    have ha : a ∈ s.accounts := mem_of_mem_cyclicAfter (List.mem_of_find?_eq_some hfind)
    show a ∈ first :: rest
    rw [← eq_of_key_eq (hsub c hc) ha (of_decide_eq_true hkey)]
    exact hc

/-- The choice is a candidate, and the pool is as it was but for the active account of the family. -/
theorem selectAmong_cases (family : ModelFamily) (hsub : ∀ c ∈ first :: rest, c ∈ s.accounts) :
    ∃ a ∈ first :: rest, s.selectAmong family first rest = (some a, s) ∨
      s.selectAmong family first rest = (some a, s.setActive family a.key) := by
  unfold selectAmong
  split
  · obtain ⟨a, ha⟩ := leastRecentlyUsed_isSome first rest
    rw [ha]
    exact ⟨a, leastRecentlyUsed_mem ha, Or.inl rfl⟩
  · cases hactive : (s.activeId family).bind fun id => (first :: rest).find? fun a => decide (a.key = id) with
    | some a =>
      obtain ⟨id, -, hfind⟩ := Option.bind_eq_some_iff.mp hactive
      exact ⟨a, List.mem_of_find?_eq_some hfind, Or.inl rfl⟩
    | none => exact ⟨s.nextAccount family first rest, nextAccount_mem hsub, Or.inr rfl⟩

theorem selectAccount_eq_none_iff : (s.selectAccount dateParse family busy now).1 = none ↔
    ∀ a ∈ s.accounts, ¬ Eligible dateParse family now a := by
  have hnil : choices dateParse s family busy now = [] ↔ _ := choices_eq_nil_iff
  rw [← hnil]
  cases hchoices : choices dateParse s family busy now with
  | nil => simp [selectAccount_of_nil hchoices]
  | cons first rest =>
    obtain ⟨a, -, h⟩ := selectAmong_cases family fun c hc => choices_sublist.subset (hchoices ▸ hc)
    rw [selectAccount_of_cons hchoices]
    rcases h with h | h
    · simp [h]
    · simp [h]

/-! ### The sequential drain -/

theorem key_ne_nil (a : PoolAccount) : a.key ≠ [] := by
  intro h
  have hacc := a.id.isAcc
  rw [show a.id.val = [] from h, List.prefix_nil] at hacc
  exact absurd hacc (by decide)

/-- The choice among `C` from the active account on. -/
structure SequentialChoice (s : AccountPoolData) (family : ModelFamily) (C : PoolAccount → Prop) (a : PoolAccount) :
    Prop where
  sticks : ∀ b ∈ s.accounts, s.activeAccountIds family = some b.key → C b → a = b
  advances : ∀ i b, s.accounts[i]? = some b → s.activeAccountIds family = some b.key → ¬ C b →
    NearestAfter C s.accounts i a
  starts : (∀ b ∈ s.accounts, s.activeAccountIds family ≠ some b.key) → FirstWith C s.accounts a

theorem activeId_of_active (h : s.activeAccountIds family = some b.key) : s.activeId family = some b.key := by
  unfold activeId truthy?
  rw [h]
  simp [key_ne_nil b]

theorem activeIndex_of_active {i : ℕ} (hi : s.accounts[i]? = some b) (h : s.activeAccountIds family = some b.key) :
    s.activeIndex family = some i := by
  unfold activeIndex
  rw [activeId_of_active h, Option.bind_some, List.findIdx?_eq_some_iff_getElem]
  obtain ⟨hlt, hb⟩ := List.getElem?_eq_some_iff.mp hi
  refine ⟨hlt, decide_eq_true (by rw [hb]), ?_⟩
  intro j hj hkey
  have hjlt : j < s.accounts.length := hj.trans hlt
  have hsame : s.accounts[j] = s.accounts[i] := by
    refine eq_of_key_eq (List.getElem_mem _) (List.getElem_mem _) ?_
    rw [hb]
    exact of_decide_eq_true hkey
  have hnodup : s.accounts.Nodup := List.Nodup.of_map _ s.unique
  exact absurd ((hnodup.getElem_inj_iff).mp hsame) (by omega)

/-- The keys of the candidates tell them apart. -/
theorem any_key_iff (hsub : ∀ c ∈ first :: rest, c ∈ s.accounts) (hb : b ∈ s.accounts) :
    ((first :: rest).any fun c => decide (c.key = b.key)) = true ↔ b ∈ first :: rest := by
  rw [List.any_eq_true]
  constructor
  · rintro ⟨c, hc, hkey⟩
    rw [← eq_of_key_eq (hsub c hc) hb (of_decide_eq_true hkey)]
    exact hc
  · intro h
    exact ⟨b, h, decide_eq_true rfl⟩

theorem find?_candidate (hsub : ∀ c ∈ first :: rest, c ∈ s.accounts) (hb : b ∈ first :: rest) :
    (first :: rest).find? (fun a => decide (a.key = b.key)) = some b := by
  obtain ⟨c, hc⟩ : ∃ c, (first :: rest).find? (fun a => decide (a.key = b.key)) = some c := by
    rw [← Option.isSome_iff_exists, List.find?_isSome]
    exact ⟨b, hb, decide_eq_true rfl⟩
  have hkey := List.find?_some hc
  rw [hc, eq_of_key_eq (hsub c (List.mem_of_find?_eq_some hc)) (hsub b hb) (of_decide_eq_true hkey)]

/-- Advancing from the active account, which is no candidate. -/
theorem nextAccount_nearest {i : ℕ} (hsub : ∀ c ∈ first :: rest, c ∈ s.accounts) (hi : s.accounts[i]? = some b)
    (hactive : s.activeAccountIds family = some b.key) (hb : b ∉ first :: rest) :
    NearestAfter (fun a => a ∈ first :: rest) s.accounts i (s.nextAccount family first rest) := by
  have hfirst : first ∈ cyclicAfter s.accounts i :=
    mem_cyclicAfter hi (hsub first List.mem_cons_self) fun h => hb (h ▸ List.mem_cons_self)
  obtain ⟨a, ha⟩ : ∃ a, (cyclicAfter s.accounts i).find?
      (fun a => (first :: rest).any fun c => decide (c.key = a.key)) = some a := by
    rw [← Option.isSome_iff_exists, List.find?_isSome]
    exact ⟨first, hfirst, (any_key_iff hsub (hsub first List.mem_cons_self)).mpr List.mem_cons_self⟩
  have hnext : s.nextAccount family first rest = a := by
    unfold nextAccount
    rw [activeIndex_of_active hi hactive, Option.bind_some, ha, Option.getD_some]
  rw [hnext]
  exact (nearestAfter_of_find? ha).congr fun y hy => any_key_iff hsub hy

theorem nextAccount_of_no_active (h : ∀ b ∈ s.accounts, s.activeAccountIds family ≠ some b.key) :
    s.nextAccount family first rest = first := by
  have hnone : s.activeIndex family = none := by
    unfold activeIndex
    cases hid : s.activeId family with
    | none => rfl
    | some id =>
      rw [Option.bind_some, List.findIdx?_eq_none_iff]
      intro b hb
      refine decide_eq_false fun hkey => h b hb ?_
      rw [hkey]
      exact (Option.filter_eq_some_iff.mp hid).1
  unfold nextAccount
  rw [hnone]
  rfl

theorem selectAmong_sequential (hmode : s.mode = .sequential) (hsub : ∀ c ∈ first :: rest, c ∈ s.accounts)
    (h : (s.selectAmong family first rest).1 = some a) (hfirst : FirstWith (fun a => a ∈ first :: rest) s.accounts first) :
    SequentialChoice s family (fun a => a ∈ first :: rest) a := by
  have hbranch : ¬ (s.mode = .roundRobin ∧ rest ≠ []) := by simp [hmode]
  unfold selectAmong at h
  rw [if_neg hbranch] at h
  cases hstick : (s.activeId family).bind fun id => (first :: rest).find? fun a => decide (a.key = id) with
  | some c =>
    rw [hstick] at h
    obtain rfl : c = a := Option.some.inj h
    obtain ⟨id, hid, hfind⟩ := Option.bind_eq_some_iff.mp hstick
    have hc : c ∈ first :: rest := List.mem_of_find?_eq_some hfind
    have hkey := List.find?_some hfind
    have hact : s.activeAccountIds family = some c.key := by
      rw [of_decide_eq_true hkey]
      exact (Option.filter_eq_some_iff.mp hid).1
    -- the active account is a candidate
    have hsame : ∀ b ∈ s.accounts, s.activeAccountIds family = some b.key → c = b := by
      intro b hb hb'
      exact eq_of_key_eq (hsub c hc) hb (Option.some.inj (hact.symm.trans hb'))
    refine ⟨fun b hb hb' _ => hsame b hb hb', ?_, fun hno => absurd hact (hno c (hsub c hc))⟩
    intro i b hi hb' hnot
    exact absurd (hsame b (List.mem_of_getElem? hi) hb' ▸ hc) hnot
  | none =>
    rw [hstick] at h
    obtain rfl : s.nextAccount family first rest = a := Option.some.inj h
    refine ⟨?_, ?_, ?_⟩
    · intro b hb hactive hcand
      rw [activeId_of_active hactive, Option.bind_some, find?_candidate hsub hcand] at hstick
      exact absurd hstick (Option.some_ne_none b)
    · intro i b hi hactive hnot
      exact nextAccount_nearest hsub hi hactive hnot
    · intro hno
      rw [nextAccount_of_no_active hno]
      exact hfirst

/-! ### Correctness -/

structure SelectCorrect (dateParse : JsString → Option ℤ) (s : AccountPoolData) (family : ModelFamily)
    (busy : List JsString) (now : ℕ) (selected : Option PoolAccount) (s' : AccountPoolData) : Prop where
  eligible : ∀ a, selected = some a → a ∈ s.accounts ∧ Eligible dateParse family now a
  none_iff : selected = none ↔ ∀ a ∈ s.accounts, ¬ Eligible dateParse family now a
  freeFirst : ∀ a, selected = some a → a.key ∈ busy → ∀ b ∈ s.accounts, Eligible dateParse family now b → b.key ∈ busy
  sequential : s.mode = .sequential → ∀ a, selected = some a →
    SequentialChoice s family (Choosable dateParse s family busy now) a
  frame : s' = { s with activeAccountIds := s'.activeAccountIds }
  others : ∀ f, f ≠ family → s'.activeAccountIds f = s.activeAccountIds f

theorem SequentialChoice.congr {C C' : PoolAccount → Prop} (h : ∀ b ∈ s.accounts, C b ↔ C' b)
    (ha : SequentialChoice s family C a) : SequentialChoice s family C' a := by
  refine ⟨fun b hb hact hC => ha.sticks b hb hact ((h b hb).mpr hC), ?_, fun hno => (ha.starts hno).congr h⟩
  intro i b hi hact hC
  exact (ha.advances i b hi hact fun hb => hC ((h b (List.mem_of_getElem? hi)).mp hb)).congr h

theorem choices_firstWith (h : choices dateParse s family busy now = first :: rest) :
    FirstWith (fun a => a ∈ first :: rest) s.accounts first := by
  obtain ⟨p, hp⟩ : ∃ p, choices dateParse s family busy now = s.accounts.filter p := by
    unfold choices
    split
    · exact ⟨_, rfl⟩
    · exact ⟨_, rfl⟩
  rw [hp] at h
  refine (firstWith_of_filter h).congr fun y hy => ?_
  rw [← h, List.mem_filter]
  exact ⟨fun hpy => ⟨hy, hpy⟩, fun hpy => hpy.2⟩

/-- **The scheduler is correct.** -/
theorem selectAccount_correct (dateParse : JsString → Option ℤ) (s : AccountPoolData) (family : ModelFamily)
    (busy : List JsString) (now : ℕ) :
    SelectCorrect dateParse s family busy now (s.selectAccount dateParse family busy now).1
      (s.selectAccount dateParse family busy now).2 := by
  cases hchoices : choices dateParse s family busy now with
  | nil =>
    rw [selectAccount_of_nil hchoices]
    refine ⟨?_, ?_, ?_, ?_, rfl, fun _ _ => rfl⟩
    · intro a ha
      exact absurd ha.symm (Option.some_ne_none a)
    · rw [← selectAccount_of_nil hchoices]
      exact selectAccount_eq_none_iff
    · intro a ha
      exact absurd ha.symm (Option.some_ne_none a)
    · intro _ a ha
      exact absurd ha.symm (Option.some_ne_none a)
  | cons first rest =>
    have hsub : ∀ c ∈ first :: rest, c ∈ s.accounts := by
      intro c hc
      rw [← hchoices] at hc
      exact choices_sublist.subset hc
    have hiff : ∀ c, c ∈ first :: rest ↔ Choosable dateParse s family busy now c := by
      intro c
      rw [← hchoices]
      exact mem_choices_iff
    rw [selectAccount_of_cons hchoices]
    obtain ⟨a, ha, hcases⟩ := selectAmong_cases family hsub
    have hchoice := (hiff a).mp ha
    have hfst : (s.selectAmong family first rest).1 = some a := by
      rcases hcases with h | h
      · rw [h]
      · rw [h]
    refine ⟨?_, ?_, ?_, ?_, ?_, ?_⟩
    · intro b hb
      obtain rfl : a = b := Option.some.inj (hfst.symm.trans hb)
      exact ⟨hchoice.mem, hchoice.eligible⟩
    · rw [← selectAccount_of_cons hchoices]
      exact selectAccount_eq_none_iff
    · intro b hb
      obtain rfl : a = b := Option.some.inj (hfst.symm.trans hb)
      exact hchoice.freeFirst
    · intro hmode b hb
      exact (selectAmong_sequential hmode hsub hb (choices_firstWith hchoices)).congr fun c _ => hiff c
    · rcases hcases with h | h
      · rw [h]
      · rw [h]
        rfl
    · intro f hf
      rcases hcases with h | h
      · rw [h]
      · rw [h]
        exact if_neg hf

end AccountPoolData

end Select

end AgyProxy
