import AgyProxy.Host.PoolActiveSpec
import AgyProxy.Lib.LeastOf
import AgyProxy.Server.ModelGate

/-!
# AgyProxy.Server.RetryAfterSpec — the wait an exhausted pool advertises

* `resetSignals`: the ends of live cooldowns and the quota resets to come, of the enabled accounts.
* `earliestResetMs_leastOf`: what the engine computes is the wait until the least of them.
* `signal_of_recovery`: an account that recovers by the passing of time alone has a signal by then.
* `retryAfter_sound`: **soundness**; nobody who waits as long as he is told misses the first usable instant,
  but for the rounding to whole seconds.
-/

namespace AgyProxy

open Js Lib

section RetryAfter

variable {dateParse : JsString → Option ℤ} {s : AccountPoolData} {family : ModelFamily} {now t : ℕ} {a : PoolAccount}
  {S : Set ℕ∞}

namespace AccountPoolData

/-! ### The signals -/

/-- The end of the account's live cooldown. -/
def cooldownSignals (family : ModelFamily) (now : ℕ) (a : PoolAccount) : Set ℕ∞ :=
  {e | a.enabled = true ∧ ∃ cd, a.cooldowns family = some cd ∧ (now : ℕ∞) < cd.cooldownUntil ∧ e = cd.cooldownUntil}

/-- The resets of the account's quota windows that are still to come. -/
def quotaSignals (dateParse : JsString → Option ℤ) (family : ModelFamily) (now : ℕ) (a : PoolAccount) : Set ℕ∞ :=
  {e | a.enabled = true ∧ ∃ quota, a.quotas family = some quota ∧ ∃ reset : ℕ, e = reset ∧
    (futureReset dateParse now quota.resetTime = some reset ∨
      futureReset dateParse now quota.weeklyResetTime = some reset)}

def resetSignals (dateParse : JsString → Option ℤ) (s : AccountPoolData) (family : ModelFamily) (now : ℕ) : Set ℕ∞ :=
  {e | ∃ a ∈ s.accounts, e ∈ cooldownSignals family now a ∪ quotaSignals dateParse family now a}

/-! ### The scan -/

theorem leastOf_consider {o t : Option ℕ∞} (h : LeastOf S o) : LeastOf (S ∪ {x | t = some x}) (consider o t) := by
  cases t with
  | none =>
    exact h.union_empty fun x hx => Option.some_ne_none x (Eq.symm hx)
  | some y =>
    have hy : IsLeast {x | some y = some x} y := ⟨rfl, fun x hx => (Option.some.inj hx).le⟩
    cases o with
    | none => exact LeastOf.union_first h hy
    | some x =>
      show LeastOf _ (if y < x then some y else some x)
      split
      · rename_i hlt
        exact LeastOf.union_lt h hy hlt
      · rename_i hnot
        exact LeastOf.union_le h hy (not_lt.mp hnot)

theorem liveCooldownEnd_eq_some_iff {e : ℕ∞} : liveCooldownEnd family now a = some e ↔
    ∃ cd, a.cooldowns family = some cd ∧ (now : ℕ∞) < cd.cooldownUntil ∧ e = cd.cooldownUntil := by
  unfold liveCooldownEnd
  rw [Option.map_eq_some_iff]
  constructor
  · rintro ⟨cd, hcd, rfl⟩
    obtain ⟨hcd, hlive⟩ := Option.filter_eq_some_iff.mp hcd
    exact ⟨cd, hcd, of_decide_eq_true hlive, rfl⟩
  · rintro ⟨cd, hcd, hlive, rfl⟩
    exact ⟨cd, Option.filter_eq_some_iff.mpr ⟨hcd, decide_eq_true hlive⟩, rfl⟩

/-- One account of the countdown's loop. -/
theorem leastOf_cooldown (family : ModelFamily) (now : ℕ) (a : PoolAccount) {o : Option ℕ∞} (h : LeastOf S o) :
    LeastOf (S ∪ cooldownSignals family now a)
      (if a.enabled then consider o (liveCooldownEnd family now a) else o) := by
  split
  · rename_i henabled
    refine (leastOf_consider (t := liveCooldownEnd family now a) h).congr fun x => or_congr_right ?_
    show liveCooldownEnd family now a = some x ↔ _
    rw [liveCooldownEnd_eq_some_iff]
    exact (and_iff_right henabled).symm
  · rename_i henabled
    exact h.union_empty fun x hx => henabled hx.1

/-- One account of the engine's loop. -/
theorem leastOf_quota (dateParse : JsString → Option ℤ) (family : ModelFamily) (now : ℕ) (a : PoolAccount)
    {o : Option ℕ∞} (h : LeastOf S o) :
    LeastOf (S ∪ quotaSignals dateParse family now a)
      (if a.enabled then
        match a.quotas family with
        | none => o
        | some fq =>
          consider (consider o ((futureReset dateParse now fq.resetTime).map Nat.cast))
            ((futureReset dateParse now fq.weeklyResetTime).map Nat.cast)
      else o) := by
  split
  · rename_i henabled
    cases hquota : a.quotas family with
    | none =>
      refine h.union_empty fun x hx => ?_
      obtain ⟨-, quota, hq, -⟩ := hx
      rw [hquota] at hq
      exact Option.some_ne_none quota hq.symm
    | some fq =>
      refine (leastOf_consider (leastOf_consider h)).congr fun x => ?_
      have hmem : x ∈ quotaSignals dateParse family now a ↔
          (futureReset dateParse now fq.resetTime).map Nat.cast = some x ∨
            (futureReset dateParse now fq.weeklyResetTime).map Nat.cast = some x := by
        unfold quotaSignals
        simp only [Set.mem_ofPred_eq, henabled, hquota, true_and, Option.some.injEq, exists_eq_left',
          Option.map_eq_some_iff]
        constructor
        · rintro ⟨reset, rfl, hreset | hreset⟩
          · exact Or.inl ⟨reset, hreset, rfl⟩
          · exact Or.inr ⟨reset, hreset, rfl⟩
        · rintro (⟨reset, hreset, rfl⟩ | ⟨reset, hreset, rfl⟩)
          · exact ⟨reset, rfl, Or.inl hreset⟩
          · exact ⟨reset, rfl, Or.inr hreset⟩
      rw [Set.mem_union, Set.mem_union, Set.mem_union, hmem, or_assoc]
      rfl
  · rename_i henabled
    exact h.union_empty fun x hx => henabled hx.1

/-- Waits are counted from now, and no signal lies before now. -/
theorem leastOf_wait {o : Option ℕ∞} (hS : ∀ e ∈ S, (now : ℕ∞) < e) (h : LeastOf S o) :
    LeastOf S ((o.map fun t => t - (now : ℕ∞)).map fun d => (now : ℕ∞) + d) := by
  cases o with
  | none => exact h
  | some e =>
    show LeastOf S (some ((now : ℕ∞) + (e - now)))
    rwa [add_tsub_cancel_of_le (hS e h.1).le]

theorem lt_of_cooldownSignal {e : ℕ∞} (h : e ∈ cooldownSignals family now a) : (now : ℕ∞) < e := by
  obtain ⟨-, cd, -, hlive, rfl⟩ := h
  exact hlive

theorem lt_of_quotaSignal {e : ℕ∞} (h : e ∈ quotaSignals dateParse family now a) : (now : ℕ∞) < e := by
  obtain ⟨-, quota, -, reset, rfl, hreset⟩ := h
  have hlt : ∀ {text}, futureReset dateParse now text = some reset → now < reset := by
    intro text htext
    obtain ⟨_, r, -, -, -, hr, rfl⟩ := futureReset_eq_some_iff.mp htext
    omega
  exact Nat.cast_lt.mpr (hreset.elim hlt hlt)

theorem lt_of_signal {e : ℕ∞} (h : e ∈ resetSignals dateParse s family now) : (now : ℕ∞) < e := by
  obtain ⟨a, -, h | h⟩ := h
  · exact lt_of_cooldownSignal h
  · exact lt_of_quotaSignal h

theorem leastOf_countdown (s : AccountPoolData) (family : ModelFamily) (now : ℕ) :
    LeastOf {e | ∃ a ∈ s.accounts, e ∈ cooldownSignals family now a}
      ((s.getEarliestResetCountdown family now).map fun d => (now : ℕ∞) + d) := by
  have hscan := LeastOf.foldl (l := s.accounts) (fun a _ _ _ h => leastOf_cooldown family now a h) leastOf_empty
  rw [Set.empty_union] at hscan
  refine leastOf_wait ?_ hscan
  rintro e ⟨a, -, he⟩
  exact lt_of_cooldownSignal he

theorem consider_none (t : Option ℕ∞) : consider none t = t := by
  cases t with
  | none => rfl
  | some t => rfl

/-- **What the engine advertises** is the wait until the least signal. -/
theorem earliestResetMs_leastOf (dateParse : JsString → Option ℤ) (s : AccountPoolData) (family : ModelFamily)
    (now : ℕ) :
    LeastOf (resetSignals dateParse s family now)
      ((s.earliestResetMs dateParse family now).map fun d => (now : ℕ∞) + d) := by
  have hscan := LeastOf.foldl (l := s.accounts) (fun a _ _ _ h => leastOf_quota dateParse family now a h)
    (leastOf_countdown s family now)
  have hsignals : ∀ e, e ∈ {e | ∃ a ∈ s.accounts, e ∈ cooldownSignals family now a} ∪
      {e | ∃ a ∈ s.accounts, e ∈ quotaSignals dateParse family now a} ↔ e ∈ resetSignals dateParse s family now := by
    intro e
    constructor
    · rintro (⟨a, ha, he⟩ | ⟨a, ha, he⟩)
      · exact ⟨a, ha, Or.inl he⟩
      · exact ⟨a, ha, Or.inr he⟩
    · rintro ⟨a, ha, he | he⟩
      · exact Or.inl ⟨a, ha, he⟩
      · exact Or.inr ⟨a, ha, he⟩
  simp only [earliestResetMs, consider_none]
  exact leastOf_wait (fun e => lt_of_signal) (hscan.congr hsignals)

/-! ### Recovery -/

/-- Who is not eligible now and is eligible at `t`, untouched, was waiting for a signal that has come. -/
theorem signal_of_recovery (ha : a ∈ s.accounts) (hnow : ¬ Eligible dateParse family now a)
    (hthen : Eligible dateParse family t a) : ∃ e ∈ resetSignals dateParse s family now, e ≤ t := by
  by_contra hnone
  have hcooling : ∀ e ∈ cooldownSignals family now a, ¬ e ≤ t := fun e he het => hnone ⟨e, ⟨a, ha, Or.inl he⟩, het⟩
  have hquota : ∀ e ∈ quotaSignals dateParse family now a, ¬ e ≤ t :=
    fun e he het => hnone ⟨e, ⟨a, ha, Or.inr he⟩, het⟩
  -- a window that is used up now, and not at `t`, has reset in between
  have hwindow : ∀ {threshold fraction resetTime}, ¬ WindowExhausted dateParse t threshold fraction resetTime →
      (∀ reset : ℕ, futureReset dateParse now resetTime = some reset → ¬ (reset : ℕ∞) ≤ t) →
      ¬ WindowExhausted dateParse now threshold fraction resetTime := by
    rintro threshold fraction resetTime hopen hlater ⟨f, text, reset, hf, hthreshold, htext, hne, hparse, hlt⟩
    refine hlater reset.toNat (futureReset_eq_some_iff.mpr ⟨text, reset, htext, hne, hparse, hlt, rfl⟩) ?_
    have hpast : ¬ (t : ℤ) < reset := fun h => hopen ⟨f, text, reset, hf, hthreshold, htext, hne, hparse, h⟩
    exact Nat.cast_le.mpr (by omega)
  refine hnow ⟨hthen.enabled, hthen.signedIn, ?_, ?_, ?_⟩
  · intro cd hcd
    by_contra hlive
    exact hcooling cd.cooldownUntil ⟨hthen.enabled, cd, hcd, not_le.mp hlive, rfl⟩ (hthen.cool cd hcd)
  · intro quota hq
    refine hwindow (hthen.fiveHours quota hq) fun reset hreset => ?_
    exact hquota reset ⟨hthen.enabled, quota, hq, reset, rfl, Or.inl hreset⟩
  · intro quota hq
    refine hwindow (hthen.weekly quota hq) fun reset hreset => ?_
    exact hquota reset ⟨hthen.enabled, quota, hq, reset, rfl, Or.inr hreset⟩

/-- The instants from now on at which the scheduler finds an account, time alone passing. -/
def usableTimes (dateParse : JsString → Option ℤ) (s : AccountPoolData) (family : ModelFamily) (now : ℕ) : Set ℕ :=
  {t | now ≤ t ∧ (s.selectAccount dateParse family [] t).1 ≠ none}

theorem signal_of_usable {busy : List JsString} (hnone : (s.selectAccount dateParse family busy now).1 = none)
    (ht : t ∈ usableTimes dateParse s family now) : ∃ e ∈ resetSignals dateParse s family now, e ≤ t := by
  obtain ⟨-, hsome⟩ := ht
  rw [ne_eq, selectAccount_eq_none_iff] at hsome
  push Not at hsome
  obtain ⟨a, ha, hthen⟩ := hsome
  exact signal_of_recovery ha (selectAccount_eq_none_iff.mp hnone a ha) hthen

/-- Seconds are rounded up. -/
theorem lt_of_retryAfterSec (family : ModelFamily) {ms sec : ℕ} (hpos : 0 < ms)
    (h : (poolExhausted family (some ms)).retryAfterSec = some sec) : 1000 * sec < ms + 1000 := by
  have hsec : max 1 (ceilSeconds ms) = sec := Option.some.inj h
  unfold ceilSeconds at hsec
  omega

/-- **Retry-After is sound** in a pool where the scheduler finds nobody. -/
theorem retryAfter_sound (dateParse : JsString → Option ℤ) (s : AccountPoolData) (family : ModelFamily)
    (busy : List JsString) (now : ℕ) (hnone : (s.selectAccount dateParse family busy now).1 = none) :
    (s.earliestResetMs dateParse family now = none → usableTimes dateParse s family now = ∅) ∧
      (∀ d, s.earliestResetMs dateParse family now = some d →
        now + d ∈ resetSignals dateParse s family now ∧ ∀ t ∈ usableTimes dateParse s family now, now + d ≤ t) ∧
      ∀ ms sec : ℕ, s.earliestResetMs dateParse family now = some ms →
        (poolExhausted family (some ms)).retryAfterSec = some sec →
        ∀ t ∈ usableTimes dateParse s family now, now + 1000 * sec < t + 1000 := by
  have hleast := earliestResetMs_leastOf dateParse s family now
  have hsome : ∀ d, s.earliestResetMs dateParse family now = some d →
      now + d ∈ resetSignals dateParse s family now ∧ ∀ t ∈ usableTimes dateParse s family now, now + d ≤ t := by
    intro d hd
    rw [hd] at hleast
    refine ⟨hleast.1, ?_⟩
    intro t ht
    obtain ⟨e, he, hle⟩ := signal_of_usable hnone ht
    exact (hleast.2 he).trans hle
  refine ⟨?_, hsome, ?_⟩
  · intro hd
    rw [hd] at hleast
    refine Set.eq_empty_of_forall_notMem fun t ht => ?_
    obtain ⟨e, he, -⟩ := signal_of_usable hnone ht
    exact hleast e he
  · intro ms sec hms hsec t ht
    obtain ⟨hsignal, hall⟩ := hsome ms hms
    have hpos : now < now + ms := by
      have hlt : (now : ℕ∞) < ((now + ms : ℕ) : ℕ∞) := by
        rw [Nat.cast_add]
        exact lt_of_signal hsignal
      exact Nat.cast_lt.mp hlt
    have hle : now + ms ≤ t := by
      have hcast : ((now + ms : ℕ) : ℕ∞) ≤ t := by
        rw [Nat.cast_add]
        exact hall t ht
      exact Nat.cast_le.mp hcast
    have hround := lt_of_retryAfterSec family (by omega) hsec
    omega

/-- One account, which was told to wait for five minutes. -/
def coolingPool : AccountPoolData :=
  (defaultPoolData.createAccountSlot slotB none 1000 List.not_mem_nil).recordFailure (fun _ => none) slotB.val
    .google (js "RESOURCE_EXHAUSTED: resets in 5m") none 3000

theorem retryAfter_sound_cooling : coolingPool.earliestResetMs (fun _ => none) .google 5000 = some (308000 : ℕ) ∧
    ∀ t ∈ usableTimes (fun _ => none) coolingPool .google 5000, 5000 + 1000 * 308 < t + 1000 := by
  have hnone : (coolingPool.selectAccount (fun _ => none) .google [] 5000).1 = none :=
    Option.isNone_iff_eq_none.mp (by decide +kernel)
  have hms : coolingPool.earliestResetMs (fun _ => none) .google 5000 = some (308000 : ℕ) := by decide +kernel
  exact ⟨hms, (retryAfter_sound _ _ _ _ _ hnone).2.2 308000 308 hms (by decide +kernel)⟩

end AccountPoolData

end RetryAfter

end AgyProxy
