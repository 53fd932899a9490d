import AgyProxy.Host.RecordingSpec
import AgyProxy.Js.NumberSpec
import AgyProxy.Lib.Simulation
import AgyProxy.Server.ApiAuth
import Mathlib.Data.List.Perm.Subperm

/-!
# AgyProxy.Server.ApiAuthSpec — what the limiters of the keys let through

* `window`: the window of a limiter that is running; `Acts.window`: one action leaves it alone or takes a point of it.
* `requests_bounded`: **no minute sees more** than twice the limit of a key less one of its requests.
* `retryAfter_exact`: **the announced wait** is the time the refusals last, to the second.
* `sweep_unseen`: **the sweep of idle limiters changes no answer**.

A sweep reads a limiter and drops it in two steps; `Tidy` says that no request asks the limiter in between.
-/

namespace AgyProxy

open Js Lib

theorem limiterKey_inj {id id' : JsString} {rpm rpm' : ℕ} (h : limiterKey id rpm = limiterKey id' rpm') :
    id = id' ∧ rpm = rpm' := by
  unfold limiterKey at h
  have hcolon : ∀ n, (0x3A : UInt16) ∉ natDigits n := fun n hmem =>
    digit_ne (allDigits_natDigits n _ hmem) (by decide) rfl
  have hlength : id.length = id'.length := by
    have hlast := congrArg (lastIndexOf 0x3A) h
    rw [lastIndexOf_append _ _ (hcolon rpm), lastIndexOf_append _ _ (hcolon rpm')] at hlast
    exact Option.some.inj hlast
  obtain ⟨hid, hdigits⟩ := List.append_inj h hlength
  refine ⟨hid, ?_⟩
  have hvalue := congrArg (digitsValue 10 0) (List.cons.inj hdigits).2
  rw [digitsValue_natDigits, digitsValue_natDigits] at hvalue
  exact Option.some.inj hvalue

/-- The limiter of the key a request brings. -/
def AuthCaller.limiterKey? : AuthCaller → Option JsString
  | .settled _ => none
  | .managed key => some (limiterKey key.id key.rpmLimit)

def ApiAuthAction.isSweep : ApiAuthAction → Bool
  | .sweepGet _ | .sweepDrop _ => true
  | _ => false

/-- The action as a hook without a sweep takes it. -/
def ApiAuthAction.unswept (a : ApiAuthAction) : Option ApiAuthAction := if a.isSweep then none else some a

namespace ApiAuth

variable {L : WindowLimiter ℕ} {c : KeyCrypto} {startOfToday nextMidnight : ℕ → ℕ} {s s' t : ApiAuth L}
  {a : ApiAuthAction}

/-! ### One limiter -/

/-- The window of an entry of `limiters` that is running. -/
def windowIn (limiters : JsString → Option (KeyLimiter L)) (cacheKey : JsString) (now : ℕ) : Option WindowCount :=
  (limiters cacheKey).bind fun limiter => L.windowAt limiter.store LIMITER_KEY now

def window (s : ApiAuth L) (keyId : JsString) (rpm : ℕ) : Option WindowCount :=
  windowIn s.limiters (limiterKey keyId rpm) s.clock

/-- When the requests of a key got their points under a limit. -/
def times (s : ApiAuth L) (keyId : JsString) (rpm : ℕ) : List ℕ :=
  (s.granted.filter fun g => decide (g.keyId = keyId ∧ g.rpm = rpm)).map KeyArrival.arrivedAt

theorem windowIn_later (limiters : JsString → Option (KeyLimiter L)) (cacheKey : JsString) {now later : ℕ}
    (hle : now ≤ later) :
    windowIn limiters cacheKey later = WindowCount.running (windowIn limiters cacheKey now) later := by
  unfold windowIn
  cases limiters cacheKey with
  | none => rfl
  | some limiter => exact L.windowAt_later limiter.store LIMITER_KEY now later hle

/-- Every limiter has the limit its key names. -/
def Labelled (limiters : JsString → Option (KeyLimiter L)) : Prop :=
  ∀ keyId rpm limiter, limiters (limiterKey keyId rpm) = some limiter → limiter.points = rpm

section Consume

variable (s) (keyId : JsString) (rpm : ℕ)

/-- The window once the next request has asked. -/
def asked : WindowCount := WindowCount.consume LIMITER_WINDOW_MS (s.window keyId rpm) s.clock

variable {s} {keyId rpm}

theorem getLimiter_points (h : Labelled s.limiters) : (s.getLimiter keyId rpm).points = rpm := by
  unfold getLimiter
  cases hl : s.limiters (limiterKey keyId rpm) with
  | none => rfl
  | some limiter => exact h keyId rpm limiter hl

theorem windowAt_getLimiter :
    L.windowAt (s.getLimiter keyId rpm).store LIMITER_KEY s.clock = s.window keyId rpm := by
  unfold getLimiter window windowIn
  cases s.limiters (limiterKey keyId rpm) with
  | none => exact L.windowAt_fresh LIMITER_KEY s.clock
  | some limiter => rfl

variable (keyId rpm) in
/-- **What a limiter does**: the point counts, and is refused past the limit. -/
theorem consume_spec (h : Labelled s.limiters) :
    ∃ limiters, s.consume keyId rpm = ((s.asked keyId rpm).verdict rpm s.clock, { s with limiters }) ∧
      Labelled limiters ∧ windowIn limiters (limiterKey keyId rpm) s.clock = some (s.asked keyId rpm) ∧
      ∀ k, k ≠ limiterKey keyId rpm → limiters k = s.limiters k := by
  have hpoints : (s.getLimiter keyId rpm).points = rpm := getLimiter_points h
  have hres := L.consume_result rpm LIMITER_WINDOW_MS (s.getLimiter keyId rpm).store LIMITER_KEY s.clock
  have hsame := L.consume_same rpm LIMITER_WINDOW_MS (s.getLimiter keyId rpm).store LIMITER_KEY s.clock (by decide)
  rw [windowAt_getLimiter] at hres hsame
  refine ⟨Function.update s.limiters (limiterKey keyId rpm) (some ⟨rpm, (L.consume rpm LIMITER_WINDOW_MS
    (s.getLimiter keyId rpm).store LIMITER_KEY s.clock).2⟩), ?_, fun keyId' rpm' limiter hl => ?_, ?_,
    fun k hne => Function.update_of_ne hne _ _⟩
  · unfold consume
    dsimp only
    rw [hpoints]
    exact Prod.ext hres rfl
  · by_cases hk : limiterKey keyId' rpm' = limiterKey keyId rpm
    · obtain ⟨rfl, rfl⟩ := limiterKey_inj hk
      rw [Function.update_self] at hl
      rw [← Option.some.inj hl]
    · exact h keyId' rpm' limiter ((Function.update_of_ne hk _ _).symm.trans hl)
  · unfold windowIn
    rw [Function.update_self]
    exact hsame

end Consume

/-! ### What one action does -/

/-- All that the limits of the keys depend on is the same. -/
structure SameLimits (s t : ApiAuth L) : Prop where
  limiters : t.limiters = s.limiters
  clock : t.clock = s.clock
  waiting : t.waiting = s.waiting
  sweeping : t.sweeping = s.sweeping
  granted : t.granted = s.granted

variable (startOfToday nextMidnight) in
theorem proceed_cases (s : ApiAuth L) (p : PendingAuth) :
    SameLimits s (s.proceed startOfToday nextMidnight p) ∧
      ((s.proceed startOfToday nextMidnight p).admissions = s.admissions ∨
        (s.proceed startOfToday nextMidnight p).admissions = s.admissions ++ [p.arrival]) := by
  have hbudget : SameLimits s (s.overBudget startOfToday p.key).2 ∧
      (s.overBudget startOfToday p.key).2.admissions = s.admissions := by
    unfold overBudget
    split
    · split
      · exact ⟨⟨rfl, rfl, rfl, rfl, rfl⟩, rfl⟩
      · exact ⟨⟨rfl, rfl, rfl, rfl, rfl⟩, rfl⟩
    · exact ⟨⟨rfl, rfl, rfl, rfl, rfl⟩, rfl⟩
  obtain ⟨hsame, hadmissions⟩ := hbudget
  unfold proceed
  split
  · next h =>
    rw [h] at hsame hadmissions
    exact ⟨⟨hsame.limiters, hsame.clock, hsame.waiting, hsame.sweeping, hsame.granted⟩, Or.inl hadmissions⟩
  · next h =>
    rw [h] at hsame hadmissions
    refine ⟨⟨hsame.limiters, hsame.clock, hsame.waiting, hsame.sweeping, hsame.granted⟩, Or.inr ?_⟩
    exact congrArg (· ++ [p.arrival]) hadmissions

/-- The entries once a request asked one of them. -/
structure Asked (s : ApiAuth L) (keyId : JsString) (rpm : ℕ) (limiters : JsString → Option (KeyLimiter L)) : Prop where
  labelled : Labelled limiters
  self : windowIn limiters (limiterKey keyId rpm) s.clock = some (s.asked keyId rpm)
  others : ∀ k, k ≠ limiterKey keyId rpm → limiters k = s.limiters k

/-- The outcomes of one action. -/
inductive Acts (startOfToday nextMidnight : ℕ → ℕ) (c : KeyCrypto) (s : ApiAuth L) : ApiAuthAction → ApiAuth L → Prop
  | tick {now : ℕ} (hle : s.clock ≤ now) : Acts startOfToday nextMidnight c s (.tick now) { s with clock := now }
  /-- the store, the ledger, a request that meets no limit, a sweep at a limiter in use -/
  | other {a : ApiAuthAction} {s' : ApiAuth L} (hsame : SameLimits s s') (hadmissions : s'.admissions = s.admissions) :
      Acts startOfToday nextMidnight c s a s'
  | unlimited {req : AuthRequest} {key : ApiKeyRecord} (hrpm : key.rpmLimit = 0) :
      Acts startOfToday nextMidnight c s (.arrive req) (s.proceed startOfToday nextMidnight ⟨req, key, s.clock⟩)
  | granted {req : AuthRequest} {key : ApiKeyRecord} {limiters : JsString → Option (KeyLimiter L)}
      (hkey : s.identify c req = .managed key) (hrpm : 0 < key.rpmLimit)
      (hasked : s.Asked key.id key.rpmLimit limiters)
      (hroom : (s.asked key.id key.rpmLimit).consumed ≤ key.rpmLimit) :
      Acts startOfToday nextMidnight c s (.arrive req)
        { s with
          limiters
          waiting := s.waiting ++ [⟨req, key, s.clock⟩]
          granted := s.granted ++ [⟨key.id, key.rpmLimit, s.clock⟩] }
  | refused {req : AuthRequest} {key : ApiKeyRecord} {limiters : JsString → Option (KeyLimiter L)}
      (hkey : s.identify c req = .managed key) (hrpm : 0 < key.rpmLimit)
      (hasked : s.Asked key.id key.rpmLimit limiters)
      (hfull : key.rpmLimit < (s.asked key.id key.rpmLimit).consumed) (outcome : AuthOutcome) :
      Acts startOfToday nextMidnight c s (.arrive req) ({ s with limiters }.answer req outcome)
  | resume {i : ℕ} {p : PendingAuth} (hp : s.waiting[i]? = some p) :
      Acts startOfToday nextMidnight c s (.resume i)
        ({ s with waiting := s.waiting.eraseIdx i }.proceed startOfToday nextMidnight p)
  | idle {cacheKey : JsString} (hnone : windowIn s.limiters cacheKey s.clock = none) :
      Acts startOfToday nextMidnight c s (.sweepGet cacheKey) { s with sweeping := s.sweeping ++ [cacheKey] }
  | drop {cacheKey : JsString} (hmem : cacheKey ∈ s.sweeping) :
      Acts startOfToday nextMidnight c s (.sweepDrop cacheKey)
        { s with
          limiters := Function.update s.limiters cacheKey none
          sweeping := s.sweeping.erase cacheKey }

variable (startOfToday nextMidnight) in
/-- **Inversion of `arrive`** at a limiter. -/
theorem arrive_managed (h : Labelled s.limiters) {req : AuthRequest} {key : ApiKeyRecord}
    (hkey : s.identify c req = .managed key) (hrpm : 0 < key.rpmLimit) :
    ∃ limiters, s.Asked key.id key.rpmLimit limiters ∧
      s.arrive startOfToday nextMidnight c req =
        if (s.asked key.id key.rpmLimit).consumed ≤ key.rpmLimit then
          { s with
            limiters
            waiting := s.waiting ++ [⟨req, key, s.clock⟩]
            granted := s.granted ++ [⟨key.id, key.rpmLimit, s.clock⟩] }
        else
          let sec := waitSec ((s.asked key.id key.rpmLimit).res s.clock).msBeforeNext
          { s with limiters }.answer req (.refused (quotaRejectFor req (rpmMessage key.rpmLimit sec) sec)) := by
  obtain ⟨limiters, hconsume, hlabelled, hself, hothers⟩ := consume_spec key.id key.rpmLimit h
  refine ⟨limiters, ⟨hlabelled, hself, hothers⟩, ?_⟩
  unfold arrive
  rw [hkey]
  dsimp only
  rw [if_pos hrpm, hconsume]
  unfold WindowCount.verdict
  by_cases hroom : (s.asked key.id key.rpmLimit).consumed ≤ key.rpmLimit
  · rw [if_pos hroom, if_pos hroom]
  · rw [if_neg hroom, if_neg hroom]

/-- **What one action does.** -/
theorem step_acts (hlabelled : Labelled s.limiters) (h : s.step startOfToday nextMidnight c a = some s') :
    Acts startOfToday nextMidnight c s a s' := by
  cases a with
  | tick now =>
    simp only [step, Option.ite_none_right_eq_some, Option.some.injEq] at h
    obtain ⟨hle, rfl⟩ := h
    exact .tick hle
  | keys a =>
    obtain ⟨keys, -, rfl⟩ := Option.map_eq_some_iff.mp h
    exact .other ⟨rfl, rfl, rfl, rfl, rfl⟩ rfl
  | ledger a =>
    obtain ⟨ledger, -, rfl⟩ := Option.map_eq_some_iff.mp h
    exact .other ⟨rfl, rfl, rfl, rfl, rfl⟩ rfl
  | arrive req =>
    obtain rfl := Option.some.inj h
    cases hkey : s.identify c req with
    | settled outcome =>
      have heq : s.arrive startOfToday nextMidnight c req = s.answer req outcome := by
        unfold arrive
        rw [hkey]
      rw [heq]
      exact .other ⟨rfl, rfl, rfl, rfl, rfl⟩ rfl
    | managed key =>
      by_cases hrpm : 0 < key.rpmLimit
      · obtain ⟨limiters, hasked, heq⟩ := arrive_managed startOfToday nextMidnight hlabelled hkey hrpm
        rw [heq]
        split
        · next hroom => exact .granted hkey hrpm hasked hroom
        · next hfull => exact .refused hkey hrpm hasked (Nat.lt_of_not_le hfull) _
      · have heq : s.arrive startOfToday nextMidnight c req =
            s.proceed startOfToday nextMidnight ⟨req, key, s.clock⟩ := by
          unfold arrive
          rw [hkey]
          exact if_neg hrpm
        rw [heq]
        exact .unlimited (Nat.eq_zero_of_not_pos hrpm)
  | resume i =>
    obtain ⟨p, hp, rfl⟩ := Option.map_eq_some_iff.mp h
    exact .resume hp
  | sweepGet cacheKey =>
    obtain ⟨limiter, hlimiter, rfl⟩ := Option.map_eq_some_iff.mp h
    split
    · exact .other ⟨rfl, rfl, rfl, rfl, rfl⟩ rfl
    · next hget =>
      refine .idle ?_
      unfold windowIn
      rw [hlimiter]
      exact L.get_none limiter.store LIMITER_KEY s.clock hget
  | sweepDrop cacheKey =>
    simp only [step, Option.ite_none_right_eq_some, Option.some.injEq] at h
    obtain ⟨hmem, rfl⟩ := h
    exact .drop hmem

/-- The limiter an action asks for a point. -/
def limiterOf (c : KeyCrypto) (s : ApiAuth L) : ApiAuthAction → Option JsString
  | .arrive req => (s.identify c req).limiterKey?
  | _ => none

/-- No request asks a limiter that a sweep is about to drop. -/
def Tidy (c : KeyCrypto) (s : ApiAuth L) (a : ApiAuthAction) : Prop := ∀ k ∈ s.limiterOf c a, k ∉ s.sweeping

instance Tidy.decidable (c : KeyCrypto) (s : ApiAuth L) (a : ApiAuthAction) : Decidable (s.Tidy c a) :=
  inferInstanceAs (Decidable (∀ k ∈ s.limiterOf c a, k ∉ s.sweeping))

theorem Tidy.not_mem {req : AuthRequest} {key : ApiKeyRecord} (h : s.Tidy c (.arrive req))
    (hkey : s.identify c req = .managed key) : limiterKey key.id key.rpmLimit ∉ s.sweeping := by
  have hlimiter : s.limiterOf c (.arrive req) = some (limiterKey key.id key.rpmLimit) :=
    congrArg AuthCaller.limiterKey? hkey
  exact h _ hlimiter

/-! ### Every run -/

/-- An action leaves a limiter alone, but for the time that goes by, or takes a point of it. -/
theorem Acts.window (hswept : ∀ k ∈ s.sweeping, windowIn s.limiters k s.clock = none) (htidy : s.Tidy c a)
    (h : Acts startOfToday nextMidnight c s a s') (keyId : JsString) (rpm : ℕ) :
    (s'.times keyId rpm = s.times keyId rpm ∧ s.clock ≤ s'.clock ∧
        s'.window keyId rpm = WindowCount.running (s.window keyId rpm) s'.clock) ∨
      (s'.clock = s.clock ∧ s'.window keyId rpm = some (s.asked keyId rpm) ∧
        s'.times keyId rpm =
          s.times keyId rpm ++ if (s.asked keyId rpm).consumed ≤ rpm then [s.clock] else []) := by
  have hkeep : ∀ t : ApiAuth L, SameLimits s t →
      t.times keyId rpm = s.times keyId rpm ∧ s.clock ≤ t.clock ∧
        t.window keyId rpm = WindowCount.running (s.window keyId rpm) t.clock := by
    intro t ht
    unfold times ApiAuth.window
    rw [ht.granted, ht.clock, ht.limiters]
    exact ⟨rfl, le_rfl, windowIn_later _ _ le_rfl⟩
  -- a request of this key or of another
  have hothers : ∀ {keyId' : JsString} {rpm' : ℕ} {limiters : JsString → Option (KeyLimiter L)},
      s.Asked keyId' rpm' limiters → ¬ (keyId' = keyId ∧ rpm' = rpm) →
        windowIn limiters (limiterKey keyId rpm) s.clock = WindowCount.running (s.window keyId rpm) s.clock := by
    intro keyId' rpm' limiters hasked hne
    have hkey : limiterKey keyId rpm ≠ limiterKey keyId' rpm' := fun heq =>
      hne ⟨(limiterKey_inj heq).1.symm, (limiterKey_inj heq).2.symm⟩
    have hsame := windowIn_later s.limiters (limiterKey keyId rpm) (le_refl s.clock)
    unfold windowIn at hsame ⊢
    rw [hasked.others _ hkey]
    exact hsame
  cases h with
  | tick hle => exact Or.inl ⟨rfl, hle, windowIn_later _ _ hle⟩
  | other hsame => exact Or.inl (hkeep _ hsame)
  | unlimited hrpm => exact Or.inl (hkeep _ (proceed_cases startOfToday nextMidnight s _).1)
  | @granted req key limiters hkey hrpm hasked hroom =>
    by_cases hmine : key.id = keyId ∧ key.rpmLimit = rpm
    · obtain ⟨rfl, rfl⟩ := hmine
      refine Or.inr ⟨rfl, hasked.self, ?_⟩
      unfold times
      rw [if_pos hroom, List.filter_append, List.map_append]
      simp
    · refine Or.inl ⟨?_, le_rfl, hothers hasked hmine⟩
      unfold times
      rw [List.filter_append, List.map_append]
      simp [hmine]
  | @refused req key limiters hkey hrpm hasked hfull =>
    by_cases hmine : key.id = keyId ∧ key.rpmLimit = rpm
    · obtain ⟨rfl, rfl⟩ := hmine
      refine Or.inr ⟨rfl, hasked.self, ?_⟩
      rw [if_neg (Nat.not_le_of_lt hfull), List.append_nil]
      rfl
    · exact Or.inl ⟨rfl, le_rfl, hothers hasked hmine⟩
  | resume hp =>
    obtain ⟨hsame, -⟩ := proceed_cases startOfToday nextMidnight { s with waiting := s.waiting.eraseIdx _ } _
    unfold times ApiAuth.window
    rw [hsame.granted, hsame.clock, hsame.limiters]
    exact Or.inl ⟨rfl, le_rfl, windowIn_later _ _ le_rfl⟩
  | idle hnone => exact Or.inl ⟨rfl, le_rfl, windowIn_later _ _ le_rfl⟩
  | @drop cacheKey hmem =>
    refine Or.inl ⟨rfl, le_rfl, ?_⟩
    by_cases hmine : cacheKey = limiterKey keyId rpm
    · -- what is dropped was idle
      subst hmine
      have hnone : s.window keyId rpm = none := hswept _ hmem
      rw [hnone]
      unfold ApiAuth.window windowIn
      dsimp only
      rw [Function.update_self]
      rfl
    · have hsame := windowIn_later s.limiters (limiterKey keyId rpm) (le_refl s.clock)
      unfold ApiAuth.window windowIn at *
      dsimp only
      rw [Function.update_of_ne fun heq => hmine heq.symm]
      exact hsame

/-- The points granted and the windows behind them. -/
structure Inv (s : ApiAuth L) : Prop where
  labelled : Labelled s.limiters
  swept : ∀ k ∈ s.sweeping, windowIn s.limiters k s.clock = none
  le_clock : ∀ g ∈ s.granted, g.arrivedAt ≤ s.clock
  metered : ∀ keyId rpm, 0 < rpm → ∃ last,
    MeteredBy rpm LIMITER_WINDOW_MS (s.times keyId rpm) last ∧ s.window keyId rpm = WindowCount.running last s.clock
  /-- whoever was admitted or waits for it got a point -/
  booked : ((s.admissions.filter fun g => decide (0 < g.rpm)) ++ s.waiting.map PendingAuth.arrival).Subperm s.granted

theorem boot_inv (apiKey : JsString) (keys : Option KeyStore) (ledger : Option UsageLedger) (now : ℕ) :
    (boot apiKey keys ledger now : ApiAuth L).Inv := by
  refine ⟨fun _ _ _ h => absurd h (Option.some_ne_none _).symm, fun _ h => absurd h List.not_mem_nil,
    fun _ h => absurd h List.not_mem_nil, fun keyId rpm _ => ⟨none, rfl, rfl⟩, List.nil_subperm⟩

theorem Inv.times_le (hs : s.Inv) {keyId : JsString} {rpm x : ℕ} (hx : x ∈ s.times keyId rpm) : x ≤ s.clock := by
  obtain ⟨g, hg, rfl⟩ := List.mem_map.mp hx
  exact hs.le_clock g (List.mem_filter.mp hg).1

/-- **The count of every limiter** stays right. -/
theorem Inv.acts_metered (hs : s.Inv) (htidy : s.Tidy c a) (h : Acts startOfToday nextMidnight c s a s')
    (keyId : JsString) (rpm : ℕ) (hrpm : 0 < rpm) :
    ∃ last, MeteredBy rpm LIMITER_WINDOW_MS (s'.times keyId rpm) last ∧
      s'.window keyId rpm = WindowCount.running last s'.clock := by
  obtain ⟨last, hmetered, hwindow⟩ := hs.metered keyId rpm hrpm
  rcases h.window hs.swept htidy keyId rpm with ⟨htimes, hle, hrunning⟩ | ⟨hclock, hasked, htimes⟩
  · refine ⟨last, htimes ▸ hmetered, ?_⟩
    rw [hrunning, hwindow, WindowCount.running_running last hle]
  · have heq : s.asked keyId rpm = WindowCount.consume LIMITER_WINDOW_MS last s.clock := by
      unfold asked
      rw [hwindow, WindowCount.consume_running]
    rw [heq] at hasked htimes
    refine ⟨some (WindowCount.consume LIMITER_WINDOW_MS last s.clock), ?_, ?_⟩
    · rw [htimes]
      exact hmetered.consume hrpm (by decide) fun x hx => hs.times_le hx
    · have hlt : s.clock < (WindowCount.consume LIMITER_WINDOW_MS last s.clock).expiresAt :=
        WindowCount.lt_consume (by decide) last s.clock
      rw [hasked, hclock, WindowCount.running_some, if_pos hlt]

theorem windowIn_none_later {limiters : JsString → Option (KeyLimiter L)} {k : JsString} {now later : ℕ}
    (h : windowIn limiters k now = none) (hle : now ≤ later) : windowIn limiters k later = none := by
  rw [windowIn_later limiters k hle, h, WindowCount.running_none]

theorem Inv.congr (hs : s.Inv) (hlimiters : t.limiters = s.limiters) (hclock : t.clock = s.clock)
    (hsweeping : t.sweeping = s.sweeping) (hgranted : t.granted = s.granted)
    (hbooked : ((t.admissions.filter fun g => decide (0 < g.rpm)) ++ t.waiting.map PendingAuth.arrival).Subperm
      s.granted) : t.Inv := by
  refine ⟨hlimiters ▸ hs.labelled, ?_, ?_, fun keyId rpm hrpm => ?_, hgranted ▸ hbooked⟩
  · rw [hsweeping, hlimiters, hclock]
    exact hs.swept
  · rw [hgranted, hclock]
    exact hs.le_clock
  · unfold times window
    rw [hlimiters, hclock, hgranted]
    exact hs.metered keyId rpm hrpm

/-- A limiter that was asked is not one that a sweep found idle. -/
theorem Inv.asked_swept (hs : s.Inv) {keyId : JsString} {rpm : ℕ} {limiters : JsString → Option (KeyLimiter L)}
    (hasked : s.Asked keyId rpm limiters) (hnot : limiterKey keyId rpm ∉ s.sweeping) :
    ∀ k ∈ s.sweeping, windowIn limiters k s.clock = none := by
  intro k hk
  have hne : k ≠ limiterKey keyId rpm := fun heq => hnot (heq ▸ hk)
  have hold := hs.swept k hk
  unfold windowIn at hold ⊢
  rw [hasked.others k hne]
  exact hold

/-- **Every action** that asks no limiter about to be dropped. -/
theorem Inv.acts (hs : s.Inv) (htidy : s.Tidy c a) (h : Acts startOfToday nextMidnight c s a s') : s'.Inv := by
  have hmetered := hs.acts_metered htidy h
  cases h with
  | tick hle =>
    exact ⟨hs.labelled, fun k hk => windowIn_none_later (hs.swept k hk) hle,
      fun g hg => (hs.le_clock g hg).trans hle, hmetered, hs.booked⟩
  | other hsame hadmissions =>
    refine hs.congr hsame.limiters hsame.clock hsame.sweeping hsame.granted ?_
    rw [hadmissions, hsame.waiting]
    exact hs.booked
  | @unlimited req key hrpm =>
    obtain ⟨hsame, hadmissions⟩ :=
      proceed_cases startOfToday nextMidnight s ⟨req, key, s.clock⟩
    refine hs.congr hsame.limiters hsame.clock hsame.sweeping hsame.granted ?_
    rw [hsame.waiting]
    rcases hadmissions with heq | heq
    · rw [heq]
      exact hs.booked
    · have hnone : [PendingAuth.arrival ⟨req, key, s.clock⟩].filter (fun g => decide (0 < g.rpm)) = [] := by
        simp [PendingAuth.arrival, hrpm]
      rw [heq, List.filter_append, hnone, List.append_nil]
      exact hs.booked
  | @granted req key limiters hkey hrpm hasked hroom =>
    refine ⟨hasked.labelled, hs.asked_swept hasked (htidy.not_mem hkey), fun g hg => ?_, hmetered, ?_⟩
    · rcases List.mem_append.mp hg with hg | hg
      · exact hs.le_clock g hg
      · rw [List.mem_singleton.mp hg]
    · rw [List.map_append, ← List.append_assoc]
      exact hs.booked.append (List.Subperm.refl _)
  | refused hkey hrpm hasked hfull outcome =>
    exact ⟨hasked.labelled, hs.asked_swept hasked (htidy.not_mem hkey), hs.le_clock, hmetered, hs.booked⟩
  | @resume i p hp =>
    obtain ⟨hsame, hadmissions⟩ := proceed_cases startOfToday nextMidnight { s with waiting := s.waiting.eraseIdx i } p
    refine hs.congr hsame.limiters hsame.clock hsame.sweeping hsame.granted ?_
    rw [hsame.waiting]
    -- whoever waited first stands in front
    have hperm : (p.arrival :: (s.waiting.eraseIdx i).map PendingAuth.arrival).Perm
        (s.waiting.map PendingAuth.arrival) := by
      obtain ⟨hi, rfl⟩ := List.getElem?_eq_some_iff.mp hp
      exact (List.getElem_cons_eraseIdx_perm hi).map PendingAuth.arrival
    refine List.Subperm.trans ?_ hs.booked
    rcases hadmissions with heq | heq
    · rw [heq]
      exact (List.Subperm.refl _).append (List.subperm_cons_self.trans hperm.subperm)
    · rw [heq, List.filter_append, List.append_assoc]
      refine (List.Subperm.refl _).append (List.Subperm.trans ?_ hperm.subperm)
      exact (List.filter_sublist.append (List.Sublist.refl _)).subperm
  | @idle cacheKey hnone =>
    refine ⟨hs.labelled, fun k hk => ?_, hs.le_clock, hmetered, hs.booked⟩
    rcases List.mem_append.mp hk with hk | hk
    · exact hs.swept k hk
    · rw [List.mem_singleton.mp hk]
      exact hnone
  | @drop cacheKey hmem =>
    refine ⟨fun keyId rpm limiter hl => ?_, fun k hk => ?_, hs.le_clock, hmetered, hs.booked⟩
    · by_cases hk : limiterKey keyId rpm = cacheKey
      · rw [hk] at hl
        exact absurd ((Function.update_self ..).symm.trans hl) (Option.some_ne_none _).symm
      · exact hs.labelled keyId rpm limiter ((Function.update_of_ne hk ..).symm.trans hl)
    · have hold := hs.swept k (List.mem_of_mem_erase hk)
      unfold windowIn at hold ⊢
      dsimp only
      by_cases hne : k = cacheKey
      · rw [hne, Function.update_self, Option.bind_none]
      · rw [Function.update_of_ne hne]
        exact hold

theorem exec_inv (as : List ApiAuthAction) (s s' : ApiAuth L) (hs : s.Inv)
    (htidy : Every (step startOfToday nextMidnight c) (Tidy c) s as)
    (h : exec (step startOfToday nextMidnight c) s as = some s') : s'.Inv :=
  exec_invariant (fun _ _ _ hs htidy h => hs.acts htidy (step_acts hs.labelled h)) as s s' hs htidy h

/-- **No minute sees more** than twice the limit of a key less one of the requests that were admitted under it, or
are about to be. -/
theorem requests_bounded (L : WindowLimiter ℕ) (c : KeyCrypto) (startOfToday nextMidnight : ℕ → ℕ) (apiKey : JsString)
    (keys : Option KeyStore) (ledger : Option UsageLedger) (now : ℕ) (as : List ApiAuthAction) (s : ApiAuth L)
    (h : exec (step startOfToday nextMidnight c) (boot apiKey keys ledger now) as = some s)
    (htidy : Every (step startOfToday nextMidnight c) (Tidy c) (boot apiKey keys ledger now : ApiAuth L) as)
    (keyId : JsString) (rpm : ℕ) (hrpm : 0 < rpm) (t : ℕ) :
    ((s.admissions ++ s.waiting.map PendingAuth.arrival).countP fun g =>
      decide (g.keyId = keyId ∧ g.rpm = rpm ∧ t ≤ g.arrivedAt ∧ g.arrivedAt < t + 60000)) ≤ 2 * rpm - 1 := by
  have hs : s.Inv := exec_inv as _ s (boot_inv apiKey keys ledger now) htidy h
  obtain ⟨last, hmetered, -⟩ := hs.metered keyId rpm hrpm
  have hbounded := hmetered.bounded hrpm t
  have hlimited : ((s.admissions ++ s.waiting.map PendingAuth.arrival).countP fun g =>
      decide (g.keyId = keyId ∧ g.rpm = rpm ∧ t ≤ g.arrivedAt ∧ g.arrivedAt < t + 60000)) ≤
      ((s.admissions.filter fun g => decide (0 < g.rpm)) ++ s.waiting.map PendingAuth.arrival).countP fun g =>
        decide (g.keyId = keyId ∧ g.rpm = rpm ∧ t ≤ g.arrivedAt ∧ g.arrivedAt < t + 60000) := by
    rw [List.countP_append, List.countP_append, List.countP_filter]
    refine Nat.add_le_add_right (List.countP_mono_left fun g _ hg => ?_) _
    have hg' := of_decide_eq_true hg
    simp [hg', hrpm]
  have hpoints : (s.granted.countP fun g =>
      decide (g.keyId = keyId ∧ g.rpm = rpm ∧ t ≤ g.arrivedAt ∧ g.arrivedAt < t + 60000)) =
      (inWindow LIMITER_WINDOW_MS t (s.times keyId rpm)).length := by
    unfold inWindow times
    rw [← List.countP_eq_length_filter, List.countP_map, List.countP_filter]
    refine List.countP_congr fun g _ => ?_
    simp only [Function.comp_apply, Bool.and_eq_true, decide_eq_true_eq, LIMITER_WINDOW_MS]
    exact ⟨fun ⟨hid, hlimit, hfrom, hto⟩ => ⟨decide_eq_true ⟨hfrom, hto⟩, hid, hlimit⟩,
      fun ⟨hin, hid, hlimit⟩ => ⟨hid, hlimit, of_decide_eq_true hin⟩⟩
  exact hlimited.trans ((hs.booked.countP_le _).trans (hpoints ▸ hbounded))

/-- A hash and a cipher that hide nothing. -/
def plainCrypto : KeyCrypto where
  sha256 := id
  cipher _ _ _ := (⟨[], List.not_mem_nil⟩, ⟨[], List.not_mem_nil⟩)
  decipher _ _ _ _ := none

/-- One key, with two requests a minute. -/
def twoPerMinute : KeyStore :=
  .init none ⟨[⟨js "key_1", js "ci", js "k", js "p", 0, none, 0, 2, none, none, none⟩], List.nodup_singleton _,
    List.nodup_singleton _⟩

def itsRequest : AuthRequest := ⟨js "/v1/messages", js "r", none, [js "k"]⟩

/-- One request opens a window, the second fills it as it ends, a third is refused; two more fill the next at once. -/
def rushHour : List ApiAuthAction :=
  [.arrive itsRequest, .resume 0, .tick 59999, .arrive itsRequest, .arrive itsRequest, .tick 60000, .arrive itsRequest,
    .arrive itsRequest, .resume 1]

/-- The bound is met. -/
theorem requests_bounded_rushHour :
    ∃ s, exec (step id id plainCrypto) (boot [] (some twoPerMinute) none 0 : ApiAuth (.memory ℕ)) rushHour = some s ∧
      ((s.admissions ++ s.waiting.map PendingAuth.arrival).countP fun g =>
        decide (g.keyId = js "key_1" ∧ g.rpm = 2 ∧ 59999 ≤ g.arrivedAt ∧ g.arrivedAt < 59999 + 60000)) = 2 * 2 - 1 := by
  obtain ⟨s, hs, hcount⟩ := Option.map_eq_some_iff.mp
    (show (exec (step id id plainCrypto) (boot [] (some twoPerMinute) none 0 : ApiAuth (.memory ℕ)) rushHour).map
      (fun s => (s.admissions ++ s.waiting.map PendingAuth.arrival).countP fun g =>
        decide (g.keyId = js "key_1" ∧ g.rpm = 2 ∧ 59999 ≤ g.arrivedAt ∧ g.arrivedAt < 59999 + 60000)) = some 3
      by decide +kernel)
  refine ⟨s, hs, le_antisymm ?_ hcount.ge⟩
  exact requests_bounded (.memory ℕ) plainCrypto id id [] (some twoPerMinute) none 0 rushHour s hs (by decide +kernel)
    (js "key_1") 2 (by decide) 59999

/-! ### The wait a refusal announces -/

/-- A limiter that refuses until `endsAt`: its window is full and lasts as long, or has been followed by another. -/
def FullUntil (s : ApiAuth L) (keyId : JsString) (rpm endsAt seen : ℕ) : Prop :=
  ((s.times keyId rpm).length = seen ∧
      ∃ w : WindowCount, w.expiresAt = endsAt ∧ rpm ≤ w.consumed ∧
        s.window keyId rpm = WindowCount.running (some w) s.clock) ∨
    (endsAt ≤ s.clock ∧ seen < (s.times keyId rpm).length)

theorem FullUntil.acts {keyId : JsString} {rpm endsAt seen : ℕ} (hs : s.Inv) (hrpm : 0 < rpm)
    (hfull : s.FullUntil keyId rpm endsAt seen) (htidy : s.Tidy c a) (h : Acts startOfToday nextMidnight c s a s') :
    s'.FullUntil keyId rpm endsAt seen := by
  rcases h.window hs.swept htidy keyId rpm with ⟨htimes, hle, hwindow⟩ | ⟨hclock, hwindow, htimes⟩
  · rcases hfull with ⟨hseen, w, hover, hfull, hw⟩ | ⟨hover, hseen⟩
    · refine Or.inl ⟨htimes ▸ hseen, w, hover, hfull, ?_⟩
      rw [hwindow, hw, WindowCount.running_running _ hle]
    · exact Or.inr ⟨hover.trans hle, htimes ▸ hseen⟩
  · rcases hfull with ⟨hseen, w, hover, hfull, hw⟩ | ⟨hover, hseen⟩
    · have hasked : s.asked keyId rpm = WindowCount.consume LIMITER_WINDOW_MS (some w) s.clock := by
        unfold asked
        rw [hw, WindowCount.consume_running]
      by_cases hlt : s.clock < w.expiresAt
      · -- still the same window
        have hsame : s.asked keyId rpm = ⟨w.consumed + 1, w.expiresAt⟩ := by
          rw [hasked]
          simp [WindowCount.consume, hlt]
        have hno : ¬ (s.asked keyId rpm).consumed ≤ rpm := by
          rw [hsame]
          exact Nat.not_le_of_lt (Nat.lt_succ_of_le hfull)
        rw [if_neg hno, List.append_nil] at htimes
        refine Or.inl ⟨htimes ▸ hseen, s.asked keyId rpm, ?_, (Nat.lt_of_not_le hno).le, ?_⟩
        · rw [hsame]
          exact hover
        · rw [hwindow, hclock, hsame, WindowCount.running_some, if_pos hlt]
      · -- the first of the next
        have hnext : s.asked keyId rpm = ⟨1, s.clock + LIMITER_WINDOW_MS⟩ := by
          rw [hasked]
          simp [WindowCount.consume, hlt]
        rw [hnext, if_pos (show 1 ≤ rpm from hrpm)] at htimes
        refine Or.inr ⟨?_, ?_⟩
        · rw [hclock, ← hover]
          exact Nat.le_of_not_lt hlt
        · rw [htimes, List.length_append, hseen]
          exact Nat.lt_succ_self seen
    · refine Or.inr ⟨hclock ▸ hover, ?_⟩
      rw [htimes, List.length_append]
      exact Nat.lt_add_right _ hseen

/-- Until then every request is one too many. -/
theorem FullUntil.refuses {keyId : JsString} {rpm endsAt seen : ℕ} (h : s.FullUntil keyId rpm endsAt seen)
    (hlt : s.clock < endsAt) : rpm < (s.asked keyId rpm).consumed := by
  rcases h with ⟨-, w, rfl, hfull, hw⟩ | ⟨hover, -⟩
  · unfold asked WindowCount.consume
    rw [hw, WindowCount.running_running _ le_rfl, WindowCount.running_some, if_pos hlt]
    exact Nat.lt_succ_of_le hfull
  · exact absurd hover (Nat.not_le_of_lt hlt)

/-- The first request behind it opens a window. -/
theorem FullUntil.grants {keyId : JsString} {rpm endsAt seen : ℕ} (h : s.FullUntil keyId rpm endsAt seen)
    (hover : endsAt ≤ s.clock) (hseen : (s.times keyId rpm).length = seen) : (s.asked keyId rpm).consumed = 1 := by
  rcases h with ⟨-, w, rfl, -, hw⟩ | ⟨-, hmore⟩
  · unfold asked WindowCount.consume
    rw [hw, WindowCount.running_running _ le_rfl, WindowCount.running_some, if_neg (Nat.not_lt_of_le hover)]
  · exact absurd hseen (Nat.ne_of_gt hmore)

/-- **The announced wait is exact**: a request that the limiter refused is told the seconds up to the end `endsAt` of
the window; until then every request of the key under that limit is refused, and the first one behind it is not. -/
theorem retryAfter_exact (L : WindowLimiter ℕ) (c : KeyCrypto) (startOfToday nextMidnight : ℕ → ℕ) (apiKey : JsString)
    (keys : Option KeyStore) (ledger : Option UsageLedger) (now : ℕ) (as : List ApiAuthAction) (s : ApiAuth L)
    (h : exec (step startOfToday nextMidnight c) (boot apiKey keys ledger now) as = some s)
    (htidy : Every (step startOfToday nextMidnight c) (Tidy c) (boot apiKey keys ledger now : ApiAuth L) as)
    (req : AuthRequest) (key : ApiKeyRecord) (hkey : s.identify c req = .managed key) (hrpm : 0 < key.rpmLimit)
    (hswept : s.Tidy c (.arrive req)) (refusal : AuthRefusal)
    (hanswer : (s.arrive startOfToday nextMidnight c req).answers = s.answers ++ [(req, .refused refusal)]) :
    ∃ sec endsAt, refusal = quotaRejectFor req (rpmMessage key.rpmLimit sec) sec ∧
      endsAt ≤ s.clock + 1000 * sec ∧ s.clock + 1000 * sec < endsAt + 1000 ∧
      ∀ bs t, exec (step startOfToday nextMidnight c) (s.arrive startOfToday nextMidnight c req) bs = some t →
        Every (step startOfToday nextMidnight c) (Tidy c) (s.arrive startOfToday nextMidnight c req) bs →
        ∀ req' key', t.identify c req' = .managed key' → key'.id = key.id → key'.rpmLimit = key.rpmLimit →
          (t.clock < endsAt → ∃ refusal', refusal'.statusCode = 429 ∧
            (t.arrive startOfToday nextMidnight c req').answers = t.answers ++ [(req', .refused refusal')]) ∧
          (endsAt ≤ t.clock → t.times key.id key.rpmLimit = s.times key.id key.rpmLimit →
            (t.arrive startOfToday nextMidnight c req').granted =
              t.granted ++ [⟨key.id, key.rpmLimit, t.clock⟩]) := by
  have hs : s.Inv := exec_inv as _ s (boot_inv apiKey keys ledger now) htidy h
  obtain ⟨limiters, hasked, harrive⟩ :=
    arrive_managed startOfToday nextMidnight hs.labelled hkey hrpm
  -- the limiter was full
  have hno : ¬ (s.asked key.id key.rpmLimit).consumed ≤ key.rpmLimit := by
    intro hroom
    rw [harrive, if_pos hroom] at hanswer
    have hlength := congrArg List.length hanswer
    rw [List.length_append] at hlength
    exact absurd hlength (by simp)
  rw [if_neg hno] at harrive
  have hacts : Acts startOfToday nextMidnight c s (.arrive req) (s.arrive startOfToday nextMidnight c req) :=
    step_acts hs.labelled rfl
  have hinv : (s.arrive startOfToday nextMidnight c req).Inv := hs.acts hswept hacts
  have hlt : s.clock < (s.asked key.id key.rpmLimit).expiresAt := WindowCount.lt_consume (by decide) _ _
  have hfull : (s.arrive startOfToday nextMidnight c req).FullUntil key.id key.rpmLimit
      (s.asked key.id key.rpmLimit).expiresAt (s.times key.id key.rpmLimit).length := by
    rw [harrive]
    refine Or.inl ⟨rfl, _, rfl, (Nat.lt_of_not_le hno).le, ?_⟩
    refine hasked.self.trans ?_
    rw [WindowCount.running_some]
    exact (if_pos hlt).symm
  have hpos : 0 < ((s.asked key.id key.rpmLimit).res s.clock).msBeforeNext := by
    show (0 : ℤ) < (s.asked key.id key.rpmLimit).expiresAt - s.clock
    omega
  obtain ⟨hle, hgt⟩ := waitSec_spec hpos
  refine ⟨waitSec ((s.asked key.id key.rpmLimit).res s.clock).msBeforeNext, (s.asked key.id key.rpmLimit).expiresAt,
    ?_, ?_, ?_, ?_⟩
  · rw [harrive] at hanswer
    have hlast := (List.append_cancel_left hanswer).symm
    simpa using hlast
  · have hms : ((s.asked key.id key.rpmLimit).res s.clock).msBeforeNext =
      (s.asked key.id key.rpmLimit).expiresAt - s.clock := rfl
    omega
  · have hms : ((s.asked key.id key.rpmLimit).res s.clock).msBeforeNext =
      (s.asked key.id key.rpmLimit).expiresAt - s.clock := rfl
    omega
  · intro bs t ht htidy' req' key' hkey' hid hlimit
    have hrun : t.Inv ∧ t.FullUntil key.id key.rpmLimit (s.asked key.id key.rpmLimit).expiresAt
        (s.times key.id key.rpmLimit).length := by
      have hstep : ∀ (u : ApiAuth L) a u', u.Inv ∧ u.FullUntil key.id key.rpmLimit
          (s.asked key.id key.rpmLimit).expiresAt (s.times key.id key.rpmLimit).length → u.Tidy c a →
          u.step startOfToday nextMidnight c a = some u' → u'.Inv ∧ u'.FullUntil key.id key.rpmLimit
            (s.asked key.id key.rpmLimit).expiresAt (s.times key.id key.rpmLimit).length := by
        rintro u a u' ⟨hu, hufull⟩ htidy hstep
        have hacts := step_acts hu.labelled hstep
        exact ⟨hu.acts htidy hacts, hufull.acts hu hrpm htidy hacts⟩
      exact exec_invariant hstep bs _ t ⟨hinv, hfull⟩ htidy' ht
    obtain ⟨htinv, htfull⟩ := hrun
    obtain ⟨limiters', hasked', harrive'⟩ := arrive_managed startOfToday nextMidnight
      htinv.labelled hkey' (hlimit ▸ hrpm)
    rw [hid, hlimit] at harrive'
    constructor
    · intro hbefore
      rw [harrive', if_neg (Nat.not_le_of_lt (htfull.refuses hbefore))]
      refine ⟨_, ?_, rfl⟩
      unfold quotaRejectFor
      split <;> rfl
    · intro hover htimes
      have hone : (t.asked key.id key.rpmLimit).consumed ≤ key.rpmLimit :=
        htfull.grants hover (congrArg List.length htimes) ▸ hrpm
      rw [harrive', if_pos hone]

/-- The limit is used up at 0; 30.5 seconds later a request is told to come back in 30, and at 60 it may. -/
theorem retryAfter_exact_full : ∃ s t : ApiAuth (.memory ℕ), ∃ sec endsAt,
    exec (step id id plainCrypto) (boot [] (some twoPerMinute) none 0)
      [.arrive itsRequest, .arrive itsRequest, .tick 30500] = some s ∧
    exec (step id id plainCrypto) (s.arrive id id plainCrypto itsRequest) [.tick 60000] = some t ∧
    endsAt ≤ s.clock + 1000 * sec ∧ s.clock + 1000 * sec < endsAt + 1000 ∧
    (endsAt ≤ t.clock → (t.arrive id id plainCrypto itsRequest).granted = t.granted ++ [⟨js "key_1", 2, t.clock⟩]) := by
  let key : ApiKeyRecord := ⟨js "key_1", js "ci", js "p", 0, none, 0, 2, none, none⟩
  obtain ⟨s, hs, hfacts⟩ := Option.map_eq_some_iff.mp
    (show (exec (step id id plainCrypto) (boot [] (some twoPerMinute) none 0 : ApiAuth (.memory ℕ))
      [.arrive itsRequest, .arrive itsRequest, .tick 30500]).map (fun s =>
        decide (s.identify plainCrypto itsRequest = .managed key ∧ s.Tidy plainCrypto (.arrive itsRequest) ∧
          (s.arrive id id plainCrypto itsRequest).answers =
            s.answers ++ [(itsRequest, .refused (quotaRejectFor itsRequest (rpmMessage 2 30) 30))] ∧
          ((exec (step id id plainCrypto) (s.arrive id id plainCrypto itsRequest) [.tick 60000]).map fun t =>
            decide (t.identify plainCrypto itsRequest = .managed key ∧
              t.times (js "key_1") 2 = s.times (js "key_1") 2)) = some true)) = some true by decide +kernel)
  obtain ⟨hkey, htidy, hanswer, hlater⟩ := of_decide_eq_true hfacts
  obtain ⟨t, ht, hfacts'⟩ := Option.map_eq_some_iff.mp hlater
  obtain ⟨hkey', htimes⟩ := of_decide_eq_true hfacts'
  have htidy' : Every (step id id plainCrypto) (Tidy plainCrypto) (s.arrive id id plainCrypto itsRequest)
      [.tick 60000] := ⟨fun _ hk => absurd hk (Option.not_mem_none _), fun _ _ => trivial⟩
  obtain ⟨sec, endsAt, -, hle, hlt, hrest⟩ := retryAfter_exact (.memory ℕ) plainCrypto id id [] (some twoPerMinute) none
    0 _ s hs (by decide +kernel) itsRequest key hkey (by decide) htidy _ hanswer
  exact ⟨s, t, sec, endsAt, hs, ht, hle, hlt,
    fun hover => (hrest _ t ht htidy' itsRequest key hkey' rfl rfl).2 hover htimes⟩

/-! ### The sweep -/

/-- The hook with other entries in `limiters`. -/
def withLimiters (s : ApiAuth L) (limiters : JsString → Option (KeyLimiter L)) : ApiAuth L :=
  { s with limiters, sweeping := [] }

theorem admit_withLimiters (s : ApiAuth L) (limiters : JsString → Option (KeyLimiter L)) (p : PendingAuth) :
    (s.withLimiters limiters).proceed startOfToday nextMidnight p =
      (s.proceed startOfToday nextMidnight p).withLimiters limiters := by
  have hbudget : (s.withLimiters limiters).overBudget startOfToday p.key =
      ((s.overBudget startOfToday p.key).1, (s.overBudget startOfToday p.key).2.withLimiters limiters) := by
    unfold overBudget withLimiters
    dsimp only
    split
    · split
      · rfl
      · rfl
    · rfl
  unfold proceed
  rw [hbudget]
  rcases s.overBudget startOfToday p.key with ⟨_ | used, u⟩
  · rfl
  · rfl

/-- A hook that never sweeps and runs beside this one. -/
structure Shadow (s t : ApiAuth L) : Prop where
  inv : s.Inv
  eq : t = s.withLimiters t.limiters
  labelled : Labelled t.limiters
  windows : ∀ k, windowIn t.limiters k s.clock = windowIn s.limiters k s.clock

theorem Shadow.clock (h : Shadow s t) : t.clock = s.clock := by
  rw [h.eq]
  rfl

theorem Shadow.window_eq (h : Shadow s t) (keyId : JsString) (rpm : ℕ) : t.window keyId rpm = s.window keyId rpm := by
  unfold window
  rw [h.clock]
  exact h.windows _

theorem Shadow.asked_eq (h : Shadow s t) (keyId : JsString) (rpm : ℕ) : t.asked keyId rpm = s.asked keyId rpm := by
  unfold asked
  rw [h.window_eq, h.clock]

theorem Shadow.identify_eq (h : Shadow s t) (req : AuthRequest) : t.identify c req = s.identify c req := by
  rw [h.eq]
  rfl

/-- The hook behind the limiters is the same. -/
theorem Shadow.follow (h : Shadow s t) (hs' : s'.Inv) (hlimiters : s'.limiters = s.limiters)
    (hle : s.clock ≤ s'.clock) : Shadow s' (s'.withLimiters t.limiters) := by
  refine ⟨hs', rfl, h.labelled, fun k => ?_⟩
  show windowIn t.limiters k s'.clock = windowIn s'.limiters k s'.clock
  rw [hlimiters, windowIn_later _ k hle, windowIn_later s.limiters k hle, h.windows]

/-- **A request** finds the same window. -/
theorem Shadow.arrive (h : Shadow s t) (req : AuthRequest) (hs' : (s.arrive startOfToday nextMidnight c req).Inv) :
    Shadow (s.arrive startOfToday nextMidnight c req) (t.arrive startOfToday nextMidnight c req) := by
  have hclock : t.clock = s.clock := h.clock
  cases hkey : s.identify c req with
  | settled outcome =>
    have heq : ∀ u : ApiAuth L, u.identify c req = .settled outcome →
        u.arrive startOfToday nextMidnight c req = u.answer req outcome := by
      intro u hu
      unfold ApiAuth.arrive
      rw [hu]
    rw [heq s hkey] at hs' ⊢
    rw [heq t (h.identify_eq req ▸ hkey)]
    have hfollow := h.follow hs' rfl le_rfl
    rw [show t.answer req outcome = (s.answer req outcome).withLimiters t.limiters from by
      conv_lhs => rw [h.eq]
      rfl]
    exact hfollow
  | managed key =>
    have hkey' : t.identify c req = .managed key := h.identify_eq req ▸ hkey
    by_cases hrpm : 0 < key.rpmLimit
    · obtain ⟨limiters, hasked, heq⟩ := arrive_managed startOfToday nextMidnight h.inv.labelled hkey hrpm
      obtain ⟨limiters', hasked', heq'⟩ := arrive_managed startOfToday nextMidnight h.labelled hkey' hrpm
      have hwindows : ∀ k, windowIn limiters' k s.clock = windowIn limiters k s.clock := by
        intro k
        by_cases hk : k = limiterKey key.id key.rpmLimit
        · have hself := hasked'.self
          rw [hclock, h.asked_eq] at hself
          rw [hk, hself, hasked.self]
        · have hold := h.windows k
          unfold windowIn at hold ⊢
          rw [hasked'.others k hk, hasked.others k hk]
          exact hold
      rw [heq] at hs' ⊢
      rw [heq', h.asked_eq, hclock]
      split at hs'
      · next hroom =>
        rw [if_pos hroom, if_pos hroom]
        refine ⟨hs', ?_, hasked'.labelled, hwindows⟩
        conv_lhs => rw [h.eq]
        rfl
      · next hfull =>
        rw [if_neg hfull, if_neg hfull]
        refine ⟨hs', ?_, hasked'.labelled, hwindows⟩
        conv_lhs => rw [h.eq]
        rfl
    · have heq : ∀ u : ApiAuth L, u.identify c req = .managed key →
          u.arrive startOfToday nextMidnight c req = u.proceed startOfToday nextMidnight ⟨req, key, u.clock⟩ := by
        intro u hu
        unfold ApiAuth.arrive
        rw [hu]
        exact if_neg hrpm
      rw [heq s hkey] at hs' ⊢
      rw [heq t hkey', hclock]
      obtain ⟨hsame, -⟩ :=
        proceed_cases startOfToday nextMidnight s ⟨req, key, s.clock⟩
      have hfollow := h.follow hs' hsame.limiters hsame.clock.ge
      conv_rhs => rw [h.eq]
      rw [admit_withLimiters]
      exact hfollow

/-- **One step**: the other hook takes it too, unless it is the sweep's. -/
theorem Shadow.step (h : Shadow s t) (htidy : s.Tidy c a) (hstep : s.step startOfToday nextMidnight c a = some s') :
    Follows (ApiAuth.step startOfToday nextMidnight c) Shadow s' t a.unswept := by
  have hs' : s'.Inv := h.inv.acts htidy (step_acts h.inv.labelled hstep)
  cases a with
  | tick now =>
    simp only [ApiAuth.step, Option.ite_none_right_eq_some, Option.some.injEq] at hstep
    obtain ⟨hle, rfl⟩ := hstep
    refine ⟨{ t with clock := now }, if_pos (h.clock ▸ hle), ?_⟩
    have hfollow := h.follow hs' rfl hle
    conv_rhs => rw [h.eq]
    exact hfollow
  | keys a =>
    obtain ⟨keys, hkeys, rfl⟩ := Option.map_eq_some_iff.mp hstep
    have hfollow := h.follow hs' rfl le_rfl
    refine ⟨_, Option.map_eq_some_iff.mpr ⟨keys, ?_, rfl⟩, ?_⟩
    · rw [h.eq]
      exact hkeys
    · conv_rhs => rw [h.eq]
      exact hfollow
  | ledger a =>
    obtain ⟨ledger, hledger, rfl⟩ := Option.map_eq_some_iff.mp hstep
    have hfollow := h.follow hs' rfl le_rfl
    refine ⟨_, Option.map_eq_some_iff.mpr ⟨ledger, ?_, rfl⟩, ?_⟩
    · rw [h.eq]
      exact hledger
    · conv_rhs => rw [h.eq]
      exact hfollow
  | arrive req =>
    obtain rfl := Option.some.inj hstep
    exact ⟨_, rfl, h.arrive req hs'⟩
  | resume i =>
    obtain ⟨p, hp, rfl⟩ := Option.map_eq_some_iff.mp hstep
    obtain ⟨hsame, -⟩ := proceed_cases startOfToday nextMidnight { s with waiting := s.waiting.eraseIdx i } p
    have hfollow := h.follow hs' hsame.limiters hsame.clock.ge
    have hp' : t.waiting[i]? = some p := by
      rw [h.eq]
      exact hp
    refine ⟨_, Option.map_eq_some_iff.mpr ⟨p, hp', rfl⟩, ?_⟩
    have heq : ({ t with waiting := t.waiting.eraseIdx i } : ApiAuth L) =
        ({ s with waiting := s.waiting.eraseIdx i } : ApiAuth L).withLimiters t.limiters := by
      conv_lhs => rw [h.eq]
      rfl
    rw [heq, admit_withLimiters]
    exact hfollow
  | sweepGet cacheKey =>
    obtain ⟨limiter, hlimiter, rfl⟩ := Option.map_eq_some_iff.mp hstep
    split at hs'
    · exact h
    · exact ⟨hs', h.eq, h.labelled, h.windows⟩
  | sweepDrop cacheKey =>
    simp only [ApiAuth.step, Option.ite_none_right_eq_some, Option.some.injEq] at hstep
    obtain ⟨hmem, rfl⟩ := hstep
    refine ⟨hs', h.eq, h.labelled, fun k => ?_⟩
    rw [h.windows]
    unfold windowIn
    dsimp only
    by_cases hk : k = cacheKey
    · rw [hk, Function.update_self]
      exact h.inv.swept cacheKey hmem
    · rw [Function.update_of_ne hk]

/-- **The sweep of idle limiters changes nothing**: without it the run comes to the same answers, and to the same store,
ledger and requests under way. -/
theorem sweep_unseen (L : WindowLimiter ℕ) (c : KeyCrypto) (startOfToday nextMidnight : ℕ → ℕ) (apiKey : JsString)
    (keys : Option KeyStore) (ledger : Option UsageLedger) (now : ℕ) (as : List ApiAuthAction) (s : ApiAuth L)
    (h : exec (step startOfToday nextMidnight c) (boot apiKey keys ledger now) as = some s)
    (htidy : Every (step startOfToday nextMidnight c) (Tidy c) (boot apiKey keys ledger now : ApiAuth L) as) :
    ∃ limiters, exec (step startOfToday nextMidnight c) (boot apiKey keys ledger now)
      (as.filter fun a => !a.isSweep) = some (s.withLimiters limiters) := by
  have hboot : Shadow (boot apiKey keys ledger now : ApiAuth L) (boot apiKey keys ledger now) :=
    ⟨boot_inv apiKey keys ledger now, rfl, (boot_inv apiKey keys ledger now).labelled, fun _ => rfl⟩
  obtain ⟨t, ht, hshadow⟩ := exec_simulation (fun _ _ _ _ hR htidy hstep => hR.step htidy hstep) as _ s _ hboot htidy h
  have hview : as.filterMap ApiAuthAction.unswept = as.filter fun a => !a.isSweep := by
    rw [← List.filterMap_eq_filter]
    refine List.filterMap_congr fun a _ => ?_
    cases a <;> rfl
  rw [hview] at ht
  exact ⟨t.limiters, ht.trans (congrArg some hshadow.eq)⟩

/-- A limiter is dropped when its window is over, and made again. -/
theorem sweep_unseen_idle : ∃ s : ApiAuth (.memory ℕ), ∃ limiters,
    exec (step id id plainCrypto) (boot [] (some twoPerMinute) none 0)
      [.arrive itsRequest, .tick 60000, .sweepGet (limiterKey (js "key_1") 2), .sweepDrop (limiterKey (js "key_1") 2),
        .arrive itsRequest] = some s ∧
    exec (step id id plainCrypto) (boot [] (some twoPerMinute) none 0)
      [.arrive itsRequest, .tick 60000, .arrive itsRequest] = some (s.withLimiters limiters) := by
  have hrun : (exec (step id id plainCrypto) (boot [] (some twoPerMinute) none 0 : ApiAuth (.memory ℕ))
      [.arrive itsRequest, .tick 60000, .sweepGet (limiterKey (js "key_1") 2), .sweepDrop (limiterKey (js "key_1") 2),
        .arrive itsRequest]).isSome = true := by decide +kernel
  obtain ⟨s, hs⟩ := Option.isSome_iff_exists.mp hrun
  obtain ⟨limiters, hlimiters⟩ :=
    sweep_unseen (.memory ℕ) plainCrypto id id [] (some twoPerMinute) none 0 _ s hs (by decide +kernel)
  exact ⟨s, limiters, hs, hlimiters⟩

end ApiAuth

end AgyProxy
