import AgyProxy.Lib.Machine
import AgyProxy.Lib.Window
import Mathlib.Data.Rat.Floor
import Mathlib.Tactic.Linarith

/-!
# AgyProxy.Host.RateLimit — the sliding-window throttle of `stream` (`src/host/engine.ts`)

Any number of calls over the engine's one list of timestamps.  A call prunes the list, sleeps at most once, and
records its dispatch.

* `RateLimiter.step`: arrivals, ends of sleeps and aborts in any order, under a clock that never goes back.  The
  limit is any positive number the settings take, whole or not.
* `Rechecks`: a call that did not find a whole place in the window has one when it records.
* `rate_limited_iff`: no 60-second window has more than `n` dispatches exactly when every step rechecks.
-/

namespace AgyProxy

open Lib

def WINDOW_MS : ℕ := 60000

inductive ThrottledCall
  | sleeping (wakeAt : ℕ)
  /-- the dispatch is recorded -/
  | through
  /-- aborted before dispatch -/
  | failed
deriving DecidableEq

structure RateLimiter where
  /-- the clock, as far as it was read -/
  time : ℕ
  requestTimestamps : List ℕ
  calls : List ThrottledCall
  /-- history: every timestamp pushed -/
  records : List ℕ

inductive RateAction
  /-- a call comes; the clock at its pruning, and at its push if it does not sleep -/
  | arrive (now pushAt : ℕ) (aborted : Bool)
  /-- the sleep of call `i` is over -/
  | wake (i at_ : ℕ)
  /-- the signal of call `i` aborts its sleep -/
  | abort (i : ℕ)

/-- Timestamps before the window are shifted out. -/
def pruneWindow (now : ℕ) (timestamps : List ℕ) : List ℕ :=
  timestamps.dropWhile fun t => decide (t + WINDOW_MS < now)

/-- When a call may go on that finds the window full; `none` when it need not sleep. -/
def wakeTime (n : ℚ) (now : ℕ) (timestamps : List ℕ) : Option ℕ :=
  if n ≤ timestamps.length then
    timestamps.head?.bind fun oldest => if now < oldest + WINDOW_MS then some (oldest + WINDOW_MS) else none
  else none

namespace RateLimiter

def init : RateLimiter := ⟨0, [], [], []⟩

/-- `this.requestTimestamps.push(Date.now())`. -/
def push (s : RateLimiter) (t : ℕ) : RateLimiter :=
  { s with time := t, requestTimestamps := s.requestTimestamps ++ [t], records := s.records ++ [t] }

/-- One action under `rateLimitPerMinute = n`; `none` when it is not enabled. -/
def step (n : ℚ) (s : RateLimiter) : RateAction → Option RateLimiter
  | .arrive now pushAt aborted =>
    if now < s.time ∨ pushAt < now then none
    else
      let s := { s with time := now, requestTimestamps := pruneWindow now s.requestTimestamps }
      if aborted then some { s with calls := s.calls ++ [.failed] }
      else
        match wakeTime n now s.requestTimestamps with
        | some wakeAt => some { s with calls := s.calls ++ [.sleeping wakeAt] }
        | none => some (push { s with calls := s.calls ++ [.through] } pushAt)
  | .wake i t =>
    match s.calls[i]? with
    | some (.sleeping wakeAt) =>
      if t < wakeAt ∨ t < s.time then none else some (push { s with calls := s.calls.set i .through } t)
    | _ => none
  | .abort i =>
    match s.calls[i]? with
    | some (.sleeping _) => some { s with calls := s.calls.set i .failed }
    | _ => none

/-- No 60-second window has more than `n` recorded dispatches. -/
def WithinLimit (n : ℚ) (s : RateLimiter) : Prop := ∀ t, ((inWindow WINDOW_MS t s.records).length : ℚ) ≤ n

/-- One more dispatch at `t` leaves at most `n` in the last 60 seconds. -/
def HasRoom (n : ℚ) (t : ℕ) (times : List ℕ) : Prop := ((recent WINDOW_MS t times).length : ℚ) + 1 ≤ n

instance HasRoom.decidable (n : ℚ) (t : ℕ) (times : List ℕ) : Decidable (HasRoom n t times) :=
  inferInstanceAs (Decidable (_ ≤ n))

/-- A call that did not find a whole place left in the window, and records, has one when it does: what the code
checks before the sleep only, and with `n ≤ length` in place of `n < length + 1`. -/
def Rechecks (n : ℚ) (s : RateLimiter) : RateAction → Prop
  | .arrive now pushAt aborted =>
    aborted = false → n < (pruneWindow now s.requestTimestamps).length + 1 →
      wakeTime n now (pruneWindow now s.requestTimestamps) = none → HasRoom n pushAt s.requestTimestamps
  | .wake _ t => HasRoom n t s.requestTimestamps
  | .abort _ => True

instance Rechecks.decidable (n : ℚ) : ∀ (s : RateLimiter) (a : RateAction), Decidable (s.Rechecks n a)
  | s, .arrive now pushAt aborted =>
    inferInstanceAs (Decidable (aborted = false → n < (pruneWindow now s.requestTimestamps).length + 1 →
      wakeTime n now (pruneWindow now s.requestTimestamps) = none → HasRoom n pushAt s.requestTimestamps))
  | s, .wake _ t => inferInstanceAs (Decidable (HasRoom n t s.requestTimestamps))
  | _, .abort _ => inferInstanceAs (Decidable True)

/-! ### What is pruned is no longer recent -/

/-- The list says how many of the dispatches are recent. -/
structure Sound (s : RateLimiter) : Prop where
  past : ∀ t ∈ s.records, t ≤ s.time
  counted : ∀ now, s.time ≤ now →
    (recent WINDOW_MS now s.requestTimestamps).length = (recent WINDOW_MS now s.records).length

theorem recent_prune {now later : ℕ} (h : now ≤ later) : ∀ timestamps : List ℕ,
    recent WINDOW_MS later (pruneWindow now timestamps) = recent WINDOW_MS later timestamps
  | [] => rfl
  | t :: rest => by
    have hrest := recent_prune h rest
    unfold recent pruneWindow at hrest ⊢
    rw [List.dropWhile_cons]
    by_cases hold : t + WINDOW_MS < now
    · have hstale : ¬later < t + WINDOW_MS := by omega
      rw [if_pos (decide_eq_true hold), hrest, List.filter_cons, if_neg (by simpa using hstale)]
    · rw [if_neg (by simpa using hold)]

theorem recent_length_le (now : ℕ) (times : List ℕ) : (recent WINDOW_MS now times).length ≤ times.length :=
  List.length_filter_le _ times

variable {n : ℚ} {s s' : RateLimiter}

/-- Pruning, and the calls, do not matter to the count. -/
theorem Sound.prune (h : s.Sound) {now : ℕ} (hnow : s.time ≤ now) (calls : List ThrottledCall) :
    Sound ⟨now, pruneWindow now s.requestTimestamps, calls, s.records⟩ := by
  refine ⟨fun t ht => (h.past t ht).trans hnow, fun later hlater => ?_⟩
  show (recent WINDOW_MS later (pruneWindow now s.requestTimestamps)).length = _
  rw [recent_prune hlater]
  exact h.counted later (hnow.trans hlater)

theorem Sound.push (h : s.Sound) {t : ℕ} (ht : s.time ≤ t) : (s.push t).Sound := by
  refine ⟨fun x hx => ?_, fun now hnow => ?_⟩
  · rcases List.mem_append.mp hx with hx | hx
    · exact (h.past x hx).trans ht
    · exact le_of_eq (List.mem_singleton.mp hx)
  · have hcount := h.counted now (ht.trans hnow)
    unfold recent at hcount
    unfold recent RateLimiter.push
    rw [List.filter_append, List.filter_append, List.length_append, List.length_append, hcount]

theorem Sound.hasRoom_iff (h : s.Sound) {t : ℕ} (ht : s.time ≤ t) :
    HasRoom n t s.requestTimestamps ↔ HasRoom n t s.records := by
  unfold HasRoom
  rw [h.counted t ht]

/-- **What one action can do**: nothing is recorded, or a dispatch is, with room among the recent ones exactly
when the step rechecks. -/
theorem step_cases (h : s.Sound) {a : RateAction} (hstep : s.step n a = some s') : s'.Sound ∧
    (s'.records = s.records ∧ s.Rechecks n a ∨ ∃ t, s.time ≤ t ∧ s'.records = s.records ++ [t] ∧
      (s.Rechecks n a ↔ HasRoom n t s.records)) := by
  cases a with
  | arrive now pushAt aborted =>
    unfold RateLimiter.step at hstep
    dsimp only at hstep
    split_ifs at hstep with hclock habort
    · obtain rfl := Option.some.inj hstep
      obtain ⟨hnow, -⟩ : s.time ≤ now ∧ now ≤ pushAt := by omega
      exact ⟨h.prune hnow _, Or.inl ⟨rfl, fun hrun => absurd (habort.symm.trans hrun) (by simp)⟩⟩
    · obtain ⟨hnow, hpush⟩ : s.time ≤ now ∧ now ≤ pushAt := by omega
      have hrun : aborted = false := by simpa using habort
      cases hwake : wakeTime n now (pruneWindow now s.requestTimestamps) with
      | some wakeAt =>
        rw [hwake] at hstep
        obtain rfl := Option.some.inj hstep
        refine ⟨h.prune hnow _, Or.inl ⟨rfl, fun _ _ hnone => ?_⟩⟩
        rw [hwake] at hnone
        simp at hnone
      | none =>
        rw [hwake] at hstep
        obtain rfl := Option.some.inj hstep
        refine ⟨(h.prune hnow _).push hpush, Or.inr ⟨pushAt, hnow.trans hpush, rfl, ?_⟩⟩
        rw [← h.hasRoom_iff (hnow.trans hpush)]
        refine ⟨fun hok => ?_, fun hroom _ _ _ => hroom⟩
        by_cases hfull : n < (pruneWindow now s.requestTimestamps).length + 1
        · exact hok hrun hfull hwake
        · -- with a whole place left there is room anyway
          have hkept := recent_length_le pushAt (pruneWindow now s.requestTimestamps)
          rw [recent_prune hpush] at hkept
          have hkept' : ((recent WINDOW_MS pushAt s.requestTimestamps).length : ℚ) ≤
            (pruneWindow now s.requestTimestamps).length := by exact_mod_cast hkept
          unfold HasRoom
          linarith only [hkept', not_lt.mp hfull]
  | wake i t =>
    unfold RateLimiter.step at hstep
    dsimp only at hstep
    split at hstep
    next wakeAt hcall =>
      split_ifs at hstep with hclock
      obtain rfl := Option.some.inj hstep
      have ht : s.time ≤ t := by omega
      have hset : Sound { s with calls := s.calls.set i .through } := ⟨h.past, h.counted⟩
      refine ⟨hset.push ht, Or.inr ⟨t, ht, rfl, ?_⟩⟩
      exact h.hasRoom_iff ht
    next => simp at hstep
  | abort i =>
    unfold RateLimiter.step at hstep
    dsimp only at hstep
    split at hstep
    next wakeAt hcall =>
      obtain rfl := Option.some.inj hstep
      exact ⟨⟨h.past, h.counted⟩, Or.inl ⟨rfl, trivial⟩⟩
    next => simp at hstep

/-! ### The runs -/

/-- A limit that is not whole bounds the windows by its whole part. -/
theorem withinLimit_iff (hn : 0 < n) : s.WithinLimit n ↔ Bounded WINDOW_MS ⌊n⌋₊ s.records :=
  forall_congr' fun _ => (Nat.le_floor_iff hn.le).symm

theorem hasRoom_iff (hn : 0 < n) {t : ℕ} {times : List ℕ} :
    HasRoom n t times ↔ (recent WINDOW_MS t times).length < ⌊n⌋₊ := by
  unfold HasRoom
  rw [← Nat.succ_le_iff, Nat.le_floor_iff hn.le, Nat.cast_succ]

theorem init_sound : init.Sound := ⟨fun _ ht => absurd ht List.not_mem_nil, fun _ _ => rfl⟩

/-- One step while no window has overflown: the windows stay within the limit exactly when it rechecks. -/
theorem withinLimit_step (hn : 0 < n) (hsound : s.Sound) (hwithin : s.WithinLimit n) {a : RateAction}
    (hstep : s.step n a = some s') : s'.Sound ∧ (s'.WithinLimit n ↔ s.Rechecks n a) := by
  obtain ⟨hsound', ⟨hsame, hok⟩ | ⟨t, ht, hrecords, hiff⟩⟩ := step_cases hsound hstep
  · rw [withinLimit_iff hn, hsame]
    exact ⟨hsound', fun _ => hok, fun _ => (withinLimit_iff hn).mp hwithin⟩
  · have hlast : ∀ x ∈ s.records, x ≤ t := fun x hx => (hsound.past x hx).trans ht
    rw [withinLimit_iff hn, hrecords, bounded_concat_iff (by decide) hlast, hiff, hasRoom_iff hn]
    exact ⟨hsound', and_iff_right ((withinLimit_iff hn).mp hwithin)⟩

/-- A window that has overflown stays so. -/
theorem overflown_step (hn : 0 < n) (hsound : s.Sound) (hbroken : ¬s.WithinLimit n) {a : RateAction}
    (hstep : s.step n a = some s') : s'.Sound ∧ ¬s'.WithinLimit n := by
  rw [withinLimit_iff hn] at hbroken ⊢
  obtain ⟨hsound', ⟨hsame, -⟩ | ⟨t, -, hrecords, -⟩⟩ := step_cases hsound hstep
  · exact ⟨hsound', hsame ▸ hbroken⟩
  · refine ⟨hsound', fun hb => hbroken ?_⟩
    rw [hrecords] at hb
    exact hb.of_append

/-- **The throttle holds exactly when it rechecks**: after any run of any number of calls under any limit `n > 0`,
no 60-second window has more than `n` recorded dispatches if and only if every call that did not find a whole
place left in the window had one when it recorded. -/
theorem rate_limited_iff (hn : 0 < n) {as : List RateAction} (h : exec (step n) init as = some s) :
    s.WithinLimit n ↔ Every (step n) (Rechecks n) init as := by
  have hlive : ∀ (s : RateLimiter) a s', s.Sound ∧ s.WithinLimit n → s.step n a = some s' →
      s.Rechecks n a ∧ ((s'.Sound ∧ s'.WithinLimit n) ∨ False) ∨ ¬s.Rechecks n a ∧ s'.Sound ∧ ¬s'.WithinLimit n := by
    rintro s a s' ⟨hsound, hwithin⟩ hstep
    obtain ⟨hsound', hiff⟩ := withinLimit_step hn hsound hwithin hstep
    by_cases hok : s.Rechecks n a
    · exact Or.inl ⟨hok, Or.inl ⟨hsound', hiff.mpr hok⟩⟩
    · exact Or.inr ⟨hok, hsound', fun hb => hok (hiff.mp hb)⟩
  have hspoilt : ∀ (s : RateLimiter) a s', s.Sound ∧ ¬s.WithinLimit n → s.step n a = some s' →
      s'.Sound ∧ ¬s'.WithinLimit n := fun s a s' hs hstep => overflown_step hn hs.1 hs.2 hstep
  have hinit : init.Sound ∧ init.WithinLimit n :=
    ⟨init_sound, (withinLimit_iff hn).mpr fun t => Nat.zero_le ⌊n⌋₊⟩
  have hends := exec_dichotomy hlive (fun _ _ _ hfalse _ => absurd hfalse not_false) hspoilt as init s
    (Or.inl hinit) h
  rcases hends with ⟨hall, ⟨-, hwithin⟩ | hfalse⟩ | ⟨hcareless, -, hbroken⟩
  · exact ⟨fun _ => hall, fun _ => hwithin⟩
  · exact absurd hfalse not_false
  · exact ⟨fun hwithin => absurd hwithin hbroken, fun hall => absurd hall hcareless⟩

/-- Two calls under `rateLimitPerMinute = 1`; the second sleeps until the first is a minute old. -/
def twoCalls : List RateAction := [.arrive 0 0 false, .arrive 1 1 false, .wake 1 60000]

/-- Three calls under `rateLimitPerMinute = 2.5`; the third does not find the window full, and the first is a
minute old when it records. -/
def threeCalls : List RateAction := [.arrive 0 0 false, .arrive 1 1 false, .arrive 60000 60000 false]

theorem rate_limited_two : (∃ s, exec (step 1) init twoCalls = some s ∧ s.records = [0, 60000] ∧ s.WithinLimit 1) ∧
    ∃ s, exec (step 2.5) init threeCalls = some s ∧ s.records = [0, 1, 60000] ∧ s.WithinLimit 2.5 := by
  constructor
  · have hrun : (exec (step 1) init twoCalls).map RateLimiter.records = some [0, 60000] := by decide +kernel
    obtain ⟨s, hs, hrecords⟩ := Option.map_eq_some_iff.mp hrun
    have hwithin : s.WithinLimit 1 := (rate_limited_iff (by decide) hs).mpr (by decide +kernel)
    exact ⟨s, hs, hrecords, hwithin⟩
  · have hrun : (exec (step 2.5) init threeCalls).map RateLimiter.records = some [0, 1, 60000] := by decide +kernel
    obtain ⟨s, hs, hrecords⟩ := Option.map_eq_some_iff.mp hrun
    have hwithin : s.WithinLimit 2.5 := (rate_limited_iff (by norm_num) hs).mpr (by decide +kernel)
    exact ⟨s, hs, hrecords, hwithin⟩

/-- Two more calls sleep until the same expiry, and both record. -/
def waitingTogether : List RateAction :=
  [.arrive 0 0 false, .arrive 1 1 false, .arrive 1 1 false, .wake 1 60000, .wake 2 60000]

/-- Two waiters of one expiry overrun a whole limit; two quick calls overrun a limit of one and a half. -/
theorem not_rate_limited_together : (∃ s, exec (step 1) init waitingTogether = some s ∧ ¬s.WithinLimit 1) ∧
    ∃ s, exec (step 1.5) init [.arrive 0 0 false, .arrive 1 1 false] = some s ∧ ¬s.WithinLimit 1.5 := by
  have htogether : (exec (step 1) init waitingTogether).map RateLimiter.records = some [0, 60000, 60000] := by
    decide +kernel
  have hquick : (exec (step 1.5) init [.arrive 0 0 false, .arrive 1 1 false]).map RateLimiter.records =
    some [0, 1] := by decide +kernel
  obtain ⟨s, hs, hrecords⟩ := Option.map_eq_some_iff.mp htogether
  obtain ⟨t, ht, hrecords'⟩ := Option.map_eq_some_iff.mp hquick
  refine ⟨⟨s, hs, fun hwithin => ?_⟩, t, ht, fun hwithin => ?_⟩
  · have hfull := hwithin 60000
    rw [hrecords] at hfull
    exact absurd hfull (by decide +kernel)
  · have hfull := hwithin 0
    rw [hrecords'] at hfull
    exact absurd hfull (by decide +kernel)

end RateLimiter

end AgyProxy
