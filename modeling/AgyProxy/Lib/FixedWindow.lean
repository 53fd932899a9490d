import AgyProxy.Lib.Window
import Mathlib.Algebra.Order.Floor.Ring
import Mathlib.Data.Rat.Floor
import Mathlib.Tactic.Linarith
import Mathlib.Tactic.Positivity

/-!
# AgyProxy.Lib.FixedWindow — limiters that count in fixed windows

The window of a key opens with the first point it consumes and closes `duration` instants later, whatever is
consumed meanwhile; points past the limit are counted all the same and refused.

* `WindowLimiter`: a store of such windows, by what its calls promise; `WindowLimiter.memory`: one that keeps the
  promise.
* `Metered`: the instants at which a key got its points, beside its last window; `MeteredBy.consume`: one more point.
* `MeteredBy.bounded`: **any stretch as long as a window** has at most twice the limit less one of them.
-/

namespace AgyProxy.Lib

/-- The points consumed in a window, and its end. -/
structure WindowCount where
  consumed : ℕ
  expiresAt : ℕ
deriving DecidableEq

/-- What the calls of a limiter answer. -/
structure RateLimiterRes where
  consumedPoints : ℕ
  msBeforeNext : ℤ
deriving DecidableEq

namespace WindowCount

/-- The window, unless it is over. -/
def running (w : Option WindowCount) (now : ℕ) : Option WindowCount :=
  w.filter fun w => decide (now < w.expiresAt)

/-- The window after one more point. -/
def consume (duration : ℕ) (w : Option WindowCount) (now : ℕ) : WindowCount :=
  match running w now with
  | none => ⟨1, now + duration⟩
  | some w => ⟨w.consumed + 1, w.expiresAt⟩

/-- What a limiter answers once the window is as full as this. -/
def res (w : WindowCount) (now : ℕ) : RateLimiterRes := ⟨w.consumed, w.expiresAt - now⟩

/-- A point past the limit is refused. -/
def verdict (points : ℕ) (w : WindowCount) (now : ℕ) : Except RateLimiterRes RateLimiterRes :=
  if w.consumed ≤ points then .ok (w.res now) else .error (w.res now)

@[simp] theorem running_none (now : ℕ) : running none now = none := rfl

@[simp] theorem running_some (w : WindowCount) (now : ℕ) :
    running (some w) now = if now < w.expiresAt then some w else none := by
  simp [running, Option.filter]

/-- What is over stays over. -/
theorem running_running (w : Option WindowCount) {t now : ℕ} (hle : t ≤ now) :
    running (running w t) now = running w now := by
  cases w with
  | none => rfl
  | some w =>
    by_cases h : t < w.expiresAt
    · simp [h]
    · have hnow : ¬ now < w.expiresAt := by omega
      simp [h, hnow]

theorem lt_of_running {w : Option WindowCount} {x : WindowCount} {now : ℕ} (h : running w now = some x) :
    now < x.expiresAt :=
  of_decide_eq_true (Option.filter_eq_some_iff.mp h).2

/-- A point counts towards the window that is running. -/
theorem consume_running (duration : ℕ) (w : Option WindowCount) (now : ℕ) :
    consume duration (running w now) now = consume duration w now := by
  unfold consume
  rw [running_running w le_rfl]

theorem lt_consume {duration : ℕ} (hpos : 0 < duration) (w : Option WindowCount) (now : ℕ) :
    now < (consume duration w now).expiresAt := by
  unfold consume
  split
  · exact Nat.lt_add_of_pos_right hpos
  · next x h =>
    have hlt : now < x.expiresAt := lt_of_running h
    exact hlt

end WindowCount

/-- A limiter object: its operations on one store, for whatever `points` and `duration` it was made with.
`windowAt` is the window of a key that is running at an instant; the laws say what each call does to it. -/
structure WindowLimiter (K : Type) where
  Store : Type
  fresh : Store
  consume : (points duration : ℕ) → Store → K → ℕ → Except RateLimiterRes RateLimiterRes × Store
  /-- no result means no window; the end of the window may lie in the past -/
  get : Store → K → ℕ → Option RateLimiterRes
  delete : Store → K → Store
  windowAt : Store → K → ℕ → Option WindowCount
  windowAt_fresh : ∀ k now, windowAt fresh k now = none
  windowAt_later : ∀ s k t now, t ≤ now → windowAt s k now = WindowCount.running (windowAt s k t) now
  consume_same : ∀ points duration s k now, 0 < duration →
    windowAt (consume points duration s k now).2 k now = some (WindowCount.consume duration (windowAt s k now) now)
  consume_other : ∀ points duration s k l now t, l ≠ k →
    windowAt (consume points duration s k now).2 l t = windowAt s l t
  consume_result : ∀ points duration s k now,
    (consume points duration s k now).1 =
      (WindowCount.consume duration (windowAt s k now) now).verdict points now
  get_none : ∀ s k now, get s k now = none → windowAt s k now = none
  get_some : ∀ s k now r, get s k now = some r →
    if 0 < r.msBeforeNext then ∃ w, windowAt s k now = some w ∧ r = w.res now else windowAt s k now = none
  delete_same : ∀ s k now, windowAt (delete s k) k now = none
  delete_other : ∀ s k l now, l ≠ k → windowAt (delete s k) l now = windowAt s l now

namespace WindowLimiter

/-- A limiter that keeps the last window of each key in a table. -/
def memory (K : Type) [DecidableEq K] : WindowLimiter K where
  Store := K → Option WindowCount
  fresh := fun _ => none
  consume points duration s k now :=
    ((WindowCount.consume duration (s k) now).verdict points now,
      Function.update s k (some (WindowCount.consume duration (s k) now)))
  get s k now := (WindowCount.running (s k) now).map fun w => w.res now
  delete s k := Function.update s k none
  windowAt s k now := WindowCount.running (s k) now
  windowAt_fresh _ _ := rfl
  windowAt_later s k t now hle := (WindowCount.running_running (s k) hle).symm
  consume_same points duration s k now hpos := by
    rw [WindowCount.consume_running]
    dsimp only
    rw [Function.update_self, WindowCount.running_some, if_pos (WindowCount.lt_consume hpos (s k) now)]
  consume_other points duration s k l now t hne := by
    dsimp only
    rw [Function.update_of_ne hne]
  consume_result points duration s k now := by rw [WindowCount.consume_running]
  get_none s k now h := Option.map_eq_none_iff.mp h
  get_some s k now r h := by
    obtain ⟨w, hw, rfl⟩ := Option.map_eq_some_iff.mp h
    have hlive : now < w.expiresAt := WindowCount.lt_of_running hw
    have hpos : 0 < (w.res now).msBeforeNext := by
      show (0 : ℤ) < w.expiresAt - now
      omega
    rw [if_pos hpos]
    exact ⟨w, hw, rfl⟩
  delete_same s k now := by rw [Function.update_self, WindowCount.running_none]
  delete_other s k l now hne := by rw [Function.update_of_ne hne]

end WindowLimiter

/-- Whole seconds to wait, at least one. -/
def waitSec (ms : ℤ) : ℕ := (max 1 ⌈(ms : ℚ) / 1000⌉).toNat

/-- No less than the time there is to wait, and less than a second more. -/
theorem waitSec_spec {ms : ℤ} (hms : 0 < ms) :
    ms ≤ 1000 * (waitSec ms : ℤ) ∧ 1000 * ((waitSec ms : ℤ) - 1) < ms := by
  have hpos : 1 ≤ ⌈(ms : ℚ) / 1000⌉ := by
    rw [Int.one_le_ceil_iff]
    positivity
  have hsec : (waitSec ms : ℤ) = ⌈(ms : ℚ) / 1000⌉ := by
    unfold waitSec
    omega
  rw [hsec]
  have hle := Int.le_ceil ((ms : ℚ) / 1000)
  have hlt := Int.ceil_lt_add_one ((ms : ℚ) / 1000)
  constructor
  · have hq : (ms : ℚ) ≤ 1000 * (⌈(ms : ℚ) / 1000⌉ : ℚ) := by linarith
    exact_mod_cast hq
  · have hq : 1000 * ((⌈(ms : ℚ) / 1000⌉ : ℚ) - 1) < (ms : ℚ) := by linarith
    exact_mod_cast hq

/-! ### What a key gets -/

/-- How many of the events lie in `[t, u)`. -/
def between (t u : ℕ) (times : List ℕ) : ℕ := times.countP fun x => decide (t ≤ x ∧ x < u)

section Between

variable {t u v now : ℕ} {times : List ℕ}

theorem between_append (t u : ℕ) (as bs : List ℕ) : between t u (as ++ bs) = between t u as + between t u bs :=
  List.countP_append

theorem between_singleton (t u now : ℕ) : between t u [now] = if t ≤ now ∧ now < u then 1 else 0 := by
  simp [between, List.countP_cons]

theorem between_split (htu : t ≤ u) (huv : u ≤ v) : between t v times = between t u times + between u v times := by
  induction times with
  | nil => rfl
  | cons x times ih =>
    unfold between at ih ⊢
    simp only [List.countP_cons, decide_eq_true_eq]
    split_ifs <;> omega

theorem between_eq_zero (h : ∀ x ∈ times, x < t) : between t u times = 0 := by
  refine List.countP_eq_zero.mpr fun x hx => ?_
  have hlt := h x hx
  simp only [decide_eq_true_eq]
  omega

theorem exists_of_between_pos (h : 0 < between t u times) : ∃ x ∈ times, t ≤ x := by
  obtain ⟨x, hx, hin⟩ := List.countP_pos_iff.mp h
  exact ⟨x, hx, (of_decide_eq_true hin).1⟩

theorem length_inWindow (width t : ℕ) (times : List ℕ) :
    (inWindow width t times).length = between t (t + width) times :=
  List.countP_eq_length_filter.symm

end Between

/-- The points a key got, the first `points` of each window, beside the window `w` that is the last: how full it
is, and how few of the points before it lie close to it. -/
structure Metered (points duration : ℕ) (times : List ℕ) (w : WindowCount) : Prop where
  length : duration ≤ w.expiresAt
  nonempty : 0 < w.consumed
  before : ∀ x ∈ times, x < w.expiresAt
  /-- the window holds what it granted -/
  granted : ∀ u, between (w.expiresAt - duration) u times ≤ min w.consumed points
  full : between (w.expiresAt - duration) w.expiresAt times = min w.consumed points
  /-- its first point lies where it opened -/
  opening : ∀ t u, w.expiresAt - duration < t → between t u times ≤ min w.consumed points - 1
  near : ∀ t, w.expiresAt < t + duration + duration → between t (w.expiresAt - duration) times ≤ points - 1
  past : ∀ t, t + duration + duration ≤ w.expiresAt → between t (t + duration) times ≤ 2 * points - 1

section Metered

variable {points duration now : ℕ} {times : List ℕ} {w : WindowCount}

/-- **Any stretch as long as a window** has at most twice the limit less one. -/
theorem Metered.bounded (h : Metered points duration times w) (hpoints : 0 < points) :
    Bounded duration (2 * points - 1) times := by
  intro t
  rw [length_inWindow]
  have hlength := h.length
  by_cases hpast : t + duration + duration ≤ w.expiresAt
  · exact h.past t hpast
  · by_cases hin : w.expiresAt - duration < t
    · have hle := h.opening t (t + duration) hin
      omega
    · -- the stretch covers the opening of the last window
      have hsplit : between t (t + duration) times = between t (w.expiresAt - duration) times +
          between (w.expiresAt - duration) (t + duration) times := between_split (by omega) (by omega)
      have hnear := h.near t (by omega)
      have hgranted := h.granted (t + duration)
      omega

/-- The first window of a key. -/
theorem metered_first (hpoints : 0 < points) (hduration : 0 < duration) :
    Metered points duration [now] ⟨1, now + duration⟩ := by
  refine ⟨by simp, Nat.one_pos, by simpa using hduration, fun u => ?_, ?_, fun t u ht => ?_, fun t _ => ?_,
    fun t ht => ?_⟩ <;> simp only [between_singleton, Nat.add_sub_cancel] at * <;> split_ifs <;> omega

/-- A window that is over makes room for the next. -/
theorem Metered.reopen (h : Metered points duration times w) (hpoints : 0 < points) (hduration : 0 < duration)
    (hover : w.expiresAt ≤ now) : Metered points duration (times ++ [now]) ⟨1, now + duration⟩ := by
  have hlength := h.length
  have hzero : ∀ u, between now u times = 0 := fun u =>
    between_eq_zero fun x hx => lt_of_lt_of_le (h.before x hx) hover
  have hfirst : Metered points duration [now] ⟨1, now + duration⟩ := metered_first hpoints hduration
  refine ⟨hfirst.length, hfirst.nonempty, fun x hx => ?_, fun u => ?_, ?_, fun t u ht => ?_, fun t ht => ?_,
    fun t ht => ?_⟩
  · rcases List.mem_append.mp hx with hx | hx
    · have hlt := h.before x hx
      show x < now + duration
      omega
    · exact hfirst.before x hx
  · have hle := hfirst.granted u
    rw [between_append]
    simp only [Nat.add_sub_cancel] at hle ⊢
    rw [hzero, Nat.zero_add]
    exact hle
  · have heq := hfirst.full
    rw [between_append]
    simp only [Nat.add_sub_cancel] at heq ⊢
    rw [hzero, Nat.zero_add]
    exact heq
  · have hle := hfirst.opening t u ht
    have hnone : between t u times = 0 := by
      refine between_eq_zero fun x hx => ?_
      have hlt := h.before x hx
      simp only [Nat.add_sub_cancel] at ht
      omega
    rw [between_append, hnone, Nat.zero_add]
    exact hle
  · simp only [Nat.add_sub_cancel] at ht ⊢
    have hold := h.opening t now (by omega)
    rw [between_append, between_singleton, if_neg (by omega)]
    omega
  · have hold := h.bounded hpoints t
    rw [length_inWindow] at hold
    simp only at ht
    rw [between_append, between_singleton, if_neg (by omega)]
    omega

/-- A window that is running takes another point, and grants it while there is room. -/
theorem Metered.again (h : Metered points duration times w) (hpoints : 0 < points)
    (hlast : ∀ x ∈ times, x ≤ now) (hrunning : now < w.expiresAt) :
    Metered points duration (times ++ if w.consumed + 1 ≤ points then [now] else [])
      ⟨w.consumed + 1, w.expiresAt⟩ := by
  have hlength := h.length
  have hnonempty := h.nonempty
  -- the window has opened already
  have hopened : w.expiresAt - duration ≤ now := by
    have hpos : 0 < between (w.expiresAt - duration) w.expiresAt times := by
      rw [h.full]
      omega
    obtain ⟨x, hx, hle⟩ := exists_of_between_pos hpos
    exact hle.trans (hlast x hx)
  by_cases hroom : w.consumed + 1 ≤ points
  · rw [if_pos hroom]
    have hbefore : ∀ x ∈ times ++ [now], x < w.expiresAt := by
      intro x hx
      rcases List.mem_append.mp hx with hx | hx
      · exact h.before x hx
      · rw [List.mem_singleton.mp hx]
        exact hrunning
    have hgranted : ∀ u, between (w.expiresAt - duration) u (times ++ [now]) ≤ min (w.consumed + 1) points := by
      intro u
      have hold := h.granted u
      rw [between_append, between_singleton]
      split_ifs <;> omega
    have hfull : between (w.expiresAt - duration) w.expiresAt (times ++ [now]) = min (w.consumed + 1) points := by
      rw [between_append, between_singleton, h.full, if_pos ⟨hopened, hrunning⟩]
      omega
    have hopening : ∀ t u, w.expiresAt - duration < t →
        between t u (times ++ [now]) ≤ min (w.consumed + 1) points - 1 := by
      intro t u ht
      have hold := h.opening t u ht
      rw [between_append, between_singleton]
      split_ifs <;> omega
    have hnear : ∀ t, w.expiresAt < t + duration + duration →
        between t (w.expiresAt - duration) (times ++ [now]) ≤ points - 1 := by
      intro t ht
      rw [between_append, between_singleton, if_neg (by omega)]
      exact h.near t ht
    have hpast : ∀ t, t + duration + duration ≤ w.expiresAt →
        between t (t + duration) (times ++ [now]) ≤ 2 * points - 1 := by
      intro t ht
      rw [between_append, between_singleton, if_neg (by omega)]
      exact h.past t ht
    exact ⟨hlength, Nat.succ_pos _, hbefore, hgranted, hfull, hopening, hnear, hpast⟩
  · -- the point is refused
    have hmin : min (w.consumed + 1) points = min w.consumed points := by omega
    rw [if_neg hroom, List.append_nil]
    refine ⟨hlength, Nat.succ_pos _, h.before, fun u => ?_, ?_, fun t u ht => ?_, h.near, h.past⟩
    · exact hmin ▸ h.granted u
    · exact hmin ▸ h.full
    · exact hmin ▸ h.opening t u ht

/-- The points of a key, and its last window if it ever had one. -/
def MeteredBy (points duration : ℕ) (times : List ℕ) (last : Option WindowCount) : Prop :=
  match last with
  | none => times = []
  | some w => Metered points duration times w

/-- **One more point**: granted or refused, the count stays right. -/
theorem MeteredBy.consume {last : Option WindowCount} (h : MeteredBy points duration times last)
    (hpoints : 0 < points) (hduration : 0 < duration) (hlast : ∀ x ∈ times, x ≤ now) :
    MeteredBy points duration
      (times ++ if (WindowCount.consume duration last now).consumed ≤ points then [now] else [])
      (some (WindowCount.consume duration last now)) := by
  cases last with
  | none =>
    obtain rfl : times = [] := h
    have hpos : 1 ≤ points := hpoints
    simpa [WindowCount.consume, hpos, MeteredBy] using metered_first hpoints hduration
  | some w =>
    have hw : Metered points duration times w := h
    by_cases hrunning : now < w.expiresAt
    · simpa [WindowCount.consume, hrunning, MeteredBy] using hw.again hpoints hlast hrunning
    · have hpos : 1 ≤ points := hpoints
      simpa [WindowCount.consume, hrunning, MeteredBy, hpos] using
        hw.reopen hpoints hduration (Nat.le_of_not_lt hrunning)

theorem MeteredBy.bounded {last : Option WindowCount} (h : MeteredBy points duration times last)
    (hpoints : 0 < points) : Bounded duration (2 * points - 1) times := by
  cases last with
  | none =>
    obtain rfl : times = [] := h
    exact fun _ => Nat.zero_le _
  | some w => exact Metered.bounded h hpoints

end Metered

end AgyProxy.Lib
