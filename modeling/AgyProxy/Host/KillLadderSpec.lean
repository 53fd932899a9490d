import AgyProxy.Host.KillLadder

/-!
# AgyProxy.Host.KillLadderSpec — the ladder is climbed in order, in time, and never behind the exit

* `sent`: when a blow was sent; `step_cases`: what one action can do to the blows.
* `Climbs`: the two upper rungs against the first `SIGTERM`; every step keeps it.
* `ladder_climbs`: **the order**, and the silence after the exit.
* `hung_is_killed`: **the bound**: a process that stays silent and does not exit is killed in time.
-/

namespace AgyProxy

open Lib

namespace KillLadder

variable {s t s' : KillLadder} {a : LadderAction} {b : Blow}

/-- When the blow was sent, the first time first. -/
def sent (s : KillLadder) (b : Blow) : List ℕ := s.blows.filterMap fun x => if x.2 = b then some x.1 else none

theorem sent_append (s : KillLadder) (b b' : Blow) :
    (s.sendBlow b').sent b = s.sent b ++ if b' = b then [s.clock] else [] := by
  unfold sent sendBlow
  rw [List.filterMap_append, List.filterMap_cons, List.filterMap_nil]
  by_cases hb : b' = b
  · rw [if_pos hb, if_pos hb]
  · rw [if_neg hb, if_neg hb]

/-- A blow is no other one. -/
theorem sent_of_ne {b' : Blow} (hb : b' ≠ b) (s : KillLadder) : (s.sendBlow b').sent b = s.sent b := by
  rw [sent_append, if_neg hb, List.append_nil]

theorem sent_congr (h : t.blows = s.blows) (b : Blow) : t.sent b = s.sent b := by
  unfold sent
  rw [h]

/-! ### What one action does -/

/-- The parts of the state that the blows depend on are the same; time may have passed. -/
structure Alike (s t : KillLadder) : Prop where
  graceMs : t.graceMs = s.graceMs
  settled : t.settled = s.settled
  escalated : t.escalated = s.escalated
  escalationTimer : t.escalationTimer = s.escalationTimer
  finalKillTimer : t.finalKillTimer = s.finalKillTimer
  blows : t.blows = s.blows
  clock : s.clock ≤ t.clock

theorem alike_refreshWatchdog (s : KillLadder) : Alike s s.refreshWatchdog := by
  unfold refreshWatchdog
  split
  · exact ⟨rfl, rfl, rfl, rfl, rfl, rfl, le_rfl⟩
  · exact ⟨rfl, rfl, rfl, rfl, rfl, rfl, le_rfl⟩

theorem alike_output (s : KillLadder) : Alike s s.output := by
  have h := alike_refreshWatchdog s
  exact ⟨h.graceMs, h.settled, h.escalated, h.escalationTimer, h.finalKillTimer, h.blows, h.clock⟩

/-- What makes the process be brought down. -/
def Strikes (s : KillLadder) : LadderAction → Prop
  | .abort => s.listening = true
  | .kill _ => True
  | .watchdogFires => s.watchdog.ready s.clock = true
  | _ => False

/-- **One action** leaves the blows alone, starts the ladder, climbs one rung of it, or ends it. -/
theorem step_cases (h : s.step a = some s') :
    Alike s s' ∨ (s.Strikes a ∧ ∃ t, Alike s t ∧ t.clock = s.clock ∧ s' = t.killTree) ∨
      (s.escalationTimer.ready s.clock = true ∧ s' = s.onEscalation) ∨
      (s.finalKillTimer.ready s.clock = true ∧ s' = s.onFinalKill) ∨ s' = s.finish := by
  have hsame : ∀ u : KillLadder, u.graceMs = s.graceMs → u.settled = s.settled → u.escalated = s.escalated →
      u.escalationTimer = s.escalationTimer → u.finalKillTimer = s.finalKillTimer → u.blows = s.blows →
      u.clock = s.clock → Alike s u :=
    fun u h1 h2 h3 h4 h5 h6 h7 => ⟨h1, h2, h3, h4, h5, h6, le_of_eq h7.symm⟩
  cases a with
  | tick now =>
    simp only [step, Option.ite_none_right_eq_some, Option.some.injEq] at h
    obtain ⟨hle, rfl⟩ := h
    exact Or.inl ⟨rfl, rfl, rfl, rfl, rfl, rfl, hle⟩
  | output =>
    obtain rfl : s.output = s' := Option.some.inj h
    exact Or.inl (alike_output s)
  | abort =>
    simp only [step, Option.some.injEq] at h
    by_cases hl : s.listening = true
    · rw [if_pos hl] at h
      exact Or.inr (Or.inl ⟨hl, { s with aborted := true, listening := false },
        hsame _ rfl rfl rfl rfl rfl rfl rfl, rfl, h.symm⟩)
    · rw [if_neg hl] at h
      subst h
      exact Or.inl (hsame _ rfl rfl rfl rfl rfl rfl rfl)
  | kill reason =>
    obtain rfl : s.kill reason = s' := Option.some.inj h
    cases reason with
    | timeout =>
      exact Or.inr (Or.inl ⟨trivial, { s with timedOut := true, watchdog := none },
        hsame _ rfl rfl rfl rfl rfl rfl rfl, rfl, rfl⟩)
    | abort =>
      exact Or.inr (Or.inl ⟨trivial, { s with aborted := true, watchdog := none },
        hsame _ rfl rfl rfl rfl rfl rfl rfl, rfl, rfl⟩)
  | watchdogFires =>
    simp only [step, Option.ite_none_right_eq_some, Option.some.injEq] at h
    obtain ⟨hready, rfl⟩ := h
    exact Or.inr (Or.inl ⟨hready, { s with timedOut := true, watchdog := none },
      hsame _ rfl rfl rfl rfl rfl rfl rfl, rfl, rfl⟩)
  | escalationFires =>
    simp only [step, Option.ite_none_right_eq_some, Option.some.injEq] at h
    exact Or.inr (Or.inr (Or.inl ⟨h.1, h.2.symm⟩))
  | finalKillFires =>
    simp only [step, Option.ite_none_right_eq_some, Option.some.injEq] at h
    exact Or.inr (Or.inr (Or.inr (Or.inl ⟨h.1, h.2.symm⟩)))
  | finish => exact Or.inr (Or.inr (Or.inr (Or.inr (Option.some.inj h).symm)))

/-! ### The rungs -/

/-- A rung above the first `SIGTERM`, due at `due`: it waits for its timer, the exit was faster, or its blow was
sent once and not early. -/
def Rung (s : KillLadder) (timer : Timer) (b : Blow) (due : ℕ) : Prop :=
  (timer = some due ∧ s.sent b = []) ∨ (timer = none ∧ s.sent b = [] ∧ s.settled = true) ∨
    (timer = none ∧ ∃ t, s.sent b = [t] ∧ due ≤ t)

structure Climbs (s : KillLadder) : Prop where
  /-- below the ladder -/
  idle : s.escalated = false → s.escalationTimer = none ∧ s.finalKillTimer = none ∧ s.sent .kill = [] ∧
    s.sent .killChild = [] ∧ (s.sent .term ≠ [] → s.settled = true ∨ s.graceMs = 0)
  /-- on the ladder since the first `SIGTERM` -/
  climbing : s.escalated = true → ∃ t₀, (s.sent .term).head? = some t₀ ∧
    s.Rung s.escalationTimer .kill (t₀ + s.graceMs) ∧ s.Rung s.finalKillTimer .killChild (t₀ + s.graceMs * 2)

theorem Rung.alike (h : Alike s t) {timer : Timer} {due : ℕ} (hr : s.Rung timer b due) : t.Rung timer b due := by
  unfold Rung at hr ⊢
  rwa [sent_congr h.blows, h.settled]

theorem Climbs.alike (h : Alike s t) (hs : s.Climbs) : t.Climbs := by
  refine ⟨fun he => ?_, fun he => ?_⟩
  · obtain ⟨h1, h2, h3, h4, h5⟩ := hs.idle (h.escalated ▸ he)
    rw [h.escalationTimer, h.finalKillTimer, sent_congr h.blows, sent_congr h.blows, sent_congr h.blows,
      h.settled, h.graceMs]
    exact ⟨h1, h2, h3, h4, h5⟩
  · obtain ⟨t₀, h1, h2, h3⟩ := hs.climbing (h.escalated ▸ he)
    rw [h.escalationTimer, h.finalKillTimer, sent_congr h.blows, h.graceMs]
    exact ⟨t₀, h1, h2.alike h, h3.alike h⟩

theorem head?_append_singleton {α : Type} (l : List α) (x : α) :
    (l ++ [x]).head? = some (l.head?.getD x) := by
  cases l with
  | nil => rfl
  | cons y l => rfl

/-- The blow of a rung is another one's business. -/
theorem Rung.other {timer : Timer} {due : ℕ} {b' : Blow} (hb : b' ≠ b) (hr : s.Rung timer b due) :
    (s.sendBlow b').Rung timer b due := by
  unfold Rung at hr ⊢
  rwa [sent_of_ne hb]

theorem Climbs.killTree (hs : s.Climbs) : s.killTree.Climbs := by
  have hterm : (s.sendBlow .term).sent .term = s.sent .term ++ [s.clock] := by rw [sent_append, if_pos rfl]
  have hkill : (s.sendBlow .term).sent .kill = s.sent .kill := sent_of_ne (by decide) s
  have hchild : (s.sendBlow .term).sent .killChild = s.sent .killChild := sent_of_ne (by decide) s
  unfold KillLadder.killTree
  by_cases hstay : (s.sendBlow .term).escalated || (s.sendBlow .term).settled || (s.sendBlow .term).graceMs == 0
  · -- no new rung: the ladder is already climbed, the process is gone, or there is no grace
    rw [if_pos hstay]
    refine ⟨fun he => ?_, fun he => ?_⟩
    · obtain ⟨h1, h2, h3, h4, -⟩ := hs.idle he
      refine ⟨h1, h2, hkill.trans h3, hchild.trans h4, fun _ => ?_⟩
      rw [Bool.or_eq_true, Bool.or_eq_true, beq_iff_eq] at hstay
      rcases hstay with (hstay | hstay) | hstay
      · exact absurd (he.symm.trans hstay) Bool.false_ne_true
      · exact Or.inl hstay
      · exact Or.inr hstay
    · obtain ⟨t₀, h1, h2, h3⟩ := hs.climbing he
      refine ⟨t₀, ?_, h2.other (by decide), h3.other (by decide)⟩
      rw [hterm, head?_append_singleton, h1, Option.getD_some]
  · rw [if_neg hstay]
    simp only [Bool.or_eq_true, beq_iff_eq, not_or, Bool.not_eq_true] at hstay
    obtain ⟨⟨hesc, hset⟩, hgrace⟩ := hstay
    obtain ⟨-, -, h3, h4, h5⟩ := hs.idle hesc
    have hfirst : s.sent .term = [] := by
      by_contra hne
      rcases h5 hne with h | h
      · exact Bool.false_ne_true (hset.symm.trans h)
      · exact hgrace h
    refine ⟨fun he => absurd he.symm Bool.false_ne_true, fun _ => ⟨s.clock, ?_, ?_, ?_⟩⟩
    · show ((s.sendBlow .term).sent .term).head? = some s.clock
      rw [hterm, hfirst]
      rfl
    · exact Or.inl ⟨rfl, hkill.trans h3⟩
    · exact Or.inl ⟨rfl, hchild.trans h4⟩

/-- A rung below its timer is not there on a ladder that is not climbed. -/
theorem Climbs.escalated_of_timer (hs : s.Climbs) {due : ℕ}
    (h : s.escalationTimer = some due ∨ s.finalKillTimer = some due) : s.escalated = true := by
  by_contra he
  obtain ⟨h1, h2, -⟩ := hs.idle (Bool.eq_false_iff.mpr he)
  rcases h with h | h
  · exact nomatch h1.symm.trans h
  · exact nomatch h2.symm.trans h

/-- The timer of a rung fires on a living process. -/
theorem Rung.fire {due : ℕ} (hready : due ≤ s.clock) (hr : s.Rung (some due) b due) :
    (s.sendBlow b).Rung none b due := by
  rcases hr with ⟨-, hnone⟩ | ⟨h, -⟩ | ⟨h, -⟩
  · refine Or.inr (Or.inr ⟨rfl, s.clock, ?_, hready⟩)
    rw [sent_append, if_pos rfl, hnone, List.nil_append]
  · exact nomatch h
  · exact nomatch h

theorem Rung.due_eq {timer : Timer} {due due' : ℕ} (hr : s.Rung timer b due) (h : timer = some due') :
    due' = due := by
  rcases hr with ⟨h', -⟩ | ⟨h', -⟩ | ⟨h', -⟩
  · exact Option.some.inj (h.symm.trans h')
  · exact nomatch h.symm.trans h'
  · exact nomatch h.symm.trans h'

/-- A rung whose timer is taken away by the exit. -/
theorem Rung.disarm {timer : Timer} {due : ℕ} (hset : t.settled = true) (hsent : t.sent b = s.sent b)
    (hr : s.Rung timer b due) : t.Rung none b due := by
  rcases hr with ⟨-, hnone⟩ | ⟨-, hnone, -⟩ | ⟨-, t', hone, hdue⟩
  · exact Or.inr (Or.inl ⟨rfl, hsent.trans hnone, hset⟩)
  · exact Or.inr (Or.inl ⟨rfl, hsent.trans hnone, hset⟩)
  · exact Or.inr (Or.inr ⟨rfl, t', hsent.trans hone, hdue⟩)

theorem Climbs.onEscalation (hs : s.Climbs) (hready : s.escalationTimer.ready s.clock = true) :
    s.onEscalation.Climbs := by
  obtain ⟨due, htimer, hdue⟩ := Timer.exists_of_ready hready
  have hesc : s.escalated = true := hs.escalated_of_timer (Or.inl htimer)
  obtain ⟨t₀, h1, h2, h3⟩ := hs.climbing hesc
  obtain rfl : due = t₀ + s.graceMs := h2.due_eq htimer
  rw [htimer] at h2
  unfold KillLadder.onEscalation
  by_cases hset : s.settled = true
  · rw [if_pos hset]
    refine ⟨fun he => absurd (he.symm.trans hesc) Bool.false_ne_true, fun _ => ⟨t₀, h1, ?_, h3⟩⟩
    exact h2.disarm hset rfl
  · rw [if_neg hset]
    refine ⟨fun he => absurd (he.symm.trans hesc) Bool.false_ne_true, fun _ => ⟨t₀, ?_, ?_, ?_⟩⟩
    · rw [sent_of_ne (by decide)]
      exact h1
    · exact h2.fire hdue
    · exact h3.other (by decide)

theorem Climbs.onFinalKill (hs : s.Climbs) (hready : s.finalKillTimer.ready s.clock = true) :
    s.onFinalKill.Climbs := by
  obtain ⟨due, htimer, hdue⟩ := Timer.exists_of_ready hready
  have hesc : s.escalated = true := hs.escalated_of_timer (Or.inr htimer)
  obtain ⟨t₀, h1, h2, h3⟩ := hs.climbing hesc
  obtain rfl : due = t₀ + s.graceMs * 2 := h3.due_eq htimer
  rw [htimer] at h3
  unfold KillLadder.onFinalKill
  by_cases hset : s.settled = true
  · rw [if_pos hset]
    refine ⟨fun he => absurd (he.symm.trans hesc) Bool.false_ne_true, fun _ => ⟨t₀, h1, h2, ?_⟩⟩
    exact h3.disarm hset rfl
  · rw [if_neg hset]
    refine ⟨fun he => absurd (he.symm.trans hesc) Bool.false_ne_true, fun _ => ⟨t₀, ?_, ?_, ?_⟩⟩
    · rw [sent_of_ne (by decide)]
      exact h1
    · exact h2.other (by decide)
    · exact h3.fire hdue

theorem Climbs.finish (hs : s.Climbs) : s.finish.Climbs := by
  unfold KillLadder.finish
  by_cases hset : s.settled = true
  · rw [if_pos hset]
    exact hs
  · rw [if_neg hset]
    refine ⟨fun he => ?_, fun he => ?_⟩
    · obtain ⟨-, -, h3, h4, -⟩ := hs.idle he
      exact ⟨rfl, rfl, h3, h4, fun _ => Or.inl rfl⟩
    · obtain ⟨t₀, h1, h2, h3⟩ := hs.climbing he
      exact ⟨t₀, h1, Rung.disarm (s := s) rfl rfl h2, Rung.disarm (s := s) rfl rfl h3⟩

/-- **Every action** keeps the rungs in order. -/
theorem Climbs.step (hs : s.Climbs) (h : s.step a = some s') : s'.Climbs := by
  rcases step_cases h with h | ⟨-, t, ht, -, rfl⟩ | ⟨hready, rfl⟩ | ⟨hready, rfl⟩ | rfl
  · exact hs.alike h
  · exact (hs.alike ht).killTree
  · exact hs.onEscalation hready
  · exact hs.onFinalKill hready
  · exact hs.finish

theorem climbs_start (timeoutMs graceMs now : ℕ) (signal : Bool) : (start timeoutMs graceMs now signal).Climbs := by
  refine Climbs.alike (alike_refreshWatchdog _) ⟨fun _ => ?_, fun he => absurd he Bool.false_ne_true⟩
  exact ⟨rfl, rfl, rfl, rfl, fun hne => absurd rfl hne⟩

/-! ### Behind the exit -/

/-- The exit of the child took every timer and the listener with it; an output behind it arms nothing. -/
def Disarmed (s : KillLadder) : Prop :=
  s.settled = true → s.watchdog = none ∧ s.escalationTimer = none ∧ s.finalKillTimer = none ∧ s.listening = false

theorem killTree_of_settled (h : s.settled = true) : s.killTree = s.sendBlow .term := by
  have hstay : ((s.sendBlow .term).escalated || (s.sendBlow .term).settled || (s.sendBlow .term).graceMs == 0) =
      true := by
    have hset : (s.sendBlow .term).settled = true := h
    rw [hset, Bool.or_true, Bool.true_or]
  unfold killTree
  exact if_pos hstay

/-- A kill sends its blow, and may start the ladder with it. -/
theorem killTree_eq (s : KillLadder) :
    s.killTree = s.sendBlow .term ∨ s.killTree = (s.sendBlow .term).escalate := by
  unfold killTree
  dsimp only
  split
  · exact Or.inl rfl
  · exact Or.inr rfl

/-- Apart from the ladder itself, a kill is its blow. -/
theorem killTree_keeps (s : KillLadder) :
    s.killTree.timeoutMs = s.timeoutMs ∧ s.killTree.graceMs = s.graceMs ∧ s.killTree.clock = s.clock ∧
      s.killTree.settled = s.settled ∧ s.killTree.lastOutput = s.lastOutput ∧
      s.killTree.blows = s.blows ++ [(s.clock, .term)] := by
  rcases killTree_eq s with h | h
  · rw [h]
    exact ⟨rfl, rfl, rfl, rfl, rfl, rfl⟩
  · rw [h]
    exact ⟨rfl, rfl, rfl, rfl, rfl, rfl⟩

theorem killTree_settled (s : KillLadder) : s.killTree.settled = s.settled := (killTree_keeps s).2.2.2.1

theorem sent_killTree (s : KillLadder) (b : Blow) :
    s.killTree.sent b = s.sent b ++ if .term = b then [s.clock] else [] :=
  (sent_congr (s := s.sendBlow .term) (killTree_keeps s).2.2.2.2.2 b).trans (sent_append s b .term)

/-- On a living process with a grace period it starts the ladder. -/
theorem killTree_escalated (hset : s.settled = false) (hgrace : s.graceMs ≠ 0) : s.killTree.escalated = true := by
  unfold killTree
  dsimp only
  split
  · rename_i hstay
    rw [Bool.or_eq_true, Bool.or_eq_true, beq_iff_eq] at hstay
    rcases hstay with (hstay | hstay) | hstay
    · exact hstay
    · exact absurd (hset.symm.trans hstay) Bool.false_ne_true
    · exact absurd hstay hgrace
  · rfl

theorem refreshWatchdog_of_settled (h : s.settled = true) : s.refreshWatchdog = s := by
  unfold refreshWatchdog
  rw [if_pos (by rw [h, Bool.or_true])]

/-- What a settled process still does. -/
theorem step_of_settled (hd : s.Disarmed) (hset : s.settled = true) (h : s.step a = some s') :
    s'.settled = true ∧ s'.Disarmed ∧ s'.sent .kill = s.sent .kill ∧ s'.sent .killChild = s.sent .killChild ∧
      ((∀ reason, a ≠ .kill reason) → s'.blows = s.blows) := by
  obtain ⟨hw, he, hf, hl⟩ := hd hset
  have hkeep : ∀ b ≠ Blow.term, ∀ u : KillLadder, u.blows = s.blows → (u.sendBlow .term).sent b = s.sent b :=
    fun b hb u hu => (sent_of_ne (Ne.symm hb) u).trans (sent_congr hu b)
  cases a with
  | tick now =>
    simp only [step, Option.ite_none_right_eq_some, Option.some.injEq] at h
    obtain ⟨-, rfl⟩ := h
    exact ⟨hset, hd, rfl, rfl, fun _ => rfl⟩
  | output =>
    obtain rfl : s.output = s' := Option.some.inj h
    unfold output
    rw [refreshWatchdog_of_settled hset]
    exact ⟨hset, hd, rfl, rfl, fun _ => rfl⟩
  | abort =>
    simp only [step, hl, Bool.false_eq_true, if_false, Option.some.injEq] at h
    subst h
    exact ⟨hset, hd, rfl, rfl, fun _ => rfl⟩
  | kill reason =>
    obtain rfl : s.kill reason = s' := Option.some.inj h
    cases reason with
    | timeout =>
      have heq : s.kill .timeout = sendBlow { s with timedOut := true, watchdog := none } .term :=
        killTree_of_settled hset
      rw [heq]
      exact ⟨hset, fun _ => ⟨rfl, he, hf, hl⟩, hkeep .kill (by decide) _ rfl, hkeep .killChild (by decide) _ rfl,
        fun hne => absurd rfl (hne _)⟩
    | abort =>
      have heq : s.kill .abort = sendBlow { s with aborted := true, watchdog := none } .term :=
        killTree_of_settled hset
      rw [heq]
      exact ⟨hset, fun _ => ⟨rfl, he, hf, hl⟩, hkeep .kill (by decide) _ rfl, hkeep .killChild (by decide) _ rfl,
        fun hne => absurd rfl (hne _)⟩
  | watchdogFires =>
    rw [step, hw] at h
    exact nomatch h
  | escalationFires =>
    rw [step, he] at h
    exact nomatch h
  | finalKillFires =>
    rw [step, hf] at h
    exact nomatch h
  | finish =>
    obtain rfl : s.finish = s' := Option.some.inj h
    unfold finish
    rw [if_pos hset]
    exact ⟨hset, hd, rfl, rfl, fun _ => rfl⟩

theorem Disarmed.step (hd : s.Disarmed) (h : s.step a = some s') : s'.Disarmed := by
  by_cases hset : s.settled = true
  · exact (step_of_settled hd hset h).2.1
  · intro hset'
    rcases step_cases h with h | ⟨-, t, ht, -, rfl⟩ | ⟨-, rfl⟩ | ⟨-, rfl⟩ | rfl
    · exact absurd (h.settled.symm.trans hset') hset
    · rw [killTree_settled, ht.settled] at hset'
      exact absurd hset' hset
    · unfold onEscalation at hset'
      rw [if_neg hset] at hset'
      exact absurd hset' hset
    · unfold onFinalKill at hset'
      rw [if_neg hset] at hset'
      exact absurd hset' hset
    · unfold finish
      rw [if_neg hset]
      exact ⟨rfl, rfl, rfl, rfl⟩

theorem disarmed_start (timeoutMs graceMs now : ℕ) (signal : Bool) :
    (start timeoutMs graceMs now signal).Disarmed := by
  intro hset
  rw [start, (alike_refreshWatchdog _).settled] at hset
  exact absurd hset Bool.false_ne_true

/-- A run behind the exit. -/
theorem exec_of_settled (hd : s.Disarmed) (hset : s.settled = true) {as : List LadderAction}
    (h : exec step s as = some s') :
    s'.sent .kill = s.sent .kill ∧ s'.sent .killChild = s.sent .killChild ∧
      ((∀ reason, .kill reason ∉ as) → s'.blows = s.blows) := by
  induction as generalizing s with
  | nil =>
    obtain rfl : s = s' := Option.some.inj h
    exact ⟨rfl, rfl, fun _ => rfl⟩
  | cons a as ih =>
    obtain ⟨t, ht, h⟩ := exec_cons h
    obtain ⟨hset', hd', hk, hc, hb⟩ := step_of_settled hd hset ht
    obtain ⟨hk', hc', hb'⟩ := ih hd' hset' h
    refine ⟨hk'.trans hk, hc'.trans hc, fun hno => (hb' fun r hr => ?_).trans (hb fun r hr => ?_)⟩
    · exact hno r (List.mem_cons_of_mem a hr)
    · exact hno r (hr ▸ List.mem_cons_self)

/-! ### The order of the blows -/

theorem graceMs_step (h : s.step a = some s') : s'.graceMs = s.graceMs := by
  rcases step_cases h with h | ⟨-, t, ht, -, rfl⟩ | ⟨-, rfl⟩ | ⟨-, rfl⟩ | rfl
  · exact h.graceMs
  · exact (killTree_keeps t).2.1.trans ht.graceMs
  · unfold onEscalation
    dsimp only
    split
    · rfl
    · rfl
  · unfold onFinalKill
    dsimp only
    split
    · rfl
    · rfl
  · unfold finish
    split
    · rfl
    · rfl

/-- What a rung says of its blow. -/
theorem Rung.sent {timer : Timer} {due : ℕ} (hr : s.Rung timer b due) :
    s.sent b = [] ∨ ∃ t, s.sent b = [t] ∧ due ≤ t := by
  rcases hr with ⟨-, h⟩ | ⟨-, h, -⟩ | ⟨-, h⟩
  · exact Or.inl h
  · exact Or.inl h
  · exact Or.inr h

/-- The forced blows of the ladder, read off its invariant. -/
theorem Climbs.order (hs : s.Climbs) :
    (s.sent .kill = [] ∨ ∃ t₀ t, (s.sent .term).head? = some t₀ ∧ s.sent .kill = [t] ∧ t₀ + s.graceMs ≤ t) ∧
      (s.sent .killChild = [] ∨
        ∃ t₀ t, (s.sent .term).head? = some t₀ ∧ s.sent .killChild = [t] ∧ t₀ + s.graceMs * 2 ≤ t) := by
  by_cases he : s.escalated = true
  · obtain ⟨t₀, h1, h2, h3⟩ := hs.climbing he
    refine ⟨h2.sent.imp_right fun ⟨t, ht, hle⟩ => ⟨t₀, t, h1, ht, hle⟩,
      h3.sent.imp_right fun ⟨t, ht, hle⟩ => ⟨t₀, t, h1, ht, hle⟩⟩
  · obtain ⟨-, -, h3, h4, -⟩ := hs.idle (Bool.eq_false_iff.mpr he)
    exact ⟨Or.inl h3, Or.inl h4⟩

/-- No force before the first `SIGTERM`. -/
theorem Climbs.unforced (hs : s.Climbs) (hnone : s.sent .term = []) :
    s.sent .kill = [] ∧ s.sent .killChild = [] := by
  obtain ⟨hkill, hchild⟩ := hs.order
  rw [hnone] at hkill hchild
  refine ⟨hkill.resolve_right ?_, hchild.resolve_right ?_⟩
  · rintro ⟨_, _, h, -⟩
    exact nomatch h
  · rintro ⟨_, _, h, -⟩
    exact nomatch h

/-- **The ladder is climbed in order.**  Whatever order output, aborts, `kill()` calls, timers and the exit come in,
the process gets at most one `SIGKILL` to its group and one to itself, each only behind a first `SIGTERM` and no
earlier than one and two grace periods after it.  Behind the exit none of the two is ever sent, and nothing at all
unless `kill()` is called again. -/
theorem ladder_climbs (timeoutMs graceMs now : ℕ) (signal : Bool) (as bs : List LadderAction) (s s' : KillLadder)
    (h : exec step (start timeoutMs graceMs now signal) as = some s) (h' : exec step s bs = some s') :
    (s.sent .kill = [] ∨ ∃ t₀ t, (s.sent .term).head? = some t₀ ∧ s.sent .kill = [t] ∧ t₀ + graceMs ≤ t) ∧
      (s.sent .killChild = [] ∨
        ∃ t₀ t, (s.sent .term).head? = some t₀ ∧ s.sent .killChild = [t] ∧ t₀ + graceMs * 2 ≤ t) ∧
      (s.settled = true → s'.sent .kill = s.sent .kill ∧ s'.sent .killChild = s.sent .killChild ∧
        ((∀ reason, .kill reason ∉ bs) → s'.blows = s.blows)) := by
  have hclimbs : s.Climbs :=
    exec_invariant' (fun _ _ _ hs hstep => hs.step hstep) as _ s (climbs_start timeoutMs graceMs now signal) h
  have hdisarmed : s.Disarmed :=
    exec_invariant' (fun _ _ _ hs hstep => hs.step hstep) as _ s (disarmed_start timeoutMs graceMs now signal) h
  have hgrace : s.graceMs = graceMs :=
    exec_invariant' (fun _ _ _ hs hstep => (graceMs_step hstep).trans hs) as _ s
      (alike_refreshWatchdog _).graceMs h
  obtain ⟨hkill, hchild⟩ := hclimbs.order
  rw [hgrace] at hkill hchild
  exact ⟨hkill, hchild, fun hset => exec_of_settled hdisarmed hset h'⟩

/-- A silent process, taken down by the `SIGKILL` to its group. -/
def silentExit : KillLadder :=
  { timeoutMs := 100
    graceMs := 50
    clock := 152
    timedOut := true
    aborted := false
    settled := true
    escalated := true
    listening := false
    watchdog := none
    escalationTimer := none
    finalKillTimer := none
    blows := [(100, .term), (152, .kill)]
    lastOutput := 0 }

/-- An abort, and a last output, behind the exit. -/
theorem ladder_climbs_silent :
    (∃ t₀ t, (silentExit.sent .term).head? = some t₀ ∧ silentExit.sent .kill = [t] ∧ t₀ + 50 ≤ t) ∧
      exec step silentExit [.tick 400, .abort, .output] = some { silentExit with clock := 400, lastOutput := 400 } ∧
      ({ silentExit with clock := 400, lastOutput := 400 } : KillLadder).blows = silentExit.blows := by
  have hrun : exec step (start 100 50 0 true) [.tick 100, .watchdogFires, .tick 152, .escalationFires, .finish] =
      some silentExit := by decide
  have hmore : exec step silentExit [.tick 400, .abort, .output] =
      some { silentExit with clock := 400, lastOutput := 400 } := by decide
  obtain ⟨hkill, -, hquiet⟩ := ladder_climbs 100 50 0 true _ _ _ _ hrun hmore
  exact ⟨hkill.resolve_left (by decide), hmore, (hquiet rfl).2.2 (by simp)⟩

/-! ### In time -/

/-- What a process with a watchdog and a grace period goes through while it lives: silence arms the watchdog, the
first `SIGTERM` comes in time, and so do the forced blows. -/
structure Watched (late : ℕ) (s : KillLadder) : Prop where
  climbs : s.Climbs
  lastOutput_le : s.lastOutput ≤ s.clock
  armed : s.settled = false → s.sent .term = [] → s.watchdog = some (s.lastOutput + s.timeoutMs)
  climbing : s.settled = false → s.sent .term ≠ [] → s.escalated = true
  first : s.settled = false → ∀ t₀, (s.sent .term).head? = some t₀ → t₀ ≤ s.lastOutput + s.timeoutMs + late
  kill : ∀ t₀, (s.sent .term).head? = some t₀ → ∀ t ∈ s.sent .kill, t ≤ t₀ + s.graceMs + late
  killChild : ∀ t₀, (s.sent .term).head? = some t₀ → ∀ t ∈ s.sent .killChild, t ≤ t₀ + s.graceMs * 2 + late

/-- The watchdog's view of the process is the same. -/
structure SameWatch (s t : KillLadder) : Prop where
  timeoutMs : t.timeoutMs = s.timeoutMs
  lastOutput : t.lastOutput = s.lastOutput
  clock : t.clock = s.clock

/-- Before its first `SIGTERM` a living process is not behind its watchdog. -/
theorem Watched.clock_le {late : ℕ} (hw : Watched late s) (hontime : OnTime late s.clock s.timers)
    (hset : s.settled = false) (hnone : s.sent .term = []) : s.clock ≤ s.lastOutput + s.timeoutMs + late := by
  have harmed := hw.armed hset hnone
  exact hontime.le (harmed ▸ List.mem_cons_self)

theorem Watched.killTree {late : ℕ} (hw : Watched late s) (hgrace : s.graceMs ≠ 0)
    (hontime : OnTime late s.clock s.timers) (hlike : Alike s t) (hsame : SameWatch s t) :
    Watched late t.killTree := by
  obtain ⟨htimeout, hg, hclock, hsettled, hlast, -⟩ := killTree_keeps t
  have hterm : t.killTree.sent .term = s.sent .term ++ [s.clock] := by
    rw [sent_killTree, if_pos rfl, sent_congr hlike.blows, hsame.clock]
  have hother : ∀ b, Blow.term ≠ b → t.killTree.sent b = s.sent b := fun b hb => by
    rw [sent_killTree, if_neg hb, List.append_nil, sent_congr hlike.blows]
  -- the first of the blows, after one more
  have hhead : ∀ t₀, (t.killTree.sent .term).head? = some t₀ →
      (s.sent .term).head? = some t₀ ∨ s.sent .term = [] ∧ t₀ = s.clock := by
    intro t₀ h
    rw [hterm] at h
    cases hl : s.sent .term with
    | nil =>
      rw [hl] at h
      exact Or.inr ⟨rfl, (Option.some.inj h).symm⟩
    | cons x l =>
      rw [hl] at h
      exact Or.inl h
  refine ⟨(hw.climbs.alike hlike).killTree, ?_, fun _ hnil => ?_, fun hset _ => ?_, fun hset t₀ h => ?_,
    fun t₀ h x hx => ?_, fun t₀ h x hx => ?_⟩
  · rw [hlast, hclock, hsame.lastOutput, hsame.clock]
    exact hw.lastOutput_le
  · rw [hterm] at hnil
    exact absurd hnil (List.append_ne_nil_of_right_ne_nil _ (List.cons_ne_nil _ _))
  · rw [hsettled] at hset
    exact killTree_escalated hset (hlike.graceMs ▸ hgrace)
  · rw [hsettled, hlike.settled] at hset
    rw [hlast, htimeout, hsame.lastOutput, hsame.timeoutMs]
    rcases hhead t₀ h with h | ⟨hnone, rfl⟩
    · exact hw.first hset t₀ h
    · exact hw.clock_le hontime hset hnone
  · rw [hother .kill (by decide)] at hx
    rw [hg, hlike.graceMs]
    rcases hhead t₀ h with h | ⟨hnone, -⟩
    · exact hw.kill t₀ h x hx
    · rw [(hw.climbs.unforced hnone).1] at hx
      exact absurd hx List.not_mem_nil
  · rw [hother .killChild (by decide)] at hx
    rw [hg, hlike.graceMs]
    rcases hhead t₀ h with h | ⟨hnone, -⟩
    · exact hw.killChild t₀ h x hx
    · rw [(hw.climbs.unforced hnone).2] at hx
      exact absurd hx List.not_mem_nil

/-- An action that is no blow and no output. -/
theorem Watched.alike {late : ℕ} (hw : Watched late s) (hlike : Alike s t) (hw' : t.watchdog = s.watchdog)
    (htimeout : t.timeoutMs = s.timeoutMs) (hlast : t.lastOutput = s.lastOutput) : Watched late t := by
  refine ⟨hw.climbs.alike hlike, ?_, fun hset hnil => ?_, fun hset hne => ?_, fun hset t₀ h => ?_,
    fun t₀ h x hx => ?_, fun t₀ h x hx => ?_⟩
  · rw [hlast]
    exact le_trans hw.lastOutput_le hlike.clock
  · rw [hw', hlast, htimeout]
    exact hw.armed (hlike.settled ▸ hset) ((sent_congr hlike.blows _).symm.trans hnil)
  · rw [hlike.escalated]
    exact hw.climbing (hlike.settled ▸ hset) fun hnil => hne ((sent_congr hlike.blows _).trans hnil)
  · rw [hlast, htimeout]
    exact hw.first (hlike.settled ▸ hset) t₀ (sent_congr hlike.blows .term ▸ h)
  · rw [hlike.graceMs]
    exact hw.kill t₀ (sent_congr hlike.blows .term ▸ h) x (sent_congr hlike.blows .kill ▸ hx)
  · rw [hlike.graceMs]
    exact hw.killChild t₀ (sent_congr hlike.blows .term ▸ h) x (sent_congr hlike.blows .killChild ▸ hx)

theorem Watched.output {late : ℕ} (hw : Watched late s) (htimeout : s.timeoutMs ≠ 0) : Watched late s.output := by
  have hlike := alike_output s
  have hkeep : s.output.timeoutMs = s.timeoutMs ∧ s.output.lastOutput = s.clock ∧ s.output.clock = s.clock := by
    unfold KillLadder.output refreshWatchdog
    split
    · exact ⟨rfl, rfl, rfl⟩
    · exact ⟨rfl, rfl, rfl⟩
  obtain ⟨ht, hl, hc⟩ := hkeep
  refine ⟨hw.climbs.alike hlike, ?_, fun hset _ => ?_, fun hset hne => ?_, fun hset t₀ h => ?_,
    fun t₀ h x hx => ?_, fun t₀ h x hx => ?_⟩
  · rw [hl, hc]
  · rw [hlike.settled] at hset
    have hgo : ¬ ((s.timeoutMs == 0 || s.settled) = true) := by
      rw [hset, Bool.or_false, beq_iff_eq]
      exact htimeout
    rw [hl, ht]
    unfold KillLadder.output refreshWatchdog
    rw [if_neg hgo]
  · rw [hlike.escalated]
    exact hw.climbing (hlike.settled ▸ hset) fun hnil => hne ((sent_congr hlike.blows _).trans hnil)
  · have hle := hw.first (hlike.settled ▸ hset) t₀ (sent_congr hlike.blows .term ▸ h)
    have := hw.lastOutput_le
    omega
  · rw [hlike.graceMs]
    exact hw.kill t₀ (sent_congr hlike.blows .term ▸ h) x (sent_congr hlike.blows .kill ▸ hx)
  · rw [hlike.graceMs]
    exact hw.killChild t₀ (sent_congr hlike.blows .term ▸ h) x (sent_congr hlike.blows .killChild ▸ hx)

/-- A timer of a rung is due where the rung says. -/
theorem Climbs.due_of_timer (hs : s.Climbs) {t₀ due : ℕ} (h : (s.sent .term).head? = some t₀) :
    (s.escalationTimer = some due → due = t₀ + s.graceMs) ∧
      (s.finalKillTimer = some due → due = t₀ + s.graceMs * 2) := by
  refine ⟨fun htimer => ?_, fun htimer => ?_⟩
  · obtain ⟨t₁, h1, h2, -⟩ := hs.climbing (hs.escalated_of_timer (Or.inl htimer))
    rw [Option.some.inj (h.symm.trans h1)]
    exact h2.due_eq htimer
  · obtain ⟨t₁, h1, -, h3⟩ := hs.climbing (hs.escalated_of_timer (Or.inr htimer))
    rw [Option.some.inj (h.symm.trans h1)]
    exact h3.due_eq htimer

theorem mem_sent_sendBlow {x : ℕ} {b' : Blow} (h : x ∈ (s.sendBlow b').sent b) :
    x ∈ s.sent b ∨ b' = b ∧ x = s.clock := by
  rw [sent_append, List.mem_append] at h
  refine h.imp_right fun hx => ?_
  by_cases hb : b' = b
  · rw [if_pos hb, List.mem_singleton] at hx
    exact ⟨hb, hx⟩
  · rw [if_neg hb] at hx
    exact absurd hx List.not_mem_nil

theorem Watched.onEscalation {late : ℕ} (hw : Watched late s) (hontime : OnTime late s.clock s.timers)
    (hready : s.escalationTimer.ready s.clock = true) : Watched late s.onEscalation := by
  obtain ⟨due, htimer, -⟩ := Timer.exists_of_ready hready
  have hclock : s.clock ≤ due + late := hontime.le (htimer ▸ List.mem_cons_of_mem _ List.mem_cons_self)
  have hclimbs := hw.climbs.onEscalation hready
  unfold KillLadder.onEscalation at hclimbs ⊢
  by_cases hset : s.settled = true
  · rw [if_pos hset] at hclimbs ⊢
    exact ⟨hclimbs, hw.lastOutput_le, hw.armed, hw.climbing, hw.first, hw.kill, hw.killChild⟩
  · rw [if_neg hset] at hclimbs ⊢
    have hterm : (sendBlow { s with escalationTimer := none } .kill).sent .term = s.sent .term :=
      sent_of_ne (by decide) _
    refine ⟨hclimbs, hw.lastOutput_le, fun hs hnil => ?_, fun hs hne => ?_, fun hs t₀ h => ?_,
      fun t₀ h x hx => ?_, fun t₀ h x hx => ?_⟩
    · exact hw.armed hs (hterm.symm.trans hnil)
    · exact hw.climbing hs fun hnil => hne (hterm.trans hnil)
    · exact hw.first hs t₀ (hterm ▸ h)
    · rw [hterm] at h
      rcases mem_sent_sendBlow hx with hx | ⟨-, rfl⟩
      · exact hw.kill t₀ h x hx
      · exact (hw.climbs.due_of_timer h).1 htimer ▸ hclock
    · rw [hterm] at h
      rcases mem_sent_sendBlow hx with hx | ⟨hb, -⟩
      · exact hw.killChild t₀ h x hx
      · exact nomatch hb

theorem Watched.onFinalKill {late : ℕ} (hw : Watched late s) (hontime : OnTime late s.clock s.timers)
    (hready : s.finalKillTimer.ready s.clock = true) : Watched late s.onFinalKill := by
  obtain ⟨due, htimer, -⟩ := Timer.exists_of_ready hready
  have hclock : s.clock ≤ due + late :=
    hontime.le (htimer ▸ List.mem_cons_of_mem _ (List.mem_cons_of_mem _ List.mem_cons_self))
  have hclimbs := hw.climbs.onFinalKill hready
  unfold KillLadder.onFinalKill at hclimbs ⊢
  by_cases hset : s.settled = true
  · rw [if_pos hset] at hclimbs ⊢
    exact ⟨hclimbs, hw.lastOutput_le, hw.armed, hw.climbing, hw.first, hw.kill, hw.killChild⟩
  · rw [if_neg hset] at hclimbs ⊢
    have hterm : (sendBlow { s with finalKillTimer := none } .killChild).sent .term = s.sent .term :=
      sent_of_ne (by decide) _
    refine ⟨hclimbs, hw.lastOutput_le, fun hs hnil => ?_, fun hs hne => ?_, fun hs t₀ h => ?_,
      fun t₀ h x hx => ?_, fun t₀ h x hx => ?_⟩
    · exact hw.armed hs (hterm.symm.trans hnil)
    · exact hw.climbing hs fun hnil => hne (hterm.trans hnil)
    · exact hw.first hs t₀ (hterm ▸ h)
    · rw [hterm] at h
      rcases mem_sent_sendBlow hx with hx | ⟨hb, -⟩
      · exact hw.kill t₀ h x hx
      · exact nomatch hb
    · rw [hterm] at h
      rcases mem_sent_sendBlow hx with hx | ⟨-, rfl⟩
      · exact hw.killChild t₀ h x hx
      · exact (hw.climbs.due_of_timer h).2 htimer ▸ hclock

theorem Watched.finish {late : ℕ} (hw : Watched late s) : Watched late s.finish := by
  have hclimbs := hw.climbs.finish
  unfold KillLadder.finish at hclimbs ⊢
  by_cases hset : s.settled = true
  · rw [if_pos hset]
    exact hw
  · rw [if_neg hset] at hclimbs ⊢
    exact ⟨hclimbs, hw.lastOutput_le, nofun, nofun, nofun, hw.kill, hw.killChild⟩

/-- **Every action** of a run on time keeps the process watched. -/
theorem Watched.step {late : ℕ} (hgrace : s.graceMs ≠ 0) (htimeout : s.timeoutMs ≠ 0) (hw : Watched late s)
    (hontime : OnTime late s.clock s.timers) (h : s.step a = some s') : Watched late s' := by
  cases a with
  | tick now =>
    simp only [KillLadder.step, Option.ite_none_right_eq_some, Option.some.injEq] at h
    obtain ⟨hle, rfl⟩ := h
    exact hw.alike ⟨rfl, rfl, rfl, rfl, rfl, rfl, hle⟩ rfl rfl rfl
  | output =>
    obtain rfl : s.output = s' := Option.some.inj h
    exact hw.output htimeout
  | abort =>
    simp only [KillLadder.step, Option.some.injEq] at h
    by_cases hl : s.listening = true
    · rw [if_pos hl] at h
      exact h ▸ hw.killTree hgrace hontime ⟨rfl, rfl, rfl, rfl, rfl, rfl, le_rfl⟩ ⟨rfl, rfl, rfl⟩
    · rw [if_neg hl] at h
      exact h ▸ hw
  | kill reason =>
    obtain rfl : s.kill reason = s' := Option.some.inj h
    cases reason with
    | timeout => exact hw.killTree hgrace hontime ⟨rfl, rfl, rfl, rfl, rfl, rfl, le_rfl⟩ ⟨rfl, rfl, rfl⟩
    | abort => exact hw.killTree hgrace hontime ⟨rfl, rfl, rfl, rfl, rfl, rfl, le_rfl⟩ ⟨rfl, rfl, rfl⟩
  | watchdogFires =>
    simp only [KillLadder.step, Option.ite_none_right_eq_some, Option.some.injEq] at h
    obtain ⟨-, rfl⟩ := h
    exact hw.killTree hgrace hontime ⟨rfl, rfl, rfl, rfl, rfl, rfl, le_rfl⟩ ⟨rfl, rfl, rfl⟩
  | escalationFires =>
    simp only [KillLadder.step, Option.ite_none_right_eq_some, Option.some.injEq] at h
    obtain ⟨hready, rfl⟩ := h
    exact hw.onEscalation hontime hready
  | finalKillFires =>
    simp only [KillLadder.step, Option.ite_none_right_eq_some, Option.some.injEq] at h
    obtain ⟨hready, rfl⟩ := h
    exact hw.onFinalKill hontime hready
  | finish =>
    obtain rfl : s.finish = s' := Option.some.inj h
    exact hw.finish

theorem timeoutMs_step (h : s.step a = some s') : s'.timeoutMs = s.timeoutMs := by
  cases a with
  | tick now =>
    simp only [step, Option.ite_none_right_eq_some, Option.some.injEq] at h
    obtain ⟨-, rfl⟩ := h
    rfl
  | output =>
    obtain rfl : s.output = s' := Option.some.inj h
    unfold output refreshWatchdog
    split
    · rfl
    · rfl
  | abort =>
    simp only [step, Option.some.injEq] at h
    by_cases hl : s.listening = true
    · rw [if_pos hl] at h
      exact h ▸ (killTree_keeps _).1
    · rw [if_neg hl] at h
      rw [h]
  | kill reason =>
    obtain rfl : s.kill reason = s' := Option.some.inj h
    cases reason with
    | timeout => exact (killTree_keeps _).1
    | abort => exact (killTree_keeps _).1
  | watchdogFires =>
    simp only [step, Option.ite_none_right_eq_some, Option.some.injEq] at h
    obtain ⟨-, rfl⟩ := h
    exact (killTree_keeps _).1
  | escalationFires =>
    simp only [step, Option.ite_none_right_eq_some, Option.some.injEq] at h
    obtain ⟨-, rfl⟩ := h
    unfold onEscalation
    dsimp only
    split
    · rfl
    · rfl
  | finalKillFires =>
    simp only [step, Option.ite_none_right_eq_some, Option.some.injEq] at h
    obtain ⟨-, rfl⟩ := h
    unfold onFinalKill
    dsimp only
    split
    · rfl
    · rfl
  | finish =>
    obtain rfl : s.finish = s' := Option.some.inj h
    unfold finish
    split
    · rfl
    · rfl

theorem watched_start {timeoutMs : ℕ} (htimeout : timeoutMs ≠ 0) (late graceMs now : ℕ) (signal : Bool) :
    Watched late (start timeoutMs graceMs now signal) := by
  have hgo : ¬ ((timeoutMs == 0 || false) = true) := by rwa [Bool.or_false, beq_iff_eq]
  have hclimbs := climbs_start timeoutMs graceMs now signal
  unfold start refreshWatchdog at hclimbs ⊢
  rw [if_neg hgo] at hclimbs ⊢
  exact ⟨hclimbs, le_rfl, fun _ _ => rfl, fun _ hne => absurd rfl hne, nofun, nofun, nofun⟩

/-- What is left of a rung on a living process: its timer still runs, or the blow was sent. -/
theorem Rung.waits {timer : Timer} {due : ℕ} (hr : s.Rung timer b due) (hset : s.settled = false) :
    timer = some due ∨ ∃ t, s.sent b = [t] := by
  rcases hr with ⟨h, -⟩ | ⟨-, -, h⟩ | ⟨-, t, h, -⟩
  · exact Or.inl h
  · exact absurd (hset.symm.trans h) Bool.false_ne_true
  · exact Or.inr ⟨t, h⟩

/-- **A hung process is killed in time.**  However output, aborts and `kill()` calls interleave with the timers, as
long as no timer runs more than `late` behind: a process that is still there some time after its last sign of life
has been sent `SIGTERM` within its timeout, `SIGKILL` one grace period later and the last `SIGKILL` after two. -/
theorem hung_is_killed (late timeoutMs graceMs now : ℕ) (signal : Bool) (as : List LadderAction) (s : KillLadder)
    (htimeout : timeoutMs ≠ 0) (hgrace : graceMs ≠ 0)
    (h : exec step (start timeoutMs graceMs now signal) as = some s)
    (hontime : Always step (fun s => OnTime late s.clock s.timers) (start timeoutMs graceMs now signal) as)
    (halive : s.settled = false) :
    (s.lastOutput + timeoutMs + late < s.clock →
      ∃ t₀, (s.sent .term).head? = some t₀ ∧ t₀ ≤ s.lastOutput + timeoutMs + late) ∧
    (s.lastOutput + timeoutMs + graceMs + late * 2 < s.clock →
      ∃ t, s.sent .kill = [t] ∧ t ≤ s.lastOutput + timeoutMs + graceMs + late * 2) ∧
    (s.lastOutput + timeoutMs + graceMs * 2 + late * 2 < s.clock →
      ∃ t, s.sent .killChild = [t] ∧ t ≤ s.lastOutput + timeoutMs + graceMs * 2 + late * 2) := by
  have hinv : (Watched late s ∧ s.graceMs = graceMs ∧ s.timeoutMs = timeoutMs) ∧ OnTime late s.clock s.timers := by
    refine exec_always (I := fun s => Watched late s ∧ s.graceMs = graceMs ∧ s.timeoutMs = timeoutMs) ?_ ?_ hontime h
    · rintro s a s' ⟨hw, hg, ht⟩ hon hstep
      refine ⟨hw.step (hg ▸ hgrace) (ht ▸ htimeout) hon hstep, (graceMs_step hstep).trans hg,
        (timeoutMs_step hstep).trans ht⟩
    · refine ⟨watched_start htimeout late graceMs now signal, (alike_refreshWatchdog _).graceMs, ?_⟩
      unfold start refreshWatchdog
      split
      · rfl
      · rfl
  obtain ⟨⟨hw, rfl, rfl⟩, hon⟩ := hinv
  have hterm : s.lastOutput + s.timeoutMs + late < s.clock →
      ∃ t₀, (s.sent .term).head? = some t₀ ∧ t₀ ≤ s.lastOutput + s.timeoutMs + late := by
    intro hlt
    cases hl : s.sent .term with
    | nil => exact absurd (hw.clock_le hon halive hl) (by omega)
    | cons t₀ l =>
      have hhead : (s.sent .term).head? = some t₀ := by rw [hl]; rfl
      exact ⟨t₀, rfl, hw.first halive t₀ hhead⟩
  have hrung : ∀ t₀, (s.sent .term).head? = some t₀ →
      s.Rung s.escalationTimer .kill (t₀ + s.graceMs) ∧ s.Rung s.finalKillTimer .killChild (t₀ + s.graceMs * 2) := by
    intro t₀ h₀
    have hne : s.sent .term ≠ [] := fun hnil => by
      rw [hnil] at h₀
      exact nomatch h₀
    obtain ⟨t₁, h₁, hr⟩ := hw.climbs.climbing (hw.climbing halive hne)
    rwa [Option.some.inj (h₀.symm.trans h₁)]
  refine ⟨hterm, fun hlt => ?_, fun hlt => ?_⟩
  · obtain ⟨t₀, h₀, hle⟩ := hterm (by omega)
    rcases (hrung t₀ h₀).1.waits halive with htimer | ⟨t, ht⟩
    · have : s.clock ≤ t₀ + s.graceMs + late := hon.le (htimer ▸ List.mem_cons_of_mem _ List.mem_cons_self)
      omega
    · have := hw.kill t₀ h₀ t (ht ▸ List.mem_singleton_self t)
      exact ⟨t, ht, by omega⟩
  · obtain ⟨t₀, h₀, hle⟩ := hterm (by omega)
    rcases (hrung t₀ h₀).2.waits halive with htimer | ⟨t, ht⟩
    · have : s.clock ≤ t₀ + s.graceMs * 2 + late :=
        hon.le (htimer ▸ List.mem_cons_of_mem _ (List.mem_cons_of_mem _ List.mem_cons_self))
      omega
    · have := hw.killChild t₀ h₀ t (ht ▸ List.mem_singleton_self t)
      exact ⟨t, ht, by omega⟩

/-- The same process when it survives everything. -/
def survivor : KillLadder :=
  { silentExit with
    clock := 230
    settled := false
    blows := [(100, .term), (152, .kill), (201, .killChild)] }

theorem hung_is_killed_survivor :
    survivor.lastOutput + 100 + 50 * 2 + 5 * 2 < survivor.clock ∧
      ∃ t, survivor.sent .killChild = [t] ∧ t ≤ survivor.lastOutput + 100 + 50 * 2 + 5 * 2 := by
  have hrun : exec step (start 100 50 0 false)
      [.tick 100, .watchdogFires, .tick 152, .escalationFires, .tick 201, .finalKillFires, .tick 230] =
      some survivor := by decide
  exact ⟨by decide, (hung_is_killed 5 100 50 0 false _ _ (by decide) (by decide) hrun (by decide) rfl).2.2 (by decide)⟩

end KillLadder

end AgyProxy
