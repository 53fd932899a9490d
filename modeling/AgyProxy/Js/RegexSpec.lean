import AgyProxy.Js.Regex
import Mathlib.Data.List.Infix

/-!
# AgyProxy.Js.RegexSpec — the first match of an expression

* `First r s t`: the first match of `r` at the start of `s` leaves `t`; one rule for each construct.
* `Never r s`: there is none.
* `exec_of_first`: the leftmost match, found behind a text where none starts.
* `boundaryFree`: an expression without `\b` matches alike whatever stands before; `exec_skip`.
-/

namespace AgyProxy.Js.Rx

/-- The first match at the start of `s` leaves `t`. -/
def First (r : Rx) (s t : JsString) : Prop := ∀ prev, ∃ q, (run r (prev, s)).head? = some q ∧ q.2 = t

/-- No match at the start of `s`. -/
def Never (r : Rx) (s : JsString) : Prop := ∀ prev, run r (prev, s) = []

section Rules

variable {a b r : Rx} {s t u : JsString}

theorem First.seq (ha : First a s t) (hb : First b t u) : First (seq a b) s u := by
  intro prev
  obtain ⟨q, hq, rfl⟩ := ha prev
  obtain ⟨q', hq', rfl⟩ := hb q.1
  refine ⟨q', ?_, rfl⟩
  obtain ⟨rest, hrun⟩ := List.head?_eq_some_iff.mp hq
  obtain ⟨rest', hrun'⟩ := List.head?_eq_some_iff.mp hq'
  show ((run a (prev, s)).flatMap (run b)).head? = some q'
  rw [hrun, List.flatMap_cons, hrun']
  rfl

theorem First.altLeft (ha : First a s t) : First (alt a b) s t := by
  intro prev
  obtain ⟨q, hq, rfl⟩ := ha prev
  obtain ⟨rest, hrun⟩ := List.head?_eq_some_iff.mp hq
  refine ⟨q, ?_, rfl⟩
  show (run a (prev, s) ++ run b (prev, s)).head? = some q
  rw [hrun]
  rfl

theorem First.altRight (ha : Never a s) (hb : First b s t) : First (alt a b) s t := by
  intro prev
  obtain ⟨q, hq, hqt⟩ := hb prev
  refine ⟨q, ?_, hqt⟩
  show (run a (prev, s) ++ run b (prev, s)).head? = some q
  rw [ha prev]
  exact hq

theorem First.opt (ha : First a s t) : First (opt a) s t := by
  intro prev
  obtain ⟨q, hq, rfl⟩ := ha prev
  obtain ⟨rest, hrun⟩ := List.head?_eq_some_iff.mp hq
  refine ⟨q, ?_, rfl⟩
  show (run a (prev, s) ++ [(prev, s)]).head? = some q
  rw [hrun]
  rfl

theorem First.optNone (ha : Never a s) : First (Rx.opt a) s s := by
  intro prev
  refine ⟨(prev, s), ?_, rfl⟩
  show (run a (prev, s) ++ [(prev, s)]).head? = some (prev, s)
  rw [ha prev]
  rfl

/-- A literal in any letter case. -/
theorem First.litI {w x : JsString} (hx : x.map upperUnit = w.map upperUnit) : First (litI w) (x ++ t) t := by
  intro prev
  have hlength : w.length = x.length := by
    have h := congrArg List.length hx
    rwa [List.length_map, List.length_map, eq_comm] at h
  refine ⟨advance w.length (prev, x ++ t), ?_, ?_⟩
  · have hprefix : (w.map upperUnit).isPrefixOf ((x ++ t).map upperUnit) = true := by
      rw [List.map_append, hx]
      exact List.isPrefixOf_iff_prefix.mpr (List.prefix_append _ _)
    rw [run, if_pos hprefix]
    rfl
  · show (x ++ t).drop w.length = t
    rw [hlength, List.drop_left]

/-- A greedy class takes all that it can. -/
theorem First.many {p : UInt16 → Bool} {least : ℕ} {x : JsString} (hx : ∀ c ∈ x, p c = true)
    (ht : ∀ c ∈ t.head?, p c = false) (hleast : least ≤ x.length) : First (many p least) (x ++ t) t := by
  have htake : (x ++ t).takeWhile p = x := by
    rw [List.takeWhile_append_of_pos hx]
    cases t with
    | nil => exact List.append_nil x
    | cons c t => rw [List.takeWhile_cons_of_neg (by rw [ht c rfl]; exact Bool.false_ne_true), List.append_nil]
  have hlast : [x.length].filter (least ≤ ·) = [x.length] := by
    rw [List.filter_singleton, decide_eq_true hleast]
    rfl
  intro prev
  refine ⟨advance x.length (prev, x ++ t), ?_, ?_⟩
  · show ((((List.range (((x ++ t).takeWhile p).length + 1)).filter (least ≤ ·)).reverse).map
      (advance · (prev, x ++ t))).head? = _
    rw [htake, List.range_succ, List.filter_append, hlast, List.reverse_append]
    rfl
  · exact List.drop_left

theorem Never.litI {w : JsString} (h : (w.map upperUnit).isPrefixOf (s.map upperUnit) = false) : Never (litI w) s := by
  intro prev
  show (if (w.map upperUnit).isPrefixOf (s.map upperUnit) then _ else _) = []
  rw [h]
  rfl

theorem Never.seq (ha : Never a s) : Never (Rx.seq a b) s := by
  intro prev
  show (run a (prev, s)).flatMap (run b) = []
  rw [ha prev]
  rfl

theorem Never.alt (ha : Never a s) (hb : Never b s) : Never (Rx.alt a b) s := by
  intro prev
  show run a (prev, s) ++ run b (prev, s) = []
  rw [ha prev, hb prev]
  rfl

end Rules

/-! ### The leftmost match -/

/-- No match starts inside `x`, in front of `s`. -/
def Skips (r : Rx) (x s : JsString) : Prop := ∀ k < x.length, Never r ((x ++ s).drop k)

section Search

variable {r : Rx} {x s t : JsString}

/-- **The leftmost match** is the first one behind a text that is skipped. -/
theorem execAt_of_first (hx : Skips r x s) (hs : First r s t) (hne : s ≠ []) (prev : Option UInt16) :
    ∃ m, execAt r prev (x ++ s) = some m ∧ m.matched = s.take (s.length - t.length) ∧ m.after = t := by
  induction x generalizing prev with
  | nil =>
    cases s with
    | nil => exact absurd rfl hne
    | cons c s =>
      obtain ⟨q, hq, rfl⟩ := hs prev
      refine ⟨⟨[], (c :: s).take ((c :: s).length - q.2.length), q.2⟩, ?_, rfl, rfl⟩
      rw [List.nil_append, execAt, hq]
  | cons c x ih =>
    have hnever : run r (prev, c :: (x ++ s)) = [] := hx 0 (Nat.zero_lt_succ _) prev
    obtain ⟨m, hm, hmatched, hafter⟩ := ih (fun k hk => hx (k + 1) (Nat.succ_lt_succ hk)) (some c)
    refine ⟨{ m with before := c :: m.before }, ?_, hmatched, hafter⟩
    rw [List.cons_append, execAt, hnever, List.head?_nil, hm]
    rfl

theorem exec_of_first (hx : Skips r x s) (hs : First r s t) (hne : s ≠ []) :
    ∃ m, exec r (x ++ s) = some m ∧ m.matched = s.take (s.length - t.length) ∧ m.after = t :=
  execAt_of_first hx hs hne none

/-- Behind a text that is skipped the search goes on. -/
theorem execAt_skip (hx : Skips r x s) (prev : Option UInt16) :
    ∃ prev', (execAt r prev (x ++ s)).map Match.after = (execAt r prev' s).map Match.after := by
  induction x generalizing prev with
  | nil => exact ⟨prev, rfl⟩
  | cons c x ih =>
    have hnever : run r (prev, c :: (x ++ s)) = [] := hx 0 (Nat.zero_lt_succ _) prev
    obtain ⟨prev', h⟩ := ih (fun k hk => hx (k + 1) (Nat.succ_lt_succ hk)) (some c)
    refine ⟨prev', ?_⟩
    rw [List.cons_append, execAt, hnever, List.head?_nil, Option.map_map]
    exact h

end Search

/-! ### Expressions without a word boundary -/

def boundaryFree : Rx → Bool
  | lit _ => true
  | litI _ => true
  | cls _ => true
  | many _ _ => true
  | seq a b => boundaryFree a && boundaryFree b
  | alt a b => boundaryFree a && boundaryFree b
  | opt a => boundaryFree a
  | wordBoundary => false
  | fail => true

/-- What the matches leave does not depend on what stands before. -/
theorem run_boundaryFree : ∀ (r : Rx), boundaryFree r = true → ∀ (s : JsString) (prev prev' : Option UInt16),
    (run r (prev, s)).map Prod.snd = (run r (prev', s)).map Prod.snd
  | lit w, _, s, prev, prev' => by
    rw [run, run]
    split <;> rfl
  | litI w, _, s, prev, prev' => by
    rw [run, run]
    split <;> rfl
  | cls p, _, s, prev, prev' => by
    rw [run, run]
    split <;> rfl
  | many p least, _, s, prev, prev' => by
    rw [run, run, List.map_map, List.map_map]
    rfl
  | seq a b, h, s, prev, prev' => by
    obtain ⟨ha, hb⟩ := Bool.and_eq_true_iff.mp h
    -- the ends of `b` after an end of `a` depend on what that end leaves
    have hends : ∀ ps : List Pos, (ps.flatMap (run b)).map Prod.snd =
        (ps.map Prod.snd).flatMap fun t => (run b (none, t)).map Prod.snd := by
      intro ps
      rw [List.map_flatMap, List.flatMap_map]
      exact congrArg (List.flatMap · ps) (funext fun q => run_boundaryFree b hb q.2 q.1 none)
    rw [run, run, hends, hends, run_boundaryFree a ha s prev prev']
  | alt a b, h, s, prev, prev' => by
    obtain ⟨ha, hb⟩ := Bool.and_eq_true_iff.mp h
    rw [run, run, List.map_append, List.map_append, run_boundaryFree a ha s prev prev',
      run_boundaryFree b hb s prev prev']
  | opt a, h, s, prev, prev' => by
    rw [run, run, List.map_append, List.map_append, run_boundaryFree a h s prev prev']
    rfl
  | fail, _, _, _, _ => rfl

theorem execAt_boundaryFree {r : Rx} (h : boundaryFree r = true) :
    ∀ (s : JsString) (prev prev' : Option UInt16),
      (execAt r prev s).map Match.after = (execAt r prev' s).map Match.after
  | [], prev, prev' => by
    have hrun := congrArg List.head? (run_boundaryFree r h [] prev prev')
    rw [List.head?_map, List.head?_map] at hrun
    rw [execAt, execAt, Option.map_map, Option.map_map]
    exact hrun
  | c :: s, prev, prev' => by
    have hrun := congrArg List.head? (run_boundaryFree r h (c :: s) prev prev')
    rw [List.head?_map, List.head?_map] at hrun
    rw [execAt, execAt]
    cases hq : (run r (prev, c :: s)).head? with
    | none =>
      rw [hq, Option.map_none, eq_comm, Option.map_eq_none_iff] at hrun
      rw [hrun]
    | some q =>
      rw [hq, Option.map_some, eq_comm, Option.map_eq_some_iff] at hrun
      obtain ⟨q', hq', hsnd⟩ := hrun
      rw [hq', Option.map_some, Option.map_some, hsnd]

/-- A text that is skipped does not change what the first match leaves. -/
theorem exec_skip {r : Rx} (h : boundaryFree r = true) {x s : JsString} (hx : Skips r x s) :
    (exec r (x ++ s)).map Match.after = (exec r s).map Match.after := by
  obtain ⟨prev, hskip⟩ := execAt_skip hx none
  exact hskip.trans (execAt_boundaryFree h s prev none)

end AgyProxy.Js.Rx
