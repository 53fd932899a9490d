import AgyProxy.Lib.Machine

/-!
# AgyProxy.Lib.SingleFlight — callers that share the flight of a latch

Callers of one program share a latch that holds the flight in progress.  A caller that runs returns, awaits
the flight it read from the latch, or starts a flight and latches it.  A flight that settles resumes its
waiters in the order they waited; the first is its starter, which releases the latch.

* `LatchProgram`, `FlightState`, `flightStep`: calls arrive when nothing is being resumed, a flight settles at
  any time, one waiter resumes at a time.
* `LatchProgram.Sound`: a caller that owes a full flight starts one when the latch is free and rides the
  latched one otherwise.
* `FlightInv.exec`: at most one flight runs, and a forced call returns only after a full flight that began
  after it (`Honoured`).
-/

namespace AgyProxy.Lib

/-- What a caller does when it runs. -/
inductive Turn (F R : Type)
  | ret (r : R)
  | ride (k : ℕ) (frame : F)
  | start (full : Bool) (frame : F)

/-- Calls `C` that wait at frames `F` and return `R`; a flight lands a payload `P` in the data `D` with an
outcome `O`. -/
structure LatchProgram (C F R D P O : Type) where
  enter : D → Option ℕ → C → Turn F R
  resume : D → Option ℕ → O → F → Turn F R
  release : ℕ → Option ℕ → Option ℕ
  land : D → P → D × O

/-- Calls and flights are named by the position of their first event. -/
inductive FlightEvent (C R : Type)
  | called (call : C)
  | began (full : Bool)
  | settled (k : ℕ)
  | returned (c : ℕ) (r : R)

structure Waiter (F : Type) where
  caller : ℕ
  flight : ℕ
  starter : Bool
  frame : F

structure FlightState (C F R D O : Type) where
  data : D
  latch : Option ℕ
  running : List ℕ
  landed : ℕ → Option O
  waiting : List (Waiter F)
  resuming : List (Waiter F × O)
  trace : List (FlightEvent C R)

inductive FlightAction (C P : Type)
  | call (c : C)
  | settle (k : ℕ) (payload : P)
  | resume

section SingleFlight

variable {C F R D P O : Type} (p : LatchProgram C F R D P O)

/-- Awaiting a flight that has settled resumes at once, behind what is already being resumed. -/
def FlightState.board (s : FlightState C F R D O) (w : Waiter F) : FlightState C F R D O :=
  match s.landed w.flight with
  | some o => { s with resuming := s.resuming ++ [(w, o)] }
  | none => { s with waiting := s.waiting ++ [w] }

def FlightState.take (s : FlightState C F R D O) (caller : ℕ) : Turn F R → FlightState C F R D O
  | .ret r => { s with trace := s.trace ++ [.returned caller r] }
  | .ride k frame => s.board ⟨caller, k, false, frame⟩
  | .start full frame =>
    { s with
      latch := some s.trace.length
      running := s.running ++ [s.trace.length]
      waiting := s.waiting ++ [⟨caller, s.trace.length, true, frame⟩]
      trace := s.trace ++ [.began full] }

/-- A call has arrived. -/
def FlightState.arrive (s : FlightState C F R D O) (c : C) : FlightState C F R D O :=
  { s with trace := s.trace ++ [.called c] }

/-- The first of the waiters is resumed; a starter releases the latch. -/
def FlightState.pop (s : FlightState C F R D O) (w : Waiter F) (rest : List (Waiter F × O)) : FlightState C F R D O :=
  { s with
    latch := if w.starter then p.release w.flight s.latch else s.latch
    resuming := rest }

/-- The flight has landed and its waiters are to be resumed. -/
def FlightState.settle (s : FlightState C F R D O) (k : ℕ) (landing : D × O) : FlightState C F R D O :=
  { s with
    data := landing.1
    running := s.running.erase k
    landed := fun f => if f = k then some landing.2 else s.landed f
    waiting := s.waiting.filter fun w => w.flight ≠ k
    resuming := s.resuming ++ (s.waiting.filter fun w => w.flight = k).map fun w => (w, landing.2)
    trace := s.trace ++ [.settled k] }

def flightStep (s : FlightState C F R D O) : FlightAction C P → Option (FlightState C F R D O)
  | .call c =>
    match s.resuming with
    | [] => some ((s.arrive c).take s.trace.length (p.enter s.data s.latch c))
    | _ :: _ => none
  | .settle k payload => if k ∈ s.running then some (s.settle k (p.land s.data payload)) else none
  | .resume =>
    match s.resuming with
    | [] => none
    | (w, o) :: rest =>
      let s' := s.pop p w rest
      some (s'.take w.caller (p.resume s'.data s'.latch o w.frame))

/-- Nothing has been called. -/
def FlightState.init (data : D) : FlightState C F R D O where
  data := data
  latch := none
  running := []
  landed := fun _ => none
  waiting := []
  resuming := []
  trace := []

/-! ### What the data sees -/

/-- What the flights landed, in order. -/
def payloads : List (FlightAction C P) → List P
  | [] => []
  | .settle _ payload :: as => payload :: payloads as
  | .call _ :: as => payloads as
  | .resume :: as => payloads as

variable {p} {s s' : FlightState C F R D O}

@[simp] theorem FlightState.data_take (caller : ℕ) (turn : Turn F R) : (s.take caller turn).data = s.data := by
  cases turn with
  | ret r => rfl
  | start full frame => rfl
  | ride k frame =>
    show (s.board ⟨caller, k, false, frame⟩).data = s.data
    unfold FlightState.board
    cases s.landed k with
    | none => rfl
    | some o => rfl

/-- What one step can be. -/
theorem flightStep_cases {a : FlightAction C P} (h : flightStep p s a = some s') :
    (∃ c, a = .call c ∧ s.resuming = [] ∧ s' = (s.arrive c).take s.trace.length (p.enter s.data s.latch c)) ∨
    (∃ k payload, a = .settle k payload ∧ k ∈ s.running ∧ s' = s.settle k (p.land s.data payload)) ∨
    ∃ w o rest, a = .resume ∧ s.resuming = (w, o) :: rest ∧
      s' = (s.pop p w rest).take w.caller (p.resume s.data (s.pop p w rest).latch o w.frame) := by
  cases a with
  | call c =>
    cases hresuming : s.resuming with
    | nil =>
      simp only [flightStep, hresuming, Option.some.injEq] at h
      exact Or.inl ⟨c, rfl, rfl, h.symm⟩
    | cons w rest =>
      simp only [flightStep, hresuming] at h
      exact nomatch h
  | settle k payload =>
    by_cases hrunning : k ∈ s.running
    · simp only [flightStep, if_pos hrunning, Option.some.injEq] at h
      exact Or.inr (Or.inl ⟨k, payload, rfl, hrunning, h.symm⟩)
    · simp only [flightStep, if_neg hrunning] at h
      exact nomatch h
  | resume =>
    cases hresuming : s.resuming with
    | nil =>
      simp only [flightStep, hresuming] at h
      exact nomatch h
    | cons head rest =>
      simp only [flightStep, hresuming, Option.some.injEq] at h
      exact Or.inr (Or.inr ⟨head.1, head.2, rest, rfl, rfl, h.symm⟩)

/-- **The data changes by the landings only.** -/
theorem data_of_exec : ∀ (as : List (FlightAction C P)) {s s' : FlightState C F R D O},
    exec (flightStep p) s as = some s' →
      s'.data = (payloads as).foldl (fun d payload => (p.land d payload).1) s.data
  | [], s, s', h => by
    obtain rfl : s = s' := Option.some.inj h
    rfl
  | a :: as, s, s', h => by
    obtain ⟨t, ht, h'⟩ := exec_cons h
    rw [data_of_exec as h']
    rcases flightStep_cases ht with ⟨c, rfl, -, rfl⟩ | ⟨k, payload, rfl, -, rfl⟩ | ⟨w, o, rest, rfl, -, rfl⟩
    · rw [FlightState.data_take]
      rfl
    · rfl
    · rw [FlightState.data_take]
      rfl

/-! ### Programs that keep their promise -/

variable (p) (force : C → Bool) (owes : F → Bool)

/-- A forced call owes a full flight: it starts one when the latch is free, and what it rides before does
not count.  No call starts a flight beside the latched one. -/
structure LatchProgram.Sound : Prop where
  enter_free : ∀ d c, (∃ r, p.enter d none c = .ret r ∧ force c = false) ∨
    ∃ full frame, p.enter d none c = .start full frame ∧ (force c = true → full = true)
  enter_latched : ∀ d k c, (∃ r, p.enter d (some k) c = .ret r ∧ force c = false) ∨
    ∃ frame, p.enter d (some k) c = .ride k frame ∧ (force c = true → owes frame = true)
  resume_quit : ∀ d latch o frame, owes frame = false → ∃ r, p.resume d latch o frame = .ret r
  resume_free : ∀ d o frame, owes frame = true → ∃ frame', p.resume d none o frame = .start true frame'
  resume_latched : ∀ d k o frame, owes frame = true → ∃ frame', p.resume d (some k) o frame = .ride k frame'
  release : ∀ k, p.release k (some k) = none

variable {p}

/-- **Honoured**: every return answers an earlier call, and a forced one returns only after a full flight that
began after the call has settled. -/
def Honoured (events : List (FlightEvent C R)) : Prop :=
  ∀ (i c : ℕ) (r : R), events[i]? = some (.returned c r) → ∃ call, events[c]? = some (.called call) ∧
    (force call = true → ∃ f j : ℕ, c < f ∧ f < j ∧ j < i ∧ events[f]? = some (.began true) ∧
      events[j]? = some (.settled f))

/-- The caller of a forced call. -/
def Forced (events : List (FlightEvent C R)) (c : ℕ) : Prop :=
  ∃ call, events[c]? = some (.called call) ∧ force call = true

/-- A full flight that began after the call. -/
def Serves (events : List (FlightEvent C R)) (k c : ℕ) : Prop := c < k ∧ events[k]? = some (.began true)

/-- A full flight that began after every call there is. -/
def ServesAll (events : List (FlightEvent C R)) (k : ℕ) : Prop :=
  events[k]? = some (.began true) ∧ ∀ (c : ℕ) call, events[c]? = some (.called call) → c < k

/-- What a waiter stands for: a call, and a flight that serves it when it owes none. -/
structure Vouched (events : List (FlightEvent C R)) (w : Waiter F) : Prop where
  called : ∃ call, events[w.caller]? = some (.called call)
  served : owes w.frame = false → Forced force events w.caller → Serves events w.flight w.caller

/-- The flights whose starters are to be resumed. -/
def FlightState.releasing (s : FlightState C F R D O) : List ℕ :=
  (s.resuming.filter fun x => x.1.starter).map fun x => x.1.flight

structure FlightInv (s : FlightState C F R D O) : Prop where
  /-- the latch holds the running flight, or the one whose starter is about to release it -/
  latched : s.releasing ++ s.running = s.latch.toList
  aboard : ∀ w ∈ s.waiting, w.flight ∈ s.running
  /-- the starter waits first -/
  starter : ∀ k ∈ s.running, ∃ w rest, s.waiting = w :: rest ∧ w.starter = true ∧ ∀ x ∈ rest, x.starter = false
  flying : ∀ k ∈ s.running, k < s.trace.length ∧ s.landed k = none
  settled : ∀ k o, s.landed k = some o → ∃ j, k < j ∧ s.trace[j]? = some (.settled k)
  resumed : ∀ x ∈ s.resuming, s.landed x.1.flight = some x.2
  vouched : ∀ w, w ∈ s.waiting ∨ w ∈ s.resuming.map Prod.fst → Vouched force owes s.trace w
  /-- a flight latched while waiters are resumed, unless it is about to be released, serves them all -/
  fresh : ∀ x rest, s.resuming = x :: rest → x.1.starter = false → ∀ k, s.latch = some k → ServesAll s.trace k
  honoured : Honoured force s.trace

variable {force} {owes}

/-! ### A longer trace -/

theorem getElem?_concat_stays {α : Type} {l : List α} {k : ℕ} {e x : α} (h : l[k]? = some e) :
    (l ++ [x])[k]? = some e := by
  obtain ⟨hlt, -⟩ := List.getElem?_eq_some_iff.mp h
  rw [List.getElem?_append_left hlt, h]

/-- What is new is the last event. -/
theorem getElem?_concat_cases {α : Type} {l : List α} {k : ℕ} {e x : α} (h : (l ++ [x])[k]? = some e) :
    l[k]? = some e ∨ k = l.length ∧ e = x := by
  rcases Nat.lt_or_ge k l.length with hlt | hge
  · rw [List.getElem?_append_left hlt] at h
    exact Or.inl h
  · obtain ⟨hlt, -⟩ := List.getElem?_eq_some_iff.mp h
    rw [List.length_append, List.length_singleton] at hlt
    obtain rfl : k = l.length := by omega
    rw [List.getElem?_concat_length] at h
    exact Or.inr ⟨rfl, (Option.some.inj h).symm⟩

theorem lt_of_getElem? {α : Type} {l : List α} {k : ℕ} {e : α} (h : l[k]? = some e) : k < l.length :=
  (List.getElem?_eq_some_iff.mp h).1

variable {events : List (FlightEvent C R)} {e : FlightEvent C R} {c k : ℕ} {w : Waiter F}

theorem Honoured.concat (h : Honoured force events)
    (he : ∀ c r, e = .returned c r → ∃ call, events[c]? = some (.called call) ∧
      (force call = true → ∃ f j : ℕ, c < f ∧ f < j ∧ events[f]? = some (.began true) ∧
        events[j]? = some (.settled f))) : Honoured force (events ++ [e]) := by
  intro i c r hi
  rcases getElem?_concat_cases hi with hi | ⟨rfl, hr⟩
  · obtain ⟨call, hcall, hserved⟩ := h i c r hi
    refine ⟨call, getElem?_concat_stays hcall, fun hforce => ?_⟩
    obtain ⟨f, j, hcf, hfj, hji, hf, hj⟩ := hserved hforce
    exact ⟨f, j, hcf, hfj, hji, getElem?_concat_stays hf, getElem?_concat_stays hj⟩
  · obtain ⟨call, hcall, hserved⟩ := he c r hr.symm
    refine ⟨call, getElem?_concat_stays hcall, fun hforce => ?_⟩
    obtain ⟨f, j, hcf, hfj, hf, hj⟩ := hserved hforce
    exact ⟨f, j, hcf, hfj, lt_of_getElem? hj, getElem?_concat_stays hf, getElem?_concat_stays hj⟩

/-- Whether an earlier call is forced is settled when it arrives. -/
theorem Forced.of_concat (hcalled : ∃ call, events[c]? = some (.called call)) (h : Forced force (events ++ [e]) c) :
    Forced force events c := by
  obtain ⟨call, hcall⟩ := hcalled
  obtain ⟨call', hcall', hforce⟩ := h
  rw [getElem?_concat_stays hcall] at hcall'
  obtain ⟨⟩ := hcall'
  exact ⟨call, hcall, hforce⟩

theorem Serves.concat (h : Serves events k c) : Serves (events ++ [e]) k c :=
  ⟨h.1, getElem?_concat_stays h.2⟩

theorem ServesAll.concat (he : ∀ call, e ≠ .called call) (h : ServesAll events k) : ServesAll (events ++ [e]) k := by
  refine ⟨getElem?_concat_stays h.1, fun c call hcall => ?_⟩
  rcases getElem?_concat_cases hcall with hcall | ⟨-, hcall⟩
  · exact h.2 c call hcall
  · exact absurd hcall.symm (he call)

theorem Vouched.concat (h : Vouched force owes events w) : Vouched force owes (events ++ [e]) w := by
  obtain ⟨call, hcall⟩ := h.called
  refine ⟨⟨call, getElem?_concat_stays hcall⟩, fun howes hforced => ?_⟩
  exact (h.served howes (hforced.of_concat h.called)).concat

/-! ### What one step preserves -/

namespace FlightInv

theorem init (data : D) : FlightInv force owes (FlightState.init data : FlightState C F R D O) where
  latched := rfl
  aboard := fun _ hw => absurd hw List.not_mem_nil
  starter := fun _ hk => absurd hk List.not_mem_nil
  flying := fun _ hk => absurd hk List.not_mem_nil
  settled := fun _ _ h => nomatch h
  resumed := fun _ hx => absurd hx List.not_mem_nil
  vouched := fun _ hw => absurd hw (by rintro (hw | hw) <;> exact List.not_mem_nil hw)
  fresh := fun _ _ h => nomatch h
  honoured := fun _ _ _ h => nomatch h

variable (hI : FlightInv force owes s)

include hI

/-- The running flight is the latched one. -/
theorem running_le_one : s.running.length ≤ 1 := by
  have hlength := congrArg List.length hI.latched
  rw [List.length_append] at hlength
  have hlatch : s.latch.toList.length ≤ 1 := by
    cases s.latch with
    | none => exact Nat.zero_le 1
    | some k => exact Nat.le_refl 1
  omega

theorem of_running (hk : k ∈ s.running) : s.releasing = [] ∧ s.running = [k] ∧ s.latch = some k := by
  have hlatched := hI.latched
  cases hlatch : s.latch with
  | none =>
    rw [hlatch] at hlatched
    have hnone := (List.append_eq_nil_iff.mp hlatched).2
    rw [hnone] at hk
    exact absurd hk List.not_mem_nil
  | some k' =>
    rw [hlatch] at hlatched
    rcases List.append_eq_singleton_iff.mp hlatched with ⟨hreleasing, hrunning⟩ | ⟨-, hrunning⟩
    · rw [hrunning] at hk
      obtain rfl := List.mem_singleton.mp hk
      exact ⟨hreleasing, hrunning, rfl⟩
    · rw [hrunning] at hk
      exact absurd hk List.not_mem_nil

theorem of_free (hlatch : s.latch = none) : s.releasing = [] ∧ s.running = [] ∧ s.waiting = [] := by
  have hlatched := hI.latched
  rw [hlatch] at hlatched
  obtain ⟨hreleasing, hrunning⟩ := List.append_eq_nil_iff.mp hlatched
  refine ⟨hreleasing, hrunning, List.eq_nil_iff_forall_not_mem.mpr fun w hw => ?_⟩
  have hflight := hI.aboard w hw
  rw [hrunning] at hflight
  exact List.not_mem_nil hflight

/-- A latched flight that no longer runs is about to be released. -/
theorem of_latched (hlatch : s.latch = some k) (hk : k ∉ s.running) :
    ∃ x ∈ s.resuming, x.1.starter = true ∧ x.1.flight = k := by
  have hlatched := hI.latched
  rw [hlatch] at hlatched
  rcases List.append_eq_singleton_iff.mp hlatched with ⟨-, hrunning⟩ | ⟨hreleasing, -⟩
  · exact absurd (hrunning ▸ List.mem_singleton_self k) hk
  · have hmem : k ∈ s.releasing := hreleasing ▸ List.mem_singleton_self k
    obtain ⟨x, hx, hflight⟩ := List.mem_map.mp hmem
    obtain ⟨hx, hstarter⟩ := List.mem_filter.mp hx
    exact ⟨x, hx, hstarter, hflight⟩

/-- What holds of the flights holds over a longer trace. -/
theorem flying_concat (e : FlightEvent C R) : ∀ k ∈ s.running, k < (s.trace ++ [e]).length ∧ s.landed k = none := by
  intro k hk
  rw [List.length_append]
  exact ⟨Nat.lt_add_right 1 (hI.flying k hk).1, (hI.flying k hk).2⟩

theorem settled_concat (e : FlightEvent C R) :
    ∀ k o, s.landed k = some o → ∃ j, k < j ∧ (s.trace ++ [e])[j]? = some (.settled k) := by
  intro k o ho
  obtain ⟨j, hkj, hj⟩ := hI.settled k o ho
  exact ⟨j, hkj, getElem?_concat_stays hj⟩

/-- A call arrives when nothing is being resumed. -/
theorem arrive (hresuming : s.resuming = []) (call : C) : FlightInv force owes (s.arrive call) where
  latched := hI.latched
  aboard := hI.aboard
  starter := hI.starter
  flying := hI.flying_concat _
  settled := hI.settled_concat _
  resumed := hI.resumed
  vouched w hw := (hI.vouched w hw).concat
  fresh x rest hx := by
    have hx' : s.resuming = x :: rest := hx
    rw [hresuming] at hx'
    exact nomatch hx'
  honoured := hI.honoured.concat fun c r h => nomatch h

/-- The latch a waiter finds when it is resumed is free, or holds a flight that serves everyone. -/
theorem serves_of_pop (hrelease : ∀ k, p.release k (some k) = none) {x : Waiter F × O} {rest : List (Waiter F × O)}
    (hresuming : s.resuming = x :: rest) : ∀ k, (s.pop p x.1 rest).latch = some k → ServesAll s.trace k := by
  intro k hk
  have hlatch : (if x.1.starter then p.release x.1.flight s.latch else s.latch) = some k := hk
  cases hstarter : x.1.starter with
  | false =>
    rw [hstarter, if_neg Bool.false_ne_true] at hlatch
    exact hI.fresh x rest hresuming hstarter k hlatch
  | true =>
    -- the starter's own flight is the latched one, and it goes
    have hreleasing : x.1.flight ∈ s.releasing := by
      refine List.mem_map.mpr ⟨x, List.mem_filter.mpr ⟨?_, hstarter⟩, rfl⟩
      rw [hresuming]
      exact List.mem_cons_self
    have hflight : x.1.flight ∈ s.latch.toList := hI.latched ▸ List.mem_append_left _ hreleasing
    rw [Option.mem_toList.mp hflight, hstarter, if_pos rfl, hrelease] at hlatch
    exact nomatch hlatch

theorem pop (hrelease : ∀ k, p.release k (some k) = none) {x : Waiter F × O} {rest : List (Waiter F × O)}
    (hresuming : s.resuming = x :: rest) : FlightInv force owes (s.pop p x.1 rest) where
  latched := by
    have hlatched := hI.latched
    show ((rest.filter fun x => x.1.starter).map fun x => x.1.flight) ++ s.running =
      (if x.1.starter then p.release x.1.flight s.latch else s.latch).toList
    unfold FlightState.releasing at hlatched
    rw [hresuming] at hlatched
    cases hstarter : x.1.starter with
    | false =>
      have hskip : (x :: rest).filter (fun x => x.1.starter) = rest.filter fun x => x.1.starter :=
        List.filter_cons_of_neg (by rw [hstarter]; exact Bool.false_ne_true)
      rw [hskip] at hlatched
      rw [if_neg Bool.false_ne_true]
      exact hlatched
    | true =>
      have htake : (x :: rest).filter (fun x => x.1.starter) = x :: rest.filter fun x => x.1.starter :=
        List.filter_cons_of_pos hstarter
      rw [htake, List.map_cons, List.cons_append] at hlatched
      cases hlatch : s.latch with
      | none =>
        rw [hlatch] at hlatched
        exact nomatch hlatched
      | some k =>
        rw [hlatch] at hlatched
        obtain ⟨hk, hrest⟩ := List.cons.inj hlatched
        rw [if_pos rfl, hk, hrelease]
        exact hrest
  aboard := hI.aboard
  starter := hI.starter
  flying := hI.flying
  settled := hI.settled
  resumed y hy := hI.resumed y (by rw [hresuming]; exact List.mem_cons_of_mem x hy)
  vouched w hw := by
    have hw' : w ∈ s.waiting ∨ w ∈ s.resuming.map Prod.fst := by
      rcases hw with hw | hw
      · exact Or.inl hw
      · refine Or.inr ?_
        rw [hresuming]
        exact List.mem_cons_of_mem x.1 hw
    exact hI.vouched w hw'
  fresh y rest' hy hstarter k hk := hI.serves_of_pop hrelease hresuming k hk
  honoured := hI.honoured

/-- A caller returns. -/
theorem ret {r : R} (hcalled : ∃ call, s.trace[c]? = some (.called call))
    (hserved : Forced force s.trace c → ∃ f o, s.landed f = some o ∧ Serves s.trace f c) :
    FlightInv force owes (s.take c (.ret r)) where
  latched := hI.latched
  aboard := hI.aboard
  starter := hI.starter
  flying := hI.flying_concat _
  settled := hI.settled_concat _
  resumed := hI.resumed
  vouched w hw := (hI.vouched w hw).concat
  fresh x rest hx hstarter k hk := (hI.fresh x rest hx hstarter k hk).concat fun call h => nomatch h
  honoured := hI.honoured.concat fun c' r' h => by
    obtain ⟨⟩ := h
    obtain ⟨call, hcall⟩ := hcalled
    refine ⟨call, hcall, fun hforce => ?_⟩
    obtain ⟨f, o, hlanded, hcf, hf⟩ := hserved ⟨call, hcall, hforce⟩
    obtain ⟨j, hfj, hj⟩ := hI.settled f o hlanded
    exact ⟨f, j, hcf, hfj, hf, hj⟩

/-- A waiter of a running flight waits behind its starter. -/
theorem wait (hflight : w.flight ∈ s.running) (hstarter : w.starter = false) (hw : Vouched force owes s.trace w) :
    FlightInv force owes { s with waiting := s.waiting ++ [w] } := by
  refine ⟨hI.latched, ?_, ?_, hI.flying, hI.settled, hI.resumed, ?_, hI.fresh, hI.honoured⟩
  · intro x hx
    rcases List.mem_append.mp hx with hx | hx
    · exact hI.aboard x hx
    · rw [List.mem_singleton.mp hx]
      exact hflight
  · intro k hk
    obtain ⟨first, rest, hwaiting, hfirst, hrest⟩ := hI.starter k hk
    refine ⟨first, rest ++ [w], ?_, hfirst, fun x hx => ?_⟩
    · show s.waiting ++ [w] = _
      rw [hwaiting, List.cons_append]
    · rcases List.mem_append.mp hx with hx | hx
      · exact hrest x hx
      · rw [List.mem_singleton.mp hx]
        exact hstarter
  · intro x hx
    rcases hx with hx | hx
    · rcases List.mem_append.mp hx with hx | hx
      · exact hI.vouched x (Or.inl hx)
      · rw [List.mem_singleton.mp hx]
        exact hw
    · exact hI.vouched x (Or.inr hx)

/-- A waiter of a landed flight is queued behind what is being resumed. -/
theorem queue {o : O} (hne : s.resuming ≠ []) (hlanded : s.landed w.flight = some o) (hstarter : w.starter = false)
    (hw : Vouched force owes s.trace w) : FlightInv force owes { s with resuming := s.resuming ++ [(w, o)] } := by
  obtain ⟨x, rest, hresuming⟩ := List.exists_cons_of_ne_nil hne
  refine ⟨?_, hI.aboard, hI.starter, hI.flying, hI.settled, ?_, ?_, ?_, hI.honoured⟩
  · have hstarters : (s.resuming ++ [(w, o)]).filter (fun x => x.1.starter) =
        s.resuming.filter fun x => x.1.starter := by
      have hnone : [(w, o)].filter (fun x => x.1.starter) = [] :=
        List.filter_cons_of_neg (by rw [hstarter]; exact Bool.false_ne_true)
      rw [List.filter_append, hnone, List.append_nil]
    show ((s.resuming ++ [(w, o)]).filter fun x => x.1.starter).map (fun x => x.1.flight) ++ s.running = s.latch.toList
    rw [hstarters]
    exact hI.latched
  · intro y hy
    rcases List.mem_append.mp hy with hy | hy
    · exact hI.resumed y hy
    · rw [List.mem_singleton.mp hy]
      exact hlanded
  · intro y hy
    rcases hy with hy | hy
    · exact hI.vouched y (Or.inl hy)
    · rw [List.map_append] at hy
      rcases List.mem_append.mp hy with hy | hy
      · exact hI.vouched y (Or.inr hy)
      · rw [List.mem_singleton.mp hy]
        exact hw
  · intro y rest' hy hystarter k hk
    have hy' : s.resuming ++ [(w, o)] = y :: rest' := hy
    rw [hresuming, List.cons_append] at hy'
    obtain ⟨rfl, -⟩ := List.cons.inj hy'
    exact hI.fresh x rest hresuming hystarter k hk

/-- A caller awaits the latched flight. -/
theorem ride {frame : F} (hlatch : s.latch = some k) (hcalled : ∃ call, s.trace[c]? = some (.called call))
    (hserved : owes frame = false → Forced force s.trace c → Serves s.trace k c) :
    FlightInv force owes (s.take c (.ride k frame)) := by
  have hw : Vouched force owes s.trace ⟨c, k, false, frame⟩ := ⟨hcalled, hserved⟩
  show FlightInv force owes (s.board ⟨c, k, false, frame⟩)
  unfold FlightState.board
  cases hlanded : s.landed k with
  | none =>
    -- a flight that has not landed is running
    have hk : k ∈ s.running := by
      by_contra hk
      obtain ⟨x, hx, -, rfl⟩ := hI.of_latched hlatch hk
      exact nomatch hlanded.symm.trans (hI.resumed x hx)
    exact hI.wait hk rfl hw
  | some o =>
    -- the starter of a landed flight is still to be resumed
    have hk : k ∉ s.running := fun hk => nomatch hlanded.symm.trans (hI.flying k hk).2
    obtain ⟨x, hx, -, -⟩ := hI.of_latched hlatch hk
    exact hI.queue (List.ne_nil_of_mem hx) hlanded rfl hw

/-- A flight that is yet to begin has not landed. -/
theorem landed_length : s.landed s.trace.length = none := by
  cases hlanded : s.landed s.trace.length with
  | none => rfl
  | some o =>
    obtain ⟨j, hj, hevent⟩ := hI.settled _ o hlanded
    exact absurd (lt_of_getElem? hevent) (Nat.lt_asymm hj)

/-- A caller that finds the latch free starts a flight. -/
theorem start {full : Bool} {frame : F} (hlatch : s.latch = none)
    (hcalled : ∃ call, s.trace[c]? = some (.called call)) (hforced : Forced force s.trace c → full = true)
    (hfull : s.resuming ≠ [] → full = true) :
    FlightInv force owes (s.take c (.start full frame)) := by
  obtain ⟨hreleasing, hrunning, hwaiting⟩ := hI.of_free hlatch
  have hbegan : (s.trace ++ [.began full])[s.trace.length]? = some (.began full) := List.getElem?_concat_length ..
  have hcalls : ∀ c' call, s.trace[c']? = some (.called call) → c' < s.trace.length := fun _ _ h => lt_of_getElem? h
  refine ⟨?_, ?_, ?_, ?_, ?_, hI.resumed, ?_, ?_, hI.honoured.concat fun _ _ h => nomatch h⟩
  · show s.releasing ++ (s.running ++ [s.trace.length]) = [s.trace.length]
    rw [hreleasing, hrunning]
    rfl
  · intro w hw
    have hw' : w ∈ s.waiting ++ [⟨c, s.trace.length, true, frame⟩] := hw
    rw [hwaiting] at hw'
    rw [List.mem_singleton.mp hw']
    exact List.mem_append_right _ (List.mem_singleton_self _)
  · intro f hf
    refine ⟨⟨c, s.trace.length, true, frame⟩, [], ?_, rfl, fun x hx => absurd hx List.not_mem_nil⟩
    show s.waiting ++ [_] = _
    rw [hwaiting]
    rfl
  · intro f hf
    have hf' : f ∈ s.running ++ [s.trace.length] := hf
    rw [hrunning] at hf'
    obtain rfl := List.mem_singleton.mp hf'
    refine ⟨?_, ?_⟩
    · show s.trace.length < (s.trace ++ [_]).length
      rw [List.length_append]
      exact Nat.lt_succ_self _
    · exact hI.landed_length
  · exact hI.settled_concat _
  · intro w hw
    rcases hw with hw | hw
    · have hw' : w ∈ s.waiting ++ [⟨c, s.trace.length, true, frame⟩] := hw
      rw [hwaiting] at hw'
      rw [List.mem_singleton.mp hw']
      obtain ⟨call, hcall⟩ := hcalled
      refine ⟨⟨call, getElem?_concat_stays hcall⟩, fun _ h => ⟨hcalls c call hcall, ?_⟩⟩
      have hfulltrue := hforced (h.of_concat ⟨call, hcall⟩)
      rw [hfulltrue] at hbegan ⊢
      exact hbegan
    · exact (hI.vouched w (Or.inr hw)).concat
  · intro x rest hx hstarter f hf
    obtain rfl : s.trace.length = f := Option.some.inj hf
    have hx' : s.resuming = x :: rest := hx
    have hfulltrue := hfull (by rw [hx']; exact List.cons_ne_nil x rest)
    rw [hfulltrue] at hbegan ⊢
    refine ⟨hbegan, fun c' call hcall => ?_⟩
    rcases getElem?_concat_cases hcall with hcall | ⟨-, hcall⟩
    · exact hcalls c' call hcall
    · exact nomatch hcall

/-- The waiters of the running flight are all there are. -/
theorem flight_of_waiting (hk : k ∈ s.running) : ∀ w ∈ s.waiting, w.flight = k := by
  intro w hw
  have hflight := hI.aboard w hw
  rw [(hI.of_running hk).2.1] at hflight
  exact List.mem_singleton.mp hflight

theorem settle_eq (hk : k ∈ s.running) (landing : D × O) : s.settle k landing =
    { s with
      data := landing.1
      running := []
      landed := fun f => if f = k then some landing.2 else s.landed f
      waiting := []
      resuming := s.resuming ++ s.waiting.map fun w => (w, landing.2)
      trace := s.trace ++ [.settled k] } := by
  have hflight := hI.flight_of_waiting hk
  have hmine : (s.waiting.filter fun w => w.flight = k) = s.waiting :=
    List.filter_eq_self.mpr fun w hw => decide_eq_true (hflight w hw)
  have hothers : (s.waiting.filter fun w => w.flight ≠ k) = [] :=
    List.filter_eq_nil_iff.mpr fun w hw h => of_decide_eq_true h (hflight w hw)
  unfold FlightState.settle
  rw [hmine, hothers, (hI.of_running hk).2.1, List.erase_cons_head]

omit hI in
/-- Of the waiters that are queued only the first is a starter. -/
theorem starters_of_waiting {first : Waiter F} {rest : List (Waiter F)} (o : O) (hfirst : first.starter = true)
    (hrest : ∀ x ∈ rest, x.starter = false) :
    (((first :: rest).map fun w => (w, o)).filter fun x => x.1.starter) = [(first, o)] := by
  have hnone : ((rest.map fun w => (w, o)).filter fun x => x.1.starter) = [] := by
    refine List.filter_eq_nil_iff.mpr fun x hx => ?_
    obtain ⟨y, hy, rfl⟩ := List.mem_map.mp hx
    rw [hrest y hy]
    exact Bool.false_ne_true
  rw [List.map_cons, ← hnone]
  exact List.filter_cons_of_pos hfirst

/-- A flight settles and its waiters are queued, the starter first. -/
theorem settle (hk : k ∈ s.running) (landing : D × O) : FlightInv force owes (s.settle k landing) := by
  obtain ⟨hreleasing, -, hlatch⟩ := hI.of_running hk
  obtain ⟨w, rest, hwaiting, hstarter, hrest⟩ := hI.starter k hk
  have hflight := hI.flight_of_waiting hk
  rw [hI.settle_eq hk landing]
  refine ⟨?_, ?_, ?_, ?_, ?_, ?_, ?_, ?_, hI.honoured.concat fun _ _ h => nomatch h⟩
  · show ((s.resuming ++ s.waiting.map fun x => (x, landing.2)).filter fun x => x.1.starter).map
      (fun x => x.1.flight) ++ [] = s.latch.toList
    rw [List.filter_append, List.map_append, hwaiting, starters_of_waiting landing.2 hstarter hrest, hlatch,
      List.append_nil]
    show s.releasing ++ [w.flight] = [k]
    rw [hreleasing, hflight w (hwaiting ▸ List.mem_cons_self)]
    rfl
  · exact fun _ hx => absurd hx List.not_mem_nil
  · exact fun _ hf => absurd hf List.not_mem_nil
  · exact fun _ hf => absurd hf List.not_mem_nil
  · intro f o ho
    by_cases hf : f = k
    · subst hf
      exact ⟨s.trace.length, (hI.flying f hk).1, List.getElem?_concat_length ..⟩
    · have ho' : (if f = k then some landing.2 else s.landed f) = some o := ho
      rw [if_neg hf] at ho'
      exact hI.settled_concat _ f o ho'
  · intro x hx
    show (if x.1.flight = k then some landing.2 else s.landed x.1.flight) = some x.2
    rcases List.mem_append.mp hx with hx | hx
    · have hne : x.1.flight ≠ k := by
        intro h
        have hlanded := hI.resumed x hx
        rw [h, (hI.flying k hk).2] at hlanded
        exact nomatch hlanded
      rw [if_neg hne]
      exact hI.resumed x hx
    · obtain ⟨y, hy, rfl⟩ := List.mem_map.mp hx
      rw [if_pos (hflight y hy)]
  · intro x hx
    have hx' : x ∈ s.waiting ∨ x ∈ s.resuming.map Prod.fst := by
      rcases hx with hx | hx
      · exact absurd hx List.not_mem_nil
      · obtain ⟨y, hy, rfl⟩ := List.mem_map.mp hx
        rcases List.mem_append.mp hy with hy | hy
        · exact Or.inr (List.mem_map_of_mem hy)
        · obtain ⟨z, hz, rfl⟩ := List.mem_map.mp hy
          exact Or.inl hz
    exact (hI.vouched x hx').concat
  · intro x rest' hx hxstarter f hf
    have hx' : s.resuming ++ (s.waiting.map fun x => (x, landing.2)) = x :: rest' := hx
    cases hresuming : s.resuming with
    | nil =>
      rw [hresuming, hwaiting, List.nil_append, List.map_cons] at hx'
      rw [← (List.cons.inj hx').1] at hxstarter
      exact nomatch hstarter.symm.trans hxstarter
    | cons y tail =>
      rw [hresuming, List.cons_append] at hx'
      obtain ⟨rfl, -⟩ := List.cons.inj hx'
      exact (hI.fresh y tail hresuming hxstarter f hf).concat fun call h => nomatch h

/-- **One step** of a sound program. -/
theorem step (hp : p.Sound force owes) {a : FlightAction C P} (h : flightStep p s a = some s') :
    FlightInv force owes s' := by
  rcases flightStep_cases h with
    ⟨c, rfl, hresuming, rfl⟩ | ⟨k, payload, rfl, hk, rfl⟩ | ⟨w, o, rest, rfl, hresuming, rfl⟩
  · have hI' := hI.arrive hresuming c
    have hevent : (s.arrive c).trace[s.trace.length]? = some (.called c) := List.getElem?_concat_length ..
    have hforce : Forced force (s.arrive c).trace s.trace.length → force c = true := by
      rintro ⟨call, hcall, hforce⟩
      rw [hevent] at hcall
      obtain ⟨⟩ := hcall
      exact hforce
    cases hlatch : s.latch with
    | none =>
      rcases hp.enter_free s.data c with ⟨r, hturn, hno⟩ | ⟨full, frame, hturn, hfull⟩
      · rw [hturn]
        exact hI'.ret ⟨c, hevent⟩ fun hforced => nomatch (hforce hforced).symm.trans hno
      · rw [hturn]
        exact hI'.start hlatch ⟨c, hevent⟩ (fun hforced => hfull (hforce hforced)) fun hne => absurd hresuming hne
    | some k =>
      rcases hp.enter_latched s.data k c with ⟨r, hturn, hno⟩ | ⟨frame, hturn, howes⟩
      · rw [hturn]
        exact hI'.ret ⟨c, hevent⟩ fun hforced => nomatch (hforce hforced).symm.trans hno
      · rw [hturn]
        exact hI'.ride hlatch ⟨c, hevent⟩ fun hquit hforced => nomatch (howes (hforce hforced)).symm.trans hquit
  · exact hI.settle hk (p.land s.data payload)
  · have hI' := hI.pop hp.release hresuming
    have hx : (w, o) ∈ s.resuming := hresuming ▸ List.mem_cons_self
    have hw := hI.vouched w (Or.inr (List.mem_map.mpr ⟨(w, o), hx, rfl⟩))
    cases howes : owes w.frame with
    | false =>
      obtain ⟨r, hturn⟩ := hp.resume_quit s.data (s.pop p w rest).latch o w.frame howes
      rw [hturn]
      exact hI'.ret hw.called fun hforced => ⟨w.flight, o, hI.resumed (w, o) hx, hw.served howes hforced⟩
    | true =>
      cases hlatch : (s.pop p w rest).latch with
      | none =>
        obtain ⟨frame', hturn⟩ := hp.resume_free s.data o w.frame howes
        rw [hturn]
        exact hI'.start hlatch hw.called (fun _ => rfl) fun _ => rfl
      | some k =>
        obtain ⟨frame', hturn⟩ := hp.resume_latched s.data k o w.frame howes
        rw [hturn]
        -- the flight it finds was started by another waiter of this resumption
        refine hI'.ride hlatch hw.called fun _ hforced => ?_
        obtain ⟨call, hcall, -⟩ := hforced
        have hserves := hI.serves_of_pop hp.release hresuming k hlatch
        exact ⟨hserves.2 w.caller call hcall, hserves.1⟩

omit hI in
/-- **Every run** of a sound program. -/
theorem exec (hp : p.Sound force owes) {data : D} {as : List (FlightAction C P)}
    (h : exec (flightStep p) (FlightState.init data) as = some s') : FlightInv force owes s' :=
  exec_invariant' (fun _ _ _ hs h => hs.step hp h) as (FlightState.init data) s' (init data) h

end FlightInv

end SingleFlight

end AgyProxy.Lib
