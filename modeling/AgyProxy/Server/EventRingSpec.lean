import AgyProxy.Server.EventsSpec

/-!
# AgyProxy.Server.EventRingSpec — the replay ring of the admin event bus

`Last-Event-ID` is any integer a client sends: one of this process, one of an earlier process, or none at all.

* `canReplayFromInt`, `replayAfterInt`: the guard and the replay for such a number; for one that is not negative they
  are those of the feed (`canReplayFromInt_natCast`, `replayAfterInt_natCast`).
* `ExactRing`: the ring is the end of the log that fits the capacity; every publish keeps it (`ExactRing.append`).
* `publishAll_retainsLast`: **the ring** after any sequence of publishes; `run_retainsLast`: and in every state of
  the bus with its connections.
-/

namespace AgyProxy

open Lib

section Ring

variable {P : Type}

namespace AdminEventBus

def new (capacity : ℕ) : AdminEventBus P := ⟨capacity, [], 0, false⟩

def publishRun (b : AdminEventBus P) (run : BusRun) : AdminEventBus P := b.append (.run run)

/-- `pool` is what `getPool()` returns. -/
def publishPoolNow (b : AdminEventBus P) (pool : P) : AdminEventBus P := b.append (.pool pool)

def publishSnapshot (b : AdminEventBus P) (pool : P) : AdminEventBus P := b.append (.snapshot pool)

/-- The publish that makes an event of the body. -/
def publish (b : AdminEventBus P) : AdminEventBody P → AdminEventBus P
  | .run run => b.publishRun run
  | .pool pool => b.publishPoolNow pool
  | .snapshot pool => b.publishSnapshot pool

def publishAll (b : AdminEventBus P) (bodies : List (AdminEventBody P)) : AdminEventBus P := bodies.foldl publish b

/-- `canReplayFrom` of an integer; the `seq` of an absent oldest event is `-1`. -/
def canReplayFromInt (b : AdminEventBus P) (seq : ℤ) : Bool :=
  if seq < 0 ∨ (b.seq : ℤ) < seq then false
  else if seq = b.seq then true
  else
    let oldest := (b.ring.head?.map fun ev => (ev.seq : ℤ)).getD (-1)
    decide (oldest ≠ -1 ∧ oldest ≤ seq ∧ seq < b.seq)

def replayAfterInt (b : AdminEventBus P) (seq : ℤ) : List (AdminEvent P) :=
  b.ring.filter fun ev => decide (seq < ev.seq)

theorem canReplayFromInt_natCast (b : AdminEventBus P) (n : ℕ) : b.canReplayFromInt n = b.canReplayFrom n := by
  unfold canReplayFromInt canReplayFrom
  by_cases hpast : b.seq < n
  · rw [if_pos (Or.inr (Int.ofNat_lt.mpr hpast)), if_pos hpast]
  · rw [if_neg (by omega), if_neg hpast]
    by_cases hnewest : n = b.seq
    · rw [if_pos (congrArg _ hnewest), if_pos hnewest]
    · rw [if_neg (by omega), if_neg hnewest]
      cases b.ring.head? with
      | none => rfl
      | some oldest => exact decide_eq_decide.mpr ⟨fun h => Int.ofNat_le.mp h.2.1, fun h => by simp; omega⟩

theorem replayAfterInt_natCast (b : AdminEventBus P) (n : ℕ) : b.replayAfterInt n = b.replayAfter n :=
  List.filter_congr fun _ _ => decide_eq_decide.mpr Int.ofNat_lt

end AdminEventBus

/-- The events of the publishes, in order. -/
def publishedEvents (bodies : List (AdminEventBody P)) : List (AdminEvent P) :=
  bodies.mapIdx fun i body => ⟨body, i + 1⟩

/-- The log is numbered from one to `seq`, and the ring is the end of it that fits the capacity. -/
structure AdminEventBus.ExactRing (b : AdminEventBus P) (log : List (AdminEvent P)) : Prop where
  numbered : Numbered AdminEvent.seq log
  seq : b.seq = log.length
  ring : b.ring = log.drop (log.length - b.capacity)

namespace AdminEventBus

variable {b : AdminEventBus P} {log : List (AdminEvent P)} {n : ℤ}

theorem new_exact (capacity : ℕ) : (new capacity : AdminEventBus P).ExactRing [] :=
  ⟨numbered_nil, rfl, List.drop_nil.symm⟩

/-- **One publish**: the ring takes the event and drops its oldest only when it is full. -/
theorem ExactRing.append (h : b.ExactRing log) (body : AdminEventBody P) :
    (b.append body).ExactRing (log ++ [b.nextEvent body]) := by
  have hnum : (b.nextEvent body).seq = log.length + 1 := congrArg (· + 1) h.seq
  refine ⟨h.numbered.append hnum, ?_, ?_⟩
  · show b.seq + 1 = (log ++ [b.nextEvent body]).length
    rw [List.length_append, h.seq, List.length_singleton]
  · show (b.ring ++ [b.nextEvent body]).drop ((b.ring ++ [b.nextEvent body]).length - b.capacity) =
      (log ++ [b.nextEvent body]).drop ((log ++ [b.nextEvent body]).length - b.capacity)
    have hring : b.ring ++ [b.nextEvent body] = (log ++ [b.nextEvent body]).drop (log.length - b.capacity) := by
      rw [h.ring, List.drop_append_of_le_length (Nat.sub_le _ _)]
    rw [hring, List.drop_drop, List.length_drop, List.length_append, List.length_singleton]
    congr 1
    omega

theorem ExactRing.debounce (h : b.ExactRing log) (debounceTimer : Bool) :
    ExactRing { b with debounceTimer } log := ⟨h.numbered, h.seq, h.ring⟩

theorem publish_eq (b : AdminEventBus P) (body : AdminEventBody P) : b.publish body = b.append body := by
  cases body <;> rfl

theorem ExactRing.length (h : b.ExactRing log) : b.ring.length = min b.capacity b.seq := by
  rw [h.ring, List.length_drop, h.seq]
  omega

/-- The ring ends at `seq` without a gap. -/
theorem ExactRing.numbers (h : b.ExactRing log) :
    b.ring.map AdminEvent.seq = List.range' (b.seq - min b.capacity b.seq + 1) (min b.capacity b.seq) := by
  have hlog : log.map AdminEvent.seq = List.range' 1 log.length := h.numbered
  rw [h.ring, List.map_drop, hlog, List.drop_range', h.seq]
  congr 1 <;> omega

/-- The numbers a replay starts at: the newest, and all the ring still reaches. -/
theorem ExactRing.canReplayFromInt_iff (h : b.ExactRing log) :
    b.canReplayFromInt n = true ↔
      n = b.seq ∨ ((b.seq - min b.capacity b.seq + 1 : ℕ) : ℤ) ≤ n ∧ n < b.seq := by
  unfold canReplayFromInt
  by_cases hout : n < 0 ∨ (b.seq : ℤ) < n
  · rw [if_pos hout]
    constructor
    · exact fun h => absurd h Bool.false_ne_true
    · omega
  · rw [if_neg hout]
    by_cases hnow : n = b.seq
    · rw [if_pos hnow]
      exact ⟨fun _ => Or.inl hnow, fun _ => rfl⟩
    · rw [if_neg hnow, decide_eq_true_eq, or_iff_right hnow]
      have hnumbers := h.numbers
      cases hring : b.ring with
      | nil =>
        have hlen := h.length
        rw [hring] at hlen
        have hlen' : min b.capacity b.seq = 0 := hlen.symm
        simp only [List.head?_nil, Option.map_none, Option.getD_none]
        omega
      | cons oldest rest =>
        obtain ⟨k, hk⟩ : ∃ k, min b.capacity b.seq = k + 1 := by
          refine Nat.exists_eq_succ_of_ne_zero ?_
          rw [← h.length, hring]
          exact Nat.succ_ne_zero _
        rw [hring, List.map_cons, hk, List.range'_succ] at hnumbers
        have holdest : oldest.seq = b.seq - (k + 1) + 1 := (List.cons.inj hnumbers).1
        rw [hk]
        simp only [List.head?_cons, Option.map_some, Option.getD_some, holdest]
        omega

/-- **Replay**: from a number the guard lets through, exactly the events after it. -/
theorem ExactRing.replayAfterInt_eq (h : b.ExactRing log) (hn : b.canReplayFromInt n = true) :
    0 ≤ n ∧ n ≤ b.seq ∧ b.replayAfterInt n = log.drop n.toNat := by
  have hreach := h.canReplayFromInt_iff.mp hn
  have hpos : 0 ≤ n := by omega
  refine ⟨hpos, by omega, ?_⟩
  have hfilter : b.replayAfterInt n =
      (log.drop (log.length - b.capacity)).filter fun ev => decide (n.toNat < ev.seq) := by
    unfold replayAfterInt
    rw [h.ring]
    refine List.filter_congr fun ev _ => decide_eq_decide.mpr ?_
    omega
  have hseq := h.seq
  rw [hfilter, h.numbered.filter_drop]
  congr 1
  omega

/-- The numbers of a replay: those after the one asked for, up to `seq`. -/
theorem ExactRing.replay_numbers (h : b.ExactRing log) (hn : b.canReplayFromInt n = true) :
    (b.replayAfterInt n).map AdminEvent.seq = List.range' (n.toNat + 1) (b.seq - n.toNat) := by
  have hlog : log.map AdminEvent.seq = List.range' 1 log.length := h.numbered
  rw [(h.replayAfterInt_eq hn).2.2, List.map_drop, hlog, List.drop_range', h.seq]
  congr 1
  omega

theorem publishAll_append (b : AdminEventBus P) (bodies : List (AdminEventBody P)) (body : AdminEventBody P) :
    b.publishAll (bodies ++ [body]) = (b.publishAll bodies).append body := by
  unfold publishAll
  rw [List.foldl_append, List.foldl_cons, List.foldl_nil, publish_eq]

/-- The events published so far are the log. -/
theorem publishAll_exactRing (capacity : ℕ) (bodies : List (AdminEventBody P)) :
    ((new capacity).publishAll bodies).ExactRing (publishedEvents bodies) ∧
      ((new capacity).publishAll bodies).capacity = capacity := by
  induction bodies using List.reverseRecOn with
  | nil => exact ⟨new_exact capacity, rfl⟩
  | append_singleton bodies body ih =>
    obtain ⟨hexact, hcapacity⟩ := ih
    have hevent : ((new capacity).publishAll bodies).nextEvent body = ⟨body, bodies.length + 1⟩ := by
      unfold nextEvent
      rw [hexact.seq, publishedEvents, List.length_mapIdx]
    have hlog : publishedEvents (bodies ++ [body]) = publishedEvents bodies ++ [⟨body, bodies.length + 1⟩] := by
      unfold publishedEvents
      rw [List.mapIdx_append]
      simp
    rw [publishAll_append, hlog, ← hevent]
    exact ⟨hexact.append body, hcapacity⟩

/-- The ring holds the last events of the log that fit the capacity, numbered without a gap up to `seq`, and a
replay the guard admits is complete. -/
structure RetainsLast (b : AdminEventBus P) (log : List (AdminEvent P)) : Prop where
  seq : b.seq = log.length
  ring : b.ring = log.drop (log.length - min b.capacity b.seq)
  numbers : b.ring.map AdminEvent.seq = List.range' (b.seq - min b.capacity b.seq + 1) (min b.capacity b.seq)
  replay : ∀ n : ℤ, b.canReplayFromInt n = true →
    0 ≤ n ∧ n ≤ b.seq ∧ b.replayAfterInt n = log.drop n.toNat ∧
      (b.replayAfterInt n).map AdminEvent.seq = List.range' (n.toNat + 1) (b.seq - n.toNat)

theorem ExactRing.retainsLast (h : b.ExactRing log) : b.RetainsLast log := by
  refine ⟨h.seq, ?_, h.numbers, fun n hn => ?_⟩
  · rw [h.ring, h.seq]
    congr 1
    omega
  · obtain ⟨hpos, hle, hreplay⟩ := h.replayAfterInt_eq hn
    exact ⟨hpos, hle, hreplay, h.replay_numbers hn⟩

/-- **The ring** after any sequence of publishes. -/
theorem publishAll_retainsLast (capacity : ℕ) (bodies : List (AdminEventBody P)) :
    ((new capacity).publishAll bodies).capacity = capacity ∧
      ((new capacity).publishAll bodies).RetainsLast (publishedEvents bodies) := by
  obtain ⟨hexact, hcapacity⟩ := publishAll_exactRing capacity bodies
  exact ⟨hcapacity, hexact.retainsLast⟩

/-- A number of an earlier process that this one has passed is served from the ring, one it has not reached is
refused, and so is the number before the oldest event kept. -/
example :
    let b := (new 3 : AdminEventBus ℕ).publishAll (List.replicate 5 (.pool 0))
    b.ring.map AdminEvent.seq = [3, 4, 5] ∧ (b.replayAfterInt 3).map AdminEvent.seq = [4, 5] ∧
      b.canReplayFromInt 5 = true ∧ b.canReplayFromInt 3 = true ∧ b.canReplayFromInt 2 = false ∧
      b.canReplayFromInt 6 = false ∧ b.canReplayFromInt (-1) = false := by decide

end AdminEventBus

/-! ### The bus with its connections -/

namespace AdminFeed

variable {reread : P → P → P} {s s' : AdminFeed P} {a : FeedAction P}

theorem flush_capacity (s : AdminFeed P) : s.flush.bus.capacity = s.bus.capacity := by
  unfold flush
  split <;> rfl

theorem publishDue_capacity (s : AdminFeed P) : s.publishDue.bus.capacity = s.bus.capacity := by
  simp only [publishDue]
  split <;> rfl

theorem connect_capacity (s : AdminFeed P) (client last : Option ℕ) :
    (s.connect reread client last).bus.capacity = s.bus.capacity := by
  unfold connect
  cases last with
  | none => rfl
  | some last =>
    dsimp only
    split <;> rfl

theorem step_capacity (h : s.step reread a = some s') : s'.bus.capacity = s.bus.capacity := by
  cases a with
  | mutate | mutateSoon | quotaChange | publishRun =>
    obtain rfl := Option.some.inj h
    rfl
  | flush =>
    obtain rfl := Option.some.inj h
    exact flush_capacity s
  | connect client last =>
    obtain rfl := Option.some.inj h
    exact connect_capacity s client last
  | persistTimer =>
    obtain ⟨-, hs⟩ := Option.ite_none_right_eq_some.mp h
    obtain rfl := Option.some.inj hs
    exact flush_capacity { s with persistTimer := false }
  | debounceTimer =>
    obtain ⟨-, hs⟩ := Option.ite_none_right_eq_some.mp h
    obtain rfl := Option.some.inj hs
    exact publishDue_capacity s
  | replayNext | drop | ended =>
    obtain ⟨-, hs⟩ := Option.ite_none_right_eq_some.mp h
    obtain rfl := Option.some.inj hs
    rfl

/-- **One step** of the bus with its connections. -/
theorem step_exactRing (h : s.bus.ExactRing s.log) (hstep : s.step reread a = some s') : s'.bus.ExactRing s'.log := by
  have hcapacity := step_capacity hstep
  rcases step_cases hstep with ⟨-, hquiet, -, -⟩ | ⟨-, rfl⟩ | ⟨run, -, rfl⟩ | ⟨client, last, -, rfl⟩ | ⟨conn, -, rfl⟩ |
    ⟨conn, status, -, -, -, rfl⟩
  · refine ⟨hquiet.log ▸ h.numbered, ?_, ?_⟩
    · rw [hquiet.seq, hquiet.log, h.seq]
    · rw [hquiet.ring, hquiet.log, hcapacity, h.ring]
  · unfold publishDue
    dsimp only
    split
    · exact (h.debounce false).append (.pool s.data)
    · exact h.debounce false
  · exact h.append (.run run)
  · unfold connect
    cases last with
    | none => exact h.append (.snapshot s.data)
    | some last =>
      dsimp only
      split
      · exact h
      · exact h.append (.snapshot s.data)
  · exact h
  · exact h

/-- **Every state** of the bus with its connections retains the last of its log. -/
theorem run_retainsLast {capacity : ℕ} {data : P} {as : List (FeedAction P)}
    (h : exec (step reread) (init capacity data) as = some s) : s.bus.RetainsLast s.log := by
  have hinit : (init capacity data : AdminFeed P).bus.ExactRing (init capacity data).log :=
    ⟨numbered_nil, rfl, List.drop_nil.symm⟩
  have hexact : s.bus.ExactRing s.log :=
    exec_invariant' (fun _ _ _ hs hstep => step_exactRing hs hstep) as (init capacity data) s hinit h
  exact hexact.retainsLast

end AdminFeed

end Ring

end AgyProxy
