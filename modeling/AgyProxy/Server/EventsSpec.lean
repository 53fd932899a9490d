import AgyProxy.Lib.Backlog
import AgyProxy.Server.Events

/-!
# AgyProxy.Server.EventsSpec — in which order the admin event stream delivers

The numbers on the stream are the positions in the log of all events (`Logged`), and a replay from a number
the ring still reaches starts with all that came after it (`Logged.replayAfter_eq`).  What is published while
a connection writes its replay overtakes the frames the loop still holds.

* `step_cases`: what one step can do.
* `Flowing`: the frames of a connection, written and held, are in order and none is missing.
* `delivery_iff`: **delivery**; a connection whose replay is through got every broadcast event after its
  start, in increasing order, exactly when nothing was published during its replay.
-/

namespace AgyProxy

open Lib

section Steps

variable {P : Type} {reread : P → P → P}

/-- A change of the pool is still to be published. -/
def AdminFeed.Unsettled (s : AdminFeed P) : Prop := s.bus.debounceTimer = true ∨ s.persistDirty = true

/-- Events and connections are left alone. -/
structure AdminFeed.Quiet (s s' : AdminFeed P) : Prop where
  conns : s'.conns = s.conns
  log : s'.log = s.log
  ring : s'.bus.ring = s.bus.ring
  seq : s'.bus.seq = s.bus.seq

/-- The two actions that fan an event out. -/
def FeedAction.publishes : FeedAction P → Bool
  | .debounceTimer => true
  | .publishRun _ => true
  | _ => false

namespace AdminFeed

variable {s s' : AdminFeed P} {a : FeedAction P}

/-- Nothing due has changed, or something is due. -/
def Timed (s s' : AdminFeed P) : Prop :=
  s'.Unsettled ∨ s'.data = s.data ∧ (s'.Unsettled ↔ s.Unsettled)

theorem notify_unsettled : s.notify.Unsettled := Or.inl rfl

theorem persist_unsettled : s.persist.Unsettled := Or.inl rfl

theorem flush_timed : s.Timed s.flush := by
  unfold flush
  split
  · exact Or.inl persist_unsettled
  · exact Or.inr ⟨rfl, Iff.rfl⟩

theorem flush_quiet : s.Quiet s.flush ∧ s.flush.skipped = s.skipped := by
  unfold flush
  split <;> exact ⟨⟨rfl, rfl, rfl, rfl⟩, rfl⟩

/-- **What one step can do.** -/
theorem step_cases (h : s.step reread a = some s') :
    (a.publishes = false ∧ s.Quiet s' ∧ s'.skipped = s.skipped ∧ s.Timed s') ∨
    (a = .debounceTimer ∧ s' = s.publishDue) ∨
    (∃ run, a = .publishRun run ∧ s' = s.publish (.run run)) ∨
    (∃ client last, a = .connect client last ∧ s' = s.connect reread client last) ∨
    (∃ conn, a = .replayNext conn ∧
      s' = { s with conns := s.conns.modify conn (·.replayNext reread s.data) }) ∨
    (∃ conn status, a.publishes = false ∧ status ≠ SseStatus.connected ∧
      s.has conn (fun c => c.status ≠ .ended) = true ∧ s' = s.setStatus conn status) := by
  cases a with
  | mutate pool =>
    obtain rfl := Option.some.inj h
    exact Or.inl ⟨rfl, ⟨rfl, rfl, rfl, rfl⟩, rfl, Or.inl persist_unsettled⟩
  | mutateSoon pool =>
    obtain rfl := Option.some.inj h
    exact Or.inl ⟨rfl, ⟨rfl, rfl, rfl, rfl⟩, rfl, Or.inl (Or.inr rfl)⟩
  | quotaChange pool =>
    obtain rfl := Option.some.inj h
    exact Or.inl ⟨rfl, ⟨rfl, rfl, rfl, rfl⟩, rfl, Or.inl notify_unsettled⟩
  | persistTimer =>
    obtain ⟨-, hs'⟩ := Option.ite_none_right_eq_some.mp h
    obtain rfl := Option.some.inj hs'
    have hquiet := (flush_quiet : Quiet { s with persistTimer := false } _ ∧ _)
    exact Or.inl ⟨rfl, ⟨hquiet.1.conns, hquiet.1.log, hquiet.1.ring, hquiet.1.seq⟩, hquiet.2, flush_timed⟩
  | flush =>
    obtain rfl := Option.some.inj h
    exact Or.inl ⟨rfl, flush_quiet.1, flush_quiet.2, flush_timed⟩
  | debounceTimer =>
    obtain ⟨-, hs'⟩ := Option.ite_none_right_eq_some.mp h
    exact Or.inr (Or.inl ⟨rfl, (Option.some.inj hs').symm⟩)
  | publishRun run =>
    exact Or.inr (Or.inr (Or.inl ⟨run, rfl, (Option.some.inj h).symm⟩))
  | connect client last =>
    exact Or.inr (Or.inr (Or.inr (Or.inl ⟨client, last, rfl, (Option.some.inj h).symm⟩)))
  | replayNext conn =>
    obtain ⟨-, hs'⟩ := Option.ite_none_right_eq_some.mp h
    exact Or.inr (Or.inr (Or.inr (Or.inr (Or.inl ⟨conn, rfl, (Option.some.inj hs').symm⟩))))
  | drop conn =>
    obtain ⟨hhas, hs'⟩ := Option.ite_none_right_eq_some.mp h
    have hopen : s.has conn (fun c => c.status ≠ .ended) = true := by
      obtain ⟨c, hc, hconn⟩ := (Option.any_eq_true _ _).mp hhas
      refine (Option.any_eq_true _ _).mpr ⟨c, hc, decide_eq_true ?_⟩
      rw [of_decide_eq_true hconn]
      exact nofun
    have hset := (Option.some.inj hs').symm
    exact Or.inr (Or.inr (Or.inr (Or.inr (Or.inr ⟨conn, .dropped, rfl, nofun, hopen, hset⟩))))
  | ended conn =>
    obtain ⟨hhas, hs'⟩ := Option.ite_none_right_eq_some.mp h
    have hset := (Option.some.inj hs').symm
    exact Or.inr (Or.inr (Or.inr (Or.inr (Or.inr ⟨conn, .ended, rfl, nofun, hhas, hset⟩))))

/-- The timer publishes when somebody is registered, and else the publish is skipped. -/
theorem publishDue_cases (s : AdminFeed P) :
    (∃ t, s.Quiet t ∧ t.data = s.data ∧ t.bus.debounceTimer = false ∧ t.persistDirty = s.persistDirty ∧
        s.publishDue = t.publish (.pool s.data)) ∨
      (∀ c ∈ s.conns, c.status = .ended) ∧ s.Quiet s.publishDue ∧ s.publishDue.skipped = true := by
  unfold publishDue
  by_cases hreg : (s.conns.any fun c => decide (c.status ≠ .ended)) = true
  · refine Or.inl ⟨{ s with bus := { s.bus with debounceTimer := false } }, ⟨rfl, rfl, rfl, rfl⟩, rfl, rfl, rfl, ?_⟩
    exact if_pos hreg
  · refine Or.inr ⟨?_, ?_⟩
    · intro c hc
      have hnone := List.any_eq_false.mp (Bool.not_eq_true _ ▸ hreg) c hc
      simpa using hnone
    · rw [if_neg hreg]
      exact ⟨⟨rfl, rfl, rfl, rfl⟩, rfl⟩

end AdminFeed

end Steps

/-! ### The log -/

section Log

variable {P : Type} {s s' : AdminFeed P}

/-- The events are numbered in the order they were appended, and the ring holds the last of them. -/
structure AdminFeed.Logged (s : AdminFeed P) : Prop where
  numbered : Numbered AdminEvent.seq s.log
  ring : s.bus.ring <:+ s.log
  seq : s.bus.seq = s.log.length

namespace AdminFeed

theorem init_logged {capacity : ℕ} {data : P} : (init capacity data).Logged :=
  ⟨numbered_nil, List.suffix_rfl, rfl⟩

theorem Quiet.logged (hq : s.Quiet s') (h : s.Logged) : s'.Logged := by
  refine ⟨?_, ?_, ?_⟩
  · rw [hq.log]; exact h.numbered
  · rw [hq.ring, hq.log]; exact h.ring
  · rw [hq.seq, hq.log]; exact h.seq

theorem Logged.nextEvent_seq (h : s.Logged) (body : AdminEventBody P) :
    (s.bus.nextEvent body).seq = s.log.length + 1 := congrArg (· + 1) h.seq

theorem Logged.append (h : s.Logged) (body : AdminEventBody P) : (s.append body).Logged := by
  refine ⟨h.numbered.append (h.nextEvent_seq body), ?_, ?_⟩
  · obtain ⟨dropped, hlog⟩ := h.ring
    have hring : s.bus.ring ++ [s.bus.nextEvent body] <:+ s.log ++ [s.bus.nextEvent body] :=
      ⟨dropped, by rw [← List.append_assoc, hlog]⟩
    exact (List.drop_suffix _ _).trans hring
  · show s.bus.seq + 1 = (s.log ++ [s.bus.nextEvent body]).length
    rw [List.length_append, h.seq, List.length_singleton]

/-- **Replay**: a number the ring still reaches is followed by all that came after it. -/
theorem Logged.replayAfter_eq (h : s.Logged) {last : ℕ} (hlast : s.bus.canReplayFrom last = true) :
    last ≤ s.log.length ∧ s.bus.replayAfter last = s.log.filter fun e => decide (last < e.seq) := by
  unfold AdminEventBus.canReplayFrom at hlast
  unfold AdminEventBus.replayAfter
  rw [h.seq] at hlast
  split_ifs at hlast with hlater hnow
  · subst hnow
    exact ⟨le_refl _, (h.numbered.filter_length h.ring).trans (h.numbered.filter_length List.suffix_rfl).symm⟩
  · cases hring : s.bus.ring with
    | nil =>
      rw [hring] at hlast
      exact absurd hlast Bool.false_ne_true
    | cons oldest rest =>
      rw [hring] at hlast
      have hle : oldest.seq ≤ last := of_decide_eq_true hlast
      have hkept : oldest :: rest <:+ s.log := hring ▸ h.ring
      refine ⟨by omega, h.numbered.filter_suffix hkept ?_ (List.cons_ne_nil _ _)⟩
      intro e he
      obtain rfl : oldest = e := Option.some.inj he
      exact hle

end AdminFeed

end Log

/-! ### One connection -/

section Connection

variable {P : Type} {reread : P → P → P} {c : SseConn P} {log : List (AdminEvent P)} {e : AdminEvent P}

namespace SseConn

/-- What the client receives: the frames written, then those the replay loop holds. -/
def frames (c : SseConn P) : List ℕ := c.sent ++ c.pending.map AdminEvent.seq

theorem event_status (n : ℕ) (pool : Option P) : (c.event n pool).status = c.status := by
  unfold event
  split <;> rfl

theorem event_start (n : ℕ) (pool : Option P) : (c.event n pool).start = c.start := by
  unfold event
  split <;> rfl

theorem event_pending (n : ℕ) (pool : Option P) : (c.event n pool).pending = c.pending := by
  unfold event
  split <;> rfl

theorem event_of_connected (hc : c.status = .connected) (n : ℕ) (pool : Option P) :
    c.event n pool = { c with sent := c.sent ++ [n], view := pool.or c.view } := if_pos hc

theorem event_of_closed (hc : c.status ≠ .connected) (n : ℕ) (pool : Option P) : c.event n pool = c := if_neg hc

theorem replayNext_status (data : P) : (c.replayNext reread data).status = c.status := by
  unfold replayNext
  split
  · rfl
  · exact event_status _ _

theorem replayNext_start (data : P) : (c.replayNext reread data).start = c.start := by
  unfold replayNext
  split
  · rfl
  · exact event_start _ _

theorem replayNext_nil (hp : c.pending = []) (data : P) : c.replayNext reread data = c := by
  unfold replayNext
  rw [hp]

theorem replayNext_cons {rest : List (AdminEvent P)} (hp : c.pending = e :: rest) (data : P) :
    c.replayNext reread data =
      { c with pending := rest }.event e.seq (e.pool?.map fun p => reread p data) := by
  unfold replayNext
  rw [hp]

/-- The loop writes what it holds. -/
theorem frames_replayNext (hc : c.status = .connected) (data : P) : (c.replayNext reread data).frames = c.frames := by
  cases hp : c.pending with
  | nil => rw [replayNext_nil hp]
  | cons e rest =>
    rw [replayNext_cons hp, event_of_connected (c := { c with pending := rest }) hc]
    show (c.sent ++ [e.seq]) ++ rest.map AdminEvent.seq = c.sent ++ c.pending.map AdminEvent.seq
    rw [hp, List.append_assoc, List.map_cons, List.singleton_append]

/-- A closed connection writes nothing. -/
theorem sent_replayNext (hc : c.status ≠ .connected) (data : P) : (c.replayNext reread data).sent = c.sent := by
  cases hp : c.pending with
  | nil => rw [replayNext_nil hp]
  | cons e rest => rw [replayNext_cons hp, event_of_closed (c := { c with pending := rest }) hc]

/-- **Live frame**: it goes before what the replay loop holds. -/
theorem frames_event (hc : c.status = .connected) (n : ℕ) (pool : Option P) :
    (c.event n pool).frames = c.sent ++ n :: c.pending.map AdminEvent.seq := by
  rw [event_of_connected hc]
  exact List.append_assoc _ _ _

/-- The frames are in order, none is from the future, and no broadcast event after the start is missing. -/
structure Flowing (log : List (AdminEvent P)) (c : SseConn P) : Prop where
  inOrder : c.frames.Pairwise (· < ·)
  bound : ∀ n ∈ c.frames, n ≤ log.length
  lossless : ∀ e ∈ log, e.body.isBroadcast → c.start < e.seq → e.seq ∈ c.frames

theorem Flowing.congr {c' : SseConn P} (h : c.Flowing log) (hf : c'.frames = c.frames) (hs : c'.start = c.start) :
    c'.Flowing log := by
  refine ⟨?_, ?_, ?_⟩
  · rw [hf]; exact h.inOrder
  · rw [hf]; exact h.bound
  · rw [hf, hs]; exact h.lossless

/-- An event for one other client. -/
theorem Flowing.append (h : c.Flowing log) (he : e.body.isBroadcast = false) : c.Flowing (log ++ [e]) := by
  refine ⟨h.inOrder, ?_, ?_⟩
  · intro n hn
    have := h.bound n hn
    rw [List.length_append]
    omega
  · intro e' he' hbroad hstart
    rcases List.mem_append.mp he' with he' | he'
    · exact h.lossless e' he' hbroad hstart
    · rw [List.mem_singleton.mp he', he] at hbroad
      exact absurd hbroad Bool.false_ne_true

/-- **A publish between frames**: with no replay frame held, the new frame is the last one. -/
theorem Flowing.event (h : c.Flowing log) (hc : c.status = .connected) (hp : c.pending = [])
    (he : e.seq = log.length + 1) (pool : Option P) : (c.event e.seq pool).Flowing (log ++ [e]) := by
  have hframes : (c.event e.seq pool).frames = c.frames ++ [e.seq] := by
    rw [frames_event hc, frames, hp, List.map_nil, List.append_nil]
  refine ⟨?_, ?_, ?_⟩
  · rw [hframes]
    refine List.pairwise_append.mpr ⟨h.inOrder, List.pairwise_singleton _ _, ?_⟩
    intro n hn m hm
    have := h.bound n hn
    have := List.mem_singleton.mp hm
    omega
  · intro n hn
    rw [hframes] at hn
    rw [List.length_append, List.length_singleton]
    rcases List.mem_append.mp hn with hn | hn
    · have := h.bound n hn
      omega
    · have := List.mem_singleton.mp hn
      omega
  · intro e' he' hbroad hstart
    rw [hframes]
    rw [event_start] at hstart
    rcases List.mem_append.mp he' with he' | he'
    · exact List.mem_append_left _ (h.lossless e' he' hbroad hstart)
    · rw [List.mem_singleton.mp he']
      exact List.mem_append_right _ (List.mem_singleton_self _)

/-- **Overtaking**: a publish during the replay puts a later number before an earlier one. -/
theorem Flowing.overtaken (h : c.Flowing log) (hc : c.status = .connected) (hp : c.pending ≠ [])
    (he : e.seq = log.length + 1) (pool : Option P) : ¬ (c.event e.seq pool).frames.Pairwise (· < ·) := by
  intro hord
  rw [frames_event hc] at hord
  obtain ⟨held, rest, hheld⟩ := List.exists_cons_of_ne_nil hp
  have hlt : e.seq < held.seq := by
    have htail := (List.pairwise_append.mp hord).2.1
    exact List.rel_of_pairwise_cons htail (List.mem_map_of_mem (hheld ▸ List.mem_cons_self))
  have hle : held.seq ≤ log.length := by
    apply h.bound
    exact List.mem_append_right _ (List.mem_map_of_mem (hheld ▸ List.mem_cons_self))
  omega

/-- Frames out of order stay so. -/
theorem disorder_event (hc : c.status = .connected) (h : ¬ c.frames.Pairwise (· < ·)) (n : ℕ) (pool : Option P) :
    ¬ (c.event n pool).frames.Pairwise (· < ·) := by
  intro hord
  rw [frames_event hc] at hord
  exact h (hord.sublist ((List.sublist_cons_self n _).append_left c.sent))

end SseConn

end Connection

/-! ### What a step does to a connection -/

section Step

variable {P : Type} {reread : P → P → P} {s s' : AdminFeed P} {a : FeedAction P} {j : ℕ} {c : SseConn P}

namespace AdminFeed

theorem connect_cases (s : AdminFeed P) (client lastEventId : Option ℕ) :
    (∃ last, lastEventId = some last ∧ s.bus.canReplayFrom last = true ∧
        s.connect reread client lastEventId = s.connectReplay reread client last) ∨
      s.connect reread client lastEventId = s.connectSnapshot client := by
  unfold connect
  split
  · exact Or.inr rfl
  · split
    · exact Or.inl ⟨_, rfl, ‹_›, rfl⟩
    · exact Or.inr rfl

/-- A connect adds at most an event for the new client alone. -/
theorem connect_log (s : AdminFeed P) (client lastEventId : Option ℕ) :
    (s.connect reread client lastEventId).log = s.log ∨
      ∃ body, body.isBroadcast = false ∧
        (s.connect reread client lastEventId).log = s.log ++ [s.bus.nextEvent body] := by
  rcases @connect_cases _ reread s client lastEventId with ⟨last, -, -, h⟩ | h
  · exact Or.inl (h ▸ rfl)
  · exact Or.inr ⟨.snapshot s.data, rfl, h ▸ rfl⟩

theorem connect_conns (s : AdminFeed P) (client lastEventId : Option ℕ) :
    ∃ c, (s.connect reread client lastEventId).conns = s.conns ++ [c] := by
  rcases @connect_cases _ reread s client lastEventId with ⟨last, -, -, h⟩ | h
  · rw [h]
    exact ⟨_, rfl⟩
  · rw [h]
    exact ⟨_, rfl⟩

/-- What a step makes of the connection `c`. -/
inductive Effect (reread : P → P → P) (a : FeedAction P) (s s' : AdminFeed P) (c : SseConn P) : SseConn P → Prop
  /-- nothing, or an event for one other client -/
  | none (hpub : a.publishes = true → c.status = .ended)
      (hlog : s'.log = s.log ∨
        ∃ body, body.isBroadcast = false ∧ s'.log = s.log ++ [s.bus.nextEvent body]) :
      Effect reread a s s' c c
  | published (body : AdminEventBody P) (hpub : a.publishes = true) (hbody : body.isBroadcast = true)
      (hlog : s'.log = s.log ++ [s.bus.nextEvent body]) :
      Effect reread a s s' c (c.event (s.bus.nextEvent body).seq body.pool?)
  | replayed (hpub : a.publishes = false) (hlog : s'.log = s.log) :
      Effect reread a s s' c (c.replayNext reread s.data)
  | closed (status : SseStatus) (hpub : a.publishes = false) (hstatus : status ≠ .connected)
      (hlog : s'.log = s.log) : Effect reread a s s' c { c with status := status }

theorem getElem?_publish (s : AdminFeed P) (body : AdminEventBody P) :
    (s.publish body).conns[j]? = s.conns[j]?.map fun c => c.event (s.bus.nextEvent body).seq body.pool? :=
  List.getElem?_map

theorem getElem?_modify_of_some {k : ℕ} {f : SseConn P → SseConn P} (hc : s.conns[j]? = some c) :
    (s.conns.modify k f)[j]? = some (if k = j then f c else c) := by
  rw [List.getElem?_modify, hc]
  split <;> rfl

/-- Connections are never forgotten. -/
theorem step_effect (h : s.step reread a = some s') (hc : s.conns[j]? = some c) :
    ∃ c', s'.conns[j]? = some c' ∧ Effect reread a s s' c c' := by
  rcases step_cases h with ⟨hpub, hq, -, -⟩ | ⟨rfl, rfl⟩ | ⟨run, rfl, rfl⟩ | ⟨client, last, rfl, rfl⟩ |
    ⟨conn, rfl, rfl⟩ | ⟨conn, status, hpub, hstatus, -, rfl⟩
  · refine ⟨c, hq.conns ▸ hc, .none (fun hp => ?_) (Or.inl hq.log)⟩
    exact absurd (hpub ▸ hp) Bool.false_ne_true
  · rcases s.publishDue_cases with ⟨t, hq, -, -, -, ht⟩ | ⟨hall, hq, -⟩
    · have hnext : t.bus.nextEvent = s.bus.nextEvent := by
        funext body
        exact congrArg (fun n => (⟨body, n + 1⟩ : AdminEvent P)) hq.seq
      refine ⟨c.event (s.bus.nextEvent (.pool s.data)).seq (some s.data), ?_, ?_⟩
      · rw [ht, getElem?_publish, hq.conns, hc, hnext]
        rfl
      · refine .published (.pool s.data) rfl rfl ?_
        rw [ht, ← hnext, ← hq.log]
        rfl
    · exact ⟨c, hq.conns ▸ hc, .none (fun _ => hall c (List.mem_of_getElem? hc)) (Or.inl hq.log)⟩
  · refine ⟨c.event (s.bus.nextEvent (.run run)).seq none, ?_, .published (.run run) rfl rfl rfl⟩
    rw [getElem?_publish, hc]
    rfl
  · obtain ⟨c₀, hconns⟩ := @connect_conns _ reread s client last
    refine ⟨c, ?_, .none nofun (s.connect_log client last)⟩
    rw [hconns]
    exact List.getElem?_append_left (List.getElem?_eq_some_iff.mp hc).1 ▸ hc
  · refine ⟨_, getElem?_modify_of_some hc, ?_⟩
    split
    · exact .replayed rfl rfl
    · exact .none nofun (Or.inl rfl)
  · refine ⟨_, getElem?_modify_of_some hc, ?_⟩
    split
    · exact .closed status hpub hstatus rfl
    · refine .none (fun hp => ?_) (Or.inl rfl)
      exact absurd (hpub ▸ hp) Bool.false_ne_true

/-- Only a connect opens a connection. -/
theorem step_opens (h : s.step reread a = some s') (hnone : s.conns[j]? = none) (hc : s'.conns[j]? = some c) :
    ∃ client last, a = .connect client last ∧ s' = s.connect reread client last ∧
      s'.conns = s.conns ++ [c] := by
  have hlen : s.conns.length ≤ j := List.getElem?_eq_none_iff.mp hnone
  have hlen' : j < s'.conns.length := (List.getElem?_eq_some_iff.mp hc).1
  rcases step_cases h with ⟨-, hq, -, -⟩ | ⟨rfl, rfl⟩ | ⟨run, rfl, rfl⟩ | ⟨client, last, rfl, rfl⟩ |
    ⟨conn, rfl, rfl⟩ | ⟨conn, status, -, -, -, rfl⟩
  · rw [hq.conns] at hlen'
    omega
  · rcases s.publishDue_cases with ⟨t, hq, -, -, -, ht⟩ | ⟨-, hq, -⟩
    · rw [ht, getElem?_publish, hq.conns, hnone, Option.map_none] at hc
      exact nomatch hc
    · rw [hq.conns] at hlen'
      omega
  · rw [getElem?_publish, hnone, Option.map_none] at hc
    exact nomatch hc
  · obtain ⟨c₀, hconns⟩ := @connect_conns _ reread s client last
    refine ⟨client, last, rfl, rfl, ?_⟩
    rw [hconns] at hc ⊢
    rw [List.getElem?_append_right hlen] at hc
    have hmem := List.mem_of_getElem? hc
    rw [List.mem_singleton.mp hmem]
  · rw [List.length_modify] at hlen'
    omega
  · rw [setStatus, List.length_modify] at hlen'
    omega

theorem step_logged (h : s.step reread a = some s') (hs : s.Logged) : s'.Logged := by
  rcases step_cases h with ⟨-, hq, -, -⟩ | ⟨rfl, rfl⟩ | ⟨run, rfl, rfl⟩ | ⟨client, last, rfl, rfl⟩ |
    ⟨conn, rfl, rfl⟩ | ⟨conn, status, -, -, -, rfl⟩
  · exact hq.logged hs
  · rcases s.publishDue_cases with ⟨t, hq, -, -, -, ht⟩ | ⟨-, hq, -⟩
    · have hlogged := (hq.logged hs).append (.pool s.data)
      rw [ht]
      exact ⟨hlogged.numbered, hlogged.ring, hlogged.seq⟩
    · exact hq.logged hs
  · have hlogged := hs.append (.run run)
    exact ⟨hlogged.numbered, hlogged.ring, hlogged.seq⟩
  · rcases @connect_cases _ reread s client last with ⟨last, -, -, hconn⟩ | hconn
    · rw [hconn]
      exact ⟨hs.numbered, hs.ring, hs.seq⟩
    · have hlogged := hs.append (.snapshot s.data)
      rw [hconn]
      exact ⟨hlogged.numbered, hlogged.ring, hlogged.seq⟩
  · exact ⟨hs.numbered, hs.ring, hs.seq⟩
  · exact ⟨hs.numbered, hs.ring, hs.seq⟩

end AdminFeed

end Step

/-! ### Delivery -/

section Delivery

variable {P : Type} {reread : P → P → P} {s s' : AdminFeed P} {a : FeedAction P} {j : ℕ} {c : SseConn P}

namespace AdminFeed

/-- Nothing is published while the replay loop of the connection holds frames. -/
def Unhurried (j : ℕ) (s : AdminFeed P) (a : FeedAction P) : Prop :=
  a.publishes = true → ∀ c, s.conns[j]? = some c → c.status = .connected → c.pending = []

instance (j : ℕ) (s : AdminFeed P) (a : FeedAction P) : Decidable (s.Unhurried j a) :=
  inferInstanceAs (Decidable (a.publishes = true → ∀ c ∈ s.conns[j]?, c.status = .connected → c.pending = []))

/-- The connection is still to come, or flows. -/
def Flows (j : ℕ) (s : AdminFeed P) : Prop :=
  s.Logged ∧ ∀ c, s.conns[j]? = some c → c.status = .connected ∧ c.Flowing s.log

/-- The connection was closed while its frames were in order. -/
def ClosedInOrder (j : ℕ) (s : AdminFeed P) : Prop :=
  ∃ c, s.conns[j]? = some c ∧ c.status ≠ .connected ∧ c.sent.Pairwise (· < ·)

/-- The connection is closed, or its frames are out of order. -/
def Disordered (j : ℕ) (s : AdminFeed P) : Prop :=
  ∃ c, s.conns[j]? = some c ∧ (c.status = .connected → ¬ c.frames.Pairwise (· < ·))

theorem init_flows {capacity : ℕ} {data : P} : (init capacity data).Flows j :=
  ⟨init_logged, fun _ hc => nomatch hc⟩

/-- A replayed connection starts with all that came after its `Last-Event-ID`. -/
theorem Logged.fresh_replay_flowing (hs : s.Logged) (client : Option ℕ) {last : ℕ}
    (hlast : s.bus.canReplayFrom last = true) : (s.fresh client last (s.bus.replayAfter last)).Flowing s.log := by
  rw [(hs.replayAfter_eq hlast).2]
  refine ⟨?_, ?_, ?_⟩
  · exact List.pairwise_map.mpr (hs.numbered.pairwise.sublist List.filter_sublist)
  · intro n hn
    obtain ⟨e, he, rfl⟩ := List.mem_map.mp hn
    exact hs.numbered.le (List.mem_of_mem_filter he)
  · intro e he _ hstart
    exact List.mem_map_of_mem (List.mem_filter.mpr ⟨he, decide_eq_true hstart⟩)

/-- A connection starts flowing. -/
theorem connect_flowing (hs : s.Logged) {client last : Option ℕ}
    (hconns : (s.connect reread client last).conns = s.conns ++ [c]) :
    c.status = .connected ∧ c.Flowing (s.connect reread client last).log := by
  rcases @connect_cases _ reread s client last with ⟨last, -, hlast, h⟩ | h
  · rw [h] at hconns ⊢
    obtain ⟨-, hc⟩ := List.append_inj' hconns rfl
    rw [← List.singleton_injective hc]
    have hflow := hs.fresh_replay_flowing client hlast
    exact ⟨SseConn.replayNext_status _, hflow.congr (SseConn.frames_replayNext rfl _) (SseConn.replayNext_start _)⟩
  · rw [h] at hconns ⊢
    obtain ⟨-, hc⟩ := List.append_inj' hconns rfl
    rw [← List.singleton_injective hc]
    refine ⟨rfl, ?_, ?_, ?_⟩
    · exact List.pairwise_singleton _ _
    · intro n hn
      rw [List.mem_singleton.mp hn]
      exact (hs.append (.snapshot s.data)).seq.le
    · intro e he _ hstart
      have hle := (hs.append (.snapshot s.data)).numbered.le he
      have hlt : (s.append (.snapshot s.data)).bus.seq < e.seq := hstart
      rw [(hs.append (.snapshot s.data)).seq] at hlt
      exact absurd hle (Nat.not_le.mpr hlt)

theorem flows_step (hs : s.Flows j) (h : s.step reread a = some s') :
    Unhurried j s a ∧ (s'.Flows j ∨ s'.ClosedInOrder j) ∨ ¬ Unhurried j s a ∧ s'.Disordered j := by
  have hlogged' := step_logged h hs.1
  cases hold : s.conns[j]? with
  | none =>
    refine Or.inl ⟨fun _ c hc => (nomatch hold.symm.trans hc), Or.inl ⟨hlogged', fun c hc => ?_⟩⟩
    obtain ⟨client, last, -, rfl, hconns⟩ := step_opens h hold hc
    exact connect_flowing hs.1 hconns
  | some c =>
    obtain ⟨hconn, hflow⟩ := hs.2 c hold
    obtain ⟨c', hc', heffect⟩ := step_effect h hold
    have hflows' : c'.status = .connected → c'.Flowing s'.log → s'.Flows j := by
      intro hst hfl
      refine ⟨hlogged', fun c₁ hc₁ => ?_⟩
      obtain rfl : c' = c₁ := Option.some.inj (hc'.symm.trans hc₁)
      exact ⟨hst, hfl⟩
    have hcalm : a.publishes = false → Unhurried j s a := fun hpub hp => absurd (hpub ▸ hp) Bool.false_ne_true
    cases heffect with
    | none hpub hlog =>
      have hpub' : a.publishes = false := by
        apply Bool.eq_false_iff.mpr
        intro hp
        rw [hpub hp] at hconn
        exact nomatch hconn
      refine Or.inl ⟨hcalm hpub', Or.inl (hflows' hconn ?_)⟩
      rcases hlog with hlog | ⟨body, hbody, hlog⟩
      · exact hlog ▸ hflow
      · exact hlog ▸ hflow.append hbody
    | published body hpub hbody hlog =>
      have hseq := hs.1.nextEvent_seq body
      by_cases hp : c.pending = []
      · refine Or.inl ⟨fun _ c₁ hc₁ _ => ?_, Or.inl (hflows' ?_ ?_)⟩
        · obtain rfl : c = c₁ := Option.some.inj (hold.symm.trans hc₁)
          exact hp
        · exact (SseConn.event_status _ _).trans hconn
        · exact hlog ▸ hflow.event hconn hp hseq _
      · refine Or.inr ⟨fun hok => hp (hok hpub c hold hconn), _, hc', fun _ => ?_⟩
        exact hflow.overtaken hconn hp hseq _
    | replayed hpub hlog =>
      refine Or.inl ⟨hcalm hpub, Or.inl (hflows' ?_ ?_)⟩
      · exact (SseConn.replayNext_status _).trans hconn
      · exact hlog ▸ hflow.congr (SseConn.frames_replayNext hconn _) (SseConn.replayNext_start _)
    | closed status hpub hstatus hlog =>
      refine Or.inl ⟨hcalm hpub, Or.inr ⟨_, hc', hstatus, ?_⟩⟩
      exact (List.pairwise_append.mp hflow.inOrder).1

theorem closedInOrder_step (hs : s.ClosedInOrder j) (h : s.step reread a = some s') :
    Unhurried j s a ∧ s'.ClosedInOrder j := by
  obtain ⟨c, hold, hclosed, hord⟩ := hs
  obtain ⟨c', hc', heffect⟩ := step_effect h hold
  refine ⟨fun _ c₁ hc₁ hconn => ?_, c', hc', ?_⟩
  · obtain rfl : c = c₁ := Option.some.inj (hold.symm.trans hc₁)
    exact absurd hconn hclosed
  · cases heffect with
    | none hpub hlog => exact ⟨hclosed, hord⟩
    | published body hpub hbody hlog =>
      rw [SseConn.event_of_closed hclosed]
      exact ⟨hclosed, hord⟩
    | replayed hpub hlog =>
      rw [SseConn.replayNext_status, SseConn.sent_replayNext hclosed]
      exact ⟨hclosed, hord⟩
    | closed status hpub hstatus hlog => exact ⟨hstatus, hord⟩

theorem disordered_step (hs : s.Disordered j) (h : s.step reread a = some s') : s'.Disordered j := by
  obtain ⟨c, hold, hdis⟩ := hs
  obtain ⟨c', hc', heffect⟩ := step_effect h hold
  refine ⟨c', hc', fun hconn' => ?_⟩
  cases heffect with
  | none hpub hlog => exact hdis hconn'
  | published body hpub hbody hlog =>
    rw [SseConn.event_status] at hconn'
    exact SseConn.disorder_event hconn' (hdis hconn') _ _
  | replayed hpub hlog =>
    rw [SseConn.replayNext_status] at hconn'
    rw [SseConn.frames_replayNext hconn']
    exact hdis hconn'
  | closed status hpub hstatus hlog => exact absurd hconn' hstatus

end AdminFeed

/-- The numbers on the stream strictly increase. -/
def SseConn.InOrder (c : SseConn P) : Prop := c.sent.Pairwise (· < ·)

/-- Every broadcast event after the start of the connection is written, or held by its replay loop. -/
def SseConn.Lossless (c : SseConn P) (log : List (AdminEvent P)) : Prop :=
  ∀ e ∈ log, e.body.isBroadcast = true → c.start < e.seq → e.seq ∈ c.frames

open AdminFeed

variable {capacity : ℕ} {data : P} {as : List (FeedAction P)}

/-- **Delivery**: in every run that publishes nothing while the replay loop of a connection holds frames, the
connection is in order and, while it is open, misses nothing.  An open connection whose replay is through is
so in no other run. -/
theorem delivery_iff (h : exec (step reread) (init capacity data) as = some s) (hc : s.conns[j]? = some c) :
    (Every (step reread) (Unhurried j) (init capacity data) as →
        c.InOrder ∧ (c.status = .connected → c.Lossless s.log)) ∧
      (c.status = .connected → c.pending = [] →
        (c.InOrder ∧ c.Lossless s.log ↔ Every (step reread) (Unhurried j) (init capacity data) as)) := by
  have hends := @exec_dichotomy _ _ _ (Unhurried j) (Flows j) (ClosedInOrder j) (Disordered j)
    (fun _ _ _ hs hstep => flows_step hs hstep) (fun _ _ _ hs hstep => closedInOrder_step hs hstep)
    (fun _ _ _ hs hstep => disordered_step hs hstep) as _ _ (Or.inl init_flows) h
  have hgood : Every (step reread) (Unhurried j) (init capacity data) as →
      c.InOrder ∧ (c.status = .connected → c.Lossless s.log) := by
    intro hall
    rcases hends with ⟨-, hflows | ⟨c₁, hc₁, hclosed, hord⟩⟩ | ⟨hnot, -⟩
    · have hflow := (hflows.2 c hc).2
      exact ⟨(List.pairwise_append.mp hflow.inOrder).1, fun _ => hflow.lossless⟩
    · obtain rfl : c = c₁ := Option.some.inj (hc.symm.trans hc₁)
      exact ⟨hord, fun hconn => absurd hconn hclosed⟩
    · exact absurd hall hnot
  refine ⟨hgood, fun hconn hp => ⟨fun hord => ?_, fun hall => ⟨(hgood hall).1, (hgood hall).2 hconn⟩⟩⟩
  rcases hends with ⟨hall, -⟩ | ⟨-, c₁, hc₁, hdis⟩
  · exact hall
  · obtain rfl : c = c₁ := Option.some.inj (hc.symm.trans hc₁)
    have hframes : c.frames = c.sent := by
      rw [SseConn.frames, hp, List.map_nil, List.append_nil]
    exact absurd (hframes ▸ hord.1 : c.frames.Pairwise (· < ·)) (hdis hconn)

/-- A client reconnects with three events to replay, and the pool is published when they are through. -/
def unhurriedRun : List (FeedAction ℕ) :=
  [.connect none none, .connect none none, .ended 0, .mutate 1, .debounceTimer, .mutate 2, .debounceTimer,
    .connect (some 0) (some 1), .replayNext 2, .replayNext 2, .mutate 3, .debounceTimer]

/-- A client that gets one pool event after its snapshot, and one that is replayed what it missed. -/
theorem delivery_iff_one : (∃ s c, exec (step fun _ d => d) (init 200 0) [.connect none none, .mutate 1,
        .debounceTimer] = some s ∧ s.conns[0]? = some c ∧ c.sent = [1, 2] ∧
      (c.InOrder ∧ c.Lossless s.log ↔ Every (step fun _ d => d) (Unhurried 0) (init 200 0)
        [.connect none none, .mutate 1, .debounceTimer])) ∧
    ∃ s c, exec (step fun _ d => d) (init 200 0) unhurriedRun = some s ∧ s.conns[2]? = some c ∧
      c.sent = [2, 3, 4, 5] ∧ c.InOrder ∧ c.Lossless s.log := by
  obtain ⟨s, hs, hends⟩ := Option.map_eq_some_iff.mp
    (show (exec (step fun _ d => d) (init 200 0) unhurriedRun).map
      (fun s => s.conns[2]?.map fun c => (c.status, c.pending.length, c.sent)) =
        some (some (.connected, 0, [2, 3, 4, 5])) by decide)
  obtain ⟨c, hc, hc'⟩ := Option.map_eq_some_iff.mp hends
  simp only [Prod.mk.injEq, List.length_eq_zero_iff] at hc'
  obtain ⟨hconn, hp, hsent⟩ := hc'
  have hcare : Every (step fun _ d => d) (Unhurried 2) (init 200 0) unhurriedRun := by decide
  exact ⟨⟨_, _, rfl, rfl, rfl, (delivery_iff rfl rfl).2 rfl rfl⟩, s, c, hs, hc, hsent,
    ((delivery_iff hs hc).2 hconn hp).mpr hcare⟩

/-- A client reconnects with three events to replay; the pool is published after the first of them, and
overtakes the other two. -/
theorem delivery_overtaken : ∃ s c, exec (step fun _ d => d) (init 200 0)
      [.connect none none, .connect none none, .ended 0, .mutate 1, .debounceTimer, .mutate 2, .debounceTimer,
        .connect (some 0) (some 1), .mutate 3, .debounceTimer, .replayNext 2, .replayNext 2] = some s ∧
      s.conns[2]? = some c ∧ c.status = .connected ∧ c.pending = [] ∧ c.sent = [2, 5, 3, 4] ∧ ¬ c.InOrder :=
  ⟨_, _, rfl, rfl, rfl, rfl, rfl, by unfold SseConn.InOrder; decide⟩

end Delivery

end AgyProxy
