import AgyProxy.Server.EventsSpec

/-!
# AgyProxy.Server.PoolViewSpec — when the admin clients see the pool as it is

A change of the pool starts a timer; when it fires the pool goes to everybody who is registered, and to nobody
when nobody is.  A reconnect is then answered from the sequence number alone, which a skipped publish has not
moved.  A change through `persistSoon` starts that timer only when its own has fired.

* `endView`: the pool a client knows once its replay is through.
* `Current`: what holds of one connection while nothing is due.
* `poolView_current`: **convergence**; in a run where no event is published during a replay, and no
  reconnect is answered by a replay after a skipped publish, an open client whose replay is through knows the
  pool as it is whenever no publish is due and no change waits in `persistSoon`.
-/

namespace AgyProxy

open Lib

section View

variable {P : Type} {reread : P → P → P} {c : SseConn P} {log : List (AdminEvent P)} {e : AdminEvent P} {data : P}

namespace SseConn

/-- The pool the client knows once the held frames are written. -/
def endView (c : SseConn P) : Option P := (c.pending.filterMap AdminEvent.pool?).getLast?.or c.view

/-- The held frames come after what was written, in order. -/
structure Queued (log : List (AdminEvent P)) (c : SseConn P) : Prop where
  order : (c.lastEventId :: c.pending.map AdminEvent.seq).Pairwise (· < ·)
  mem : ∀ e ∈ c.pending, e ∈ log

theorem Queued.append (h : c.Queued log) : c.Queued (log ++ [e]) :=
  ⟨h.order, fun e' he' => List.mem_append_left _ (h.mem e' he')⟩

theorem queued_of_nil (hp : c.pending = []) : c.Queued log := by
  refine ⟨?_, ?_⟩
  · rw [hp]
    exact List.pairwise_singleton _ _
  · intro e he
    rw [hp] at he
    exact absurd he List.not_mem_nil

theorem endView_of_nil (hp : c.pending = []) : c.endView = c.view := by
  unfold endView
  rw [hp]
  rfl

theorem lastEventId_event (hc : c.status = .connected) (n : ℕ) (pool : Option P) :
    (c.event n pool).lastEventId = n := by
  rw [event_of_connected hc]
  show (c.sent ++ [n]).getLast?.getD c.start = n
  rw [List.getLast?_concat]
  rfl

theorem endView_event (hc : c.status = .connected) (hp : c.pending = []) (n : ℕ) (pool : Option P) :
    (c.event n pool).endView = pool.or c.endView := by
  rw [endView_of_nil ((event_pending n pool).trans hp), endView_of_nil hp, event_of_connected hc]

/-- A turn of the replay loop keeps the queue. -/
theorem Queued.replayNext (h : c.Queued log) (hc : c.status = .connected) : (c.replayNext reread data).Queued log := by
  cases hp : c.pending with
  | nil => rwa [replayNext_nil hp]
  | cons e rest =>
    have hlast := lastEventId_event (c := { c with pending := rest }) hc e.seq (e.pool?.map fun p => reread p data)
    rw [replayNext_cons hp]
    refine ⟨?_, ?_⟩
    · rw [hlast, event_pending]
      have horder := h.order
      rw [hp] at horder
      exact (List.pairwise_cons.mp horder).2
    · rw [event_pending]
      intro e' he'
      exact h.mem e' (hp ▸ List.mem_cons_of_mem e he')

/-- A turn of the replay loop does not change the outcome, when the pool is what the last held frame shows. -/
theorem endView_replayNext (hread : ∀ p, reread p p = p) (hc : c.status = .connected) (hend : c.endView = some data) :
    (c.replayNext reread data).endView = some data := by
  cases hp : c.pending with
  | nil => rwa [replayNext_nil hp]
  | cons e rest =>
    rw [replayNext_cons hp, event_of_connected (c := { c with pending := rest }) hc]
    unfold endView at hend ⊢
    rw [hp] at hend
    show (rest.filterMap AdminEvent.pool?).getLast?.or ((e.pool?.map fun p => reread p data).or c.view) = some data
    cases hpool : e.pool? with
    | none =>
      rw [List.filterMap_cons_none hpool] at hend
      exact hend
    | some p =>
      rw [List.filterMap_cons_some hpool, List.getLast?_cons] at hend
      cases hrest : (rest.filterMap AdminEvent.pool?).getLast? with
      | none =>
        rw [hrest] at hend
        obtain rfl : p = data := Option.some.inj hend
        exact congrArg some (hread p)
      | some q =>
        rw [hrest] at hend
        exact hend

theorem replayNext_closed (hc : c.status ≠ .connected) :
    (c.replayNext reread data).lastEventId = c.lastEventId ∧ (c.replayNext reread data).view = c.view := by
  cases hp : c.pending with
  | nil =>
    rw [replayNext_nil hp]
    exact ⟨rfl, rfl⟩
  | cons e rest =>
    rw [replayNext_cons hp, event_of_closed (c := { c with pending := rest }) hc]
    exact ⟨rfl, rfl⟩

theorem Queued.lastEventId_le (h : c.Queued log) (hlog : Numbered AdminEvent.seq log) (hc : c.status = .connected)
    (hbound : c.lastEventId ≤ log.length) : (c.replayNext reread data).lastEventId ≤ log.length := by
  cases hp : c.pending with
  | nil => rwa [replayNext_nil hp]
  | cons e rest =>
    rw [replayNext_cons hp, lastEventId_event (c := { c with pending := rest }) hc]
    exact hlog.le (h.mem e (hp ▸ List.mem_cons_self))

end SseConn

end View

/-! ### What holds while nothing is due -/

section Invariant

variable {P : Type} {s s' t : AdminFeed P} {c c' : SseConn P} {e : AdminEvent P}

namespace AdminFeed

/-- The event is the last one that carries the pool. -/
def LastPool (log : List (AdminEvent P)) (e : AdminEvent P) : Prop :=
  e ∈ log ∧ ∀ e' ∈ log, e'.pool?.isSome → e'.seq ≤ e.seq

/-- The connection has written every event that carries the pool. -/
def CaughtUp (log : List (AdminEvent P)) (c : SseConn P) : Prop :=
  ∀ e ∈ log, e.pool?.isSome → e.seq ≤ c.lastEventId

/-- One connection: an open one ends with the pool as it is while nothing is due; what a closed one has seen is
the pool as it is when it caught up and no publish was skipped since. -/
structure Current (s : AdminFeed P) (c : SseConn P) : Prop where
  bound : c.lastEventId ≤ s.log.length
  queued : c.status = .connected → c.Queued s.log
  fed : c.status = .connected → ¬ s.Unsettled → c.endView = some s.data
  rests : c.status ≠ .connected → ¬ s.Unsettled → s.skipped = false → CaughtUp s.log c → c.view = some s.data

structure Converging (s : AdminFeed P) : Prop where
  logged : s.Logged
  /-- the last event with the pool shows it as it is -/
  last : ¬ s.Unsettled → s.skipped = false → ∀ e p, LastPool s.log e → e.pool? = some p → p = s.data
  /-- with a listener a skipped publish is due again -/
  heard : ∀ c ∈ s.conns, c.status ≠ .ended → ¬ s.Unsettled → s.skipped = false
  conns : ∀ c ∈ s.conns, s.Current c

theorem init_converging {capacity : ℕ} {data : P} : (init capacity data).Converging where
  logged := init_logged
  last := fun _ _ _ _ he => absurd he.1 List.not_mem_nil
  heard := fun _ hc => absurd hc List.not_mem_nil
  conns := fun _ hc => absurd hc List.not_mem_nil

/-- Open or closed, who has caught up has seen the pool as it is. -/
theorem Current.view_of_caughtUp (h : s.Current c) (hdue : ¬ s.Unsettled) (hskip : s.skipped = false)
    (hup : CaughtUp s.log c) : c.view = some s.data := by
  by_cases hconn : c.status = .connected
  · have hqueued := h.queued hconn
    have hnone : c.pending.filterMap AdminEvent.pool? = [] := by
      apply List.filterMap_eq_nil_iff.mpr
      intro e he
      by_contra hpool
      have hle := hup e (hqueued.mem e he) (Option.isSome_iff_ne_none.mpr hpool)
      have hlt := List.rel_of_pairwise_cons hqueued.order (List.mem_map_of_mem he)
      omega
    have hend := h.fed hconn hdue
    unfold SseConn.endView at hend
    rwa [hnone] at hend
  · exact h.rests hconn hdue hskip hup

/-- Only the pool, the log, what is due and what was skipped matter. -/
theorem Current.congr (h : s.Current c) (hlog : s'.log = s.log) (hskip : s'.skipped = s.skipped) (htimed : s.Timed s') :
    s'.Current c := by
  refine ⟨hlog ▸ h.bound, fun hconn => hlog ▸ h.queued hconn, fun hconn hdue => ?_, fun hconn hdue hskip' hup => ?_⟩
  · rcases htimed with hdue' | ⟨hdata, hiff⟩
    · exact absurd hdue' hdue
    · rw [hdata]
      exact h.fed hconn (fun hs => hdue (hiff.mpr hs))
  · rcases htimed with hdue' | ⟨hdata, hiff⟩
    · exact absurd hdue' hdue
    · rw [hdata]
      exact h.rests hconn (fun hs => hdue (hiff.mpr hs)) (hskip ▸ hskip') (hlog ▸ hup)

/-- The pool or its timers change. -/
theorem Converging.quiet (h : s.Converging) (hq : s.Quiet s') (hskip : s'.skipped = s.skipped) (htimed : s.Timed s') :
    s'.Converging where
  logged := hq.logged h.logged
  last := by
    intro hdue hskip' e p he hpool
    rcases htimed with hdue' | ⟨hdata, hiff⟩
    · exact absurd hdue' hdue
    · rw [hdata]
      exact h.last (fun hs => hdue (hiff.mpr hs)) (hskip ▸ hskip') e p (hq.log ▸ he) hpool
  heard := by
    intro c hc hreg hdue
    rcases htimed with hdue' | ⟨-, hiff⟩
    · exact absurd hdue' hdue
    · rw [hskip]
      exact h.heard c (hq.conns ▸ hc) hreg fun hs => hdue (hiff.mpr hs)
  conns := fun c hc => (h.conns c (hq.conns ▸ hc)).congr hq.log hskip htimed

/-! ### Events -/

theorem mem_append_log {body : AdminEventBody P} (he : e ∈ (s.append body).log) :
    e ∈ s.log ∨ e = s.bus.nextEvent body := by
  rcases List.mem_append.mp he with he | he
  · exact Or.inl he
  · exact Or.inr (List.mem_singleton.mp he)

/-- A new event with the pool is the last one. -/
theorem LastPool.eq_new (hs : s.Logged) (body : AdminEventBody P) (hbody : body.pool?.isSome)
    (he : LastPool (s.append body).log e) : e = s.bus.nextEvent body := by
  rcases mem_append_log he.1 with hold | hnew
  · have hle := he.2 _ (List.mem_append_right _ (List.mem_singleton_self (s.bus.nextEvent body))) hbody
    have := hs.numbered.le hold
    rw [hs.nextEvent_seq] at hle
    omega
  · exact hnew

/-- Nobody has caught up with an event that was not written. -/
theorem not_caughtUp_new (hs : s.Logged) (body : AdminEventBody P) (hbody : body.pool?.isSome)
    (hbound : c.lastEventId ≤ s.log.length) : ¬ CaughtUp (s.append body).log c := by
  intro hup
  have hle := hup _ (List.mem_append_right _ (List.mem_singleton_self (s.bus.nextEvent body))) hbody
  rw [hs.nextEvent_seq] at hle
  omega

/-- An event without the pool changes nothing about it. -/
theorem LastPool.of_append (body : AdminEventBody P) (hbody : body.pool? = none) (hpool : e.pool?.isSome)
    (he : LastPool (s.append body).log e) : LastPool s.log e := by
  refine ⟨?_, fun e' he' => he.2 e' (List.mem_append_left _ he')⟩
  rcases mem_append_log he.1 with hold | rfl
  · exact hold
  · rw [AdminEvent.pool?, AdminEventBus.nextEvent, hbody] at hpool
    exact absurd hpool Bool.false_ne_true

/-- A live frame, with no replay under way, leaves nothing behind. -/
theorem event_written (hs : s.Logged) (body : AdminEventBody P) (hbound : c.lastEventId ≤ s.log.length)
    (hp : c.status = .connected → c.pending = []) :
    (c.event (s.bus.nextEvent body).seq body.pool?).lastEventId ≤ (s.publish body).log.length ∧
      ((c.event (s.bus.nextEvent body).seq body.pool?).status = .connected →
        (c.event (s.bus.nextEvent body).seq body.pool?).Queued (s.publish body).log) := by
  have hlen : (s.publish body).log.length = s.log.length + 1 := List.length_append
  by_cases hconn : c.status = .connected
  · refine ⟨?_, fun _ => SseConn.queued_of_nil ((SseConn.event_pending _ _).trans (hp hconn))⟩
    rw [SseConn.lastEventId_event hconn, hs.nextEvent_seq, hlen]
  · rw [SseConn.event_of_closed hconn]
    exact ⟨by omega, fun hyes => absurd hyes hconn⟩

/-- **Published pool**: every open connection shows it. -/
theorem current_publish_pool (hs : s.Logged) (hbound : c.lastEventId ≤ s.log.length)
    (hp : c.status = .connected → c.pending = []) :
    (s.publish (.pool s.data)).Current (c.event (s.bus.nextEvent (.pool s.data)).seq (some s.data)) := by
  have hwritten := event_written hs (.pool s.data) hbound hp
  refine ⟨hwritten.1, hwritten.2, fun hconn _ => ?_, fun hconn _ _ hup => ?_⟩
  · rw [SseConn.event_status] at hconn
    rw [SseConn.endView_event hconn (hp hconn)]
    rfl
  · rw [SseConn.event_status] at hconn
    rw [SseConn.event_of_closed hconn] at hup
    exact absurd hup (not_caughtUp_new hs (.pool s.data) rfl hbound)

/-- A published run changes nothing about the pool. -/
theorem Current.publish_run (hs : s.Logged) (h : s.Current c) (run : BusRun)
    (hp : c.status = .connected → c.pending = []) :
    (s.publish (.run run)).Current (c.event (s.bus.nextEvent (.run run)).seq none) := by
  have hwritten := event_written hs (.run run) h.bound hp
  refine ⟨hwritten.1, hwritten.2, fun hconn hdue => ?_, fun hconn hdue hskip hup => ?_⟩
  · rw [SseConn.event_status] at hconn
    rw [SseConn.endView_event hconn (hp hconn)]
    exact h.fed hconn hdue
  · rw [SseConn.event_status] at hconn
    rw [SseConn.event_of_closed hconn] at hup ⊢
    refine h.rests hconn hdue ?_ fun e he => hup e (List.mem_append_left _ he)
    exact (Bool.and_true s.skipped).symm.trans hskip

theorem mem_publish {body : AdminEventBody P} (hc : c ∈ (s.publish body).conns) :
    ∃ c₀ ∈ s.conns, c = c₀.event (s.bus.nextEvent body).seq body.pool? := by
  obtain ⟨c₀, hc₀, rfl⟩ := List.mem_map.mp hc
  exact ⟨c₀, hc₀, rfl⟩

/-- The last event with the pool, when one is published. -/
theorem converging_publish_pool (hs : s.Logged) (hbound : ∀ c ∈ s.conns, c.lastEventId ≤ s.log.length)
    (hp : ∀ c ∈ s.conns, c.status = .connected → c.pending = []) : (s.publish (.pool s.data)).Converging where
  logged := ⟨(hs.append _).numbered, (hs.append _).ring, (hs.append _).seq⟩
  last := by
    intro _ _ e p he hpool
    obtain rfl := LastPool.eq_new hs (.pool s.data) rfl he
    exact (Option.some.inj hpool).symm
  heard := fun _ _ _ _ => Bool.and_false _
  conns := by
    intro c hc
    obtain ⟨c₀, hc₀, rfl⟩ := mem_publish hc
    exact current_publish_pool hs (hbound c₀ hc₀) (hp c₀ hc₀)

theorem Converging.publish_run (h : s.Converging) (run : BusRun)
    (hp : ∀ c ∈ s.conns, c.status = .connected → c.pending = []) : (s.publish (.run run)).Converging where
  logged := ⟨(h.logged.append _).numbered, (h.logged.append _).ring, (h.logged.append _).seq⟩
  last := by
    intro hdue hskip e p he hpool
    have hold := LastPool.of_append (.run run) rfl (hpool ▸ rfl) he
    exact h.last hdue ((Bool.and_true s.skipped).symm.trans hskip) e p hold hpool
  heard := by
    intro c hc hreg hdue
    obtain ⟨c₀, hc₀, rfl⟩ := mem_publish hc
    rw [SseConn.event_status] at hreg
    exact (Bool.and_true s.skipped).trans (h.heard c₀ hc₀ hreg hdue)
  conns := by
    intro c hc
    obtain ⟨c₀, hc₀, rfl⟩ := mem_publish hc
    exact (h.conns c₀ hc₀).publish_run h.logged run (hp c₀ hc₀)

end AdminFeed

end Invariant

/-! ### Connects, and the run -/

section Run

variable {P : Type} {reread : P → P → P} {s s' t : AdminFeed P} {c : SseConn P} {a : FeedAction P}

namespace AdminFeed

/-- No replay is under way. -/
def NoReplay (s : AdminFeed P) : Prop := ∀ c ∈ s.conns, c.status = .connected → c.pending.isEmpty = true

/-- The step publishes nothing while a replay is under way; a reconnect that is answered by a replay names an
event its client was sent, and follows no skipped publish that is not due again. -/
def Careful (s : AdminFeed P) : FeedAction P → Prop
  | .debounceTimer => s.NoReplay
  | .publishRun _ => s.NoReplay
  | .connect client (some last) =>
    s.bus.canReplayFrom last = true →
      (∃ c ∈ s.earlier client, last ≤ c.lastEventId) ∧ (s.skipped = true → s.Unsettled)
  | _ => True

instance (s : AdminFeed P) : Decidable s.Unsettled := inferInstanceAs (Decidable (_ ∨ _))

instance (s : AdminFeed P) : Decidable s.NoReplay := inferInstanceAs (Decidable (∀ c ∈ s.conns, _ → _))

/-- Whether a step is careful can be computed. -/
instance Careful.decidable (s : AdminFeed P) : (a : FeedAction P) → Decidable (s.Careful a)
  | .debounceTimer => inferInstanceAs (Decidable s.NoReplay)
  | .publishRun _ => inferInstanceAs (Decidable s.NoReplay)
  | .connect _ (some _) => inferInstanceAs (Decidable (_ → (∃ c ∈ _, _) ∧ _))
  | .connect _ none | .mutate _ | .mutateSoon _ | .quotaChange _ | .persistTimer | .flush | .replayNext _
  | .drop _ | .ended _ => inferInstanceAs (Decidable True)

theorem NoReplay.pending (h : s.NoReplay) (hc : c ∈ s.conns) (hconn : c.status = .connected) : c.pending = [] :=
  List.isEmpty_iff.mp (h c hc hconn)

/-- **Replay**: a reconnect gets what it missed, and that ends with the pool as it is. -/
theorem Converging.fresh_replay (h : s.Converging) {client : Option ℕ} {last : ℕ}
    (hlast : s.bus.canReplayFrom last = true) (hcare : s.Careful (.connect client (some last))) :
    s.Current (s.fresh client last (s.bus.replayAfter last)) := by
  obtain ⟨hle, hreplay⟩ := h.logged.replayAfter_eq hlast
  obtain ⟨⟨c, hearlier, hseen⟩, hunskipped⟩ := hcare hlast
  have hmem : c ∈ s.conns := by
    obtain ⟨j, -, hj⟩ := Option.bind_eq_some_iff.mp hearlier
    exact List.mem_of_getElem? hj
  rw [hreplay]
  refine ⟨hle, fun _ => ⟨?_, fun e he => List.mem_of_mem_filter he⟩, fun _ hdue => ?_, fun hnot => absurd rfl hnot⟩
  · refine List.pairwise_cons.mpr ⟨?_, ?_⟩
    · intro n hn
      obtain ⟨e, he, rfl⟩ := List.mem_map.mp hn
      exact of_decide_eq_true (List.mem_filter.mp he).2
    · exact List.pairwise_map.mpr (h.logged.numbered.pairwise.sublist List.filter_sublist)
  · have hskip : s.skipped = false := by
      apply Bool.eq_false_iff.mpr
      exact fun hs => hdue (hunskipped hs)
    show ((s.log.filter fun e => decide (last < e.seq)).filterMap AdminEvent.pool?).getLast?.or
      ((s.earlier client).bind SseConn.view) = some s.data
    cases hend : ((s.log.filter fun e => decide (last < e.seq)).filterMap AdminEvent.pool?).getLast? with
    | none =>
      -- no pool among the missed events: the client had caught up
      have hnone := List.getLast?_eq_none_iff.mp hend
      rw [hearlier]
      refine (h.conns c hmem).view_of_caughtUp hdue hskip fun e he hpool => ?_
      by_contra hlt
      have hin : e ∈ s.log.filter fun e => decide (last < e.seq) :=
        List.mem_filter.mpr ⟨he, decide_eq_true (by omega)⟩
      have := List.filterMap_eq_nil_iff.mp hnone e hin
      rw [this] at hpool
      exact absurd hpool Bool.false_ne_true
    | some p =>
      have hsorted := h.logged.numbered.pairwise.sublist
        (List.filter_sublist (p := fun e : AdminEvent P => decide (last < e.seq)))
      obtain ⟨e, he, hpool, hmax⟩ := exists_latest hsorted hend
      have hlt : last < e.seq := of_decide_eq_true (List.mem_filter.mp he).2
      have hlastPool : LastPool s.log e := by
        refine ⟨List.mem_of_mem_filter he, fun e' he' hpool' => ?_⟩
        by_contra hlater
        have hin : e' ∈ s.log.filter fun e => decide (last < e.seq) :=
          List.mem_filter.mpr ⟨he', decide_eq_true (by omega)⟩
        exact hlater (hmax e' hin hpool')
      exact congrArg some (h.last hdue hskip e p hlastPool hpool)

/-- A turn of a replay loop. -/
theorem Current.replayNext (h : s.Current c) (hlog : s.Logged) (hread : ∀ p, reread p p = p) :
    s.Current (c.replayNext reread s.data) := by
  by_cases hconn : c.status = .connected
  · have hqueued := h.queued hconn
    refine ⟨?_, fun _ => hqueued.replayNext hconn, fun _ hdue => ?_, fun hnot => ?_⟩
    · exact hqueued.lastEventId_le hlog.numbered hconn h.bound
    · exact SseConn.endView_replayNext hread hconn (h.fed hconn hdue)
    · exact absurd ((SseConn.replayNext_status _).trans hconn) hnot
  · obtain ⟨hid, hview⟩ := @SseConn.replayNext_closed P reread c s.data hconn
    have hstatus := @SseConn.replayNext_status P reread c s.data
    refine ⟨hid ▸ h.bound, fun hyes => ?_, fun hyes => ?_, fun _ hdue hskip hup => ?_⟩
    · exact absurd (hstatus.symm.trans hyes) hconn
    · exact absurd (hstatus.symm.trans hyes) hconn
    · rw [hview]
      refine h.rests hconn hdue hskip fun e he hpool => ?_
      exact hid ▸ hup e he hpool

/-- A closed connection rests on what it has seen. -/
theorem Current.close (h : s.Current c) {status : SseStatus} (hstatus : status ≠ .connected) :
    s.Current { c with status := status } where
  bound := h.bound
  queued := fun hyes => absurd hyes hstatus
  fed := fun hyes => absurd hyes hstatus
  rests := fun _ hdue hskip hup => h.view_of_caughtUp hdue hskip hup

/-- The connections change, each to one that is as current. -/
theorem Converging.of_conns (h : s.Converging) {conns : List (SseConn P)}
    (hcurrent : ∀ c ∈ conns, s.Current c)
    (hheard : ∀ c ∈ conns, c.status ≠ .ended → ¬ s.Unsettled → s.skipped = false) :
    { s with conns := conns }.Converging where
  logged := ⟨h.logged.numbered, h.logged.ring, h.logged.seq⟩
  last := h.last
  heard := hheard
  conns := fun c hc => (hcurrent c hc).congr rfl rfl (Or.inr ⟨rfl, Iff.rfl⟩)

/-- One connection changes. -/
theorem Converging.modify (h : s.Converging) {f : SseConn P → SseConn P} {j : ℕ}
    (hcurrent : ∀ c, s.conns[j]? = some c → s.Current (f c))
    (hreg : ∀ c, s.conns[j]? = some c → (f c).status ≠ .ended → c.status ≠ .ended) :
    { s with conns := s.conns.modify j f }.Converging := by
  have hfrom : ∀ c ∈ s.conns.modify j f, c ∈ s.conns ∨ ∃ c₀, s.conns[j]? = some c₀ ∧ c = f c₀ := by
    intro c hc
    obtain ⟨i, hi⟩ := List.mem_iff_getElem?.mp hc
    rw [List.getElem?_modify] at hi
    obtain ⟨c₀, hc₀, hf⟩ := Option.map_eq_some_iff.mp hi
    split at hf
    · next heq => exact Or.inr ⟨c₀, heq ▸ hc₀, hf.symm⟩
    · exact Or.inl (hf ▸ List.mem_of_getElem? hc₀)
  refine h.of_conns (fun c hc => ?_) (fun c hc hnot => ?_)
  · rcases hfrom c hc with hc | ⟨c₀, hc₀, rfl⟩
    · exact h.conns c hc
    · exact hcurrent c₀ hc₀
  · rcases hfrom c hc with hc | ⟨c₀, hc₀, rfl⟩
    · exact h.heard c hc hnot
    · exact h.heard c₀ (List.mem_of_getElem? hc₀) (hreg c₀ hc₀ hnot)

theorem Converging.connectReplay (h : s.Converging) (hread : ∀ p, reread p p = p) {client : Option ℕ} {last : ℕ}
    (hlast : s.bus.canReplayFrom last = true) (hcare : s.Careful (.connect client (some last))) :
    (s.connectReplay reread client last).Converging := by
  have hfresh := (h.fresh_replay hlast hcare).replayNext h.logged hread
  refine h.of_conns (fun c hc => ?_) (fun c hc hreg hdue => ?_)
  · rcases List.mem_append.mp hc with hc | hc
    · exact h.conns c hc
    · exact List.mem_singleton.mp hc ▸ hfresh
  · apply Bool.eq_false_iff.mpr
    exact fun hskip => hdue ((hcare hlast).2 hskip)

/-- **Snapshot**: the new client is told the pool as it is. -/
theorem Converging.connectSnapshot (h : s.Converging) (client : Option ℕ) : (s.connectSnapshot client).Converging where
  logged := ⟨(h.logged.append _).numbered, (h.logged.append _).ring, (h.logged.append _).seq⟩
  last := by
    intro _ _ e p he hpool
    obtain rfl := LastPool.eq_new h.logged (.snapshot s.data) rfl he
    exact (Option.some.inj hpool).symm
  heard := fun _ _ _ _ => Bool.and_false _
  conns := by
    intro c hc
    have hlen : (s.connectSnapshot client).log.length = s.log.length + 1 := List.length_append
    rcases List.mem_append.mp hc with hc | hc
    · have hcur := h.conns c hc
      refine ⟨?_, fun hconn => (hcur.queued hconn).append, hcur.fed, fun _ _ _ hup => ?_⟩
      · have := hcur.bound
        omega
      · exact absurd hup (not_caughtUp_new h.logged (.snapshot s.data) rfl hcur.bound)
    · rw [List.mem_singleton.mp hc]
      refine ⟨?_, fun _ => SseConn.queued_of_nil rfl, fun _ _ => rfl, fun hnot => absurd rfl hnot⟩
      rw [hlen]
      exact (h.logged.nextEvent_seq (.snapshot s.data)).le

/-- **One step.** -/
theorem converging_step (hread : ∀ p, reread p p = p) (hs : s.Converging) (hcare : s.Careful a)
    (h : s.step reread a = some s') : s'.Converging := by
  rcases step_cases h with ⟨-, hq, hskip, htimed⟩ | ⟨rfl, rfl⟩ | ⟨run, rfl, rfl⟩ | ⟨client, last, rfl, rfl⟩ |
    ⟨conn, rfl, rfl⟩ | ⟨conn, status, -, hstatus, hopen, rfl⟩
  · exact hs.quiet hq hskip htimed
  · rcases s.publishDue_cases with ⟨t, hq, hdata, -, -, ht⟩ | ⟨hall, hq, hskip⟩
    · rw [ht, ← hdata]
      refine converging_publish_pool (hq.logged hs.logged) (fun c hc => ?_) (fun c hc => ?_)
      · rw [hq.log]
        exact (hs.conns c (hq.conns ▸ hc)).bound
      · exact NoReplay.pending hcare (hq.conns ▸ hc)
    · refine ⟨hq.logged hs.logged, fun _ hno => ?_, fun c hc hreg => ?_, fun c hc => ?_⟩
      · exact absurd (hskip.symm.trans hno) Bool.noConfusion
      · exact absurd (hall c (hq.conns ▸ hc)) hreg
      · have hended := hall c (hq.conns ▸ hc)
        have hclosed : c.status ≠ .connected := hended ▸ nofun
        refine ⟨?_, fun hyes => absurd hyes hclosed, fun hyes => absurd hyes hclosed, fun _ _ hno => ?_⟩
        · rw [hq.log]
          exact (hs.conns c (hq.conns ▸ hc)).bound
        · exact absurd (hskip.symm.trans hno) Bool.noConfusion
  · exact hs.publish_run run fun c hc => NoReplay.pending hcare hc
  · rcases @connect_cases _ reread s client last with ⟨last, rfl, hlast, hconn⟩ | hconn
    · rw [hconn]
      exact hs.connectReplay hread hlast hcare
    · rw [hconn]
      exact hs.connectSnapshot client
  · refine hs.modify (fun c hc => ?_) (fun c hc hreg => ?_)
    · exact (hs.conns c (List.mem_of_getElem? hc)).replayNext hs.logged hread
    · rwa [SseConn.replayNext_status] at hreg
  · refine hs.modify (fun c hc => ?_) (fun c hc _ => ?_)
    · exact (hs.conns c (List.mem_of_getElem? hc)).close hstatus
    · obtain ⟨c₀, hc₀, hreg⟩ := (Option.any_eq_true _ _).mp hopen
      obtain rfl : c = c₀ := Option.some.inj (hc.symm.trans hc₀)
      exact of_decide_eq_true hreg

end AdminFeed

open AdminFeed

variable {capacity : ℕ} {data : P} {as : List (FeedAction P)}

/-- **Convergence**: in every state a careful run reaches with no publish timer pending and no change waiting in
`persistSoon`, an open client whose replay is through has been sent the pool as it is.  A frame of the ring whose
pool is still the pool shows it (`reread`). -/
theorem poolView_current (hread : ∀ p, reread p p = p) (h : exec (step reread) (init capacity data) as = some s)
    (hcare : Every (step reread) Careful (init capacity data) as) (hc : c ∈ s.conns) (hconn : c.status = .connected)
    (hp : c.pending = []) (htimer : s.bus.debounceTimer = false) (hsoon : s.persistDirty = false) :
    c.view = some s.data := by
  have hconv : s.Converging := exec_invariant (fun _ _ _ hs hok hstep => converging_step hread hs hok hstep) as _ _
    init_converging hcare h
  have hdue : ¬ s.Unsettled := by
    rintro (hyes | hyes)
    · exact absurd (hyes.symm.trans htimer) Bool.noConfusion
    · exact absurd (hyes.symm.trans hsoon) Bool.noConfusion
  rw [← SseConn.endView_of_nil hp]
  exact (hconv.conns c hc).fed hconn hdue

/-- Two clients; one leaves, the pool changes on the hot path, it comes back and is replayed what it missed. -/
theorem poolView_current_back : ∃ s c, exec (step fun _ d => d) (init 200 0)
      [.connect none none, .connect none none, .ended 0, .mutateSoon 1, .persistTimer, .debounceTimer,
        .connect (some 0) (some 1), .replayNext 2] = some s ∧ s.conns[2]? = some c ∧ c.view = some s.data := by
  have hcare : Every (step fun _ d => d) Careful (init 200 0)
      [.connect none none, .connect none none, .ended 0, .mutateSoon 1, .persistTimer, .debounceTimer,
        .connect (some 0) (some 1), .replayNext 2] := by decide
  refine ⟨_, _, rfl, rfl, ?_⟩
  refine poolView_current (fun _ => rfl) ?_ hcare (List.mem_of_getElem? (i := 2) rfl) rfl rfl rfl rfl
  rfl

/-- **A lost change**: the only client leaves, the pool changes, its publish finds nobody, and the client comes
back with the newest number: it is replayed nothing.  A late one: a change through `persistSoon` that waits for its
timer is not on its way to the client, and no publish timer says so. -/
theorem not_poolView_current_alone : (∃ s c, exec (step fun _ d => d) (init 200 0)
      [.connect none none, .ended 0, .mutate 1, .debounceTimer, .connect (some 0) (some 1)] = some s ∧
      s.conns[1]? = some c ∧ c.status = .connected ∧ c.pending = [] ∧ s.bus.debounceTimer = false ∧
      s.persistDirty = false ∧ s.data = 1 ∧ c.view = some 0) ∧
    ∃ s c, exec (step fun _ d => d) (init 200 0) [.connect none none, .mutateSoon 1] = some s ∧
      s.conns[0]? = some c ∧ c.status = .connected ∧ c.pending = [] ∧ s.bus.debounceTimer = false ∧
      s.persistDirty = true ∧ s.data = 1 ∧ c.view = some 0 :=
  ⟨⟨_, _, rfl, rfl, rfl, rfl, rfl, rfl, rfl, rfl⟩, _, _, rfl, rfl, rfl, rfl, rfl, rfl, rfl, rfl⟩

end Run

end AgyProxy
