import AgyProxy.Host.SpanSystemSpec

/-!
# AgyProxy.Host.Continuation — when a run can be resumed

A client that received a tool call comes back with its id, and the registry must still have the recording.
`keepForContinuation` is written where a span ends, the recording is forgotten where the run settles or a
span ends: the two can miss each other.

* `forgets`: the steps that drop the recording.  `pendingCall`: a client holds an id nobody resumed, or
  its open span is still going to be cut.
* `continuation_available`: if no step forgets the recording over a pending call, every delivered call id
  can be resumed.
-/

namespace AgyProxy

open Js Lib EventMapper

/-- A span over these events is cut: a completed tool step comes before any result that finishes it. -/
def endsInCut : List AgyEvent → Bool
  | [] => false
  | ev :: evs => ev.isToolDone || (!ev.finishes && endsInCut evs)

/-- The client holds a call id of this span, or its span is open and will be cut, and no span was attached
at the cut since. -/
def Consumer.pendingCall (events : List AgyEvent) (c : Consumer) : Bool :=
  !c.resumed &&
    if c.drain = .over ∨ c.drain = .returning then c.clientSawToolCall else endsInCut (events.drop c.start)

namespace SpanState

/-- The steps that drop the recording from the registry: settling without the keep flag, and on a settled
run the tail of a span that was not cut and the `finally` of one whose client saw no tool call when the
keep flag is not set either. -/
def forgets (s : SpanState) : SpanAction → Bool
  | .settle _ _ => !s.recording.keepForContinuation
  | .tail j => s.recording.settled && s.consumers[j]?.any fun c => !c.cutOnToolEnd
  | .finalize j => s.recording.settled && !s.recording.keepForContinuation &&
      s.consumers[j]?.any fun c => !c.clientSawToolCall
  | _ => false

/-- The step does not drop the recording while a call is pending. -/
def KeepsPending (s : SpanState) (a : SpanAction) : Prop :=
  s.forgets a = true → ∀ c ∈ s.consumers, c.pendingCall s.recording.events = false

instance (s : SpanState) (a : SpanAction) : Decidable (s.KeepsPending a) :=
  inferInstanceAs (Decidable (_ → _))

/-- Every call id delivered by a span that ended and was not resumed names this run and can be resumed. -/
def Continuable (s : SpanState) : Prop :=
  ∀ c ∈ s.consumers, c.drain = .over → c.resumed = false → ∀ id ∈ toolCallIds c.delivered,
    ∃ i, parseMirrorCallId id = some (s.recording.runId.val, i) ∧ (s.step (.attach (i + 1))).isSome = true

end SpanState

/-! ### Cuts in the log -/

section Cuts

theorem endsInCut_append {evs : List AgyEvent} (h : endsInCut evs = true) (more : List AgyEvent) :
    endsInCut (evs ++ more) = true := by
  induction evs with
  | nil => cases h
  | cons ev evs ih =>
    rw [List.cons_append, endsInCut]
    rw [endsInCut, Bool.or_eq_true, Bool.and_eq_true] at h
    rcases h with h | ⟨h1, h2⟩
    · rw [h]
      rfl
    · rw [h1, ih h2]
      exact Bool.or_true _

/-- A cutting mapper is cut by exactly these logs. -/
theorem listen_cut : ∀ (evs : List AgyEvent) (b : Memory), b.Cutting → (b.listen evs).2.cut = endsInCut evs
  | [], _, _ => rfl
  | ev :: evs, b, h => by
    obtain ⟨hcut, hfin, hkeep⟩ := h.hear ev
    rw [Memory.listen, hfin, endsInCut]
    cases ht : ev.isToolDone with
    | true =>
      have he : ev.ends = true := by rw [AgyEvent.ends, ht]; rfl
      rw [he, if_pos rfl, hcut, ht]
      rfl
    | false =>
      cases hf : ev.finishes with
      | true =>
        have he : ev.ends = true := by rw [AgyEvent.ends, hf, Bool.or_true]
        rw [he, if_pos rfl, hcut, ht]
        rfl
      | false =>
        have he : ev.ends = false := by rw [AgyEvent.ends, ht, hf]; rfl
        rw [he, if_neg Bool.false_ne_true]
        show ((b.hear ev).2.cut || ((b.hear ev).1.listen evs).2.cut) = _
        rw [hcut, ht, listen_cut evs _ (hkeep he)]
        rfl

theorem toolCallIds_withoutUsage (out : List StreamChunk) : toolCallIds (withoutUsage out) = toolCallIds out := by
  rw [toolCallIds, withoutUsage, List.filterMap_map, toolCallIds]
  congr 1
  funext ch
  cases ch <;> rfl

variable {rec : RunRecording} {c : Consumer}

/-- What a consumer pushed holds a tool call only if its part of the log is cut. -/
theorem Reads.endsInCut (h : Reads rec c) (hcall : toolCallIds c.pushed ≠ []) :
    AgyProxy.endsInCut (rec.events.drop c.start) = true := by
  have hfold : toolCallIds c.pushed = toolCallIds (c.fold rec).2 := by
    by_cases hd : c.pump = .done
    · obtain ⟨b, hend⟩ := endOfLog_heard rec.failure (c.fold rec).1 0
      have hnone : toolCallIds (endOfLog rec.failure (c.fold rec).1).2 = [] := hend.calls
      rw [← toolCallIds_withoutUsage c.pushed, h.done_eq hd, toolCallIds_withoutUsage]
      show toolCallIds ((c.fold rec).2 ++ (endOfLog rec.failure (c.fold rec).1).2) = _
      rw [toolCallIds_append, hnone, List.append_nil]
    · rw [← toolCallIds_withoutUsage c.pushed, h.pushed_eq hd, toolCallIds_withoutUsage]
  obtain ⟨-, -, -, -, hids, -⟩ := pump_heard (fun _ => none) (c.slice rec.events) c.start
    (.new rec.runId true c.saw)
  have hids : toolCallIds (c.fold rec).2 = _ := hids
  rw [hfold, hids] at hcall
  have hcut : ((EventMapper.new rec.runId true c.saw).memory.listen (c.slice rec.events)).2.cut = true := by
    by_contra hne
    exact hcall (if_neg hne)
  have hcut := (listen_cut _ _ (Memory.cutting_new c.saw)).symm.trans hcut
  rw [← List.take_append_drop (c.cursor - c.start) (rec.events.drop c.start)]
  exact endsInCut_append hcut _

theorem toolCallIds_ne_nil {out : List StreamChunk} : toolCallIds out ≠ [] ↔ out.any StreamChunk.isToolCallEnd := by
  rw [toolCallIds, ne_eq, List.filterMap_eq_nil_iff, List.any_eq_true]
  push Not
  exact exists_congr fun ch => and_congr_right fun _ => Option.isSome_iff_ne_none.symm

/-- A client that saw a tool call reads a span whose part of the log is cut. -/
theorem ConsumerInv.endsInCut (h : ConsumerInv rec c) (hsaw : c.clientSawToolCall = true) :
    AgyProxy.endsInCut (rec.events.drop c.start) = true := by
  refine h.reads.endsInCut ?_
  rw [h.delivers.saw, ← toolCallIds_ne_nil] at hsaw
  rw [← h.delivers.queue_eq, toolCallIds_append]
  exact fun hnil => hsaw (List.append_eq_nil_iff.mp hnil).1

end Cuts

/-! ### The registry -/

section Registry

open SpanState

variable {s s' : SpanState} {a : SpanAction}

theorem settleRun_registry (h : s.recording.settled = false) (failure : Option RecordingFailure) (books : Bool) :
    (s.settleRun failure books).registered = (s.registered && s.recording.keepForContinuation) ∧
    (s.settleRun failure books).recording.settled = true ∧
    (s.settleRun failure books).recording.events = s.recording.events := by
  have hreg : (s.bill books).registered = s.registered := by
    unfold bill
    split_ifs <;> rfl
  unfold settleRun
  rw [settle_bill h]
  dsimp only
  cases s.recording.keepForContinuation with
  | true => exact ⟨by rw [Bool.and_true]; exact hreg, rfl, rfl⟩
  | false => exact ⟨(Bool.and_false _).symm, rfl, rfl⟩

theorem forgetUnlessKept_registered (s : SpanState) : s.forgetUnlessKept.registered =
    (s.registered && !(!s.recording.keepForContinuation && s.recording.settled)) := by
  unfold forgetUnlessKept
  split_ifs with h
  · rw [h]
    exact (Bool.and_false _).symm
  · rw [Bool.not_eq_true] at h
    rw [h]
    exact (Bool.and_true _).symm

theorem pumpTurn_registered {j : ℕ} {c : Consumer} (h : s.pumpTurn j c = some s') : s'.registered = s.registered := by
  unfold pumpTurn at h
  split at h
  · split at h
    · obtain rfl := Option.some.inj h
      rfl
    · obtain rfl := Option.some.inj h
      rfl
  · obtain rfl := Option.some.inj h
    rfl
  · cases h
  · cases h

/-- **The registry** keeps the recording but for the steps that forget it. -/
theorem step_registered (h : s.step a = some s') : s'.registered = (s.registered && !s.forgets a) := by
  cases step_fires h with
  | append =>
    unfold SpanState.append
    split_ifs <;> exact (Bool.and_true _).symm
  | @settle failure books hs => rw [(settleRun_registry hs failure books).1, forgets, Bool.not_not]
  | settleThrown hs =>
    unfold SpanState.settle
    rw [if_neg (by simp [hs])]
    exact (Bool.and_true _).symm
  | attach => exact (Bool.and_true _).symm
  | pump hc h => exact (pumpTurn_registered h).trans (Bool.and_true _).symm
  | drain => exact (Bool.and_true _).symm
  | giveUp => exact (Bool.and_true _).symm
  | @finalize j c hc =>
    rw [forgetUnlessKept_registered, forgets, hc]
    show (s.registered && !(!(c.clientSawToolCall || s.recording.keepForContinuation) && s.recording.settled)) =
      (s.registered && !(s.recording.settled && !s.recording.keepForContinuation && !c.clientSawToolCall))
    cases s.recording.settled <;> cases s.recording.keepForContinuation <;> cases c.clientSawToolCall <;> rfl
  | @tail j c hc =>
    rw [forgetUnlessKept_registered, forgets, hc]
    show (s.registered && !(!c.cutOnToolEnd && s.recording.settled)) =
      (s.registered && !(s.recording.settled && !c.cutOnToolEnd))
    rw [Bool.and_comm (!c.cutOnToolEnd)]

end Registry

/-! ### Pending calls -/

section Pending

variable {rec : RunRecording} {c c' : Consumer}

/-- A span whose part of the log is not cut holds no call. -/
theorem ConsumerInv.not_pending (h : ConsumerInv rec c)
    (hcut : AgyProxy.endsInCut (rec.events.drop c.start) = false) : c.pendingCall rec.events = false := by
  have hsaw : c.clientSawToolCall = false := by
    by_contra hne
    rw [h.endsInCut (by simpa using hne)] at hcut
    cases hcut
  unfold Consumer.pendingCall
  rw [hsaw, hcut, ite_self, Bool.and_false]

/-- **A turn over a log that is complete** makes no call pending. -/
theorem Turn.not_pending (hinv : ConsumerInv rec c) (ht : Turn rec c c')
    (h : c.pendingCall rec.events = false) : c'.pendingCall rec.events = false := by
  obtain ⟨hstart, -, -, hres⟩ := ht.same
  cases hr : c.resumed with
  | true =>
    unfold Consumer.pendingCall
    rw [hres, hr]
    rfl
  | false =>
    by_cases hclosed : c.drain = .over ∨ c.drain = .returning
    · -- the client is gone: what it saw does not change
      have hsaw : c.clientSawToolCall = false := by
        unfold Consumer.pendingCall at h
        rw [hr, if_pos hclosed] at h
        simpa using h
      have hsame : (c'.drain = .over ∨ c'.drain = .returning) ∧ c'.clientSawToolCall = c.clientSawToolCall := by
        have hpush (out : List StreamChunk) : (c.push out).drain = c.drain := by
          refine if_neg fun hw => ?_
          rw [hw.1] at hclosed
          simp at hclosed
        cases ht with
        | map hp he => exact ⟨by rw [← hpush] at hclosed; exact hclosed, rfl⟩
        | stop hp hn hs => exact ⟨hclosed, rfl⟩
        | park hp hn hs => exact ⟨hclosed, rfl⟩
        | finish hp =>
          refine ⟨?_, rfl⟩
          have hclose : (c.finish rec.failure).drain = c.drain := by
            show (if (c.push _).drain = .waiting then DrainState.ready else (c.push _).drain) = _
            rw [hpush, if_neg]
            intro hw
            rw [hw] at hclosed
            simp at hclosed
          rw [hclose]
          exact hclosed
        | drain hd => rcases hd with hd | hd <;> rw [hd] at hclosed <;> simp at hclosed
        | giveUp hd => rw [hd] at hclosed; simp at hclosed
        | «over» hd => exact ⟨.inl rfl, rfl⟩
      unfold Consumer.pendingCall
      rw [if_pos hsame.1, hsame.2, hsaw, Bool.and_false]
    · have hcut : AgyProxy.endsInCut (rec.events.drop c.start) = false := by
        unfold Consumer.pendingCall at h
        rw [hr, if_neg hclosed] at h
        simpa using h
      rw [← hstart] at hcut
      exact (hinv.turn ht).not_pending hcut

open SpanState

variable {s s' : SpanState} {a : SpanAction}

/-- The invariant: a recording is gone only once the run has settled and no call is pending. -/
structure ContInv (s : SpanState) : Prop where
  span : SpanInv s
  gone : s.registered = false →
    s.recording.settled = true ∧ ∀ c ∈ s.consumers, c.pendingCall s.recording.events = false

theorem contInv_init (runId : RunId) : ContInv (init runId) := ⟨spanInv_init runId, fun h => by cases h⟩

/-- Over a settled log no step but an attachment makes a call pending. -/
theorem step_not_pending (hinv : SpanInv s) (hset : s.recording.settled = true)
    (hnone : ∀ c ∈ s.consumers, c.pendingCall s.recording.events = false) (ha : ∀ cursor, a ≠ .attach cursor)
    (h : s.step a = some s') :
    s'.recording.settled = true ∧ ∀ c ∈ s'.consumers, c.pendingCall s'.recording.events = false := by
  rcases step_cases h with ⟨hg, -⟩ | ⟨j, c, c', hj, ht, -, hl, hc⟩ | ⟨cursor, he, -, -⟩ | rfl
  · rw [hg.live] at hset
    cases hset
  · refine ⟨hl.settled.trans hset, fun d hd => ?_⟩
    rw [hl.events]
    rw [hc] at hd
    rcases List.mem_or_eq_of_mem_set hd with hd | rfl
    · exact hnone d hd
    · have hm := List.mem_of_getElem? hj
      exact ht.not_pending (hinv.consumers c hm) (hnone c hm)
  · exact absurd he (ha cursor)
  · exact ⟨hset, hnone⟩

/-- Settling makes no call pending. -/
theorem settleRun_not_pending (hset : s.recording.settled = false) (failure : Option RecordingFailure) (books : Bool)
    (hnone : ∀ c ∈ s.consumers, c.pendingCall s.recording.events = false) :
    ∀ c ∈ (s.settleRun failure books).consumers,
      c.pendingCall (s.settleRun failure books).recording.events = false := by
  obtain ⟨-, -, hevents⟩ := settleRun_registry hset failure books
  intro c hc
  rw [(settleRun_grows hset failure books).2] at hc
  obtain ⟨c₀, hm₀, rfl⟩ := List.mem_map.mp hc
  rw [hevents]
  exact hnone c₀ hm₀

/-- **One action keeps the invariant** unless it drops the recording over a pending call. -/
theorem ContInv.step (h : ContInv s) (hok : s.KeepsPending a) (hs : s.step a = some s') : ContInv s' := by
  refine ⟨h.span.step hs, fun hgone => ?_⟩
  rw [step_registered hs] at hgone
  cases hreg : s.registered with
  | false =>
    obtain ⟨hset, hnone⟩ := h.gone hreg
    refine step_not_pending h.span hset hnone (fun cursor ha => ?_) hs
    rw [ha, SpanState.step, hreg] at hs
    cases hs
  | true =>
    rw [hreg, Bool.true_and, Bool.not_eq_false'] at hgone
    have hnone := hok hgone
    cases a with
    | settle failure books =>
      simp only [SpanState.step] at hs
      split_ifs at hs with hset
      obtain rfl := Option.some.inj hs
      have hset : s.recording.settled = false := by simpa using hset
      exact ⟨(settleRun_registry hset failure books).2.1, settleRun_not_pending hset failure books hnone⟩
    | finalize j =>
      simp only [forgets, Bool.and_eq_true] at hgone
      exact step_not_pending h.span hgone.1.1 hnone (fun cursor ha => by cases ha) hs
    | tail j =>
      simp only [forgets, Bool.and_eq_true] at hgone
      exact step_not_pending h.span hgone.1 hnone (fun cursor ha => by cases ha) hs
    | _ => cases hgone

/-- What the invariant says of a delivered call id. -/
theorem ContInv.continuable (h : ContInv s) : Continuable s := by
  intro c hc hover hres id hid
  have hinv := h.span.consumers c hc
  have hpushed : id ∈ toolCallIds c.pushed := by
    rw [← hinv.delivers.queue_eq, toolCallIds_append]
    exact List.mem_append_left _ hid
  obtain ⟨i, ev, hparse, -, -, -, -⟩ := hinv.reads.call h.span.capped hpushed
  refine ⟨i, hparse, ?_⟩
  have hsaw : c.clientSawToolCall = true := by
    rw [hinv.delivers.saw]
    exact toolCallIds_ne_nil.mp (List.ne_nil_of_mem hid)
  have hpending : c.pendingCall s.recording.events = true := by
    unfold Consumer.pendingCall
    rw [hres, if_pos (.inl hover), hsaw]
    rfl
  have hreg : s.registered = true := by
    by_contra hne
    have := (h.gone (by simpa using hne)).2 c hc
    rw [hpending] at this
    cases this
  rw [SpanState.step, if_pos hreg]
  rfl

/-- **Continuation availability**: in a run of which no step drops the recording over a pending call, every
delivered call id can be resumed until it is. -/
theorem continuation_available (runId : RunId) (as : List SpanAction) (s : SpanState)
    (hok : Every SpanState.step KeepsPending (init runId) as) (h : Reaches runId as s) : Continuable s :=
  (exec_invariant (fun _ _ _ hI hok hs => hI.step hok hs) as _ s (contInv_init runId) hok h).continuable

/-- A completed tool step. -/
def toolDone (key : String) : AgyEvent :=
  .step ⟨js key, .tool, [], false, some ⟨js "ls", none, some (.str []), none⟩, none, none⟩

/-- The client reads its span, with the tool call, to the end before the run settles. -/
def promptClientRun : List SpanAction :=
  [.attach 0, .append (toolDone "1"), .pump 0, .pump 0, .drain 0, .drain 0, .drain 0, .drain 0, .drain 0, .tail 0,
    .settle none true]

theorem continuation_available_prompt : ∃ s, Reaches ⟨js "r", by decide⟩ promptClientRun s ∧ Continuable s ∧
    s.consumers.map (fun c => (c.drain, c.clientSawToolCall)) = [(.over, true)] := by
  have hok : Every SpanState.step KeepsPending (init ⟨js "r", by decide⟩) promptClientRun := by decide +kernel
  have hrun : (exec SpanState.step (init ⟨js "r", by decide⟩) promptClientRun).map
      (fun s => s.consumers.map fun c => (c.drain, c.clientSawToolCall)) = some [(.over, true)] := by decide +kernel
  obtain ⟨s, hs, hp⟩ := Option.map_eq_some_iff.mp hrun
  exact ⟨s, hs, continuation_available _ promptClientRun s hok hs, hp⟩

/-- The run settles while the tool call is still in the queue. -/
def slowClientRun : List SpanAction :=
  [.attach 0, .append (toolDone "1"), .pump 0, .pump 0, .settle none true, .drain 0, .drain 0, .drain 0, .drain 0,
    .drain 0, .tail 0]

/-- The slow client gets its call id and cannot resume: the recording was forgotten before. -/
theorem not_continuable_slowClient : ∃ s, Reaches ⟨js "r", by decide⟩ slowClientRun s ∧ ¬ Continuable s := by
  have hrun : (exec SpanState.step (init ⟨js "r", by decide⟩) slowClientRun).map
      (fun s => (s.consumers.map fun c => (c.drain, c.resumed, (toolCallIds c.delivered).length), s.registered)) =
      some ([(.over, false, 1)], false) := by decide +kernel
  obtain ⟨s, hs, hp⟩ := Option.map_eq_some_iff.mp hrun
  obtain ⟨hc, hreg⟩ := Prod.mk.inj hp
  refine ⟨s, hs, fun hcont => ?_⟩
  obtain ⟨c, hcs, hfields⟩ := List.map_eq_singleton_iff.mp hc
  simp only [Prod.mk.injEq] at hfields
  obtain ⟨h1, h2, h3⟩ := hfields
  obtain ⟨id, hid⟩ := List.length_eq_one_iff.mp h3
  obtain ⟨i, -, henabled⟩ := hcont c (by rw [hcs]; exact List.mem_singleton_self c) h1 h2 id
    (by rw [hid]; exact List.mem_singleton_self id)
  rw [SpanState.step, hreg] at henabled
  cases henabled

end Pending

end AgyProxy
