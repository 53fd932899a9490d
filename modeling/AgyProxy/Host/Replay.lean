import AgyProxy.Host.Chain

/-!
# AgyProxy.Host.Replay — spans driven one after the other over a settled recording

`driveSpan` of `src/host/engine.ts` over a recording that is settled, with the recording itself as the
mapper's usage tracker: the slot is read for the result a span finishes on, and written for every step
with a usage object a span maps.

* `sharedPump`, `RunRecording.drive`, `RunRecording.driveAll`: one span, and a history of spans.
* `spanEvents`: the events a span maps, told from the log alone (`sharedPump_slot`).
* `replay_idempotent_iff`: the chunks of a span do not depend on the history exactly when it is `Steady`.
-/

namespace AgyProxy

open Js Lib EventMapper

/-! ### Spans over a shared slot -/

/-- The pump's loop, with the usage slot the mapper notes into. -/
def sharedPump (slot : Option RawUsage) :
    ℕ → List AgyEvent → EventMapper → (EventMapper × List StreamChunk) × Option RawUsage
  | _, [], m => ((m, []), slot)
  | i, ev :: evs, m =>
    let r := m.map slot ev i
    let slot' := m.noted ev slot
    if r.1.finished then (r, slot')
    else
      let q := sharedPump slot' (i + 1) evs r.1
      ((q.1.1, r.2 ++ q.1.2), q.2)

namespace RunRecording

/-- One span of the settled recording: its chunks, and the recording it leaves. -/
def drive (rec : RunRecording) (cursor : ℕ) (cutOnTool : Bool) : List StreamChunk × RunRecording :=
  let q := sharedPump rec.lastStepUsageRaw cursor (rec.events.drop cursor)
    (.new rec.runId cutOnTool (sawTextBefore rec.events cursor))
  (q.1.2 ++ (endOfLog rec.failure q.1.1).2, { rec with lastStepUsageRaw := q.2 })

/-- The recording after a history of spans, each with its cursor and its mode. -/
def driveAll (rec : RunRecording) (history : List (ℕ × Bool)) : RunRecording :=
  history.foldl (fun rec d => (rec.drive d.1 d.2).2) rec

end RunRecording

/-! ### The events a span maps -/

/-- An event a mapper of the mode finishes on. -/
def AgyEvent.endsSpan (cutOnTool : Bool) (ev : AgyEvent) : Bool := (cutOnTool && ev.isToolDone) || ev.finishes

/-- The events up to the first a mapper of the mode finishes on. -/
def spanEvents (cutOnTool : Bool) : List AgyEvent → List AgyEvent
  | [] => []
  | ev :: evs => ev :: if ev.endsSpan cutOnTool then [] else spanEvents cutOnTool evs

/-- The usage object of a step, also an empty one. -/
def AgyEvent.stepUsage? : AgyEvent → Option RawUsage
  | .step s => s.usage
  | _ => none

/-- The last usage object of a step. -/
def lastStepUsage? : List AgyEvent → Option RawUsage
  | [] => none
  | ev :: evs => (lastStepUsage? evs).or ev.stepUsage?

/-- A mapper of the mode that has neither finished nor cut. -/
structure Memory.Reading (cutOnTool : Bool) (b : Memory) : Prop where
  mode : b.cutOnTool = cutOnTool
  reading : b.finished = false
  fresh : cutOnTool = true → b.announcedTools = []

section Reading

variable {cutOnTool : Bool} {slot slot' : Option RawUsage} {m : EventMapper}

theorem Memory.reading_new (cutOnTool saw : Bool) : (Memory.new cutOnTool saw).Reading cutOnTool :=
  ⟨rfl, rfl, fun _ => rfl⟩

theorem Memory.Reading.hear {b : Memory} (h : b.Reading cutOnTool) (ev : AgyEvent) :
    (b.hear ev).1.finished = ev.endsSpan cutOnTool ∧
      (ev.endsSpan cutOnTool = false → (b.hear ev).1.Reading cutOnTool) := by
  cases cutOnTool with
  | true =>
    obtain ⟨-, hfin, hnext⟩ := Memory.Cutting.hear ⟨h.mode, h.fresh rfl, h.reading⟩ ev
    refine ⟨hfin, fun hend => ?_⟩
    obtain ⟨hc, ha, hf⟩ := hnext hend
    exact ⟨hc, hf, fun _ => ha⟩
  | false =>
    have hfin := hear_uncut_finished h.mode h.reading ev
    refine ⟨hfin, fun hend => ⟨?_, hfin.trans hend, fun hc => by cases hc⟩⟩
    exact (Memory.hear_eq h.reading ev).1.trans h.mode

/-- When the mapper finishes on an event, told from the event. -/
theorem map_endsSpan (h : m.memory.Reading cutOnTool) (slot : Option RawUsage) (ev : AgyEvent) (i : ℕ) :
    (m.map slot ev i).1.finished = ev.endsSpan cutOnTool ∧
      (ev.endsSpan cutOnTool = false → (m.map slot ev i).1.memory.Reading cutOnTool) := by
  obtain ⟨hfin, hnext⟩ := h.hear ev
  refine ⟨(map_finished_iff slot ev i m).trans hfin, fun hend => ?_⟩
  rw [(map_heard slot ev i m).memory]
  exact hnext hend

theorem noted_eq (h : m.memory.Reading cutOnTool) (ev : AgyEvent) (slot : Option RawUsage) :
    m.noted ev slot = ev.stepUsage?.or slot := by
  have hf : m.finished = false := h.reading
  unfold noted
  rw [if_neg (by simp [hf])]
  cases ev <;> rfl

/-- **What a span leaves in the slot** is the last usage object among the events it maps. -/
theorem sharedPump_slot :
    ∀ (evs : List AgyEvent) (i : ℕ) (slot : Option RawUsage) (m : EventMapper), m.memory.Reading cutOnTool →
      (sharedPump slot i evs m).2 = (lastStepUsage? (spanEvents cutOnTool evs)).or slot
  | [], _, _, _, _ => rfl
  | ev :: evs, i, slot, m, h => by
    obtain ⟨hfin, hnext⟩ := map_endsSpan h slot ev i
    unfold sharedPump spanEvents
    dsimp only
    rw [hfin, noted_eq h]
    cases hend : ev.endsSpan cutOnTool with
    | true => rfl
    | false =>
      rw [if_neg Bool.false_ne_true, if_neg Bool.false_ne_true]
      show (sharedPump _ (i + 1) evs _).2 = ((lastStepUsage? (spanEvents cutOnTool evs)).or ev.stepUsage?).or slot
      rw [sharedPump_slot evs (i + 1) _ _ (hnext hend), Option.or_assoc]

/-! ### What the slot shows in -/

/-- Only a result to finish on reads the slot. -/
theorem map_slot_free {ev : AgyEvent} (hev : ev.finishes = false) (slot slot' : Option RawUsage) (i : ℕ)
    (m : EventMapper) : m.map slot ev i = m.map slot' ev i := by
  unfold EventMapper.map
  split_ifs
  · rfl
  · cases ev with
    | result r =>
      have hr : r.ok = false ∧ r.response = [] := by
        simpa [AgyEvent.finishes, ResultEvent.consumable] using hev
      show mapResult slot r m = mapResult slot' r m
      unfold mapResult
      have hok : ¬ r.ok = true := by simp [hr.1]
      simp only [if_neg hok, if_pos hr.2]
    | _ => rfl

/-- A result to finish on shows the slot, else its own usage, right before the finish. -/
theorem map_result_out {r : ResultEvent} (hr : r.consumable = true) (hm : m.finished = false) (i : ℕ) :
    ∃ pre rs, ∀ slot, (m.map slot (.result r) i).2 =
      pre ++ [.usage (usageFromRaw (slot.getD r.usage)), .finish .stop rs] := by
  have hmap : ∀ slot, m.map slot (.result r) i = mapResult slot r m := fun slot => by
    unfold EventMapper.map
    rw [if_neg (by simp [hm])]
  simp only [hmap]
  unfold mapResult
  by_cases hok : r.ok = true
  · refine ⟨(fallbackText r m).2 ++ (closeOpen (fallbackText r m).1).2,
      if r.conversationId = [] then none else some r.conversationId, fun slot => ?_⟩
    rw [if_pos hok, Emit.seq_snd, Emit.seq_snd, ← List.append_assoc]
    rfl
  · have hresp : r.response ≠ [] := by
      simpa [ResultEvent.consumable, hok] using hr
    refine ⟨(fallbackText r m).2 ++ (errorNote r (fallbackText r m).1).2 ++
        (closeOpen (errorNote r (fallbackText r m).1).1).2,
      if r.conversationId = [] then none else some r.conversationId, fun slot => ?_⟩
    rw [if_neg hok, if_neg hresp, Emit.seq_snd, Emit.seq_snd, Emit.seq_snd, ← List.append_assoc,
      ← List.append_assoc]
    rfl

/-- The span finishes on that result, with no usage object among the events it maps. -/
structure EndsUnsampled (cutOnTool : Bool) (evs : List AgyEvent) (r : ResultEvent) : Prop where
  last : (spanEvents cutOnTool evs).getLast? = some (.result r)
  consumable : r.consumable = true
  unsampled : lastStepUsage? (spanEvents cutOnTool evs) = none

theorem spanEvents_cons {ev : AgyEvent} (hend : ev.endsSpan cutOnTool = false) (evs : List AgyEvent) :
    spanEvents cutOnTool (ev :: evs) = ev :: spanEvents cutOnTool evs := by
  rw [spanEvents, hend]
  rfl

theorem endsUnsampled_cons {ev : AgyEvent} (hend : ev.endsSpan cutOnTool = false)
    (hnone : ev.stepUsage? = none) (evs : List AgyEvent) (r : ResultEvent) :
    EndsUnsampled cutOnTool (ev :: evs) r ↔ EndsUnsampled cutOnTool evs r := by
  have hsample : lastStepUsage? (spanEvents cutOnTool (ev :: evs)) = lastStepUsage? (spanEvents cutOnTool evs) := by
    rw [spanEvents_cons hend, lastStepUsage?, hnone, Option.or_none]
  -- the last event is another one, unless nothing follows
  have hlast : (spanEvents cutOnTool (ev :: evs)).getLast? = some (.result r) → r.consumable = true →
      (spanEvents cutOnTool evs).getLast? = some (.result r) := by
    intro hlast hr
    rw [spanEvents_cons hend] at hlast
    cases hrest : spanEvents cutOnTool evs with
    | nil =>
      rw [hrest] at hlast
      obtain rfl : ev = .result r := Option.some.inj hlast
      simp [AgyEvent.endsSpan, AgyEvent.finishes, hr] at hend
    | cons e es => rwa [hrest, List.getLast?_cons_cons] at hlast
  constructor
  · rintro ⟨h1, h2, h3⟩
    exact ⟨hlast h1 h2, h2, hsample ▸ h3⟩
  · rintro ⟨h1, h2, h3⟩
    refine ⟨?_, h2, hsample.trans h3⟩
    rw [spanEvents_cons hend]
    cases hrest : spanEvents cutOnTool evs with
    | nil =>
      rw [hrest] at h1
      cases h1
    | cons e es => rwa [List.getLast?_cons_cons, ← hrest]

theorem spanEvents_ends {ev : AgyEvent} (hend : ev.endsSpan cutOnTool = true) (evs : List AgyEvent) :
    spanEvents cutOnTool (ev :: evs) = [ev] := by
  rw [spanEvents, hend]
  rfl

/-- A span whose first event is a result to finish on. -/
theorem endsUnsampled_result {r r' : ResultEvent} (hr : r.consumable = true)
    (hend : (AgyEvent.result r).endsSpan cutOnTool = true) (evs : List AgyEvent) :
    EndsUnsampled cutOnTool (.result r :: evs) r' ↔ r' = r := by
  constructor
  · rintro ⟨hlast, -, -⟩
    rw [spanEvents_ends hend] at hlast
    exact (AgyEvent.result.inj (Option.some.inj hlast)).symm
  · rintro rfl
    exact ⟨by rw [spanEvents_ends hend]; rfl, hr, by rw [spanEvents_ends hend]; rfl⟩

/-- The pump stops behind the event a span ends on. -/
theorem sharedPump_ends (h : m.memory.Reading cutOnTool) {ev : AgyEvent} (hend : ev.endsSpan cutOnTool = true)
    (slot : Option RawUsage) (i : ℕ) (evs : List AgyEvent) :
    (sharedPump slot i (ev :: evs) m).1 = m.map slot ev i := by
  unfold sharedPump
  dsimp only
  rw [(map_endsSpan h slot ev i).1, hend]
  rfl

/-- The pump goes on behind any other event. -/
theorem sharedPump_goes (h : m.memory.Reading cutOnTool) {ev : AgyEvent} (hend : ev.endsSpan cutOnTool = false)
    (slot : Option RawUsage) (i : ℕ) (evs : List AgyEvent) :
    (sharedPump slot i (ev :: evs) m).1 =
      ((sharedPump (ev.stepUsage?.or slot) (i + 1) evs (m.map slot ev i).1).1.1,
        (m.map slot ev i).2 ++ (sharedPump (ev.stepUsage?.or slot) (i + 1) evs (m.map slot ev i).1).1.2) := by
  conv_lhs => unfold sharedPump
  dsimp only
  rw [(map_endsSpan h slot ev i).1, hend, noted_eq h]
  rfl

/-- The event a span ends on shows the slot when it is a result to finish on. -/
theorem map_ends_eq_iff (h : m.memory.Reading cutOnTool) {ev : AgyEvent} (hend : ev.endsSpan cutOnTool = true)
    (slot slot' : Option RawUsage) (i : ℕ) (evs : List AgyEvent) :
    (m.map slot ev i).2 = (m.map slot' ev i).2 ↔
      ∀ r, EndsUnsampled cutOnTool (ev :: evs) r →
        usageFromRaw (slot.getD r.usage) = usageFromRaw (slot'.getD r.usage) := by
  cases hev : ev.finishes with
  | false =>
    refine iff_of_true (by rw [map_slot_free hev slot slot']) ?_
    rintro r ⟨hlast, hr, -⟩
    rw [spanEvents_ends hend] at hlast
    obtain rfl : ev = .result r := Option.some.inj hlast
    exact absurd hev (by simp [AgyEvent.finishes, hr])
  | true =>
    cases ev with
    | result r =>
      obtain ⟨pre, rs, hpre⟩ := map_result_out hev h.reading i
      rw [hpre slot, hpre slot', List.append_cancel_left_eq]
      constructor
      · intro heq r' hr'
        rw [(endsUnsampled_result hev hend evs).mp hr']
        exact StreamChunk.usage.inj (List.cons.inj heq).1
      · intro hall
        rw [hall r ((endsUnsampled_result hev hend evs).mpr rfl)]
    | _ => cases hev

/-- **When two values of the slot give the same chunks.** -/
theorem sharedPump_eq_iff :
    ∀ (evs : List AgyEvent) (i : ℕ) (slot slot' : Option RawUsage) (m : EventMapper),
      m.memory.Reading cutOnTool →
      (sharedPump slot i evs m).1.1 = (sharedPump slot' i evs m).1.1 ∧
        ((sharedPump slot i evs m).1.2 = (sharedPump slot' i evs m).1.2 ↔
          ∀ r, EndsUnsampled cutOnTool evs r →
            usageFromRaw (slot.getD r.usage) = usageFromRaw (slot'.getD r.usage))
  | [], i, slot, slot', m, _ => by
    refine ⟨rfl, iff_of_true rfl ?_⟩
    rintro r ⟨hlast, -, -⟩
    cases hlast
  | ev :: evs, i, slot, slot', m, h => by
    obtain ⟨-, hnext⟩ := map_endsSpan h slot ev i
    cases hend : ev.endsSpan cutOnTool with
    | true =>
      rw [sharedPump_ends h hend, sharedPump_ends h hend]
      exact ⟨(map_slot slot slot' ev i m).1, map_ends_eq_iff h hend slot slot' i evs⟩
    | false =>
      have hev : ev.finishes = false := by
        simp only [AgyEvent.endsSpan, Bool.or_eq_false_iff] at hend
        exact hend.2
      rw [sharedPump_goes h hend, sharedPump_goes h hend, map_slot_free hev slot' slot]
      dsimp only
      rw [List.append_cancel_left_eq]
      cases husage : ev.stepUsage? with
      | some u =>
        refine ⟨rfl, iff_of_true rfl ?_⟩
        rintro r ⟨-, -, hnone⟩
        rw [spanEvents_cons hend, lastStepUsage?, husage] at hnone
        simp at hnone
      | none =>
        obtain ⟨h1, h2⟩ := sharedPump_eq_iff evs (i + 1) slot slot' (m.map slot ev i).1 (hnext hend)
        refine ⟨h1, h2.trans ?_⟩
        exact forall_congr' fun r => imp_congr_left (endsUnsampled_cons hend husage evs r).symm

end Reading

namespace RunRecording

variable (rec : RunRecording)

/-- Whatever other spans can leave in the slot shows as what is in it now, in the result the span from
the cursor finishes on. -/
def Steady (cursor : ℕ) (cutOnTool : Bool) : Prop :=
  ∀ r, EndsUnsampled cutOnTool (rec.events.drop cursor) r →
    ∀ (d : ℕ × Bool) (u : RawUsage), lastStepUsage? (spanEvents d.2 (rec.events.drop d.1)) = some u →
      usageFromRaw u = usageFromRaw (rec.lastStepUsageRaw.getD r.usage)

/-- The recording with another value in the slot. -/
def withSlot (slot : Option RawUsage) : RunRecording := { rec with lastStepUsageRaw := slot }

theorem reading_new (cursor : ℕ) (cutOnTool : Bool) :
    (EventMapper.new rec.runId cutOnTool (sawTextBefore rec.events cursor)).memory.Reading cutOnTool :=
  ⟨rfl, rfl, fun _ => rfl⟩

/-- A span changes the slot and nothing else of the recording. -/
theorem drive_recording (cursor : ℕ) (cutOnTool : Bool) :
    (rec.drive cursor cutOnTool).2 =
      rec.withSlot ((lastStepUsage? (spanEvents cutOnTool (rec.events.drop cursor))).or rec.lastStepUsageRaw) := by
  have hslot := sharedPump_slot (rec.events.drop cursor) cursor rec.lastStepUsageRaw _
    (rec.reading_new cursor cutOnTool)
  unfold drive withSlot
  dsimp only
  rw [hslot]

/-- The slot after a history: untouched, or what some span of it left. -/
theorem driveAll_recording (history : List (ℕ × Bool)) :
    ∃ slot, rec.driveAll history = rec.withSlot slot ∧
      (slot = rec.lastStepUsageRaw ∨ ∃ (d : ℕ × Bool) (u : RawUsage),
        lastStepUsage? (spanEvents d.2 (rec.events.drop d.1)) = some u ∧ slot = some u) := by
  induction history using List.reverseRecOn with
  | nil => exact ⟨rec.lastStepUsageRaw, rfl, Or.inl rfl⟩
  | append_singleton history d ih =>
    obtain ⟨slot, hrec, hslot⟩ := ih
    have hnext : rec.driveAll (history ++ [d]) = ((rec.withSlot slot).drive d.1 d.2).2 := by
      rw [← hrec]
      unfold driveAll
      rw [List.foldl_append]
      rfl
    rw [hnext, drive_recording]
    refine ⟨(lastStepUsage? (spanEvents d.2 (rec.events.drop d.1))).or slot, rfl, ?_⟩
    cases hu : lastStepUsage? (spanEvents d.2 (rec.events.drop d.1)) with
    | none => exact hslot
    | some u => exact Or.inr ⟨d, u, hu, rfl⟩

/-- When two values of the slot give the same chunks of a span. -/
theorem drive_eq_iff (slot slot' : Option RawUsage) (cursor : ℕ) (cutOnTool : Bool) :
    ((rec.withSlot slot).drive cursor cutOnTool).1 = ((rec.withSlot slot').drive cursor cutOnTool).1 ↔
      ∀ r, EndsUnsampled cutOnTool (rec.events.drop cursor) r →
        usageFromRaw (slot.getD r.usage) = usageFromRaw (slot'.getD r.usage) := by
  obtain ⟨hmapper, hchunks⟩ := sharedPump_eq_iff (rec.events.drop cursor) cursor slot slot' _
    (rec.reading_new cursor cutOnTool)
  have hdrive : ∀ s, ((rec.withSlot s).drive cursor cutOnTool).1 =
      (sharedPump s cursor (rec.events.drop cursor)
        (.new rec.runId cutOnTool (sawTextBefore rec.events cursor))).1.2 ++
      (endOfLog rec.failure (sharedPump s cursor (rec.events.drop cursor)
        (.new rec.runId cutOnTool (sawTextBefore rec.events cursor))).1.1).2 := fun _ => rfl
  rw [hdrive slot, hdrive slot', hmapper, List.append_left_inj]
  exact hchunks

/-- **Replays of a span are idempotent exactly when it is steady**: its chunks are the same after every
history of spans over the settled recording. -/
theorem replay_idempotent_iff (cursor : ℕ) (cutOnTool : Bool) :
    (∀ history history' : List (ℕ × Bool),
        ((rec.driveAll history).drive cursor cutOnTool).1 = ((rec.driveAll history').drive cursor cutOnTool).1) ↔
      rec.Steady cursor cutOnTool := by
  constructor
  · intro hall r hr d u hu
    have heq := hall [d] []
    have hafter : rec.driveAll [d] = rec.withSlot (some u) := by
      show (rec.drive d.1 d.2).2 = _
      rw [drive_recording, hu]
      rfl
    rw [hafter] at heq
    exact (rec.drive_eq_iff (some u) rec.lastStepUsageRaw cursor cutOnTool).mp heq r hr
  · intro hsteady
    have hone : ∀ history, ((rec.driveAll history).drive cursor cutOnTool).1 = (rec.drive cursor cutOnTool).1 := by
      intro history
      obtain ⟨slot, hrec, hslot⟩ := rec.driveAll_recording history
      rw [hrec]
      refine (rec.drive_eq_iff slot rec.lastStepUsageRaw cursor cutOnTool).mpr fun r hr => ?_
      rcases hslot with rfl | ⟨d, u, hu, rfl⟩
      · rfl
      · exact hsteady r hr d u hu
    intro history history'
    rw [hone history, hone history']

end RunRecording

/-- Three tool calls, a usage sample before the second and one before the third, then the answer. -/
def threeCuts : RunRecording :=
  let tool := fun key => AgyEvent.step
    ⟨js key, .tool, [], false, some ⟨js "read_file", none, some (.str (js "ok")), none⟩, none, none⟩
  let text := fun key usage => AgyEvent.step ⟨js key, .text, js "x", false, none, none, usage⟩
  let sample := fun n : ℚ => RawUsage.mk (some n) none none none none none
  ([tool "1", text "2" (some (sample 10)), tool "3", text "4" (some (sample 20)), tool "5", text "6" none,
    .result ⟨[], true, js "x", none, sample 30⟩].foldl RunRecording.append (.new ⟨js "r", by decide⟩)).settle none

/-- A client that retries the continuation behind the first tool changes the usage of the last span. -/
theorem not_idempotent_threeCuts :
    ((threeCuts.driveAll [(1, true)]).drive 5 true).1 ≠ ((threeCuts.driveAll []).drive 5 true).1 := by
  decide +kernel

end AgyProxy
