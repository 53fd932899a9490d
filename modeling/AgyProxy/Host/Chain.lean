import AgyProxy.Host.Transcript
import AgyProxy.Host.RecordingSpec

/-!
# AgyProxy.Host.Chain — the spans of one run, told as one story

A settled run is read by a chain of spans, each next one resumed behind the tool call of the one before.

* `Chain`: the chain as the engine forms it, by parsing the call id of the cut.
* `narrate`: one pass over the log that says, event by event, what a reader with a given table and a given
  saw-text flag says.  `Chain.narrated`: a chain narrates with the table since the last cut; an uncut pass
  narrates with the table since the start (`uncut_narrated`).
* `chain_exists`: every log has a chain.
-/

namespace AgyProxy

open Js Lib EventMapper

/-! ### Tables and cuts -/

section Tables

/-- What every key carries after the events. -/
def carried (evs : List AgyEvent) : JsString → JsString := evs.foldl carryEvent fun _ => []

/-- The events behind the last completed tool step. -/
def sinceCut (evs : List AgyEvent) : List AgyEvent := evs.rtakeWhile fun ev => !ev.isToolDone

@[simp] theorem carried_nil : carried [] = fun _ => [] := rfl

theorem carried_concat (evs : List AgyEvent) (ev : AgyEvent) :
    carried (evs ++ [ev]) = carryEvent (carried evs) ev := by
  rw [carried, List.foldl_append]
  rfl

@[simp] theorem sinceCut_nil : sinceCut [] = [] := rfl

theorem sinceCut_concat (evs : List AgyEvent) (ev : AgyEvent) :
    sinceCut (evs ++ [ev]) = if ev.isToolDone then [] else sinceCut evs ++ [ev] := by
  rw [sinceCut, List.rtakeWhile_concat, sinceCut]
  cases ev.isToolDone <;> rfl

/-- What an uncut reader saw: any text step it did not skip. -/
def sawUncut (pre : List AgyEvent) : Bool := pre.any AgyEvent.opensText

/-- What the reader of a chain saw: text before its span, or a text step of its span. -/
def sawChain (pre : List AgyEvent) : Bool :=
  pre.any AgyEvent.isTextStep || (sinceCut pre).any AgyEvent.opensText

theorem isTextStep_opensText {ev : AgyEvent} (h : ev.isTextStep = true) : ev.opensText = true := by
  cases ev with
  | step s =>
    simp only [AgyEvent.isTextStep, AgyEvent.opensText, Bool.and_eq_true] at h ⊢
    exact ⟨h.1, by rw [h.2]; rfl⟩
  | _ => exact h

theorem sawUncut_concat (pre : List AgyEvent) (ev : AgyEvent) :
    sawUncut (pre ++ [ev]) = (sawUncut pre || ev.opensText) := by
  simp [sawUncut]

/-- An event inside a span. -/
theorem sawChain_concat (pre : List AgyEvent) {ev : AgyEvent} (h : ev.isToolDone = false) :
    sawChain (pre ++ [ev]) = (sawChain pre || ev.opensText) := by
  rw [sawChain, sinceCut_concat, h, sawChain]
  simp only [Bool.false_eq_true, if_false, List.any_append, List.any_cons, List.any_nil, Bool.or_false]
  cases ht : ev.isTextStep with
  | false => simp only [Bool.or_false, Bool.or_assoc]
  | true => simp [isTextStep_opensText ht]

/-- A chain sees no more than an uncut reader. -/
theorem sawUncut_of_sawChain {pre : List AgyEvent} (h : sawChain pre = true) : sawUncut pre = true := by
  rw [sawChain, Bool.or_eq_true, List.any_eq_true, List.any_eq_true] at h
  rw [sawUncut, List.any_eq_true]
  rcases h with ⟨ev, hm, ht⟩ | ⟨ev, hm, ht⟩
  · exact ⟨ev, hm, isTextStep_opensText ht⟩
  · exact ⟨ev, (List.rtakeWhile_suffix _ _).subset hm, ht⟩

end Tables

/-! ### What one event says -/

section Said

/-- The text an event adds for a reader with that table and that saw-text flag. -/
def saidText (t : JsString → JsString) (saw : Bool) : AgyEvent → JsString
  | .step s =>
    if AgyEvent.opensText (.step s) then (stepDelta s.fragment (t s.stepKey) s.text).1 else []
  | .result r => if r.consumable ∧ saw = false then r.response else []
  | _ => []

/-- The reasoning an event adds. -/
def saidReasoning (t : JsString → JsString) : AgyEvent → JsString
  | .step s =>
    match s.stepKind with
    | .thinking => suffixDelta (t s.stepKey) s.text
    | .subagent => js "[agy subagent] " ++ s.text ++ js "\n"
    | _ => []
  | .result r => if r.consumable ∧ r.ok = false then r.note else []
  | _ => []

section Kinds

variable (t : JsString → JsString) (saw : Bool) {s : StepEvent}

theorem saidText_silent (h : AgyEvent.opensText (.step s) = false) : saidText t saw (.step s) = [] := by
  simp [saidText, h]

theorem saidText_opens (h : AgyEvent.opensText (.step s) = true) :
    saidText t saw (.step s) = (stepDelta s.fragment (t s.stepKey) s.text).1 := if_pos h

theorem carryEvent_opens (h : AgyEvent.opensText (.step s) = true) :
    carryEvent t (.step s) = Function.update t s.stepKey (stepDelta s.fragment (t s.stepKey) s.text).2 := if_pos h

theorem carryEvent_thinking (h : s.stepKind = .thinking) :
    carryEvent t (.step s) = Function.update t s.stepKey s.text := by
  have ho : AgyEvent.opensText (.step s) = false := by simp [AgyEvent.opensText, h]
  simp [carryEvent, ho, h]

theorem carryEvent_silent (h : AgyEvent.opensText (.step s) = false) (hk : s.stepKind ≠ .thinking) :
    carryEvent t (.step s) = t := by
  simp [carryEvent, h, hk]

end Kinds

variable {b : Memory}

/-- The step half of `hear_eq`. -/
theorem Memory.hearStep_eq (b : Memory) (s : StepEvent) :
    (b.hearStep s).1.cutOnTool = b.cutOnTool ∧
    (b.hearStep s).1.emittedByKey = carryEvent b.emittedByKey (.step s) ∧
    (b.hearStep s).1.sawTextStep = (b.sawTextStep || AgyEvent.opensText (.step s)) ∧
    (b.hearStep s).2.text = saidText b.emittedByKey b.sawTextStep (.step s) ∧
    (b.hearStep s).2.reasoning = saidReasoning b.emittedByKey (.step s) := by
  cases hk : s.stepKind with
  | text =>
    have ho := opensText_iff s hk
    have hr : saidReasoning b.emittedByKey (.step s) = [] := by simp [saidReasoning, hk]
    by_cases hb : s.text = [] ∧ s.fragment = false
    · have hf : AgyEvent.opensText (.step s) = false := by
        by_contra hne
        exact ho.mp (by simpa using hne) hb
      have hs : b.hearStep s = (b, .silent) := by simp only [hearStep, hk, if_pos hb]
      rw [hs, hr, hf, saidText_silent _ _ hf, carryEvent_silent _ hf (by simp [hk])]
      exact ⟨rfl, rfl, (Bool.or_false _).symm, rfl, rfl⟩
    · have hf : AgyEvent.opensText (.step s) = true := ho.mpr hb
      have hs : b.hearStep s = ({ b.carry s.fragment s.stepKey s.text with sawTextStep := true },
          ⟨b.delta s.fragment s.stepKey s.text, [], false⟩) := by simp only [hearStep, hk, if_neg hb]
      rw [hs, hr, hf, saidText_opens _ _ hf, carryEvent_opens _ hf]
      exact ⟨rfl, rfl, (Bool.or_true _).symm, rfl, rfl⟩
  | thinking =>
    have hf : AgyEvent.opensText (.step s) = false := by simp [AgyEvent.opensText, hk]
    have hs : b.hearStep s = (b.carry false s.stepKey s.text, ⟨[], b.delta false s.stepKey s.text, false⟩) := by
      simp only [hearStep, hk]
    have hr : saidReasoning b.emittedByKey (.step s) = suffixDelta (b.emittedByKey s.stepKey) s.text := by
      simp [saidReasoning, hk]
    rw [hs, hr, hf, saidText_silent _ _ hf, carryEvent_thinking _ hk]
    exact ⟨rfl, rfl, (Bool.or_false _).symm, rfl, rfl⟩
  | tool =>
    have hf : AgyEvent.opensText (.step s) = false := by simp [AgyEvent.opensText, hk]
    have hr : saidReasoning b.emittedByKey (.step s) = [] := by simp [saidReasoning, hk]
    rw [hr, hf, saidText_silent _ _ hf, carryEvent_silent _ hf (by simp [hk]), Bool.or_false]
    cases ht : s.tool with
    | none =>
      have hs : b.hearStep s = (b, .silent) := by simp only [hearStep, hk, ht]
      rw [hs]
      exact ⟨rfl, rfl, rfl, rfl, rfl⟩
    | some tool =>
      have hs : b.hearStep s = b.hearTool s.stepKey tool := by simp only [hearStep, hk, ht]
      rw [hs, hearTool]
      split_ifs
      · exact ⟨rfl, rfl, rfl, rfl, rfl⟩
      · exact ⟨rfl, rfl, rfl, rfl, rfl⟩
      · exact ⟨rfl, rfl, rfl, rfl, rfl⟩
  | subagent =>
    have hf : AgyEvent.opensText (.step s) = false := by simp [AgyEvent.opensText, hk]
    have hs : b.hearStep s = (b, ⟨[], js "[agy subagent] " ++ s.text ++ js "\n", false⟩) := by
      simp only [hearStep, hk]
    have hr : saidReasoning b.emittedByKey (.step s) = js "[agy subagent] " ++ s.text ++ js "\n" := by
      simp only [saidReasoning, hk]
    rw [hs, hr, hf, saidText_silent _ _ hf, carryEvent_silent _ hf (by simp [hk])]
    exact ⟨rfl, rfl, (Bool.or_false _).symm, rfl, rfl⟩
  | _ =>
    have hf : AgyEvent.opensText (.step s) = false := by simp [AgyEvent.opensText, hk]
    have hs : b.hearStep s = (b, .silent) := by simp only [hearStep, hk]
    have hr : saidReasoning b.emittedByKey (.step s) = [] := by simp [saidReasoning, hk]
    rw [hs, hr, hf, saidText_silent _ _ hf, carryEvent_silent _ hf (by simp [hk])]
    exact ⟨rfl, rfl, (Bool.or_false _).symm, rfl, rfl⟩

/-- **One event of an unfinished mapper**: the table and the flag it leaves, and what it says. -/
theorem Memory.hear_eq (h : b.finished = false) (ev : AgyEvent) :
    (b.hear ev).1.cutOnTool = b.cutOnTool ∧
    (b.hear ev).1.emittedByKey = carryEvent b.emittedByKey ev ∧
    (b.hear ev).1.sawTextStep = (b.sawTextStep || ev.opensText) ∧
    (b.hear ev).2.text = saidText b.emittedByKey b.sawTextStep ev ∧
    (b.hear ev).2.reasoning = saidReasoning b.emittedByKey ev := by
  cases ev with
  | init e =>
    rw [hear_init]
    exact ⟨rfl, rfl, (Bool.or_false _).symm, rfl, rfl⟩
  | garbage l =>
    rw [hear_garbage]
    exact ⟨rfl, rfl, (Bool.or_false _).symm, rfl, rfl⟩
  | step s =>
    rw [hear_step h]
    exact b.hearStep_eq s
  | result r =>
    rw [hear_result h, hearResult]
    unfold saidText saidReasoning
    by_cases hc : r.consumable
    · rw [if_pos hc]
      refine ⟨rfl, rfl, (Bool.or_false _).symm, ?_, ?_⟩
      · simp only [fallback, hc, true_and]
      · cases hok : r.ok with
        | true => simp [hok]
        | false => simp [hok, hc]
    · rw [if_neg hc]
      exact ⟨rfl, rfl, (Bool.or_false _).symm, by simp [hc, Said.silent], by simp [hc, Said.silent]⟩

end Said

/-! ### Live points -/

section Points

/-- The live events, each with the log before it: all up to the first that finishes a mapper. -/
def livePoints : List AgyEvent → List AgyEvent → List (List AgyEvent × AgyEvent)
  | _, [] => []
  | pre, ev :: evs => (pre, ev) :: if ev.finishes then [] else livePoints (pre ++ [ev]) evs

/-- The text a chain says at a point. -/
def chainText (p : List AgyEvent × AgyEvent) : JsString := saidText (carried (sinceCut p.1)) (sawChain p.1) p.2

def chainReasoning (p : List AgyEvent × AgyEvent) : JsString := saidReasoning (carried (sinceCut p.1)) p.2

/-- The text an uncut reader says at a point. -/
def uncutText (p : List AgyEvent × AgyEvent) : JsString := saidText (carried p.1) (sawUncut p.1) p.2

def uncutReasoning (p : List AgyEvent × AgyEvent) : JsString := saidReasoning (carried p.1) p.2

/-- The key of a completed tool step. -/
def AgyEvent.toolKey? : AgyEvent → Option JsString
  | .step s => if AgyEvent.isToolDone (.step s) then some s.stepKey else none
  | _ => none

theorem toolKey?_isSome (ev : AgyEvent) : ev.toolKey?.isSome = ev.isToolDone := by
  cases ev with
  | step s =>
    show (if AgyEvent.isToolDone (.step s) then some s.stepKey else none).isSome = _
    cases AgyEvent.isToolDone (.step s) <;> rfl
  | _ => rfl

theorem toolKey?_eq_none {ev : AgyEvent} (h : ev.isToolDone = false) : ev.toolKey? = none := by
  rw [← Option.not_isSome_iff_eq_none, toolKey?_isSome, h]
  exact Bool.false_ne_true

end Points

/-! ### Reading on -/

section Reading

variable {b : Memory} {pre : List AgyEvent}

/-- An uncut mapper that has read `pre` from the start. -/
structure UncutAt (pre : List AgyEvent) (b : Memory) : Prop where
  uncut : b.cutOnTool = false
  table : b.emittedByKey = carried pre
  saw : b.sawTextStep = sawUncut pre
  reading : b.finished = false

theorem uncutAt_new : UncutAt [] (.new false false) := ⟨rfl, rfl, rfl, rfl⟩

/-- An uncut mapper finishes on a consumable result only. -/
theorem hear_uncut_finished (hc : b.cutOnTool = false) (hf : b.finished = false) (ev : AgyEvent) :
    (b.hear ev).1.finished = ev.finishes := by
  cases ev with
  | init e => rw [Memory.hear_init, hf]; rfl
  | garbage l => rw [Memory.hear_garbage, hf]; rfl
  | result r =>
    rw [Memory.hear_result hf, Memory.hearResult]
    show _ = r.consumable
    cases hr : r.consumable with
    | true => rfl
    | false => exact hf
  | step s =>
    rw [Memory.hear_step hf]
    show _ = false
    unfold Memory.hearStep
    split
    · split_ifs <;> exact hf
    · exact hf
    · exact hf
    · split
      · simp only [Memory.hearTool, hc, Bool.false_eq_true, if_false]
        split_ifs <;> exact hf
      · exact hf
    all_goals exact hf

theorem UncutAt.hear (h : UncutAt pre b) (ev : AgyEvent) (he : ev.finishes = false) :
    UncutAt (pre ++ [ev]) (b.hear ev).1 := by
  obtain ⟨h1, h2, h3, -⟩ := Memory.hear_eq h.reading ev
  exact ⟨h1.trans h.uncut, by rw [h2, h.table, carried_concat], by rw [h3, h.saw, sawUncut_concat],
    by rw [hear_uncut_finished h.uncut h.reading, he]⟩

/-- **An uncut reader** says, point by point, what the whole log before it lets through. -/
theorem uncut_listen : ∀ (evs pre : List AgyEvent) (b : Memory), UncutAt pre b →
    (b.listen evs).2.text = (livePoints pre evs).flatMap uncutText ∧
    (b.listen evs).2.reasoning = (livePoints pre evs).flatMap uncutReasoning
  | [], _, _, _ => ⟨rfl, rfl⟩
  | ev :: evs, pre, b, h => by
    obtain ⟨-, -, -, htext, hreas⟩ := Memory.hear_eq h.reading ev
    rw [h.table, h.saw] at htext
    rw [h.table] at hreas
    rw [Memory.listen, hear_uncut_finished h.uncut h.reading, livePoints]
    cases he : ev.finishes with
    | true => exact ⟨by simp [htext, uncutText], by simp [hreas, uncutReasoning]⟩
    | false =>
      obtain ⟨ih1, ih2⟩ := uncut_listen evs (pre ++ [ev]) (b.hear ev).1 (h.hear ev he)
      exact ⟨by simp [Said.append, htext, ih1, uncutText], by simp [Said.append, hreas, ih2, uncutReasoning]⟩

/-- The mapper of a span that has read on from the last cut of `pre`. -/
structure ChainAt (pre : List AgyEvent) (b : Memory) : Prop where
  cutting : b.Cutting
  table : b.emittedByKey = carried (sinceCut pre)
  saw : b.sawTextStep = sawChain pre

theorem chainAt_new (h : sinceCut pre = []) : ChainAt pre (.new true (pre.any AgyEvent.isTextStep)) :=
  ⟨Memory.cutting_new _, by rw [h]; rfl, by rw [sawChain, h]; exact (Bool.or_false _).symm⟩

theorem ChainAt.hear (h : ChainAt pre b) (ev : AgyEvent) (he : ev.ends = false) :
    ChainAt (pre ++ [ev]) (b.hear ev).1 := by
  obtain ⟨-, h2, h3, -⟩ := Memory.hear_eq h.cutting.reading ev
  have ht : ev.isToolDone = false := (Bool.or_eq_false_iff.mp he).1
  refine ⟨(h.cutting.hear ev).2.2 he, ?_, by rw [h3, h.saw, sawChain_concat pre ht]⟩
  rw [h2, h.table, sinceCut_concat, ht, ← carried_concat]
  rfl

/-- What a span that was cut has told of the log, up to and including the event that cut it. -/
structure ToldCut (b : Memory) (pre evs : List AgyEvent) (points : List (List AgyEvent × AgyEvent)) : Prop where
  text : (b.listen evs).2.text = points.flatMap chainText
  reasoning : (b.listen evs).2.reasoning = points.flatMap chainReasoning
  cut : (b.listen evs).2.cut = true
  /-- it stopped at a completed tool step; the chain goes on behind it -/
  rest : ∃ mid ev rest, evs = mid ++ ev :: rest ∧ b.taken evs = mid.length + 1 ∧ ev.isToolDone = true ∧
    points.filterMap (fun p => p.2.toolKey?) = ev.toolKey?.toList ∧
    livePoints pre evs = points ++ livePoints (pre ++ mid ++ [ev]) rest

/-- What a span that was not cut has told: all there is. -/
structure ToldAll (b : Memory) (pre evs : List AgyEvent) : Prop where
  text : (b.listen evs).2.text = (livePoints pre evs).flatMap chainText
  reasoning : (b.listen evs).2.reasoning = (livePoints pre evs).flatMap chainReasoning
  cut : (b.listen evs).2.cut = false
  noTool : (livePoints pre evs).filterMap (fun p => p.2.toolKey?) = []

/-- **The reader of a span** says, point by point, what the log since the last cut lets through, up to the
next cut or to the end. -/
theorem chain_listen : ∀ (evs pre : List AgyEvent) (b : Memory), ChainAt pre b →
    ToldAll b pre evs ∨ ∃ points, ToldCut b pre evs points
  | [], pre, b, _ => .inl ⟨rfl, rfl, rfl, rfl⟩
  | ev :: evs, pre, b, h => by
    obtain ⟨-, -, -, htext, hreas⟩ := Memory.hear_eq h.cutting.reading ev
    rw [h.table, h.saw] at htext
    rw [h.table] at hreas
    obtain ⟨hcut, hfin, -⟩ := h.cutting.hear ev
    cases ht : ev.isToolDone with
    | true =>
      -- the cut: this event is the last one told
      have hends : ev.ends = true := by rw [AgyEvent.ends, ht]; rfl
      have hnf : ev.finishes = false := by
        cases ev with
        | result r => cases ht
        | _ => rfl
      have hl : b.listen (ev :: evs) = b.hear ev := by rw [Memory.listen, hfin, hends, if_pos rfl]
      refine .inr ⟨[(pre, ev)], ?_, ?_, ?_, [], ev, evs, rfl, ?_, ht, ?_, ?_⟩
      · rw [hl, htext]; simp [chainText]
      · rw [hl, hreas]; simp [chainReasoning]
      · rw [hl, hcut, ht]
      · rw [Memory.taken, hfin, hends, if_pos rfl]; rfl
      · cases hk : ev.toolKey? <;> simp [hk]
      · rw [livePoints, hnf]; simp
    | false =>
      have hnone : ev.toolKey? = none := toolKey?_eq_none ht
      cases he : ev.finishes with
      | true =>
        have hends : ev.ends = true := by rw [AgyEvent.ends, he, Bool.or_true]
        have hl : b.listen (ev :: evs) = b.hear ev := by rw [Memory.listen, hfin, hends, if_pos rfl]
        have hp : livePoints pre (ev :: evs) = [(pre, ev)] := by rw [livePoints, he]; rfl
        refine .inl ⟨?_, ?_, ?_, ?_⟩
        · rw [hl, htext, hp]; simp [chainText]
        · rw [hl, hreas, hp]; simp [chainReasoning]
        · rw [hl, hcut, ht]
        · rw [hp]; simp [hnone]
      | false =>
        have hends : ev.ends = false := by rw [AgyEvent.ends, ht, he]; rfl
        have hl : b.listen (ev :: evs) =
            (((b.hear ev).1.listen evs).1, (b.hear ev).2.append ((b.hear ev).1.listen evs).2) := by
          rw [Memory.listen, hfin, hends, if_neg Bool.false_ne_true]
        have hp : livePoints pre (ev :: evs) = (pre, ev) :: livePoints (pre ++ [ev]) evs := by
          rw [livePoints, he]; rfl
        rcases chain_listen evs (pre ++ [ev]) (b.hear ev).1 (h.hear ev hends) with ih | ⟨points, ih⟩
        · refine .inl ⟨?_, ?_, ?_, ?_⟩
          · rw [hl, hp]; simp [Said.append, htext, ih.text, chainText]
          · rw [hl, hp]; simp [Said.append, hreas, ih.reasoning, chainReasoning]
          · rw [hl]; simp [Said.append, hcut, ht, ih.cut]
          · rw [hp]; simp [hnone, ih.noTool]
        · obtain ⟨mid, tool, rest, hevs, htaken, htool, hkeys, hpts⟩ := ih.rest
          refine .inr ⟨(pre, ev) :: points, ?_, ?_, ?_, ev :: mid, tool, rest, by rw [hevs]; rfl, ?_, htool, ?_, ?_⟩
          · rw [hl]; simp [Said.append, htext, ih.text, chainText]
          · rw [hl]; simp [Said.append, hreas, ih.reasoning, chainReasoning]
          · rw [hl]; simp [Said.append, ih.cut]
          · rw [Memory.taken, hfin, hends, if_neg Bool.false_ne_true, htaken]; rfl
          · simp [hnone, hkeys]
          · rw [hp, hpts]; simp

end Reading

/-! ### Chains -/

section Chains

/-- The transcript of a span over a settled log is the one of the abstract mapper. -/
theorem driveSpan_heard (runId : RunId) (cutOnTool saw : Bool) (slots : ℕ → Option RawUsage)
    (events : List AgyEvent) (failure : Option RecordingFailure) (cursor : ℕ) :
    let heard := (Memory.new cutOnTool saw).listen (events.drop cursor)
    let out := driveSpan runId cutOnTool saw slots events failure cursor
    textDeltas out = heard.2.text ∧ reasoningDeltas out = heard.2.reasoning ∧
      toolCallIds out =
        if heard.2.cut then
          [mirrorCallId runId (cursor + (Memory.new cutOnTool saw).taken (events.drop cursor) - 1)]
        else [] := by
  intro heard out
  let m := EventMapper.new runId cutOnTool saw
  obtain ⟨-, -, htext, hreas, hcalls, -⟩ := pump_heard slots (events.drop cursor) cursor m
  obtain ⟨b, hend⟩ := endOfLog_heard failure (pump slots cursor (events.drop cursor) m).1 cursor
  have hout : out = (pump slots cursor (events.drop cursor) m).2 ++
      (endOfLog failure (pump slots cursor (events.drop cursor) m).1).2 := rfl
  refine ⟨?_, ?_, ?_⟩
  · rw [hout, textDeltas_append, hend.text, htext]
    exact List.append_nil _
  · rw [hout, reasoningDeltas_append, hend.reasoning, hreas]
    exact List.append_nil _
  · rw [hout, toolCallIds_append, hend.calls, hcalls]
    exact List.append_nil _

/-- The log of a settled run. -/
structure EventLog where
  events : List AgyEvent
  capped : Capped events

variable (runId : RunId) (log : EventLog) (failure : Option RecordingFailure)

/-- The span of a main turn that resumes at a cursor: its mapper is told what the log before says. -/
def spanFrom (slots : ℕ → Option RawUsage) (cursor : ℕ) : List StreamChunk :=
  driveSpan runId true (sawTextBefore log.events cursor) slots log.events failure cursor

/-- The spans of a settled run from a cursor on: each next one resumes behind the event the call id of the
cut before it names, and the last one is not cut. -/
inductive Chain : ℕ → List (List StreamChunk) → Prop
  | last {cursor : ℕ} (slots : ℕ → Option RawUsage)
      (h : toolCallIds (spanFrom runId log failure slots cursor) = []) :
      Chain cursor [spanFrom runId log failure slots cursor]
  | resume {cursor i : ℕ} {id : JsString} {spans : List (List StreamChunk)} (slots : ℕ → Option RawUsage)
      (hid : id ∈ toolCallIds (spanFrom runId log failure slots cursor))
      (hparse : parseMirrorCallId id = some (runId.val, i)) (h : Chain (i + 1) spans) :
      Chain cursor (spanFrom runId log failure slots cursor :: spans)

/-- The step key a call id stands for. -/
def calledKey (id : JsString) : Option JsString :=
  (parseMirrorCallId id).bind fun p => log.events[p.2]?.bind AgyEvent.toolKey?

/-- The step keys that surfaced as tool calls, call by call. -/
def surfacedKeys (spans : List (List StreamChunk)) : List JsString :=
  (spans.flatMap toolCallIds).filterMap (calledKey log)

variable {runId log failure}

/-- Where a cut leaves the log. -/
theorem cut_at {events mid rest : List AgyEvent} {ev : AgyEvent} {cursor : ℕ}
    (h : events.drop cursor = mid ++ ev :: rest) :
    events[cursor + mid.length]? = some ev ∧
    events.take (cursor + mid.length + 1) = events.take cursor ++ mid ++ [ev] ∧
    events.drop (cursor + mid.length + 1) = rest := by
  have hlen : cursor ≤ events.length := by
    by_contra hlt
    rw [List.drop_eq_nil_of_le (by omega)] at h
    cases mid <;> cases h
  have hev : events = (events.take cursor ++ mid) ++ ev :: rest := by
    rw [List.append_assoc, ← h, List.take_append_drop]
  have hpre : (events.take cursor ++ mid).length = cursor + mid.length := by
    rw [List.length_append, List.length_take, Nat.min_eq_left hlen]
  generalize events.take cursor ++ mid = pre at hev hpre ⊢
  subst hev
  rw [← hpre]
  refine ⟨by simp, ?_, ?_⟩
  · rw [List.take_length_add_append]
    rfl
  · rw [List.drop_length_add_append]
    rfl

/-- A span that was not cut: it tells the live log to its end. -/
structure SpanWhole (log : EventLog) (cursor : ℕ) (out : List StreamChunk) : Prop where
  calls : toolCallIds out = []
  text : textDeltas out = (livePoints (log.events.take cursor) (log.events.drop cursor)).flatMap chainText
  reasoning : reasoningDeltas out =
    (livePoints (log.events.take cursor) (log.events.drop cursor)).flatMap chainReasoning
  noTool : (livePoints (log.events.take cursor) (log.events.drop cursor)).filterMap (fun p => p.2.toolKey?) = []

/-- A span that was cut at event `i`: it tells the first live points, the chain goes on at `i + 1`. -/
structure SpanCut (runId : RunId) (log : EventLog) (cursor : ℕ) (out : List StreamChunk) (i : ℕ)
    (points : List (List AgyEvent × AgyEvent)) : Prop where
  calls : toolCallIds out = [mirrorCallId runId i]
  parse : parseMirrorCallId (mirrorCallId runId i) = some (runId.val, i)
  key : (calledKey log (mirrorCallId runId i)).toList = points.filterMap fun p => p.2.toolKey?
  inLog : cursor ≤ i ∧ i < log.events.length
  since : sinceCut (log.events.take (i + 1)) = []
  text : textDeltas out = points.flatMap chainText
  reasoning : reasoningDeltas out = points.flatMap chainReasoning
  rest : livePoints (log.events.take cursor) (log.events.drop cursor) =
    points ++ livePoints (log.events.take (i + 1)) (log.events.drop (i + 1))

/-- Every span behind a cut, or from the start, is one or the other. -/
theorem spanFrom_told (runId : RunId) (log : EventLog) (failure : Option RecordingFailure)
    (slots : ℕ → Option RawUsage) {cursor : ℕ} (hpre : sinceCut (log.events.take cursor) = []) :
    SpanWhole log cursor (spanFrom runId log failure slots cursor) ∨
      ∃ i points, SpanCut runId log cursor (spanFrom runId log failure slots cursor) i points := by
  obtain ⟨htext, hreas, hcalls⟩ := driveSpan_heard runId true (sawTextBefore log.events cursor) slots
    log.events failure cursor
  rcases chain_listen (log.events.drop cursor) _ (.new true (sawTextBefore log.events cursor)) (chainAt_new hpre)
    with hall | ⟨points, hcut⟩
  · rw [hall.cut] at hcalls
    exact .inl ⟨hcalls, htext.trans hall.text, hreas.trans hall.reasoning, hall.noTool⟩
  · obtain ⟨mid, ev, rest, hdrop, htaken, ht, hkeys, hpts⟩ := hcut.rest
    obtain ⟨hev, htake, hrest⟩ := cut_at hdrop
    rw [hcut.cut, if_pos rfl, htaken, show cursor + (mid.length + 1) - 1 = cursor + mid.length by omega] at hcalls
    have hres : ev.isResult = false := by
      cases ev with
      | result r => cases ht
      | _ => rfl
    -- a tool step is stored below the cap, so its index is a safe integer
    have hbig : cursor + mid.length < 2 ^ 53 := (log.capped _ ev hev hres).trans (by decide)
    have hparse := parse_mirrorCallId runId hbig
    have hlt : cursor + mid.length < log.events.length := (List.getElem?_eq_some_iff.mp hev).1
    refine .inr ⟨cursor + mid.length, points, hcalls, hparse, ?_, ⟨by omega, hlt⟩, ?_,
      htext.trans hcut.text, hreas.trans hcut.reasoning, ?_⟩
    · rw [hkeys, calledKey, hparse, Option.bind_some, hev, Option.bind_some]
    · rw [htake, sinceCut_concat, ht, if_pos rfl]
    · rw [htake, hrest]
      exact hpts

/-- **A chain tells the live log once**, point by point, each point with the memory of its span. -/
theorem Chain.told {cursor : ℕ} {spans : List (List StreamChunk)} (h : Chain runId log failure cursor spans)
    (hpre : sinceCut (log.events.take cursor) = []) :
    spans.flatMap textDeltas =
        (livePoints (log.events.take cursor) (log.events.drop cursor)).flatMap chainText ∧
    spans.flatMap reasoningDeltas =
        (livePoints (log.events.take cursor) (log.events.drop cursor)).flatMap chainReasoning ∧
    surfacedKeys log spans =
        (livePoints (log.events.take cursor) (log.events.drop cursor)).filterMap fun p => p.2.toolKey? := by
  induction h with
  | @last cursor slots hnone =>
    rcases spanFrom_told runId log failure slots hpre with hw | ⟨i, points, hc⟩
    · rw [List.flatMap_singleton, List.flatMap_singleton, surfacedKeys, List.flatMap_singleton, hnone, hw.noTool]
      exact ⟨hw.text, hw.reasoning, rfl⟩
    · rw [hc.calls] at hnone
      cases hnone
  | @resume cursor i id spans slots hid hparse hrest ih =>
    rcases spanFrom_told runId log failure slots hpre with hw | ⟨j, points, hc⟩
    · rw [hw.calls] at hid
      cases hid
    · rw [hc.calls, List.mem_singleton] at hid
      obtain rfl : j = i := by
        rw [hid, hc.parse] at hparse
        simpa using hparse
      obtain ⟨ih1, ih2, ih3⟩ := ih hc.since
      refine ⟨?_, ?_, ?_⟩
      · rw [List.flatMap_cons, ih1, hc.rest, List.flatMap_append, hc.text]
      · rw [List.flatMap_cons, ih2, hc.rest, List.flatMap_append, hc.reasoning]
      · rw [surfacedKeys] at ih3
        rw [surfacedKeys, List.flatMap_cons, List.filterMap_append, ih3, hc.calls, hc.rest, List.filterMap_append,
          ← hc.key]
        cases hk : calledKey log (mirrorCallId runId j) <;> simp [hk]

/-- **Every log has a chain**, whatever the usage slots. -/
theorem chain_exists (runId : RunId) (log : EventLog) (failure : Option RecordingFailure)
    (slots : ℕ → Option RawUsage) (cursor : ℕ) (hpre : sinceCut (log.events.take cursor) = []) :
    ∃ spans, Chain runId log failure cursor spans := by
  rcases spanFrom_told runId log failure slots hpre with hw | ⟨i, points, hc⟩
  · exact ⟨_, .last slots hw.calls⟩
  · obtain ⟨spans, hrest⟩ := chain_exists runId log failure slots (i + 1) hc.since
    exact ⟨_, .resume slots (by rw [hc.calls]; exact List.mem_singleton_self _) hc.parse hrest⟩
termination_by log.events.length - cursor
decreasing_by
  have := hc.inLog
  omega

end Chains

end AgyProxy
