import AgyProxy.Host.ChainSpec

/-!
# AgyProxy.Host.StepTextSpec — the text a client gets of one step of a span

* `attributed`: the pump of a span with each event's chunks beside it; `stepDeltas`: the text deltas of one step.
* `finalText`: what the updates of a step come to; `Consistent`: none of them takes back what was there.
* `restyle`: the same text with each update delivered as a fragment or as a snapshot.
* `stepDeltas_eq_finalText`: the deltas concatenate to the final text, in any style.
-/

namespace AgyProxy

open Js Lib EventMapper

/-! ### Updates of one step -/

section Step

variable (key : JsString)

/-- A text step of the key. -/
def AgyEvent.updates : AgyEvent → Bool
  | .step s => decide (s.stepKind = .text ∧ s.stepKey = key)
  | _ => false

/-- The text of the step after an event: a fragment appends, a snapshot replaces. -/
def textAfter (t : JsString) (ev : AgyEvent) : JsString :=
  match ev with
  | .step s => if s.stepKind = .text ∧ s.stepKey = key then (if s.fragment then t ++ s.text else s.text) else t
  | _ => t

def finalText (evs : List AgyEvent) : JsString := evs.foldl (textAfter key) []

/-- Every update extends the text there is. -/
def Consistent : JsString → List AgyEvent → Prop
  | _, [] => True
  | t, ev :: evs => t <+: textAfter key t ev ∧ Consistent (textAfter key t ev) evs

instance Consistent.decidable : ∀ (t : JsString) (evs : List AgyEvent), Decidable (Consistent key t evs)
  | _, [] => inferInstanceAs (Decidable True)
  | t, ev :: evs =>
    have := Consistent.decidable (textAfter key t ev) evs
    inferInstanceAs (Decidable (t <+: textAfter key t ev ∧ Consistent key (textAfter key t ev) evs))

/-- No step of another kind has the key. -/
def Unshared (evs : List AgyEvent) : Prop := ∀ s, AgyEvent.step s ∈ evs → s.stepKey = key → s.stepKind = .text

/-- An update in another style: the suffix as a fragment, or the whole text as a snapshot. -/
def StepEvent.restyled (fragment : Bool) (t : JsString) (s : StepEvent) : StepEvent :=
  { s with
    fragment
    text := if fragment then (textAfter key t (.step s)).drop t.length else textAfter key t (.step s) }

def restyleEvent (fragment : Bool) (t : JsString) : AgyEvent → AgyEvent
  | .step s => .step (if s.stepKind = .text ∧ s.stepKey = key then s.restyled key fragment t else s)
  | ev => ev

/-- The updates of the step in the styles that `style` asks for at their positions. -/
def restyle (style : ℕ → Bool) : ℕ → JsString → List AgyEvent → List AgyEvent
  | _, _, [] => []
  | i, t, ev :: evs => restyleEvent key (style i) t ev :: restyle style (i + 1) (textAfter key t ev) evs

/-- The events a mapper takes, each with its chunks. -/
def attributed (slots : ℕ → Option RawUsage) : ℕ → List AgyEvent → EventMapper → List (AgyEvent × List StreamChunk)
  | _, [], _ => []
  | i, ev :: evs, m =>
    let r := m.map (slots i) ev i
    if r.1.finished then [(ev, r.2)] else (ev, r.2) :: attributed slots (i + 1) evs r.1

/-- The text deltas emitted for the step. -/
def stepDeltas (pass : List (AgyEvent × List StreamChunk)) : JsString :=
  (pass.filter fun x => x.1.updates key).flatMap fun x => textDeltas x.2

variable {key}

/-! ### One pass -/

/-- The chunks of a pass are those of the pump. -/
theorem attributed_chunks (slots : ℕ → Option RawUsage) : ∀ (evs : List AgyEvent) (i : ℕ) (m : EventMapper),
    (attributed slots i evs m).flatMap Prod.snd = (pump slots i evs m).2
  | [], _, _ => rfl
  | ev :: evs, i, m => by
    unfold attributed pump
    dsimp only
    split_ifs
    · exact List.append_nil _
    · rw [List.flatMap_cons, attributed_chunks slots evs]

theorem attributed_events (slots : ℕ → Option RawUsage) : ∀ (evs : List AgyEvent) (i : ℕ) (m : EventMapper),
    (attributed slots i evs m).map Prod.fst = evs.take (m.memory.taken evs)
  | [], _, _ => rfl
  | ev :: evs, i, m => by
    have hfinished := map_finished_iff (slots i) ev i m
    unfold attributed Memory.taken
    dsimp only
    rw [hfinished]
    split_ifs
    · rfl
    · rw [List.map_cons, attributed_events slots evs, (map_heard (slots i) ev i m).memory, List.take_succ_cons]

variable {t : JsString} {b : Memory} {ev : AgyEvent}

theorem textAfter_of_updates {s : StepEvent} (hkind : s.stepKind = .text) :
    textAfter s.stepKey t (.step s) = if s.fragment then t ++ s.text else s.text := if_pos ⟨hkind, rfl⟩

theorem textAfter_of_not_updates (hno : ev.updates key = false) : textAfter key t ev = t := by
  cases ev with
  | step s => exact if_neg (of_decide_eq_false hno)
  | init e => rfl
  | garbage l => rfl
  | result r => rfl

/-- An update carries the text on and says what it adds. -/
theorem carryEvent_updates {table : JsString → JsString} (saw : Bool) {s : StepEvent} (hkind : s.stepKind = .text)
    (hextends : table s.stepKey <+: textAfter s.stepKey (table s.stepKey) (.step s)) :
    carryEvent table (.step s) s.stepKey = textAfter s.stepKey (table s.stepKey) (.step s) ∧
      table s.stepKey ++ saidText table saw (.step s) = textAfter s.stepKey (table s.stepKey) (.step s) := by
  rw [textAfter_of_updates hkind] at hextends ⊢
  by_cases hopens : AgyEvent.opensText (.step s) = true
  · rw [carryEvent_opens table hopens, saidText_opens table saw hopens, Function.update_self]
    unfold stepDelta
    cases hfragment : s.fragment with
    | true => exact ⟨rfl, rfl⟩
    | false =>
      rw [hfragment, if_neg Bool.false_ne_true] at hextends
      refine ⟨rfl, ?_⟩
      show table s.stepKey ++ suffixDelta (table s.stepKey) s.text = s.text
      rw [suffixDelta_of_extends hextends]
      exact List.prefix_iff_eq_append.mp hextends
  · -- a blank snapshot is dropped: there was no text yet
    have hsilent := Bool.eq_false_iff.mpr hopens
    have hthinking : s.stepKind ≠ .thinking := fun h => nomatch hkind.symm.trans h
    obtain ⟨htext, hfragment⟩ := not_not.mp fun hblank => hopens ((Memory.opensText_iff s hkind).mpr hblank)
    rw [hfragment, if_neg Bool.false_ne_true, htext] at hextends
    rw [carryEvent_silent table hsilent hthinking, saidText_silent table saw hsilent, List.append_nil, hfragment,
      if_neg Bool.false_ne_true, htext]
    exact ⟨List.prefix_nil.mp hextends, List.prefix_nil.mp hextends⟩

/-- What is no update of the step leaves its text. -/
theorem carryEvent_of_not_updates {table : JsString → JsString} (hno : ev.updates key = false)
    (hunshared : ∀ s, ev = .step s → s.stepKey = key → s.stepKind = .text) : carryEvent table ev key = table key := by
  cases ev with
  | init e => rfl
  | garbage l => rfl
  | result r => rfl
  | step s =>
    have hne : s.stepKey ≠ key := fun h => of_decide_eq_false hno ⟨hunshared s rfl h, h⟩
    by_cases hopens : AgyEvent.opensText (.step s) = true
    · rw [carryEvent_opens table hopens, Function.update_of_ne hne.symm]
    · by_cases hthinking : s.stepKind = .thinking
      · rw [carryEvent_thinking table hthinking, Function.update_of_ne hne.symm]
      · rw [carryEvent_silent table (Bool.eq_false_iff.mpr hopens) hthinking]

/-- **One event**: the key carries the text of the step, and an update says what it adds to it. -/
theorem hear_step_text (hreading : b.finished = false) (hkey : b.emittedByKey key = t)
    (hextends : t <+: textAfter key t ev) (hunshared : ∀ s, ev = .step s → s.stepKey = key → s.stepKind = .text) :
    (b.hear ev).1.emittedByKey key = textAfter key t ev ∧
      t ++ (if ev.updates key then (b.hear ev).2.text else []) = textAfter key t ev := by
  obtain ⟨-, htable, -, htext, -⟩ := Memory.hear_eq hreading ev
  rw [htable, htext, ← hkey] at *
  cases hupdates : ev.updates key with
  | false =>
    rw [carryEvent_of_not_updates hupdates hunshared, textAfter_of_not_updates hupdates, if_neg Bool.false_ne_true]
    exact ⟨rfl, List.append_nil _⟩
  | true =>
    rw [if_pos rfl]
    cases ev with
    | init e => exact nomatch hupdates
    | garbage l => exact nomatch hupdates
    | result r => exact nomatch hupdates
    | step s =>
      obtain ⟨hkind, rfl⟩ := of_decide_eq_true hupdates
      exact carryEvent_updates b.sawTextStep hkind hextends

/-- **A pass**: what was said of the step before, and the deltas, make up its text. -/
theorem attributed_text (slots : ℕ → Option RawUsage) :
    ∀ (evs : List AgyEvent) (i : ℕ) (m : EventMapper) (t : JsString), m.finished = false → m.emittedByKey key = t →
      Consistent key t ((attributed slots i evs m).map Prod.fst) →
      Unshared key ((attributed slots i evs m).map Prod.fst) →
      t ++ stepDeltas key (attributed slots i evs m) = ((attributed slots i evs m).map Prod.fst).foldl (textAfter key) t
  | [], _, _, _, _, _, _, _ => List.append_nil _
  | ev :: evs, i, m, t, hreading, hkey, hconsistent, hunshared => by
    have hheard := map_heard (slots i) ev i m
    have hcons : ∃ rest, attributed slots i (ev :: evs) m = (ev, (m.map (slots i) ev i).2) :: rest ∧
        (rest = [] ∨ (m.map (slots i) ev i).1.finished = false ∧
          rest = attributed slots (i + 1) evs (m.map (slots i) ev i).1) := by
      have hunfold : attributed slots i (ev :: evs) m = if (m.map (slots i) ev i).1.finished then
          [(ev, (m.map (slots i) ev i).2)] else
          (ev, (m.map (slots i) ev i).2) :: attributed slots (i + 1) evs (m.map (slots i) ev i).1 := rfl
      rw [hunfold]
      by_cases hfinished : (m.map (slots i) ev i).1.finished = true
      · rw [if_pos hfinished]
        exact ⟨[], rfl, Or.inl rfl⟩
      · rw [if_neg hfinished]
        exact ⟨_, rfl, Or.inr ⟨Bool.eq_false_iff.mpr hfinished, rfl⟩⟩
    obtain ⟨rest, hpass, hrest⟩ := hcons
    rw [hpass] at hconsistent hunshared ⊢
    obtain ⟨hextends, hconsistent⟩ := hconsistent
    obtain ⟨hcarried, hsaid⟩ := hear_step_text (b := m.memory) hreading hkey hextends
      fun s hs hskey => hunshared s (hs ▸ List.mem_cons_self) hskey
    have hdeltas : stepDeltas key ((ev, (m.map (slots i) ev i).2) :: rest) =
        (if ev.updates key then (m.memory.hear ev).2.text else []) ++ stepDeltas key rest := by
      unfold stepDeltas
      cases hupdates : ev.updates key with
      | true =>
        rw [if_pos rfl, ← hheard.text]
        rw [List.filter_cons_of_pos (by exact hupdates), List.flatMap_cons]
      | false =>
        rw [if_neg Bool.false_ne_true, List.nil_append]
        rw [List.filter_cons_of_neg (by rw [hupdates]; exact Bool.false_ne_true)]
    rw [hdeltas, ← List.append_assoc, hsaid, List.map_cons, List.foldl_cons]
    rcases hrest with rfl | ⟨hreading', rfl⟩
    · exact List.append_nil _
    · have hunshared' : Unshared key ((attributed slots (i + 1) evs (m.map (slots i) ev i).1).map Prod.fst) :=
        fun s hs => hunshared s (List.mem_cons_of_mem _ hs)
      refine attributed_text slots evs (i + 1) _ _ hreading' ?_ hconsistent hunshared'
      rw [← memory_emittedByKey, hheard.memory]
      exact hcarried

/-! ### Styles -/

/-- An event of the same effect on the step. -/
theorem textAfter_restyleEvent (fragment : Bool) {ev : AgyEvent} (hextends : t <+: textAfter key t ev) :
    textAfter key t (restyleEvent key fragment t ev) = textAfter key t ev := by
  cases ev with
  | step s =>
    show textAfter key t (.step (if s.stepKind = .text ∧ s.stepKey = key then s.restyled key fragment t else s)) = _
    by_cases hmine : s.stepKind = .text ∧ s.stepKey = key
    · rw [if_pos hmine]
      show (if s.stepKind = .text ∧ s.stepKey = key then (if fragment then t ++ _ else _) else t) = _
      rw [if_pos hmine]
      unfold StepEvent.restyled
      cases fragment with
      | true => exact List.prefix_iff_eq_append.mp hextends
      | false => rfl
    · rw [if_neg hmine]
  | init e => rfl
  | garbage l => rfl
  | result r => rfl

/-- The same text, consistently, in any style. -/
theorem restyle_text (style : ℕ → Bool) : ∀ (evs : List AgyEvent) (i : ℕ) (t : JsString), Consistent key t evs →
    Consistent key t (restyle key style i t evs) ∧
      (restyle key style i t evs).foldl (textAfter key) t = evs.foldl (textAfter key) t
  | [], _, _, _ => ⟨trivial, rfl⟩
  | ev :: evs, i, t, ⟨hextends, hconsistent⟩ => by
    have hsame := textAfter_restyleEvent (style i) hextends
    obtain ⟨hrest, hfinal⟩ := restyle_text style evs (i + 1) (textAfter key t ev) hconsistent
    refine ⟨?_, ?_⟩
    · show t <+: textAfter key t (restyleEvent key (style i) t ev) ∧ Consistent key _ _
      rw [hsame]
      exact ⟨hextends, hrest⟩
    · show (restyle key style (i + 1) _ evs).foldl (textAfter key)
        (textAfter key t (restyleEvent key (style i) t ev)) = _
      rw [hsame]
      exact hfinal

theorem restyleEvent_step {fragment : Bool} {ev : AgyEvent} {s : StepEvent}
    (h : restyleEvent key fragment t ev = .step s) :
    ∃ s', ev = .step s' ∧ s.stepKind = s'.stepKind ∧ s.stepKey = s'.stepKey := by
  cases ev with
  | step s' =>
    refine ⟨s', rfl, ?_⟩
    unfold restyleEvent at h
    rw [← AgyEvent.step.inj h]
    split_ifs
    · exact ⟨rfl, rfl⟩
    · exact ⟨rfl, rfl⟩
  | init e => exact nomatch h
  | garbage l => exact nomatch h
  | result r => exact nomatch h

theorem Unshared.restyle {style : ℕ → Bool} : ∀ {evs : List AgyEvent} {i : ℕ} {t : JsString}, Unshared key evs →
    Unshared key (restyle key style i t evs)
  | [], _, _, _ => fun _ hs => absurd hs List.not_mem_nil
  | ev :: evs, i, t, h => by
    intro s hs hkey
    rcases List.mem_cons.mp hs with hs | hs
    · obtain ⟨s', rfl, hkind, hskey⟩ := restyleEvent_step hs.symm
      exact hkind.trans (h s' List.mem_cons_self (hskey.symm.trans hkey))
    · have hrest : Unshared key evs := fun s' hs' => h s' (List.mem_cons_of_mem ev hs')
      exact hrest.restyle s hs hkey

theorem take_restyle (style : ℕ → Bool) : ∀ (n : ℕ) (evs : List AgyEvent) (i : ℕ) (t : JsString),
    (restyle key style i t evs).take n = restyle key style i t (evs.take n)
  | 0, _, _, _ => rfl
  | _ + 1, [], _, _ => rfl
  | n + 1, ev :: evs, i, t => by
    show restyleEvent key (style i) t ev :: (restyle key style (i + 1) _ evs).take n = _
    rw [take_restyle style n]
    rfl

/-- Two memories that finish on the same events. -/
structure SameControl (b b' : Memory) : Prop where
  cutOnTool : b'.cutOnTool = b.cutOnTool
  announcedTools : b'.announcedTools = b.announcedTools
  finished : b'.finished = b.finished

theorem SameControl.trans {b' b'' : Memory} (h : SameControl b b') (h' : SameControl b' b'') : SameControl b b'' :=
  ⟨h'.cutOnTool.trans h.cutOnTool, h'.announcedTools.trans h.announcedTools, h'.finished.trans h.finished⟩

theorem SameControl.symm {b' : Memory} (h : SameControl b b') : SameControl b' b :=
  ⟨h.cutOnTool.symm, h.announcedTools.symm, h.finished.symm⟩

/-- A text step changes the text only. -/
theorem control_text (b : Memory) {s : StepEvent} (hkind : s.stepKind = .text) :
    SameControl b (b.hear (.step s)).1 := by
  cases hreading : b.finished with
  | true =>
    rw [Memory.hear_of_finished hreading]
    exact ⟨rfl, rfl, rfl⟩
  | false =>
    rw [Memory.hear_step hreading]
    unfold Memory.hearStep
    simp only [hkind]
    split_ifs
    · exact ⟨rfl, rfl, rfl⟩
    · exact ⟨rfl, rfl, rfl⟩

theorem SameControl.hear {b' : Memory} (h : SameControl b b') (ev : AgyEvent) :
    SameControl (b.hear ev).1 (b'.hear ev).1 := by
  cases hreading : b.finished with
  | true =>
    rw [Memory.hear_of_finished hreading, Memory.hear_of_finished (h.finished.trans hreading)]
    exact h
  | false =>
    have hreading' := h.finished.trans hreading
    cases ev with
    | init e =>
      rw [Memory.hear_init, Memory.hear_init]
      exact h
    | garbage l =>
      rw [Memory.hear_garbage, Memory.hear_garbage]
      exact h
    | result r =>
      rw [Memory.hear_result hreading, Memory.hear_result hreading']
      unfold Memory.hearResult
      by_cases hconsumable : r.consumable = true
      · rw [if_pos hconsumable, if_pos hconsumable]
        exact ⟨h.cutOnTool, h.announcedTools, rfl⟩
      · rw [if_neg hconsumable, if_neg hconsumable]
        exact h
    | step s =>
      cases hkind : s.stepKind with
      | text =>
        exact (control_text b hkind).symm.trans (h.trans (control_text b' hkind))
      | tool =>
        rw [Memory.hear_step hreading, Memory.hear_step hreading']
        unfold Memory.hearStep
        simp only [hkind]
        cases s.tool with
        | none => exact h
        | some tool =>
          show SameControl (b.hearTool s.stepKey tool).1 (b'.hearTool s.stepKey tool).1
          unfold Memory.hearTool
          rw [h.announcedTools, h.cutOnTool]
          split_ifs
          · exact h
          · exact ⟨rfl, rfl, rfl⟩
          · exact ⟨rfl, rfl, h.finished⟩
      | _ =>
        rw [Memory.hear_step hreading, Memory.hear_step hreading']
        unfold Memory.hearStep
        simp only [hkind]
        exact ⟨h.cutOnTool, h.announcedTools, h.finished⟩

/-- The style of an update decides nothing about the end of a pass. -/
theorem control_restyleEvent {b' : Memory} (h : SameControl b b') (fragment : Bool) (t : JsString) (ev : AgyEvent) :
    SameControl (b.hear ev).1 (b'.hear (restyleEvent key fragment t ev)).1 := by
  cases ev with
  | step s =>
    show SameControl _
      (b'.hear (.step (if s.stepKind = .text ∧ s.stepKey = key then s.restyled key fragment t else s))).1
    by_cases hmine : s.stepKind = .text ∧ s.stepKey = key
    · rw [if_pos hmine]
      have hkind : (s.restyled key fragment t).stepKind = .text := hmine.1
      exact (control_text b hmine.1).symm.trans (h.trans (control_text b' hkind))
    · rw [if_neg hmine]
      exact h.hear (.step s)
  | init e => exact h.hear (.init e)
  | garbage l => exact h.hear (.garbage l)
  | result r => exact h.hear (.result r)

theorem taken_restyle (style : ℕ → Bool) : ∀ (evs : List AgyEvent) (i : ℕ) (t : JsString) {b b' : Memory},
    SameControl b b' → b'.taken (restyle key style i t evs) = b.taken evs
  | [], _, _, _, _, _ => rfl
  | ev :: evs, i, t, b, b', h => by
    have hcontrol : SameControl (b.hear ev).1 (b'.hear (restyleEvent key (style i) t ev)).1 :=
      control_restyleEvent h (style i) t ev
    show (if (b'.hear (restyleEvent key (style i) t ev)).1.finished then 1 else _ + 1) = _
    rw [hcontrol.finished, taken_restyle style evs (i + 1) _ hcontrol]
    rfl

/-! ### Fidelity -/

/-- **Fidelity of a step**: in one pass the deltas of a step whose updates are consistent concatenate to its
final text, and so do they when the updates are delivered in other styles. -/
theorem stepDeltas_eq_finalText (runId : RunId) (cutOnTool saw : Bool) (slots : ℕ → Option RawUsage)
    (evs : List AgyEvent) (key : JsString)
    (hconsistent : Consistent key [] ((attributed slots 0 evs (.new runId cutOnTool saw)).map Prod.fst))
    (hunshared : Unshared key ((attributed slots 0 evs (.new runId cutOnTool saw)).map Prod.fst)) :
    stepDeltas key (attributed slots 0 evs (.new runId cutOnTool saw)) =
        finalText key ((attributed slots 0 evs (.new runId cutOnTool saw)).map Prod.fst) ∧
      ∀ style : ℕ → Bool, stepDeltas key (attributed slots 0 (restyle key style 0 [] evs) (.new runId cutOnTool saw)) =
        stepDeltas key (attributed slots 0 evs (.new runId cutOnTool saw)) := by
  have htext : ∀ evs', Consistent key [] ((attributed slots 0 evs' (.new runId cutOnTool saw)).map Prod.fst) →
      Unshared key ((attributed slots 0 evs' (.new runId cutOnTool saw)).map Prod.fst) →
      stepDeltas key (attributed slots 0 evs' (.new runId cutOnTool saw)) =
        finalText key ((attributed slots 0 evs' (.new runId cutOnTool saw)).map Prod.fst) := fun evs' hc hu =>
    attributed_text slots evs' 0 (.new runId cutOnTool saw) [] rfl rfl hc hu
  refine ⟨htext evs hconsistent hunshared, fun style => ?_⟩
  have hevents : (attributed slots 0 (restyle key style 0 [] evs) (.new runId cutOnTool saw)).map Prod.fst =
      restyle key style 0 [] ((attributed slots 0 evs (.new runId cutOnTool saw)).map Prod.fst) := by
    rw [attributed_events, attributed_events, taken_restyle style evs 0 [] ⟨rfl, rfl, rfl⟩, take_restyle]
  obtain ⟨hrestyled, hfinal⟩ := restyle_text style _ 0 [] hconsistent
  rw [htext evs hconsistent hunshared, htext (restyle key style 0 [] evs) (hevents ▸ hrestyled)
    (hevents ▸ hunshared.restyle), hevents]
  exact hfinal

def spanRunId : RunId := ⟨js "run-2", by decide⟩

/-- Two steps in turns, one of them in both styles. -/
def interleaved : List AgyEvent :=
  let update (key text : String) (fragment : Bool) : AgyEvent :=
    .step ⟨js key, .text, js text, fragment, none, none, none⟩
  [update "a" "Hel" true, update "b" "x" false, update "a" "Hello" false, update "b" "yz" true, update "a" "" true,
    update "a" "Hello, you" false]

theorem stepDeltas_interleaved :
    let pass := attributed (fun _ => none) 0 interleaved (.new spanRunId true false)
    stepDeltas (js "a") pass = finalText (js "a") (pass.map Prod.fst) ∧
      ∀ style : ℕ → Bool, stepDeltas (js "a")
        (attributed (fun _ => none) 0 (restyle (js "a") style 0 [] interleaved) (.new spanRunId true false)) =
          stepDeltas (js "a") pass := by
  have hevents : (attributed (fun _ => none) 0 interleaved (.new spanRunId true false)).map Prod.fst = interleaved := by
    rw [attributed_events]
    rfl
  refine stepDeltas_eq_finalText spanRunId true false (fun _ => none) interleaved (js "a") ?_ ?_
  · rw [hevents]
    decide +kernel
  · rw [hevents]
    intro s hs _
    simp only [interleaved, List.mem_cons, List.not_mem_nil, or_false, AgyEvent.step.injEq] at hs
    rcases hs with rfl | rfl | rfl | rfl | rfl | rfl
    all_goals rfl

end Step

end AgyProxy
