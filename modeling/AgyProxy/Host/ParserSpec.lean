import AgyProxy.Host.Parser

/-!
# AgyProxy.Host.ParserSpec — totality of the parser, one event per line

* `poison stack v`: the values `classifyEvent` throws on.  Two kinds: an object that sends the recursion back
  to itself (a step shape whose own `event` property survives the spread), and a result whose `status`
  has no primitive value.  `classifyEvent_isOk_iff` is the exact characterisation.
* `linesTaken chunks`: the lines the buffering hands to `takeLine`, a function of the chunks alone.
* `parseStream_good`, `parseStream_bad`: nothing throws exactly when no line taken is bad.
* `oneEventPerLine_iff`: then, and only then, the events are one per non-blank line, in order.
-/

namespace AgyProxy

open Js

/-! ### classifyEvent -/

section Classify

/-- The `status` of a result that `String` cannot convert. -/
def statusThrows (stack : ℕ) (o : Obj) : Bool := (pick o [js "status"]).any (Json.noPrimitive stack)

/-- The values `classifyEvent` throws on, called with that much stack. -/
def poison (stack : ℕ) : Json → Bool
  | .obj o =>
    let evt := discriminator o
    if isInit evt || isStepUpdate evt then false
    else if isFinal evt then statusThrows (stack - 1) (resultFields o)
    else if hasResultShape o then statusThrows (stack - 2) o
    else hasStepShape o && (Obj.get? o (js "event")).isSome
  | _ => false

theorem classifyResult_isOk (stack : ℕ) (o : Obj) :
    (∃ r, classifyResult stack o = .ok r) ↔ statusThrows stack (resultFields o) = false := by
  unfold classifyResult statusThrows
  cases hs : pick (resultFields o) [js "status"] with
  | none => simp [hs, bind, Except.bind, pure, Except.pure]
  | some status =>
    rw [Option.any_some, ← Json.toJsString_isOk]
    cases ht : status.toJsString stack with
    | error e => simp [hs, ht, bind, Except.bind]
    | ok s => simp [hs, ht, bind, Except.bind, pure, Except.pure]

theorem map_isOk {stack : ℕ} {o : Obj} :
    (∃ ev, (classifyResult stack o).map (fun r => some (AgyEvent.result r)) = .ok ev) ↔
      statusThrows stack (resultFields o) = false := by
  rw [← classifyResult_isOk]
  cases classifyResult stack o <;> simp [Except.map]

/-- `{ event: 'result', result: o }` is read as the result `o`. -/
theorem resultFields_wrapped (o : Obj) :
    resultFields [(js "event", .str (js "result")), (js "result", .obj o)] = o := by
  have h : Obj.get? [(js "event", .str (js "result")), (js "result", .obj o)] (js "result") =
      some (.obj o) := by
    rw [← List.singleton_append, Obj.get?_append]
    simp
  simp [resultFields, pick, h, fieldsOf, Json.asObject?]

theorem discriminator_wrapped (o : Obj) :
    discriminator [(js "event", .str (js "result")), (js "result", .obj o)] = js "result" := by
  have h : Obj.get? [(js "event", .str (js "result")), (js "result", .obj o)] (js "event") =
      some (.str (js "result")) := by
    rw [← List.singleton_append, Obj.get?_append]
    simp [show js "event" ≠ js "result" by decide]
  simp [discriminator, h]

/-- The spread that re-enters the step branch: properties of `o` win. -/
def respread (o : Obj) : Obj := [(js "event", .str (js "step_update"))] ++ o

theorem get?_respread (o : Obj) (k : JsString) :
    (respread o).get? k = (o.get? k).or (if k = js "event" then some (.str (js "step_update")) else none) := by
  simp only [respread, Obj.get?_append, Obj.get?_singleton]

/-- Without an `event` of its own the re-shaped object is a step update. -/
theorem discriminator_respread {o : Obj} (h : o.get? (js "event") = none) :
    discriminator (respread o) = js "step_update" := by
  simp [discriminator, get?_respread, h]

/-- With an `event` of its own the re-shaped object reads exactly like the original. -/
theorem get?_respread_of_isSome {o : Obj} (h : (o.get? (js "event")).isSome) (k : JsString) :
    (respread o).get? k = o.get? k := by
  rw [get?_respread]
  by_cases hk : k = js "event"
  · subst hk
    obtain ⟨v, hv⟩ := Option.isSome_iff_exists.mp h
    rw [hv, Option.some_or]
  · rw [if_neg hk, Option.or_none]

/-- **The loop**: an object with a step shape, no known discriminator and no result shape, whose own
`event` survives the spread, exhausts every call stack. -/
theorem classifyEvent_loops (seq : ℕ) : ∀ (stack : ℕ) (o : Obj),
    isInit (discriminator o) = false → isStepUpdate (discriminator o) = false →
    isFinal (discriminator o) = false → hasResultShape o = false → hasStepShape o = true →
    (o.get? (js "event")).isSome → classifyEvent stack (.obj o) seq = .error .rangeError
  | 0, _, _, _, _, _, _, _ => rfl
  | stack + 1, o, h1, h2, h3, h4, h5, h6 => by
    have hget := get?_respread_of_isSome h6
    have hd : discriminator (respread o) = discriminator o := by simp only [discriminator, hget]
    have hr : hasResultShape (respread o) = hasResultShape o := by simp only [hasResultShape, hget]
    have hs : hasStepShape (respread o) = hasStepShape o := by simp only [hasStepShape, hget]
    have ih := classifyEvent_loops seq stack (respread o) (hd ▸ h1) (hd ▸ h2) (hd ▸ h3) (hr ▸ h4)
      (hs ▸ h5) (hget _ ▸ h6)
    simp only [classifyEvent, h1, h2, h3, h4, h5, Bool.false_eq_true, if_false, if_true]
    exact ih

/-- **Exactly the poison values make `classifyEvent` throw**; two frames are stack enough. -/
theorem classifyEvent_isOk_iff (v : Json) (seq stack : ℕ) (hstack : 2 ≤ stack) :
    (∃ ev, classifyEvent stack v seq = .ok ev) ↔ poison stack v = false := by
  obtain ⟨n, rfl⟩ : ∃ n, stack = n + 2 := ⟨stack - 2, by omega⟩
  cases v with
  | obj o =>
    by_cases h1 : isInit (discriminator o)
    · simp [classifyEvent, poison, h1]
    by_cases h2 : isStepUpdate (discriminator o)
    · simp [classifyEvent, poison, h1, h2]
    by_cases h3 : isFinal (discriminator o)
    · simp only [classifyEvent, poison, h1, h2, h3, if_true, Bool.false_eq_true, if_false, Bool.or_false]
      exact map_isOk
    by_cases h4 : hasResultShape o
    · have hw : isFinal (js "result") = true ∧ isInit (js "result") = false ∧
          isStepUpdate (js "result") = false := by decide
      simp only [classifyEvent, poison, h1, h2, h3, h4, discriminator_wrapped, hw.1, hw.2.1, hw.2.2,
        if_true, Bool.false_eq_true, if_false, Bool.or_false]
      rw [map_isOk, resultFields_wrapped, Nat.add_sub_cancel]
    by_cases h5 : hasStepShape o
    · by_cases h6 : (Obj.get? o (js "event")).isSome
      · have hl := classifyEvent_loops seq (n + 2) o (by simpa using h1) (by simpa using h2)
          (by simpa using h3) (by simpa using h4) h5 h6
        simp [hl, poison, h1, h2, h3, h4, h5, h6]
      · have he : Obj.get? o (js "event") = none := by simpa using h6
        have hd := discriminator_respread he
        have hw : isInit (js "step_update") = false ∧ isStepUpdate (js "step_update") = true := by decide
        have hs : classifyEvent (n + 2) (.obj o) seq = classifyEvent (n + 1) (.obj (respread o)) seq := by
          simp only [classifyEvent, h1, h2, h3, h4, h5, Bool.false_eq_true, if_false, if_true]
          rfl
        rw [hs]
        simp [classifyEvent, poison, h1, h2, h3, h4, h5, he, hd, hw.1, hw.2]
    · have hw : isInit (js "step_update") = false ∧ isStepUpdate (js "step_update") = true := by decide
      have hd (su : Json) : discriminator [(js "event", .str (js "step_update")), (js "step_update", su)] =
          js "step_update" := by
        have h : Obj.get? [(js "event", .str (js "step_update")), (js "step_update", su)] (js "event") =
            some (.str (js "step_update")) := by
          rw [← List.singleton_append, Obj.get?_append]
          simp [show js "event" ≠ js "step_update" by decide]
        simp [discriminator, h]
      cases hb : bareStepUpdate o with
      | none => simp [classifyEvent, poison, h1, h2, h3, h4, h5, hb]
      | some su => simp [classifyEvent, poison, h1, h2, h3, h4, h5, hb, hd, hw.1, hw.2]
  | _ => simp [classifyEvent, poison]

end Classify

/-! ### Lines and the pending buffer -/

section Lines

/-- Splitting an appended text: the rest of the first part opens the first line of the second. -/
theorem splitLines_append (a b : JsString) :
    splitLines (a ++ b) =
      ((splitLines a).1 ++ (splitLines ((splitLines a).2 ++ b)).1, (splitLines ((splitLines a).2 ++ b)).2) := by
  induction a with
  | nil => simp [splitLines]
  | cons c s ih =>
    by_cases hc : c = 0x0A
    · simp only [List.cons_append, splitLines, ih, hc, if_true]
    · cases hs : (splitLines s).1 with
      | nil => simp only [List.cons_append, splitLines, ih, hc, if_false, hs, List.nil_append]
      | cons l ls => simp only [List.cons_append, splitLines, ih, hc, if_false, hs]

theorem completeLines_append (a b : JsString) :
    completeLines (a ++ b) = completeLines a ++ completeLines (unterminated a ++ b) := by
  simp only [completeLines, unterminated]
  rw [splitLines_append, List.map_append]

theorem unterminated_append (a b : JsString) :
    unterminated (a ++ b) = unterminated (unterminated a ++ b) := by
  simp only [unterminated]
  rw [splitLines_append]

/-- What `feed` keeps of a joined buffer: the unterminated rest, unless it is over the cap. -/
def keptPending (pending : JsString) : JsString :=
  if MAX_PENDING_CHARS < (unterminated pending).length then [] else unterminated pending

/-- The lines handed to `takeLine` by feeding the chunks over a buffer and flushing. -/
def linesTaken (buffer : JsString) : List JsString → List JsString
  | [] => [buffer]
  | c :: cs => completeLines (buffer ++ c) ++ linesTaken (keptPending (buffer ++ c)) cs

/-- The pending unterminated line never exceeds the cap. -/
def UnderCap (chunks : List JsString) : Prop :=
  ∀ k, (unterminated (chunks.take k).flatten).length ≤ MAX_PENDING_CHARS

/-- The lines of a text: the complete ones and the unterminated last one. -/
def textLines (text : JsString) : List JsString := completeLines text ++ [unterminated text]

/-- Under the cap the lines taken are the lines of the whole text, however it was chunked. -/
theorem linesTaken_append (text : JsString) : ∀ chunks : List JsString,
    (∀ k, (unterminated (text ++ (chunks.take k).flatten)).length ≤ MAX_PENDING_CHARS) →
    completeLines text ++ linesTaken (unterminated text) chunks = textLines (text ++ chunks.flatten)
  | [], _ => by simp [linesTaken, textLines]
  | c :: cs, hcap => by
    have hc := hcap 1
    simp only [List.take_succ_cons, List.take_zero, List.flatten_cons, List.flatten_nil,
      List.append_nil] at hc
    have hkept : keptPending (unterminated text ++ c) = unterminated (text ++ c) := by
      rw [keptPending, ← unterminated_append, if_neg (by omega)]
    have ih := linesTaken_append (text ++ c) cs (fun k => by
      have := hcap (k + 1)
      simpa [List.append_assoc] using this)
    calc completeLines text ++ linesTaken (unterminated text) (c :: cs)
        = completeLines (text ++ c) ++ linesTaken (unterminated (text ++ c)) cs := by
          rw [linesTaken, hkept, completeLines_append text c, List.append_assoc]
      _ = textLines (text ++ (c :: cs).flatten) := by
          rw [ih, List.flatten_cons, List.append_assoc]

theorem linesTaken_eq_textLines {chunks : List JsString} (hcap : UnderCap chunks) :
    linesTaken [] chunks = textLines chunks.flatten := by
  have h := linesTaken_append [] chunks (by simpa [UnderCap] using hcap)
  simpa [completeLines, unterminated, splitLines] using h

end Lines

/-! ### Feeding and flushing -/

section Feed

open StreamJsonParser

variable {stack : ℕ}

/-- A non-blank line whose value is poison. -/
def badLine (stack : ℕ) (line : JsString) : Bool := !isBlank line && (Json.parse line).any (poison stack)

/-- The events of feeding the chunks one after the other, until a call throws. -/
def feedAll (stack : ℕ) (p : StreamJsonParser) :
    List JsString → Except JsError (List AgyEvent) × StreamJsonParser
  | [] => (.ok [], p)
  | c :: cs =>
    match feed stack p c with
    | (.error e, p') => (.error e, p')
    | (.ok evs, p') =>
      match feedAll stack p' cs with
      | (.error e, p'') => (.error e, p'')
      | (.ok evs', p'') => (.ok (evs ++ evs'), p'')

/-- A sequence of chunks given to a new parser, followed by `flush`. -/
def parseStream (stack : ℕ) (chunks : List JsString) : Except JsError (List AgyEvent) :=
  match feedAll stack .new chunks with
  | (.error e, _) => .error e
  | (.ok evs, p) => (flush stack p).1.map (evs ++ ·)

/-- The event of a non-blank line: the typed one, or garbage. -/
def lineEvent (stack : ℕ) (line : JsString) (seq : ℕ) : Except JsError AgyEvent :=
  match Json.parse line with
  | none => .ok (.garbage (truncateStored line))
  | some v =>
    match classifyEvent stack v seq with
    | .error e => .error e
    | .ok none => .ok (.garbage line)
    | .ok (some ev) => .ok ev

def EventOf (stack : ℕ) (line : JsString) (ev : AgyEvent) : Prop :=
  ∃ seq, lineEvent stack line seq = .ok ev

/-- The lines that count: those with something besides white space. -/
def nonBlank (lines : List JsString) : List JsString := lines.filter fun l => !isBlank l

theorem classifyEvent_ne_garbage (seq : ℕ) (line : JsString) :
    ∀ (stack : ℕ) (v : Json), classifyEvent stack v seq ≠ .ok (some (.garbage line))
  | 0, _ => by simp [classifyEvent]
  | stack + 1, v => by
    cases v with
    | obj o =>
      rw [classifyEvent]
      split_ifs
      · simp
      · simp
      · cases classifyResult stack o <;> simp [Except.map]
      · exact classifyEvent_ne_garbage seq line stack _
      · exact classifyEvent_ne_garbage seq line stack _
      · split
        · exact classifyEvent_ne_garbage seq line stack _
        · simp
    | _ => simp [classifyEvent]

/-- What `takeLine` books for the event of a line. -/
def ParserStats.note (st : ParserStats) : AgyEvent → ParserStats
  | .garbage _ => st.noteGarbage
  | ev => st.noteEvent ev

/-- The parser after a line that gave an event. -/
def StreamJsonParser.afterLine (p : StreamJsonParser) (line : JsString) (ev : AgyEvent) : StreamJsonParser :=
  { p with
    seq := if (Json.parse line).isSome then p.seq + 1 else p.seq
    stats := (p.stats.noteLine line).note ev
    recentLines := pushRecent p.recentLines line }

theorem takeLine_blank {p : StreamJsonParser} {line : JsString} (h : isBlank line) :
    takeLine stack p line = (.ok none, p) := by
  simp [takeLine, h]

/-- **`takeLine`** on a non-blank line whose event is `ev`. -/
theorem takeLine_ok {p : StreamJsonParser} {line : JsString} {ev : AgyEvent} (hb : isBlank line = false)
    (h : lineEvent stack line p.seq = .ok ev) :
    takeLine stack p line = (.ok (some ev), p.afterLine line ev) := by
  unfold lineEvent at h
  unfold takeLine
  simp only [hb, Bool.false_eq_true, if_false]
  cases hj : Json.parse line with
  | none =>
    rw [hj] at h
    obtain rfl := Except.ok.inj h
    simp [afterLine, hj, ParserStats.note]
  | some v =>
    simp only [hj] at h ⊢
    cases hc : classifyEvent stack v p.seq with
    | error e => simp [hc] at h
    | ok o =>
      rw [hc] at h
      cases o with
      | none =>
        obtain rfl := Except.ok.inj h
        simp [afterLine, hj, ParserStats.note]
      | some ev' =>
        obtain rfl := Except.ok.inj h
        cases ev' with
        | garbage l => exact absurd hc (classifyEvent_ne_garbage _ _ _ _)
        | _ => simp [afterLine, hj, ParserStats.note]

theorem takeLine_error {p : StreamJsonParser} {line : JsString} {e : JsError} (hb : isBlank line = false)
    (h : lineEvent stack line p.seq = .error e) : ∃ p', takeLine stack p line = (.error e, p') := by
  unfold lineEvent at h
  unfold takeLine
  simp only [hb, Bool.false_eq_true, if_false]
  cases hj : Json.parse line with
  | none => simp [hj] at h
  | some v =>
    simp only [hj] at h ⊢
    cases hc : classifyEvent stack v p.seq with
    | error e' =>
      rw [hc] at h
      exact ⟨_, by rw [Except.error.inj h]⟩
    | ok o => cases o <;> simp [hc] at h

/-- A non-blank line has an event exactly when it is not bad. -/
theorem lineEvent_isOk_iff (hstack : 2 ≤ stack) {line : JsString} (hb : isBlank line = false) (seq : ℕ) :
    (∃ ev, lineEvent stack line seq = .ok ev) ↔ badLine stack line = false := by
  cases hj : Json.parse line with
  | none => simp [lineEvent, badLine, hj]
  | some v =>
    have hp := classifyEvent_isOk_iff v seq stack hstack
    have hbad : badLine stack line = poison stack v := by simp [badLine, hb, hj]
    rw [hbad, ← hp]
    cases hc : classifyEvent stack v seq with
    | error e => simp [lineEvent, hj, hc]
    | ok o => cases o <;> simp [lineEvent, hj, hc]

theorem takeLine_good (hstack : 2 ≤ stack) (p : StreamJsonParser) {line : JsString}
    (hb : isBlank line = false) (hg : badLine stack line = false) :
    ∃ ev p', takeLine stack p line = (.ok (some ev), p') ∧ EventOf stack line ev ∧ p'.buffer = p.buffer := by
  obtain ⟨ev, hev⟩ := (lineEvent_isOk_iff hstack hb p.seq).mpr hg
  exact ⟨ev, _, takeLine_ok hb hev, ⟨p.seq, hev⟩, rfl⟩

theorem takeLine_bad (hstack : 2 ≤ stack) (p : StreamJsonParser) {line : JsString}
    (hbad : badLine stack line = true) : ∃ e p', takeLine stack p line = (.error e, p') := by
  have hb : isBlank line = false := by
    simp only [badLine, Bool.and_eq_true, Bool.not_eq_true'] at hbad
    exact hbad.1
  cases h : lineEvent stack line p.seq with
  | ok ev => simp [(lineEvent_isOk_iff hstack hb p.seq).mp ⟨ev, h⟩] at hbad
  | error e => exact ⟨e, takeLine_error hb h⟩

/-- **Lines**: the calls of one feed give one event per non-blank line when no line is bad. -/
theorem takeLines_good (hstack : 2 ≤ stack) : ∀ (lines : List JsString) (p : StreamJsonParser),
    (∀ l ∈ lines, badLine stack l = false) →
    ∃ evs p', takeLines stack p lines = (.ok evs, p') ∧
      List.Forall₂ (EventOf stack) (nonBlank lines) evs ∧ p'.buffer = p.buffer
  | [], p, _ => ⟨[], p, rfl, .nil, rfl⟩
  | l :: ls, p, h => by
    have hl := h l List.mem_cons_self
    have hls := fun l' hl' => h l' (List.mem_cons_of_mem _ hl')
    cases hb : isBlank l with
    | true =>
      obtain ⟨evs, p', he, hf, hbuf⟩ := takeLines_good hstack ls p hls
      refine ⟨evs, p', ?_, ?_, hbuf⟩
      · simp [takeLines, takeLine_blank hb, he]
      · simpa [nonBlank, hb] using hf
    | false =>
      obtain ⟨ev, p₁, h1, hev, hb1⟩ := takeLine_good hstack p hb hl
      obtain ⟨evs, p', he, hf, hbuf⟩ := takeLines_good hstack ls p₁ hls
      refine ⟨ev :: evs, p', ?_, ?_, hbuf.trans hb1⟩
      · simp [takeLines, h1, he]
      · simpa [nonBlank, hb] using List.Forall₂.cons hev hf

theorem takeLines_bad (hstack : 2 ≤ stack) : ∀ (lines : List JsString) (p : StreamJsonParser),
    (∃ l ∈ lines, badLine stack l = true) → ∃ e p', takeLines stack p lines = (.error e, p')
  | [], _, h => by simp at h
  | l :: ls, p, h => by
    cases hl : badLine stack l with
    | true =>
      obtain ⟨e, p', he⟩ := takeLine_bad hstack p hl
      exact ⟨e, p', by simp [takeLines, he]⟩
    | false =>
      have hls : ∃ l' ∈ ls, badLine stack l' = true := by
        obtain ⟨l', hm, hb'⟩ := h
        rcases List.mem_cons.mp hm with rfl | hm
        · simp [hl] at hb'
        · exact ⟨l', hm, hb'⟩
      cases hb : isBlank l with
      | true =>
        obtain ⟨e, p', he⟩ := takeLines_bad hstack ls p hls
        exact ⟨e, p', by simp [takeLines, takeLine_blank hb, he]⟩
      | false =>
        obtain ⟨ev, p₁, h1, -, -⟩ := takeLine_good hstack p hb hl
        obtain ⟨e, p', he⟩ := takeLines_bad hstack ls p₁ hls
        exact ⟨e, p', by simp [takeLines, h1, he]⟩

/-- One feed over good lines: their events, and the kept rest as the new buffer. -/
theorem feed_good (hstack : 2 ≤ stack) (p : StreamJsonParser) (c : JsString)
    (h : ∀ l ∈ completeLines (p.buffer ++ c), badLine stack l = false) :
    ∃ evs p', feed stack p c = (.ok evs, p') ∧
      List.Forall₂ (EventOf stack) (nonBlank (completeLines (p.buffer ++ c))) evs ∧
      p'.buffer = keptPending (p.buffer ++ c) := by
  obtain ⟨evs, p', he, hf, -⟩ := takeLines_good hstack _ p h
  by_cases hcap : MAX_PENDING_CHARS < (unterminated (p.buffer ++ c)).length
  · exact ⟨evs, _, by simp only [feed, he, if_pos hcap]; rfl, hf, by simp [keptPending, hcap]⟩
  · exact ⟨evs, _, by simp only [feed, he, if_neg hcap]; rfl, hf, by simp [keptPending, hcap]⟩

theorem feed_bad (hstack : 2 ≤ stack) (p : StreamJsonParser) (c : JsString)
    (h : ∃ l ∈ completeLines (p.buffer ++ c), badLine stack l = true) :
    ∃ e p', feed stack p c = (.error e, p') := by
  obtain ⟨e, p', he⟩ := takeLines_bad hstack _ p h
  exact ⟨e, p', by simp [feed, he]⟩

theorem flush_good (hstack : 2 ≤ stack) (p : StreamJsonParser) (h : badLine stack p.buffer = false) :
    ∃ evs, (flush stack p).1 = .ok evs ∧ List.Forall₂ (EventOf stack) (nonBlank [p.buffer]) evs := by
  cases hb : isBlank p.buffer with
  | true => exact ⟨[], by simp [flush, hb], by simp [nonBlank, hb]⟩
  | false =>
    obtain ⟨ev, p', he, hev, -⟩ := takeLine_good hstack { p with buffer := [] } hb h
    refine ⟨[ev], by simp [flush, hb, he], ?_⟩
    simpa [nonBlank, hb] using hev

theorem flush_bad (hstack : 2 ≤ stack) (p : StreamJsonParser) (h : badLine stack p.buffer = true) :
    ∃ e, (flush stack p).1 = .error e := by
  obtain ⟨e, p', he⟩ := takeLine_bad hstack { p with buffer := [] } h
  have hb : isBlank p.buffer = false := by
    simp only [badLine, Bool.and_eq_true, Bool.not_eq_true'] at h
    exact h.1
  exact ⟨e, by simp [flush, hb, he]⟩

/-- The whole stream from any parser: events of the lines taken, when none of them is bad. -/
theorem feedAll_good (hstack : 2 ≤ stack) : ∀ (cs : List JsString) (p : StreamJsonParser),
    (∀ l ∈ linesTaken p.buffer cs, badLine stack l = false) →
    ∃ evs p' evs', feedAll stack p cs = (.ok evs, p') ∧ (flush stack p').1 = .ok evs' ∧
      List.Forall₂ (EventOf stack) (nonBlank (linesTaken p.buffer cs)) (evs ++ evs')
  | [], p, h => by
    obtain ⟨evs', he, hf⟩ := flush_good hstack p (h _ (by simp [linesTaken]))
    exact ⟨[], p, evs', rfl, he, hf⟩
  | c :: cs, p, h => by
    obtain ⟨evs₁, p₁, h1, hf1, hb1⟩ := feed_good hstack p c fun l hl =>
      h l (by simp [linesTaken, hl])
    obtain ⟨evs, p', evs', h2, h3, hf2⟩ := feedAll_good hstack cs p₁ fun l hl =>
      h l (by rw [hb1] at hl; simp [linesTaken, hl])
    refine ⟨evs₁ ++ evs, p', evs', by simp [feedAll, h1, h2], h3, ?_⟩
    rw [hb1] at hf2
    rw [linesTaken, nonBlank, List.filter_append, List.append_assoc]
    exact List.rel_append hf1 hf2

theorem feedAll_bad (hstack : 2 ≤ stack) : ∀ (cs : List JsString) (p : StreamJsonParser),
    (∃ l ∈ linesTaken p.buffer cs, badLine stack l = true) →
    (∃ e p', feedAll stack p cs = (.error e, p')) ∨
      ∃ evs p' e, feedAll stack p cs = (.ok evs, p') ∧ (flush stack p').1 = .error e
  | [], p, h => by
    obtain ⟨l, hl, hb⟩ := h
    simp only [linesTaken, List.mem_singleton] at hl
    obtain ⟨e, he⟩ := flush_bad hstack p (hl ▸ hb)
    exact Or.inr ⟨[], p, e, rfl, he⟩
  | c :: cs, p, h => by
    by_cases hc : ∃ l ∈ completeLines (p.buffer ++ c), badLine stack l = true
    · obtain ⟨e, p', he⟩ := feed_bad hstack p c hc
      exact Or.inl ⟨e, p', by simp [feedAll, he]⟩
    · obtain ⟨evs₁, p₁, h1, -, hb1⟩ := feed_good hstack p c fun l hl => by
        by_contra hbad
        exact hc ⟨l, hl, by simpa using hbad⟩
      have hrest : ∃ l ∈ linesTaken p₁.buffer cs, badLine stack l = true := by
        obtain ⟨l, hl, hb⟩ := h
        rw [linesTaken, List.mem_append] at hl
        rcases hl with hl | hl
        · exact absurd ⟨l, hl, hb⟩ hc
        · exact ⟨l, hb1 ▸ hl, hb⟩
      rcases feedAll_bad hstack cs p₁ hrest with ⟨e, p', he⟩ | ⟨evs, p', e, he, hfl⟩
      · exact Or.inl ⟨e, p', by simp [feedAll, h1, he]⟩
      · exact Or.inr ⟨evs₁ ++ evs, p', e, by simp [feedAll, h1, he], hfl⟩

end Feed

/-! ### One event per line -/

section Total

open StreamJsonParser

variable {stack : ℕ}

/-- Nothing throws and, while the pending line stays under the cap, the events are one per non-blank
line of the text, in line order. -/
def OneEventPerLine (stack : ℕ) (chunks : List JsString) : Prop :=
  (∃ evs, parseStream stack chunks = .ok evs) ∧
    (UnderCap chunks → ∀ evs, parseStream stack chunks = .ok evs →
      List.Forall₂ (EventOf stack) (nonBlank (textLines chunks.flatten)) evs)

/-- Good lines parse to one event each. -/
theorem parseStream_good (hstack : 2 ≤ stack) {chunks : List JsString}
    (h : ∀ l ∈ linesTaken [] chunks, badLine stack l = false) :
    ∃ evs, parseStream stack chunks = .ok evs ∧
      List.Forall₂ (EventOf stack) (nonBlank (linesTaken [] chunks)) evs := by
  obtain ⟨evs, p', evs', h1, h2, hf⟩ := feedAll_good hstack chunks .new h
  refine ⟨evs ++ evs', ?_, hf⟩
  rw [parseStream, h1]
  show (flush stack p').1.map (evs ++ ·) = _
  rw [h2]
  rfl

/-- One bad line, and some `feed` or the `flush` throws. -/
theorem parseStream_bad (hstack : 2 ≤ stack) {chunks : List JsString}
    (h : ∃ l ∈ linesTaken [] chunks, badLine stack l = true) :
    ∃ e, parseStream stack chunks = .error e := by
  rcases feedAll_bad hstack chunks .new h with ⟨e, p', h1⟩ | ⟨evs, p', e, h1, h2⟩
  · exact ⟨e, by simp [parseStream, h1]⟩
  · exact ⟨e, by simp [parseStream, h1, h2, Except.map]⟩

/-- **The parser is total exactly off the poison values**: `classifyEvent` returns on every other value,
and a stream gives one event per non-blank line exactly when no line it takes is bad. -/
theorem oneEventPerLine_iff (hstack : 2 ≤ stack) :
    (∀ (v : Json) (seq : ℕ), (∃ ev, classifyEvent stack v seq = .ok ev) ↔ poison stack v = false) ∧
      ∀ chunks : List JsString,
        OneEventPerLine stack chunks ↔ ∀ l ∈ linesTaken [] chunks, badLine stack l = false := by
  refine ⟨fun v seq => classifyEvent_isOk_iff v seq stack hstack, fun chunks => ⟨?_, ?_⟩⟩
  · rintro ⟨⟨evs, hevs⟩, -⟩
    by_contra hbad
    push Not at hbad
    obtain ⟨l, hl, hb⟩ := hbad
    obtain ⟨e, he⟩ := parseStream_bad hstack ⟨l, hl, by simpa using hb⟩
    rw [he] at hevs
    cases hevs
  · intro h
    obtain ⟨evs, hevs, hf⟩ := parseStream_good hstack h
    refine ⟨⟨evs, hevs⟩, fun hcap evs' hevs' => ?_⟩
    rw [hevs] at hevs'
    obtain rfl := Except.ok.inj hevs'
    rw [linesTaken_eq_textLines hcap] at hf
    exact hf

/-- A flat step and a result, the second line cut by the chunks. -/
theorem oneEventPerLine_goodLines :
    OneEventPerLine 10000 [js "\x7b\"step_type\":\"text\",\"text\":\"hi\"\x7d\n\x7b\"event\":\"res", js "ult\"\x7d\n"] :=
  ((oneEventPerLine_iff (by omega)).2 _).mpr (by decide +kernel)

/-- A flat step that carries an `event` of its own takes the good line after it along. -/
theorem not_oneEventPerLine_progress :
    ¬ OneEventPerLine 10000
      [js "\x7b\"event\":\"progress\",\"step_type\":\"text\",\"text\":\"hi\"\x7d\n\x7b\"event\":\"result\"\x7d\n"] := by
  have hbad : ∃ l ∈ linesTaken [] [js "\x7b\"event\":\"progress\",\"step_type\":\"text\",\"text\":\"hi\"\x7d\n\x7b\"event\":\"result\"\x7d\n"],
      badLine 10000 l = true := by decide +kernel
  obtain ⟨e, he⟩ := parseStream_bad (by omega) hbad
  rintro ⟨⟨evs, hevs⟩, -⟩
  rw [he] at hevs
  cases hevs

end Total

end AgyProxy
