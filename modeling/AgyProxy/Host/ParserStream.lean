import AgyProxy.Host.ParserSpec

/-!
# AgyProxy.Host.ParserStream — a stream in chunks is its lines

* `takeLines_append`: `takeLine` over consecutive lines composes.
* `feed_lines`: under the cap a fed stream leaves the parser that took its complete lines one by one, with
  the unterminated rest in the buffer, however it was chunked.  `flush_lines`: flushing takes that rest.
* `StatsAfter`: what lines and their events leave in the statistics the engine reads.
-/

namespace AgyProxy

open Js StreamJsonParser

/-! ### Lines one after the other -/

section Composing

variable {stack : ℕ}

/-- The parser with another buffer. -/
def StreamJsonParser.withBuffer (p : StreamJsonParser) (buffer : JsString) : StreamJsonParser := { p with buffer }

/-- `takeLine` neither reads nor writes the buffer. -/
theorem takeLine_withBuffer (p : StreamJsonParser) (b line : JsString) :
    takeLine stack (p.withBuffer b) line =
      ((takeLine stack p line).1, (takeLine stack p line).2.withBuffer b) := by
  unfold takeLine
  cases hb : isBlank line with
  | true => rfl
  | false =>
    simp only [Bool.false_eq_true, if_false]
    cases Json.parse line with
    | none => rfl
    | some v =>
      have hseq : (p.withBuffer b).seq = p.seq := rfl
      dsimp only
      rw [hseq]
      cases classifyEvent stack v p.seq with
      | error e => rfl
      | ok ev => cases ev <;> rfl

theorem takeLines_withBuffer (b : JsString) : ∀ (lines : List JsString) (p : StreamJsonParser),
    takeLines stack (p.withBuffer b) lines =
      ((takeLines stack p lines).1, (takeLines stack p lines).2.withBuffer b)
  | [], _ => rfl
  | l :: ls, p => by
    unfold takeLines
    rw [takeLine_withBuffer]
    rcases takeLine stack p l with ⟨⟨e⟩ | ⟨ev⟩, p'⟩
    · rfl
    · dsimp only
      rw [takeLines_withBuffer b ls p']
      rcases takeLines stack p' ls with ⟨⟨e⟩ | ⟨evs⟩, p''⟩
      · rfl
      · rfl

theorem takeLines_append {bs : List JsString} {evs' : List AgyEvent} {q r : StreamJsonParser} :
    ∀ {as : List JsString} {p : StreamJsonParser} {evs : List AgyEvent}, takeLines stack p as = (.ok evs, q) →
      takeLines stack q bs = (.ok evs', r) → takeLines stack p (as ++ bs) = (.ok (evs ++ evs'), r)
  | [], p, evs, h, h' => by
    obtain ⟨he, rfl⟩ := Prod.mk.inj h
    obtain rfl := Except.ok.inj he
    exact h'
  | a :: as, p, evs, h, h' => by
    rw [List.cons_append, takeLines]
    rw [takeLines] at h
    rcases ha : takeLine stack p a with ⟨⟨e⟩ | ⟨ev⟩, p'⟩
    · simp [ha] at h
    · rw [ha] at h
      rcases has : takeLines stack p' as with ⟨⟨e⟩ | ⟨es⟩, p''⟩
      · simp [has] at h
      · simp only [has, Prod.mk.injEq, Except.ok.injEq] at h
        obtain ⟨rfl, rfl⟩ := h
        simp [takeLines_append has h']

end Composing

/-! ### A stream in chunks -/

section Stream

variable {stack : ℕ}

/-- The parser has taken the complete lines of the text and holds the rest. -/
def Took (stack : ℕ) (text : JsString) (evs : List AgyEvent) (p : StreamJsonParser) : Prop :=
  ∃ q, takeLines stack .new (completeLines text) = (.ok evs, q) ∧ p = q.withBuffer (unterminated text)

theorem took_new : Took stack [] [] .new := ⟨.new, rfl, rfl⟩

/-- A chunk whose lines parse: they are taken behind the earlier ones. -/
theorem feed_took {text chunk : JsString} {evs : List AgyEvent} {p : StreamJsonParser} (h : Took stack text evs p)
    (hok : ∀ q, ∃ new q', takeLines stack q (completeLines (unterminated text ++ chunk)) = (.ok new, q'))
    (hcap : (unterminated (text ++ chunk)).length ≤ MAX_PENDING_CHARS) :
    ∃ new p', feed stack p chunk = (.ok new, p') ∧ Took stack (text ++ chunk) (evs ++ new) p' := by
  obtain ⟨q, hq, rfl⟩ := h
  obtain ⟨new, q', hnew⟩ := hok q
  have hrest : unterminated (unterminated text ++ chunk) = unterminated (text ++ chunk) :=
    (unterminated_append text chunk).symm
  have hnot : ¬ MAX_PENDING_CHARS < (unterminated (unterminated text ++ chunk)).length := by
    rw [hrest]
    omega
  have htake : takeLines stack (q.withBuffer (unterminated text)) (completeLines (unterminated text ++ chunk)) =
      (.ok new, q'.withBuffer (unterminated text)) := by rw [takeLines_withBuffer, hnew]
  refine ⟨new, q'.withBuffer (unterminated (text ++ chunk)), ?_, q', ?_, rfl⟩
  · unfold feed
    rw [show (q.withBuffer (unterminated text)).buffer = unterminated text from rfl]
    dsimp only
    rw [htake]
    dsimp only
    rw [if_neg hnot, hrest]
    rfl
  · rw [completeLines_append text chunk]
    exact takeLines_append hq hnew

/-- **One more chunk**: its good lines are taken behind the earlier ones. -/
theorem feed_lines (hstack : 2 ≤ stack) {text chunk : JsString} {evs : List AgyEvent} {p : StreamJsonParser}
    (h : Took stack text evs p) (hgood : ∀ l ∈ completeLines (text ++ chunk), badLine stack l = false)
    (hcap : (unterminated (text ++ chunk)).length ≤ MAX_PENDING_CHARS) :
    ∃ new p', feed stack p chunk = (.ok new, p') ∧ Took stack (text ++ chunk) (evs ++ new) p' := by
  refine feed_took h (fun q => ?_) hcap
  have hlines := completeLines_append text chunk
  obtain ⟨new, q', hnew, -, -⟩ := takeLines_good hstack (completeLines (unterminated text ++ chunk)) q fun l hl =>
    hgood l (hlines ▸ List.mem_append_right _ hl)
  exact ⟨new, q', hnew⟩

theorem unterminated_length (text : JsString) : (unterminated text).length ≤ text.length := by
  unfold unterminated
  induction text with
  | nil => simp [splitLines]
  | cons c s ih =>
    rw [splitLines]
    dsimp only
    split_ifs
    · exact Nat.le_succ_of_le ih
    · cases (splitLines s).1 with
      | nil => simpa using ih
      | cons l ls => exact Nat.le_succ_of_le ih

/-- A short stream is under the cap. -/
theorem underCap_of_length {chunks : List JsString} (h : chunks.flatten.length ≤ MAX_PENDING_CHARS) :
    UnderCap chunks := by
  intro k
  have hsub : (chunks.take k).flatten.length ≤ chunks.flatten.length := by
    conv_rhs => rw [← List.take_append_drop k chunks, List.flatten_append, List.length_append]
    exact Nat.le_add_right ..
  exact (unterminated_length _).trans (hsub.trans h)

/-- The text's last line, taken at the end, when it parses. -/
theorem flush_took {text : JsString} {evs : List AgyEvent} {p : StreamJsonParser} (h : Took stack text evs p)
    (hok : ∀ q, ∃ last q', takeLines stack q [unterminated text] = (.ok last, q')) :
    ∃ last q q', takeLines stack .new (completeLines text) = (.ok evs, q) ∧
      takeLines stack q [unterminated text] = (.ok last, q') ∧
      flush stack p = (.ok last, q'.withBuffer []) ∧
      takeLines stack .new (textLines text) = (.ok (evs ++ last), q') := by
  obtain ⟨q, hq, rfl⟩ := h
  obtain ⟨last, q', hlast⟩ := hok q
  refine ⟨last, q, q', hq, hlast, ?_, takeLines_append hq hlast⟩
  have hempty : ({ q.withBuffer (unterminated text) with buffer := [] } : StreamJsonParser) = q.withBuffer [] := rfl
  unfold flush
  rw [hempty, show (q.withBuffer (unterminated text)).buffer = unterminated text from rfl]
  rw [takeLines] at hlast
  cases hb : isBlank (unterminated text) with
  | true =>
    simp only [takeLine_blank hb, takeLines, Prod.mk.injEq, Except.ok.injEq] at hlast
    obtain ⟨rfl, rfl⟩ := hlast
    exact if_pos hb
  | false =>
    simp only [takeLine_withBuffer]
    rw [if_neg (by simp [hb])]
    rcases htake : takeLine stack q (unterminated text) with ⟨⟨e⟩ | ⟨ev⟩, q''⟩
    · simp [htake] at hlast
    · simp only [htake, takeLines, Prod.mk.injEq, Except.ok.injEq, List.append_nil] at hlast
      obtain ⟨rfl, rfl⟩ := hlast
      rfl

/-- The same when the last line is good. -/
theorem flush_lines (hstack : 2 ≤ stack) {text : JsString} {evs : List AgyEvent} {p : StreamJsonParser}
    (h : Took stack text evs p) (hgood : ∀ l ∈ textLines text, badLine stack l = false) :
    ∃ last q q', takeLines stack .new (completeLines text) = (.ok evs, q) ∧
      takeLines stack q [unterminated text] = (.ok last, q') ∧
      flush stack p = (.ok last, q'.withBuffer []) ∧
      takeLines stack .new (textLines text) = (.ok (evs ++ last), q') := by
  refine flush_took h fun q => ?_
  obtain ⟨last, q', hlast, -, -⟩ := takeLines_good hstack [unterminated text] q fun l hl =>
    hgood l (List.mem_append_right _ hl)
  exact ⟨last, q', hlast⟩

end Stream

/-! ### What lines leave in the statistics -/

section Stats

variable {stack : ℕ}

def AgyEvent.isGarbage : AgyEvent → Bool
  | .garbage _ => true
  | _ => false

/-- The error text of the last result. -/
def noteError (error : Option JsString) : AgyEvent → Option JsString
  | .result r => r.error
  | _ => error

/-- The statistics the engine reads, after lines with these events. -/
structure StatsAfter (st : ParserStats) (lines : List JsString) (evs : List AgyEvent) (st' : ParserStats) :
    Prop where
  garbage : st'.garbage = st.garbage + evs.countP AgyEvent.isGarbage
  lastResultError : st'.lastResultError = evs.foldl noteError st.lastResultError
  sawAuthFailure : st'.sawAuthFailure = (st.sawAuthFailure || (nonBlank lines).any looksLikeAuthFailure)

theorem statsAfter_afterLine (p : StreamJsonParser) {line : JsString} (hb : isBlank line = false) (ev : AgyEvent) :
    StatsAfter p.stats [line] [ev] (p.afterLine line ev).stats := by
  have hline : nonBlank [line] = [line] := by simp [nonBlank, hb]
  constructor
  · cases ev <;> rfl
  · cases ev <;> rfl
  · rw [hline]
    cases ev <;> simp [StreamJsonParser.afterLine, ParserStats.note, ParserStats.noteGarbage,
      ParserStats.noteEvent, ParserStats.noteLine]

theorem StatsAfter.append {st st' st'' : ParserStats} {as bs : List JsString} {es fs : List AgyEvent}
    (h : StatsAfter st as es st') (h' : StatsAfter st' bs fs st'') : StatsAfter st (as ++ bs) (es ++ fs) st'' where
  garbage := by rw [h'.garbage, h.garbage, List.countP_append, Nat.add_assoc]
  lastResultError := by rw [h'.lastResultError, h.lastResultError, List.foldl_append]
  sawAuthFailure := by
    have hlines : nonBlank (as ++ bs) = nonBlank as ++ nonBlank bs := List.filter_append ..
    rw [h'.sawAuthFailure, h.sawAuthFailure, hlines, List.any_append, Bool.or_assoc]

/-- **The statistics** behind a list of lines. -/
theorem takeLines_stats : ∀ {lines : List JsString} {p p' : StreamJsonParser} {evs : List AgyEvent},
    takeLines stack p lines = (.ok evs, p') → StatsAfter p.stats lines evs p'.stats
  | [], p, p', evs, h => by
    obtain ⟨he, rfl⟩ := Prod.mk.inj h
    obtain rfl := Except.ok.inj he
    exact ⟨rfl, rfl, by simp [nonBlank]⟩
  | l :: ls, p, p', evs, h => by
    rw [takeLines] at h
    cases hb : isBlank l with
    | true =>
      rw [takeLine_blank hb] at h
      rcases hls : takeLines stack p ls with ⟨⟨e⟩ | ⟨es⟩, q⟩
      · simp [hls] at h
      · simp only [hls, Prod.mk.injEq, Except.ok.injEq] at h
        obtain ⟨rfl, rfl⟩ := h
        have ih := takeLines_stats hls
        exact ⟨ih.garbage, ih.lastResultError, by simpa [nonBlank, hb] using ih.sawAuthFailure⟩
    | false =>
      cases hev : lineEvent stack l p.seq with
      | error e =>
        obtain ⟨q, hq⟩ := takeLine_error hb hev
        simp [hq] at h
      | ok ev =>
        rw [takeLine_ok hb hev] at h
        rcases hls : takeLines stack (p.afterLine l ev) ls with ⟨⟨e⟩ | ⟨es⟩, q⟩
        · simp [hls] at h
        · simp only [hls, Prod.mk.injEq, Except.ok.injEq] at h
          obtain ⟨rfl, rfl⟩ := h
          exact (statsAfter_afterLine p hb ev).append (takeLines_stats hls)

end Stats

end AgyProxy
