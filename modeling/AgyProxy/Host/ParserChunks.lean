import AgyProxy.Host.ParserStream

/-!
# AgyProxy.Host.ParserChunks — a stream parses the same however it is cut

* `consumeStream`: a new parser fed chunk by chunk and flushed, with what it leaves behind.
* `feedAll_took`: the chunks leave the parser that took the complete lines of the whole text.
* `consumeStream_lines`: the result is that of the text's lines, taken one by one.
* `chunk_invariance`: **events, statistics and recent lines do not depend on the cuts**.
-/

namespace AgyProxy

open Js StreamJsonParser

section Chunks

variable {stack : ℕ}

/-- The chunks fed to a new parser, and the flush; with the parser at the end. -/
def consumeStream (stack : ℕ) (chunks : List JsString) : Except JsError (List AgyEvent) × StreamJsonParser :=
  match feedAll stack .new chunks with
  | (.error e, p) => (.error e, p)
  | (.ok evs, p) =>
    match flush stack p with
    | (.error e, p') => (.error e, p')
    | (.ok last, p') => (.ok (evs ++ last), p')

/-- `classifyEvent` returns on the line, whatever its number. -/
def Terminates (stack : ℕ) (line : JsString) : Prop :=
  ∀ v, Json.parse line = some v → ∀ seq, ∃ ev, classifyEvent stack v seq = .ok ev

theorem Terminates.lineEvent {line : JsString} (h : Terminates stack line) (seq : ℕ) :
    ∃ ev, lineEvent stack line seq = .ok ev := by
  unfold AgyProxy.lineEvent
  cases hj : Json.parse line with
  | none => exact ⟨_, rfl⟩
  | some v =>
    obtain ⟨ev, hev⟩ := h v hj seq
    dsimp only
    rw [hev]
    cases ev with
    | none => exact ⟨_, rfl⟩
    | some ev => exact ⟨ev, rfl⟩

theorem takeLines_terminates : ∀ (lines : List JsString) (q : StreamJsonParser),
    (∀ l ∈ lines, Terminates stack l) → ∃ evs q', takeLines stack q lines = (.ok evs, q')
  | [], q, _ => ⟨[], q, rfl⟩
  | l :: lines, q, h => by
    have hlines := fun l' hl' => h l' (List.mem_cons_of_mem _ hl')
    unfold takeLines
    cases hb : isBlank l with
    | true =>
      obtain ⟨evs, q', hq⟩ := takeLines_terminates lines q hlines
      refine ⟨evs, q', ?_⟩
      rw [takeLine_blank hb]
      dsimp only
      rw [hq]
      rfl
    | false =>
      obtain ⟨ev, hev⟩ := (h l List.mem_cons_self).lineEvent q.seq
      obtain ⟨evs, q', hq⟩ := takeLines_terminates lines (q.afterLine l ev) hlines
      refine ⟨ev :: evs, q', ?_⟩
      rw [takeLine_ok hb hev]
      dsimp only
      rw [hq]
      rfl

/-- No unterminated line exceeds the cap while the text comes in. -/
def LinesUnderCap (text : JsString) : Prop := ∀ s, s <+: text → (unterminated s).length ≤ MAX_PENDING_CHARS

/-- The induction over the chunks: the parser holds the text so far. -/
theorem feedAll_took : ∀ (chunks : List JsString) (text : JsString) (evs : List AgyEvent) (p : StreamJsonParser),
    Took stack text evs p → LinesUnderCap (text ++ chunks.flatten) →
    (∀ l ∈ textLines (text ++ chunks.flatten), Terminates stack l) →
    ∃ new p', feedAll stack p chunks = (.ok new, p') ∧ Took stack (text ++ chunks.flatten) (evs ++ new) p'
  | [], text, evs, p, h, _, _ => by
    refine ⟨[], p, rfl, ?_⟩
    rw [List.flatten_nil, List.append_nil, List.append_nil]
    exact h
  | c :: cs, text, evs, p, h, hcap, hterm => by
    rw [List.flatten_cons, ← List.append_assoc] at hcap hterm ⊢
    have hlines : ∀ l ∈ completeLines (unterminated text ++ c), Terminates stack l := by
      intro l hl
      refine hterm l (List.mem_append_left _ ?_)
      rw [completeLines_append, completeLines_append text c]
      exact List.mem_append_left _ (List.mem_append_right _ hl)
    obtain ⟨new, p', hfeed, htook⟩ := feed_took h (fun q => takeLines_terminates _ q hlines)
      (hcap _ (List.prefix_append _ _))
    obtain ⟨news, p'', hrest, htook'⟩ := feedAll_took cs (text ++ c) (evs ++ new) p' htook hcap hterm
    refine ⟨new ++ news, p'', ?_, ?_⟩
    · unfold feedAll
      rw [hfeed]
      dsimp only
      rw [hrest]
    · rw [← List.append_assoc]
      exact htook'

/-- The result of a stream is that of its lines. -/
theorem consumeStream_lines {chunks : List JsString} (hcap : LinesUnderCap chunks.flatten)
    (hterm : ∀ l ∈ textLines chunks.flatten, Terminates stack l) :
    ∃ evs q, takeLines stack .new (textLines chunks.flatten) = (.ok evs, q) ∧
      consumeStream stack chunks = (.ok evs, q.withBuffer []) := by
  obtain ⟨evs, p, hfeed, htook⟩ := feedAll_took chunks [] [] .new took_new hcap hterm
  rw [List.nil_append, List.nil_append] at htook
  obtain ⟨last, q, q', -, -, hflush, hall⟩ := flush_took htook fun q =>
    takeLines_terminates _ q fun l hl => hterm l (List.mem_append_right _ hl)
  refine ⟨evs ++ last, q', hall, ?_⟩
  unfold consumeStream
  rw [hfeed]
  dsimp only
  rw [hflush]

/-- **Chunk invariance**: while no unterminated line exceeds the cap and `classifyEvent` returns on the lines,
a text gives the same events and leaves the same parser, statistics and recent lines included, however it
is cut into chunks. -/
theorem chunk_invariance {text : JsString} (hcap : LinesUnderCap text)
    (hterm : ∀ l ∈ textLines text, Terminates stack l) {chunks : List JsString} (hchunks : chunks.flatten = text) :
    ∃ evs p, consumeStream stack chunks = (.ok evs, p) ∧ consumeStream stack [text] = (.ok evs, p) := by
  subst hchunks
  have hone : [chunks.flatten].flatten = chunks.flatten := by simp
  obtain ⟨evs, q, hlines, hcut⟩ := consumeStream_lines hcap hterm
  obtain ⟨evs', q', hlines', hwhole⟩ := consumeStream_lines (hone ▸ hcap) (hone ▸ hterm)
  rw [hone, hlines] at hlines'
  obtain ⟨hevs, rfl⟩ := Prod.mk.inj hlines'
  obtain rfl := Except.ok.inj hevs
  exact ⟨evs, q.withBuffer [], hcut, hwhole⟩

/-- Cuts inside a literal and between the units of a line ending. -/
def cutText : List JsString := [js "\x7b\"event\":\"in", js "it\"\x7d\r", js "\n\ngarbage"]

theorem chunk_invariance_cutText : ∃ evs p, consumeStream 10000 cutText = (.ok evs, p) ∧
    consumeStream 10000 [cutText.flatten] = (.ok evs, p) := by
  have hlength : cutText.flatten.length ≤ MAX_PENDING_CHARS := by decide +kernel
  have hcap : LinesUnderCap cutText.flatten := fun s hs =>
    (unterminated_length s).trans (hs.length_le.trans hlength)
  have hgood : ∀ l ∈ textLines cutText.flatten, ∀ v, Json.parse l = some v → poison 10000 v = false := by
    have hall : ∀ l ∈ textLines cutText.flatten, (Json.parse l).all (fun v => !poison 10000 v) = true := by
      decide +kernel
    intro l hl v hv
    have hline := hall l hl
    rw [hv] at hline
    simpa using hline
  have hterm : ∀ l ∈ textLines cutText.flatten, Terminates 10000 l := fun l hl v hv seq =>
    (classifyEvent_isOk_iff v seq 10000 (by omega)).mpr (hgood l hl v hv)
  exact chunk_invariance hcap hterm rfl

end Chunks

end AgyProxy
