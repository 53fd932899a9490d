import AgyProxy.Server.StreamGuards

/-!
# AgyProxy.Server.StreamGuardsSpec — the streamed cut against the cut of the whole text

* `applyStopWithHit_eq`: the non-streaming cut is at the first match of the stops.
* `Undecided`: what the holdback has let through and what it withholds, as long as no stop is complete.
* `stream_eq`: the holdback decides at the first push that completes a stop, as the non-streaming cut
  would on the text pushed so far.
* `stream_eq_iff`: hence it agrees with the cut of the whole text exactly when that match is not overtaken
  by a stop that only later pushes complete.
* `close_pushAll_iff`: what is left to the close is a stop that begins at the end of the text.
-/

namespace AgyProxy

open Js Lib

/-! ### The non-streaming cut -/

theorem noteStop_eq (text : JsString) (best : Option (ℕ × JsString)) (s : JsString) :
    noteStop text (best.map Prod.fst, best.map Prod.snd) s =
      ((noteMatch text best s).map Prod.fst, (noteMatch text best s).map Prod.snd) := by
  unfold noteStop noteMatch
  cases indexOf s text with
  | none => rfl
  | some i =>
    cases best with
    | none => rfl
    | some b =>
      by_cases hi : i < b.1
      · simp [hi]
      · simp [hi]

theorem foldl_noteStop (text : JsString) :
    ∀ (stop : List JsString) (best : Option (ℕ × JsString)),
      stop.foldl (noteStop text) (best.map Prod.fst, best.map Prod.snd) =
        ((stop.foldl (noteMatch text) best).map Prod.fst, (stop.foldl (noteMatch text) best).map Prod.snd)
  | [], _ => rfl
  | s :: stop, best => by
    rw [List.foldl_cons, List.foldl_cons, noteStop_eq]
    exact foldl_noteStop text stop (noteMatch text best s)

/-- The whole text is cut at the first match of the stops. -/
theorem applyStopWithHit_eq (text : JsString) (stop : List JsString) :
    applyStopWithHit text stop =
      match firstMatch text stop with
      | some (i, s) => (text.take i, some s)
      | none => (text, none) := by
  have hscan : stop.foldl (noteStop text) (none, none) =
      ((firstMatch text stop).map Prod.fst, (firstMatch text stop).map Prod.snd) :=
    foldl_noteStop text stop none
  unfold applyStopWithHit
  rw [hscan]
  cases firstMatch text stop <;> rfl

theorem applyStopWithHit_of_isFirst {text s : JsString} {stop : List JsString} {i : ℕ}
    (h : IsFirst stop text i s) : applyStopWithHit text stop = (text.take i, some s) := by
  rw [applyStopWithHit_eq, firstMatch_eq_some_iff.mpr h]

theorem applyStopWithHit_of_none {text : JsString} {stop : List JsString}
    (h : ∀ q ∈ stop, ∀ i, ¬ Occurs q text i) : applyStopWithHit text stop = (text, none) := by
  rw [applyStopWithHit_eq, firstMatch_eq_none_iff.mpr h]

namespace StopHoldback

/-! ### What is withheld -/

section Hold

variable {s buffer : JsString} {hold : ℕ}

theorem holdFor_spec :
    ∀ {k : ℕ}, hold ≤ buffer.length → k ≤ buffer.length →
      hold ≤ holdFor s buffer hold k ∧ holdFor s buffer hold k ≤ buffer.length ∧
        ∀ k' ≤ k, s.take k' <:+ buffer → k' ≤ holdFor s buffer hold k
  | 0, hhold, _ => ⟨Nat.le_refl _, hhold, fun k' hk' _ => Nat.le_trans hk' (Nat.zero_le _)⟩
  | k + 1, hhold, hk => by
    unfold holdFor
    by_cases hle : k + 1 ≤ hold
    · rw [if_pos hle]
      exact ⟨Nat.le_refl _, hhold, fun k' hk' _ => Nat.le_trans hk' hle⟩
    · rw [if_neg hle]
      by_cases hsuf : s.take (k + 1) <:+ buffer
      · rw [if_pos hsuf]
        exact ⟨by omega, hk, fun k' hk' _ => hk'⟩
      · rw [if_neg hsuf]
        obtain ⟨h1, h2, h3⟩ := holdFor_spec hhold (Nat.le_of_succ_le hk)
        refine ⟨h1, h2, fun k' hk' hsuf' => ?_⟩
        rcases Nat.lt_or_eq_of_le hk' with hlt | rfl
        · exact h3 k' (Nat.le_of_lt_succ hlt) hsuf'
        · exact absurd hsuf' hsuf

theorem foldl_holdFor_spec :
    ∀ (stops : List JsString) {hold : ℕ}, hold ≤ buffer.length →
      let held := stops.foldl
        (fun hold s => holdFor s buffer hold (min (s.length - 1) buffer.length)) hold
      hold ≤ held ∧ held ≤ buffer.length ∧
        ∀ s ∈ stops, ∀ k < s.length, k ≤ buffer.length → s.take k <:+ buffer → k ≤ held
  | [], _, hhold => ⟨Nat.le_refl _, hhold, fun _ hs => absurd hs List.not_mem_nil⟩
  | s :: stops, hold, hhold => by
    obtain ⟨h1, h2, h3⟩ :=
      holdFor_spec (s := s) (k := min (s.length - 1) buffer.length) hhold (Nat.min_le_right _ _)
    obtain ⟨h4, h5, h6⟩ := foldl_holdFor_spec stops h2
    refine ⟨Nat.le_trans h1 h4, h5, fun s' hs' k hk hkb hsuf => ?_⟩
    rcases List.mem_cons.mp hs' with rfl | hs'
    · exact Nat.le_trans (h3 k (by omega) hsuf) h4
    · exact h6 s' hs' k hk hkb hsuf

end Hold

/-! ### Before a stop is complete -/

/-- No stop has matched: none occurs in the text pushed, and none will begin in the text let through. -/
structure Undecided (stops : List JsString) (hb : StopHoldback) (emitted : JsString) : Prop where
  stops_eq : hb.stops = stops
  matched_eq : hb.matched = none
  no_match : ∀ s ∈ stops, ∀ i, ¬ Occurs s (emitted ++ hb.buffer) i
  safe : ∀ s ∈ stops, ∀ i < emitted.length, ∀ more, ¬ Occurs s (emitted ++ hb.buffer ++ more) i

theorem new_undecided {stops : List JsString} (hne : ∀ s ∈ stops, s ≠ []) : Undecided stops (new stops) [] where
  stops_eq := List.filter_eq_self.mpr fun s hs => decide_eq_true (hne s hs)
  matched_eq := rfl
  no_match s hs i h := by
    have hlen : i + s.length ≤ 0 := h.add_length_le (hne s hs)
    have hpos := List.length_pos_of_ne_nil (hne s hs)
    omega
  safe _ _ _ hi := absurd hi (Nat.not_lt_zero _)

section Push

variable {stops : List JsString} {hb : StopHoldback} {emitted : JsString}

/-- The first match of the text pushed is the one of the buffer. -/
theorem Undecided.isFirst_iff (h : Undecided stops hb emitted) (t : JsString) (i : ℕ) (s : JsString) :
    IsFirst stops (emitted ++ (hb.buffer ++ t)) (emitted.length + i) s ↔ IsFirst stops (hb.buffer ++ t) i s :=
  isFirst_append fun q hq j hj ho => h.safe q hq j hj t (by rwa [List.append_assoc])

/-- **A push that completes no stop** lets through what no stop can begin in any more. -/
theorem Undecided.push_none (h : Undecided stops hb emitted) {t : JsString}
    (hnone : firstMatch (hb.buffer ++ t) stops = none) :
    Undecided stops (hb.push t).2 (emitted ++ (hb.push t).1) ∧
      (hb.push t).1 ++ (hb.push t).2.buffer = hb.buffer ++ t := by
  have hno := firstMatch_eq_none_iff.mp hnone
  set buffer := hb.buffer ++ t with hbuffer
  set hold := ({ hb with buffer } : StopHoldback).holdLength with hhold
  have hpush : hb.push t =
      (buffer.take (buffer.length - hold), { hb with buffer := buffer.drop (buffer.length - hold) }) := by
    have hmatch : ({ hb with buffer } : StopHoldback).earliestMatch = none := by
      unfold earliestMatch
      rw [h.stops_eq]
      exact hnone
    unfold push
    rw [if_neg (by simp [h.matched_eq]), ← hbuffer]
    unfold drain
    rw [hmatch]
  obtain ⟨-, hholdle, hcovers⟩ := foldl_holdFor_spec stops (Nat.zero_le buffer.length)
  have hholdle' : hold ≤ buffer.length := by
    rw [hhold, holdLength, h.stops_eq]
    exact hholdle
  have hcovers' : ∀ s ∈ stops, ∀ k < s.length, k ≤ buffer.length → s.take k <:+ buffer → k ≤ hold := by
    rw [hhold, holdLength, h.stops_eq]
    exact hcovers
  have hwhole : emitted ++ buffer.take (buffer.length - hold) ++ buffer.drop (buffer.length - hold) =
      emitted ++ buffer := by
    rw [List.append_assoc, List.take_append_drop]
  -- nothing begins in what was let through before
  have hold' : ∀ s ∈ stops, ∀ i < emitted.length, ∀ more, ¬ Occurs s (emitted ++ buffer ++ more) i := by
    intro s hs i hi more ho
    refine h.safe s hs i hi (t ++ more) ?_
    rw [hbuffer] at ho
    simpa only [List.append_assoc] using ho
  rw [hpush]
  refine ⟨⟨h.stops_eq, h.matched_eq, ?_, ?_⟩, List.take_append_drop _ _⟩
  · intro s hs i ho
    rw [hwhole] at ho
    by_cases hi : i < emitted.length
    · exact hold' s hs i hi [] (by rwa [List.append_nil])
    · obtain ⟨k, rfl⟩ := Nat.exists_eq_add_of_le (Nat.not_lt.mp hi)
      exact hno s hs k (occurs_append_right.mp ho)
  · intro s hs i hi more ho
    rw [hwhole] at ho
    by_cases hi' : i < emitted.length
    · exact hold' s hs i hi' more ho
    · obtain ⟨k, rfl⟩ := Nat.exists_eq_add_of_le (Nat.not_lt.mp hi')
      rw [List.append_assoc] at ho
      have hk : Occurs s (buffer ++ more) k := occurs_append_right.mp ho
      have hklt : k < buffer.length - hold := by
        rw [List.length_append, List.length_take] at hi
        omega
      by_cases hfits : k + s.length ≤ buffer.length
      · exact hno s hs k (hk.of_append hfits)
      · -- a stop that begins here would end in a longer suffix than the one withheld
        have hsuf := hk.straddles (by omega) (by omega)
        have := hcovers' s hs (buffer.length - k) (by omega) (by omega) (hsuf ▸ List.drop_suffix _ _)
        omega

/-- **A push that completes a stop** cuts before its match. -/
theorem Undecided.push_some (h : Undecided stops hb emitted) {t s : JsString} {i : ℕ}
    (hsome : firstMatch (hb.buffer ++ t) stops = some (i, s)) :
    (hb.push t).2.matched = some s ∧ (hb.push t).1 = (hb.buffer ++ t).take i := by
  unfold push drain earliestMatch
  rw [h.matched_eq, h.stops_eq, hsome]
  exact ⟨rfl, rfl⟩

end Push

theorem stream_matched {hb : StopHoldback} {s : JsString} (h : hb.matched = some s) :
    ∀ ts : List JsString, hb.stream ts = ([], some s)
  | [] => by
    unfold stream close
    rw [h]
  | t :: ts => by
    have hpush : hb.push t = ([], hb) := by
      unfold push
      rw [h]
      rfl
    unfold stream
    rw [hpush]
    dsimp only
    rw [stream_matched h ts]
    rfl

/-! ### Where the holdback decides -/

/-- The text pushed when a stop first occurs in it, or all of it. -/
def decidedText (stops : List JsString) (pushed : JsString) : List JsString → JsString
  | [] => pushed
  | t :: ts =>
    if stops.any fun s => (indexOf s (pushed ++ t)).isSome then pushed ++ t
    else decidedText stops (pushed ++ t) ts

/-- What is decided on is a first part of the text. -/
theorem decidedText_prefix (stops : List JsString) :
    ∀ (ts : List JsString) (pushed : JsString), decidedText stops pushed ts <+: pushed ++ ts.flatten
  | [], pushed => by
    rw [List.flatten_nil, List.append_nil]
    exact List.prefix_rfl
  | t :: ts, pushed => by
    rw [List.flatten_cons, ← List.append_assoc]
    unfold decidedText
    split
    · exact List.prefix_append _ _
    · exact decidedText_prefix stops ts (pushed ++ t)

theorem any_indexOf_iff {stops : List JsString} {text : JsString} :
    (stops.any fun s => (indexOf s text).isSome) = true ↔ firstMatch text stops ≠ none := by
  rw [List.any_eq_true, ne_eq, firstMatch_eq_none_iff]
  constructor
  · rintro ⟨s, hs, hsome⟩ hno
    obtain ⟨i, hi⟩ := Option.isSome_iff_exists.mp hsome
    exact hno s hs i (indexOf_eq_some hi).1
  · intro hex
    by_contra hnot
    refine hex fun s hs => indexOf_eq_none ?_
    by_contra hsome
    exact hnot ⟨s, hs, Option.isSome_iff_ne_none.mpr hsome⟩

/-- Without a match in it, what is decided on is the whole text. -/
theorem decidedText_of_none {stops : List JsString} :
    ∀ (ts : List JsString) (pushed : JsString), firstMatch (decidedText stops pushed ts) stops = none →
      decidedText stops pushed ts = pushed ++ ts.flatten
  | [], pushed, _ => by rw [List.flatten_nil, List.append_nil]; rfl
  | t :: ts, pushed, h => by
    rw [List.flatten_cons, ← List.append_assoc]
    unfold decidedText at h ⊢
    split at h
    · rename_i hany
      exact absurd h (any_indexOf_iff.mp hany)
    · rename_i hany
      rw [if_neg hany]
      exact decidedText_of_none ts (pushed ++ t) h

/-- **The holdback decides as the non-streaming cut does on the text pushed when a stop is complete.** -/
theorem stream_eq {stops : List JsString} :
    ∀ (ts : List JsString) {hb : StopHoldback} {emitted : JsString}, Undecided stops hb emitted →
      (emitted ++ (hb.stream ts).1, (hb.stream ts).2) =
        applyStopWithHit (decidedText stops (emitted ++ hb.buffer) ts) stops
  | [], hb, emitted, h => by
    have hnone : firstMatch hb.buffer stops = none :=
      firstMatch_eq_none_iff.mpr fun s hs i ho => h.no_match s hs _ (occurs_append_right.mpr ho)
    have hclose : hb.stream [] = (hb.buffer, none) := by
      unfold stream close earliestMatch
      rw [h.matched_eq, h.stops_eq, hnone]
    rw [hclose]
    exact (applyStopWithHit_of_none h.no_match).symm
  | t :: ts, hb, emitted, h => by
    have hstream : hb.stream (t :: ts) = ((hb.push t).1 ++ ((hb.push t).2.stream ts).1,
        ((hb.push t).2.stream ts).2) := rfl
    have hshift : emitted ++ hb.buffer ++ t = emitted ++ (hb.buffer ++ t) := List.append_assoc _ _ _
    rw [hstream]
    cases hmatch : firstMatch (hb.buffer ++ t) stops with
    | none =>
      obtain ⟨hnext, hkeeps⟩ := h.push_none hmatch
      have hwhole : emitted ++ (hb.push t).1 ++ (hb.push t).2.buffer = emitted ++ hb.buffer ++ t := by
        rw [List.append_assoc, hkeeps, hshift]
      have hnomatch : firstMatch (emitted ++ hb.buffer ++ t) stops = none :=
        hwhole ▸ firstMatch_eq_none_iff.mpr hnext.no_match
      have hdecided : decidedText stops (emitted ++ hb.buffer) (t :: ts) =
          decidedText stops (emitted ++ hb.buffer ++ t) ts :=
        if_neg fun hany => any_indexOf_iff.mp hany hnomatch
      rw [hdecided, ← hwhole, ← stream_eq ts hnext, List.append_assoc]
    | some b =>
      obtain ⟨i, s⟩ := b
      obtain ⟨hmatched, hout⟩ := h.push_some hmatch
      have hfirst : IsFirst stops (emitted ++ hb.buffer ++ t) (emitted.length + i) s :=
        hshift ▸ (h.isFirst_iff t i s).mpr (firstMatch_eq_some_iff.mp hmatch)
      have hdecided : decidedText stops (emitted ++ hb.buffer) (t :: ts) = emitted ++ hb.buffer ++ t := by
        refine if_pos (any_indexOf_iff.mpr ?_)
        rw [firstMatch_eq_some_iff.mpr hfirst]
        exact Option.some_ne_none _
      rw [hdecided, applyStopWithHit_of_isFirst hfirst, stream_matched hmatched, hout, List.append_nil,
        hshift, List.take_length_add_append]

/-- **Streamed and non-streamed stop agree exactly when the stop completed first is not overtaken**: no
stop that begins before it, or with it and is listed earlier, occurs in the whole text. -/
theorem stream_eq_iff (stops : List JsString) (hne : ∀ s ∈ stops, s ≠ []) (ts : List JsString) :
    (new stops).stream ts = applyStopWithHit ts.flatten stops ↔
      ∀ i s, IsFirst stops (decidedText stops [] ts) i s → ¬ Overtakes stops ts.flatten i s := by
  have hstream : (new stops).stream ts = applyStopWithHit (decidedText stops [] ts) stops :=
    stream_eq ts (new_undecided hne)
  obtain ⟨rest, hrest⟩ := decidedText_prefix stops ts []
  rw [List.nil_append] at hrest
  rw [hstream]
  set decided := decidedText stops [] ts with hdecided
  constructor
  · intro heq i s hfirst
    have hocc : Occurs s ts.flatten i := hrest ▸ hfirst.occurs.append (hne s hfirst.mem)
    have hi := hfirst.occurs.add_length_le (hne s hfirst.mem)
    rw [applyStopWithHit_of_isFirst hfirst, applyStopWithHit_eq] at heq
    cases hmatch : firstMatch ts.flatten stops with
    | none =>
      rw [hmatch] at heq
      exact absurd (Prod.mk.inj heq).2 (Option.some_ne_none s)
    | some b =>
      obtain ⟨j, s'⟩ := b
      rw [hmatch] at heq
      obtain ⟨htake, hs⟩ := Prod.mk.inj heq
      obtain rfl : s = s' := Option.some.inj hs
      have hfirst' : IsFirst stops ts.flatten j s := firstMatch_eq_some_iff.mp hmatch
      have hj := hfirst'.occurs.add_length_le (hne s hfirst'.mem)
      have hlen := congrArg List.length htake
      rw [List.length_take, List.length_take] at hlen
      obtain rfl : i = j := by omega
      exact (isFirst_iff_not_overtakes hfirst'.mem hocc).mp hfirst'
  · intro hall
    cases hmatch : firstMatch decided stops with
    | none =>
      have hwhole : decided = ts.flatten := by simpa using decidedText_of_none ts [] hmatch
      rw [hwhole]
    | some b =>
      obtain ⟨i, s⟩ := b
      have hfirst : IsFirst stops decided i s := firstMatch_eq_some_iff.mp hmatch
      have hocc : Occurs s ts.flatten i := hrest ▸ hfirst.occurs.append (hne s hfirst.mem)
      have hi := hfirst.occurs.add_length_le (hne s hfirst.mem)
      have hfirst' : IsFirst stops ts.flatten i s :=
        (isFirst_iff_not_overtakes hfirst.mem hocc).mpr (hall i s hfirst)
      rw [applyStopWithHit_of_isFirst hfirst, applyStopWithHit_of_isFirst hfirst', ← hrest,
        List.take_append_of_le_length (by omega)]

/-- In one push the stop that begins first is cut at; in four pushes the one that is complete, when the other one
does not come about. -/
theorem stream_eq_iff_abcd :
    (new [js "bc", js "abcd"]).stream [js "abcd"] = applyStopWithHit (js "abcd") [js "bc", js "abcd"] ∧
      (new [js "bc", js "abcd"]).stream [js "xa", js "b", js "ce", js "f"] =
        applyStopWithHit [js "xa", js "b", js "ce", js "f"].flatten [js "bc", js "abcd"] := by
  constructor
  · refine (stream_eq_iff [js "bc", js "abcd"] (by decide +kernel) [js "abcd"]).mpr fun i s hfirst hover => ?_
    have hi : IsFirst [js "bc", js "abcd"] (js "abcd") 0 (js "abcd") :=
      firstMatch_eq_some_iff.mp (by decide +kernel)
    obtain ⟨rfl, rfl⟩ := hi.unique hfirst
    exact (isFirst_iff_not_overtakes hi.mem hi.occurs).mp hi hover
  · refine (stream_eq_iff [js "bc", js "abcd"] (by decide +kernel) _).mpr fun i s hfirst hover => ?_
    have hdecided : IsFirst [js "bc", js "abcd"]
        (decidedText [js "bc", js "abcd"] [] [js "xa", js "b", js "ce", js "f"]) 2 (js "bc") :=
      firstMatch_eq_some_iff.mp (by decide +kernel)
    have hwhole : IsFirst [js "bc", js "abcd"] [js "xa", js "b", js "ce", js "f"].flatten 2 (js "bc") :=
      firstMatch_eq_some_iff.mp (by decide +kernel)
    obtain ⟨rfl, rfl⟩ := hdecided.unique hfirst
    exact (isFirst_iff_not_overtakes hwhole.mem hwhole.occurs).mp hwhole hover

/-- The same text in two pushes: the stop at its second character is complete first, and is cut at. -/
theorem stream_ne_abcd :
    (new [js "bc", js "abcd"]).stream [js "abc", js "d"] ≠
      applyStopWithHit [js "abc", js "d"].flatten [js "bc", js "abcd"] := by
  decide +kernel

/-! ### What is left to the close -/

section Tail

variable {stops : List JsString}

theorem holdFor_attained (s buffer : JsString) (hold : ℕ) :
    ∀ k : ℕ, holdFor s buffer hold k = hold ∨
      holdFor s buffer hold k ≤ k ∧ s.take (holdFor s buffer hold k) <:+ buffer
  | 0 => Or.inl rfl
  | k + 1 => by
    unfold holdFor
    by_cases hle : k + 1 ≤ hold
    · rw [if_pos hle]
      exact Or.inl rfl
    · rw [if_neg hle]
      by_cases hsuf : s.take (k + 1) <:+ buffer
      · rw [if_pos hsuf]
        exact Or.inr ⟨Nat.le_refl _, hsuf⟩
      · rw [if_neg hsuf]
        exact (holdFor_attained s buffer hold k).imp_right fun ⟨hk, hs⟩ => ⟨Nat.le_succ_of_le hk, hs⟩

theorem foldl_holdFor_attained (buffer : JsString) :
    ∀ (stops : List JsString) (hold : ℕ),
      let held := stops.foldl (fun hold s => holdFor s buffer hold (min (s.length - 1) buffer.length)) hold
      held = hold ∨ ∃ s ∈ stops, held ≤ s.length - 1 ∧ s.take held <:+ buffer
  | [], _ => Or.inl rfl
  | s :: stops, hold => by
    rcases foldl_holdFor_attained buffer stops _ with hsame | ⟨q, hq, hlen, hsuf⟩
    · rw [List.foldl_cons, hsame]
      rcases holdFor_attained s buffer hold (min (s.length - 1) buffer.length) with hsame' | ⟨hk, hs⟩
      · exact Or.inl hsame'
      · exact Or.inr ⟨s, List.mem_cons_self, Nat.le_trans hk (Nat.min_le_left _ _), hs⟩
    · exact Or.inr ⟨q, List.mem_cons_of_mem s hq, hlen, hsuf⟩

/-- The text is the beginning of a stop, and not all of it. -/
def Begins (stops : List JsString) (b : JsString) : Prop := ∃ s ∈ stops, b <+: s ∧ b.length < s.length

/-- **Nothing is withheld in vain**: what a push that completes no stop keeps may still become one. -/
theorem Undecided.push_begins {hb : StopHoldback} {emitted t : JsString} (h : Undecided stops hb emitted)
    (hnone : firstMatch (hb.buffer ++ t) stops = none) :
    (hb.push t).2.buffer = [] ∨ Begins stops (hb.push t).2.buffer := by
  set buffer := hb.buffer ++ t with hbuffer
  set hold := ({ hb with buffer } : StopHoldback).holdLength with hhold
  have hpush : (hb.push t).2.buffer = buffer.drop (buffer.length - hold) := by
    have hmatch : ({ hb with buffer } : StopHoldback).earliestMatch = none := by
      unfold earliestMatch
      rw [h.stops_eq]
      exact hnone
    unfold push
    rw [if_neg (by simp [h.matched_eq]), ← hbuffer]
    unfold drain
    rw [hmatch]
  rw [hpush]
  have hattained := foldl_holdFor_attained buffer stops 0
  have hfold : stops.foldl (fun hold s => holdFor s buffer hold (min (s.length - 1) buffer.length)) 0 = hold := by
    rw [hhold, holdLength, h.stops_eq]
  rw [hfold] at hattained
  rcases hattained with hzero | ⟨s, hs, hlen, hsuf⟩
  · rw [hzero, Nat.sub_zero, List.drop_length]
    exact Or.inl rfl
  · by_cases hpos : hold = 0
    · rw [hpos, Nat.sub_zero, List.drop_length]
      exact Or.inl rfl
    · have hkept : buffer.drop (buffer.length - hold) = s.take hold := by
        have hdrop := List.suffix_iff_eq_drop.mp hsuf
        rw [List.length_take, Nat.min_eq_left (by omega)] at hdrop
        exact hdrop.symm
      rw [hkept]
      refine Or.inr ⟨s, hs, List.take_prefix _ _, ?_⟩
      rw [List.length_take]
      omega

/-- The holdback after some pushes. -/
def pushAll (hb : StopHoldback) (ts : List JsString) : StopHoldback := ts.foldl (fun hb t => (hb.push t).2) hb

theorem pushAll_matched {hb : StopHoldback} (h : hb.matched = some s) :
    ∀ ts : List JsString, pushAll hb ts = hb
  | [] => rfl
  | t :: ts => by
    have hpush : hb.push t = ([], hb) := by
      unfold push
      rw [h]
      rfl
    show pushAll (hb.push t).2 ts = hb
    rw [hpush]
    exact pushAll_matched h ts

/-- The text some pushes let through. -/
def emittedAll (hb : StopHoldback) : List JsString → JsString
  | [] => []
  | t :: ts => (hb.push t).1 ++ emittedAll (hb.push t).2 ts

/-- After a match nothing is let through. -/
theorem emittedAll_matched {hb : StopHoldback} (h : hb.matched = some s) :
    ∀ ts : List JsString, emittedAll hb ts = []
  | [] => rfl
  | t :: ts => by
    have hpush : hb.push t = ([], hb) := by
      unfold push
      rw [h]
      rfl
    unfold emittedAll
    rw [hpush]
    exact emittedAll_matched h ts

/-- What is let through before the first match ends where the match begins, and no stop is in it. -/
theorem isFirst_take {text : JsString} {i : ℕ} (hne : ∀ s ∈ stops, s ≠ []) (h : IsFirst stops text i s) :
    text.take i ++ s <+: text ∧ ∀ q ∈ stops, ∀ j, ¬ Occurs q (text.take i) j := by
  constructor
  · have happ : text.take i ++ s <+: text.take i ++ text.drop i := (List.prefix_append_right_inj _).mpr h.occurs
    rwa [List.take_append_drop] at happ
  · intro q hq j ho
    have hle := ho.add_length_le (hne q hq)
    have hpos := List.length_pos_of_ne_nil (hne q hq)
    rw [List.length_take] at hle
    have hwhole : Occurs q (text.take i ++ text.drop i) j := ho.append (hne q hq)
    rw [List.take_append_drop] at hwhole
    exact h.1 q hq j (by omega) hwhole

/-- A stop has matched: the text let through and the stop are the beginning of the text pushed. -/
def Decided (stops : List JsString) (hb : StopHoldback) (emitted text : JsString) : Prop :=
  ∃ s ∈ stops, hb.matched = some s ∧ emitted ++ s <+: text ∧ ∀ q ∈ stops, ∀ i, ¬ Occurs q emitted i

/-- **Every run of pushes**: either a stop has matched, or what is withheld may still become one. -/
theorem pushAll_cases (hne : ∀ s ∈ stops, s ≠ []) :
    ∀ (ts : List JsString) {hb : StopHoldback} {emitted : JsString}, Undecided stops hb emitted →
      hb.buffer = [] ∨ Begins stops hb.buffer →
      Decided stops (pushAll hb ts) (emitted ++ emittedAll hb ts) (emitted ++ hb.buffer ++ ts.flatten) ∨
      Undecided stops (pushAll hb ts) (emitted ++ emittedAll hb ts) ∧
        emitted ++ emittedAll hb ts ++ (pushAll hb ts).buffer = emitted ++ hb.buffer ++ ts.flatten ∧
        ((pushAll hb ts).buffer = [] ∨ Begins stops (pushAll hb ts).buffer)
  | [], hb, emitted, h, hbegins => by
    refine Or.inr ⟨?_, ?_, hbegins⟩
    · unfold emittedAll
      rw [List.append_nil]
      exact h
    · unfold emittedAll
      rw [List.flatten_nil, List.append_nil, List.append_nil]
      rfl
  | t :: ts, hb, emitted, h, hbegins => by
    have hshift : emitted ++ hb.buffer ++ (t :: ts).flatten = emitted ++ (hb.buffer ++ t) ++ ts.flatten := by
      rw [List.flatten_cons]
      simp only [List.append_assoc]
    have hemitted : emitted ++ emittedAll hb (t :: ts) =
        emitted ++ (hb.push t).1 ++ emittedAll (hb.push t).2 ts := (List.append_assoc ..).symm
    rw [hshift, hemitted]
    show Decided stops (pushAll (hb.push t).2 ts) _ _ ∨ Undecided stops (pushAll (hb.push t).2 ts) _ ∧ _
    cases hmatch : firstMatch (hb.buffer ++ t) stops with
    | none =>
      obtain ⟨hnext, hkeeps⟩ := h.push_none hmatch
      have hwhole : emitted ++ (hb.push t).1 ++ (hb.push t).2.buffer = emitted ++ (hb.buffer ++ t) := by
        rw [List.append_assoc, hkeeps]
      rw [← hwhole]
      exact pushAll_cases hne ts hnext (h.push_begins hmatch)
    | some b =>
      obtain ⟨i, s⟩ := b
      have hfirst := (h.isFirst_iff t i s).mpr (firstMatch_eq_some_iff.mp hmatch)
      obtain ⟨hmatched, hout⟩ := h.push_some hmatch
      have htake : emitted ++ (hb.push t).1 = (emitted ++ (hb.buffer ++ t)).take (emitted.length + i) := by
        rw [hout, List.take_length_add_append]
      obtain ⟨hpre, hclean⟩ := isFirst_take hne hfirst
      rw [pushAll_matched hmatched, emittedAll_matched hmatched, List.append_nil, htake]
      exact Or.inl ⟨s, hfirst.mem, hmatched, hpre.trans (List.prefix_append _ _), hclean⟩

/-- No stop is complete in the text, and one begins at its end. -/
def EndsHeld (stops : List JsString) (text : JsString) : Prop :=
  (∀ s ∈ stops, s ≠ [] → ∀ i, ¬ Occurs s text i) ∧ ∃ b, b ≠ [] ∧ b <:+ text ∧ Begins stops b

/-- **The close flushes something exactly when a stop begins at the end of the text** and none is complete. -/
theorem close_pushAll_iff (stops : List JsString) (ts : List JsString) :
    (pushAll (new stops) ts).close.1.1 ≠ [] ↔ EndsHeld stops ts.flatten := by
  set kept := stops.filter (· ≠ []) with hkept
  have hne : ∀ s ∈ kept, s ≠ [] := fun s hs => of_decide_eq_true (List.mem_filter.mp hs).2
  have hmem : ∀ {s}, s ∈ kept ↔ s ∈ stops ∧ s ≠ [] := fun {s} => by
    rw [hkept, List.mem_filter, decide_eq_true_iff]
  have hnew : new stops = new kept := by
    unfold new
    rw [← hkept, List.filter_eq_self.mpr fun s hs => decide_eq_true (hne s hs)]
  rw [hnew]
  rcases pushAll_cases hne ts (new_undecided hne) (Or.inl rfl) with
    ⟨s, hs, hmatched, ⟨rest, hrest⟩, -⟩ | ⟨hund, hwhole, hbegins⟩
  · have hocc : Occurs s ts.flatten (emittedAll (new kept) ts).length := by
      have hsplit : ts.flatten = emittedAll (new kept) ts ++ (s ++ rest) := by
        rw [← List.append_assoc]
        exact hrest.symm
      have hhead : Occurs s (s ++ rest) 0 := List.prefix_append s rest
      rw [hsplit]
      exact occurs_append_right.mpr hhead
    constructor
    · intro hflush
      unfold close at hflush
      rw [hmatched] at hflush
      exact absurd rfl hflush
    · rintro ⟨hno, -⟩
      exact absurd hocc (hno s (hmem.mp hs).1 (hmem.mp hs).2 _)
  · set emitted := emittedAll (new kept) ts with hemitted
    have hwhole : emitted ++ (pushAll (new kept) ts).buffer = ts.flatten := hwhole
    have hund : Undecided kept (pushAll (new kept) ts) emitted := hund
    set hb := pushAll (new kept) ts with hhb
    have hclose : hb.close.1.1 = hb.buffer := by
      have hnone : firstMatch hb.buffer kept = none :=
        firstMatch_eq_none_iff.mpr fun s hs i ho => hund.no_match s hs _ (occurs_append_right.mpr ho)
      unfold close earliestMatch
      rw [hund.matched_eq, hund.stops_eq, hnone]
    rw [hclose]
    constructor
    · intro hbuffer
      refine ⟨fun s hs hsne i ho => ?_, hb.buffer, hbuffer, hwhole ▸ List.suffix_append _ _, ?_⟩
      · exact hund.no_match s (hmem.mpr ⟨hs, hsne⟩) i (hwhole ▸ ho)
      · obtain ⟨s, hs, hpre, hlt⟩ := hbegins.resolve_left hbuffer
        exact ⟨s, (hmem.mp hs).1, hpre, hlt⟩
    · rintro ⟨-, b, hb0, hsuf, s, hs, ⟨rest, rfl⟩, -⟩ hbuffer
      -- otherwise the beginning was let through, and nothing begins there
      rw [hbuffer, List.append_nil] at hwhole
      have hpos := List.length_pos_of_ne_nil hb0
      have hlen := hsuf.length_le
      have hkeptMem : b ++ rest ∈ kept := hmem.mpr ⟨hs, fun h => hb0 (List.append_eq_nil_iff.mp h).1⟩
      refine hund.safe _ hkeptMem (emitted.length - b.length) (by rw [hwhole]; omega) rest ?_
      rw [hbuffer, List.append_nil, hwhole]
      unfold Occurs
      rw [List.drop_append_of_le_length (by omega), ← List.suffix_iff_eq_drop.mp hsuf]

end Tail

end StopHoldback

end AgyProxy
