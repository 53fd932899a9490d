import AgyProxy.Server.StreamLegsSpec

/-!
# AgyProxy.Server.StreamGrammar — what the frames of a leg keep, whatever its adapter

* `StreamGrammar`: the open and the ended streams of an adapter, with what one chunk does to them.
* `Streaming`, `Cut`: a leg inside its loop, and one the budget ended.
* `StreamGrammar.streaming_run`: **after chunks that are no finish a leg is one of the two**.
-/

namespace AgyProxy

open Js

/-- The shapes a stream has before and after its terminal, kept by every chunk of the adapter. -/
structure StreamGrammar {σ F : Type} (adapter : LegGuards → StreamChunk → σ → List F × σ) where
  /-- the frames of a stream that goes on, in that state of the adapter -/
  Open : List F → σ → Prop
  /-- the frames of a stream that ended well, with the usage the leg saw -/
  Done : Option TokenUsage → List F → Prop
  content : ∀ {g : LegGuards} {chunk : StreamChunk} {frames : List F} {state : σ}, chunk.isFinish = false →
    Open frames state → Open (frames ++ (adapter g chunk state).1) (adapter g chunk state).2
  terminal : ∀ {g : LegGuards} {reason : FinishReason} {rs : Option JsString} {frames : List F} {state : σ},
    reason.failure? = none → Open frames state →
    Done g.usage (frames ++ (adapter g (.finish reason rs) state).1)

namespace StreamGrammar

section Run

variable {σ F : Type} {A : LegGuards → StreamChunk → σ → List F × σ}
  {E : StreamLeg σ F → FinishReason → Option JsString → StreamLeg σ F}
  (G : StreamGrammar A) {leg : StreamLeg σ F} {raw : StreamChunk} {reason : FinishReason}
  {rs : Option JsString}

/-- A leg in its loop. -/
structure Streaming (leg : StreamLeg σ F) : Prop where
  isOpen : G.Open leg.frames leg.state
  running : leg.running = true
  abortReason : leg.abortReason = none

/-- A leg the output budget ended. -/
structure Cut (leg : StreamLeg σ F) : Prop where
  done : G.Done leg.guards.usage leg.frames
  running : leg.running = false
  abortReason : leg.abortReason.isSome = true

theorem isOpen_emit (hraw : raw.isFinish = false) (h : G.Open leg.frames leg.state) :
    G.Open (leg.emit A raw).frames (leg.emit A raw).state := G.content hraw h

theorem done_emit (hok : reason.failure? = none) (h : G.Open leg.frames leg.state) :
    G.Done leg.guards.usage (leg.emit A (.finish reason rs)).frames := G.terminal hok h

/-- The flush writes content only. -/
theorem isOpen_flush (h : G.Open leg.frames leg.state) :
    G.Open (leg.flush A).2.frames (leg.flush A).2.state := by
  unfold StreamLeg.flush
  split
  · exact h
  · dsimp only
    unfold StreamLeg.emitTail
    split
    · exact h
    · exact G.isOpen_emit rfl h

theorem isOpen_deliver (hraw : raw.isFinish = false) (h : G.Open leg.frames leg.state) :
    G.Open (leg.deliver A raw).frames (leg.deliver A raw).state := by
  unfold StreamLeg.deliver
  split
  · exact G.isOpen_emit rfl h
  · exact G.isOpen_emit hraw h

/-- A guard that hit replaces the reason by one that is no failure either. -/
theorem done_emitFinish (leg : StreamLeg σ F) (rs : Option JsString) (hok : reason.failure? = none)
    (h : G.Open leg.frames leg.state) :
    G.Done leg.guards.usage (leg.emitFinish A (.finish reason rs)).frames := by
  unfold StreamLeg.emitFinish
  split
  · refine G.done_emit ?_ h
    split <;> rfl
  · exact G.done_emit hok h

theorem cut_cut (h : G.Open leg.frames leg.state) : G.Cut (leg.cut A) := by
  have hflush : G.Open ({ leg with abortReason := some (js "output-budget") }.flush A).2.frames
      ({ leg with abortReason := some (js "output-budget") }.flush A).2.state := G.isOpen_flush h
  refine ⟨?_, rfl, ?_⟩
  · exact G.done_emit rfl hflush
  · show ({ leg with abortReason := some (js "output-budget") }.flush A).2.abortReason.isSome = true
    rw [StreamLeg.flush_flags]
    rfl

theorem streaming_onContent (h : G.Streaming leg) (hraw : raw.isFinish = false) :
    G.Streaming (leg.onContent A raw) ∨ G.Cut (leg.onContent A raw) := by
  have hopen := G.isOpen_deliver hraw h.isOpen
  obtain ⟨habort, hrunning⟩ := StreamLeg.deliver_flags (A := A) leg raw
  unfold StreamLeg.onContent
  dsimp only
  split
  · exact Or.inr (G.cut_cut hopen)
  · exact Or.inl ⟨hopen, hrunning.trans h.running, habort.trans h.abortReason⟩

/-- The step lemma: a chunk that is no finish keeps the leg in its loop, or the budget ends it. -/
theorem streaming_onChunk (h : G.Streaming leg) (hraw : raw.isFinish = false) :
    G.Streaming (leg.onChunk A E raw) ∨ G.Cut (leg.onChunk A E raw) := by
  have hcharged : ∀ g : LegGuards, G.Streaming { leg with guards := g } :=
    fun g => ⟨h.isOpen, h.running, h.abortReason⟩
  cases raw with
  | usage u => exact Or.inl (hcharged _)
  | finish => exact absurd hraw Bool.noConfusion
  | blockStart | textDelta | reasoningDelta | blockEnd => exact G.streaming_onContent (hcharged _) hraw

/-- **The run of a leg**: content keeps it in its loop, or the budget ended it with a whole stream. -/
theorem streaming_run (h : G.Streaming leg) {chunks : List StreamChunk} (hall : ∀ c ∈ chunks, c.isFinish = false) :
    G.Streaming (leg.run A E chunks) ∨ G.Cut (leg.run A E chunks) := by
  induction chunks generalizing leg with
  | nil => exact Or.inl h
  | cons raw chunks ih =>
    obtain ⟨hraw, hrest⟩ := List.forall_mem_cons.mp hall
    rw [StreamLeg.run_cons h.running]
    rcases G.streaming_onChunk (E := E) h hraw with hstep | hcut
    · exact ih hstep hrest
    · rw [StreamLeg.run_left hcut.running]
      exact Or.inr hcut

/-- The finish of the engine reaches `E` in the loop, and nothing once the budget ended the stream. -/
theorem run_finish (h : G.Streaming leg) {body : List StreamChunk} (hbody : ∀ c ∈ body, c.isFinish = false) :
    (G.Streaming (leg.run A E body) ∧
      leg.run A E (body ++ [.finish reason rs]) = E (leg.run A E body) reason rs) ∨
    (G.Cut (leg.run A E body) ∧ leg.run A E (body ++ [.finish reason rs]) = leg.run A E body) := by
  rw [StreamLeg.run_append]
  rcases G.streaming_run (E := E) h hbody with hstream | hcut
  · refine Or.inl ⟨hstream, ?_⟩
    rw [StreamLeg.run_cons hstream.running]
    rfl
  · exact Or.inr ⟨hcut, StreamLeg.run_left hcut.running _⟩

end Run

end StreamGrammar

end AgyProxy
