import AgyProxy.Js.EventStream
import AgyProxy.Js.JsonSpec
import AgyProxy.Server.Sse
import Mathlib.Data.List.Chain

/-!
# AgyProxy.Server.SseSpec — what a client reads of a stream, and how long a write or a silence can last

* `SseFrame.received`: the events of accepted frames; `eventsOf_wire`: **the client reads exactly them**.
* `client_reads`: over every run, from every piece of the wire that arrived.
* `parked_released`: **no write waits longer than the stall window**, and a dead writer stays silent;
  `stall_patient`: it does wait three heartbeats and 180 s.
* `never_silent`: **a live stream is never quiet for two heartbeats**, and never sends one early.
-/

namespace AgyProxy

open Js Lib

/-! ### The frames as lines -/

namespace SseFrame

/-- The event name of a frame is one line of text. -/
def WellFormed : SseFrame → Prop
  | data _ => True
  | event name _ _ => name ≠ [] ∧ OneLine name

instance WellFormed.decidable : ∀ f : SseFrame, Decidable f.WellFormed
  | data _ => inferInstanceAs (Decidable True)
  | event name _ _ => inferInstanceAs (Decidable (name ≠ [] ∧ OneLine name))

def lines : SseFrame → List JsString
  | data payload => [js "data: " ++ dataBody payload, []]
  | event name payload none => [js "event: " ++ name, js "data: " ++ payload.stringify, []]
  | event name payload (some id) =>
    [js "event: " ++ name, js "id: " ++ numberToString id, js "data: " ++ payload.stringify, []]

theorem bytes_eq : ∀ f : SseFrame, f.bytes = unlines f.lines
  | data payload => by simp [bytes, dataFrame, lines, unlines, js, utf16]
  | event name payload none => by simp [bytes, eventFrame, lines, unlines, js, utf16]
  | event name payload (some id) => by simp [bytes, eventFrame, lines, unlines, js, utf16]

theorem oneLine_of_le {s : JsString} (h : ∀ u ∈ s, 0x20 ≤ u) : OneLine s := by
  intro u hu
  have hle := h u hu
  refine ⟨?_, ?_⟩
  · rintro rfl
    exact absurd hle (by decide)
  · rintro rfl
    exact absurd hle (by decide)

theorem oneLine_dataBody (payload : Json) : OneLine (dataBody payload) := by
  unfold dataBody
  split
  · split
    · decide
    · exact oneLine_of_le (Json.le_stringify _)
  · exact oneLine_of_le (Json.le_stringify _)

theorem oneLine_number (x : Js.Num) : OneLine (numberToString x) :=
  oneLine_of_le fun u hu => Json.le_of_numberUnit (numberToString_units x u hu)

theorem oneLine_lines : ∀ {f : SseFrame}, f.WellFormed → ∀ l ∈ f.lines, OneLine l := by
  intro f hf l hl
  have hnil : OneLine [] := fun c hc => absurd hc List.not_mem_nil
  have hstr : ∀ v : Json, OneLine (js "data: " ++ v.stringify) := fun v =>
    OneLine.append (by decide) (oneLine_of_le (Json.le_stringify v))
  cases f with
  | data payload =>
    simp only [lines, List.mem_cons, List.not_mem_nil, or_false] at hl
    rcases hl with rfl | rfl
    · exact OneLine.append (by decide) (oneLine_dataBody payload)
    · exact hnil
  | event name payload id =>
    have hname : OneLine (js "event: " ++ name) := OneLine.append (by decide) hf.2
    cases id with
    | none =>
      simp only [lines, List.mem_cons, List.not_mem_nil, or_false] at hl
      rcases hl with rfl | rfl | rfl
      · exact hname
      · exact hstr payload
      · exact hnil
    | some id =>
      simp only [lines, List.mem_cons, List.not_mem_nil, or_false] at hl
      rcases hl with rfl | rfl | rfl | rfl
      · exact hname
      · exact OneLine.append (by decide) (oneLine_number id)
      · exact hstr payload
      · exact hnil

/-! ### What the client reads -/

/-- The id a client knows behind the frame. -/
def lastId (known : JsString) : SseFrame → JsString
  | data _ => known
  | event _ _ id => (id.map numberToString).getD known

/-- The event of one frame. -/
def toEvent (known : JsString) : SseFrame → MessageEvent
  | data payload => ⟨js "message", dataBody payload, known⟩
  | event name payload id => ⟨name, payload.stringify, (id.map numberToString).getD known⟩

/-- The events of the frames, the ids as they go along. -/
def received (known : JsString) : List SseFrame → List MessageEvent
  | [] => []
  | f :: fs => f.toEvent known :: received (f.lastId known) fs

/-- The lines of a frame dispatch its event, and leave the buffers empty. -/
theorem readLines (f : SseFrame) (hf : f.WellFormed) (known : JsString) (events : List MessageEvent) :
    f.lines.foldl EventBuffers.endLine ⟨[], [], known, events⟩ =
      ⟨[], [], f.lastId known, events ++ [f.toEvent known]⟩ := by
  have hdata : ∀ (r : EventBuffers) (s : JsString),
      r.endLine (js "data: " ++ s) = { r with data := r.data ++ s ++ [0x0A] } := fun r s =>
    (endLine_field r (forall_units (by decide)) (by decide) s).trans (field_data r s)
  have hevent : ∀ (r : EventBuffers) (s : JsString), r.endLine (js "event: " ++ s) = { r with eventType := s } :=
    fun r s => (endLine_field r (forall_units (by decide)) (by decide) s).trans (field_event r s)
  have hid : ∀ (r : EventBuffers) (x : Js.Num),
      r.endLine (js "id: " ++ numberToString x) = { r with lastEventId := numberToString x } := by
    intro r x
    have hnul : 0 ∉ numberToString x := fun h =>
      absurd (Json.le_of_numberUnit (numberToString_units x 0 h)) (by decide)
    exact (endLine_field r (forall_units (by decide)) (by decide) _).trans (field_id r hnul)
  cases f with
  | data payload =>
    rw [lines, List.foldl_cons, List.foldl_cons, List.foldl_nil, hdata, List.nil_append, endLine_dispatch, if_pos rfl]
    rfl
  | event name payload id =>
    cases id with
    | none =>
      rw [lines, List.foldl_cons, List.foldl_cons, List.foldl_cons, List.foldl_nil, hevent, hdata, List.nil_append,
        endLine_dispatch, if_neg hf.1]
      rfl
    | some id =>
      rw [lines, List.foldl_cons, List.foldl_cons, List.foldl_cons, List.foldl_cons, List.foldl_nil, hevent, hid,
        hdata, List.nil_append, endLine_dispatch, if_neg hf.1]
      rfl

/-- **Frame by frame** the client reads the events that were sent. -/
theorem read_frames {fs : List SseFrame} (hfs : ∀ f ∈ fs, f.WellFormed) (known : JsString)
    (events : List MessageEvent) :
    EventReader.readAll ⟨[], false, ⟨[], [], known, events⟩⟩ (fs.flatMap bytes) =
      ⟨[], false, ⟨[], [], fs.foldl lastId known, events ++ received known fs⟩⟩ := by
  induction fs generalizing known events with
  | nil =>
    rw [received, List.append_nil]
    rfl
  | cons f fs ih =>
    obtain ⟨hf, hfs⟩ := List.forall_mem_cons.mp hfs
    rw [List.flatMap_cons, EventReader.readAll_append, bytes_eq, readAll_unlines (oneLine_lines hf),
      readLines f hf known events, ih hfs, received, List.append_assoc]
    rfl

end SseFrame

namespace SsePart

/-- What a write counts for at the client: a comment is no frame. -/
def toFrames (keepalive : Keepalive) : SsePart → List SseFrame
  | frames fs => fs
  | SsePart.keepalive =>
    match keepalive with
    | .comment => []
    | .ping => [.event (js "ping") (.obj [(js "type", .str (js "ping"))]) none]

/-- The units of a write. -/
def bytes (keepalive : Keepalive) : SsePart → JsString
  | frames fs => fs.flatMap SseFrame.bytes
  | SsePart.keepalive => keepalive.bytes

def WellFormed : SsePart → Prop
  | frames fs => ∀ f ∈ fs, f.WellFormed
  | SsePart.keepalive => True

theorem wellFormed_toFrames {part : SsePart} (hpart : part.WellFormed) (keepalive : Keepalive) :
    ∀ f ∈ part.toFrames keepalive, f.WellFormed := by
  intro f hf
  cases part with
  | frames fs => exact hpart f hf
  | keepalive =>
    cases keepalive with
    | comment => exact absurd hf List.not_mem_nil
    | ping =>
      rw [List.mem_singleton.mp hf]
      decide

/-- A write is read as its frames. -/
theorem read_part {part : SsePart} (hpart : part.WellFormed) (keepalive : Keepalive) (known : JsString)
    (events : List MessageEvent) :
    EventReader.readAll ⟨[], false, ⟨[], [], known, events⟩⟩ (part.bytes keepalive) =
      EventReader.readAll ⟨[], false, ⟨[], [], known, events⟩⟩
        ((part.toFrames keepalive).flatMap SseFrame.bytes) := by
  cases part with
  | frames fs => rfl
  | keepalive =>
    cases keepalive with
    | comment =>
      have hlines : Keepalive.comment.bytes = unlines [js ": ping", []] := by decide
      show EventReader.readAll _ Keepalive.comment.bytes = _
      rw [hlines, readAll_unlines (by decide)]
      rfl
    | ping =>
      have hframe : Keepalive.ping.bytes =
          SseFrame.bytes (.event (js "ping") (.obj [(js "type", .str (js "ping"))]) none) := by decide +kernel
      show EventReader.readAll _ Keepalive.ping.bytes = _
      rw [hframe]
      simp [toFrames]

end SsePart

/-- An Anthropic keepalive, or a frame that looks like one. -/
def SseFrame.isPing : SseFrame → Bool
  | event name _ _ => name == js "ping"
  | data _ => false

namespace SseWriter

variable {s s' : SseWriter} {a : SseAction}

/-- What was handed to the socket. -/
def wire (s : SseWriter) : JsString := s.writes.flatMap fun w => w.2.bytes s.keepalive

def sentFrames (s : SseWriter) : List SseFrame := s.writes.flatMap fun w => w.2.toFrames s.keepalive

/-- What a call hands in, while the writer takes it. -/
def handedIn (s : SseWriter) : SseAction → List SseFrame
  | .send frames _ => if s.live then frames else []
  | _ => []

/-- The frames the calls of a run hand in while the writer takes them. -/
def accepted (s : SseWriter) : List SseAction → List SseFrame
  | [] => []
  | a :: as =>
    s.handedIn a ++
      match s.step a with
      | some t => accepted t as
      | none => []

/-! ### What one action does -/

/-- The parked writes behind one more: the socket takes it, or it waits. -/
def parkedWith (s : SseWriter) (taken : Bool) : List ParkedWrite :=
  if taken then s.parked else s.parked ++ [⟨s.clock, some (s.clock + s.stallMs)⟩]

/-- The outcomes of one action. -/
inductive Acts (s : SseWriter) : SseAction → SseWriter → Prop
  | tick {now : ℕ} (hle : s.clock ≤ now) : Acts s (.tick now) { s with clock := now }
  | openClosed (hclosed : s.closed = true) : Acts s .openStream { s with opened := true }
  | openStream (hclosed : s.closed = false) (hopened : s.opened = false) : Acts s .openStream
      { s with
        opened := true
        lastSendAt := s.clock
        heartbeatTimer := if 0 < s.heartbeatMs then some (s.clock + s.heartbeatMs) else s.heartbeatTimer }
  | sendNone (taken : Bool) : Acts s (.send [] taken) s
  | sendDead (fs : List SseFrame) (taken : Bool) (hdead : s.live = false) :
      Acts s (.send fs taken) { s with lastSendAt := s.clock }
  | send (fs : List SseFrame) (taken : Bool) (hopened : s.opened = true) (hlive : s.live = true) :
      Acts s (.send fs taken)
        { s with
          lastSendAt := s.clock
          writes := s.writes ++ [(s.clock, .frames fs)]
          parked := s.parkedWith taken }
  | beatSkip (taken : Bool) (hready : s.heartbeatTimer.ready s.clock = true)
      (hskip : s.closed = true ∨ s.clock < s.lastSendAt + s.heartbeatMs) :
      Acts s (.heartbeat taken) { s with heartbeatTimer := some (s.clock + s.heartbeatMs) }
  | beatDead (taken : Bool) (hready : s.heartbeatTimer.ready s.clock = true) (hdead : s.live = false) :
      Acts s (.heartbeat taken)
        { s with heartbeatTimer := some (s.clock + s.heartbeatMs), lastSendAt := s.clock }
  | beat (taken : Bool) (hready : s.heartbeatTimer.ready s.clock = true) (hlive : s.live = true)
      (hquiet : s.lastSendAt + s.heartbeatMs ≤ s.clock) :
      Acts s (.heartbeat taken)
        { s with
          heartbeatTimer := some (s.clock + s.heartbeatMs)
          lastSendAt := s.clock
          writes := s.writes ++ [(s.clock, .keepalive)]
          parked := s.parkedWith taken }
  | stall (i : ℕ) : Acts s (.stall i) (s.stall i)
  | settle : Acts s .settle s.settle
  | gone : Acts s .gone s.gone
  | closeAgain (hclosed : s.closed = true) : Acts s .close s
  | close : Acts s .close { s with closed := true, heartbeatTimer := none, writableEnded := true }

theorem step_acts (hpast : s.lastSendAt ≤ s.clock) (h : s.step a = some s') : Acts s a s' := by
  cases a with
  | tick now =>
    simp only [step, Option.ite_none_right_eq_some, Option.some.injEq] at h
    obtain ⟨hle, rfl⟩ := h
    exact .tick hle
  | openStream =>
    simp only [step, Option.ite_none_left_eq_some, Option.some.injEq] at h
    obtain ⟨hopened, rfl⟩ := h
    unfold openStream
    by_cases hclosed : s.closed = true
    · rw [if_pos hclosed]
      exact .openClosed hclosed
    · rw [if_neg hclosed]
      exact .openStream (Bool.eq_false_iff.mpr hclosed) (Bool.eq_false_iff.mpr hopened)
  | send frames taken =>
    simp only [step, Option.ite_none_right_eq_some, Option.some.injEq] at h
    obtain ⟨hopened, rfl⟩ := h
    unfold send
    by_cases hnil : frames.isEmpty = true
    · rw [if_pos hnil, List.isEmpty_iff.mp hnil]
      exact .sendNone taken
    · rw [if_neg hnil]
      unfold writeRaw
      by_cases hlive : s.live = true
      · rw [if_pos (by exact hlive)]
        cases taken with
        | true => exact .send frames true hopened hlive
        | false => exact .send frames false hopened hlive
      · rw [if_neg (by exact hlive)]
        exact .sendDead frames taken (Bool.eq_false_iff.mpr hlive)
  | heartbeat taken =>
    simp only [step, Option.ite_none_right_eq_some, Option.some.injEq] at h
    obtain ⟨hready, rfl⟩ := h
    unfold heartbeat
    dsimp only
    by_cases hclosed : s.closed = true
    · rw [if_pos hclosed]
      exact .beatSkip taken hready (Or.inl hclosed)
    · rw [if_neg hclosed]
      by_cases hearly : s.clock - s.lastSendAt < s.heartbeatMs
      · rw [if_pos hearly]
        exact .beatSkip taken hready (Or.inr (by omega))
      · rw [if_neg hearly]
        unfold writeRaw
        by_cases hlive : s.live = true
        · rw [if_pos (by exact hlive)]
          cases taken with
          | true => exact .beat true hready hlive (by omega)
          | false => exact .beat false hready hlive (by omega)
        · rw [if_neg (by exact hlive)]
          exact .beatDead taken hready (Bool.eq_false_iff.mpr hlive)
  | stall i =>
    simp only [step, Option.ite_none_right_eq_some, Option.some.injEq] at h
    obtain ⟨-, rfl⟩ := h
    exact .stall i
  | settle =>
    obtain rfl : s.settle = s' := Option.some.inj h
    exact .settle
  | gone =>
    obtain rfl : s.gone = s' := Option.some.inj h
    exact .gone
  | close =>
    obtain rfl : s.close = s' := Option.some.inj h
    unfold close
    by_cases hclosed : s.closed = true
    · rw [if_pos hclosed]
      exact .closeAgain hclosed
    · rw [if_neg hclosed]
      exact .close

/-- What was sent last was sent in the past. -/
theorem lastSendAt_le (h : s.step a = some s') (hpast : s.lastSendAt ≤ s.clock) : s'.lastSendAt ≤ s'.clock := by
  cases step_acts hpast h with
  | tick hle => exact le_trans hpast hle
  | openClosed | sendNone | beatSkip | stall | settle | gone | closeAgain | close => exact hpast
  | openStream | sendDead | send | beatDead | beat => exact le_rfl

/-- The client reads what was sent, whatever the batches. -/
theorem read_wire {writes : List (ℕ × SsePart)} (hwf : ∀ w ∈ writes, w.2.WellFormed) (keepalive : Keepalive)
    (known : JsString) (events : List MessageEvent) :
    EventReader.readAll ⟨[], false, ⟨[], [], known, events⟩⟩ (writes.flatMap fun w => w.2.bytes keepalive) =
      EventReader.readAll ⟨[], false, ⟨[], [], known, events⟩⟩
        ((writes.flatMap fun w => w.2.toFrames keepalive).flatMap SseFrame.bytes) := by
  induction writes generalizing known events with
  | nil => rfl
  | cons w writes ih =>
    obtain ⟨hw, hwf⟩ := List.forall_mem_cons.mp hwf
    have hframes := SsePart.wellFormed_toFrames hw keepalive
    rw [List.flatMap_cons, EventReader.readAll_append, SsePart.read_part hw, SseFrame.read_frames hframes, ih hwf,
      List.flatMap_cons, List.flatMap_append, EventReader.readAll_append, SseFrame.read_frames hframes]

/-- **The wire is read as its frames.** -/
theorem eventsOf_wire (hwf : ∀ w ∈ s.writes, w.2.WellFormed) : eventsOf s.wire = SseFrame.received [] s.sentFrames := by
  have hframes : ∀ f ∈ s.sentFrames, f.WellFormed := by
    intro f hf
    obtain ⟨w, hw, hf⟩ := List.mem_flatMap.mp hf
    exact SsePart.wellFormed_toFrames (hwf w hw) s.keepalive f hf
  have hread : EventReader.init.readAll s.wire = _ := (read_wire hwf s.keepalive [] []).trans
    (SseFrame.read_frames hframes [] [])
  unfold eventsOf
  rw [hread]
  rfl

theorem accepted_cons (h : s.step a = some s') (as : List SseAction) :
    s.accepted (a :: as) = s.handedIn a ++ s'.accepted as := by
  rw [accepted, h]

theorem toFrames_keepalive_ping (keepalive : Keepalive) :
    (SsePart.keepalive.toFrames keepalive).filter (fun f => !f.isPing) = [] := by
  cases keepalive with
  | comment => rfl
  | ping => decide

/-- The frames that are no keepalive are those of the calls. -/
theorem sentFrames_acts (h : Acts s a s') (hping : ∀ fs taken, a = .send fs taken → ∀ f ∈ fs, f.isPing = false) :
    s'.sentFrames.filter (fun f => !f.isPing) =
      s.sentFrames.filter (fun f => !f.isPing) ++ s.handedIn a := by
  cases h with
  | sendNone taken =>
    have hnone : s.handedIn (.send [] taken) = [] := ite_self []
    rw [hnone, List.append_nil]
  | sendDead fs taken hdead =>
    have hnone : s.handedIn (.send fs taken) = [] := if_neg (Bool.eq_false_iff.mp hdead)
    rw [hnone, List.append_nil]
    rfl
  | send fs taken hopened hlive =>
    have hall : ∀ f ∈ fs, (!f.isPing) = true := fun f hf => by rw [hping fs taken rfl f hf]; rfl
    unfold sentFrames
    rw [List.flatMap_append, List.filter_append, List.flatMap_singleton, handedIn, if_pos hlive]
    exact congrArg _ (List.filter_eq_self.mpr hall)
  | beat taken hready hlive =>
    unfold sentFrames
    rw [List.flatMap_append, List.filter_append, List.flatMap_singleton]
    exact congrArg _ (toFrames_keepalive_ping s.keepalive)
  | tick | openClosed | openStream | beatSkip | beatDead | stall | settle | gone | closeAgain | close =>
    exact (List.append_nil _).symm

theorem wellFormed_acts (h : Acts s a s') (hs : ∀ w ∈ s.writes, w.2.WellFormed)
    (hwf : ∀ fs taken, a = .send fs taken → ∀ f ∈ fs, f.WellFormed) : ∀ w ∈ s'.writes, w.2.WellFormed := by
  cases h with
  | send fs taken =>
    intro w hw
    rcases List.mem_append.mp hw with hw | hw
    · exact hs w hw
    · rw [List.mem_singleton.mp hw]
      exact hwf fs taken rfl
  | beat taken =>
    intro w hw
    rcases List.mem_append.mp hw with hw | hw
    · exact hs w hw
    · rw [List.mem_singleton.mp hw]
      trivial
  | tick | openClosed | openStream | sendNone | sendDead | beatSkip | beatDead | stall | settle | gone | closeAgain
    | close => exact hs

theorem sentFrames_run {as : List SseAction} (h : exec step s as = some s') (hpast : s.lastSendAt ≤ s.clock)
    (hs : ∀ w ∈ s.writes, w.2.WellFormed)
    (hsend : ∀ fs taken, .send fs taken ∈ as → ∀ f ∈ fs, f.WellFormed ∧ f.isPing = false) :
    (∀ w ∈ s'.writes, w.2.WellFormed) ∧
      s'.sentFrames.filter (fun f => !f.isPing) = s.sentFrames.filter (fun f => !f.isPing) ++ s.accepted as := by
  induction as generalizing s with
  | nil =>
    obtain rfl : s = s' := Option.some.inj h
    exact ⟨hs, (List.append_nil _).symm⟩
  | cons a as ih =>
    obtain ⟨t, ht, h⟩ := exec_cons h
    have hacts := step_acts hpast ht
    have hhead : ∀ fs taken, a = .send fs taken → ∀ f ∈ fs, f.WellFormed ∧ f.isPing = false :=
      fun fs taken ha => hsend fs taken (ha ▸ List.mem_cons_self)
    have hstep := sentFrames_acts hacts fun fs taken ha f hf => (hhead fs taken ha f hf).2
    have hwf := wellFormed_acts hacts hs fun fs taken ha f hf => (hhead fs taken ha f hf).1
    obtain ⟨hall, hframes⟩ := ih h (lastSendAt_le ht hpast) hwf
      fun fs taken hmem => hsend fs taken (List.mem_cons_of_mem a hmem)
    refine ⟨hall, ?_⟩
    rw [hframes, hstep, accepted_cons ht, List.append_assoc]

/-- **What the client reads.**  Whatever order calls, heartbeats, stalls and the events of the socket come in: from
the whole wire the client reads exactly the frames that the calls handed in while the writer took them, one by one
and in order, with their ids, the keepalives among them; and from any piece that arrived a beginning of that. -/
theorem client_reads (heartbeatMs stallMs now : ℕ) (keepalive : Keepalive) (as : List SseAction) (s : SseWriter)
    (h : exec step (new heartbeatMs stallMs keepalive now) as = some s)
    (hsend : ∀ fs taken, .send fs taken ∈ as → ∀ f ∈ fs, f.WellFormed ∧ f.isPing = false) :
    eventsOf s.wire = SseFrame.received [] s.sentFrames ∧
      s.sentFrames.filter (fun f => !f.isPing) = (new heartbeatMs stallMs keepalive now).accepted as ∧
      ∀ piece, piece <+: s.wire → eventsOf piece <+: SseFrame.received [] s.sentFrames := by
  obtain ⟨hwf, hframes⟩ := sentFrames_run h (Nat.zero_le now) (fun w hw => absurd hw List.not_mem_nil) hsend
  have hwire : eventsOf s.wire = SseFrame.received [] s.sentFrames := eventsOf_wire hwf
  exact ⟨hwire, hframes, fun piece hpiece => hwire ▸ eventsOf_prefix hpiece⟩

/-- A snapshot with its id, a quiet heartbeat, a batch of two chunks, a client that leaves, and one chunk more. -/
def deliveryRun : List SseAction :=
  [.openStream, .send [.event (js "snapshot") (.obj []) (some (.fin 7))] true, .tick 15000, .heartbeat false, .settle,
    .send [.data (.num (.fin 1)), .data (.str doneMark)] true, .gone, .send [.data .null] true]

theorem client_reads_delivery : ∃ s, exec step (new 15000 180000 .ping 0) deliveryRun = some s ∧
    eventsOf s.wire = SseFrame.received [] s.sentFrames ∧
      s.sentFrames.filter (fun f => !f.isPing) = (new 15000 180000 .ping 0).accepted deliveryRun := by
  obtain ⟨s, hs⟩ := Option.isSome_iff_exists.mp
    (show (exec step (new 15000 180000 .ping 0) deliveryRun).isSome = true by decide)
  have hsend : ∀ fs taken, .send fs taken ∈ deliveryRun → ∀ f ∈ fs, f.WellFormed ∧ f.isPing = false := by
    intro fs taken hmem
    simp only [deliveryRun, List.mem_cons, SseAction.send.injEq, reduceCtorEq, false_or, List.not_mem_nil,
      or_false] at hmem
    rcases hmem with ⟨rfl, -⟩ | ⟨rfl, -⟩ | ⟨rfl, -⟩
    · decide
    · decide
    · decide
  obtain ⟨hwire, hframes, -⟩ := client_reads 15000 180000 0 .ping deliveryRun s hs hsend
  exact ⟨s, hs, hwire, hframes⟩

/-! ### A write that waits -/

/-- The stall timer of a parked write runs for the whole window; when it has fired the socket is destroyed. -/
def Stalling (s : SseWriter) : Prop :=
  ∀ w ∈ s.parked, w.stallTimer = some (w.since + s.stallMs) ∨ w.stallTimer = none ∧ s.destroyed = true

theorem Stalling.parkedWith (hs : s.Stalling) (taken : Bool) :
    ∀ w ∈ s.parkedWith taken,
      w.stallTimer = some (w.since + s.stallMs) ∨ w.stallTimer = none ∧ s.destroyed = true := by
  cases taken with
  | true => exact hs
  | false =>
    intro w hw
    rcases List.mem_append.mp hw with hw | hw
    · exact hs w hw
    · rw [List.mem_singleton.mp hw]
      exact Or.inl rfl

theorem Stalling.acts (hs : s.Stalling) (h : Acts s a s') : s'.Stalling := by
  cases h with
  | send fs taken => exact hs.parkedWith taken
  | beat taken => exact hs.parkedWith taken
  | stall i =>
    intro w hw
    obtain ⟨j, hj⟩ := List.mem_iff_getElem?.mp hw
    obtain ⟨v, hv, hw'⟩ := Option.map_eq_some_iff.mp (List.getElem?_modify .. ▸ hj)
    split at hw'
    · subst hw'
      exact Or.inr ⟨rfl, rfl⟩
    · subst hw'
      exact (hs v (List.mem_of_getElem? hv)).imp_right fun hfired => ⟨hfired.1, rfl⟩
  | settle | gone => exact fun w hw => absurd hw List.not_mem_nil
  | tick | openClosed | openStream | sendNone | sendDead | beatSkip | beatDead | closeAgain | close => exact hs

/-- The settings of the writer stay. -/
theorem settings_acts (h : Acts s a s') : s'.heartbeatMs = s.heartbeatMs ∧ s'.stallMs = s.stallMs := by
  cases h with
  | _ => exact ⟨rfl, rfl⟩

/-- The stall timers over a whole run. -/
theorem run_stalling {heartbeatMs stallMs now : ℕ} {keepalive : Keepalive} {as : List SseAction}
    (h : exec step (new heartbeatMs stallMs keepalive now) as = some s) :
    s.lastSendAt ≤ s.clock ∧ s.Stalling ∧ s.stallMs = stallMs := by
  refine exec_invariant' (I := fun s => s.lastSendAt ≤ s.clock ∧ s.Stalling ∧ s.stallMs = stallMs) ?_ as _ s ?_ h
  · rintro s a s' ⟨hpast, hs, hms⟩ hstep
    have hacts := step_acts hpast hstep
    exact ⟨lastSendAt_le hstep hpast, hs.acts hacts, (settings_acts hacts).2.trans hms⟩
  · exact ⟨Nat.zero_le now, fun w hw => absurd hw List.not_mem_nil, rfl⟩

/-- A writer that takes no frames writes nothing, parks nothing and never takes one again. -/
theorem dead_acts (hdead : s.live = false) (h : Acts s a s') :
    s'.live = false ∧ s'.writes = s.writes ∧ s'.parked.length ≤ s.parked.length := by
  cases h with
  | send fs taken hopened hlive => exact absurd (hdead.symm.trans hlive) Bool.false_ne_true
  | beat taken hready hlive => exact absurd (hdead.symm.trans hlive) Bool.false_ne_true
  | stall i =>
    refine ⟨?_, rfl, le_of_eq ?_⟩
    · simp [live, SseWriter.stall]
    · exact List.length_modify ..
  | settle => exact ⟨hdead, rfl, Nat.zero_le _⟩
  | gone => exact ⟨by simp [live, SseWriter.gone], rfl, Nat.zero_le _⟩
  | close => exact ⟨by simp [live], rfl, le_rfl⟩
  | tick | openClosed | openStream | sendNone | sendDead | beatSkip | beatDead | closeAgain =>
    exact ⟨hdead, rfl, le_rfl⟩

/-- **No write waits longer than the stall window**, in every run whose timers are at most `late` behind: behind it
the socket is destroyed.  And behind the close, the client's leaving or the destruction of the socket nothing is
written and no write is parked any more, whatever is still called. -/
theorem parked_released (heartbeatMs stallMs late now : ℕ) (keepalive : Keepalive) (as bs : List SseAction)
    (s s' : SseWriter) (h : exec step (new heartbeatMs stallMs keepalive now) as = some s)
    (h' : exec step s bs = some s')
    (hontime : Always step (fun s => OnTime late s.clock s.timers) (new heartbeatMs stallMs keepalive now) as) :
    (∀ w ∈ s.parked, s.clock ≤ w.since + stallMs + late ∨ s.destroyed = true) ∧
      (s.live = false → s'.live = false ∧ s'.writes = s.writes ∧ s'.parked.length ≤ s.parked.length) := by
  obtain ⟨hpast, hs, rfl⟩ := run_stalling h
  refine ⟨fun w hw => (hs w hw).imp (fun htimer => ?_) And.right, fun hdead => ?_⟩
  · have hmem : some (w.since + s.stallMs) ∈ s.timers :=
      List.mem_cons_of_mem _ (List.mem_map.mpr ⟨w, hw, htimer⟩)
    exact (hontime.2 s h).le hmem
  · refine (exec_invariant' (I := fun t => t.lastSendAt ≤ t.clock ∧ t.live = false ∧ t.writes = s.writes ∧
      t.parked.length ≤ s.parked.length) ?_ bs s s' ⟨hpast, hdead, rfl, le_rfl⟩ h').2
    rintro t a t' ⟨hpast, hlive, hwrites, hparked⟩ hstep
    obtain ⟨h1, h2, h3⟩ := dead_acts hlive (step_acts hpast hstep)
    exact ⟨lastSendAt_le hstep hpast, h1, h2.trans hwrites, le_trans h3 hparked⟩

/-- A write that a dead client leaves parked, and what is called behind the destruction of its socket. -/
theorem parked_released_deadClient : ∃ s s', exec step (new 0 180000 .comment 0)
    [.openStream, .tick 5, .send [.data .null] false, .tick 180007, .stall 0] = some s ∧
    exec step s [.send [.data .null] false, .gone, .close] = some s' ∧ s.parked.length = 1 ∧
      s'.live = false ∧ s'.parked.length ≤ 1 := by
  obtain ⟨s, hs, hprops⟩ := Option.map_eq_some_iff.mp
    (show (exec step (new 0 180000 .comment 0)
      [.openStream, .tick 5, .send [.data .null] false, .tick 180007, .stall 0]).map
        (fun s => (s.live, s.opened, s.parked.length)) = some (false, true, 1) by decide)
  obtain ⟨hlive, hopened, hparked⟩ : s.live = false ∧ s.opened = true ∧ s.parked.length = 1 := by
    simpa using hprops
  have hmore : (exec step s [.send [.data .null] false, .gone, .close]).isSome = true := by
    simp [exec, step, hopened]
  obtain ⟨s', hs'⟩ := Option.isSome_iff_exists.mp hmore
  obtain ⟨-, hdead⟩ := parked_released 0 180000 2 0 .comment _ _ s s' hs hs' (by decide)
  exact ⟨s, s', hs, hs', hparked, (hdead hlive).1, hparked ▸ (hdead hlive).2.2⟩

/-- **Nobody who reads is cut off**: the writers of the gateway give up a write only when it has waited for three
heartbeats and for 180 s. -/
theorem stall_patient {heartbeatMs now i : ℕ} {keepalive : Keepalive} {as : List SseAction} {s s' : SseWriter}
    (h : exec step (new heartbeatMs (stallWindowMs heartbeatMs) keepalive now) as = some s)
    (hstall : s.step (.stall i) = some s') :
    ∃ w ∈ s.parked, w.since + 3 * heartbeatMs ≤ s.clock ∧ w.since + 180000 ≤ s.clock := by
  obtain ⟨-, hs, hms⟩ := run_stalling h
  simp only [step, Option.ite_none_right_eq_some] at hstall
  obtain ⟨w, hw, hready⟩ := (Option.any_eq_true _ _).mp hstall.1
  obtain ⟨due, htimer, hdue⟩ := Timer.exists_of_ready hready
  have hmem := List.mem_of_getElem? hw
  have hwaited : due = w.since + stallWindowMs heartbeatMs := by
    rcases hs w hmem with harmed | ⟨hfired, -⟩
    · exact hms ▸ Option.some.inj (htimer.symm.trans harmed)
    · exact absurd (htimer.symm.trans hfired) (Option.some_ne_none due)
  have hwindow : 3 * heartbeatMs ≤ stallWindowMs heartbeatMs ∧ 180000 ≤ stallWindowMs heartbeatMs := by
    unfold stallWindowMs
    split_ifs <;> omega
  exact ⟨w, hmem, by omega, by omega⟩

/-! ### A stream that is quiet -/

/-- What the heartbeat keeps while the writer takes frames. -/
structure Beating (late : ℕ) (s : SseWriter) : Prop where
  past : s.lastSendAt ≤ s.clock
  armed : s.opened = true → s.live = true → ∃ due, s.heartbeatTimer = some due
  due : s.live = true → ∀ due, s.heartbeatTimer = some due → due < s.lastSendAt + 2 * s.heartbeatMs
  last : s.live = true → ∀ w ∈ s.writes.getLast?, w.1 = s.lastSendAt
  unopened : s.opened = false → s.writes = [] ∧ s.heartbeatTimer = none
  /-- two writes in a row -/
  paced : s.writes.IsChain fun v w => w.1 < v.1 + 2 * s.heartbeatMs + late ∧
    ((w.2 matches .keepalive) → v.1 + s.heartbeatMs ≤ w.1)

/-- A live stream is not behind its heartbeat. -/
theorem Beating.clock_lt {late : ℕ} (hs : Beating late s) (hontime : OnTime late s.clock s.timers)
    (hopened : s.opened = true) (hlive : s.live = true) :
    s.clock < s.lastSendAt + 2 * s.heartbeatMs + late := by
  obtain ⟨due, htimer⟩ := hs.armed hopened hlive
  have hdue := hs.due hlive due htimer
  have hclock : s.clock ≤ due + late := hontime.le (htimer ▸ List.mem_cons_self)
  omega

/-- One more write of a live stream. -/
theorem Beating.paced_append {late : ℕ} (hs : Beating late s) (hontime : OnTime late s.clock s.timers)
    (hopened : s.opened = true) (hlive : s.live = true) {part : SsePart}
    (hquiet : (part matches .keepalive) → s.lastSendAt + s.heartbeatMs ≤ s.clock) :
    (s.writes ++ [(s.clock, part)]).IsChain fun v w => w.1 < v.1 + 2 * s.heartbeatMs + late ∧
      ((w.2 matches .keepalive) → v.1 + s.heartbeatMs ≤ w.1) := by
  refine List.isChain_append.mpr ⟨hs.paced, List.isChain_singleton _, fun v hv w hw => ?_⟩
  obtain rfl : (s.clock, part) = w := Option.some.inj hw
  rw [hs.last hlive v hv]
  exact ⟨hs.clock_lt hontime hopened hlive, hquiet⟩

theorem opened_of_ready {late : ℕ} (hs : Beating late s) (hready : s.heartbeatTimer.ready s.clock = true) :
    s.opened = true := by
  by_contra hopened
  rw [(hs.unopened (Bool.eq_false_iff.mpr hopened)).2] at hready
  exact Bool.false_ne_true hready

theorem Beating.acts {late : ℕ} (hbeat : s.heartbeatMs ≠ 0) (hs : Beating late s)
    (hontime : OnTime late s.clock s.timers) (h : Acts s a s') : Beating late s' := by
  have hdead : ∀ {t : SseWriter}, t.live = false → t.lastSendAt ≤ t.clock →
      (t.opened = false → t.writes = [] ∧ t.heartbeatTimer = none) → t.heartbeatMs = s.heartbeatMs →
      t.writes = s.writes → Beating late t := by
    intro t hlive hpast hunopened hms hwrites
    have hno : t.live ≠ true := Bool.eq_false_iff.mp hlive
    exact ⟨hpast, fun _ h => absurd h hno, fun h => absurd h hno, fun h => absurd h hno, hunopened,
      by rw [hms, hwrites]; exact hs.paced⟩
  cases h with
  | tick hle => exact ⟨le_trans hs.past hle, hs.armed, hs.due, hs.last, hs.unopened, hs.paced⟩
  | openClosed hclosed =>
    refine hdead (by simp [live, hclosed]) hs.past nofun rfl rfl
  | openStream hclosed hopened =>
    obtain ⟨hwrites, -⟩ := hs.unopened hopened
    have hpos : 0 < s.heartbeatMs := Nat.pos_of_ne_zero hbeat
    refine ⟨le_rfl, fun _ _ => ⟨_, if_pos hpos⟩, fun _ due hdue => ?_, fun _ w hw => ?_, nofun, hs.paced⟩
    · have htimer : some (s.clock + s.heartbeatMs) = some due := (if_pos hpos).symm.trans hdue
      have := Option.some.inj htimer
      show due < s.clock + 2 * s.heartbeatMs
      omega
    · have hnone : w ∈ s.writes.getLast? := hw
      rw [hwrites] at hnone
      exact nomatch hnone
  | sendNone => exact hs
  | sendDead fs taken hd => exact hdead hd le_rfl hs.unopened rfl rfl
  | send fs taken hopened hlive =>
    refine ⟨le_rfl, hs.armed, fun _ due hdue => ?_, fun _ w hw => ?_,
      fun hno => absurd (hno.symm.trans hopened) Bool.false_ne_true, hs.paced_append hontime hopened hlive nofun⟩
    · have := hs.due hlive due hdue
      have := hs.past
      show due < s.clock + 2 * s.heartbeatMs
      omega
    · rw [List.getLast?_concat] at hw
      obtain rfl := Option.some.inj hw
      rfl
  | beatSkip taken hready hskip =>
    have hopened := opened_of_ready hs hready
    refine ⟨hs.past, fun _ _ => ⟨_, rfl⟩, fun hlive due hdue => ?_, hs.last,
      fun hno => absurd (hno.symm.trans hopened) Bool.false_ne_true, hs.paced⟩
    have hdue' : s.clock + s.heartbeatMs = due := Option.some.inj hdue
    rcases hskip with hclosed | hearly
    · exact absurd hlive (by simp [live, hclosed])
    · show due < s.lastSendAt + 2 * s.heartbeatMs
      omega
  | beatDead taken hready hd =>
    have hopened := opened_of_ready hs hready
    exact hdead hd le_rfl (fun hno => absurd (hno.symm.trans hopened) Bool.false_ne_true) rfl rfl
  | beat taken hready hlive hquiet =>
    have hopened := opened_of_ready hs hready
    refine ⟨le_rfl, fun _ _ => ⟨_, rfl⟩, fun _ due hdue => ?_, fun _ w hw => ?_,
      fun hno => absurd (hno.symm.trans hopened) Bool.false_ne_true,
      hs.paced_append hontime hopened hlive fun _ => hquiet⟩
    · have hdue' : s.clock + s.heartbeatMs = due := Option.some.inj hdue
      show due < s.clock + 2 * s.heartbeatMs
      omega
    · rw [List.getLast?_concat] at hw
      obtain rfl := Option.some.inj hw
      rfl
  | stall i => exact hdead (by simp [live, SseWriter.stall]) hs.past hs.unopened rfl rfl
  | settle => exact ⟨hs.past, hs.armed, hs.due, hs.last, hs.unopened, hs.paced⟩
  | gone => exact hdead (by simp [live, SseWriter.gone]) hs.past (fun hno => ⟨(hs.unopened hno).1, rfl⟩) rfl rfl
  | closeAgain => exact hs
  | close => exact hdead (by simp [live]) hs.past (fun hno => ⟨(hs.unopened hno).1, rfl⟩) rfl rfl

/-- **A live stream is never silent for two heartbeats**, in every run whose timers are at most `late` behind: not
now, and not between any two of its writes; and a keepalive is never sent within one heartbeat of the write before
it. -/
theorem never_silent (heartbeatMs stallMs late now : ℕ) (keepalive : Keepalive) (as : List SseAction)
    (s : SseWriter) (hbeat : heartbeatMs ≠ 0) (h : exec step (new heartbeatMs stallMs keepalive now) as = some s)
    (hontime : Always step (fun s => OnTime late s.clock s.timers) (new heartbeatMs stallMs keepalive now) as) :
    (s.opened = true → s.live = true →
      s.clock < s.lastSendAt + 2 * heartbeatMs + late ∧ ∀ w ∈ s.writes.getLast?, w.1 = s.lastSendAt) ∧
    s.writes.IsChain fun v w => w.1 < v.1 + 2 * heartbeatMs + late ∧
      ((w.2 matches .keepalive) → v.1 + heartbeatMs ≤ w.1) := by
  have hinv : (Beating late s ∧ s.heartbeatMs = heartbeatMs) ∧ OnTime late s.clock s.timers := by
    refine exec_always (I := fun s => Beating late s ∧ s.heartbeatMs = heartbeatMs) ?_ ?_ hontime h
    · rintro s a s' ⟨hs, hms⟩ hon hstep
      have hacts := step_acts hs.past hstep
      exact ⟨hs.acts (hms ▸ hbeat) hon hacts, (settings_acts hacts).1.trans hms⟩
    · exact ⟨⟨Nat.zero_le now, nofun, nofun, nofun, fun _ => ⟨rfl, rfl⟩, List.IsChain.nil⟩, rfl⟩
  obtain ⟨⟨hs, rfl⟩, hon⟩ := hinv
  exact ⟨fun hopened hlive => ⟨hs.clock_lt hon hopened hlive, hs.last hlive⟩, hs.paced⟩

theorem never_silent_thinking : ∃ s, exec step (new 15000 180000 .comment 0)
    [.openStream, .tick 8000, .send [.data .null] true, .tick 15001, .heartbeat true, .tick 30004, .heartbeat true,
      .tick 37000] = some s ∧
    s.clock < s.lastSendAt + 2 * 15000 + 5 := by
  obtain ⟨s, hs, hprops⟩ := Option.map_eq_some_iff.mp
    (show (exec step (new 15000 180000 .comment 0)
      [.openStream, .tick 8000, .send [.data .null] true, .tick 15001, .heartbeat true, .tick 30004, .heartbeat true,
        .tick 37000]).map (fun s => (s.opened, s.live)) = some (true, true) by decide)
  obtain ⟨hopened, hlive⟩ : s.opened = true ∧ s.live = true := by simpa using hprops
  exact ⟨s, hs, ((never_silent 15000 180000 5 0 .comment _ s (by decide) hs (by decide)).1 hopened hlive).1⟩

end SseWriter

end AgyProxy
