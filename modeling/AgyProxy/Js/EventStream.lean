import AgyProxy.Js.Str

/-!
# AgyProxy.Js.EventStream — the `text/event-stream` format, as an `EventSource` reads it

The reader takes the stream unit by unit, so that how it was cut into pieces cannot matter: lines end at LF, CR or
both; an empty line dispatches what the fields before it gathered; what the end of the stream leaves unfinished is
discarded.

* `EventBuffers`: the buffers and the events dispatched; `EventReader`: with the line read so far.
* `eventsOf_prefix`: **a prefix of a stream gives a prefix of its events**.
* `readAll_lines`: a stream of whole lines is its lines, one by one.
-/

namespace AgyProxy.Js

/-- One dispatched event. -/
structure MessageEvent where
  type : JsString
  data : JsString
  lastEventId : JsString
deriving DecidableEq

structure EventBuffers where
  eventType : JsString
  data : JsString
  lastEventId : JsString
  events : List MessageEvent
deriving DecidableEq

structure EventReader where
  /-- the line so far -/
  line : JsString
  /-- the last unit was a CR -/
  afterCr : Bool
  buffers : EventBuffers
deriving DecidableEq

namespace EventBuffers

/-- One field. -/
def field (r : EventBuffers) (name value : JsString) : EventBuffers :=
  if name = js "event" then { r with eventType := value }
  else if name = js "data" then { r with data := r.data ++ value ++ [0x0A] }
  else if name = js "id" then if 0 ∈ value then r else { r with lastEventId := value }
  else r

/-- Nothing is dispatched without data, and the last line feed of the data is not part of it. -/
def dispatch (r : EventBuffers) : EventBuffers :=
  if r.data = [] then { r with eventType := [] }
  else
    { r with
      eventType := []
      data := []
      events := r.events ++
        [⟨if r.eventType = [] then js "message" else r.eventType, r.data.dropLast, r.lastEventId⟩] }

/-- One line.  A comment starts with a colon; a space behind the colon of a field is not part of its value. -/
def endLine (r : EventBuffers) (line : JsString) : EventBuffers :=
  if line = [] then r.dispatch
  else
    let name := line.takeWhile (· != 0x3A)
    let value := (line.dropWhile (· != 0x3A)).drop 1
    if name = [] then r else r.field name (if value.head? = some 0x20 then value.drop 1 else value)

end EventBuffers

namespace EventReader

def init : EventReader := ⟨[], false, ⟨[], [], [], []⟩⟩

/-- One unit of the stream. -/
def read (r : EventReader) (c : UInt16) : EventReader :=
  if c = 0x0A && r.afterCr then { r with afterCr := false }
  else if c = 0x0A || c = 0x0D then ⟨[], c == 0x0D, r.buffers.endLine r.line⟩
  else { r with line := r.line ++ [c], afterCr := false }

def readAll (r : EventReader) (stream : JsString) : EventReader := stream.foldl read r

theorem readAll_append (r : EventReader) (a b : JsString) : r.readAll (a ++ b) = (r.readAll a).readAll b :=
  List.foldl_append

end EventReader

/-- What a client sees of a stream. -/
def eventsOf (stream : JsString) : List MessageEvent := (EventReader.init.readAll stream).buffers.events

/-! ### A prefix of a stream -/

section Prefix

theorem field_events (r : EventBuffers) (name value : JsString) : (r.field name value).events = r.events := by
  unfold EventBuffers.field
  split
  · rfl
  · split
    · rfl
    · split
      · split
        · rfl
        · rfl
      · rfl

theorem dispatch_events (r : EventBuffers) : r.events <+: r.dispatch.events := by
  unfold EventBuffers.dispatch
  split
  · exact List.prefix_rfl
  · exact List.prefix_append _ _

theorem endLine_events (r : EventBuffers) (line : JsString) : r.events <+: (r.endLine line).events := by
  unfold EventBuffers.endLine
  split
  · exact dispatch_events r
  · dsimp only
    split
    · exact List.prefix_rfl
    · exact (field_events r _ _).symm ▸ List.prefix_rfl

theorem read_events (r : EventReader) (c : UInt16) : r.buffers.events <+: (r.read c).buffers.events := by
  unfold EventReader.read
  split
  · exact List.prefix_rfl
  · split
    · exact endLine_events r.buffers r.line
    · exact List.prefix_rfl

theorem readAll_events (stream : JsString) (r : EventReader) :
    r.buffers.events <+: (r.readAll stream).buffers.events := by
  induction stream generalizing r with
  | nil => exact List.prefix_rfl
  | cons c stream ih => exact (read_events r c).trans (ih (r.read c))

/-- **What a client read stays read**: of a prefix of a stream it sees a prefix of the events. -/
theorem eventsOf_prefix {a b : JsString} (h : a <+: b) : eventsOf a <+: eventsOf b := by
  obtain ⟨c, rfl⟩ := h
  unfold eventsOf
  rw [EventReader.readAll_append]
  exact readAll_events c _

end Prefix

/-! ### Whole lines -/

section Lines

/-- A text that stays within its line. -/
def OneLine (s : JsString) : Prop := ∀ c ∈ s, c ≠ 0x0A ∧ c ≠ 0x0D

instance OneLine.decidable (s : JsString) : Decidable (OneLine s) :=
  decidable_of_iff (s.all (fun c => decide (c ≠ 0x0A ∧ c ≠ 0x0D)) = true)
    ⟨forall_units, fun h => List.all_eq_true.mpr fun c hc => decide_eq_true (h c hc)⟩

theorem OneLine.append {a b : JsString} (ha : OneLine a) (hb : OneLine b) : OneLine (a ++ b) :=
  fun c hc => (List.mem_append.mp hc).elim (ha c) (hb c)

/-- The lines as a stream, each behind its line feed. -/
def unlines (ls : List JsString) : JsString := ls.flatMap fun l => l ++ [0x0A]

theorem readAll_oneLine {s : JsString} (hs : OneLine s) (line : JsString) (buffers : EventBuffers) :
    EventReader.readAll ⟨line, false, buffers⟩ s = ⟨line ++ s, false, buffers⟩ := by
  induction s generalizing line with
  | nil =>
    rw [List.append_nil]
    rfl
  | cons c s ih =>
    obtain ⟨hlf, hcr⟩ := hs c List.mem_cons_self
    have hread : EventReader.read ⟨line, false, buffers⟩ c = ⟨line ++ [c], false, buffers⟩ := by
      unfold EventReader.read
      rw [if_neg (by simp), if_neg (by simp [hlf, hcr])]
    show EventReader.readAll (EventReader.read ⟨line, false, buffers⟩ c) s = _
    rw [hread, ih fun d hd => hs d (List.mem_cons_of_mem c hd), List.append_assoc]
    rfl

/-- **A stream of whole lines** is its lines, one by one. -/
theorem readAll_unlines {ls : List JsString} (hls : ∀ l ∈ ls, OneLine l) (buffers : EventBuffers) :
    EventReader.readAll ⟨[], false, buffers⟩ (unlines ls) = ⟨[], false, ls.foldl EventBuffers.endLine buffers⟩ := by
  induction ls generalizing buffers with
  | nil => rfl
  | cons l ls ih =>
    have hline : EventReader.readAll ⟨[], false, buffers⟩ (l ++ [0x0A]) = ⟨[], false, buffers.endLine l⟩ := by
      rw [EventReader.readAll_append, readAll_oneLine (hls l List.mem_cons_self), List.nil_append]
      rfl
    show EventReader.readAll _ ((l ++ [0x0A]) ++ unlines ls) = _
    rw [EventReader.readAll_append, hline, ih fun m hm => hls m (List.mem_cons_of_mem l hm)]
    rfl

/-- A field line of a name without a colon and a space before its value. -/
theorem endLine_field (r : EventBuffers) {name : JsString} (hname : ∀ c ∈ name, c ≠ 0x3A) (hne : name ≠ [])
    (value : JsString) : r.endLine (name ++ 0x3A :: 0x20 :: value) = r.field name value := by
  have hall : ∀ c ∈ name, (c != 0x3A) = true := fun c hc => bne_iff_ne.mpr (hname c hc)
  have htake : (name ++ 0x3A :: 0x20 :: value).takeWhile (· != 0x3A) = name := by
    rw [List.takeWhile_append_of_pos hall, List.takeWhile_cons_of_neg (by decide), List.append_nil]
  have hdrop : (name ++ 0x3A :: 0x20 :: value).dropWhile (· != 0x3A) = 0x3A :: 0x20 :: value := by
    rw [List.dropWhile_append_of_pos hall, List.dropWhile_cons_of_neg (by decide)]
  unfold EventBuffers.endLine
  rw [if_neg (by simp), htake, hdrop, if_neg hne]
  rfl

theorem field_event (r : EventBuffers) (value : JsString) :
    r.field (js "event") value = { r with eventType := value } := if_pos rfl

theorem field_data (r : EventBuffers) (value : JsString) :
    r.field (js "data") value = { r with data := r.data ++ value ++ [0x0A] } := by
  unfold EventBuffers.field
  rw [if_neg (by decide), if_pos rfl]

theorem field_id (r : EventBuffers) {value : JsString} (h : 0 ∉ value) :
    r.field (js "id") value = { r with lastEventId := value } := by
  unfold EventBuffers.field
  rw [if_neg (by decide), if_neg (by decide), if_pos rfl, if_neg h]

/-- The empty line behind one line of data. -/
theorem endLine_dispatch (eventType value lastEventId : JsString) (events : List MessageEvent) :
    EventBuffers.endLine ⟨eventType, value ++ [0x0A], lastEventId, events⟩ [] =
      ⟨[], [], lastEventId,
        events ++ [⟨if eventType = [] then js "message" else eventType, value, lastEventId⟩]⟩ := by
  unfold EventBuffers.endLine EventBuffers.dispatch
  rw [if_pos rfl, if_neg (by simp), List.dropLast_concat]

end Lines

end AgyProxy.Js
