import AgyProxy.Host.SpanSystemSpec

/-!
# AgyProxy.Host.Usage — the usage slot of a run and its history

The usage a run reports is read from one slot of its recording, which `append` writes and every mapper
writes again.  `UsageState` is a run with the history that says what the slot should hold: the non-empty
samples appended, and how many of them before each stored event.

* `usageAt`: what should be reported for a result.  `UsageExact`: the chunks and the bill report it.
* `KeepsUp`: a step reads the slot only while it holds the newest sample and the result read is newer.
-/

namespace AgyProxy

open Js Lib

/-- The last result envelope of a log, with its index. -/
def lastResultAt? (events : List AgyEvent) : Option (ℕ × ResultEvent) :=
  (events.zipIdx.filterMap fun p =>
    match p.1 with
    | .result r => some (p.2, r)
    | _ => none).getLast?

/-- A usage chunk of that value right before a stop finish. -/
def StopUsage (out : List StreamChunk) (v : TokenUsage) : Prop :=
  ∃ pre replayState rest, out = pre ++ .usage v :: .finish .stop replayState :: rest

/-- A run and the history of its usage samples. -/
structure UsageState where
  sys : SpanState
  /-- history: the non-empty samples appended, in order -/
  samples : List RawUsage
  /-- history: for each stored event, how many samples were appended before it -/
  samplesBefore : List ℕ
  /-- history: the slot was last written by a mapper, and not with the newest sample -/
  stale : Bool

/-- The consumer whose event pump is about to map an event, and the event. -/
def SpanState.nextEvent? (s : SpanState) (j : ℕ) : Option (Consumer × AgyEvent) :=
  s.consumers[j]?.bind fun c =>
    if c.pump = .ready then s.recording.events[c.cursor]?.map fun ev => (c, ev) else none

namespace UsageState

def init (runId : RunId) : UsageState where
  sys := .init runId
  samples := []
  samplesBefore := []
  stale := false

variable (u : UsageState)

/-- What `usageFromRaw` is applied to for the result stored at an index: the last non-empty sample
appended before it, else its own. -/
def usageAt (i : ℕ) (r : ResultEvent) : TokenUsage :=
  usageFromRaw (((u.samples.take (u.samplesBefore[i]?.getD 0)).getLast?).getD r.usage)

/-- The sample of the event stored at an index is not empty and the newest one. -/
def isNewest (i : ℕ) (raw : RawUsage) : Bool :=
  raw.nonEmpty && u.samplesBefore[i]?.map (· + 1) == some u.samples.length

def noteAppend (ev : AgyEvent) : UsageState :=
  if u.sys.recording.settled then u
  else
    { u with
      samples := u.samples ++ ev.sample?.toList
      samplesBefore := u.samplesBefore ++ (u.sys.recording.stored ev).map fun _ => u.samples.length
      stale := u.stale && ev.sample?.isNone }

/-- A mapper notes the usage object of a step, an empty one too. -/
def noteMap (j : ℕ) : UsageState :=
  match u.sys.nextEvent? j with
  | some (c, .step s) =>
    match s.usage with
    | some raw => { u with stale := !u.isNewest c.cursor raw }
    | none => u
  | _ => u

def note : SpanAction → UsageState
  | .append ev => u.noteAppend ev
  | .pump j => u.noteMap j
  | _ => u

/-- One action of the run; the history follows. -/
def step (a : SpanAction) : Option UsageState := (u.sys.step a).map fun sys => { u.note a with sys }

/-- Reading the slot for the result stored at that index gives its sample: no mapper has put an older or
an empty sample back, and no sample was appended behind the result. -/
def ReadsFresh (i : ℕ) : Prop := u.stale = false ∧ u.samplesBefore[i]? = some u.samples.length

/-- The steps that read the slot, mapping a consumable result and firing the final `onRun`, read it fresh;
the latter for the last result, whose envelope must have usage at all. -/
def KeepsUp : SpanAction → Prop
  | .pump j => ∀ p ∈ u.sys.nextEvent? j, p.2.finishes = true → u.ReadsFresh p.1.cursor
  | .settle _ books => books = true → ∀ p ∈ lastResultAt? u.sys.recording.events,
      u.ReadsFresh p.1 ∧ p.2.usage.nonEmpty = true
  | _ => True

instance (i : ℕ) : Decidable (u.ReadsFresh i) := inferInstanceAs (Decidable (_ ∧ _))

instance : ∀ (u : UsageState) (a : SpanAction), Decidable (u.KeepsUp a)
  | u, .pump j => inferInstanceAs (Decidable (∀ p ∈ u.sys.nextEvent? j, p.2.finishes = true →
      u.ReadsFresh p.1.cursor))
  | u, .settle _ books => inferInstanceAs (Decidable (books = true →
      ∀ p ∈ lastResultAt? u.sys.recording.events, u.ReadsFresh p.1 ∧ p.2.usage.nonEmpty = true))
  | _, .append _ | _, .settleThrown _ | _, .attach _ | _, .drain _ | _, .giveUp _ | _, .finalize _
  | _, .tail _ => inferInstanceAs (Decidable True)

/-- Every usage chunk before a stop finish, and the usage of the final `onRun`, are the ones to report. -/
structure UsageExact : Prop where
  chunks : ∀ c ∈ u.sys.consumers, ∀ v, StopUsage c.pushed v →
    ∃ i r, u.sys.recording.events[i]? = some (.result r) ∧ c.cursor = i + 1 ∧ v = u.usageAt i r
  billed : ∀ b, u.sys.billed = some b → ∀ i r, lastResultAt? u.sys.recording.events = some (i, r) →
    b = some (u.usageAt i r)

end UsageState

end AgyProxy
