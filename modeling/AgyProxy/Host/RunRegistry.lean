import AgyProxy.Host.Recording
import AgyProxy.Lib.Keyed

/-!
# AgyProxy.Host.RunRegistry — the recordings kept for continuations (`RunRegistry` in `src/host/recording.ts`)

* `RunRegistry`: the recordings in insertion order, no id twice.
* `remember`: insertion, and evictions down to the capacity; `pickVictim` is the scan that chooses.
* `RegistryAction`: what happens to a registry; the capacity is read at each creation.
-/

namespace AgyProxy

open Js Lib

/-- The key of a recording in the map. -/
def RunRecording.key (rec : RunRecording) : JsString := rec.runId.val

structure RunRegistry where
  runs : List RunRecording
  unique : (runs.map RunRecording.key).Nodup

/-- The capacity the gateway supplies: `Math.max(8, maxConcurrent + 2)`. -/
def retainedRuns (maxConcurrent : ℚ) : ℚ := max 8 (maxConcurrent + 2)

/-- The eviction class: dead, kept for a continuation, in flight. -/
def evictionClass (rec : RunRecording) : ℕ := if rec.settled then (if rec.keepForContinuation then 2 else 1) else 3

/-- The scan of `pickVictim`, with the best victim so far and its class. -/
def pickVictimFrom : List RunRecording → Option JsString → ℕ → Option JsString
  | [], fallback, _ => fallback
  | rec :: runs, fallback, fallbackClass =>
    if evictionClass rec < fallbackClass then
      if evictionClass rec = 1 then some rec.key else pickVictimFrom runs (some rec.key) (evictionClass rec)
    else pickVictimFrom runs fallback fallbackClass

def pickVictim (runs : List RunRecording) : Option JsString := pickVictimFrom runs none 4

/-- `runs.delete(id)`. -/
def deleteRun (runs : List RunRecording) (id : JsString) : List RunRecording := runs.filter fun rec => rec.key != id

/-- The eviction loop; each round deletes a recording, so their number bounds the rounds. -/
def evictRuns (limit : ℚ) : ℕ → List RunRecording → List RunRecording
  | 0, runs => runs
  | rounds + 1, runs =>
    if limit < runs.length then
      match pickVictim runs with
      | none => runs
      | some victim => evictRuns limit rounds (deleteRun runs victim)
    else runs

theorem evictRuns_sublist (limit : ℚ) : ∀ (rounds : ℕ) (runs : List RunRecording),
    (evictRuns limit rounds runs).Sublist runs
  | 0, runs => List.Sublist.refl runs
  | rounds + 1, runs => by
    unfold evictRuns
    split
    · split
      · exact List.Sublist.refl runs
      · exact (evictRuns_sublist limit rounds _).trans List.filter_sublist
    · exact List.Sublist.refl runs

namespace RunRegistry

def empty : RunRegistry := ⟨[], List.nodup_nil⟩

def get (r : RunRegistry) (runId : JsString) : Option RunRecording := r.runs.find? fun rec => decide (rec.key = runId)

theorem nodup_insert (r : RunRegistry) {rec : RunRecording} (hnew : rec.key ∉ r.runs.map RunRecording.key) :
    ((r.runs ++ [rec]).map RunRecording.key).Nodup := by
  rw [List.map_append]
  refine List.nodup_append.mpr ⟨r.unique, List.nodup_singleton _, ?_⟩
  rintro id hid _ hrec rfl
  exact hnew (List.mem_singleton.mp hrec ▸ hid)

/-- `remember` of a recording whose id is new. -/
def remember (r : RunRegistry) (rec : RunRecording) (capacity : ℚ)
    (hnew : rec.key ∉ r.runs.map RunRecording.key) : RunRegistry where
  runs := evictRuns (max 1 capacity) (r.runs.length + 1) (r.runs ++ [rec])
  unique := (r.nodup_insert hnew).sublist ((evictRuns_sublist _ _ _).map _)

/-- A recording is changed in place, its id kept. -/
def modify (r : RunRegistry) (runId : JsString) (f : RunRecording → RunRecording)
    (hkey : ∀ rec, (f rec).key = rec.key) : RunRegistry where
  runs := updateAt RunRecording.key runId f r.runs
  unique := by
    rw [map_updateAt hkey]
    exact r.unique

def forget (r : RunRegistry) (runId : JsString) : RunRegistry where
  runs := deleteRun r.runs runId
  unique := r.unique.sublist (List.filter_sublist.map _)

end RunRegistry

inductive RegistryAction
  /-- `create()`; `runId` is what `randomUUID` returns -/
  | create (runId : RunId) (capacity : ℚ)
  | settle (runId : JsString) (failure : Option RecordingFailure)
  | keepForContinuation (runId : JsString) (keep : Bool)
  | forget (runId : JsString)

theorem RunRecording.settle_key (rec : RunRecording) (failure : Option RecordingFailure) :
    (rec.settle failure).key = rec.key := by
  unfold RunRecording.settle
  split <;> rfl

namespace RunRegistry

/-- An action; a created id is new. -/
def step (r : RunRegistry) : RegistryAction → Option RunRegistry
  | .create runId capacity =>
    if hnew : (RunRecording.new runId).key ∉ r.runs.map RunRecording.key then
      some (r.remember (RunRecording.new runId) capacity hnew)
    else none
  | .settle runId failure =>
    some (r.modify runId (fun rec => rec.settle failure) fun rec => rec.settle_key failure)
  | .keepForContinuation runId keep =>
    some (r.modify runId (fun rec => { rec with keepForContinuation := keep }) fun _ => rfl)
  | .forget runId => some (r.forget runId)

end RunRegistry

end AgyProxy
