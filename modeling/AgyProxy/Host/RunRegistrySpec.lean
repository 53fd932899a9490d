import AgyProxy.Host.RunRegistry
import AgyProxy.Lib.FirstLeast
import AgyProxy.Lib.Machine
import Mathlib.Data.Rat.Cast.Order

/-!
# AgyProxy.Host.RunRegistrySpec — which recordings a creation evicts

* `pickVictim_spec`: the scan finds the oldest recording of the lowest class.
* `FairVictim`: what a choice of a victim promises, over the recordings there at that moment.
* `evictRuns_evictions`: the loop is a chain of fair choices down to the limit, and keeps the newcomer.
* `create_keeps_inFlight`: at the gateway's capacity a creation evicts nothing that is in flight.
* `registry_create`: **every creation, after any actions and at any capacity**.
-/

namespace AgyProxy

open Js Lib

/-! ### The scan -/

theorem evictionClass_pos (rec : RunRecording) : 1 ≤ evictionClass rec := by
  unfold evictionClass
  split_ifs <;> omega

theorem evictionClass_le (rec : RunRecording) : evictionClass rec ≤ 3 := by
  unfold evictionClass
  split_ifs <;> omega

/-- The scan goes on from a best victim that is not dead. -/
theorem pickVictimFrom_spec : ∀ (runs : List RunRecording) (best : RunRecording), evictionClass best ≠ 1 →
    ∃ x, pickVictimFrom runs (some best.key) (evictionClass best) = some x.key ∧
      FirstLeast evictionClass (best :: runs) x
  | [], best, _ => ⟨best, rfl, FirstLeast.head fun _ hy => absurd hy List.not_mem_nil⟩
  | rec :: runs, best, hbest => by
    unfold pickVictimFrom
    by_cases hlt : evictionClass rec < evictionClass best
    · rw [if_pos hlt]
      by_cases hdead : evictionClass rec = 1
      · rw [if_pos hdead]
        have hhead : FirstLeast evictionClass (rec :: runs) rec :=
          FirstLeast.head fun y _ => hdead ▸ evictionClass_pos y
        exact ⟨rec, rfl, hhead.cons hlt⟩
      · rw [if_neg hdead]
        obtain ⟨x, hx, hleast⟩ := pickVictimFrom_spec runs rec hdead
        exact ⟨x, hx, hleast.cons ((hleast.le List.mem_cons_self).trans_lt hlt)⟩
    · rw [if_neg hlt]
      obtain ⟨x, hx, hleast⟩ := pickVictimFrom_spec runs best hbest
      exact ⟨x, hx, hleast.cons_cons (not_lt.mp hlt)⟩

/-- The victim is the oldest recording of the lowest class. -/
theorem pickVictim_spec (runs : List RunRecording) (h : runs ≠ []) :
    ∃ x, pickVictim runs = some x.key ∧ FirstLeast evictionClass runs x := by
  cases runs with
  | nil => exact absurd rfl h
  | cons rec runs =>
    have hle := evictionClass_le rec
    unfold pickVictim pickVictimFrom
    rw [if_pos (by omega)]
    by_cases hdead : evictionClass rec = 1
    · rw [if_pos hdead]
      exact ⟨rec, rfl, FirstLeast.head fun y _ => hdead ▸ evictionClass_pos y⟩
    · rw [if_neg hdead]
      exact pickVictimFrom_spec runs rec hdead

/-! ### The loop -/

/-- What the choice of a victim promises. -/
structure FairVictim (limit : ℚ) (created : JsString) (runs : List RunRecording) (victim : RunRecording) : Prop where
  mem : victim ∈ runs
  tooMany : limit < runs.length
  notCreated : victim.key ≠ created
  inFlight : victim.settled = false → limit < (runs.filter fun rec => !rec.settled).length
  kept : victim.settled = true → victim.keepForContinuation = true →
    ∀ rec ∈ runs, rec.settled = true → rec.keepForContinuation = true
  oldest : ∃ before after, runs = before ++ victim :: after ∧
    ∀ rec ∈ before, evictionClass rec ≠ evictionClass victim

/-- Fair victims leave, one by one, until the limit is kept. -/
inductive Evictions (limit : ℚ) (created : JsString) : List RunRecording → List RunRecording → Prop
  | done {runs : List RunRecording} (h : runs.length ≤ limit) : Evictions limit created runs runs
  | evict {runs final : List RunRecording} {victim : RunRecording} (h : FairVictim limit created runs victim)
      (rest : Evictions limit created (deleteRun runs victim.key) final) : Evictions limit created runs final

section Loop

variable {limit : ℚ} {others runs final : List RunRecording} {new victim rec : RunRecording}

theorem Evictions.length_le (h : Evictions limit new.key runs final) : final.length ≤ limit := by
  induction h with
  | done h => exact h
  | evict _ _ ih => exact ih

theorem evictionClass_new (h : new.settled = false) : evictionClass new = 3 := by
  unfold evictionClass
  rw [h]
  rfl

/-- The newcomer is in flight and the youngest: it is chosen only when it is alone. -/
theorem firstLeast_mem_others (hnew : new.settled = false) (hothers : others ≠ [])
    (h : FirstLeast evictionClass (others ++ [new]) victim) : victim ∈ others := by
  obtain ⟨before, after, heq, hbefore, -⟩ := h
  rcases List.eq_nil_or_concat after with rfl | ⟨after, last, rfl⟩
  · obtain ⟨rfl, hlast⟩ := List.append_inj' heq rfl
    obtain rfl : new = victim := (List.cons.inj hlast).1
    obtain ⟨first, hfirst⟩ := List.exists_mem_of_ne_nil _ hothers
    have hlt := hbefore first hfirst
    have hle := evictionClass_le first
    have hclass := evictionClass_new hnew
    omega
  · rw [List.concat_eq_append, ← List.cons_append, ← List.append_assoc] at heq
    rw [(List.append_inj' heq rfl).1]
    exact List.mem_append_right _ List.mem_cons_self

/-- An oldest recording of the lowest class is a fair victim. -/
theorem firstLeast_fairVictim (hkeys : ((others ++ [new]).map RunRecording.key).Nodup) (hnew : new.settled = false)
    (hothers : others ≠ []) (htooMany : limit < (others ++ [new]).length)
    (h : FirstLeast evictionClass (others ++ [new]) victim) : FairVictim limit new.key (others ++ [new]) victim where
  mem := h.mem
  tooMany := htooMany
  notCreated := by
    have hmem := firstLeast_mem_others hnew hothers h
    rw [List.map_append] at hkeys
    exact (List.nodup_append.mp hkeys).2.2 _ (List.mem_map_of_mem hmem) _ List.mem_cons_self
  inFlight := by
    intro hset
    have hall : (others ++ [new]).filter (fun rec => !rec.settled) = others ++ [new] := by
      refine List.filter_eq_self.mpr fun rec hrec => ?_
      have hle := h.le hrec
      rw [evictionClass_new hset] at hle
      unfold evictionClass at hle
      split_ifs at hle with hsettled hkeep
      · omega
      · omega
      · simp [hsettled]
    rw [hall]
    exact htooMany
  kept := by
    intro hset hkept rec hrec hrecset
    have hle := h.le hrec
    unfold evictionClass at hle
    rw [if_pos hset, if_pos hkept, if_pos hrecset] at hle
    split_ifs at hle with hkeep
    · exact hkeep
    · omega
  oldest := by
    obtain ⟨before, after, heq, hbefore, -⟩ := h
    exact ⟨before, after, heq, fun rec hrec => (hbefore rec hrec).ne'⟩

theorem length_deleteRun_lt (h : rec ∈ runs) : (deleteRun runs rec.key).length < runs.length := by
  refine List.length_filter_lt_length_iff_exists.mpr ⟨rec, h, ?_⟩
  simp

/-- **The eviction loop**: fair victims leave until the limit is kept, and the newcomer stays. -/
theorem evictRuns_evictions (hlimit : 1 ≤ limit) (hnew : new.settled = false) :
    ∀ (rounds : ℕ) (others : List RunRecording), ((others ++ [new]).map RunRecording.key).Nodup →
      (others ++ [new]).length ≤ rounds →
      Evictions limit new.key (others ++ [new]) (evictRuns limit rounds (others ++ [new])) ∧
        new ∈ evictRuns limit rounds (others ++ [new])
  | 0, others, _, hrounds => by
    rw [List.length_append] at hrounds
    exact absurd hrounds (by simp)
  | rounds + 1, others, hkeys, hrounds => by
    unfold evictRuns
    by_cases htooMany : limit < (others ++ [new]).length
    · rw [if_pos htooMany]
      have hothers : others ≠ [] := by
        rintro rfl
        have hone : limit < 1 := by simpa using htooMany
        exact absurd hlimit (not_le.mpr hone)
      obtain ⟨victim, hpick, hleast⟩ := pickVictim_spec (others ++ [new]) (by simp)
      have hfair := firstLeast_fairVictim hkeys hnew hothers htooMany hleast
      rw [hpick]
      dsimp only
      have hdelete : deleteRun (others ++ [new]) victim.key = deleteRun others victim.key ++ [new] := by
        unfold deleteRun
        rw [List.filter_append]
        refine congrArg (_ ++ ·) (List.filter_eq_self.mpr ?_)
        rintro rec hrec
        rw [List.mem_singleton.mp hrec]
        exact bne_iff_ne.mpr hfair.notCreated.symm
      have hshorter := length_deleteRun_lt hfair.mem
      have hsub : ((deleteRun (others ++ [new]) victim.key).map RunRecording.key).Nodup :=
        hkeys.sublist (List.filter_sublist.map _)
      rw [hdelete] at hshorter hsub ⊢
      have hrest := evictRuns_evictions hlimit hnew rounds (deleteRun others victim.key) hsub (by omega)
      refine ⟨Evictions.evict hfair ?_, hrest.2⟩
      rw [hdelete]
      exact hrest.1
    · rw [if_neg htooMany]
      exact ⟨Evictions.done (not_lt.mp htooMany), List.mem_append_right _ List.mem_cons_self⟩

/-- As long as no more recordings are in flight than the limit, none of them is evicted. -/
theorem Evictions.inFlight_kept {created : JsString} (h : Evictions limit created runs final)
    (hkeys : (runs.map RunRecording.key).Nodup) (hfew : (runs.filter fun rec => !rec.settled).length ≤ limit) :
    ∀ rec ∈ runs, rec.settled = false → rec ∈ final := by
  induction h with
  | done _ => exact fun rec hrec _ => hrec
  | @evict runs final victim hfair _ ih =>
    have hsettled : victim.settled = true := by
      by_contra hlive
      exact not_lt.mpr hfew (hfair.inFlight (Bool.eq_false_of_not_eq_true hlive))
    have hsub : (deleteRun runs victim.key).Sublist runs := List.filter_sublist
    have hlength : ((deleteRun runs victim.key).filter fun rec => !rec.settled).length ≤
        (runs.filter fun rec => !rec.settled).length := (hsub.filter _).length_le
    intro rec hrec hlive
    refine ih (hkeys.sublist (hsub.map _)) (le_trans (by exact_mod_cast hlength) hfew) rec ?_ hlive
    refine List.mem_filter.mpr ⟨hrec, bne_iff_ne.mpr fun hkey => ?_⟩
    have hsame : rec = victim := List.inj_on_of_nodup_map hkeys hrec hfair.mem hkey
    rw [hsame, hsettled] at hlive
    exact Bool.noConfusion hlive

end Loop

/-! ### Every creation -/

/-- **No run in flight loses its recording** to a new one, while at most one more than the gateway lets in are in
flight beside it. -/
theorem create_keeps_inFlight {r r' : RunRegistry} {runId : RunId} {maxConcurrent : ℚ}
    (h : r.step (.create runId (retainedRuns maxConcurrent)) = some r')
    (hfew : (r.runs.filter fun rec => !rec.settled).length ≤ maxConcurrent + 1) :
    ∀ rec ∈ r.runs, rec.settled = false → rec ∈ r'.runs := by
  unfold RunRegistry.step at h
  dsimp only at h
  split_ifs at h with hnew
  obtain rfl := Option.some.inj h
  have hkeys := r.nodup_insert hnew
  obtain ⟨hchain, -⟩ := evictRuns_evictions (le_max_left 1 (retainedRuns maxConcurrent)) rfl (r.runs.length + 1)
    r.runs hkeys (by simp)
  have hroom : ((r.runs ++ [RunRecording.new runId]).filter fun rec => !rec.settled).length ≤
      max 1 (retainedRuns maxConcurrent) := by
    have hgateway : maxConcurrent + 2 ≤ retainedRuns maxConcurrent := le_max_right 8 _
    have hone : ([RunRecording.new runId].filter fun rec => !rec.settled).length = 1 := rfl
    rw [List.filter_append, List.length_append, hone]
    push_cast
    exact le_max_of_le_right (by linarith)
  exact fun rec hrec => hchain.inFlight_kept hkeys hroom rec (List.mem_append_left _ hrec)

/-- **The registry**: after any actions, a creation at any capacity keeps the bound and the newcomer, and
evicts fair victims only. -/
theorem registry_create {as : List RegistryAction} {runId : RunId} {capacity : ℚ} {r' : RunRegistry}
    (h : exec RunRegistry.step .empty (as ++ [.create runId capacity]) = some r') :
    ∃ r, exec RunRegistry.step .empty as = some r ∧ (r'.runs.length : ℚ) ≤ max 1 capacity ∧
      RunRecording.new runId ∈ r'.runs ∧
      Evictions (max 1 capacity) runId.val (r.runs ++ [RunRecording.new runId]) r'.runs := by
  rw [exec_append, Option.bind_eq_some_iff] at h
  obtain ⟨r, hr, h⟩ := h
  obtain ⟨t, ht, hend⟩ := exec_cons h
  obtain rfl : t = r' := Option.some.inj hend
  unfold RunRegistry.step at ht
  dsimp only at ht
  split_ifs at ht with hnew
  obtain rfl : r.remember (RunRecording.new runId) capacity hnew = t := Option.some.inj ht
  obtain ⟨hchain, hmem⟩ := evictRuns_evictions (le_max_left 1 capacity) rfl (r.runs.length + 1) r.runs
    (r.nodup_insert hnew) (by simp)
  exact ⟨r, hr, hchain.length_le, hmem, hchain⟩

def letterRunId (c : Char) : RunId := ⟨js c.toString ++ js "-run", by simp [js, utf16]⟩

/-- Two runs, the older settled and kept; then the capacity has shrunk to one. -/
def keptAndLive : List RegistryAction :=
  [.create (letterRunId 'a') 2, .create (letterRunId 'b') 2, .settle (js "a-run") none,
    .keepForContinuation (js "a-run") true]

/-- Both leave, the kept one first, and the newcomer stays. -/
theorem registry_create_shrunk :
    ∃ r', exec RunRegistry.step .empty (keptAndLive ++ [.create (letterRunId 'c') 1]) = some r' ∧
      ∃ r, exec RunRegistry.step .empty keptAndLive = some r ∧ (r'.runs.length : ℚ) ≤ max 1 1 ∧
        RunRecording.new (letterRunId 'c') ∈ r'.runs ∧
        Evictions (max 1 1) (letterRunId 'c').val (r.runs ++ [RunRecording.new (letterRunId 'c')]) r'.runs := by
  have hruns : (exec RunRegistry.step .empty (keptAndLive ++ [.create (letterRunId 'c') 1])).isSome = true := by
    decide +kernel
  obtain ⟨r', hr'⟩ := Option.isSome_iff_exists.mp hruns
  exact ⟨r', hr', registry_create hr'⟩

end AgyProxy
