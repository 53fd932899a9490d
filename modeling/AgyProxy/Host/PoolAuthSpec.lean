import AgyProxy.Host.PoolAuth
import Mathlib.Data.List.Nodup

/-!
# AgyProxy.Host.PoolAuthSpec — a flow that lost its turn

* `CommitsOwned`, `CommitsOnce`, `WritesOwned`, `SlotsSettled`: the four safety properties.
* `KeepsFlow`: the continuation of a flow still owns what it is about to write.
* `Sound`: what a run of such continuations keeps; the rest of an abort may still be due.
* `flows_owned`: in such a run the four properties hold throughout.
-/

namespace AgyProxy

open Js Lib

namespace PoolAuth

/-! ### The properties -/

/-- No flow committed an account after it was cancelled or superseded. -/
def CommitsOwned (s : PoolAuth) : Prop := ∀ c ∈ s.commits, c.revoked = false

/-- Each flow committed at most one account. -/
def CommitsOnce (s : PoolAuth) : Prop := (s.commits.map AuthCommit.flow).Nodup

/-- No flow changed the flow or the status after a later one had been stored. -/
def WritesOwned (s : PoolAuth) : Prop := ∀ w ∈ s.writes, w.stored ≤ w.rank

/-- A cleanup of flow `n` is due: `await` says of which flow, besides those that begins and cancels wait for. -/
def Awaits (s : PoolAuth) (await : Option ℕ) (n : ℕ) : Prop :=
  await = some n ∨ (∃ m : ℕ, ∃ f : AuthFlow, s.flows[m]? = some f ∧ f.start = .aborting (some n)) ∨ ∃ c ∈ s.cancels, c.old = n

/-- Nothing is left to be done for flow `n`. -/
structure Ended (s : PoolAuth) (n : ℕ) (f : AuthFlow) : Prop where
  started : f.start = .stored
  finished : f.finish = .idle ∨ f.finish = .over
  released : s.flow ≠ some n
  aborted : ¬s.Awaits none n

/-- The slot of a flow that has ended is committed or cleaned up. -/
def SlotsSettled (s : PoolAuth) : Prop := ∀ n f, s.flows[n]? = some f → s.Ended n f → f.slot ≠ .staged

/-- The continuation still owns what it writes. -/
def KeepsFlow (s : PoolAuth) : AuthAction → Prop
  | .opened n _ => s.revokedBelow ≤ n
  | .exchanged n .written => s.revokedBelow ≤ n
  | .exchanged n (.failed _) => s.storedBound ≤ n + 1
  | .exchanged n (.unwritten _) => s.flow = some n
  | .emailed n _ => s.revokedBelow ≤ n
  | .cancelled i => ∀ c, s.cancels[i]? = some c → s.storedBound ≤ c.rank
  | _ => True

instance KeepsFlow.decidable : ∀ (s : PoolAuth) (a : AuthAction), Decidable (s.KeepsFlow a)
  | s, .opened n _ | s, .exchanged n .written | s, .emailed n _ => inferInstanceAs (Decidable (s.revokedBelow ≤ n))
  | s, .exchanged n (.failed _) => inferInstanceAs (Decidable (s.storedBound ≤ n + 1))
  | s, .exchanged n (.unwritten _) => inferInstanceAs (Decidable (s.flow = some n))
  | s, .cancelled i => inferInstanceAs (Decidable (∀ c ∈ s.cancels[i]?, s.storedBound ≤ c.rank))
  | _, .begin _ _ _ | _, .aborted _ | _, .bound _ _ | _, .submitCode _ | _, .callback _ _ | _, .rejected _ _
  | _, .cancel | _, .doneReset => inferInstanceAs (Decidable True)

/-! ### The invariant -/

/-- What holds of flow `n`. -/
structure FlowSound (s : PoolAuth) (await : Option ℕ) (n : ℕ) (f : AuthFlow) : Prop where
  starting : f.start ≠ .stored → f.finish = .idle
  listening : f.start = .stored → f.listener = some .open → s.flow = some n
  slot : f.start = .stored → f.slot = .staged → s.flow = some n ∨ s.Awaits await n ∨ f.finish = .emailing

structure Sound (s : PoolAuth) (await : Option ℕ) : Prop where
  bound : s.storedBound ≤ s.flows.length
  last : s.flows.length ≤ s.revokedBelow + 1
  owner : ∀ g, s.flow = some g → ∃ f, s.flows[g]? = some f ∧ f.start = .stored ∧ s.revokedBelow ≤ g ∧
    s.storedBound = g + 1
  each : ∀ n f, s.flows[n]? = some f → s.FlowSound await n f
  waiting : ∀ g f, s.flow = some g → s.status.phase = .waiting → s.flows[g]? = some f → f.finish = .idle
  commits : ∀ c ∈ s.commits, c.revoked = false ∧ ∃ f, s.flows[c.flow]? = some f ∧ f.start = .stored ∧ f.finish = .over
  once : s.CommitsOnce
  writes : s.WritesOwned
  timer : ∀ rank, s.doneTimer = some rank → s.storedBound ≤ rank

section Invariant

variable {s s' : PoolAuth} {await : Option ℕ} {n : ℕ} {f : AuthFlow} {φ : AuthFlow → AuthFlow}

theorem edit_at (hf : s.flows[n]? = some f) : (s.edit n φ).flows[n]? = some (φ f) := by
  simp [PoolAuth.edit, hf]

theorem edit_ne {m : ℕ} (h : n ≠ m) : (s.edit n φ).flows[m]? = s.flows[m]? := by
  simp [PoolAuth.edit, h]

theorem edit_length : (s.edit n φ).flows.length = s.flows.length := List.length_modify φ s.flows n

theorem edit_cases {m : ℕ} {g : AuthFlow} (hf : s.flows[n]? = some f) (hg : (s.edit n φ).flows[m]? = some g) :
    m = n ∧ g = φ f ∨ n ≠ m ∧ s.flows[m]? = some g := by
  by_cases hm : n = m
  · subst hm
    rw [edit_at hf] at hg
    exact Or.inl ⟨rfl, (Option.some.inj hg).symm⟩
  · rw [edit_ne hm] at hg
    exact Or.inr ⟨hm, hg⟩

/-- A change that leaves the starts alone takes no cleanup away. -/
theorem awaits_edit {await' : Option ℕ} (hstart : ∀ f, (φ f).start = f.start) {m : ℕ} (hm : await ≠ some m)
    (h : s.Awaits await m) : (s.edit n φ).Awaits await' m := by
  rcases h with h | ⟨k, f, hf, hs⟩ | h
  · exact absurd h hm
  · by_cases hk : n = k
    · subst hk
      exact Or.inr (Or.inl ⟨n, φ f, edit_at hf, (hstart f).trans hs⟩)
    · exact Or.inr (Or.inl ⟨k, f, (edit_ne hk).trans hf, hs⟩)
  · exact Or.inr (Or.inr h)

theorem lt_of_at (hf : s.flows[n]? = some f) : n < s.flows.length := (List.getElem?_eq_some_iff.mp hf).1

/-- A flow stays sound while it does not lose its turn and no cleanup of it is taken away. -/
theorem FlowSound.mono {await' : Option ℕ} (h : s.FlowSound await n f) (hflow : s.flow = some n → s'.flow = some n)
    (hdue : s.Awaits await n → s'.Awaits await' n) : s'.FlowSound await' n f := by
  refine ⟨h.starting, fun hs hl => hflow (h.listening hs hl), fun hs hstaged => ?_⟩
  rcases h.slot hs hstaged with hcur | hpend | hmail
  · exact Or.inl (hflow hcur)
  · exact Or.inr (Or.inl (hdue hpend))
  · exact Or.inr (Or.inr hmail)

/-- The current flow is stored, not revoked, and the last one stored. -/
theorem Sound.owner_at (h : s.Sound await) (hf : s.flows[n]? = some f) (hcur : s.flow = some n) :
    f.start = .stored ∧ s.revokedBelow ≤ n ∧ s.storedBound = n + 1 := by
  obtain ⟨f', hf', hrest⟩ := h.owner n hcur
  obtain rfl := Option.some.inj (hf.symm.trans hf')
  exact hrest

/-- The flows that committed, through a change that leaves a committed one over. -/
theorem Sound.commits_edit (h : s.Sound await) (hf : s.flows[n]? = some f)
    (hover : f.start = .stored → f.finish = .over → (φ f).start = .stored ∧ (φ f).finish = .over) :
    ∀ c ∈ s.commits, c.revoked = false ∧
      ∃ g, (s.edit n φ).flows[c.flow]? = some g ∧ g.start = .stored ∧ g.finish = .over := by
  intro c hc
  obtain ⟨howned, f', hf', hstart, hdone⟩ := h.commits c hc
  refine ⟨howned, ?_⟩
  by_cases hcn : n = c.flow
  · subst hcn
    obtain rfl := Option.some.inj (hf.symm.trans hf')
    exact ⟨φ f, edit_at hf, hover hstart hdone⟩
  · exact ⟨f', (edit_ne hcn).trans hf', hstart, hdone⟩

/-- A flow that is not revoked is the last one begun. -/
theorem Sound.eq_last (h : s.Sound await) (hf : s.flows[n]? = some f) (hcurrent : s.revokedBelow ≤ n) :
    n + 1 = s.flows.length := by
  have hlt := lt_of_at hf
  have hlast := h.last
  omega

/-- Only the last flow begun can be current. -/
theorem Sound.owner_last (h : s.Sound await) {g : ℕ} (hg : s.flow = some g) : g + 1 = s.flows.length := by
  obtain ⟨f, hf, -, hcurrent, -⟩ := h.owner g hg
  exact h.eq_last hf hcurrent

/-- A change of one flow only. -/
theorem Sound.edit (h : s.Sound await) (hf : s.flows[n]? = some f) {await' : Option ℕ}
    (hsound : (s.edit n φ).FlowSound await' n (φ f)) (howner : s.flow = some n → (φ f).start = .stored)
    (hwaiting : s.flow = some n → s.status.phase = .waiting → (φ f).finish = .idle)
    (hover : f.start = .stored → f.finish = .over → (φ f).start = .stored ∧ (φ f).finish = .over)
    (hawait : ∀ m, n ≠ m → s.Awaits await m → (s.edit n φ).Awaits await' m) : (s.edit n φ).Sound await' := by
  have hlength : (s.edit n φ).flows.length = s.flows.length := edit_length
  refine ⟨hlength.symm ▸ h.bound, hlength.symm ▸ h.last, ?_, ?_, ?_, h.commits_edit hf hover, h.once, h.writes,
    h.timer⟩
  · intro g hg
    obtain ⟨f', hf', hstart, hrest⟩ := h.owner g hg
    by_cases hgn : n = g
    · subst hgn
      exact ⟨φ f, edit_at hf, howner hg, hrest⟩
    · exact ⟨f', (edit_ne hgn).trans hf', hstart, hrest⟩
  · intro m g hg
    rcases edit_cases hf hg with ⟨rfl, rfl⟩ | ⟨hm, hg⟩
    · exact hsound
    · exact (h.each m g hg).mono (fun hcur => hcur) (hawait m hm)
  · intro g f' hg hphase hf'
    rcases edit_cases hf hf' with ⟨rfl, rfl⟩ | ⟨-, hf'⟩
    · exact hwaiting hg hphase
    · exact h.waiting g f' hg hphase hf'

/-- A change of one flow that leaves its start alone. -/
theorem Sound.edit_kept (h : s.Sound none) (hf : s.flows[n]? = some f) (hstart : ∀ f, (φ f).start = f.start)
    (hstarting : f.start ≠ .stored → (φ f).finish = .idle)
    (hlistening : (φ f).listener = some .open → f.listener = some .open)
    (hslot : f.start = .stored → (φ f).slot = .staged → s.flow = some n ∨ s.Awaits none n ∨ (φ f).finish = .emailing)
    (hwaiting : s.flow = some n → s.status.phase = .waiting → (φ f).finish = .idle)
    (hover : f.finish = .over → (φ f).finish = .over) : (s.edit n φ).Sound none := by
  have hpend : ∀ {m}, s.Awaits none m → (s.edit n φ).Awaits none m := fun hm => awaits_edit hstart (by simp) hm
  refine h.edit hf ⟨fun hs => hstarting (hstart f ▸ hs), fun hs hl => ?_, fun hs hstaged => ?_⟩ ?_ hwaiting
    (fun hs ho => ⟨(hstart f).trans hs, hover ho⟩) fun _ _ hm => hpend hm
  · exact (h.each n f hf).listening (hstart f ▸ hs) (hlistening hl)
  · rcases hslot (hstart f ▸ hs) hstaged with hcur | hdue | hmail
    · exact Or.inl hcur
    · exact Or.inr (Or.inl (hpend hdue))
    · exact Or.inr (Or.inr hmail)
  · intro hcur
    exact (hstart f).trans (h.owner_at hf hcur).1

/-- The flow `n` may be current no longer. -/
theorem Sound.release (h : s.Sound none) (hf : s.flows[n]? = some f) (hflow : ∀ g, s.flow = some g → g = n)
    (hstart : ∀ f, (φ f).start = f.start) (hlistener : (φ f).listener ≠ some .open)
    (hslot : (φ f).slot = .staged → await = some n) (hidle : f.start ≠ .stored → (φ f).finish = .idle)
    (hover : f.finish = .over → (φ f).finish = .over) : Sound { s.edit n φ with flow := none } await := by
  have hlength : (s.edit n φ).flows.length = s.flows.length := edit_length
  refine ⟨hlength.symm ▸ h.bound, hlength.symm ▸ h.last, ?_, ?_, ?_,
    h.commits_edit hf fun hs hdone => ⟨(hstart f).trans hs, hover hdone⟩, h.once, h.writes, h.timer⟩
  · exact fun g hg => nomatch hg
  · intro m g hg
    rcases edit_cases hf hg with ⟨rfl, rfl⟩ | ⟨hm, hg⟩
    · exact ⟨fun hs => hidle (hstart f ▸ hs), fun _ hl => absurd hl hlistener,
        fun _ hs => Or.inr (Or.inl (Or.inl (hslot hs)))⟩
    · refine (h.each m g hg).mono (fun hcur => absurd (hflow m hcur).symm hm) fun hpend => ?_
      exact awaits_edit hstart (by simp) hpend
  · exact fun g f' hg => nomatch hg

theorem Sound.setStatus (h : s.Sound await) {rank : ℕ} {status : AuthStatus} (hrank : s.storedBound ≤ rank)
    (hwaiting : status.phase = .waiting → ∀ g f, s.flow = some g → s.flows[g]? = some f → f.finish = .idle) :
    (s.setStatus rank status).Sound await := by
  refine ⟨h.bound, h.last, h.owner, fun m g hg => (h.each m g hg).mono (fun hcur => hcur) fun hdue => hdue,
    fun g f hg hp hf => hwaiting hp g f hg hf, h.commits, h.once, ?_, ?_⟩
  · intro w hw
    rcases List.mem_append.mp hw with hw | hw
    · exact h.writes w hw
    · rw [List.mem_singleton.mp hw]
      exact hrank
  · intro r hr
    unfold PoolAuth.setStatus at hr
    split_ifs at hr
    exact Option.some.inj hr ▸ hrank

theorem cleanup_slot (f : AuthFlow) : f.cleanup.slot ≠ .staged := by
  show (if f.slot = .staged then SlotState.cleaned else f.slot) ≠ .staged
  split_ifs with hs
  · simp
  · exact hs

theorem close_listener (f : AuthFlow) : f.close.listener ≠ some .open := by
  unfold AuthFlow.close
  cases f.listener with
  | none => simp
  | some l => simp

/-- `fail` closes, cleans up and drops the current flow. -/
theorem Sound.fail (h : s.Sound none) {rank : ℕ} (hrank : s.storedBound ≤ rank) (message : JsString) :
    (s.fail rank message).Sound none := by
  unfold PoolAuth.fail
  cases hflow : s.flow with
  | none => exact h.setStatus hrank fun hp => nomatch hp
  | some g =>
    obtain ⟨f, hf, hstart, -, -⟩ := h.owner g hflow
    have hreleased : Sound { s.edit g fun f => f.close.cleanup with flow := none } none :=
      h.release hf (fun g' hg' => Option.some.inj (hg'.symm.trans hflow)) (fun _ => rfl) (close_listener f)
        (fun hs => absurd hs (cleanup_slot f.close)) (fun hs => absurd hstart hs) fun ho => ho
    exact hreleased.setStatus hrank fun hp => nomatch hp

/-- The exchange begins for the current flow, or the current flow fails. -/
theorem Sound.finishWithCode (h : s.Sound none) {rank : ℕ} (hrank : ∀ g, s.flow = some g → g < rank)
    (returnedState : JsString) : (s.finishWithCode rank returnedState).Sound none := by
  unfold PoolAuth.finishWithCode
  cases hflow : s.flow with
  | none => exact h
  | some g =>
    obtain ⟨f, hf, hstart, -, hstored⟩ := h.owner g hflow
    have hbound : s.storedBound ≤ rank := by
      have := hrank g hflow
      omega
    dsimp only
    split_ifs with hphase hstate
    · exact h
    · exact h.fail hbound _
    · have hwaiting : s.status.phase = .waiting := by simpa using hphase
      have hidle : f.finish = .idle := h.waiting g f hflow hwaiting hf
      have hset : (s.setStatus rank { s.status with phase := .exchanging }).Sound none :=
        h.setStatus hbound fun hp => nomatch hp
      refine hset.edit_kept hf (fun _ => rfl) (fun hs => absurd hstart hs) (fun hl => hl)
        (fun _ _ => Or.inl hflow) (fun _ hp => nomatch hp) fun ho => ?_
      rw [hidle] at ho
      exact nomatch ho

theorem Sound.submitCode (h : s.Sound none) (parsed : Option PastedCode) : (s.submitCode parsed).Sound none := by
  unfold PoolAuth.submitCode
  split
  next paste n hflow hrefusal =>
    refine h.finishWithCode (fun g hg => ?_) _
    obtain rfl := Option.some.inj (hflow.symm.trans hg)
    exact Nat.lt_succ_self n
  next => exact h

/-- The listener's result is in. -/
theorem Sound.settleListener (h : s.Sound none) (hf : s.flows[n]? = some f) :
    (s.edit n fun f => { f with listener := some .settled }).Sound none := by
  obtain ⟨hstarting, -, hslot⟩ := h.each n f hf
  exact h.edit_kept hf (fun _ => rfl) hstarting (fun hl => absurd hl (by simp)) hslot
    (fun hg hp => h.waiting n f hg hp hf) fun ho => ho

/-- Nobody is current after an abort; the cleanup of the flow it names is due. -/
theorem Sound.abortActive (h : s.Sound none) :
    s.abortActive.1.Sound s.abortActive.2 ∧ s.abortActive.1.flow = none ∧
      s.abortActive.1.flows.length = s.flows.length := by
  unfold PoolAuth.abortActive
  cases hflow : s.flow with
  | none => exact ⟨h, hflow, rfl⟩
  | some old =>
    obtain ⟨f, hf, hstart, -, -⟩ := h.owner old hflow
    have hown : ∀ g, s.flow = some g → g = old := fun g hg => Option.some.inj (hg.symm.trans hflow)
    have hlistener : s.flows[old]?.bind AuthFlow.listener = f.listener := by
      rw [hf]
      rfl
    dsimp only
    split_ifs with hsome
    · exact ⟨h.release hf hown (fun _ => rfl) (close_listener f) (fun _ => rfl) (fun hs => absurd hstart hs)
        fun ho => ho, rfl, edit_length⟩
    · have hnone : f.listener = none := by simpa [hlistener] using hsome
      have hshut : f.cleanup.listener ≠ some .open := by
        show f.listener ≠ some .open
        rw [hnone]
        simp
      exact ⟨h.release hf hown (fun _ => rfl) hshut (fun hs => absurd hs (cleanup_slot f))
        (fun hs => absurd hstart hs) fun ho => ho, rfl, edit_length⟩

/-- Only the cleanups that are due change. -/
theorem Sound.redue (h : s.Sound await) {await' : Option ℕ}
    (hdue : ∀ m f, s.flows[m]? = some f → s.Awaits await m → s.Awaits await' m) : s.Sound await' := by
  refine ⟨h.bound, h.last, h.owner, fun m f hf => ?_, h.waiting, h.commits, h.once, h.writes, h.timer⟩
  exact (h.each m f hf).mono (fun hcur => hcur) (hdue m f hf)

/-- The cleanup that was due. -/
theorem Sound.aborted (h : s.Sound await) : (s.aborted await).Sound none := by
  cases await with
  | none => exact h
  | some old =>
    have hother : ∀ {m}, old ≠ m → some old ≠ some m := fun hm heq => hm (Option.some.inj heq)
    cases hf : s.flows[old]? with
    | none =>
      have hsame : s.flows.modify old AuthFlow.cleanup = s.flows :=
        List.modify_eq_self (List.getElem?_eq_none_iff.mp hf)
      show Sound { s with flows := s.flows.modify old AuthFlow.cleanup } none
      rw [hsame]
      refine h.redue fun m f hm hdue => hdue.imp_left fun heq => ?_
      rw [Option.some.inj heq, hm] at hf
      exact nomatch hf
    | some f =>
      obtain ⟨hstarting, hlistening, -⟩ := h.each old f hf
      have hkept : ∀ f : AuthFlow, f.cleanup.start = f.start := fun _ => rfl
      refine h.edit hf ⟨hstarting, hlistening, fun _ hs => absurd hs (cleanup_slot f)⟩ (fun hg => ?_)
        (fun hg hp => h.waiting old f hg hp hf) (fun hs ho => ⟨hs, ho⟩)
        fun m hm hdue => awaits_edit hkept (hother hm) hdue
      exact (h.owner_at hf hg).1

/-! ### The actions -/

theorem Sound.begin (h : s.Sound none) (aliasName : Option JsString) (state url : JsString) :
    (s.begin aliasName state url).Sound none := by
  obtain ⟨ha, hflow, hlength⟩ := h.abortActive
  unfold PoolAuth.begin
  generalize s.abortActive = a at ha hflow hlength
  obtain ⟨t, due⟩ := a
  dsimp only at ha hflow hlength ⊢
  have hat : ∀ {m f}, t.flows[m]? = some f →
      (t.flows ++ [⟨aliasName, state, url, .aborting due, none, .idle, .staged⟩])[m]? = some f := fun hf =>
    (List.getElem?_append_left (lt_of_at hf)).trans hf
  have hbound := ha.bound
  have hnobody : ∀ g, t.flow ≠ some g := fun g hg => by simp [hflow] at hg
  refine ⟨?_, ?_, fun g hg => absurd hg (hnobody g), ?_, fun g _ hg => absurd hg (hnobody g), ?_, ha.once, ha.writes,
    ha.timer⟩
  · show t.storedBound ≤ _
    rw [List.length_append, List.length_singleton]
    omega
  · show _ ≤ s.flows.length + 1
    rw [List.length_append, List.length_singleton]
    omega
  · intro m f hf
    rcases Nat.lt_or_ge m t.flows.length with hm | hm
    · have hold := ha.each m f ((List.getElem?_append_left hm).symm.trans hf)
      refine hold.mono (fun hcur => hcur) fun hdue => Or.inr ?_
      rcases hdue with rfl | ⟨k, g, hg, hk⟩ | hdue
      · exact Or.inl ⟨t.flows.length, _, List.getElem?_concat_length, rfl⟩
      · exact Or.inl ⟨k, g, hat hg, hk⟩
      · exact Or.inr hdue
    · change (t.flows ++ [_])[m]? = some f at hf
      rw [List.getElem?_append_right hm] at hf
      obtain rfl := List.mem_singleton.mp (List.mem_of_getElem? hf)
      have hunstored : ¬StartStage.aborting due = .stored := by simp
      exact ⟨fun _ => rfl, fun hs => absurd hs hunstored, fun hs => absurd hs hunstored⟩
  · intro c hc
    obtain ⟨howned, f, hf, hrest⟩ := ha.commits c hc
    exact ⟨howned, f, hat hf, hrest⟩

theorem Sound.cancel (h : s.Sound none) : s.cancel.Sound none := by
  obtain ⟨ha, hflow, hlength⟩ := h.abortActive
  unfold PoolAuth.cancel
  generalize s.abortActive = a at ha hflow hlength
  obtain ⟨t, due⟩ := a
  dsimp only at ha hflow hlength ⊢
  have hrevoked : Sound { t with revokedBelow := s.flows.length } due := by
    have hnobody : ∀ g, t.flow ≠ some g := fun g hg => by simp [hflow] at hg
    refine ⟨ha.bound, ?_, fun g hg => absurd hg (hnobody g), fun m f hf => ?_, ha.waiting, ha.commits, ha.once,
      ha.writes, ha.timer⟩
    · show t.flows.length ≤ s.flows.length + 1
      omega
    · exact (ha.each m f hf).mono (fun hcur => hcur) fun hdue => hdue
  cases due with
  | none =>
    have hbound := ha.bound
    exact hrevoked.setStatus (by show t.storedBound ≤ _; omega) fun hp => nomatch hp
  | some old =>
    refine ⟨hrevoked.bound, hrevoked.last, hrevoked.owner, fun m f hf => ?_, hrevoked.waiting, hrevoked.commits,
      hrevoked.once, hrevoked.writes, hrevoked.timer⟩
    refine (hrevoked.each m f hf).mono (fun hcur => hcur) fun hdue => ?_
    rcases hdue with heq | hdue | ⟨c, hc, hold⟩
    · exact Or.inr (Or.inr ⟨⟨old, _⟩, List.mem_append_right _ (List.mem_singleton_self _), Option.some.inj heq⟩)
    · exact Or.inr (Or.inl hdue)
    · exact Or.inr (Or.inr ⟨c, List.mem_append_left _ hc, hold⟩)

theorem Sound.cancelled (h : s.Sound none) {i : ℕ} {c : PendingCancel} (hc : s.cancels[i]? = some c)
    (hrank : s.storedBound ≤ c.rank) : (s.cancelled i c).Sound none := by
  have hdue : Sound { s with cancels := s.cancels.eraseIdx i } (some c.old) := by
    refine ⟨h.bound, h.last, h.owner, fun m f hf => ?_, h.waiting, h.commits, h.once, h.writes, h.timer⟩
    refine (h.each m f hf).mono (fun hcur => hcur) fun hdue => ?_
    rcases hdue with hdue | hdue | ⟨c', hc', hold⟩
    · exact nomatch hdue
    · exact Or.inr (Or.inl hdue)
    · obtain ⟨k, hk, hck⟩ := List.getElem_of_mem hc'
      by_cases hki : k = i
      · subst hki
        obtain rfl := Option.some.inj (hc.symm.trans (List.getElem?_eq_some_iff.mpr ⟨hk, hck⟩))
        exact Or.inl (congrArg some hold)
      · have hkept : c' ∈ s.cancels.eraseIdx i :=
          List.mem_eraseIdx_iff_getElem?.mpr ⟨k, hki, List.getElem?_eq_some_iff.mpr ⟨hk, hck⟩⟩
        exact Or.inr (Or.inr ⟨c', hkept, hold⟩)
  exact hdue.aborted.setStatus hrank fun hp => nomatch hp

/-- The flow that is not revoked becomes current: nobody else is. -/
theorem Sound.store (h : s.Sound none) (hf : s.flows[n]? = some f) (hstart : f.start = .opening)
    (hcurrent : s.revokedBelow ≤ n) (browserOpened : Bool) : (s.store n f browserOpened).Sound none := by
  have hlast : n + 1 = s.flows.length := h.eq_last hf hcurrent
  have hbound : s.storedBound ≤ n + 1 := hlast ▸ h.bound
  have hnobody : ∀ g, s.flow ≠ some g := by
    intro g hg
    have hglast : g + 1 = s.flows.length := h.owner_last hg
    obtain rfl : g = n := by omega
    have hstored := (h.owner_at hf hg).1
    rw [hstart] at hstored
    simp at hstored
  have hidle : f.finish = .idle := (h.each n f hf).starting (by simp [hstart])
  have hself : (s.edit n fun f => { f with start := .stored }).flows[n]? = some { f with start := .stored } :=
    edit_at hf
  have hlength : (s.edit n fun f => { f with start := .stored }).flows.length = s.flows.length := edit_length
  have hmax : max s.storedBound (n + 1) = n + 1 := max_eq_right hbound
  refine ⟨?_, hlength.symm ▸ h.last, ?_, ?_, ?_, h.commits_edit hf ?_, h.once, ?_, ?_⟩
  · show max s.storedBound (n + 1) ≤ (s.edit n fun f => { f with start := .stored }).flows.length
    rw [hlength]
    omega
  · intro g hg
    obtain rfl := Option.some.inj hg
    exact ⟨_, hself, rfl, hcurrent, hmax⟩
  · intro m g hg
    rcases edit_cases hf hg with ⟨rfl, rfl⟩ | ⟨-, hg⟩
    · exact ⟨fun hs => absurd rfl hs, fun _ _ => rfl, fun _ _ => Or.inl rfl⟩
    · refine (h.each m g hg).mono (fun hcur => absurd hcur (hnobody m)) fun hdue => ?_
      rcases hdue with hdue | ⟨k, f', hf', hk⟩ | hdue
      · exact absurd hdue (by simp)
      · have hnk : n ≠ k := by
          rintro rfl
          obtain rfl := Option.some.inj (hf.symm.trans hf')
          rw [hstart] at hk
          simp at hk
        exact Or.inr (Or.inl ⟨k, f', (edit_ne hnk).trans hf', hk⟩)
      · exact Or.inr (Or.inr hdue)
  · intro g f' hg _ hf'
    obtain rfl := Option.some.inj hg
    obtain rfl := Option.some.inj (hself.symm.trans hf')
    exact hidle
  · intro hs
    rw [hstart] at hs
    simp at hs
  · intro w hw
    rcases List.mem_append.mp hw with hw | hw
    · exact h.writes w hw
    · rw [List.mem_singleton.mp hw]
      exact hbound
  · intro rank hrank
    exact absurd hrank (by simp [PoolAuth.store, PoolAuth.setStatus])

/-- The commit of a flow that is not revoked. -/
theorem Sound.commit (h : s.Sound none) (hf : s.flows[n]? = some f) (hmail : f.finish = .emailing)
    (hcurrent : s.revokedBelow ≤ n) (accountAlias : JsString) : (s.commit n accountAlias).Sound none := by
  have hlast : n + 1 = s.flows.length := h.eq_last hf hcurrent
  have hstart : f.start = .stored := by
    by_contra hs
    rw [(h.each n f hf).starting hs] at hmail
    simp at hmail
  have hown : ∀ g, s.flow = some g → g = n := by
    intro g hg
    have hglast : g + 1 = s.flows.length := h.owner_last hg
    omega
  have hreleased : Sound
      { s.edit n fun f => { f.close with finish := .over, slot := .committed } with flow := none } none :=
    h.release hf hown (fun _ => rfl) (close_listener f) (fun hs => absurd hs (by simp)) (fun hs => absurd hstart hs)
      fun _ => rfl
  -- the flow had not committed before: it was still fetching the email
  have hnew : n ∉ s.commits.map AuthCommit.flow := by
    intro hmem
    obtain ⟨c, hc, rfl⟩ := List.mem_map.mp hmem
    obtain ⟨-, f', hf', -, hover⟩ := h.commits c hc
    obtain rfl := Option.some.inj (hf.symm.trans hf')
    rw [hmail] at hover
    simp at hover
  have hadded : Sound
      { s.edit n fun f => { f.close with finish := .over, slot := .committed } with
        flow := none
        commits := s.commits ++ [⟨n, decide (n < s.revokedBelow)⟩] } none := by
    refine ⟨hreleased.bound, hreleased.last, hreleased.owner, fun m g hg => ?_, hreleased.waiting, ?_, ?_,
      hreleased.writes, hreleased.timer⟩
    · exact (hreleased.each m g hg).mono (fun hcur => hcur) fun hdue => hdue
    · intro c hc
      rcases List.mem_append.mp hc with hc | hc
      · exact hreleased.commits c hc
      · obtain rfl := List.mem_singleton.mp hc
        exact ⟨decide_eq_false (by omega), _, edit_at hf, hstart, rfl⟩
    · show ((s.commits ++ [_]).map AuthCommit.flow).Nodup
      rw [List.map_append, List.map_singleton]
      refine List.nodup_append.mpr ⟨h.once, List.nodup_singleton _, ?_⟩
      rintro a ha b hb rfl
      have han : a = n := List.mem_singleton.mp hb
      exact hnew (han ▸ ha)
  exact hadded.setStatus (hlast ▸ h.bound) fun hp => absurd hp (by simp)

/-- The timer behind a success belongs to the last flow stored. -/
theorem Sound.doneReset (h : s.Sound none) {rank : ℕ} (hrank : s.doneTimer = some rank) :
    Sound (if s.status.phase = .done then
      { s with doneTimer := none, status := .idle, writes := s.writes ++ [⟨rank, s.storedBound⟩] }
      else { s with doneTimer := none }) none := by
  have hstopped : Sound { s with doneTimer := none } none := by
    refine ⟨h.bound, h.last, h.owner, fun m f hf => ?_, h.waiting, h.commits, h.once, h.writes,
      fun _ ht => absurd ht (by simp)⟩
    exact (h.each m f hf).mono (fun hcur => hcur) fun hdue => hdue
  split_ifs with hdone
  · exact hstopped.setStatus (h.timer rank hrank) fun hp => absurd hp (by simp [AuthStatus.idle])
  · exact hstopped

theorem Sound.exchangeFailed (h : s.Sound none) (hf : s.flows[n]? = some f) (hexchanging : f.finish = .exchanging)
    (hbound : s.storedBound ≤ n + 1) (message : JsString) : (s.exchangeFailed n message).Sound none := by
  have hstart : f.start = .stored := by
    by_contra hs
    rw [(h.each n f hf).starting hs] at hexchanging
    simp at hexchanging
  have hover : (s.edit n fun f => { f with finish := .over }).Sound none := by
    refine h.edit_kept hf (fun _ => rfl) (fun hs => absurd hstart hs) (fun hl => hl) (fun hs hstaged => ?_)
      (fun hg hp => ?_) fun _ => rfl
    · rcases (h.each n f hf).slot hs hstaged with hcur | hdue | hmail
      · exact Or.inl hcur
      · exact Or.inr (Or.inl hdue)
      · rw [hexchanging] at hmail
        simp at hmail
    · have hidle := h.waiting n f hg hp hf
      rw [hexchanging] at hidle
      simp at hidle
  exact hover.fail hbound _

theorem Sound.exchanged (h : s.Sound none) (hf : s.flows[n]? = some f) (hexchanging : f.finish = .exchanging)
    {result : ExchangeResult} (hok : s.KeepsFlow (.exchanged n result)) : (s.exchanged n result).Sound none := by
  have hidle : s.flow = some n → s.status.phase ≠ .waiting := by
    intro hg hp
    have hidle := h.waiting n f hg hp hf
    rw [hexchanging] at hidle
    simp at hidle
  cases result with
  | written =>
    refine h.edit_kept hf (fun _ => rfl) (fun hs => ?_) (fun hl => hl) (fun _ _ => Or.inr (Or.inr rfl))
      (fun hg hp => absurd hp (hidle hg)) fun ho => ?_
    · rw [(h.each n f hf).starting hs] at hexchanging
      simp at hexchanging
    · rw [hexchanging] at ho
      simp at ho
  | failed message => exact h.exchangeFailed hf hexchanging hok message
  | unwritten message =>
    have hcur : s.flow = some n := hok
    obtain ⟨-, -, -, -, hbound⟩ := h.owner n hcur
    have hwritten : (s.edit n AuthFlow.writeToken).Sound none :=
      h.edit_kept hf (fun _ => rfl) (h.each n f hf).starting (fun hl => hl) (fun _ _ => Or.inl hcur)
        (fun hg hp => absurd hp (hidle hg)) fun ho => ho
    exact hwritten.exchangeFailed (edit_at hf) hexchanging (le_of_eq hbound) message

/-- A change of a flow whose start is not through: it is not the current one. -/
theorem Sound.edit_starting (h : s.Sound none) (hf : s.flows[n]? = some f) (hunstored : f.start ≠ .stored)
    (hstart : (φ f).start ≠ .stored) (hfinish : (φ f).finish = f.finish) {due : Option ℕ}
    (hdue : ∀ old, f.start = .aborting (some old) → due = some old) : (s.edit n φ).Sound due := by
  have hnot : s.flow ≠ some n := fun hcur => hunstored (h.owner_at hf hcur).1
  refine h.edit hf ⟨fun _ => ?_, fun hs => absurd hs hstart, fun hs => absurd hs hstart⟩ (fun hg => absurd hg hnot)
    (fun hg => absurd hg hnot) (fun hs => absurd hs hunstored) fun m hm hawait => ?_
  · rw [hfinish]
    exact (h.each n f hf).starting hunstored
  · rcases hawait with hawait | ⟨k, g, hg, hk⟩ | hawait
    · exact absurd hawait (by simp)
    · by_cases hnk : n = k
      · subst hnk
        obtain rfl := Option.some.inj (hf.symm.trans hg)
        exact Or.inl (hdue m hk)
      · exact Or.inr (Or.inl ⟨k, g, (edit_ne hnk).trans hg, hk⟩)
    · exact Or.inr (Or.inr hawait)

/-- The step lemma. -/
theorem Sound.step (h : s.Sound none) {a : AuthAction} (hok : s.KeepsFlow a) (hstep : s.step a = some s') :
    s'.Sound none := by
  cases a with
  | begin aliasName state url =>
    obtain rfl := Option.some.inj hstep
    exact h.begin aliasName state url
  | aborted n =>
    obtain ⟨f, hf, hstep⟩ := Option.bind_eq_some_iff.mp hstep
    split at hstep
    next old hstart =>
      obtain rfl := Option.some.inj hstep
      refine Sound.aborted (h.edit_starting hf (by simp [hstart]) (by simp) rfl fun o ho => ?_)
      rw [hstart] at ho
      exact StartStage.aborting.inj ho
    next => simp at hstep
  | bound n ok =>
    obtain ⟨f, hf, hstep⟩ := Option.bind_eq_some_iff.mp hstep
    by_cases hstart : f.start = .binding
    · rw [if_pos hstart] at hstep
      obtain rfl := Option.some.inj hstep
      exact h.edit_starting hf (by simp [hstart]) (by simp) rfl fun o ho => by simp [hstart] at ho
    · rw [if_neg hstart] at hstep
      simp at hstep
  | opened n browserOpened =>
    obtain ⟨f, hf, hstep⟩ := Option.bind_eq_some_iff.mp hstep
    split_ifs at hstep with hstart
    obtain rfl := Option.some.inj hstep
    exact h.store hf hstart hok browserOpened
  | submitCode parsed =>
    obtain rfl := Option.some.inj hstep
    exact h.submitCode parsed
  | callback n returnedState =>
    obtain ⟨f, hf, hstep⟩ := Option.bind_eq_some_iff.mp hstep
    split_ifs at hstep with hopen
    obtain rfl := Option.some.inj hstep
    have hcur : s.flow = some n := (h.each n f hf).listening hopen.1 hopen.2
    refine (h.settleListener hf).finishWithCode (fun g hg => ?_) returnedState
    obtain rfl := Option.some.inj (hcur.symm.trans hg)
    exact Nat.lt_succ_self n
  | rejected n message =>
    obtain ⟨f, hf, hstep⟩ := Option.bind_eq_some_iff.mp hstep
    split_ifs at hstep with hopen
    obtain rfl := Option.some.inj hstep
    have hcur : s.flow = some n := (h.each n f hf).listening hopen.1 hopen.2
    obtain ⟨-, -, -, -, hbound⟩ := h.owner n hcur
    show Sound (if s.flow = some n then _ else _) none
    rw [if_pos hcur]
    exact (h.settleListener hf).fail (le_of_eq hbound) _
  | exchanged n result =>
    obtain ⟨f, hf, hstep⟩ := Option.bind_eq_some_iff.mp hstep
    split_ifs at hstep with hexchanging
    obtain rfl := Option.some.inj hstep
    exact h.exchanged hf hexchanging hok
  | emailed n accountAlias =>
    obtain ⟨f, hf, hstep⟩ := Option.bind_eq_some_iff.mp hstep
    split_ifs at hstep with hmail
    obtain rfl := Option.some.inj hstep
    exact h.commit hf hmail hok accountAlias
  | cancel =>
    obtain rfl := Option.some.inj hstep
    exact h.cancel
  | cancelled i =>
    obtain ⟨c, hc, rfl⟩ := Option.map_eq_some_iff.mp hstep
    exact h.cancelled hc (hok c hc)
  | doneReset =>
    obtain ⟨rank, hrank, rfl⟩ := Option.map_eq_some_iff.mp hstep
    exact h.doneReset hrank

end Invariant

/-! ### The runs -/

theorem init_sound : init.Sound none where
  bound := le_refl 0
  last := Nat.zero_le 1
  owner := fun _ hg => absurd hg (by simp [init])
  each := fun _ _ hf => absurd hf (by simp [init])
  waiting := fun _ _ hg => absurd hg (by simp [init])
  commits := fun _ hc => absurd hc List.not_mem_nil
  once := List.nodup_nil
  writes := fun _ hw => absurd hw List.not_mem_nil
  timer := fun _ ht => absurd ht (by simp [init])

/-- The run lemma. -/
theorem run_sound {as : List AuthAction} {s : PoolAuth} (hok : Every PoolAuth.step KeepsFlow init as)
    (h : exec PoolAuth.step init as = some s) : s.Sound none :=
  exec_invariant (fun _ _ _ hs ha hstep => Sound.step hs ha hstep) as init s init_sound hok h

/-- **A flow that lost its turn writes nothing**: in every run whose continuations all still own what they
write, no flow commits after it was cancelled or superseded, none commits twice, none changes the flow or the
status of a later one, and the slot of a flow that has ended is committed or cleaned up. -/
theorem flows_owned {as : List AuthAction} {s : PoolAuth} (hok : Every PoolAuth.step KeepsFlow init as)
    (h : exec PoolAuth.step init as = some s) : s.CommitsOwned ∧ s.CommitsOnce ∧ s.WritesOwned ∧ s.SlotsSettled := by
  have hsound : s.Sound none := run_sound hok h
  refine ⟨fun c hc => (hsound.commits c hc).1, hsound.once, hsound.writes, fun n f hf hended hstaged => ?_⟩
  rcases (hsound.each n f hf).slot hended.started hstaged with hcur | hdue | hmail
  · exact hended.released hcur
  · exact hended.aborted hdue
  · rcases hended.finished with hidle | hover
    · rw [hidle] at hmail
      simp at hmail
    · rw [hover] at hmail
      simp at hmail

/-! ### A login, and one that is cancelled during its exchange -/

def loginUntilExchange : List AuthAction :=
  [.begin none (js "st-0") (js "https://accounts.google.com/o/oauth2/v2/auth"), .aborted 0, .bound 0 false,
    .opened 0 true, .submitCode (some ⟨js "4/1AfValidLookingCode", none⟩)]

/-- A paste in manual mode. -/
def pastedLogin : List AuthAction :=
  loginUntilExchange ++ [.exchanged 0 .written, .emailed 0 (js "备用 Google 账号 1"), .doneReset]

theorem flows_owned_pasted : ∃ s, exec PoolAuth.step init pastedLogin = some s ∧ s.commits = [⟨0, false⟩] ∧
    s.CommitsOwned ∧ s.CommitsOnce ∧ s.WritesOwned ∧ s.SlotsSettled := by
  have hok : Every PoolAuth.step KeepsFlow init pastedLogin := by decide +kernel
  exact ⟨_, rfl, by decide +kernel, flows_owned hok rfl⟩

/-- A cancel while the exchange runs: the flow commits its account all the same. -/
theorem not_commits_owned_cancelled : ¬∀ as s, exec PoolAuth.step init as = some s →
    s.CommitsOwned ∧ s.CommitsOnce ∧ s.WritesOwned ∧ s.SlotsSettled := by
  intro hall
  have hrun := hall (loginUntilExchange ++ [.cancel, .exchanged 0 .written, .emailed 0 (js "备用 Google 账号 1")]) _ rfl
  have howned := hrun.1 ⟨0, true⟩ (by decide +kernel)
  exact absurd howned (by decide)

end PoolAuth

end AgyProxy
