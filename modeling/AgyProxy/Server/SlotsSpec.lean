import AgyProxy.Server.BusyMarks
import AgyProxy.Server.SemaphoreSpec

/-!
# AgyProxy.Server.SlotsSpec — whose slots the semaphore has given away

* `GatewaySemaphore.Spares`: what an operation of the semaphore leaves to the tickets it is not about.
* `Slots`: every slot and every place in the queue has its live call; `Slots.set` keeps this over one call's step.
* `Returned`: the slots of the ended calls went back, each once; `Returned.keep` and `Returned.giveBack`.
-/

namespace AgyProxy

open Js Lib

/-! ### The tickets of the semaphore -/

namespace GatewaySemaphore

/-- The acquire holds a slot or waits for one. -/
def Engaged (s : GatewaySemaphore) (ticket : ℕ) : Prop :=
  ticket ∈ s.held ∨ ticket ∈ s.waiting.map Waiter.ticket

/-- What an operation leaves to the tickets in `P`. -/
structure Spares (P : ℕ → Prop) (s s' : GatewaySemaphore) : Prop where
  tickets : s.tickets ≤ s'.tickets
  held : ∀ t, P t → t ∈ s.held → t ∈ s'.held
  waiting : ∀ t, P t → t ∈ s.waiting.map Waiter.ticket → s'.Engaged t ∨ (t, .aborted) ∈ s'.settlements
  aborted : ∀ t, (t, Settlement.aborted) ∈ s.settlements → (t, .aborted) ∈ s'.settlements
  engaged : ∀ t, P t → s'.Engaged t → s.Engaged t

section Spares

variable {P : ℕ → Prop} {s s' s'' : GatewaySemaphore}

theorem Spares.refl (P : ℕ → Prop) (s : GatewaySemaphore) : Spares P s s :=
  ⟨le_rfl, fun _ _ ht => ht, fun _ _ ht => Or.inl (Or.inr ht), fun _ ht => ht, fun _ _ ht => ht⟩

theorem Spares.trans (h : Spares P s s') (h' : Spares P s' s'') : Spares P s s'' where
  tickets := h.tickets.trans h'.tickets
  held t hP ht := h'.held t hP (h.held t hP ht)
  waiting t hP ht := by
    rcases h.waiting t hP ht with (hheld | hwaiting) | haborted
    · exact Or.inl (Or.inl (h'.held t hP hheld))
    · exact h'.waiting t hP hwaiting
    · exact Or.inr (h'.aborted t haborted)
  aborted t ht := h'.aborted t (h.aborted t ht)
  engaged t hP ht := h.engaged t hP (h'.engaged t hP ht)

theorem spares_acquire (s : GatewaySemaphore) (signal : Option ℕ) :
    Spares (fun t => t ≠ s.tickets) s (s.acquire signal) := by
  rcases s.acquire_eq signal with ⟨-, -, h⟩ | ⟨-, -, -, h⟩ | ⟨-, h⟩
  · rw [h]
    exact { Spares.refl _ s with tickets := Nat.le_succ _ }
  · have hwaiting : (s.acquire signal).waiting.map Waiter.ticket = s.waiting.map Waiter.ticket ++ [s.tickets] := by
      rw [h]
      exact List.map_append
    have hheld : (s.acquire signal).held = s.held := by rw [h]; rfl
    refine ⟨?_, fun t _ ht => hheld ▸ ht, fun t _ ht => ?_, fun t ht => ?_, fun t hne ht => ?_⟩
    · rw [h]
      exact Nat.le_succ _
    · exact Or.inl (Or.inr (hwaiting ▸ List.mem_append_left _ ht))
    · rw [h]
      exact ht
    · refine ht.imp (fun ht => hheld ▸ ht) fun ht => ?_
      rw [hwaiting] at ht
      exact (List.mem_append.mp ht).resolve_right fun ht => hne (List.mem_singleton.mp ht)
  · have hheld : (s.acquire signal).held = s.held ++ [s.tickets] := by rw [h]; rfl
    have hwaiting : (s.acquire signal).waiting = s.waiting := by rw [h]; rfl
    refine ⟨?_, fun t _ ht => hheld ▸ List.mem_append_left _ ht, fun t _ ht => ?_, fun t ht => ?_, fun t hne ht => ?_⟩
    · rw [h]
      exact Nat.le_succ _
    · exact Or.inl (Or.inr (hwaiting ▸ ht))
    · rw [h]
      exact ht
    · refine ht.imp (fun ht => ?_) fun ht => hwaiting ▸ ht
      rw [hheld] at ht
      exact (List.mem_append.mp ht).resolve_right fun ht => hne (List.mem_singleton.mp ht)

theorem spares_release (hs : s.Inv) (ticket : ℕ) : Spares (fun t => t ≠ ticket) s (s.release ticket) := by
  rcases release_eq hs ticket with ⟨w, rest, hw, h⟩ | ⟨hw, h⟩
  · rw [h]
    refine ⟨le_rfl, fun t hne ht => ?_, fun t _ ht => ?_, fun t ht => List.mem_append_left _ ht, fun t _ ht => ?_⟩
    · exact List.mem_append_left _ ((List.mem_erase_of_ne hne).mpr ht)
    · rw [hw, List.map_cons] at ht
      rcases List.mem_cons.mp ht with rfl | ht
      · exact Or.inl (Or.inl (List.mem_append_right _ List.mem_cons_self))
      · exact Or.inl (Or.inr ht)
    · unfold Engaged
      rw [hw, List.map_cons]
      rcases ht with ht | ht
      · rcases List.mem_append.mp ht with ht | ht
        · exact Or.inl (List.mem_of_mem_erase ht)
        · exact Or.inr (List.mem_singleton.mp ht ▸ List.mem_cons_self)
      · exact Or.inr (List.mem_cons_of_mem _ ht)
  · rw [h]
    refine ⟨le_rfl, fun t hne ht => ?_, fun t _ ht => ?_, fun t ht => ht, fun t _ ht => ?_⟩
    · exact (List.mem_erase_of_ne hne).mpr ht
    · rw [hw] at ht
      exact absurd ht List.not_mem_nil
    · exact ht.imp List.mem_of_mem_erase fun ht => absurd ht List.not_mem_nil

/-- The ticket whose slot is given back is done with. -/
theorem not_engaged_release (hs : s.Inv) {ticket : ℕ} (hheld : ticket ∈ s.held) :
    ¬(s.release ticket).Engaged ticket := by
  have herase : ticket ∉ s.held.erase ticket := hs.held_nodup.not_mem_erase
  have hwaits : ∀ w ∈ s.waiting, ticket ≠ w.ticket := fun w hw heq => hs.waiting_not_held w hw (heq ▸ hheld)
  rcases release_eq hs ticket with ⟨w, rest, hw, h⟩ | ⟨hw, h⟩
  · rw [h]
    rw [hw] at hwaits
    rintro (ht | ht)
    · rcases List.mem_append.mp ht with ht | ht
      · exact herase ht
      · exact hwaits w List.mem_cons_self (List.mem_singleton.mp ht)
    · obtain ⟨v, hv, hticket⟩ := List.mem_map.mp ht
      exact hwaits v (List.mem_cons_of_mem _ hv) hticket.symm
  · rw [h]
    rintro (ht | ht)
    · exact herase ht
    · exact absurd ht List.not_mem_nil

theorem spares_onAbort (s : GatewaySemaphore) (w : Waiter) : Spares (fun _ => True) s (s.onAbort w) := by
  unfold onAbort
  split_ifs with hset
  · exact Spares.refl _ s
  · refine ⟨le_rfl, fun t _ ht => ht, fun t _ ht => ?_, fun t ht => List.mem_append_left _ ht, fun t _ ht => ?_⟩
    · obtain ⟨v, hv, rfl⟩ := List.mem_map.mp ht
      by_cases hvw : v = w
      · exact Or.inr (hvw ▸ List.mem_append_right _ List.mem_cons_self)
      · exact Or.inl (Or.inr (List.mem_map_of_mem ((List.mem_erase_of_ne hvw).mpr hv)))
    · exact ht.imp_right fun ht => List.map_subset _ List.erase_subset ht

theorem spares_foldl_onAbort : ∀ (ws : List Waiter) (s : GatewaySemaphore),
    Spares (fun _ => True) s (ws.foldl GatewaySemaphore.onAbort s)
  | [], s => Spares.refl _ s
  | w :: ws, s => (spares_onAbort s w).trans (spares_foldl_onAbort ws (s.onAbort w))

theorem spares_abort (s : GatewaySemaphore) (signal : ℕ) : Spares (fun _ => True) s (s.abort signal) := by
  unfold abort
  split_ifs with hfired
  · exact Spares.refl _ s
  · exact { spares_foldl_onAbort (s.listeners.filter fun w => w.signal = some signal) s with }

end Spares

end GatewaySemaphore

/-! ### The slots of the calls -/

/-- The acquire of a call, when it got past the refusal. -/
def StreamStage.ticket : StreamStage → Option ℕ
  | .parked ticket => some ticket
  | stage => stage.slot

/-- A call that is past its acquire holds its slot, and one that waits is in the queue, has its slot or was dropped. -/
def Placed (sem : GatewaySemaphore) : StreamStage → Prop
  | .parked ticket => sem.Engaged ticket ∨ (ticket, .aborted) ∈ sem.settlements
  | .admitted ticket => ticket ∈ sem.held
  | .dispatching ticket _ => ticket ∈ sem.held
  | _ => True

theorem Placed.spares {P : ℕ → Prop} {sem sem' : GatewaySemaphore} (h : GatewaySemaphore.Spares P sem sem')
    {stage : StreamStage} (hP : ∀ t, stage.ticket = some t → P t) (hs : Placed sem stage) : Placed sem' stage := by
  cases stage with
  | parked t =>
    rcases hs with (hheld | hwaiting) | haborted
    · exact Or.inl (Or.inl (h.held t (hP t rfl) hheld))
    · exact h.waiting t (hP t rfl) hwaiting
    · exact Or.inr (h.aborted t haborted)
  | admitted t => exact h.held t (hP t rfl) hs
  | dispatching t d => exact h.held t (hP t rfl) hs
  | preparing => trivial
  | rejected => trivial
  | ended slot => trivial

theorem Placed.of_slot {sem : GatewaySemaphore} {stage : StreamStage} (h : Placed sem stage)
    (hlive : stage.isLive = true) {t : ℕ} (ht : stage.slot = some t) : t ∈ sem.held := by
  cases stage with
  | admitted t' =>
    obtain rfl := Option.some.inj ht
    exact h
  | dispatching t' d =>
    obtain rfl := Option.some.inj ht
    exact h
  | ended slot => cases hlive
  | preparing => cases ht
  | parked t' => cases ht
  | rejected => cases ht

theorem StreamStage.ticket_of_slot {stage : StreamStage} {t : ℕ} (h : stage.slot = some t) :
    stage.ticket = some t := by
  cases stage with
  | parked t' => cases h
  | _ => exact h

/-- Every slot and every place in the queue has its call. -/
structure Slots (sem : GatewaySemaphore) (calls : List StreamCall) : Prop where
  bookkeeping : sem.Inv
  unique : ∀ (i j : ℕ) (c d : StreamCall) (t : ℕ), calls[i]? = some c → calls[j]? = some d →
    c.stage.ticket = some t → d.stage.ticket = some t → i = j
  ticket_lt : ∀ c ∈ calls, ∀ t, c.stage.ticket = some t → t < sem.tickets
  placed : ∀ c ∈ calls, Placed sem c.stage
  owned : ∀ t, sem.Engaged t → ∃ c ∈ calls, c.stage.isLive = true ∧ c.stage.ticket = some t

/-- The slots of the ended calls went back, each once. -/
structure Returned (calls : List StreamCall) (released : List ℕ) : Prop where
  once : ∀ c ∈ calls, ∀ t, c.stage.slot = some t → released.count t = if c.stage.isLive then 0 else 1
  ended : ∀ t ∈ released, ∃ c ∈ calls, c.stage = .ended (some t)

/-- A member of an updated list is the new one or an old one at another place. -/
theorem mem_set_cases {C : Type} {cs : List C} {i : ℕ} {c' x : C} (h : x ∈ cs.set i c') :
    x = c' ∨ ∃ j, j ≠ i ∧ cs[j]? = some x := by
  obtain ⟨j, hj⟩ := List.mem_iff_getElem?.mp h
  rw [List.getElem?_set] at hj
  split_ifs at hj with hij hlt
  · exact Or.inl (Option.some.inj hj).symm
  · exact Or.inr ⟨j, Ne.symm hij, hj⟩

theorem mem_set_of_ne {C : Type} {cs : List C} {i j : ℕ} {x : C} (c' : C) (hj : cs[j]? = some x) (hne : j ≠ i) :
    x ∈ cs.set i c' :=
  List.mem_iff_getElem?.mpr ⟨j, by rw [List.getElem?_set_ne (Ne.symm hne), hj]⟩

theorem mem_set_self {C : Type} {cs : List C} {i : ℕ} {c : C} (hi : cs[i]? = some c) (c' : C) : c' ∈ cs.set i c' :=
  List.mem_iff_getElem?.mpr ⟨i, List.getElem?_set_self (List.getElem?_eq_some_iff.mp hi).1⟩

section Slots

variable {sem sem' : GatewaySemaphore} {calls : List StreamCall} {released : List ℕ} {i : ℕ} {c c' : StreamCall}

/-- A live call's acquire has nothing given back yet, nor has one still to come. -/
theorem Slots.not_mem_released (hs : Slots sem calls) (hr : Returned calls released) (hi : calls[i]? = some c)
    (hlive : c.stage.isLive = true) {t : ℕ} (ht : c.stage.ticket = some t ∨ sem.tickets ≤ t) : t ∉ released := by
  intro hmem
  obtain ⟨d, hd, hended⟩ := hr.ended t hmem
  have hticket : d.stage.ticket = some t := by rw [hended]; rfl
  rcases ht with ht | ht
  · obtain ⟨j, hj⟩ := List.mem_iff_getElem?.mp hd
    obtain rfl := hs.unique i j c d t hi hj ht hticket
    obtain rfl := Option.some.inj (hi.symm.trans hj)
    rw [hended] at hlive
    cases hlive
  · exact absurd (hs.ticket_lt d hd t hticket) (not_lt.mpr ht)

/-- An operation of the semaphore about the acquire of one call, and the call's own step. -/
theorem Slots.set (hs : Slots sem calls) (hi : calls[i]? = some c) {P : ℕ → Prop} (hinv : sem'.Inv)
    (hspares : GatewaySemaphore.Spares P sem sem')
    (hP : ∀ t, P t ∨ c.stage.ticket = some t ∨ sem.tickets ≤ t)
    (hticket : ∀ t, c'.stage.ticket = some t → c.stage.ticket = some t ∨ t = sem.tickets ∧ t < sem'.tickets)
    (hplaced : Placed sem' c'.stage)
    (hkept : ∀ t, sem'.Engaged t → c.stage.ticket = some t ∨ ¬P t →
      c'.stage.isLive = true ∧ c'.stage.ticket = some t) : Slots sem' (calls.set i c') := by
  have hother : ∀ j d t, j ≠ i → calls[j]? = some d → d.stage.ticket = some t →
      c.stage.ticket ≠ some t ∧ t < sem.tickets := by
    intro j d t hne hj ht
    exact ⟨fun hc => hne (hs.unique j i d c t hj hi ht hc), hs.ticket_lt d (List.mem_of_getElem? hj) t ht⟩
  have hfresh : ∀ j d t, j ≠ i → calls[j]? = some d → d.stage.ticket = some t → c'.stage.ticket ≠ some t := by
    intro j d t hne hj ht hc'
    obtain ⟨hown, hlt⟩ := hother j d t hne hj ht
    rcases hticket t hc' with h | ⟨rfl, -⟩
    · exact hown h
    · exact lt_irrefl _ hlt
  refine ⟨hinv, ?_, ?_, ?_, ?_⟩
  · intro j k d e t hj hk hd he
    rw [List.getElem?_set] at hj hk
    split_ifs at hj with hij hlt
    · obtain rfl := Option.some.inj hj
      split_ifs at hk with hik
      · exact hij.symm.trans hik
      · exact absurd hd (hfresh k e t (Ne.symm hik) hk he)
    · split_ifs at hk with hik
      · obtain rfl := Option.some.inj hk
        exact absurd he (hfresh j d t (Ne.symm hij) hj hd)
      · exact hs.unique j k d e t hj hk hd he
  · intro d hd t ht
    rcases mem_set_cases hd with rfl | ⟨j, -, hj⟩
    · rcases hticket t ht with h | ⟨-, hlt⟩
      · exact (hs.ticket_lt c (List.mem_of_getElem? hi) t h).trans_le hspares.tickets
      · exact hlt
    · exact (hs.ticket_lt d (List.mem_of_getElem? hj) t ht).trans_le hspares.tickets
  · intro d hd
    rcases mem_set_cases hd with rfl | ⟨j, hne, hj⟩
    · exact hplaced
    · refine (hs.placed d (List.mem_of_getElem? hj)).spares hspares fun t ht => ?_
      obtain ⟨hown, hlt⟩ := hother j d t hne hj ht
      exact (hP t).resolve_right (not_or.mpr ⟨hown, not_le.mpr hlt⟩)
  · intro t ht
    by_cases hc : c.stage.ticket = some t ∨ ¬P t
    · obtain ⟨hlive, hticket'⟩ := hkept t ht hc
      exact ⟨c', mem_set_self hi c', hlive, hticket'⟩
    · obtain ⟨hown, hPt⟩ := not_or.mp hc
      obtain ⟨d, hd, hlive, hdt⟩ := hs.owned t (hspares.engaged t (not_not.mp hPt) ht)
      obtain ⟨j, hj⟩ := List.mem_iff_getElem?.mp hd
      have hne : j ≠ i := by
        rintro rfl
        obtain rfl := Option.some.inj (hi.symm.trans hj)
        exact hown hdt
      exact ⟨d, mem_set_of_ne c' hj hne, hlive, hdt⟩

/-- An operation of the semaphore that is about no call. -/
theorem Slots.operate (hs : Slots sem calls) (hinv : sem'.Inv)
    (hspares : GatewaySemaphore.Spares (fun _ => True) sem sem') : Slots sem' calls where
  bookkeeping := hinv
  unique := hs.unique
  ticket_lt d hd t ht := (hs.ticket_lt d hd t ht).trans_le hspares.tickets
  placed d hd := (hs.placed d hd).spares hspares fun _ _ => trivial
  owned t ht := hs.owned t (hspares.engaged t trivial ht)

/-- A call that is new. -/
theorem Slots.concat (hs : Slots sem calls) (hc : c.stage = .preparing) : Slots sem (calls ++ [c]) := by
  have hnone : ∀ t, c.stage.ticket ≠ some t := fun t ht => by
    rw [hc] at ht
    cases ht
  have hold : ∀ (j : ℕ) (d : StreamCall) (t : ℕ), (calls ++ [c])[j]? = some d → d.stage.ticket = some t →
      calls[j]? = some d := by
    intro j d t hj hd
    rw [List.getElem?_append] at hj
    split_ifs at hj with hlt
    · exact hj
    · obtain rfl := List.mem_singleton.mp (List.mem_of_getElem? hj)
      exact absurd hd (hnone t)
  refine ⟨hs.bookkeeping, ?_, ?_, ?_, ?_⟩
  · intro j k d e t hj hk hd he
    exact hs.unique j k d e t (hold j d t hj hd) (hold k e t hk he) hd he
  · intro d hd t ht
    rcases List.mem_append.mp hd with hd | hd
    · exact hs.ticket_lt d hd t ht
    · obtain rfl := List.mem_singleton.mp hd
      exact absurd ht (hnone t)
  · intro d hd
    rcases List.mem_append.mp hd with hd | hd
    · exact hs.placed d hd
    · rw [List.mem_singleton.mp hd, hc]
      trivial
  · intro t ht
    obtain ⟨d, hd, hticket⟩ := hs.owned t ht
    exact ⟨d, List.mem_append_left _ hd, hticket⟩

/-- Calls changed in a way that leaves where they stand. -/
theorem Slots.map (hs : Slots sem calls) {g : StreamCall → StreamCall}
    (hlive : ∀ c, (g c).stage.isLive = c.stage.isLive) (hticket : ∀ c, (g c).stage.ticket = c.stage.ticket)
    (hplaced : ∀ c, Placed sem c.stage → Placed sem (g c).stage) : Slots sem (calls.map g) := by
  refine ⟨hs.bookkeeping, ?_, ?_, ?_, ?_⟩
  · intro j k d e t hj hk hd he
    rw [List.getElem?_map] at hj hk
    obtain ⟨d, hj', rfl⟩ := Option.map_eq_some_iff.mp hj
    obtain ⟨e, hk', rfl⟩ := Option.map_eq_some_iff.mp hk
    exact hs.unique j k d e t hj' hk' ((hticket d).symm.trans hd) ((hticket e).symm.trans he)
  · intro d hd t ht
    obtain ⟨d, hd', rfl⟩ := List.mem_map.mp hd
    exact hs.ticket_lt d hd' t ((hticket d).symm.trans ht)
  · intro d hd
    obtain ⟨d, hd', rfl⟩ := List.mem_map.mp hd
    exact hplaced d (hs.placed d hd')
  · intro t ht
    obtain ⟨d, hd, hl, hdt⟩ := hs.owned t ht
    exact ⟨g d, List.mem_map_of_mem hd, (hlive d).trans hl, (hticket d).trans hdt⟩

theorem Returned.concat (hr : Returned calls released) (hc : c.stage = .preparing) :
    Returned (calls ++ [c]) released := by
  constructor
  · intro d hd t ht
    rcases List.mem_append.mp hd with hd | hd
    · exact hr.once d hd t ht
    · rw [List.mem_singleton.mp hd, hc] at ht
      cases ht
  · intro t ht
    obtain ⟨d, hd, hended⟩ := hr.ended t ht
    exact ⟨d, List.mem_append_left _ hd, hended⟩

theorem Returned.map (hr : Returned calls released) {g : StreamCall → StreamCall}
    (hlive : ∀ c, (g c).stage.isLive = c.stage.isLive) (hslot : ∀ c, (g c).stage.slot = c.stage.slot)
    (hended : ∀ c, c.stage.isLive = false → g c = c) : Returned (calls.map g) released := by
  constructor
  · intro d hd t ht
    obtain ⟨d, hd', rfl⟩ := List.mem_map.mp hd
    rw [hlive d]
    exact hr.once d hd' t ((hslot d).symm.trans ht)
  · intro t ht
    obtain ⟨d, hd, hstage⟩ := hr.ended t ht
    have hsame : g d = d := hended d (by rw [hstage]; rfl)
    exact ⟨d, List.mem_map.mpr ⟨d, hd, hsame⟩, hstage⟩

/-- The ended calls stay where they are. -/
theorem Returned.stay (hr : Returned calls released) (hi : calls[i]? = some c) (hlive : c.stage.isLive = true)
    (c' : StreamCall) {t : ℕ} (ht : t ∈ released) : ∃ d ∈ calls.set i c', d.stage = .ended (some t) := by
  obtain ⟨d, hd, hended⟩ := hr.ended t ht
  obtain ⟨j, hj⟩ := List.mem_iff_getElem?.mp hd
  have hne : j ≠ i := by
    rintro rfl
    obtain rfl := Option.some.inj (hi.symm.trans hj)
    rw [hended] at hlive
    cases hlive
  exact ⟨d, mem_set_of_ne c' hj hne, hended⟩

/-- A call that goes on, or ends without a slot. -/
theorem Returned.keep (hr : Returned calls released) (hs : Slots sem calls) (hi : calls[i]? = some c)
    (hlive : c.stage.isLive = true)
    (hslot : ∀ t, c'.stage.slot = some t → c'.stage.isLive = true ∧ (c.stage.ticket = some t ∨ sem.tickets ≤ t)) :
    Returned (calls.set i c') released := by
  constructor
  · intro d hd t ht
    rcases mem_set_cases hd with rfl | ⟨j, -, hj⟩
    · obtain ⟨hlive', hticket⟩ := hslot t ht
      rw [hlive', if_pos rfl]
      exact List.count_eq_zero.mpr (hs.not_mem_released hr hi hlive hticket)
    · exact hr.once d (List.mem_of_getElem? hj) t ht
  · exact fun t ht => hr.stay hi hlive c' ht

/-- A call that gives its slot back. -/
theorem Returned.giveBack (hr : Returned calls released) (hs : Slots sem calls) (hi : calls[i]? = some c)
    (hlive : c.stage.isLive = true) {t : ℕ} (hslot : c.stage.slot = some t) (hended : c'.stage = .ended (some t)) :
    Returned (calls.set i c') (released ++ [t]) := by
  have hticket := StreamStage.ticket_of_slot hslot
  constructor
  · intro d hd t' ht'
    rw [List.count_append, List.count_singleton]
    rcases mem_set_cases hd with rfl | ⟨j, hne, hj⟩
    · rw [hended] at ht' ⊢
      obtain rfl := Option.some.inj ht'
      rw [List.count_eq_zero.mpr (hs.not_mem_released hr hi hlive (Or.inl hticket)), if_pos (beq_self_eq_true t)]
      rfl
    · have hother : t ≠ t' := by
        rintro rfl
        exact hne (hs.unique j i d c t hj hi (StreamStage.ticket_of_slot ht') hticket)
      rw [if_neg (by simpa using hother), Nat.add_zero]
      exact hr.once d (List.mem_of_getElem? hj) t' ht'
  · intro t' ht'
    rcases List.mem_append.mp ht' with ht' | ht'
    · exact hr.stay hi hlive c' ht'
    · rw [List.mem_singleton.mp ht']
      exact ⟨c', mem_set_self hi c', hended⟩

end Slots

end AgyProxy
