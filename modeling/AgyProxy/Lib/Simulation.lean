import AgyProxy.Lib.Machine

/-!
# AgyProxy.Lib.Simulation — one machine follows another

* `exec_simulation`: each step of a machine is either matched by a step of the other or changes nothing that the
  other can see; then the other follows a whole run, action by action.
-/

namespace AgyProxy.Lib

section Simulation

variable {S T A B : Type}

/-- What the second machine does for a step of the first into `s'`: the action it amounts to, if to any. -/
def Follows (step' : T → B → Option T) (R : S → T → Prop) (s' : S) (t : T) : Option B → Prop
  | none => R s' t
  | some b => ∃ t', step' t b = some t' ∧ R s' t'

variable {step : S → A → Option S} {step' : T → B → Option T} {ok : S → A → Prop} {R : S → T → Prop}
  {view : A → Option B}

/-- **Simulation rule**: `view` tells which action of the second machine a step of the first amounts to. -/
theorem exec_simulation
    (hstep : ∀ s t a s', R s t → ok s a → step s a = some s' → Follows step' R s' t (view a)) :
    ∀ (as : List A) (s s' : S) (t : T), R s t → Every step ok s as → exec step s as = some s' →
      ∃ t', exec step' t (as.filterMap view) = some t' ∧ R s' t'
  | [], s, s', t, hR, _, h => by
    obtain rfl : s = s' := Option.some.inj h
    exact ⟨t, rfl, hR⟩
  | a :: as, s, s', t, hR, hok, h => by
    obtain ⟨u, hu, h'⟩ := exec_cons h
    have hfollows := hstep s t a u hR hok.1 hu
    cases hview : view a with
    | none =>
      rw [hview] at hfollows
      rw [List.filterMap_cons_none hview]
      exact exec_simulation hstep as u s' t hfollows (hok.2 u hu) h'
    | some b =>
      rw [hview] at hfollows
      obtain ⟨v, hv, hR'⟩ := hfollows
      obtain ⟨t', ht', hfinal⟩ := exec_simulation hstep as u s' v hR' (hok.2 u hu) h'
      refine ⟨t', ?_, hfinal⟩
      rw [List.filterMap_cons_some hview, exec, hv]
      exact ht'

end Simulation

end AgyProxy.Lib
