import Mathlib.Data.List.Basic

/-!
# AgyProxy.Lib.Resume — sequences of steps that can be cut short and started again

* `Redoable`: a step with the condition it establishes, in which it does nothing.
* `Steady`: steps that get done one behind the other, and do not undo one another.
* `Steady.runAll_taken`: **what was done before the cut is not done again**: the whole sequence after some of its steps
  comes to the same as the whole sequence.
-/

namespace AgyProxy.Lib

/-- A step, and when it has nothing to do. -/
structure Redoable (S : Type) where
  run : S → S
  done : S → Prop
  idle : ∀ s, done s → run s = s

section Resume

variable {S : Type} {I P : S → Prop} {tasks : List (Redoable S)} {s : S}

/-- The steps one after the other. -/
def runAll (tasks : List (Redoable S)) (s : S) : S := tasks.foldl (fun s t => t.run s) s

/-- Each step gets done behind the ones before it. -/
def Does (I : S → Prop) : List (Redoable S) → Prop
  | [] => True
  | t :: ts => (∀ s, I s → t.done (t.run s)) ∧ Does (fun s => I s ∧ t.done s) ts

structure Steady (I : S → Prop) (tasks : List (Redoable S)) : Prop where
  keeps : ∀ t ∈ tasks, ∀ s, I s → I (t.run s)
  does : Does I tasks
  stays : ∀ t ∈ tasks, ∀ u ∈ tasks, ∀ s, t.done s → t.done (u.run s)

theorem runAll_append (ts us : List (Redoable S)) (s : S) : runAll (ts ++ us) s = runAll us (runAll ts s) :=
  List.foldl_append

theorem runAll_keeps (h : ∀ t ∈ tasks, ∀ s, P s → P (t.run s)) (hs : P s) : P (runAll tasks s) := by
  induction tasks generalizing s with
  | nil => exact hs
  | cons t ts ih => exact ih (fun u hu => h u (List.mem_cons_of_mem t hu)) (h t List.mem_cons_self s hs)

theorem Redoable.again (t : Redoable S) (h : t.done s) : t.done (t.run s) := by
  rw [t.idle s h]
  exact h

/-- Steps that are done do nothing. -/
theorem runAll_idle (h : ∀ t ∈ tasks, t.done s) : runAll tasks s = s := by
  induction tasks with
  | nil => rfl
  | cons t ts ih =>
    show runAll ts (t.run s) = s
    rw [t.idle s (h t List.mem_cons_self)]
    exact ih fun u hu => h u (List.mem_cons_of_mem t hu)

/-- After some of the steps, these are done. -/
theorem Steady.done_taken (h : Steady I tasks) (hs : I s) (k : ℕ) :
    ∀ t ∈ tasks.take k, t.done (runAll (tasks.take k) s) := by
  induction tasks generalizing I s k with
  | nil => simp
  | cons t ts ih =>
    cases k with
    | zero => simp
    | succ k =>
      have hfirst : t.done (t.run s) := h.does.1 s hs
      have hlater : ∀ u ∈ ts.take k, u ∈ t :: ts := fun u hu => List.mem_cons_of_mem t (List.mem_of_mem_take hu)
      have hrest : Steady (fun s => I s ∧ t.done s) ts := by
        refine ⟨fun u hu s hs => ⟨?_, ?_⟩, h.does.2, fun u hu v hv => ?_⟩
        · exact h.keeps u (List.mem_cons_of_mem t hu) s hs.1
        · exact h.stays t List.mem_cons_self u (List.mem_cons_of_mem t hu) s hs.2
        · exact h.stays u (List.mem_cons_of_mem t hu) v (List.mem_cons_of_mem t hv)
      rw [List.take_succ_cons]
      show ∀ u ∈ t :: ts.take k, u.done (runAll (ts.take k) (t.run s))
      intro u hu
      rcases List.mem_cons.mp hu with rfl | hu
      · exact runAll_keeps (fun v hv => h.stays u List.mem_cons_self v (hlater v hv)) hfirst
      · exact ih hrest ⟨h.keeps t List.mem_cons_self s hs, hfirst⟩ k u hu

/-- After all of them, all are done. -/
theorem Steady.done_all (h : Steady I tasks) (hs : I s) : ∀ t ∈ tasks, t.done (runAll tasks s) := by
  have htaken := h.done_taken hs tasks.length
  rwa [List.take_length] at htaken

/-- **What was done before the cut** is not done again. -/
theorem Steady.runAll_taken (h : Steady I tasks) (hs : I s) (k : ℕ) :
    runAll tasks (runAll (tasks.take k) s) = runAll tasks s := by
  have hdone : ∀ t ∈ tasks.take k, t.done (runAll (tasks.take k) s) := h.done_taken hs k
  have hsplit : ∀ u, runAll tasks u = runAll (tasks.drop k) (runAll (tasks.take k) u) := by
    intro u
    rw [← runAll_append, List.take_append_drop]
  rw [hsplit (runAll (tasks.take k) s), runAll_idle hdone, ← hsplit]

end Resume

end AgyProxy.Lib
