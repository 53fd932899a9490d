import AgyProxy.Host.Prompt

/-!
# AgyProxy.Host.DigestSpec — the window of history a digest shows

* `DigestWindow`: the newest lines that fit the budget, and before them the next older one cut to the rest of it.
* `digestLoop_window`: what the loop takes, newest message first.
* `buildDigest_window`: **a digest shows exactly that window** of the turns that are no system turns and not empty.
-/

namespace AgyProxy

open Js

/-- The rendered lines of the turns a digest may show. -/
def digestLines (messages : List PromptMessage) : List JsString :=
  (messages.filter fun m => !m.isSkipped).map PromptMessage.digestLine

def totalLength (lines : List JsString) : ℕ := (lines.map List.length).sum

/-- The line at the edge of the window, cut to the budget that is left. -/
def cutLine (budget : ℕ) (line : Option JsString) : List JsString := (line.map fun line => line.take budget).toList

structure DigestWindow (lines : List JsString) (maxChars : ℕ) (older newest parts : List JsString) : Prop where
  split : lines = older ++ newest
  fits : totalLength newest ≤ maxChars
  /-- the next older line does not fit -/
  edge : ∀ line ∈ older.getLast?, maxChars < line.length + totalLength newest
  longest : ∀ run, run <:+ lines → totalLength run ≤ maxChars → run.length ≤ newest.length
  shown : parts = cutLine (maxChars - totalLength newest) older.getLast? ++ newest
  bounded : totalLength parts ≤ maxChars

section Window

variable {lines older newest run : List JsString} {maxChars : ℕ}

theorem totalLength_cons (line : JsString) (lines : List JsString) :
    totalLength (line :: lines) = line.length + totalLength lines :=
  List.sum_cons

theorem totalLength_append (a b : List JsString) : totalLength (a ++ b) = totalLength a + totalLength b := by
  unfold totalLength
  rw [List.map_append, List.sum_append]

theorem totalLength_reverse (a : List JsString) : totalLength a.reverse = totalLength a := by
  unfold totalLength
  rw [List.map_reverse, List.sum_reverse]

/-- The cut line fills the budget at most. -/
theorem totalLength_cutLine (budget : ℕ) (line : Option JsString) : totalLength (cutLine budget line) ≤ budget := by
  cases line with
  | none => exact Nat.zero_le budget
  | some line =>
    show totalLength [line.take budget] ≤ budget
    rw [totalLength_cons, List.length_take]
    exact (Nat.min_le_left _ _)

/-- A run that reaches over the edge does not fit. -/
theorem longest_of_edge (hedge : ∀ line ∈ older.getLast?, maxChars < line.length + totalLength newest)
    (hrun : run <:+ older ++ newest) (hfits : totalLength run ≤ maxChars) : run.length ≤ newest.length := by
  by_contra hlong
  obtain ⟨before, hbefore⟩ := hrun
  rcases List.append_eq_append_iff.mp hbefore with ⟨extra, hold, hmore⟩ | ⟨extra, hold, hmore⟩
  · cases hlast : extra.getLast? with
    | none =>
      rw [List.getLast?_eq_none_iff.mp hlast, List.nil_append] at hmore
      exact hlong (le_of_eq (congrArg List.length hmore))
    | some line =>
      obtain ⟨front, hfront⟩ := List.getLast?_eq_some_iff.mp hlast
      have hmem : older.getLast? = some line := by
        rw [hold, hfront, ← List.append_assoc, List.getLast?_concat]
      have hlt := hedge line hmem
      rw [hmore, hfront, totalLength_append, totalLength_append, totalLength_cons] at hfits
      omega
  · have hlen := congrArg List.length hmore
    rw [List.length_append] at hlen
    omega

end Window

/-- What the loop takes of the messages, newest first. -/
theorem digestLoop_window : ∀ (ms : List PromptMessage) (budget : ℕ) (parts : List JsString),
    ∃ taken rest, digestLines ms = taken ++ rest ∧ totalLength taken ≤ budget ∧
      (∀ line ∈ rest.head?, budget < line.length + totalLength taken) ∧
      digestLoop ms budget parts = cutLine (budget - totalLength taken) rest.head? ++ (taken.reverse ++ parts)
  | [], budget, parts => ⟨[], [], rfl, Nat.zero_le budget, fun line h => absurd h.symm (Option.some_ne_none line), rfl⟩
  | m :: older, budget, parts => by
    unfold digestLoop digestLines
    by_cases hskip : m.isSkipped = true
    · rw [if_pos hskip, List.filter_cons_of_neg (by simp [hskip])]
      exact digestLoop_window older budget parts
    · rw [if_neg hskip, List.filter_cons_of_pos (by simp [hskip]), List.map_cons]
      by_cases hcut : budget < m.digestLine.length
      · rw [if_pos hcut]
        refine ⟨[], m.digestLine :: digestLines older, rfl, Nat.zero_le budget, fun line h => ?_, rfl⟩
        obtain rfl : m.digestLine = line := Option.some.inj h
        exact Nat.lt_add_right _ hcut
      · rw [if_neg hcut]
        obtain ⟨taken, rest, hlines, hfits, hedge, hloop⟩ :=
          digestLoop_window older (budget - m.digestLine.length) (m.digestLine :: parts)
        refine ⟨m.digestLine :: taken, rest, congrArg _ hlines, ?_, fun line h => ?_, ?_⟩
        · rw [totalLength_cons]
          omega
        · have hlt := hedge line h
          rw [totalLength_cons]
          omega
        · rw [hloop, totalLength_cons, Nat.sub_add_eq, List.reverse_cons, List.append_assoc, List.singleton_append]

/-- **A digest shows a window**: the longest run of the newest turns that fits, and one turn cut at its edge. -/
theorem buildDigest_window (messages : List PromptMessage) (fromIdx maxChars : ℕ) :
    ∃ older newest parts, buildDigest messages fromIdx maxChars = digestText parts ∧
      DigestWindow (digestLines (messages.drop fromIdx)) maxChars older newest parts := by
  obtain ⟨taken, rest, hlines, hfits, hedge, hloop⟩ := digestLoop_window (messages.drop fromIdx).reverse maxChars []
  have hsplit : digestLines (messages.drop fromIdx) = rest.reverse ++ taken.reverse := by
    rw [← List.reverse_append, ← hlines]
    unfold digestLines
    rw [List.filter_reverse, List.map_reverse, List.reverse_reverse]
  have hedge' : ∀ line ∈ rest.reverse.getLast?, maxChars < line.length + totalLength taken.reverse := by
    intro line h
    rw [List.getLast?_reverse] at h
    rw [totalLength_reverse]
    exact hedge line h
  have hfits' : totalLength taken.reverse ≤ maxChars := by
    rw [totalLength_reverse]
    exact hfits
  refine ⟨rest.reverse, taken.reverse, _, rfl, hsplit, hfits', hedge', fun run hrun => ?_, ?_, ?_⟩
  · rw [hsplit] at hrun
    exact longest_of_edge hedge' hrun
  · rw [hloop, List.append_nil, List.getLast?_reverse, totalLength_reverse]
  · rw [hloop, List.append_nil, totalLength_append, totalLength_reverse]
    have hcut := totalLength_cutLine (maxChars - totalLength taken) rest.head?
    omega

end AgyProxy
