import AgyProxy.Js.Json
import AgyProxy.Js.Regex
import AgyProxy.Server.StreamGuards

/-!
# AgyProxy.Server.Tokens — the token estimate and its reference (`src/server/tokens.ts`)

* `CLS`: the classification table, filled by running the two expressions over every code unit.
* `TokenTable.estimateTokens`: the walk that reads it and pairs the surrogates by hand.
* `estimateTokensOracle`: the walk over the code points, each classified by the expressions
  (`test/tokens.test.ts`).
* `estimateTokens_eq_oracle`: **the two agree** on every string, lone surrogates included.

The estimate the output budget charges is the same one (`estimateTokens_table`).
-/

namespace AgyProxy

open Js

/-- `[　-鿿぀-ヿ豈-﫿＀-￯가-힯]`. -/
def CJK_RE : Rx := .cls isCjk

/-- `\s`. -/
def SPACE_RE : Rx := .cls isWhiteSpace

/-- `CLS_OTHER`, `CLS_CJK`, `CLS_WS`. -/
inductive UnitClass
  | other | cjk | ws
deriving DecidableEq

/-- The tokens counted and the run of Latin text that is still open. -/
structure TokenTally where
  tokens : ℚ
  latinRun : ℚ

namespace TokenTally

def zero : TokenTally := ⟨0, 0⟩

/-- One character of a class; white space rides the Latin budget. -/
def add (t : TokenTally) : UnitClass → TokenTally
  | .cjk => ⟨t.tokens + (1 + t.latinRun / 4), 0⟩
  | .ws => ⟨t.tokens, t.latinRun + 1 / 4⟩
  | .other => ⟨t.tokens, t.latinRun + 1⟩

def total (t : TokenTally) : ℚ := t.tokens + t.latinRun / 4

/-- `Math.max(1, Math.round(tokens))`. -/
def estimate (t : TokenTally) : ℕ := max 1 ⌊t.total + 1 / 2⌋.toNat

end TokenTally

/-- Which expression matches a text, the CJK one first. -/
def classify (ch : JsString) : UnitClass := if CJK_RE.test ch then .cjk else if SPACE_RE.test ch then .ws else .other

/-! ### The table walk -/

namespace TokenTable

/-- The table at a code unit. -/
def CLS (code : UInt16) : UnitClass := classify [code]

/-- The loop; an astral code point is one step of two units. -/
def walk (t : TokenTally) : JsString → TokenTally
  | [] => t
  | [code] => t.add (CLS code)
  | code :: next :: s =>
    if 0xD800 ≤ code && code < 0xDC00 && (0xDC00 ≤ next && next < 0xE000) then walk (t.add .other) s
    else walk (t.add (CLS code)) (next :: s)

def estimateTokens (text : JsString) : ℕ := if text = [] then 0 else (walk .zero text).estimate

end TokenTable

/-! ### The reference -/

/-- `for (const ch of text)`: the code points, a lone surrogate being one. -/
def codePoints : JsString → List JsString
  | [] => []
  | [c] => [[c]]
  | c :: d :: s =>
    if Json.isHighSurrogate c && Json.isLowSurrogate d then [c, d] :: codePoints s else [c] :: codePoints (d :: s)

def estimateTokensOracle (text : JsString) : ℕ :=
  if text = [] then 0
  else ((codePoints text).foldl (fun (t : TokenTally) ch => t.add (classify ch)) TokenTally.zero).estimate

/-! ### They agree -/

section Agree

/-- A class matches a text that has a unit of it. -/
theorem test_cls (p : UInt16 → Bool) (s : JsString) : (Rx.cls p).test s = s.any p := by
  have h : ∀ prev : Option UInt16, ((Rx.execAt (.cls p) prev s).isSome) = s.any p := by
    induction s with
    | nil => exact fun _ => rfl
    | cons c s ih =>
      intro prev
      rw [List.any_cons]
      unfold Rx.execAt Rx.run
      cases hc : p c with
      | true => simp [hc]
      | false =>
        simp only [List.head?_cons, Option.any_some, hc, Bool.false_eq_true, if_false, List.head?_nil, Option.isSome_map,
          Bool.false_or]
        exact ih (some c)
  exact h none

theorem highSurrogate_iff (c : UInt16) : Json.isHighSurrogate c = (0xD800 ≤ c && c < 0xDC00) := by
  unfold Json.isHighSurrogate
  congr 1
  rw [decide_eq_decide, UInt16.le_iff_toNat_le, UInt16.lt_iff_toNat_lt]
  exact Nat.lt_succ_iff.symm

theorem lowSurrogate_iff (c : UInt16) : Json.isLowSurrogate c = (0xDC00 ≤ c && c < 0xE000) := by
  unfold Json.isLowSurrogate
  congr 1
  rw [decide_eq_decide, UInt16.le_iff_toNat_le, UInt16.lt_iff_toNat_lt]
  exact Nat.lt_succ_iff.symm

/-- No surrogate is in either class. -/
theorem surrogate_other {c : UInt16} (hlow : 0xD800 ≤ c.toNat) (hhigh : c.toNat < 0xE000) :
    isCjk c = false ∧ isWhiteSpace c = false := by
  unfold isCjk isWhiteSpace
  simp only [Bool.or_eq_false_iff, Bool.and_eq_false_iff, decide_eq_false_iff_not, beq_eq_false_iff_ne, ne_eq,
    ← UInt16.toNat_inj, UInt16.le_iff_toNat_le, UInt16.reduceToNat]
  omega

/-- The two units of an astral code point match neither expression. -/
theorem classify_pair {c d : UInt16} (hc : Json.isHighSurrogate c = true) (hd : Json.isLowSurrogate d = true) :
    classify [c, d] = .other := by
  unfold Json.isHighSurrogate at hc
  unfold Json.isLowSurrogate at hd
  simp only [Bool.and_eq_true, decide_eq_true_eq, UInt16.le_iff_toNat_le, UInt16.reduceToNat] at hc hd
  obtain ⟨hc₁, hc₂⟩ := surrogate_other hc.1 (by omega)
  obtain ⟨hd₁, hd₂⟩ := surrogate_other (c := d) (by omega) (by omega)
  unfold classify CJK_RE SPACE_RE
  rw [test_cls, test_cls]
  simp [hc₁, hc₂, hd₁, hd₂]

/-- **The walks agree** from any tally on. -/
theorem walk_eq_codePoints : ∀ (s : JsString) (t : TokenTally),
    TokenTable.walk t s = (codePoints s).foldl (fun t ch => t.add (classify ch)) t
  | [], _ => rfl
  | [_], _ => rfl
  | c :: d :: s, t => by
    unfold TokenTable.walk codePoints
    rw [← highSurrogate_iff, ← lowSurrogate_iff]
    by_cases hpair : (Json.isHighSurrogate c && Json.isLowSurrogate d) = true
    · obtain ⟨hc, hd⟩ := Bool.and_eq_true_iff.mp hpair
      rw [if_pos hpair, if_pos hpair, List.foldl_cons, classify_pair hc hd]
      exact walk_eq_codePoints s _
    · rw [if_neg hpair, if_neg hpair, List.foldl_cons]
      exact walk_eq_codePoints (d :: s) _

/-- **The fast path returns the reference's estimate**. -/
theorem estimateTokens_eq_oracle (text : JsString) : TokenTable.estimateTokens text = estimateTokensOracle text := by
  unfold TokenTable.estimateTokens estimateTokensOracle
  rw [walk_eq_codePoints]

/-! ### The estimate of the output budget -/

theorem CLS_eq (c : UInt16) :
    TokenTable.CLS c = if isCjk c then .cjk else if isWhiteSpace c then .ws else .other := by
  unfold TokenTable.CLS classify CJK_RE SPACE_RE
  rw [test_cls, test_cls]
  simp

theorem countTokens_eq : ∀ (s : JsString) (t : TokenTally),
    countTokens t.tokens t.latinRun s = (TokenTable.walk t s).total
  | [], _ => rfl
  | [c], t => by
    unfold countTokens TokenTable.walk countTokens.countUnit
    rw [CLS_eq]
    split
    · simp [TokenTally.add, TokenTally.total]
    · split <;> rfl
  | c :: d :: s, t => by
    unfold countTokens TokenTable.walk
    rw [CLS_eq, Bool.and_assoc]
    split
    · exact countTokens_eq s (t.add .other)
    · split
      · exact countTokens_eq (d :: s) (t.add .cjk)
      · split
        · exact countTokens_eq (d :: s) (t.add .ws)
        · exact countTokens_eq (d :: s) (t.add .other)

/-- What the budget charges is the table's estimate. -/
theorem estimateTokens_table (text : JsString) : estimateTokens text = TokenTable.estimateTokens text := by
  cases text with
  | nil => rfl
  | cons c s => exact congrArg (fun q => max 1 ⌊q + 1 / 2⌋.toNat) (countTokens_eq (c :: s) .zero)

end Agree

end AgyProxy
