import AgyProxy.Server.AdminSession
import Mathlib.Data.List.Nodup

/-!
# AgyProxy.Server.AdminSessionSpec — the session rows, the session cookie and the password over the boots

* `Sheds`: a store that lost expired rows only; `verify_iff`, `create_spec`: what the rows say.
* `parseCookieHeader_session`: the token of a session comes back out of a line of cookies.
* `firstBoot_once`: **one password is printed** at most, and it works; a password of the environment wins.
-/

namespace AgyProxy

open Js

/-! ### The store -/

namespace AdminSessionStore

variable {sha256 : JsString → JsString} {s t : AdminSessionStore} {now : ℕ}

/-- `t` is `s` without some rows that were over at `now`. -/
structure Sheds (now : ℕ) (s t : AdminSessionStore) : Prop where
  ttlMs : t.ttlMs = s.ttlMs
  sub : ∀ r ∈ t.table.rows, r ∈ s.table.rows
  live : ∀ r ∈ s.table.rows, now < r.expiresAt → r ∈ t.table.rows

theorem Sheds.refl (now : ℕ) (s : AdminSessionStore) : Sheds now s s := ⟨rfl, fun _ h => h, fun _ h _ => h⟩

theorem mem_keep {table : AdminSessionTable} {p : AdminSessionRow → Bool} {r : AdminSessionRow} :
    r ∈ (table.keep p).rows ↔ r ∈ table.rows ∧ p r = true := List.mem_filter

theorem get_mem {table : AdminSessionTable} {hash : JsString} {r : AdminSessionRow} (h : table.get hash = some r) :
    r ∈ table.rows ∧ r.tokenHash = hash := by
  have hfind : table.rows.find? (fun r => decide (r.tokenHash = hash)) = some r := h
  exact ⟨List.mem_of_find?_eq_some hfind, by simpa using List.find?_some hfind⟩

/-- The hash is a key. -/
theorem get_eq_some_iff {table : AdminSessionTable} {hash : JsString} {r : AdminSessionRow} :
    table.get hash = some r ↔ r ∈ table.rows ∧ r.tokenHash = hash := by
  refine ⟨get_mem, fun ⟨hr, hhash⟩ => ?_⟩
  cases hget : table.get hash with
  | none =>
    have hno := List.find?_eq_none.mp hget r hr
    exact absurd (decide_eq_true hhash) hno
  | some r' =>
    obtain ⟨hr', hhash'⟩ := get_mem hget
    exact congrArg some (List.inj_on_of_nodup_map table.uniqueHash hr' hr (hhash'.trans hhash.symm))

theorem verify_sheds (s : AdminSessionStore) (token : JsString) (now : ℕ) :
    Sheds now s (s.verify sha256 token now).2 := by
  unfold verify
  split
  · exact .refl now s
  · split
    · exact .refl now s
    · next row hget =>
      split
      · next hover =>
        refine ⟨rfl, fun r hr => (mem_keep.mp hr).1, fun r hr hlt => mem_keep.mpr ⟨hr, decide_eq_true fun heq => ?_⟩⟩
        -- the only row of this hash is over
        have hsame : some row = some r := hget.symm.trans (get_eq_some_iff.mpr ⟨hr, heq⟩)
        exact absurd (Option.some.inj hsame ▸ hover) (Nat.not_le_of_lt hlt)
      · exact .refl now s

theorem verify_iff (s : AdminSessionStore) {token : JsString} (htoken : token ≠ []) (now : ℕ) :
    (s.verify sha256 token now).1 = true ↔ ∃ r ∈ s.table.rows, r.tokenHash = sha256 token ∧ now < r.expiresAt := by
  unfold verify
  rw [if_neg htoken]
  split
  · next hget =>
    refine ⟨fun h => absurd h Bool.false_ne_true, fun ⟨r, hr, hhash, _⟩ => ?_⟩
    exact absurd ((get_eq_some_iff.mpr ⟨hr, hhash⟩).symm.trans hget) (Option.some_ne_none r)
  · next row hget =>
    obtain ⟨hrow, hhash⟩ := get_mem hget
    split
    · next hover =>
      refine ⟨fun h => absurd h Bool.false_ne_true, fun ⟨r, hr, hhash', hlt⟩ => ?_⟩
      have hsame : some row = some r := hget.symm.trans (get_eq_some_iff.mpr ⟨hr, hhash'⟩)
      exact absurd (Option.some.inj hsame ▸ hover) (Nat.not_le_of_lt hlt)
    · next hlive => exact ⟨fun _ => ⟨row, hrow, hhash, Nat.lt_of_not_le hlive⟩, fun _ => rfl⟩

/-- A token whose hash is new gets its row. -/
theorem create_spec (s : AdminSessionStore) (token : SessionToken) (now : ℕ)
    (hnew : ∀ r ∈ s.table.rows, r.tokenHash ≠ sha256 token.val) :
    ∃ table : AdminSessionTable, s.create sha256 token now = (some (now + s.ttlMs), { s with table }) ∧
      ∀ r, r ∈ table.rows ↔
        r = ⟨sha256 token.val, now, now + s.ttlMs⟩ ∨ (r ∈ s.table.rows ∧ now < r.expiresAt) := by
  have hfree : sha256 token.val ∉
      (s.table.keep fun r => decide (now < r.expiresAt)).rows.map AdminSessionRow.tokenHash := by
    intro hmem
    obtain ⟨r, hr, hhash⟩ := List.mem_map.mp hmem
    exact hnew r (mem_keep.mp hr).1 hhash
  refine ⟨⟨⟨sha256 token.val, now, now + s.ttlMs⟩ :: (s.table.keep fun r => decide (now < r.expiresAt)).rows,
    List.nodup_cons.mpr ⟨hfree, (s.table.keep _).uniqueHash⟩⟩, ?_, fun r => ?_⟩
  · unfold create AdminSessionTable.insert
    dsimp only
    rw [dif_pos hfree]
  · rw [List.mem_cons, mem_keep, decide_eq_true_eq]

end AdminSessionStore

/-! ### The cookie of a session -/

/-- What a browser keeps of a `Set-Cookie` line: the pair before the attributes. -/
def cookieOf (setCookie : JsString) : JsString × JsString :=
  let pair := setCookie.takeWhile (· ≠ 0x3B)
  (pair.takeWhile (· ≠ 0x3D), (pair.dropWhile (· ≠ 0x3D)).drop 1)

def cookiePart (c : JsString × JsString) : JsString := c.1 ++ 0x3D :: c.2

/-- The `Cookie` line a browser sends. -/
def cookieHeader (jar : List (JsString × JsString)) : JsString := (js "; ").intercalate (jar.map cookiePart)

/-- A pair a browser may keep: neither separator in the name, no `;` in the value. -/
def CookiePair (c : JsString × JsString) : Prop := 0x3B ∉ c.1 ∧ 0x3D ∉ c.1 ∧ 0x3B ∉ c.2

section Separators

variable {p : UInt16} {xs ys : JsString}

theorem takeWhile_before (h : p ∉ xs) : (xs ++ p :: ys).takeWhile (· ≠ p) = xs := by
  have hpos : ∀ x ∈ xs, decide (x ≠ p) = true := fun x hx => decide_eq_true (ne_of_mem_of_not_mem hx h)
  rw [List.takeWhile_append_of_pos hpos, List.takeWhile_cons_of_neg (by simp), List.append_nil]

theorem dropWhile_before (h : p ∉ xs) : (xs ++ p :: ys).dropWhile (· ≠ p) = p :: ys := by
  have hpos : ∀ x ∈ xs, decide (x ≠ p) = true := fun x hx => decide_eq_true (ne_of_mem_of_not_mem hx h)
  rw [List.dropWhile_append_of_pos hpos, List.dropWhile_cons_of_neg (by simp)]

end Separators

theorem trim_space (s : JsString) : trim (0x20 :: s) = trim s := by
  unfold trim
  rw [List.dropWhile_cons_of_pos (by decide)]

theorem trim_eq_self {s : JsString} (h : ∀ u ∈ s, isWhiteSpace u = false) : trim s = s := by
  have hdrop : s.dropWhile isWhiteSpace = s := by
    cases s with
    | nil => rfl
    | cons c s => exact List.dropWhile_cons_of_neg (by simp [h c List.mem_cons_self])
  rw [trim, hdrop, List.rdropWhile_eq_self_iff]
  intro hne
  simp [h _ (List.getLast_mem hne)]

/-- What the random text is made of needs no escape. -/
theorem SessionToken.unit (token : SessionToken) :
    ∀ u ∈ token.val, isWhiteSpace u = false ∧ u ≠ 0x25 ∧ u ≠ 0x3B ∧ u ≠ 0x3D := by
  intro u hu
  have hplain := token.plain u hu
  simp only [isWordChar, Bool.or_eq_true, Bool.and_eq_true, decide_eq_true_eq, beq_iff_eq] at hplain
  simp only [isWhiteSpace, Bool.or_eq_false_iff, Bool.and_eq_false_iff, decide_eq_false_iff_not,
    beq_eq_false_iff_ne, ne_eq, ← UInt16.toNat_inj, UInt16.le_iff_toNat_le, UInt16.reduceToNat] at hplain ⊢
  omega

theorem cookieOf_serializeSetCookie (token : SessionToken) (expiresAt : ℕ) :
    cookieOf (serializeSetCookie token expiresAt) = (ADMIN_COOKIE, token.val) := by
  have hname : 0x3D ∉ ADMIN_COOKIE ∧ 0x3B ∉ ADMIN_COOKIE := by decide
  have hpair : (serializeSetCookie token expiresAt).takeWhile (· ≠ 0x3B) = ADMIN_COOKIE ++ 0x3D :: token.val := by
    have hline : serializeSetCookie token expiresAt = (ADMIN_COOKIE ++ 0x3D :: token.val) ++
        0x3B :: (js " Path=/; HttpOnly; SameSite=Lax; Expires=" ++ toUTCString expiresAt) := by
      have heq : js "=" = [0x3D] := rfl
      have hattributes : js "; Path=/; HttpOnly; SameSite=Lax; Expires=" =
          0x3B :: js " Path=/; HttpOnly; SameSite=Lax; Expires=" := rfl
      simp only [serializeSetCookie, heq, hattributes, List.append_assoc, List.cons_append, List.nil_append]
    rw [hline, takeWhile_before]
    simp only [List.mem_append, List.mem_cons, not_or]
    exact ⟨hname.2, by decide, fun hmem => (token.unit _ hmem).2.2.1 rfl⟩
  unfold cookieOf
  rw [hpair]
  simp only [takeWhile_before hname.1, dropWhile_before hname.1, List.drop_succ_cons, List.drop_zero]

theorem cookieHeader_eq (c : JsString × JsString) (jar : List (JsString × JsString)) :
    cookieHeader (c :: jar) = [0x3B].intercalate (cookiePart c :: jar.map fun d => 0x20 :: cookiePart d) := by
  induction jar generalizing c with
  | nil => rfl
  | cons d jar ih =>
    have hspace : ∀ rest : List JsString, [0x3B].intercalate ((0x20 :: cookiePart d) :: rest) =
        0x20 :: [0x3B].intercalate (cookiePart d :: rest) := by
      rintro (_ | ⟨e, rest⟩) <;> simp [List.intercalate_cons_cons]
    have hline : cookieHeader (c :: d :: jar) = cookiePart c ++ 0x3B :: 0x20 :: cookieHeader (d :: jar) := by
      simp only [cookieHeader, List.map_cons, List.intercalate_cons_cons, List.append_assoc]
      rfl
    rw [hline, ih, List.map_cons, List.intercalate_cons_cons, hspace, List.append_assoc]
    rfl

/-- The parts of the line, as splitting it finds them. -/
theorem splitOn_cookieHeader {c : JsString × JsString} {jar : List (JsString × JsString)}
    (hjar : ∀ d ∈ c :: jar, CookiePair d) :
    (cookieHeader (c :: jar)).splitOn 0x3B = cookiePart c :: jar.map fun d => 0x20 :: cookiePart d := by
  have hpart : ∀ d ∈ c :: jar, 0x3B ∉ cookiePart d := by
    intro d hd
    obtain ⟨hname, -, hvalue⟩ := hjar d hd
    simp only [cookiePart, List.mem_append, List.mem_cons, not_or]
    exact ⟨hname, by decide, hvalue⟩
  rw [cookieHeader_eq]
  refine List.splitOn_intercalate 0x3B (fun l hl => ?_) (List.cons_ne_nil _ _)
  rcases List.mem_cons.mp hl with rfl | hl
  · exact hpart c List.mem_cons_self
  · obtain ⟨d, hd, rfl⟩ := List.mem_map.mp hl
    simp only [List.mem_cons, not_or]
    exact ⟨by decide, hpart d (List.mem_cons_of_mem c hd)⟩

theorem parseCookiePart_pair (out : JsString → Option JsString) {name value : JsString} (h : 0x3D ∉ name) :
    parseCookiePart out (name ++ 0x3D :: value) =
      if trim name = [] ∨ trim name = js "__proto__" then out
      else
        match decodeURIComponent (trim value) with
        | some v => Function.update out (trim name) (some v)
        | none => out := by
  unfold parseCookiePart
  generalize hspan : (name ++ 0x3D :: value).span (· ≠ 0x3D) = r
  rw [List.span_eq_takeWhile_dropWhile, takeWhile_before h, dropWhile_before h] at hspan
  subst hspan
  rfl

/-- A part of another name says nothing about the session; the session's says its token. -/
theorem parseCookiePart_session {out : JsString → Option JsString} {part : JsString} {c : JsString × JsString}
    (hpart : part = cookiePart c ∨ part = 0x20 :: cookiePart c) (hc : CookiePair c) {token : SessionToken}
    (hone : trim c.1 = ADMIN_COOKIE → c = (ADMIN_COOKIE, token.val)) :
    parseCookiePart out part ADMIN_COOKIE = if trim c.1 = ADMIN_COOKIE then some token.val else out ADMIN_COOKIE := by
  obtain ⟨name, htrim, hname, rfl⟩ : ∃ name, trim name = trim c.1 ∧ 0x3D ∉ name ∧ part = name ++ 0x3D :: c.2 := by
    rcases hpart with rfl | rfl
    · exact ⟨c.1, rfl, hc.2.1, rfl⟩
    · refine ⟨0x20 :: c.1, trim_space c.1, ?_, rfl⟩
      simp only [List.mem_cons, not_or]
      exact ⟨by decide, hc.2.1⟩
  rw [parseCookiePart_pair out hname, htrim]
  by_cases hsession : trim c.1 = ADMIN_COOKIE
  · obtain rfl := hone hsession
    have hvalue : decodeURIComponent (trim token.val) = some token.val := by
      rw [trim_eq_self fun u hu => (token.unit u hu).1]
      exact decodeURIComponent_plain fun hmem => (token.unit _ hmem).2.1 rfl
    rw [if_pos hsession, hsession, if_neg (by decide), hvalue]
    exact Function.update_self ..
  · rw [if_neg hsession]
    split
    · rfl
    · cases decodeURIComponent (trim c.2) with
      | none => rfl
      | some v => exact Function.update_of_ne (Ne.symm hsession) _ _

/-- **The cookie of a session**, among any others: the token comes back. -/
theorem parseCookieHeader_session {jar : List (JsString × JsString)} {token : SessionToken}
    (hjar : ∀ c ∈ jar, CookiePair c) (hone : ∀ c ∈ jar, trim c.1 = ADMIN_COOKIE → c = (ADMIN_COOKIE, token.val))
    (hin : (ADMIN_COOKIE, token.val) ∈ jar) :
    parseCookieHeader (some (cookieHeader jar)) ADMIN_COOKIE = some token.val := by
  have hself : trim ADMIN_COOKIE = ADMIN_COOKIE := by decide
  obtain _ | ⟨c, jar⟩ := jar
  · exact absurd hin List.not_mem_nil
  show ((cookieHeader (c :: jar)).splitOn 0x3B).foldl parseCookiePart (fun _ => none) ADMIN_COOKIE = some token.val
  rw [splitOn_cookieHeader hjar]
  -- what the parts of some cookies leave behind
  have hfold : ∀ (cookies : List (JsString × JsString)) (out : JsString → Option JsString),
      (∀ d ∈ cookies, d ∈ c :: jar) →
      (out ADMIN_COOKIE = some token.val ∨ (ADMIN_COOKIE, token.val) ∈ cookies) →
      (cookies.map fun d => 0x20 :: cookiePart d).foldl parseCookiePart out ADMIN_COOKIE = some token.val := by
    intro cookies
    induction cookies with
    | nil => exact fun out _ h => h.resolve_right List.not_mem_nil
    | cons d cookies ih =>
      intro out hsub h
      have hd := hsub d List.mem_cons_self
      refine ih _ (fun e he => hsub e (List.mem_cons_of_mem d he)) ?_
      rw [parseCookiePart_session (Or.inr rfl) (hjar d hd) (hone d hd)]
      by_cases hsession : trim d.1 = ADMIN_COOKIE
      · exact Or.inl (if_pos hsession)
      · rw [if_neg hsession]
        refine h.imp_right fun hmem => (List.mem_cons.mp hmem).resolve_left ?_
        rintro rfl
        exact hsession hself
  rw [List.foldl_cons]
  refine hfold jar _ (fun d hd => List.mem_cons_of_mem c hd) ?_
  rw [parseCookiePart_session (Or.inl rfl) (hjar c List.mem_cons_self) (hone c List.mem_cons_self)]
  by_cases hsession : trim c.1 = ADMIN_COOKIE
  · exact Or.inl (if_pos hsession)
  · rw [if_neg hsession]
    refine Or.inr ((List.mem_cons.mp hin).resolve_left ?_)
    rintro rfl
    exact hsession hself

/-! ### The password over the boots -/

section Password

variable {argon : Argon2} {stored : Option JsString} {bs : List PasswordBoot} {b : PasswordBoot}

/-- The stored hash after some boots, and what they logged. -/
def bootAll (argon : Argon2) (stored : Option JsString) : List PasswordBoot → Option JsString × List PasswordWarning
  | [] => (stored, [])
  | b :: bs =>
    let (next, warning) := ensureAdminPassword argon stored b
    let (last, warnings) := bootAll argon next bs
    (last, warning.toList ++ warnings)

/-- The password comes from the environment and its hash is stored. -/
def PasswordBoot.Overrides (b : PasswordBoot) : Prop := b.envPassword ≠ [] ∧ b.storeFails = false

def PasswordWarning.password? : PasswordWarning → Option JsString
  | .generated password => some password
  | _ => none

/-- The passwords that were printed. -/
def printed (r : Option JsString × List PasswordWarning) : List JsString := r.2.filterMap PasswordWarning.password?

/-- What a boot can do: override the hash, leave it and print nothing, or be the first. -/
theorem ensure_cases (argon : Argon2) (stored : Option JsString) (b : PasswordBoot) :
    (b.Overrides ∧ ensureAdminPassword argon stored b = (some (argon.hash b.salt b.envPassword), none)) ∨
    (¬b.Overrides ∧ (ensureAdminPassword argon stored b).1 = stored ∧
      (ensureAdminPassword argon stored b).2.bind PasswordWarning.password? = none) ∨
    (¬b.Overrides ∧ stored = none ∧
      ensureAdminPassword argon stored b = (some (argon.hash b.salt b.generated), some (.generated b.generated))) := by
  unfold ensureAdminPassword
  by_cases henv : b.envPassword ≠ []
  · cases hstore : b.storeFails with
    | false => exact Or.inl ⟨⟨henv, hstore⟩, by rw [if_pos henv]; rfl⟩
    | true =>
      have hno : ¬b.Overrides := fun h => absurd (hstore.symm.trans h.2) Bool.false_ne_true.symm
      exact Or.inr (Or.inl ⟨hno, by simp [henv, PasswordWarning.password?]⟩)
  · have hno : ¬b.Overrides := fun h => henv h.1
    rw [if_neg henv]
    cases hlookup : b.lookupFails with
    | true => exact Or.inr (Or.inl ⟨hno, rfl, rfl⟩)
    | false =>
      cases stored with
      | some hash => exact Or.inr (Or.inl ⟨hno, rfl, rfl⟩)
      | none =>
        cases hstore : b.storeFails with
        | true => exact Or.inr (Or.inl ⟨hno, rfl, rfl⟩)
        | false => exact Or.inr (Or.inr ⟨hno, rfl, rfl⟩)

theorem printed_cons (b : PasswordBoot) (bs : List PasswordBoot) : printed (bootAll argon stored (b :: bs)) =
    ((ensureAdminPassword argon stored b).2.bind PasswordWarning.password?).toList ++
      printed (bootAll argon (ensureAdminPassword argon stored b).1 bs) := by
  show ((ensureAdminPassword argon stored b).2.toList ++ _).filterMap _ = _
  rw [List.filterMap_append]
  cases (ensureAdminPassword argon stored b).2 with
  | none => rfl
  | some warning => cases warning <;> rfl

/-- Once a hash is stored, nothing is printed, and the hash stays until it is overridden. -/
theorem bootAll_stored (bs : List PasswordBoot) (hash : JsString) : printed (bootAll argon (some hash) bs) = [] ∧
    ((∀ c ∈ bs, ¬c.Overrides) → (bootAll argon (some hash) bs).1 = some hash) := by
  induction bs generalizing hash with
  | nil => exact ⟨rfl, fun _ => rfl⟩
  | cons b bs ih =>
    rw [printed_cons]
    show _ ∧ (_ → (bootAll argon (ensureAdminPassword argon (some hash) b).1 bs).1 = some hash)
    obtain ⟨h, heq⟩ | ⟨-, hsame, hsilent⟩ | ⟨-, hnone, -⟩ := ensure_cases argon (some hash) b
    · rw [heq]
      exact ⟨(ih _).1, fun hall => absurd h (hall b List.mem_cons_self)⟩
    · rw [hsame, hsilent]
      exact ⟨(ih hash).1, fun hall => (ih hash).2 fun c hc => hall c (List.mem_cons_of_mem b hc)⟩
    · exact absurd hnone (Option.some_ne_none hash)

/-- Nothing overrides the hash: it stays, or the one password that is printed works. -/
theorem bootAll_kept (bs : List PasswordBoot) (stored : Option JsString) (hall : ∀ c ∈ bs, ¬c.Overrides) :
    ((bootAll argon stored bs).1 = stored ∧ printed (bootAll argon stored bs) = []) ∨
      (stored = none ∧ ∃ password, printed (bootAll argon stored bs) = [password] ∧
        verifyAdminPassword argon (bootAll argon stored bs).1 password = true) := by
  induction bs generalizing stored with
  | nil => exact Or.inl ⟨rfl, rfl⟩
  | cons b bs ih =>
    have hrest : ∀ c ∈ bs, ¬c.Overrides := fun c hc => hall c (List.mem_cons_of_mem b hc)
    rw [printed_cons]
    show (bootAll argon (ensureAdminPassword argon stored b).1 bs).1 = stored ∧ _ ∨ stored = none ∧ ∃ password, _ ∧
      verifyAdminPassword argon (bootAll argon (ensureAdminPassword argon stored b).1 bs).1 password = true
    obtain ⟨h, -⟩ | ⟨-, hsame, hsilent⟩ | ⟨-, hnone, heq⟩ := ensure_cases argon stored b
    · exact absurd h (hall b List.mem_cons_self)
    · rw [hsame, hsilent]
      exact ih stored hrest
    · obtain ⟨hsilent, hkept⟩ := @bootAll_stored argon bs (argon.hash b.salt b.generated)
      rw [heq, hsilent]
      refine Or.inr ⟨hnone, b.generated, rfl, ?_⟩
      rw [hkept hrest]
      exact argon.verify_hash b.salt b.generated

/-- **The admin password over any boots**: one is printed at most, and none when a hash was stored before; the last
password the environment brought works; without one the stored hash stays, or what was printed works. -/
theorem firstBoot_once (argon : Argon2) (stored : Option JsString) (bs : List PasswordBoot) :
    (printed (bootAll argon stored bs)).length ≤ 1 ∧
    (stored ≠ none → printed (bootAll argon stored bs) = []) ∧
    (∀ before b after, bs = before ++ b :: after → b.Overrides → (∀ c ∈ after, ¬c.Overrides) →
      verifyAdminPassword argon (bootAll argon stored bs).1 b.envPassword = true) ∧
    ((∀ c ∈ bs, ¬c.Overrides) →
      ((bootAll argon stored bs).1 = stored ∧ printed (bootAll argon stored bs) = []) ∨
        (stored = none ∧ ∃ password, printed (bootAll argon stored bs) = [password] ∧
          verifyAdminPassword argon (bootAll argon stored bs).1 password = true)) := by
  refine ⟨?_, fun hsome => ?_, fun before b after hbs hb hafter => ?_, bootAll_kept bs stored⟩
  · induction bs generalizing stored with
    | nil => exact Nat.zero_le 1
    | cons b bs ih =>
      rw [printed_cons]
      obtain ⟨-, heq⟩ | ⟨-, -, hsilent⟩ | ⟨-, -, heq⟩ := ensure_cases argon stored b
      · rw [heq]
        exact ih _
      · rw [hsilent]
        exact ih _
      · rw [heq, (bootAll_stored bs _).1]
        exact Nat.le_refl 1
  · obtain ⟨hash, rfl⟩ := Option.ne_none_iff_exists'.mp hsome
    exact (bootAll_stored bs hash).1
  · subst hbs
    induction before generalizing stored with
    | nil =>
      obtain ⟨-, heq⟩ | ⟨hno, -⟩ | ⟨hno, -⟩ := ensure_cases argon stored b
      · show verifyAdminPassword argon (bootAll argon (ensureAdminPassword argon stored b).1 after).1 _ = true
        rw [heq, (bootAll_stored after _).2 hafter]
        exact argon.verify_hash b.salt b.envPassword
      · exact absurd hb hno
      · exact absurd hb hno
    | cons c before ih => exact ih (ensureAdminPassword argon stored c).1

end Password

end AgyProxy
