import AgyProxy.Server.KeyStore

/-!
# AgyProxy.Server.KeyStoreSpec — what a key means, over every run of its store

* `KeyRegistry`: the keys by id with their latest plaintext, flag and scopes; what the store is for.
* `CacheCoherent`: what is cached is what the rows say, after every action (`CacheCoherent.step`).
* `Refines`: the columns and the cache of a store against a registry; every action preserves it.
* `keyStore_lifecycle`: **`verify`, `reveal` and `scopesOf` answer from the registry, and a rotated plaintext
  never verifies again**.
-/

namespace AgyProxy

open Js Lib

/-! ### The registry -/

structure KeyState where
  /-- the latest one issued -/
  plaintext : JsString
  disabled : Bool
  scopes : Option JsString

/-- The existing keys. -/
abbrev KeyRegistry := JsString → Option KeyState

def KeyPatch.apply (patch : KeyPatch) (st : KeyState) : KeyState :=
  { st with disabled := patch.disabled.getD st.disabled, scopes := patch.newScopes st.scopes }

namespace KeyRegistry

def empty : KeyRegistry := fun _ => none

def step (reg : KeyRegistry) : KeyAction → KeyRegistry
  | .create _ id secret _ _ => Function.update reg id (some ⟨plaintextOf secret, false, none⟩)
  | .update id patch _ => Function.update reg id ((reg id).map patch.apply)
  | .rotate id secret _ => Function.update reg id ((reg id).map fun st => { st with plaintext := plaintextOf secret })
  | .remove id => Function.update reg id none
  | _ => reg

def run (reg : KeyRegistry) (as : List KeyAction) : KeyRegistry := as.foldl step reg

/-- The latest plaintext of an existing key. -/
def Holds (reg : KeyRegistry) (p : JsString) : Prop := ∃ id st, reg id = some st ∧ st.plaintext = p

end KeyRegistry

namespace KeyAction

/-- The plaintext an action may issue. -/
def issued? : KeyAction → Option JsString
  | create _ _ secret _ _ => some (plaintextOf secret)
  | rotate _ secret _ => some (plaintextOf secret)
  | _ => none

/-- The plaintext an action may seal, with the iv. -/
def sealed? : KeyAction → Option (Base64 × JsString)
  | create _ _ secret iv _ => some (iv, plaintextOf secret)
  | rotate _ secret iv => some (iv, plaintextOf secret)
  | _ => none

/-- The id an action generates. -/
def created? : KeyAction → Option JsString
  | create _ id _ _ _ => some id
  | _ => none

end KeyAction

def issuedBy (as : List KeyAction) : List JsString := as.filterMap KeyAction.issued?
def createdBy (as : List KeyAction) : List JsString := as.filterMap KeyAction.created?

/-- The generated ids and plaintexts do not repeat. -/
def FreshKeys (as : List KeyAction) : Prop := (createdBy as).Nodup ∧ (issuedBy as).Nodup

/-- No other text has the hash of one of these. -/
def KeyCrypto.HashesApart (c : KeyCrypto) (issued : List JsString) : Prop :=
  ∀ q ∈ issued, ∀ p, c.sha256 p = c.sha256 q → p = q

/-- Deciphering a ciphertext gives the plaintext back. -/
def KeyCrypto.Opens (c : KeyCrypto) (master : JsString) (iv : Base64) (p : JsString) : Prop :=
  c.decipher master iv.val (c.cipher master iv p).1.val (c.cipher master iv p).2.val = some p

theorem openSecret_sealSecret {c : KeyCrypto} {master : JsString} {iv : Base64} {p : JsString}
    (hopens : c.Opens master iv p) : c.openSecret master (c.sealSecret master iv p) = some p := by
  have hsplit : (c.sealSecret master iv p).splitOn 0x2E =
      [iv.val, (c.cipher master iv p).1.val, (c.cipher master iv p).2.val] := by
    have hjoin : c.sealSecret master iv p =
        [0x2E].intercalate [iv.val, (c.cipher master iv p).1.val, (c.cipher master iv p).2.val] := by
      unfold KeyCrypto.sealSecret
      simp [List.intercalate, js, utf16]
    rw [hjoin]
    refine List.splitOn_intercalate 0x2E ?_ (List.cons_ne_nil _ _)
    intro t ht
    rcases List.mem_cons.mp ht with rfl | ht
    · exact iv.noDot
    rcases List.mem_cons.mp ht with rfl | ht
    · exact Base64.noDot _
    · obtain rfl := List.mem_singleton.mp ht
      exact Base64.noDot _
  unfold KeyCrypto.openSecret
  rw [hsplit]
  exact hopens

/-! ### The table -/

namespace KeyTable

variable {t : KeyTable} {id : JsString} {r : KeyRow} {f : KeyRow → KeyRow}

theorem get_eq_some_iff : t.get id = some r ↔ r ∈ t.rows ∧ r.id = id := find?_key_iff t.uniqueId

theorem get_eq_none_iff : t.get id = none ↔ ∀ r ∈ t.rows, r.id ≠ id := find?_key_none_iff

theorem byHash_eq_some_iff {hash : JsString} : t.byHash hash = some r ↔ r ∈ t.rows ∧ r.keyHash = hash :=
  find?_key_iff t.uniqueHash

theorem byHash_eq_none_iff {hash : JsString} : t.byHash hash = none ↔ ∀ r ∈ t.rows, r.keyHash ≠ hash :=
  find?_key_none_iff

/-- A statement that keeps the constraints succeeds. -/
theorem ofRows?_of_nodup {rows : List KeyRow} (hid : (rows.map KeyRow.id).Nodup)
    (hhash : (rows.map KeyRow.keyHash).Nodup) : ∃ t, ofRows? rows = some t ∧ t.rows = rows :=
  ⟨⟨rows, hid, hhash⟩, dif_pos ⟨hid, hhash⟩, rfl⟩

theorem insert_of_new (hid : ∀ x ∈ t.rows, x.id ≠ r.id) (hhash : ∀ x ∈ t.rows, x.keyHash ≠ r.keyHash) :
    ∃ t', t.insert r = some t' ∧ t'.rows = t.rows ++ [r] := by
  refine ofRows?_of_nodup ?_ ?_
  · rw [List.map_append]
    refine List.nodup_append.mpr ⟨t.uniqueId, List.nodup_singleton _, ?_⟩
    rintro x hx _ hy rfl
    obtain ⟨y, hy', rfl⟩ := List.mem_map.mp hx
    exact hid y hy' (List.mem_singleton.mp hy)
  · rw [List.map_append]
    refine List.nodup_append.mpr ⟨t.uniqueHash, List.nodup_singleton _, ?_⟩
    rintro x hx _ hy rfl
    obtain ⟨y, hy', rfl⟩ := List.mem_map.mp hx
    exact hhash y hy' (List.mem_singleton.mp hy)

theorem update_of_kept (id : JsString) (hid : ∀ x, (f x).id = x.id) (hhash : ∀ x, (f x).keyHash = x.keyHash) :
    ∃ t', t.update id f = some t' ∧ t'.rows = updateAt KeyRow.id id f t.rows := by
  refine ofRows?_of_nodup ?_ ?_
  · rw [map_updateAt hid]
    exact t.uniqueId
  · rw [map_updateAt hhash]
    exact t.uniqueHash

theorem update_of_newHash (id : JsString) {hash : JsString} (hid : ∀ x, (f x).id = x.id)
    (hset : ∀ x, (f x).keyHash = hash) (hnew : ∀ x ∈ t.rows, x.keyHash ≠ hash) :
    ∃ t', t.update id f = some t' ∧ t'.rows = updateAt KeyRow.id id f t.rows := by
  refine ofRows?_of_nodup ?_ (nodup_map_updateAt t.uniqueId t.uniqueHash hnew hset)
  rw [map_updateAt hid]
  exact t.uniqueId

theorem delete_rows (t : KeyTable) (id : JsString) :
    ∃ t', t.delete id = some t' ∧ t'.rows = t.rows.filter fun r => decide (r.id ≠ id) :=
  ofRows?_of_nodup (t.uniqueId.sublist (List.filter_sublist.map _))
    (t.uniqueHash.sublist (List.filter_sublist.map _))

end KeyTable

/-! ### The cache -/

section Cache

/-- A row without its last use. -/
def KeyRow.untouched (r : KeyRow) : KeyRow := { r with lastUsedAt := none }

theorem stmtTouch_untouched (t : KeyTable) (ts : ℕ) (id : JsString) :
    (KeyStore.stmtTouch t ts id).rows.map KeyRow.untouched = t.rows.map KeyRow.untouched := by
  obtain ⟨t', ht', hrows⟩ := KeyTable.update_of_kept (t := t) (f := fun r => { r with lastUsedAt := some ts }) id
    (fun _ => rfl) fun _ => rfl
  unfold KeyStore.stmtTouch
  rw [ht']
  show t'.rows.map _ = _
  rw [hrows]
  exact map_updateAt fun _ => rfl

theorem flushTouch_untouched (s : KeyStore) :
    s.flushTouch.table.rows.map KeyRow.untouched = s.table.rows.map KeyRow.untouched := by
  have hfold : ∀ (rows : List KeyRow) (t : KeyTable),
      (rows.foldl (KeyStore.landTouch s.touchPending) t).rows.map KeyRow.untouched =
        t.rows.map KeyRow.untouched := by
    intro rows
    induction rows with
    | nil => exact fun _ => rfl
    | cons r rows ih =>
      intro t
      rw [List.foldl_cons, ih]
      unfold KeyStore.landTouch
      cases s.touchPending r.id with
      | none => rfl
      | some ts => exact stmtTouch_untouched t ts r.id
  exact hfold s.table.rows s.table

/-- What is cached for an id is what its row says. -/
def KeyStore.CacheCoherent (s : KeyStore) : Prop :=
  ∀ id hit, s.scopesCache id = some hit → ∃ r ∈ s.table.rows, r.id = id ∧ hit = parseKeyScopes r.scopes

variable {s s' : KeyStore}

theorem KeyTable.ofRows?_rows {rows : List KeyRow} {t : KeyTable} (h : ofRows? rows = some t) : t.rows = rows := by
  unfold ofRows? at h
  split_ifs at h
  exact congrArg KeyTable.rows (Option.some.inj h).symm

/-- Every cached id keeps a row with its scopes. -/
theorem CacheCoherent.of_kept (h : s.CacheCoherent)
    (hkept : ∀ id hit, s'.scopesCache id = some hit → s.scopesCache id = some hit ∧
      ∀ r ∈ s.table.rows, r.id = id → ∃ r' ∈ s'.table.rows, r'.id = id ∧ r'.scopes = r.scopes) :
    s'.CacheCoherent := by
  intro id hit hhit
  obtain ⟨hhit, hrow⟩ := hkept id hit hhit
  obtain ⟨r, hr, hrid, hparse⟩ := h id hit hhit
  obtain ⟨r', hr', hrid', hscopes⟩ := hrow r hr hrid
  exact ⟨r', hr', hrid', hscopes ▸ hparse⟩

theorem CacheCoherent.of_untouched (h : s.CacheCoherent) (hcache : s'.scopesCache = s.scopesCache)
    (hrows : s'.table.rows.map KeyRow.untouched = s.table.rows.map KeyRow.untouched) : s'.CacheCoherent := by
  refine CacheCoherent.of_kept h fun id hit hhit => ⟨hcache ▸ hhit, fun r hr hrid => ?_⟩
  obtain ⟨r', hr', heq⟩ := List.mem_map.mp (hrows ▸ List.mem_map_of_mem hr)
  have hid : r'.id = r.id := (congrArg KeyRow.id heq :)
  exact ⟨r', hr', hid.trans hrid, (congrArg KeyRow.scopes heq :)⟩

/-- The cache has forgotten the id it is cleared at. -/
theorem cleared_some {cache : JsString → Option (Option (List JsString))} {id id' : JsString}
    {hit : Option (List JsString)} (h : Function.update cache id none id' = some hit) :
    id' ≠ id ∧ cache id' = some hit := by
  by_cases heq : id' = id
  · rw [heq, Function.update_self] at h
    exact nomatch h
  · rw [Function.update_of_ne heq] at h
    exact ⟨heq, h⟩

theorem CacheCoherent.create (c : KeyCrypto) (h : s.CacheCoherent) (input : KeyInput) (id secret : JsString)
    (iv : Base64) (now : ℕ) : (s.create c input id secret iv now).2.CacheCoherent := by
  unfold KeyStore.create
  cases ht : s.table.insert (s.newRow c input id secret iv now) with
  | none => exact h
  | some t =>
    refine CacheCoherent.of_kept h fun id hit hhit => ⟨hhit, fun r hr hrid => ⟨r, ?_, hrid, rfl⟩⟩
    show r ∈ t.rows
    rw [KeyTable.ofRows?_rows ht]
    exact List.mem_append_left _ hr

/-- An update forgets the id, whose scopes it may change. -/
theorem CacheCoherent.update (h : s.CacheCoherent) (id : JsString) (patch : KeyPatch) (now : ℕ) :
    (s.update id patch now).2.CacheCoherent := by
  unfold KeyStore.update
  cases s.get id with
  | none => exact h
  | some current =>
    dsimp only
    cases ht : s.table.update id (KeyStore.patchRow current patch now) with
    | none => exact h
    | some t =>
      refine CacheCoherent.of_kept h fun id' hit hhit => ?_
      obtain ⟨hne, hhit⟩ := cleared_some hhit
      refine ⟨hhit, fun r hr hrid => ⟨r, ?_, hrid, rfl⟩⟩
      show r ∈ t.rows
      rw [KeyTable.ofRows?_rows ht]
      exact mem_updateAt_iff.mpr (Or.inl ⟨hr, fun heq => hne (hrid.symm.trans heq)⟩)

/-- A rotate leaves the scopes alone. -/
theorem CacheCoherent.rotate (c : KeyCrypto) (h : s.CacheCoherent) (id secret : JsString) (iv : Base64) :
    (s.rotate c id secret iv).2.CacheCoherent := by
  unfold KeyStore.rotate
  cases s.get id with
  | none => exact h
  | some current =>
    cases ht : s.table.update id (s.rotateRow c secret iv) with
    | none => exact h
    | some t =>
      have hrows : t.rows = updateAt KeyRow.id id (s.rotateRow c secret iv) s.table.rows :=
        KeyTable.ofRows?_rows ht
      refine CacheCoherent.of_kept h fun id' hit hhit => ⟨hhit, fun r hr hrid => ?_⟩
      by_cases heq : r.id = id
      · have hmem : s.rotateRow c secret iv r ∈ t.rows := hrows ▸ mem_updateAt_iff.mpr (Or.inr ⟨r, hr, heq, rfl⟩)
        exact ⟨_, hmem, hrid, rfl⟩
      · have hmem : r ∈ t.rows := hrows ▸ mem_updateAt_iff.mpr (Or.inl ⟨hr, heq⟩)
        exact ⟨r, hmem, hrid, rfl⟩

theorem CacheCoherent.remove (h : s.CacheCoherent) (id : JsString) : (s.remove id).2.CacheCoherent := by
  obtain ⟨t, ht, hrows⟩ := s.table.delete_rows id
  unfold KeyStore.remove
  rw [ht]
  refine CacheCoherent.of_kept h fun id' hit hhit => ?_
  obtain ⟨hne, hhit⟩ := cleared_some hhit
  refine ⟨hhit, fun r hr hrid => ⟨r, ?_, hrid, rfl⟩⟩
  show r ∈ t.rows
  rw [hrows, List.mem_filter, decide_eq_true_iff]
  exact ⟨hr, hrid ▸ hne⟩

/-- A read caches what the row says. -/
theorem CacheCoherent.scopesOf (h : s.CacheCoherent) (id : JsString) : (s.scopesOf id).2.CacheCoherent := by
  unfold KeyStore.scopesOf
  cases s.scopesCache id with
  | some hit => exact h
  | none =>
    cases hget : s.get id with
    | none => exact h
    | some rec =>
      obtain ⟨row, hrow, rfl⟩ := Option.map_eq_some_iff.mp hget
      obtain ⟨hr, hrid⟩ := KeyTable.get_eq_some_iff.mp hrow
      intro id' hit hhit
      change Function.update s.scopesCache id (some (parseKeyScopes row.fromRow.scopes)) id' = some hit at hhit
      by_cases heq : id' = id
      · rw [heq, Function.update_self] at hhit
        exact ⟨row, hr, hrid.trans heq.symm, (Option.some.inj hhit).symm⟩
      · rw [Function.update_of_ne heq] at hhit
        exact h id' hit hhit

theorem CacheCoherent.touch (h : s.CacheCoherent) (id : JsString) (now : ℕ) : (s.touch id now).CacheCoherent := by
  unfold KeyStore.touch
  split
  · exact CacheCoherent.of_untouched h rfl rfl
  · exact CacheCoherent.of_untouched h rfl (stmtTouch_untouched s.table now id)

/-- The step lemma of the cache. -/
theorem CacheCoherent.step (c : KeyCrypto) (h : s.CacheCoherent) (a : KeyAction) : (s.step c a).CacheCoherent := by
  cases a with
  | create input id secret iv now => exact CacheCoherent.create c h input id secret iv now
  | update id patch now => exact CacheCoherent.update h id patch now
  | rotate id secret iv => exact CacheCoherent.rotate c h id secret iv
  | remove id => exact CacheCoherent.remove h id
  | scopesOf id => exact CacheCoherent.scopesOf h id
  | touch id now => exact CacheCoherent.touch h id now
  | flushTouch => exact CacheCoherent.of_untouched h rfl (flushTouch_untouched s)
  | reopen => exact fun id hit hhit => nomatch hhit

/-- A coherent cache answers with the stored scopes. -/
theorem CacheCoherent.scopesOf_eq (h : s.CacheCoherent) (id : JsString) :
    (s.scopesOf id).1 = (s.get id).bind fun key => parseKeyScopes key.scopes := by
  unfold KeyStore.scopesOf
  cases hhit : s.scopesCache id with
  | some hit =>
    obtain ⟨r, hr, hrid, hparse⟩ := h id hit hhit
    have hget : s.get id = some r.fromRow :=
      Option.map_eq_some_iff.mpr ⟨r, KeyTable.get_eq_some_iff.mpr ⟨hr, hrid⟩, rfl⟩
    rw [hget]
    exact hparse
  | none => cases s.get id <;> rfl

end Cache

/-! ### The refinement -/

section Refinement

variable {c : KeyCrypto} {master : JsString}

/-- The columns of a row say what the registry says of its key. -/
structure KeyRow.Models (c : KeyCrypto) (master : JsString) (r : KeyRow) (st : KeyState) : Prop where
  keyHash : r.keyHash = c.hashKey st.plaintext
  disabledAt : r.disabledAt.isSome = st.disabled
  scopes : r.scopes = st.scopes
  secretEnc : ∃ blob, r.secretEnc = some blob ∧ c.openSecret master blob = some st.plaintext

/-- The store against the registry; `ids` and `issued` are those generated so far. -/
structure Refines (c : KeyCrypto) (master : JsString) (ids issued : List JsString) (s : KeyStore)
    (reg : KeyRegistry) : Prop where
  hasMaster : s.masterKey = some master
  row : ∀ r ∈ s.table.rows, ∃ st, reg r.id = some st ∧ r.Models c master st
  complete : ∀ id st, reg id = some st → ∃ r ∈ s.table.rows, r.id = id
  cache : s.CacheCoherent
  created : ∀ id st, reg id = some st → id ∈ ids
  issued : ∀ id st, reg id = some st → st.plaintext ∈ issued

variable {ids issued : List JsString} {s : KeyStore} {reg : KeyRegistry}

theorem init_refines (master : JsString) : Refines c master [] [] (.init (some master) .empty) .empty where
  hasMaster := rfl
  row := fun _ hr => absurd hr List.not_mem_nil
  complete := fun _ _ h => nomatch h
  cache := fun _ _ h => nomatch h
  created := fun _ _ h => nomatch h
  issued := fun _ _ h => nomatch h

/-- The row of an id, and what the registry has for it. -/
theorem Refines.get (h : Refines c master ids issued s reg) {id : JsString} {r : KeyRow}
    (hget : s.table.get id = some r) : r ∈ s.table.rows ∧ r.id = id ∧
      ∃ st, reg id = some st ∧ r.Models c master st := by
  obtain ⟨hr, rfl⟩ := KeyTable.get_eq_some_iff.mp hget
  exact ⟨hr, rfl, h.row r hr⟩

theorem Refines.get_none (h : Refines c master ids issued s reg) {id : JsString} (hget : s.table.get id = none) :
    reg id = none := by
  cases hreg : reg id with
  | none => rfl
  | some st =>
    obtain ⟨r, hr, hid⟩ := h.complete id st hreg
    exact absurd hid (KeyTable.get_eq_none_iff.mp hget r hr)

/-- Rows of a new plaintext have no hash in common with the table. -/
theorem Refines.newHash (h : Refines c master ids issued s reg) {p : JsString} (hnew : p ∉ issued)
    (happart : c.HashesApart issued) : ∀ r ∈ s.table.rows, r.keyHash ≠ c.hashKey p := by
  intro r hr hhash
  obtain ⟨st, hreg, hrow⟩ := h.row r hr
  have hissued := h.issued r.id st hreg
  have hsame : p = st.plaintext := happart _ hissued p (hhash.symm.trans hrow.keyHash)
  exact hnew (hsame ▸ hissued)

/-! ### One action -/

theorem Refines.create (h : Refines c master ids issued s reg) (happart : c.HashesApart issued)
    {input : KeyInput} {id secret : JsString} {iv : Base64} {now : ℕ} (hid : id ∉ ids)
    (hp : plaintextOf secret ∉ issued) (hopens : c.Opens master iv (plaintextOf secret)) :
    Refines c master (ids ++ [id]) (issued ++ [plaintextOf secret]) (s.create c input id secret iv now).2
      (Function.update reg id (some ⟨plaintextOf secret, false, none⟩)) := by
  have hfree : ∀ x ∈ s.table.rows, x.id ≠ id := by
    rintro x hx rfl
    obtain ⟨st, hreg, -⟩ := h.row x hx
    exact hid (h.created _ st hreg)
  obtain ⟨t, ht, hrows⟩ := KeyTable.insert_of_new (r := s.newRow c input id secret iv now) hfree
    (h.newHash hp happart)
  have hsecret : (s.newRow c input id secret iv now).secretEnc =
      some (c.sealSecret master iv (plaintextOf secret)) := by
    show s.masterKey.map _ = _
    rw [h.hasMaster]
    rfl
  have hcache := CacheCoherent.create c h.cache input id secret iv now
  unfold KeyStore.create at hcache ⊢
  rw [ht] at hcache ⊢
  refine ⟨h.hasMaster, ?_, ?_, hcache, ?_, ?_⟩
  · intro r hr
    change r ∈ t.rows at hr
    rw [hrows] at hr
    rcases List.mem_append.mp hr with hr | hr
    · obtain ⟨st, hreg, hrow⟩ := h.row r hr
      exact ⟨st, (Function.update_of_ne (hfree r hr) _ _).trans hreg, hrow⟩
    · obtain rfl := List.mem_singleton.mp hr
      exact ⟨_, Function.update_self .., rfl, rfl, rfl, _, hsecret, openSecret_sealSecret hopens⟩
  · intro id' st hreg
    show ∃ r ∈ t.rows, r.id = id'
    rw [hrows]
    by_cases heq : id' = id
    · exact ⟨_, List.mem_append_right _ (List.mem_singleton.mpr rfl), heq.symm⟩
    · rw [Function.update_of_ne heq] at hreg
      obtain ⟨r, hr, hrid⟩ := h.complete id' st hreg
      exact ⟨r, List.mem_append_left _ hr, hrid⟩
  · intro id' st hreg
    by_cases heq : id' = id
    · exact List.mem_append_right _ (List.mem_singleton.mpr heq)
    · rw [Function.update_of_ne heq] at hreg
      exact List.mem_append_left _ (h.created id' st hreg)
  · intro id' st hreg
    by_cases heq : id' = id
    · rw [heq, Function.update_self] at hreg
      obtain rfl := Option.some.inj hreg
      exact List.mem_append_right _ (List.mem_singleton.mpr rfl)
    · rw [Function.update_of_ne heq] at hreg
      exact List.mem_append_left _ (h.issued id' st hreg)

/-- A row is rewritten as its registry entry is. -/
theorem Refines.rewrite (h : Refines c master ids issued s reg) {t : KeyTable} {id : JsString} {f : KeyRow → KeyRow}
    {g : KeyState → KeyState} {cache : JsString → Option (Option (List JsString))} {issued' : List JsString}
    (hrows : t.rows = updateAt KeyRow.id id f s.table.rows) (hfid : ∀ x, (f x).id = x.id)
    (hmodels : ∀ r st, r ∈ s.table.rows → r.id = id → reg id = some st → r.Models c master st →
      (f r).Models c master (g st))
    (hcache : KeyStore.CacheCoherent { s with table := t, scopesCache := cache })
    (hissued : ∀ p ∈ issued, p ∈ issued') (hg : ∀ st, reg id = some st → (g st).plaintext ∈ issued') :
    Refines c master ids issued' { s with table := t, scopesCache := cache }
      (Function.update reg id ((reg id).map g)) := by
  refine ⟨h.hasMaster, ?_, ?_, hcache, ?_, ?_⟩
  · intro r hr
    change r ∈ t.rows at hr
    rw [hrows] at hr
    rcases mem_updateAt_iff.mp hr with ⟨hr, hne⟩ | ⟨r', hr', hid, rfl⟩
    · obtain ⟨st, hreg, hrow⟩ := h.row r hr
      exact ⟨st, (Function.update_of_ne hne _ _).trans hreg, hrow⟩
    · obtain ⟨st, hreg, hrow⟩ := h.row r' hr'
      rw [hid] at hreg
      refine ⟨g st, ?_, hmodels r' st hr' hid hreg hrow⟩
      rw [hfid, hid, Function.update_self, hreg]
      rfl
  · intro id' st hreg
    show ∃ r ∈ t.rows, r.id = id'
    have hold : ∃ st', reg id' = some st' := by
      by_cases heq : id' = id
      · rw [heq, Function.update_self] at hreg
        obtain ⟨st', hreg', -⟩ := Option.map_eq_some_iff.mp hreg
        exact ⟨st', heq ▸ hreg'⟩
      · rw [Function.update_of_ne heq] at hreg
        exact ⟨st, hreg⟩
    obtain ⟨st', hreg'⟩ := hold
    obtain ⟨r, hr, hrid⟩ := h.complete id' st' hreg'
    rw [hrows]
    by_cases heq : r.id = id
    · exact ⟨f r, mem_updateAt_iff.mpr (Or.inr ⟨r, hr, heq, rfl⟩), (hfid r).trans hrid⟩
    · exact ⟨r, mem_updateAt_iff.mpr (Or.inl ⟨hr, heq⟩), hrid⟩
  · intro id' st hreg
    by_cases heq : id' = id
    · rw [heq, Function.update_self] at hreg
      obtain ⟨st', hreg', -⟩ := Option.map_eq_some_iff.mp hreg
      exact heq ▸ h.created id st' hreg'
    · rw [Function.update_of_ne heq] at hreg
      exact h.created id' st hreg
  · intro id' st hreg
    by_cases heq : id' = id
    · rw [heq, Function.update_self] at hreg
      obtain ⟨st', hreg', rfl⟩ := Option.map_eq_some_iff.mp hreg
      exact hg st' hreg'
    · rw [Function.update_of_ne heq] at hreg
      exact hissued _ (h.issued id' st hreg)

/-- An id without a row has nothing to rewrite. -/
theorem Refines.absent (h : Refines c master ids issued s reg) {id : JsString} (hget : s.get id = none)
    (g : KeyState → KeyState) : Function.update reg id ((reg id).map g) = reg := by
  have hnone : reg id = none := h.get_none (Option.map_eq_none_iff.mp hget)
  rw [hnone, Option.map_none, ← hnone, Function.update_eq_self]

theorem Refines.update (h : Refines c master ids issued s reg) (id : JsString) (patch : KeyPatch) (now : ℕ) :
    Refines c master ids issued (s.update id patch now).2 (Function.update reg id ((reg id).map patch.apply)) := by
  have hcache := CacheCoherent.update h.cache id patch now
  unfold KeyStore.update at hcache ⊢
  cases hget : s.get id with
  | none =>
    rw [h.absent hget]
    exact h
  | some current =>
    rw [hget] at hcache
    obtain ⟨row, hrow, rfl⟩ := Option.map_eq_some_iff.mp hget
    obtain ⟨t, ht, hrows⟩ := KeyTable.update_of_kept (t := s.table) (f := KeyStore.patchRow row.fromRow patch now) id
      (fun _ => rfl) fun _ => rfl
    dsimp only at hcache ⊢
    rw [ht] at hcache ⊢
    refine h.rewrite hrows (fun _ => rfl) ?_ hcache (fun _ hp => hp) fun st hreg => h.issued id st hreg
    intro r st hr hrid _ hmodels
    have hsame : r = row :=
      Option.some.inj ((KeyTable.get_eq_some_iff.mpr ⟨hr, hrid⟩).symm.trans hrow)
    subst hsame
    refine ⟨hmodels.keyHash, ?_, ?_, hmodels.secretEnc⟩
    · show (patch.newDisabledAt r.disabledAt now).isSome = patch.disabled.getD st.disabled
      unfold KeyPatch.newDisabledAt
      cases patch.disabled with
      | none => exact hmodels.disabledAt
      | some disabled => cases disabled <;> rfl
    · exact congrArg patch.newScopes hmodels.scopes

theorem Refines.rotate (h : Refines c master ids issued s reg) (happart : c.HashesApart issued)
    {secret : JsString} {iv : Base64} (id : JsString) (hp : plaintextOf secret ∉ issued)
    (hopens : c.Opens master iv (plaintextOf secret)) :
    Refines c master ids (issued ++ [plaintextOf secret]) (s.rotate c id secret iv).2
      (Function.update reg id ((reg id).map fun st => { st with plaintext := plaintextOf secret })) := by
  have hcache := CacheCoherent.rotate c h.cache id secret iv
  unfold KeyStore.rotate at hcache ⊢
  cases hget : s.get id with
  | none =>
    rw [h.absent hget]
    exact { h with issued := fun id' st hreg => List.mem_append_left _ (h.issued id' st hreg) }
  | some current =>
    rw [hget] at hcache
    obtain ⟨t, ht, hrows⟩ := KeyTable.update_of_newHash (t := s.table) (f := s.rotateRow c secret iv) id
      (fun _ => rfl) (fun _ => rfl) (h.newHash hp happart)
    have hsecret : s.secretEnc c iv (plaintextOf secret) =
        some (c.sealSecret master iv (plaintextOf secret)) := by
      unfold KeyStore.secretEnc
      rw [h.hasMaster]
      rfl
    dsimp only at hcache ⊢
    rw [ht] at hcache ⊢
    refine h.rewrite hrows (fun _ => rfl) ?_ hcache
      (fun _ hq => List.mem_append_left _ hq) fun _ _ => List.mem_append_right _ (List.mem_singleton.mpr rfl)
    intro r st _ _ _ hmodels
    exact ⟨rfl, hmodels.disabledAt, hmodels.scopes, _, hsecret, openSecret_sealSecret hopens⟩

theorem Refines.remove (h : Refines c master ids issued s reg) (id : JsString) :
    Refines c master ids issued (s.remove id).2 (Function.update reg id none) := by
  obtain ⟨t, ht, hrows⟩ := s.table.delete_rows id
  have hmem : ∀ r, r ∈ t.rows ↔ r ∈ s.table.rows ∧ r.id ≠ id := by
    intro r
    rw [hrows, List.mem_filter, decide_eq_true_iff]
  have hother : ∀ {id' st}, Function.update reg id none id' = some st → id' ≠ id ∧ reg id' = some st := by
    intro id' st hreg
    by_cases heq : id' = id
    · rw [heq, Function.update_self] at hreg
      exact nomatch hreg
    · rw [Function.update_of_ne heq] at hreg
      exact ⟨heq, hreg⟩
  have hcache := CacheCoherent.remove h.cache id
  unfold KeyStore.remove at hcache ⊢
  rw [ht] at hcache ⊢
  refine ⟨h.hasMaster, ?_, ?_, hcache, fun id' st hreg => h.created id' st (hother hreg).2,
    fun id' st hreg => h.issued id' st (hother hreg).2⟩
  · intro r hr
    obtain ⟨hr, hne⟩ := (hmem r).mp hr
    obtain ⟨st, hreg, hrow⟩ := h.row r hr
    exact ⟨st, (Function.update_of_ne hne _ _).trans hreg, hrow⟩
  · intro id' st hreg
    obtain ⟨hne, hreg⟩ := hother hreg
    obtain ⟨r, hr, hrid⟩ := h.complete id' st hreg
    exact ⟨r, (hmem r).mpr ⟨hr, hrid ▸ hne⟩, hrid⟩

theorem Refines.scopesOf (h : Refines c master ids issued s reg) (id : JsString) :
    Refines c master ids issued (s.scopesOf id).2 reg := by
  have hcache := CacheCoherent.scopesOf h.cache id
  unfold KeyStore.scopesOf at hcache ⊢
  cases hhit : s.scopesCache id with
  | some hit => exact h
  | none =>
    rw [hhit] at hcache
    cases hget : s.get id with
    | none => exact h
    | some rec =>
      rw [hget] at hcache
      exact { h with cache := hcache }

/-! ### The last use -/

/-- The registry knows nothing of the last use. -/
theorem Refines.of_untouched (h : Refines c master ids issued s reg) {s' : KeyStore}
    (hmaster : s'.masterKey = s.masterKey) (hcache : s'.CacheCoherent)
    (hrows : s'.table.rows.map KeyRow.untouched = s.table.rows.map KeyRow.untouched) :
    Refines c master ids issued s' reg := by
  have hback : ∀ r' ∈ s'.table.rows, ∃ r ∈ s.table.rows, r.untouched = r'.untouched := fun r' hr' =>
    List.mem_map.mp (hrows ▸ List.mem_map_of_mem hr')
  have hforth : ∀ r ∈ s.table.rows, ∃ r' ∈ s'.table.rows, r'.untouched = r.untouched := fun r hr =>
    List.mem_map.mp (hrows ▸ List.mem_map_of_mem hr)
  have hid : ∀ {r r' : KeyRow}, r.untouched = r'.untouched → r.id = r'.id := fun heq => (congrArg KeyRow.id heq :)
  refine ⟨hmaster.trans h.hasMaster, ?_, ?_, hcache, h.created, h.issued⟩
  · intro r' hr'
    obtain ⟨r, hr, heq⟩ := hback r' hr'
    obtain ⟨st, hreg, hrow⟩ := h.row r hr
    refine ⟨st, hid heq ▸ hreg, ?_, ?_, ?_, ?_⟩
    · exact (congrArg KeyRow.keyHash heq).symm.trans hrow.keyHash
    · exact (congrArg (fun r => r.disabledAt.isSome) heq).symm.trans hrow.disabledAt
    · exact (congrArg KeyRow.scopes heq).symm.trans hrow.scopes
    · obtain ⟨blob, hblob, hopen⟩ := hrow.secretEnc
      exact ⟨blob, (congrArg KeyRow.secretEnc heq).symm.trans hblob, hopen⟩
  · intro id st hreg
    obtain ⟨r, hr, hrid⟩ := h.complete id st hreg
    obtain ⟨r', hr', heq⟩ := hforth r hr
    exact ⟨r', hr', (hid heq).trans hrid⟩

theorem Refines.touch (h : Refines c master ids issued s reg) (id : JsString) (now : ℕ) :
    Refines c master ids issued (s.touch id now) reg := by
  have hcache := CacheCoherent.touch h.cache id now
  unfold KeyStore.touch at hcache ⊢
  split at hcache
  · rename_i hsoon
    rw [if_pos hsoon]
    exact h.of_untouched rfl hcache rfl
  · rename_i hlate
    rw [if_neg hlate]
    exact h.of_untouched rfl hcache (stmtTouch_untouched s.table now id)

theorem Refines.flushTouch (h : Refines c master ids issued s reg) :
    Refines c master ids issued s.flushTouch reg :=
  h.of_untouched rfl (CacheCoherent.of_untouched h.cache rfl (flushTouch_untouched s)) (flushTouch_untouched s)

theorem Refines.reopen (h : Refines c master ids issued s reg) :
    Refines c master ids issued (.init s.masterKey s.table) reg :=
  h.of_untouched rfl (fun _ _ hhit => (nomatch hhit)) rfl

/-- The step lemma. -/
theorem Refines.step (h : Refines c master ids issued s reg) (a : KeyAction) (hid : ∀ id ∈ a.created?, id ∉ ids)
    (hp : ∀ p ∈ a.issued?, p ∉ issued) (happart : c.HashesApart issued)
    (hopens : ∀ x ∈ a.sealed?, c.Opens master x.1 x.2) :
    Refines c master (ids ++ a.created?.toList) (issued ++ a.issued?.toList) (s.step c a) (reg.step a) := by
  cases a with
  | create input id secret iv now => exact h.create happart (hid id rfl) (hp _ rfl) (hopens _ rfl)
  | rotate id secret iv =>
    show Refines c master (ids ++ []) _ _ _
    rw [List.append_nil]
    exact h.rotate happart id (hp _ rfl) (hopens _ rfl)
  | update id patch now =>
    show Refines c master (ids ++ []) (issued ++ []) _ _
    rw [List.append_nil, List.append_nil]
    exact h.update id patch now
  | remove id =>
    show Refines c master (ids ++ []) (issued ++ []) _ _
    rw [List.append_nil, List.append_nil]
    exact h.remove id
  | scopesOf id =>
    show Refines c master (ids ++ []) (issued ++ []) _ _
    rw [List.append_nil, List.append_nil]
    exact h.scopesOf id
  | touch id now =>
    show Refines c master (ids ++ []) (issued ++ []) _ _
    rw [List.append_nil, List.append_nil]
    exact h.touch id now
  | flushTouch =>
    show Refines c master (ids ++ []) (issued ++ []) _ _
    rw [List.append_nil, List.append_nil]
    exact h.flushTouch
  | reopen =>
    show Refines c master (ids ++ []) (issued ++ []) _ _
    rw [List.append_nil, List.append_nil]
    exact h.reopen

theorem issuedBy_append (as bs : List KeyAction) : issuedBy (as ++ bs) = issuedBy as ++ issuedBy bs :=
  List.filterMap_append

theorem createdBy_append (as bs : List KeyAction) : createdBy (as ++ bs) = createdBy as ++ createdBy bs :=
  List.filterMap_append

theorem issuedBy_singleton (a : KeyAction) : issuedBy [a] = a.issued?.toList := by
  cases a <;> rfl

theorem createdBy_singleton (a : KeyAction) : createdBy [a] = a.created?.toList := by
  cases a <;> rfl

theorem FreshKeys.left {as bs : List KeyAction} (h : FreshKeys (as ++ bs)) : FreshKeys as := by
  unfold FreshKeys at h
  rw [createdBy_append, issuedBy_append] at h
  exact ⟨(List.nodup_append.mp h.1).1, (List.nodup_append.mp h.2).1⟩

theorem HashesApart.left {as bs : List KeyAction} (h : c.HashesApart (issuedBy (as ++ bs))) :
    c.HashesApart (issuedBy as) := by
  rw [issuedBy_append] at h
  exact fun q hq => h q (List.mem_append_left _ hq)

/-- The run lemma. -/
theorem run_refines (as : List KeyAction) (hfresh : FreshKeys as) (happart : c.HashesApart (issuedBy as))
    (hopens : ∀ a ∈ as, ∀ x ∈ a.sealed?, c.Opens master x.1 x.2) :
    Refines c master (createdBy as) (issuedBy as) (KeyStore.run c (.init (some master) .empty) as)
      (KeyRegistry.run .empty as) := by
  induction as using List.reverseRecOn with
  | nil => exact init_refines master
  | append_singleton as a ih =>
    have hprefix := ih hfresh.left (HashesApart.left happart) fun b hb => hopens b (List.mem_append_left _ hb)
    have hlast := hopens a (List.mem_append_right _ (List.mem_singleton.mpr rfl))
    unfold FreshKeys at hfresh
    rw [createdBy_append, createdBy_singleton, issuedBy_append, issuedBy_singleton] at hfresh
    have hid : ∀ id ∈ a.created?, id ∉ createdBy as := fun id hid hmem =>
      (List.nodup_append.mp hfresh.1).2.2 id hmem id (Option.mem_toList.mpr hid) rfl
    have hp : ∀ p ∈ a.issued?, p ∉ issuedBy as := fun p hp hmem =>
      (List.nodup_append.mp hfresh.2).2.2 p hmem p (Option.mem_toList.mpr hp) rfl
    unfold KeyStore.run KeyRegistry.run
    rw [createdBy_append, createdBy_singleton, issuedBy_append, issuedBy_singleton, List.foldl_append,
      List.foldl_append]
    exact hprefix.step a hid hp (HashesApart.left happart) hlast

/-! ### What the reads answer -/

/-- The row of a plaintext is the row of the key that holds it. -/
theorem Refines.byHash (h : Refines c master ids issued s reg) (happart : c.HashesApart issued) {p : JsString}
    {r : KeyRow} : s.table.byHash (c.hashKey p) = some r ↔
      r ∈ s.table.rows ∧ ∃ st, reg r.id = some st ∧ st.plaintext = p ∧ r.Models c master st := by
  rw [KeyTable.byHash_eq_some_iff]
  refine and_congr_right fun hr => ⟨fun hhash => ?_, ?_⟩
  · obtain ⟨st, hreg, hrow⟩ := h.row r hr
    have hsame : p = st.plaintext :=
      happart _ (h.issued r.id st hreg) p (hhash.symm.trans hrow.keyHash)
    exact ⟨st, hreg, hsame.symm, hrow⟩
  · rintro ⟨st, -, rfl, hrow⟩
    exact hrow.keyHash

/-- `verify` accepts or refuses a key by the latest plaintext and the flag. -/
theorem Refines.verify (h : Refines c master ids issued s reg) (happart : c.HashesApart issued) (p : JsString)
    (k : ApiKeyRecord) (b : Bool) :
    s.verify c p = (if b = true then .disabled k else .ok k) ↔
      s.get k.id = some k ∧ ∃ st, reg k.id = some st ∧ st.plaintext = p ∧ st.disabled = b := by
  have hbranch : ∀ r : KeyRow, (if r.disabledAt.isSome = true then KeyVerifyResult.disabled r.fromRow
      else .ok r.fromRow) = (if b = true then .disabled k else .ok k) ↔
        r.fromRow = k ∧ r.disabledAt.isSome = b := by
    intro r
    cases r.disabledAt.isSome <;> cases b <;> simp
  unfold KeyStore.verify
  constructor
  · intro hverify
    cases hrow : s.table.byHash (c.hashKey p) with
    | none =>
      rw [hrow] at hverify
      cases b <;> exact nomatch hverify
    | some r =>
      rw [hrow] at hverify
      obtain ⟨rfl, hflag⟩ := (hbranch r).mp hverify
      obtain ⟨hr, st, hreg, hp, hmodels⟩ := (h.byHash happart).mp hrow
      refine ⟨?_, st, hreg, hp, hmodels.disabledAt.symm.trans hflag⟩
      exact congrArg (Option.map KeyRow.fromRow) (KeyTable.get_eq_some_iff.mpr ⟨hr, rfl⟩)
  · rintro ⟨hget, st, hreg, hp, hflag⟩
    obtain ⟨r, hrow, hfrom⟩ := Option.map_eq_some_iff.mp hget
    obtain ⟨hr, hrid, st', hreg', hmodels⟩ := h.get hrow
    obtain rfl := Option.some.inj (hreg'.symm.trans hreg)
    have hfound : s.table.byHash (c.hashKey p) = some r :=
      (h.byHash happart).mpr ⟨hr, st', hrid ▸ hreg', hp, hmodels⟩
    rw [hfound]
    exact (hbranch r).mpr ⟨hfrom, hmodels.disabledAt.trans hflag⟩

theorem Refines.verify_unknown (h : Refines c master ids issued s reg) (happart : c.HashesApart issued)
    (p : JsString) : s.verify c p = .unknown ↔ ¬reg.Holds p := by
  unfold KeyStore.verify
  cases hrow : s.table.byHash (c.hashKey p) with
  | none =>
    refine iff_of_true rfl ?_
    rintro ⟨id, st, hreg, rfl⟩
    obtain ⟨r, hr, rfl⟩ := h.complete id st hreg
    obtain ⟨st', hreg', hmodels⟩ := h.row r hr
    obtain rfl := Option.some.inj (hreg'.symm.trans hreg)
    exact KeyTable.byHash_eq_none_iff.mp hrow r hr hmodels.keyHash
  | some r =>
    obtain ⟨-, st, hreg, hp, -⟩ := (h.byHash happart).mp hrow
    refine iff_of_false ?_ (not_not.mpr ⟨r.id, st, hreg, hp⟩)
    dsimp only
    split <;> simp

theorem Refines.reveal (h : Refines c master ids issued s reg) (id : JsString) :
    s.reveal c id = (reg id).map KeyState.plaintext := by
  unfold KeyStore.reveal
  cases hget : s.table.get id with
  | none =>
    rw [h.get_none hget]
    rfl
  | some r =>
    obtain ⟨-, -, st, hreg, hmodels⟩ := h.get hget
    obtain ⟨blob, hblob, hopen⟩ := hmodels.secretEnc
    rw [hreg, Option.bind_some, hblob, Option.bind_some, h.hasMaster, Option.bind_some, hopen]
    rfl

/-! ### Rotation -/

/-- A plaintext has one key at most. -/
theorem Refines.holder (h : Refines c master ids issued s reg) {id id' : JsString} {st st' : KeyState}
    (hreg : reg id = some st) (hreg' : reg id' = some st') (hp : st.plaintext = st'.plaintext) : id = id' := by
  obtain ⟨r, hr, rfl⟩ := h.complete id st hreg
  obtain ⟨r', hr', rfl⟩ := h.complete id' st' hreg'
  obtain ⟨t, ht, hmodels⟩ := h.row r hr
  obtain ⟨t', ht', hmodels'⟩ := h.row r' hr'
  obtain rfl := Option.some.inj (ht.symm.trans hreg)
  obtain rfl := Option.some.inj (ht'.symm.trans hreg')
  have hhash : r.keyHash = r'.keyHash := by rw [hmodels.keyHash, hmodels'.keyHash, hp]
  exact congrArg KeyRow.id (List.inj_on_of_nodup_map s.table.uniqueHash hr hr' hhash)

theorem not_holds_update {p : JsString} (h : ¬reg.Holds p) {id : JsString} {v : Option KeyState}
    (hv : ∀ st, v = some st → st.plaintext ≠ p) : ¬KeyRegistry.Holds (Function.update reg id v) p := by
  rintro ⟨id', st, hreg, hst⟩
  by_cases heq : id' = id
  · rw [heq, Function.update_self] at hreg
    exact hv st hreg hst
  · rw [Function.update_of_ne heq] at hreg
    exact h ⟨id', st, hreg, hst⟩

/-- A plaintext no key holds is held again only when it is issued. -/
theorem not_holds_step {p : JsString} (h : ¬reg.Holds p) {a : KeyAction} (hp : p ∉ a.issued?) :
    ¬(reg.step a).Holds p := by
  cases a with
  | create input id secret iv now =>
    refine not_holds_update h fun st hst heq => hp ?_
    obtain rfl := Option.some.inj hst
    exact congrArg some heq
  | update id patch now =>
    refine not_holds_update h fun st hst heq => h ?_
    obtain ⟨st', hreg, rfl⟩ := Option.map_eq_some_iff.mp hst
    exact ⟨id, st', hreg, heq⟩
  | rotate id secret iv =>
    refine not_holds_update h fun st hst heq => hp ?_
    obtain ⟨st', -, rfl⟩ := Option.map_eq_some_iff.mp hst
    exact congrArg some heq
  | remove id => exact not_holds_update h fun st hst => nomatch hst
  | scopesOf | touch | flushTouch | reopen => exact h

theorem not_holds_run {p : JsString} :
    ∀ (as : List KeyAction) {reg : KeyRegistry}, ¬reg.Holds p → p ∉ issuedBy as → ¬(reg.run as).Holds p
  | [], _, h, _ => h
  | a :: as, reg, h, hp => by
    rw [← List.singleton_append, issuedBy_append, issuedBy_singleton, List.mem_append, not_or] at hp
    exact not_holds_run as (not_holds_step h fun hmem => hp.1 (Option.mem_toList.mpr hmem)) hp.2

/-- The plaintext a rotation replaces is held by no key from then on. -/
theorem not_holds_rotated {as bs : List KeyAction} {id secret : JsString} {iv : Base64}
    {st : KeyState} (hfresh : FreshKeys (as ++ .rotate id secret iv :: bs))
    (happart : c.HashesApart (issuedBy (as ++ .rotate id secret iv :: bs)))
    (hopens : ∀ a ∈ as ++ .rotate id secret iv :: bs, ∀ x ∈ a.sealed?, c.Opens master x.1 x.2)
    (hreg : KeyRegistry.run .empty as id = some st) :
    ¬(KeyRegistry.run .empty (as ++ .rotate id secret iv :: bs)).Holds st.plaintext := by
  have h := run_refines as hfresh.left (HashesApart.left happart) fun a ha => hopens a (List.mem_append_left _ ha)
  have hissued := h.issued id st hreg
  have hnodup := hfresh.2
  rw [issuedBy_append] at hnodup
  have hlater : st.plaintext ∉ issuedBy (.rotate id secret iv :: bs) := fun hmem =>
    (List.nodup_append.mp hnodup).2.2 _ hissued _ hmem rfl
  have hnew : plaintextOf secret ≠ st.plaintext := fun heq => hlater (heq ▸ List.mem_cons_self)
  unfold KeyRegistry.run
  rw [List.foldl_append, List.foldl_cons]
  refine not_holds_run bs ?_ fun hmem => hlater (List.mem_cons_of_mem _ hmem)
  rintro ⟨id', st', hreg', hp⟩
  change Function.update (KeyRegistry.run .empty as) id
    ((KeyRegistry.run .empty as id).map fun st => { st with plaintext := plaintextOf secret }) id' = some st' at hreg'
  by_cases heq : id' = id
  · rw [heq, Function.update_self] at hreg'
    obtain ⟨old, -, rfl⟩ := Option.map_eq_some_iff.mp hreg'
    exact hnew hp
  · rw [Function.update_of_ne heq] at hreg'
    exact heq (h.holder hreg' hreg hp)

/-! ### The lifecycle -/

/-- **The lifecycle of the keys.**  After every sequence of actions with fresh ids and plaintexts: `verify`
accepts a plaintext exactly as the latest one of an enabled key and reports a disabled key by the latest one
only, `reveal` gives the plaintext that verifies, `scopesOf` is the parse of the stored scopes, and a plaintext
that was rotated away is unknown. -/
theorem keyStore_lifecycle (c : KeyCrypto) (master : JsString) (as : List KeyAction) (hfresh : FreshKeys as)
    (happart : c.HashesApart (issuedBy as)) (hopens : ∀ a ∈ as, ∀ x ∈ a.sealed?, c.Opens master x.1 x.2) :
    (∀ p k, (KeyStore.run c (.init (some master) .empty) as).verify c p = .ok k ↔
      (KeyStore.run c (.init (some master) .empty) as).get k.id = some k ∧
        ∃ st, KeyRegistry.run .empty as k.id = some st ∧ st.plaintext = p ∧ st.disabled = false) ∧
      (∀ p k, (KeyStore.run c (.init (some master) .empty) as).verify c p = .disabled k ↔
        (KeyStore.run c (.init (some master) .empty) as).get k.id = some k ∧
          ∃ st, KeyRegistry.run .empty as k.id = some st ∧ st.plaintext = p ∧ st.disabled = true) ∧
      (∀ p, (KeyStore.run c (.init (some master) .empty) as).verify c p = .unknown ↔
        ¬(KeyRegistry.run .empty as).Holds p) ∧
      (∀ bs id secret iv cs st, as = bs ++ .rotate id secret iv :: cs → KeyRegistry.run .empty bs id = some st →
        (KeyStore.run c (.init (some master) .empty) as).verify c st.plaintext = .unknown) ∧
      (∀ id, (KeyStore.run c (.init (some master) .empty) as).reveal c id =
        (KeyRegistry.run .empty as id).map KeyState.plaintext) ∧
      ∀ id, ((KeyStore.run c (.init (some master) .empty) as).scopesOf id).1 =
        ((KeyStore.run c (.init (some master) .empty) as).get id).bind fun key => parseKeyScopes key.scopes := by
  have h := run_refines as hfresh happart hopens
  refine ⟨fun p k => ?_, fun p k => ?_, h.verify_unknown happart, ?_, h.reveal, CacheCoherent.scopesOf_eq h.cache⟩
  · rw [← h.verify happart p k false, if_neg Bool.false_ne_true]
  · rw [← h.verify happart p k true, if_pos rfl]
  · rintro bs id secret iv cs st rfl hreg
    exact (h.verify_unknown happart _).mpr (not_holds_rotated hfresh happart hopens hreg)

/-! ### A key that is rotated -/

def secretA : JsString := List.replicate 32 0x41
def secretB : JsString := List.replicate 32 0x42
def ivA : Base64 := ⟨js "AQEBAQEBAQEBAQEB", by decide +kernel⟩
def ivB : Base64 := ⟨js "AgICAgICAgICAgIC", by decide +kernel⟩
def ctA : Base64 := ⟨js "BYqk1vfGwU+QlZ1gMXYxcOm6VbVZ1npSGXACIyf1d/qD80nx3VLE", by decide +kernel⟩
def ctB : Base64 := ⟨js "ad/EZjySmGVYEsT1oMCOOIhRKrgy9Gj2hEixC1jT+THAlNTDcbp+", by decide +kernel⟩
def tagA : Base64 := ⟨js "2BiPZy/KrIuC3iDkmos+yA==", by decide +kernel⟩
def tagB : Base64 := ⟨js "lAs3b8MCLB3cSqhPosMyxw==", by decide +kernel⟩

def masterSevens : JsString := (List.replicate 32 (js "07")).flatten

/-- The hash and the cipher on two keys, under the master key of thirty-two bytes 7. -/
def sampleCrypto : KeyCrypto where
  sha256 p :=
    if p = plaintextOf secretA then js "11268173fe52b48da304322b3fdefa967bed57780a36e8c8092152386dec27e9"
    else if p = plaintextOf secretB then js "0f8f1868dd3761d23683f106859d4f4ae064130a25357ded3a6035baaf9dcba5"
    else []
  cipher _ _ p := if p = plaintextOf secretA then (ctA, tagA) else (ctB, tagB)
  decipher _ _ ct _ :=
    if ct = ctA.val then some (plaintextOf secretA)
    else if ct = ctB.val then some (plaintextOf secretB)
    else none

/-- A key is created, disabled and rotated. -/
def rotatedKey : List KeyAction :=
  [.create ⟨none, none, none⟩ (js "key_00000001") secretA ivA 1,
    .update (js "key_00000001") ⟨none, some true, none, none, some (some (js "gemini-3.5-flash"))⟩ 2,
    .scopesOf (js "key_00000001"), .rotate (js "key_00000001") secretB ivB]

theorem sampleCrypto_hashesApart : sampleCrypto.HashesApart (issuedBy rotatedKey) := by
  have hissued : issuedBy rotatedKey = [plaintextOf secretA, plaintextOf secretB] := rfl
  rw [hissued]
  intro q hq p hsame
  have hne : plaintextOf secretB ≠ plaintextOf secretA := by decide +kernel
  unfold sampleCrypto at hsame
  dsimp only at hsame
  rcases List.mem_cons.mp hq with rfl | hq
  · rw [if_pos rfl] at hsame
    split_ifs at hsame with hA hB
    · exact hA
    · exact absurd hsame (by decide +kernel)
    · exact absurd hsame (by decide +kernel)
  · obtain rfl := List.mem_singleton.mp hq
    rw [if_neg hne, if_pos rfl] at hsame
    split_ifs at hsame with hA hB
    · exact absurd hsame (by decide +kernel)
    · exact hB
    · exact absurd hsame (by decide +kernel)

/-- After the rotation the first plaintext is unknown and the second is revealed. -/
theorem keyStore_lifecycle_rotated :
    (KeyStore.run sampleCrypto (.init (some masterSevens) .empty) rotatedKey).verify sampleCrypto
        (plaintextOf secretA) = .unknown ∧
      (KeyStore.run sampleCrypto (.init (some masterSevens) .empty) rotatedKey).reveal sampleCrypto
        (js "key_00000001") = (KeyRegistry.run .empty rotatedKey (js "key_00000001")).map KeyState.plaintext := by
  have hfresh : FreshKeys rotatedKey := by
    unfold FreshKeys
    decide +kernel
  have hopens : ∀ a ∈ rotatedKey, ∀ x ∈ a.sealed?, sampleCrypto.Opens masterSevens x.1 x.2 := by
    unfold KeyCrypto.Opens
    intro a ha x hx
    unfold rotatedKey at ha
    simp only [List.mem_cons, List.not_mem_nil, or_false] at ha
    rcases ha with rfl | rfl | rfl | rfl
    · obtain rfl := Option.some.inj hx
      decide +kernel
    · exact nomatch hx
    · exact nomatch hx
    · obtain rfl := Option.some.inj hx
      decide +kernel
  have h := keyStore_lifecycle sampleCrypto masterSevens rotatedKey hfresh sampleCrypto_hashesApart hopens
  exact ⟨h.2.2.2.1 (rotatedKey.take 3) (js "key_00000001") secretB ivB []
    ⟨plaintextOf secretA, true, some (js "gemini-3.5-flash")⟩ rfl (by rfl), h.2.2.2.2.1 _⟩

end Refinement

end AgyProxy
