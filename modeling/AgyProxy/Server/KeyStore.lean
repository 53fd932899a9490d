import AgyProxy.Host.Attempt
import AgyProxy.Lib.Keyed
import Mathlib.Data.Rat.Floor

/-!
# AgyProxy.Server.KeyStore — the API keys (`src/server/key-store.ts`, the table in `src/server/db.ts`)

* `KeyTable`: the rows of `api_keys`; a statement that would break a constraint throws and changes nothing.
* `KeyStore`: the table with the caches of one process; `create`, `verify`, `scopesOf`, `update`, `remove`,
  `reveal`, `rotate`, `touch`, `flushTouch`.
* `sealSecret`, `openSecret`: the reversible form of a plaintext.

The hash and the cipher are parameters (`KeyCrypto`); random bytes and the clock come with each call.
-/

namespace AgyProxy

open Js Lib

/-! ### Plaintexts at rest -/

/-- A base64 text: it never contains `'.'`. -/
structure Base64 where
  val : JsString
  noDot : 0x2E ∉ val

/-- What `node:crypto` computes, on texts. -/
structure KeyCrypto where
  /-- the SHA-256 of a text, in hex -/
  sha256 : JsString → JsString
  /-- AES-256-GCM under a master key and an iv: the ciphertext and the tag -/
  cipher (master : JsString) (iv : Base64) (plaintext : JsString) : Base64 × Base64
  /-- the plaintext, unless the tag does not fit -/
  decipher (master iv ct tag : JsString) : Option JsString

/-- `sk-agy-`. -/
def KEY_MARK : JsString := js "sk-agy-"

/-- The plaintext of the random part of a key. -/
def plaintextOf (secret : JsString) : JsString := KEY_MARK ++ secret

/-- The eight characters of the random part shown for identification. -/
def prefixOf (plaintext : JsString) : JsString := (plaintext.drop KEY_MARK.length).take 8

namespace KeyCrypto

variable (c : KeyCrypto)

def hashKey (plaintext : JsString) : JsString := c.sha256 plaintext

/-- `iv.ciphertext.tag`. -/
def sealSecret (master : JsString) (iv : Base64) (plaintext : JsString) : JsString :=
  let (ct, tag) := c.cipher master iv plaintext
  iv.val ++ js "." ++ ct.val ++ js "." ++ tag.val

def openSecret (master blob : JsString) : Option JsString :=
  match blob.splitOn 0x2E with
  | iv :: ct :: tag :: _ => c.decipher master iv ct tag
  | _ => none

end KeyCrypto

/-! ### Scopes -/

/-- Model ids separated by newline, comma or semicolon; without any the key is unrestricted. -/
def parseKeyScopes (scopes : Option JsString) : Option (List JsString) :=
  match scopes with
  | none => none
  | some scopes =>
    let parts := ((scopes.splitOnP fun c => c == 0x0A || c == 0x2C || c == 0x3B).map trim).filter (· ≠ [])
    if parts = [] then none else some parts

/-! ### The table -/

structure KeyRow where
  id : JsString
  name : JsString
  keyHash : JsString
  shownPrefix : JsString
  createdAt : ℕ
  disabledAt : Option ℕ
  dailyTokenLimit : ℕ
  rpmLimit : ℕ
  scopes : Option JsString
  lastUsedAt : Option ℕ
  secretEnc : Option JsString

/-- The rows; `id` is the primary key, `key_hash` is unique. -/
structure KeyTable where
  rows : List KeyRow
  uniqueId : (rows.map KeyRow.id).Nodup
  uniqueHash : (rows.map KeyRow.keyHash).Nodup

namespace KeyTable

def empty : KeyTable := ⟨[], List.nodup_nil, List.nodup_nil⟩

/-- What a statement leaves, unless it breaks a constraint. -/
def ofRows? (rows : List KeyRow) : Option KeyTable :=
  if h : (rows.map KeyRow.id).Nodup ∧ (rows.map KeyRow.keyHash).Nodup then some ⟨rows, h.1, h.2⟩ else none

def insert (t : KeyTable) (r : KeyRow) : Option KeyTable := ofRows? (t.rows ++ [r])

/-- `UPDATE … WHERE id = ?`. -/
def update (t : KeyTable) (id : JsString) (f : KeyRow → KeyRow) : Option KeyTable :=
  ofRows? (updateAt KeyRow.id id f t.rows)

def delete (t : KeyTable) (id : JsString) : Option KeyTable :=
  ofRows? (t.rows.filter fun r => decide (r.id ≠ id))

def get (t : KeyTable) (id : JsString) : Option KeyRow := t.rows.find? fun r => decide (r.id = id)

def byHash (t : KeyTable) (hash : JsString) : Option KeyRow := t.rows.find? fun r => decide (r.keyHash = hash)

end KeyTable

/-! ### The store -/

structure ApiKeyRecord where
  id : JsString
  name : JsString
  shownPrefix : JsString
  createdAt : ℕ
  disabledAt : Option ℕ
  dailyTokenLimit : ℕ
  rpmLimit : ℕ
  scopes : Option JsString
  lastUsedAt : Option ℕ
deriving DecidableEq

def KeyRow.fromRow (r : KeyRow) : ApiKeyRecord where
  id := r.id
  name := r.name
  shownPrefix := r.shownPrefix
  createdAt := r.createdAt
  disabledAt := r.disabledAt
  dailyTokenLimit := r.dailyTokenLimit
  rpmLimit := r.rpmLimit
  scopes := r.scopes
  lastUsedAt := r.lastUsedAt

/-- A record with the plaintext issued. -/
structure CreatedApiKey where
  key : ApiKeyRecord
  plaintext : JsString

inductive KeyVerifyResult
  | ok (key : ApiKeyRecord)
  | unknown
  | disabled (key : ApiKeyRecord)
deriving DecidableEq

structure KeyInput where
  name : Option JsString
  dailyTokenLimit : Option ℚ
  rpmLimit : Option ℚ

/-- An absent property is `none`; `scopes` may be null. -/
structure KeyPatch where
  name : Option JsString
  disabled : Option Bool
  dailyTokenLimit : Option ℚ
  rpmLimit : Option ℚ
  scopes : Option (Option JsString)

/-- `TOUCH_DEBOUNCE_MS`. -/
def TOUCH_DEBOUNCE_MS : ℕ := 60000

def positiveIntOrZero (n : Option ℚ) : ℕ :=
  match n with
  | none => 0
  | some n => if n < 0 then 0 else ⌊n⌋.toNat

/-- `name?.trim()`, when it is truthy. -/
def trimmedName (name : Option JsString) : Option JsString := truthy? (name.map trim)

/-- Null and the empty string clear the whitelist. -/
def KeyPatch.newScopes (patch : KeyPatch) (current : Option JsString) : Option JsString :=
  match patch.scopes with
  | none => current
  | some scopes => truthy? scopes

def KeyPatch.newDisabledAt (patch : KeyPatch) (current : Option ℕ) (now : ℕ) : Option ℕ :=
  match patch.disabled with
  | none => current
  | some disabled => if disabled then some now else none

structure KeyStore where
  masterKey : Option JsString
  table : KeyTable
  scopesCache : JsString → Option (Option (List JsString))
  lastWritten : JsString → Option ℕ
  touchPending : JsString → Option ℕ

namespace KeyStore

variable (c : KeyCrypto)

/-- `new KeyStore(db, masterKey)`. -/
def init (masterKey : Option JsString) (table : KeyTable) : KeyStore :=
  ⟨masterKey, table, fun _ => none, fun _ => none, fun _ => none⟩

/-- `secret_enc` of a new plaintext. -/
def secretEnc (s : KeyStore) (iv : Base64) (plaintext : JsString) : Option JsString :=
  s.masterKey.map fun master => c.sealSecret master iv plaintext

def get (s : KeyStore) (id : JsString) : Option ApiKeyRecord := (s.table.get id).map KeyRow.fromRow

/-- The new row of `create`. -/
def newRow (s : KeyStore) (input : KeyInput) (id secret : JsString) (iv : Base64) (now : ℕ) : KeyRow where
  id
  name := (trimmedName input.name).getD (js "default")
  keyHash := c.hashKey (plaintextOf secret)
  shownPrefix := prefixOf (plaintextOf secret)
  createdAt := now
  disabledAt := none
  dailyTokenLimit := positiveIntOrZero input.dailyTokenLimit
  rpmLimit := positiveIntOrZero input.rpmLimit
  scopes := none
  lastUsedAt := none
  secretEnc := s.secretEnc c iv (plaintextOf secret)

/-- `id` and `secret` are random; no result when the statement throws. -/
def create (s : KeyStore) (input : KeyInput) (id secret : JsString) (iv : Base64) (now : ℕ) :
    Option CreatedApiKey × KeyStore :=
  match s.table.insert (s.newRow c input id secret iv now) with
  | none => (none, s)
  | some table =>
    let s := { s with table }
    ((s.get id).map fun key => ⟨key, plaintextOf secret⟩, s)

def verify (s : KeyStore) (plaintext : JsString) : KeyVerifyResult :=
  match s.table.byHash (c.hashKey plaintext) with
  | none => .unknown
  | some row => if row.disabledAt.isSome then .disabled row.fromRow else .ok row.fromRow

/-- Unknown ids are not cached. -/
def scopesOf (s : KeyStore) (id : JsString) : Option (List JsString) × KeyStore :=
  match s.scopesCache id with
  | some hit => (hit, s)
  | none =>
    match s.get id with
    | none => (none, s)
    | some rec =>
      let cached := parseKeyScopes rec.scopes
      (cached, { s with scopesCache := Function.update s.scopesCache id (some cached) })

/-- The columns `update` sets. -/
def patchRow (current : ApiKeyRecord) (patch : KeyPatch) (now : ℕ) (r : KeyRow) : KeyRow :=
  { r with
    name := (trimmedName patch.name).getD current.name
    disabledAt := patch.newDisabledAt current.disabledAt now
    dailyTokenLimit := positiveIntOrZero (patch.dailyTokenLimit.getD current.dailyTokenLimit)
    rpmLimit := positiveIntOrZero (patch.rpmLimit.getD current.rpmLimit)
    scopes := patch.newScopes current.scopes }

def update (s : KeyStore) (id : JsString) (patch : KeyPatch) (now : ℕ) : Option ApiKeyRecord × KeyStore :=
  match s.get id with
  | none => (none, s)
  | some current =>
    match s.table.update id (patchRow current patch now) with
    | none => (none, s)
    | some table =>
      let s := { s with table, scopesCache := Function.update s.scopesCache id none }
      (s.get id, s)

def remove (s : KeyStore) (id : JsString) : Bool × KeyStore :=
  match s.table.delete id with
  | none => (false, s)
  | some table =>
    ((s.table.get id).isSome,
      { s with
        table
        scopesCache := Function.update s.scopesCache id none
        lastWritten := Function.update s.lastWritten id none
        touchPending := Function.update s.touchPending id none })

def reveal (s : KeyStore) (id : JsString) : Option JsString :=
  (s.table.get id).bind fun row =>
    row.secretEnc.bind fun blob => s.masterKey.bind fun master => c.openSecret master blob

/-- The columns `rotate` swaps. -/
def rotateRow (s : KeyStore) (secret : JsString) (iv : Base64) (r : KeyRow) : KeyRow :=
  { r with
    keyHash := c.hashKey (plaintextOf secret)
    shownPrefix := prefixOf (plaintextOf secret)
    secretEnc := s.secretEnc c iv (plaintextOf secret) }

def rotate (s : KeyStore) (id secret : JsString) (iv : Base64) : Option CreatedApiKey × KeyStore :=
  match s.get id with
  | none => (none, s)
  | some _ =>
    match s.table.update id (s.rotateRow c secret iv) with
    | none => (none, s)
    | some table =>
      let s := { s with table }
      ((s.get id).map fun key => ⟨key, plaintextOf secret⟩, s)

/-! ### Last used -/

/-- `UPDATE api_keys SET last_used_at = ? WHERE id = ?`. -/
def stmtTouch (table : KeyTable) (ts : ℕ) (id : JsString) : KeyTable :=
  (table.update id fun r => { r with lastUsedAt := some ts }).getD table

def writeTouch (s : KeyStore) (id : JsString) (ts : ℕ) : KeyStore :=
  { s with
    table := stmtTouch s.table ts id
    lastWritten := Function.update s.lastWritten id (some ts)
    touchPending := Function.update s.touchPending id none }

/-- At most one write per key and window; the refreshes between are kept for `flushTouch`. -/
def touch (s : KeyStore) (id : JsString) (now : ℕ) : KeyStore :=
  if now < (s.lastWritten id).getD 0 + TOUCH_DEBOUNCE_MS then
    { s with touchPending := Function.update s.touchPending id (some now) }
  else s.writeTouch id now

/-- The pending refresh of a row's key. -/
def landTouch (pending : JsString → Option ℕ) (table : KeyTable) (r : KeyRow) : KeyTable :=
  match pending r.id with
  | some ts => stmtTouch table ts r.id
  | none => table

/-- The rows of the pending ids are written; ids without a row only move to `lastWritten`. -/
def flushTouch (s : KeyStore) : KeyStore :=
  { s with
    table := s.table.rows.foldl (landTouch s.touchPending) s.table
    lastWritten := fun id => (s.touchPending id).or (s.lastWritten id)
    touchPending := fun _ => none }

end KeyStore

inductive KeyAction
  | create (input : KeyInput) (id secret : JsString) (iv : Base64) (now : ℕ)
  | update (id : JsString) (patch : KeyPatch) (now : ℕ)
  | rotate (id secret : JsString) (iv : Base64)
  | remove (id : JsString)
  /-- a read, which may fill the cache -/
  | scopesOf (id : JsString)
  | touch (id : JsString) (now : ℕ)
  | flushTouch
  /-- the next process on the same database -/
  | reopen

namespace KeyStore

variable (c : KeyCrypto)

def step (s : KeyStore) : KeyAction → KeyStore
  | .create input id secret iv now => (s.create c input id secret iv now).2
  | .update id patch now => (s.update id patch now).2
  | .rotate id secret iv => (s.rotate c id secret iv).2
  | .remove id => (s.remove id).2
  | .scopesOf id => (s.scopesOf id).2
  | .touch id now => s.touch id now
  | .flushTouch => s.flushTouch
  | .reopen => .init s.masterKey s.table

def run (s : KeyStore) (as : List KeyAction) : KeyStore := as.foldl (step c) s

end KeyStore

end AgyProxy
