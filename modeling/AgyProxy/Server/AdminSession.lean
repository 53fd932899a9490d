import AgyProxy.Js.Date
import AgyProxy.Js.Uri

/-!
# AgyProxy.Server.AdminSession — admin sessions and the admin password (`src/server/admin-session.ts`)

* `AdminSessionStore`: the rows of `admin_sessions`; `create`, `verify`, `revoke`.
* `parseCookieHeader`, `serializeSetCookie`, `serializeClearCookie`.
* `ensureAdminPassword`, `verifyAdminPassword`: the password at boot and at login.

SHA-256 and argon2 are parameters; random bytes and the clock come with each call, which reads the clock once.
-/

namespace AgyProxy

open Js

/-! ### Sessions -/

/-- Random bytes in base64url. -/
structure SessionToken where
  val : JsString
  nonempty : val ≠ []
  plain : ∀ u ∈ val, isWordChar u = true ∨ u = 0x2D

structure AdminSessionRow where
  tokenHash : JsString
  createdAt : ℕ
  expiresAt : ℕ
deriving DecidableEq

/-- The rows; `token_hash` is the primary key. -/
structure AdminSessionTable where
  rows : List AdminSessionRow
  uniqueHash : (rows.map AdminSessionRow.tokenHash).Nodup

namespace AdminSessionTable

def empty : AdminSessionTable := ⟨[], List.nodup_nil⟩

/-- `DELETE` of the rows that are not kept. -/
def keep (t : AdminSessionTable) (p : AdminSessionRow → Bool) : AdminSessionTable :=
  ⟨t.rows.filter p, t.uniqueHash.sublist (List.filter_sublist.map _)⟩

/-- No result when the key is taken. -/
def insert (t : AdminSessionTable) (r : AdminSessionRow) : Option AdminSessionTable :=
  if h : r.tokenHash ∉ t.rows.map AdminSessionRow.tokenHash then
    some ⟨r :: t.rows, List.nodup_cons.mpr ⟨h, t.uniqueHash⟩⟩
  else none

def get (t : AdminSessionTable) (tokenHash : JsString) : Option AdminSessionRow :=
  t.rows.find? fun r => decide (r.tokenHash = tokenHash)

end AdminSessionTable

structure AdminSessionStore where
  ttlMs : ℕ
  table : AdminSessionTable

namespace AdminSessionStore

/-- `new AdminSessionStore(db, { ttlMs })`. -/
def init (ttlMs : Option ℕ) (table : AdminSessionTable) : AdminSessionStore := ⟨max 60000 (ttlMs.getD 604800000), table⟩

section Hash

variable (sha256 : JsString → JsString)

/-- The expiry of the new session, unless its row breaks the key; expired rows are swept on the way. -/
def create (s : AdminSessionStore) (token : SessionToken) (now : ℕ) : Option ℕ × AdminSessionStore :=
  let swept := s.table.keep fun r => decide (now < r.expiresAt)
  match swept.insert ⟨sha256 token.val, now, now + s.ttlMs⟩ with
  | none => (none, { s with table := swept })
  | some table => (some (now + s.ttlMs), { s with table })

/-- An expired row is deleted when it is met. -/
def verify (s : AdminSessionStore) (token : JsString) (now : ℕ) : Bool × AdminSessionStore :=
  if token = [] then (false, s)
  else
    match s.table.get (sha256 token) with
    | none => (false, s)
    | some row =>
      if row.expiresAt ≤ now then
        (false, { s with table := s.table.keep fun r => decide (r.tokenHash ≠ sha256 token) })
      else (true, s)

def revoke (s : AdminSessionStore) (token : JsString) : AdminSessionStore :=
  { s with table := s.table.keep fun r => decide (r.tokenHash ≠ sha256 token) }

end Hash

end AdminSessionStore

/-! ### Cookies -/

def ADMIN_COOKIE : JsString := js "agy_admin_session"

/-- One part of the header, on the pairs before it; a value with a broken escape is dropped. -/
def parseCookiePart (out : JsString → Option JsString) (part : JsString) : JsString → Option JsString :=
  match part.span (· ≠ 0x3D) with
  | (_, []) => out
  | (k, _ :: v) =>
    -- the assignment to `__proto__` makes no property
    if trim k = [] ∨ trim k = js "__proto__" then out
    else
      match decodeURIComponent (trim v) with
      | some v => Function.update out (trim k) (some v)
      | none => out

def parseCookieHeader (header : Option JsString) : JsString → Option JsString :=
  match header with
  | none => fun _ => none
  | some header => (header.splitOn 0x3B).foldl parseCookiePart fun _ => none

def WEEKDAYS : List JsString := [js "Thu", js "Fri", js "Sat", js "Sun", js "Mon", js "Tue", js "Wed"]

def MONTHS : List JsString :=
  [js "Jan", js "Feb", js "Mar", js "Apr", js "May", js "Jun", js "Jul", js "Aug", js "Sep", js "Oct", js "Nov",
    js "Dec"]

/-- `new Date(t).toUTCString()`. -/
def toUTCString (t : ℤ) : JsString :=
  if |t| ≤ MAX_TIME then
    let f := DateFields.ofTime t
    WEEKDAYS.getD (t / 86400000 % 7).toNat [] ++ js ", " ++ padDigits 2 f.day ++ js " " ++
      MONTHS.getD (f.month - 1) [] ++ js " " ++ (if f.year < 0 then js "-" else []) ++ padDigits 4 f.year.natAbs ++
      js " " ++ padDigits 2 f.hour ++ js ":" ++ padDigits 2 f.minute ++ js ":" ++ padDigits 2 f.second ++ js " GMT"
  else js "Invalid Date"

def serializeSetCookie (token : SessionToken) (expiresAt : ℕ) : JsString :=
  ADMIN_COOKIE ++ js "=" ++ token.val ++ js "; Path=/; HttpOnly; SameSite=Lax; Expires=" ++ toUTCString expiresAt

def serializeClearCookie : JsString :=
  ADMIN_COOKIE ++ js "=; Path=/; HttpOnly; SameSite=Lax; Expires=Thu, 01 Jan 1970 00:00:00 GMT"

example : toUTCString 0 = js "Thu, 01 Jan 1970 00:00:00 GMT" ∧
    toUTCString 1735689599999 = js "Tue, 31 Dec 2024 23:59:59 GMT" := by decide +kernel

/-! ### The admin password -/

/-- What `@node-rs/argon2` computes: a salted hash, and whether a password fits one. -/
structure Argon2 where
  hash : JsString → JsString → JsString
  verify : JsString → JsString → Bool
  verify_hash : ∀ salt password, verify (hash salt password) password = true

/-- What one boot meets. -/
structure PasswordBoot where
  /-- `AGY_PROXY_ADMIN_PASSWORD` -/
  envPassword : JsString
  /-- the `SELECT` throws -/
  lookupFails : Bool
  /-- the hashing or the `INSERT` throws -/
  storeFails : Bool
  salt : JsString
  /-- the random password of this boot -/
  generated : JsString

/-- The warning a boot logs. -/
inductive PasswordWarning
  | rehashFailed
  | lookupFailed
  | storeFailed
  | generated (password : JsString)
deriving DecidableEq

section Password

variable (argon : Argon2)

/-- The stored hash after the boot, and what was logged. -/
def ensureAdminPassword (stored : Option JsString) (b : PasswordBoot) : Option JsString × Option PasswordWarning :=
  if b.envPassword ≠ [] then
    if b.storeFails then (stored, some .rehashFailed) else (some (argon.hash b.salt b.envPassword), none)
  else if b.lookupFails then (stored, some .lookupFailed)
  else if stored.isSome then (stored, none)
  else if b.storeFails then (stored, some .storeFailed)
  else (some (argon.hash b.salt b.generated), some (.generated b.generated))

def verifyAdminPassword (stored : Option JsString) (password : JsString) : Bool :=
  match stored with
  | none => false
  | some hash => argon.verify hash password

end Password

end AgyProxy
