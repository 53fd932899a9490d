import AgyProxy.Lib.FixedWindow
import AgyProxy.Lib.Machine
import AgyProxy.Server.AdminSession
import AgyProxy.Server.AllowList

/-!
# AgyProxy.Server.AdminGate — who may use the admin API (`guarded` and the session routes of `src/server/admin-api.ts`)

* `guard`: the address, the session and the header that a foreign page cannot send.
* `login`: the backoff, then argon2 at work while other requests come in; `verified`: the rest.
* `step`: any interleaving of logins, guarded requests and logouts, over restarts on the same database.

A limiter is a parameter (`WindowLimiter`), and its promises are resolved when asked.  The pause behind a failed
login is left out.
-/

namespace AgyProxy

open Js Lib

/-- What the guard reads of a request. -/
structure AdminRequest where
  ip : JsString
  method : JsString
  cookie : Option JsString
  /-- there is an `x-requested-with` -/
  requestedWith : Bool

/-- The token of the session cookie. -/
def AdminRequest.sessionToken (req : AdminRequest) : JsString := (parseCookieHeader req.cookie ADMIN_COOKIE).getD []

structure GuardOpts where
  mutating : Bool
  skipSession : Bool

inductive AdminReply
  | refused (statusCode : ℕ) (error : JsString) (retryAfter : Option ℕ)
  | loggedIn (setCookie : JsString) (expiresAt : ℕ)
  | loggedOut (setCookie : JsString)
deriving DecidableEq

/-- A login whose password argon2 is checking against the hash that was stored when it came. -/
structure PendingLogin where
  ip : JsString
  password : JsString
  stored : Option JsString

/-- A session that was handed out. -/
structure IssuedSession where
  token : SessionToken
  login : PendingLogin
  issuedAt : ℕ
  expiresAt : ℕ

structure AdminGate (L : WindowLimiter JsString) where
  allowCidr : JsString
  stored : Option JsString
  sessions : AdminSessionStore
  loginFailures : L.Store
  clock : ℕ
  verifying : List PendingLogin
  /-- history: the sessions handed out -/
  issued : List IssuedSession
  /-- history: the tokens logged out -/
  revoked : List JsString
  /-- history: the failed logins -/
  failed : List (JsString × ℕ)
  /-- history: the answers of the session routes -/
  replies : List AdminReply

inductive AdminAction
  | tick (now : ℕ)
  /-- the configuration is read again -/
  | configure (allowCidr : JsString)
  | login (req : AdminRequest) (password : Option JsString)
  /-- argon2 is done with the `i`-th login; `token` is random -/
  | verified (i : ℕ) (token : SessionToken)
  /-- a request of a guarded route -/
  | visit (opts : GuardOpts) (req : AdminRequest)
  | logout (req : AdminRequest)
  /-- the next process on the same database -/
  | restart (ttlMs : Option ℕ) (stored : Option JsString)

def MUTATING : List JsString := [js "POST", js "PUT", js "PATCH", js "DELETE"]

/-- `points: 5, duration: 300`. -/
def LOGIN_POINTS : ℕ := 5

def LOGIN_WINDOW_MS : ℕ := 300000

namespace AdminGate

variable {L : WindowLimiter JsString}

def boot (allowCidr : JsString) (stored : Option JsString) (ttlMs : Option ℕ) (now : ℕ) : AdminGate L where
  allowCidr
  stored
  sessions := .init ttlMs .empty
  loginFailures := L.fresh
  clock := now
  verifying := []
  issued := []
  revoked := []
  failed := []
  replies := []

def reply (s : AdminGate L) (r : AdminReply) : AdminGate L := { s with replies := s.replies ++ [r] }

section Sessions

variable (sha256 : JsString → JsString)

/-- The refusal of a request, or none; a mutating route asks for the header when the method is one that changes. -/
def guard (s : AdminGate L) (opts : GuardOpts) (req : AdminRequest) : Option AdminReply × AdminGate L :=
  if ipAllowed req.ip s.allowCidr = false then (some (.refused 403 (js "forbidden by admin allowlist") none), s)
  else
    let (ok, sessions) :=
      if opts.skipSession then (true, s.sessions) else s.sessions.verify sha256 req.sessionToken s.clock
    let s := { s with sessions }
    if ok = false then (some (.refused 401 (js "unauthorized — POST /admin/login first") none), s)
    else if opts.mutating = true ∧ req.method ∈ MUTATING ∧ req.requestedWith = false then
      (some (.refused 403 (js "missing x-requested-with header (CSRF guard)") none), s)
    else (none, s)

def failLogin (s : AdminGate L) (ip : JsString) : AdminGate L :=
  { s with
    loginFailures := (L.consume LOGIN_POINTS LOGIN_WINDOW_MS s.loginFailures ip s.clock).2
    failed := s.failed ++ [(ip, s.clock)] }.reply (.refused 401 (js "invalid password") none)

/-- The wait of an address with too many failures. -/
def backoff (s : AdminGate L) (ip : JsString) : Option ℕ :=
  (L.get s.loginFailures ip s.clock).bind fun prior =>
    if LOGIN_POINTS ≤ prior.consumedPoints ∧ 0 < prior.msBeforeNext then some (waitSec prior.msBeforeNext) else none

/-- `POST /admin/login` up to the argon2 check. -/
def login (s : AdminGate L) (req : AdminRequest) (password : Option JsString) : AdminGate L :=
  match s.guard sha256 ⟨true, true⟩ req with
  | (some refusal, s) => s.reply refusal
  | (none, s) =>
    match s.backoff req.ip with
    | some sec =>
      s.reply (.refused 429 (js "too many failed logins from this address — retry in " ++ natDigits sec ++ js "s")
        (some sec))
    | none =>
      match password with
      | some password =>
        if password ≠ [] then { s with verifying := s.verifying ++ [⟨req.ip, password, s.stored⟩] }
        else s.failLogin req.ip
      | none => s.failLogin req.ip

variable (argon : Argon2)

/-- `POST /admin/login` behind the argon2 check. -/
def verified (s : AdminGate L) (p : PendingLogin) (token : SessionToken) : AdminGate L :=
  if verifyAdminPassword argon p.stored p.password then
    let s := { s with loginFailures := L.delete s.loginFailures p.ip }
    match s.sessions.create sha256 token s.clock with
    | (some expiresAt, sessions) =>
      let session : IssuedSession := ⟨token, p, s.clock, expiresAt⟩
      { s with sessions, issued := s.issued ++ [session] }.reply
        (.loggedIn (serializeSetCookie token expiresAt) expiresAt)
    | (none, sessions) => { s with sessions }
  else s.failLogin p.ip

/-- `POST /admin/logout`. -/
def logout (s : AdminGate L) (req : AdminRequest) : AdminGate L :=
  match s.guard sha256 ⟨true, false⟩ req with
  | (some refusal, s) => s.reply refusal
  | (none, s) =>
    { s with
      sessions := s.sessions.revoke sha256 req.sessionToken
      revoked := s.revoked ++ [req.sessionToken] }.reply (.loggedOut serializeClearCookie)

/-- The random token of a new session is none that was handed out before. -/
def step (s : AdminGate L) : AdminAction → Option (AdminGate L)
  | .tick now => if s.clock ≤ now then some { s with clock := now } else none
  | .configure allowCidr => some { s with allowCidr }
  | .login req password => some (s.login sha256 req password)
  | .verified i token =>
    if token.val ∉ s.issued.map fun i => i.token.val then
      s.verifying[i]?.map fun p => { s with verifying := s.verifying.eraseIdx i }.verified sha256 argon p token
    else none
  | .visit opts req => some (s.guard sha256 opts req).2
  | .logout req => some (s.logout sha256 req)
  | .restart ttlMs stored =>
    some { s with stored, sessions := .init ttlMs s.sessions.table, loginFailures := L.fresh, verifying := [] }

end Sessions

end AdminGate

end AgyProxy
