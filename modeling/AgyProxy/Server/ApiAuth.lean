import AgyProxy.Js.Date
import AgyProxy.Lib.FixedWindow
import AgyProxy.Lib.Machine
import AgyProxy.Server.DailyBudget
import AgyProxy.Server.Errors
import AgyProxy.Server.KeyStore

/-!
# AgyProxy.Server.ApiAuth — who may call `/v1/*` (`src/server/auth.ts`, the bodies in `src/server/errors.ts`)

* `apiKeyFrom`: the key a request brings; `identify`: whom it belongs to.
* `authErrorFor`, `quotaRejectFor`: the refusals.
* `ApiAuth`: the key store, the ledger and the limiters; `arrive` is the hook up to `await limiter.consume(1)`,
  `proceed` what comes behind it.
* `step`: any interleaving of requests, other uses of the store and the ledger, and the two halves of a sweep.

A limiter is a parameter (`WindowLimiter`).  The memo of `keyMatches`, which holds the digest of one constant, and the
timer of the sweep are left out: a sweep may look at any limiter at any time.
-/

namespace AgyProxy

open Js Lib

/-! ### The key of a request -/

/-- What the hook reads of a request. -/
structure AuthRequest where
  url : JsString
  id : JsString
  authorization : Option JsString
  /-- a header given once is a list of one -/
  xApiKey : List JsString
deriving DecidableEq

/-- `/^Bearer\s+(\S+)$/i`. -/
def bearerToken (header : Option JsString) : Option JsString :=
  header.bind fun header =>
    let rest := header.drop 6
    let token := rest.dropWhile isWhiteSpace
    if toLowerCase (header.take 6) = js "bearer" ∧ token.length < rest.length ∧ token ≠ [] ∧
        token.all (fun c => !isWhiteSpace c) = true then
      some token
    else none

/-- `x-api-key` goes before `Authorization`. -/
def apiKeyFrom (req : AuthRequest) : Option JsString :=
  match req.xApiKey.find? fun v => decide (trim v ≠ []) with
  | some v => some (trim v)
  | none => bearerToken req.authorization

/-- The compare of the digests. -/
def KeyCrypto.keyMatches (c : KeyCrypto) (expected provided : JsString) : Bool :=
  decide (c.sha256 expected = c.sha256 provided)

/-! ### The refusals -/

/-- An error body by its protocol; `param` is always null. -/
inductive ApiErrorBody
  | openAi (message : JsString) (type : ErrorType) (code : JsString)
  | anthropic (type : ErrorType) (message requestId : JsString)
deriving DecidableEq

structure AuthRefusal where
  statusCode : ℕ
  body : ApiErrorBody
  /-- `Retry-After` -/
  retryAfter : Option ℕ
deriving DecidableEq

def isAnthropicPath (url : JsString) : Bool :=
  let path := url.takeWhile (· ≠ 0x3F)
  (js "/v1/messages").isPrefixOf path || (js "/v1/anthropic/").isPrefixOf path

def authErrorFor (req : AuthRequest) (message : JsString) : AuthRefusal :=
  if isAnthropicPath req.url then ⟨401, .anthropic .authenticationError message req.id, none⟩
  else ⟨401, .openAi message .authenticationError (js "invalid_api_key"), none⟩

def disabledErrorFor (req : AuthRequest) (message : JsString) : AuthRefusal :=
  if isAnthropicPath req.url then ⟨403, .anthropic .permissionError message req.id, none⟩
  else ⟨403, .openAi message .permissionError (js "key_disabled"), none⟩

def quotaRejectFor (req : AuthRequest) (message : JsString) (retryAfterSec : ℕ) : AuthRefusal :=
  if isAnthropicPath req.url then ⟨429, .anthropic .rateLimitError message req.id, some (max 1 retryAfterSec)⟩
  else ⟨429, .openAi message .rateLimitError (js "rate_limit_exceeded"), some (max 1 retryAfterSec)⟩

def rpmMessage (rpm sec : ℕ) : JsString :=
  js "Requests per-minute limit reached for this key (rpm=" ++ natDigits rpm ++ js "). Retry in " ++ natDigits sec ++
    js "s."

/-- The reset time is that of a valid date. -/
def dailyMessage (used : ℚ) (daily : ℕ) (resetsAt : ℕ) (sec : ℕ) : JsString :=
  js "Daily token limit reached for this key: used " ++ numberToString (.fin used) ++ js " of " ++ natDigits daily ++
    js " tokens (daily_token_limit). Resets at " ++ (toISOString resetsAt).getD [] ++ js " (in " ++ natDigits sec ++
    js "s)."

/-! ### The hook -/

structure AuthenticatedKey where
  id : Option JsString
  name : JsString
deriving DecidableEq

inductive AuthOutcome
  | admitted (key : AuthenticatedKey)
  /-- let through without a key to its name -/
  | passed
  | refused (refusal : AuthRefusal)
deriving DecidableEq

/-- Whom a request belongs to; only managed keys have limits. -/
inductive AuthCaller
  | settled (outcome : AuthOutcome)
  | managed (key : ApiKeyRecord)
deriving DecidableEq

/-- An entry of `limiters`. -/
structure KeyLimiter (L : WindowLimiter ℕ) where
  points : ℕ
  store : L.Store

/-- A request that holds its point and has not read its budget yet. -/
structure PendingAuth where
  req : AuthRequest
  key : ApiKeyRecord
  arrivedAt : ℕ

/-- A request of a managed key, under the limit it had. -/
structure KeyArrival where
  keyId : JsString
  rpm : ℕ
  arrivedAt : ℕ
deriving DecidableEq

def PendingAuth.arrival (p : PendingAuth) : KeyArrival := ⟨p.key.id, p.key.rpmLimit, p.arrivedAt⟩

structure ApiAuth (L : WindowLimiter ℕ) where
  /-- `AGY_PROXY_API_KEY` -/
  apiKey : JsString
  keys : Option KeyStore
  ledger : Option UsageLedger
  limiters : JsString → Option (KeyLimiter L)
  clock : ℕ
  waiting : List PendingAuth
  /-- the limiters a sweep found idle and has yet to drop -/
  sweeping : List JsString
  /-- history: the requests that got a point of a limiter -/
  granted : List KeyArrival
  /-- history: the requests that were admitted under a managed key -/
  admissions : List KeyArrival
  /-- history: the answers -/
  answers : List (AuthRequest × AuthOutcome)

/-- `duration: 60`. -/
def LIMITER_WINDOW_MS : ℕ := 60000

/-- The literal key of a limiter's one record. -/
def LIMITER_KEY : ℕ := 1

def limiterKey (keyId : JsString) (rpm : ℕ) : JsString := keyId ++ 0x3A :: natDigits rpm

inductive ApiAuthAction
  | tick (now : ℕ)
  /-- another use of the key store -/
  | keys (a : KeyAction)
  /-- another use of the ledger -/
  | ledger (a : BudgetAction)
  /-- the hook, up to the point it asks of the limiter -/
  | arrive (req : AuthRequest)
  /-- the hook of the `i`-th waiting request goes on -/
  | resume (i : ℕ)
  /-- `await limiter.get(1)` of a sweep -/
  | sweepGet (cacheKey : JsString)
  /-- `limiters.delete(cacheKey)` of a sweep -/
  | sweepDrop (cacheKey : JsString)

namespace ApiAuth

variable {L : WindowLimiter ℕ}

def boot (apiKey : JsString) (keys : Option KeyStore) (ledger : Option UsageLedger) (now : ℕ) : ApiAuth L where
  apiKey
  keys
  ledger
  limiters := fun _ => none
  clock := now
  waiting := []
  sweeping := []
  granted := []
  admissions := []
  answers := []

section Identify

variable (c : KeyCrypto)

def identify (s : ApiAuth L) (req : AuthRequest) : AuthCaller :=
  if s.apiKey = [] ∧ s.keys.all (fun keys => keys.table.rows.isEmpty) = true then
    .settled (.admitted ⟨none, js "anon"⟩)
  else
    match apiKeyFrom req with
    | none =>
      .settled (.refused (authErrorFor req
        (js "Missing API key. Pass it as `Authorization: Bearer <key>` or `x-api-key: <key>`.")))
    | some provided =>
      if s.apiKey ≠ [] ∧ c.keyMatches s.apiKey provided = true then .settled (.admitted ⟨none, js "root"⟩)
      else
        match s.keys with
        | none =>
          if s.apiKey = [] ∨ c.keyMatches s.apiKey provided = true then .settled .passed
          else .settled (.refused (authErrorFor req (js "Invalid API key provided.")))
        | some keys =>
          match keys.verify c provided with
          | .unknown => .settled (.refused (authErrorFor req (js "Invalid API key provided.")))
          | .disabled key =>
            .settled (.refused (disabledErrorFor req (js "API key '" ++ key.shownPrefix ++ js "…' is disabled.")))
          | .ok key => .managed key

end Identify

def answer (s : ApiAuth L) (req : AuthRequest) (outcome : AuthOutcome) : ApiAuth L :=
  { s with answers := s.answers ++ [(req, outcome)] }

/-- A limiter is made when it is first asked for. -/
def getLimiter (s : ApiAuth L) (keyId : JsString) (rpm : ℕ) : KeyLimiter L :=
  (s.limiters (limiterKey keyId rpm)).getD ⟨rpm, L.fresh⟩

/-- `limiter.consume(1)`. -/
def consume (s : ApiAuth L) (keyId : JsString) (rpm : ℕ) : Except RateLimiterRes RateLimiterRes × ApiAuth L :=
  let limiter := s.getLimiter keyId rpm
  let (res, store) := L.consume limiter.points LIMITER_WINDOW_MS limiter.store LIMITER_KEY s.clock
  (res, { s with limiters := Function.update s.limiters (limiterKey keyId rpm) (some { limiter with store }) })

section Budget

variable (startOfToday nextMidnight : ℕ → ℕ)

/-- The daily budget, when there is one and a ledger to ask. -/
def overBudget (s : ApiAuth L) (key : ApiKeyRecord) : Option ℚ × ApiAuth L :=
  match s.ledger with
  | some ledger =>
    if 0 < key.dailyTokenLimit then
      let (used, ledger) := ledger.tokensUsedToday startOfToday key.id s.clock
      (if key.dailyTokenLimit ≤ used then some used else none, { s with ledger := some ledger })
    else (none, s)
  | none => (none, s)

/-- The rest of the hook for a managed key, which touches the key of whom it lets in. -/
def proceed (s : ApiAuth L) (p : PendingAuth) : ApiAuth L :=
  match s.overBudget startOfToday p.key with
  | (some used, s) =>
    let sec := waitSec ((nextMidnight s.clock : ℤ) - s.clock)
    s.answer p.req (.refused (quotaRejectFor p.req
      (dailyMessage used p.key.dailyTokenLimit (nextMidnight s.clock) sec) sec))
  | (none, s) =>
    { s.answer p.req (.admitted ⟨some p.key.id, p.key.name⟩) with
      keys := s.keys.map fun keys => keys.touch p.key.id s.clock
      admissions := s.admissions ++ [p.arrival] }

variable (c : KeyCrypto)

def arrive (s : ApiAuth L) (req : AuthRequest) : ApiAuth L :=
  match s.identify c req with
  | .settled outcome => s.answer req outcome
  | .managed key =>
    if 0 < key.rpmLimit then
      match s.consume key.id key.rpmLimit with
      | (.ok _, s) =>
        { s with
          waiting := s.waiting ++ [⟨req, key, s.clock⟩]
          granted := s.granted ++ [⟨key.id, key.rpmLimit, s.clock⟩] }
      | (.error res, s) =>
        let sec := waitSec res.msBeforeNext
        s.answer req (.refused (quotaRejectFor req (rpmMessage key.rpmLimit sec) sec))
    else s.proceed startOfToday nextMidnight ⟨req, key, s.clock⟩

def step (s : ApiAuth L) : ApiAuthAction → Option (ApiAuth L)
  | .tick now => if s.clock ≤ now then some { s with clock := now } else none
  | .keys a => s.keys.map fun keys => { s with keys := some (keys.step c a) }
  | .ledger a => s.ledger.map fun ledger => { s with ledger := some (ledger.stepBudget startOfToday a) }
  | .arrive req => some (s.arrive startOfToday nextMidnight c req)
  | .resume i =>
    s.waiting[i]?.map fun p => { s with waiting := s.waiting.eraseIdx i }.proceed startOfToday nextMidnight p
  | .sweepGet cacheKey =>
    (s.limiters cacheKey).map fun limiter =>
      match L.get limiter.store LIMITER_KEY s.clock with
      | some _ => s
      | none => { s with sweeping := s.sweeping ++ [cacheKey] }
  | .sweepDrop cacheKey =>
    if cacheKey ∈ s.sweeping then
      some { s with
        limiters := Function.update s.limiters cacheKey none
        sweeping := s.sweeping.erase cacheKey }
    else none

end Budget

end ApiAuth

end AgyProxy
