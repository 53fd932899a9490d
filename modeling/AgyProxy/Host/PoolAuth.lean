import AgyProxy.Js.Str
import AgyProxy.Lib.Machine

/-!
# AgyProxy.Host.PoolAuth — adding an account by OAuth (`src/host/pool-auth.ts`)

Every flow ever begun, by index, with what its continuations still have to do; an action is what happens
between two awaits.

* `AuthFlow`: a flow's staging slot, loopback listener, and the stages of its start and of its exchange.
* `PoolAuth`: the flow that is current, the status, and the cancels that wait for a listener to close.
* `begin`, `store` (the end of `startFlow`), `submitCode`, `finishWithCode`, `fail`, `cancel`.

What the browser, Google's endpoints and the listener answer is the environment's choice; the authorize URL
and the parsed input come with the calls.
-/

namespace AgyProxy

open Js Lib

/-- What `startFlow` still awaits. -/
inductive StartStage
  /-- the listener of the flow aborted before it closes; that flow -/
  | aborting (old : Option ℕ)
  /-- the race with the listener's bind -/
  | binding
  /-- the browser -/
  | opening
  | stored
deriving DecidableEq

/-- The callback listener: its `result` is pending or settled, until it is closed. -/
inductive Listener
  | open | settled | closed
deriving DecidableEq

/-- What `finishWithCode` still awaits. -/
inductive FinishStage
  | idle
  /-- `exchangeCode` -/
  | exchanging
  /-- the token is written, `fetchUserEmail` runs -/
  | emailing
  | over
deriving DecidableEq

inductive SlotState
  | staged | cleaned | committed
deriving DecidableEq

structure AuthFlow where
  aliasName : Option JsString
  state : JsString
  url : JsString
  start : StartStage
  /-- null in manual mode -/
  listener : Option Listener
  finish : FinishStage
  slot : SlotState
deriving DecidableEq

inductive AuthPhase
  | idle | waiting | exchanging | done | failed
deriving DecidableEq

inductive AuthMode
  | auto | manual
deriving DecidableEq

structure AuthStatus where
  phase : AuthPhase
  /-- the slot of a flow -/
  stagingId : Option ℕ
  aliasName : Option JsString
  url : Option JsString
  mode : Option AuthMode
  browserOpened : Option Bool
  message : Option JsString

def AuthStatus.idle : AuthStatus := ⟨.idle, none, none, none, none, none, none⟩

/-- What `parsePastedCode` finds in a paste: a state, if any. -/
structure PastedCode where
  code : JsString
  state : Option JsString

/-- A cancel that waits for the listener of the flow it aborted; the number of flows begun when it was called. -/
structure PendingCancel where
  old : ℕ
  rank : ℕ

/-- History of a commit; the flow had been cancelled or superseded before. -/
structure AuthCommit where
  flow : ℕ
  revoked : Bool
deriving DecidableEq

/-- History of a write of the flow or the status, on behalf of the flows below `rank`; by then the flows that
had been stored lay below `stored`. -/
structure AuthWrite where
  rank : ℕ
  stored : ℕ
deriving DecidableEq

structure PoolAuth where
  flows : List AuthFlow
  /-- `this.flow` -/
  flow : Option ℕ
  status : AuthStatus
  /-- the timer behind a success, and on behalf of whom -/
  doneTimer : Option ℕ
  cancels : List PendingCancel
  /-- history: the flows begun before the latest begin or cancel -/
  revokedBelow : ℕ
  /-- history: above every flow stored -/
  storedBound : ℕ
  commits : List AuthCommit
  writes : List AuthWrite

namespace AuthFlow

/-- `listener.close()`. -/
def close (f : AuthFlow) : AuthFlow := { f with listener := f.listener.map fun _ => .closed }

/-- `cleanupStagingSlot`. -/
def cleanup (f : AuthFlow) : AuthFlow := { f with slot := if f.slot = .staged then .cleaned else f.slot }

/-- `writeAgyTokenFile`, which makes the slot's directory when it is gone. -/
def writeToken (f : AuthFlow) : AuthFlow := { f with slot := .staged }

def mode (f : AuthFlow) : AuthMode := if f.listener.isSome then .auto else .manual

end AuthFlow

namespace PoolAuth

def init : PoolAuth := ⟨[], none, .idle, none, [], 0, 0, [], []⟩

def edit (s : PoolAuth) (n : ℕ) (f : AuthFlow → AuthFlow) : PoolAuth := { s with flows := s.flows.modify n f }

/-- `setStatus`. -/
def setStatus (s : PoolAuth) (rank : ℕ) (status : AuthStatus) : PoolAuth :=
  { s with
    status
    doneTimer := if status.phase = .done then some rank else none
    writes := s.writes ++ [⟨rank, s.storedBound⟩] }

/-- `abortActive` up to its await; the flow whose slot is cleaned up once its listener is closed. -/
def abortActive (s : PoolAuth) : PoolAuth × Option ℕ :=
  match s.flow with
  | none => (s, none)
  | some old =>
    if (s.flows[old]?.bind AuthFlow.listener).isSome then ({ s.edit old AuthFlow.close with flow := none }, some old)
    else ({ s.edit old AuthFlow.cleanup with flow := none }, none)

/-- The rest of `abortActive`. -/
def aborted (s : PoolAuth) : Option ℕ → PoolAuth
  | none => s
  | some old => s.edit old AuthFlow.cleanup

def fail (s : PoolAuth) (rank : ℕ) (message : JsString) : PoolAuth :=
  let s := match s.flow with
    | none => s
    | some g => { s.edit g fun f => f.close.cleanup with flow := none }
  s.setStatus rank { s.status with phase := .failed, message := some message }

/-- `begin`, up to the await of `abortActive`. -/
def begin (s : PoolAuth) (aliasName : Option JsString) (state url : JsString) : PoolAuth :=
  let aborted := s.abortActive
  { aborted.1 with
    flows := aborted.1.flows ++ [⟨aliasName, state, url, .aborting aborted.2, none, .idle, .staged⟩]
    revokedBelow := s.flows.length }

/-- The end of `startFlow`: the flow becomes the current one. -/
def store (s : PoolAuth) (n : ℕ) (f : AuthFlow) (browserOpened : Bool) : PoolAuth :=
  let s := ({ s with flow := some n }.edit n fun f => { f with start := .stored }).setStatus (n + 1)
    { phase := .waiting
      stagingId := some n
      aliasName := f.aliasName
      url := some f.url
      mode := some f.mode
      browserOpened := some browserOpened
      message := if browserOpened then none else some (js "无法自动打开浏览器，请手动打开下方链接") }
  { s with storedBound := max s.storedBound (n + 1) }

/-- `finishWithCode` up to the exchange, on behalf of the flows below `rank`. -/
def finishWithCode (s : PoolAuth) (rank : ℕ) (returnedState : JsString) : PoolAuth :=
  match s.flow with
  | none => s
  | some g =>
    if s.status.phase ≠ .waiting then s
    else if some returnedState ≠ s.flows[g]?.map AuthFlow.state then
      s.fail rank (js "state 校验失败（可能的 CSRF 或过期回调）")
    else
      (s.edit g fun f => { f with finish := .exchanging }).setStatus rank { s.status with phase := .exchanging }

/-- The message of a submission that is turned away. -/
def submitRefusal (s : PoolAuth) (parsed : Option PastedCode) : Option JsString :=
  match s.flow.bind fun n => s.flows[n]? with
  | none => some (js "当前没有进行中的授权流程")
  | some f =>
    if s.status.phase ≠ .waiting then some (js "当前没有进行中的授权流程")
    else
      match parsed with
      | none => some (js "无法识别的授权码，请粘贴授权码或完整的回调 URL")
      | some paste =>
        if paste.state.any fun st => decide (st ≠ [] ∧ st ≠ f.state) then
          some (js "state 校验失败：这段 URL 不属于本次授权流程")
        else none

/-- The state of a paste; a bare code belongs to the current flow. -/
def pastedState (s : PoolAuth) (paste : PastedCode) : JsString :=
  paste.state.getD (((s.flow.bind fun n => s.flows[n]?).map AuthFlow.state).getD [])

def submitCode (s : PoolAuth) (parsed : Option PastedCode) : PoolAuth :=
  match s.submitRefusal parsed, parsed, s.flow with
  | none, some paste, some n => s.finishWithCode (n + 1) (s.pastedState paste)
  | _, _, _ => s

/-- The commit at the end of `finishWithCode`; `alias` is the account's. -/
def commit (s : PoolAuth) (n : ℕ) (accountAlias : JsString) : PoolAuth :=
  let s := s.edit n fun f => { f.close with finish := .over, slot := .committed }
  let s : PoolAuth := { s with flow := none, commits := s.commits ++ [⟨n, decide (n < s.revokedBelow)⟩] }
  s.setStatus (n + 1)
    { s.status with
      phase := .done
      aliasName := some accountAlias
      message := some (js "账号 " ++ accountAlias ++ js " 已激活") }

def cancel (s : PoolAuth) : PoolAuth :=
  let rank := s.flows.length
  let aborted := s.abortActive
  let s := { aborted.1 with revokedBelow := rank }
  match aborted.2 with
  | some old => { s with cancels := s.cancels ++ [⟨old, rank⟩] }
  | none => s.setStatus rank { s.status with phase := .idle }

/-- The rest of a cancel. -/
def cancelled (s : PoolAuth) (i : ℕ) (c : PendingCancel) : PoolAuth :=
  let s := { s.edit c.old AuthFlow.cleanup with cancels := s.cancels.eraseIdx i }
  s.setStatus c.rank { s.status with phase := .idle }

end PoolAuth

inductive ExchangeResult
  /-- the tokens came and are written -/
  | written
  | failed (message : JsString)
  /-- the tokens came, and their file could not be written -/
  | unwritten (message : JsString)

inductive AuthAction
  | begin (aliasName : Option JsString) (state url : JsString)
  /-- the abort before flow `n` is through -/
  | aborted (n : ℕ)
  | bound (n : ℕ) (ok : Bool)
  | opened (n : ℕ) (browserOpened : Bool)
  | submitCode (parsed : Option PastedCode)
  /-- the listener of flow `n` gets a code and a state -/
  | callback (n : ℕ) (returnedState : JsString)
  /-- the listener of flow `n` times out or gets an error -/
  | rejected (n : ℕ) (message : JsString)
  | exchanged (n : ℕ) (result : ExchangeResult)
  | emailed (n : ℕ) (accountAlias : JsString)
  | cancel
  | cancelled (i : ℕ)
  | doneReset

namespace PoolAuth

/-- The failure of the exchange of flow `n`. -/
def exchangeFailed (s : PoolAuth) (n : ℕ) (message : JsString) : PoolAuth :=
  (s.edit n fun f => { f with finish := .over }).fail (n + 1) (js "授权码交换失败: " ++ message)

def exchanged (s : PoolAuth) (n : ℕ) : ExchangeResult → PoolAuth
  | .written => s.edit n fun f => { f.writeToken with finish := .emailing }
  | .failed message => s.exchangeFailed n message
  | .unwritten message => (s.edit n AuthFlow.writeToken).exchangeFailed n message

/-- One action; `none` when it is not enabled. -/
def step (s : PoolAuth) : AuthAction → Option PoolAuth
  | .begin aliasName state url => some (s.begin aliasName state url)
  | .aborted n =>
    s.flows[n]?.bind fun f =>
      match f.start with
      | .aborting old => some ((s.edit n fun f => { f with start := .binding, listener := some .open }).aborted old)
      | _ => none
  | .bound n ok =>
    s.flows[n]?.bind fun f =>
      if f.start = .binding then
        some (s.edit n fun f => { f with start := .opening, listener := if ok then f.listener else none })
      else none
  | .opened n browserOpened =>
    s.flows[n]?.bind fun f => if f.start = .opening then some (s.store n f browserOpened) else none
  | .submitCode parsed => some (s.submitCode parsed)
  | .callback n returnedState =>
    s.flows[n]?.bind fun f =>
      if f.start = .stored ∧ f.listener = some .open then
        some ((s.edit n fun f => { f with listener := some .settled }).finishWithCode (n + 1) returnedState)
      else none
  | .rejected n message =>
    s.flows[n]?.bind fun f =>
      if f.start = .stored ∧ f.listener = some .open then
        let s := s.edit n fun f => { f with listener := some .settled }
        -- the listener is the current flow's
        some (if s.flow = some n then s.fail (n + 1) (js "授权回调失败: " ++ message) else s)
      else none
  | .exchanged n result =>
    s.flows[n]?.bind fun f => if f.finish = .exchanging then some (s.exchanged n result) else none
  | .emailed n accountAlias =>
    s.flows[n]?.bind fun f => if f.finish = .emailing then some (s.commit n accountAlias) else none
  | .cancel => some s.cancel
  | .cancelled i => s.cancels[i]?.map fun c => s.cancelled i c
  | .doneReset =>
    s.doneTimer.map fun rank =>
      let s := { s with doneTimer := none }
      if s.status.phase = .done then
        { s with status := .idle, writes := s.writes ++ [⟨rank, s.storedBound⟩] }
      else s

end PoolAuth

end AgyProxy
