import AgyProxy.Host.Engine
import AgyProxy.Host.DispatchSpec
import AgyProxy.Host.RecordingSpec

/-!
# AgyProxy.Host.EngineSpec — conversations stay with the account they were created under

* `step_bindings`: what a step of a request can do to its spawns and to the session store.
* `SameHome`: the step condition; the account of an attempt that continues a conversation, or whose
  conversation is going to be bound, is the one the request was keyed with.
* `bindings_consistent`: in a run of such steps every `--conversation` and every binding is at home.
-/

namespace AgyProxy

open Js Lib

/-! ### Keys -/

section Keys

/-- **A key names the account it was built with.** -/
theorem keyAccount?_account (tenant session : JsString) (id : AccountId) :
    keyAccount? (tenant ++ js ":" ++ session ++ js ":" ++ id.val) = some id.val := by
  have hcolon : js ":" = [0x3A] := rfl
  have hkey : tenant ++ js ":" ++ session ++ js ":" ++ id.val =
      (tenant ++ js ":" ++ session) ++ 0x3A :: id.val := by simp [hcolon]
  have hmem : (tenant ++ js ":" ++ session).contains 0x3A = true := by simp [hcolon]
  rw [hkey, keyAccount?, lastIndexOf_append _ _ id.noColon, Option.bind_some, List.take_left, if_pos hmem,
    List.append_cons, List.drop_left' (by rw [List.length_append]; rfl)]

/-- The key of a request names its account, or none when it has none. -/
theorem EngineCall.keyAccount?_key {call : EngineCall}
    (h : call.account = none → keyAccount? call.sessionAccountKey = none) :
    keyAccount? call.sessionAccountKey = call.account.map AccountId.val := by
  cases ha : call.account with
  | none => exact h ha
  | some id =>
    have hkey : call.sessionAccountKey = call.tenantKey ++ js ":" ++ call.sessionKey ++ js ":" ++ id.val := by
      simp only [EngineCall.sessionAccountKey, ha]
    rw [hkey]
    exact keyAccount?_account _ _ _

end Keys

/-! ### What a step does to spawns and bindings -/

section Steps

variable {stack : ℕ}

namespace Dispatch

open EngineState

/-- A store call of the settlement: the binding is dropped, or set to the id of a successful attempt. -/
inductive Settling (stack : ℕ) (r : Dispatch) (a : DispatchAction) : StoreOp → Prop
  | delete : Settling stack r a (.delete r.call.sessionAccountKey)
  | set {res : AttemptResult} {b : SessionBinding} : exitResult? stack r a = some res → res.failure = none →
      r.call.finalId res = some b.conversationId → r.call.sessionAccountKey.isEmpty = false →
      Settling stack r a (.set r.call.sessionAccountKey b)

/-- **What a step of a request can do** to its spawns and to the session store. -/
structure Bindings (stack : ℕ) (r : Dispatch) (a : DispatchAction) (r' : Dispatch) : Prop where
  call : r'.call = r.call
  spawns : r'.spawns = r.spawns ∨ a = .taskTurn .spawned ∧ r.superseded = false ∧
    r'.spawns = r.spawns ++ [⟨r.attemptAccount, r.conversationArg⟩]
  storeOps : ∃ ops, r'.storeOps = r.storeOps ++ ops ∧ ∀ op ∈ ops, Settling stack r a op

theorem settling_of_failed {r : Dispatch} {a : DispatchAction} {res : AttemptResult} (h : res.failure.isSome) :
    ∀ op ∈ r.call.storeOps res, Settling stack r a op := by
  intro op hop
  obtain ⟨f, hf⟩ := Option.isSome_iff_exists.mp h
  unfold DispatchCall.storeOps at hop
  rw [hf] at hop
  split_ifs at hop with h1
  · simp at hop
  · dsimp only at hop
    split_ifs at hop with h2
    · obtain rfl := List.mem_singleton.mp hop
      exact .delete
    · simp at hop

theorem settling_of_exit {r : Dispatch} {a : DispatchAction} {res : AttemptResult}
    (h : exitResult? stack r a = some res) : ∀ op ∈ r.call.storeOps res, Settling stack r a op := by
  cases hf : res.failure with
  | some f => exact settling_of_failed (by simp [hf])
  | none =>
    intro op hop
    unfold DispatchCall.storeOps at hop
    rw [hf] at hop
    split_ifs at hop with h1
    · simp at hop
    · obtain ⟨id, hid, rfl⟩ := List.mem_map.mp hop
      exact .set h hf (by simpa using hid) (by simpa using h1)

theorem conclude_bindings {r : Dispatch} {a : DispatchAction} {recording : RunRecording} {res : AttemptResult}
    (h : ∀ op ∈ r.call.storeOps res, Settling stack r a op) :
    Bindings stack r a ({ r with recording }.conclude res) := by
  cases hf : ({ r with recording } : Dispatch).isFinal res with
  | true =>
    rw [show ({ r with recording } : Dispatch).conclude res = _ from if_pos hf]
    exact ⟨rfl, Or.inl rfl, _, rfl, h⟩
  | false =>
    rw [show ({ r with recording } : Dispatch).conclude res = _ from if_neg (by simp [hf])]
    exact ⟨rfl, Or.inl rfl, [], (List.append_nil _).symm, by simp⟩

/-- The attempt waiting for its retry failed. -/
def WaitsFailed (r : Dispatch) : Prop := ∀ last, r.phase = .delaying last → last.failure.isSome

theorem conclude_waits (r : Dispatch) (res : AttemptResult) : (r.conclude res).WaitsFailed := by
  intro last hlast
  cases hf : r.isFinal res with
  | true =>
    rw [show r.conclude res = (r.fireRun res true).settleRun res from if_pos hf] at hlast
    simp [settleRun] at hlast
  | false =>
    rw [show r.conclude res = _ from if_neg (by simp [hf])] at hlast
    obtain rfl : res = last := by simpa using hlast
    simp only [isFinal, canRetry, Bool.or_eq_false_iff, Bool.not_eq_false', Bool.and_eq_true] at hf
    exact Option.isSome_of_any hf.1.1.1.1.1

theorem WaitsFailed.step {r r' : Dispatch} {a : DispatchAction} (hr : r.WaitsFailed)
    (h : r.step stack a = some r') : r'.WaitsFailed := by
  cases step_cases h with
  | quiet hsame => exact fun last hl => hr last (hsame.delaying last hl)
  | spawn => intro last hl; simp at hl
  | noProcess => exact conclude_waits _ _
  | exit => exact conclude_waits _ _
  | _ => intro last hl; simp [settleThrown, settleRun] at hl

theorem step_bindings {r r' : Dispatch} {a : DispatchAction} (hr : r.WaitsFailed)
    (h : r.step stack a = some r') : Bindings stack r a r' := by
  cases step_cases h with
  | quiet hsame => exact ⟨hsame.call, Or.inl hsame.spawns, [], by simp [hsame.storeOps], by simp⟩
  | spawn hnd hsup => exact ⟨rfl, Or.inr ⟨rfl, hsup, rfl⟩, [], (List.append_nil _).symm, by simp⟩
  | @noProcess turn res hnd hf =>
    show Bindings stack r _ (({ r with recording := r.recording } : Dispatch).conclude res)
    exact conclude_bindings (settling_of_failed hf)
  | @exit l x recording res hp hc =>
    refine conclude_bindings (settling_of_exit ?_)
    simp [exitResult?, hp, hc, Except.toOption]
  | thrown => exact ⟨rfl, Or.inl rfl, [], (List.append_nil _).symm, by simp⟩
  | gaveUp => exact ⟨rfl, Or.inl rfl, _, rfl, settling_of_failed (r := r) (spawnFailedAbort_failure _)⟩
  | unretried hp => exact ⟨rfl, Or.inl rfl, _, rfl, settling_of_failed (hr _ hp)⟩

end Dispatch

end Steps

/-! ### The invariant -/

section Invariant

variable {stack : ℕ}

/-- What is known of a request: its key names its account, and the conversations it continues were
created under the accounts it runs them with. -/
structure RequestInv (created : List (JsString × Option AccountId)) (r : Dispatch) : Prop where
  key : r.call.sessionAccountKey.isEmpty = false →
    keyAccount? r.call.sessionAccountKey = r.call.account.map AccountId.val
  binding : ∀ b, r.call.binding = some b → (b.conversationId, r.call.account) ∈ created
  spawns : ∀ sp ∈ r.spawns, ∀ c, sp.conversation = some c → (c, sp.account) ∈ created
  waits : r.WaitsFailed

/-- Every stored conversation was created under the account its key names, or under none. -/
def StoreInv (store : SessionStore) (created : List (JsString × Option AccountId)) : Prop :=
  ∀ k b, store k = some b →
    ∃ home : Option AccountId, keyAccount? k = home.map AccountId.val ∧ (b.conversationId, home) ∈ created

theorem AccountId.val_injective : Function.Injective AccountId.val := by
  rintro ⟨a, ha⟩ ⟨b, hb⟩ h
  obtain rfl : a = b := h
  rfl

theorem RequestInv.mono {created created' : List (JsString × Option AccountId)} {r : Dispatch}
    (h : RequestInv created r) (hsub : created ⊆ created') : RequestInv created' r where
  key := h.key
  binding b hb := hsub (h.binding b hb)
  spawns sp hsp c hc := hsub (h.spawns sp hsp c hc)
  waits := h.waits

/-- What store calls leave under a key was there, or one of them set it. -/
theorem foldl_apply_eq_some {k : JsString} {b : SessionBinding} :
    ∀ (ops : List StoreOp) (store : SessionStore), ops.foldl StoreOp.apply store k = some b →
      store k = some b ∨ .set k b ∈ ops
  | [], _, h => Or.inl h
  | op :: ops, store, h => by
    rcases foldl_apply_eq_some ops (op.apply store) h with hk | hk
    · cases op with
      | set key b' =>
        by_cases hkey : k = key
        · subst hkey
          obtain rfl : b' = b := by simpa [StoreOp.apply] using hk
          exact Or.inr List.mem_cons_self
        · exact Or.inl (by simpa [StoreOp.apply, Function.update_of_ne hkey] using hk)
      | delete key =>
        by_cases hkey : k = key
        · subst hkey
          simp [StoreOp.apply] at hk
        · exact Or.inl (by simpa [StoreOp.apply, Function.update_of_ne hkey] using hk)
    · exact Or.inr (List.mem_cons_of_mem op hk)

/-- Dropping bindings is safe, and so is a new one that is at home. -/
theorem StoreInv.apply {created : List (JsString × Option AccountId)} (ops : List StoreOp) {store : SessionStore}
    (hs : StoreInv store created)
    (hset : ∀ k b, .set k b ∈ ops → ∃ home : Option AccountId,
      keyAccount? k = home.map AccountId.val ∧ (b.conversationId, home) ∈ created) :
    StoreInv (ops.foldl StoreOp.apply store) created := by
  intro k b hk
  rcases foldl_apply_eq_some ops store hk with hk | hk
  · exact hs k b hk
  · exact hset k b hk

/-- The lookup only drops bindings, and what it finds is stored under the request's key. -/
theorem lookupBinding_cases (call : EngineCall) (store : SessionStore) :
    (∀ k b, .set k b ∉ (call.lookupBinding store).2) ∧
      ∀ b, (call.lookupBinding store).1 = some b → store call.sessionAccountKey = some b ∧
        call.sessionAccountKey.isEmpty = false := by
  unfold EngineCall.lookupBinding
  split_ifs with hkey
  · simp
  · cases hb : store call.sessionAccountKey with
    | none => simp
    | some b =>
      dsimp only
      split_ifs
      · simp
      · simpa using hkey

namespace EngineState

structure EngineInv (s : EngineState) : Prop where
  store : StoreInv s.store s.created
  requests : ∀ r ∈ s.requests, RequestInv s.created r

/-- The step starts a process with a `--conversation` argument. -/
def resumes (r : Dispatch) : DispatchAction → Bool
  | .taskTurn .spawned => !r.superseded && r.conversationArg.isSome
  | _ => false

/-- The step ends a successful attempt whose conversation the request is going to be bound to. -/
def bindsNew (stack : ℕ) (r : Dispatch) (a : DispatchAction) : Bool :=
  (exitResult? stack r a).any fun res => r.call.binding.isNone && res.failure.isNone &&
    (truthy? res.conversationId).isSome && !r.call.sessionAccountKey.isEmpty

/-- **The step condition**: a request without an account has a session key that names none, and an attempt
that continues a conversation, or whose conversation will be bound, runs under the account selected first. -/
def SameHome (stack : ℕ) (s : EngineState) : EngineAction → Prop
  | .arrive call _ => call.account = none → keyAccount? call.sessionAccountKey = none
  | .act i a => ∀ r ∈ s.requests[i]?, (resumes r a || bindsNew stack r a) = true →
      r.attemptAccount = r.call.account

instance : ∀ (s : EngineState) (a : EngineAction), Decidable (SameHome stack s a)
  | _, .arrive call _ =>
    inferInstanceAs (Decidable (call.account = none → keyAccount? call.sessionAccountKey = none))
  | s, .act i a => inferInstanceAs (Decidable (∀ r ∈ s.requests[i]?,
      (resumes r a || bindsNew stack r a) = true → r.attemptAccount = r.call.account))

/-- Every `--conversation` was created in the HOME of the account its process runs under, and every
conversation bound under a key naming an account was created under that account. -/
structure BindingsConsistent (s : EngineState) : Prop where
  spawns : ∀ r ∈ s.requests, ∀ sp ∈ r.spawns, ∀ c, sp.conversation = some c → (c, sp.account) ∈ s.created
  store : ∀ k b A, s.store k = some b → keyAccount? k = some (AccountId.val A) →
    (b.conversationId, some A) ∈ s.created

theorem EngineInv.consistent {s : EngineState} (h : s.EngineInv) : s.BindingsConsistent where
  spawns r hr := (h.requests r hr).spawns
  store k b A hk hA := by
    obtain ⟨home, hhome, hmem⟩ := h.store k b hk
    rw [hA] at hhome
    cases home with
    | none => simp at hhome
    | some B =>
      obtain rfl := AccountId.val_injective (Option.some.inj hhome)
      exact hmem

theorem EngineInv.arrive {s : EngineState} (hs : s.EngineInv) {call : EngineCall} (runId : RunId)
    (hcall : call.account = none → keyAccount? call.sessionAccountKey = none) :
    EngineInv { s with
      store := (call.lookupBinding s.store).2.foldl StoreOp.apply s.store
      requests := s.requests ++ [.init (call.dispatchCall (call.lookupBinding s.store).1) runId] } := by
  obtain ⟨hops, hfound⟩ := lookupBinding_cases call s.store
  have hkey := EngineCall.keyAccount?_key hcall
  refine ⟨hs.store.apply _ fun k b h => absurd h (hops k b), fun r hr => ?_⟩
  rcases List.mem_append.mp hr with hr | hr
  · exact hs.requests r hr
  · obtain rfl := List.mem_singleton.mp hr
    refine ⟨fun _ => hkey, fun b hb => ?_, by simp [Dispatch.init], by intro last hl; simp [Dispatch.init] at hl⟩
    obtain ⟨hstore, -⟩ := hfound b hb
    obtain ⟨home, hhome, hmem⟩ := hs.store _ _ hstore
    obtain rfl : call.account = home := Option.map_injective AccountId.val_injective (hkey.symm.trans hhome)
    exact hmem

/-- What a request's step sets in the store is at home. -/
theorem settling_home {s : EngineState} {r : Dispatch} {a : DispatchAction} {k : JsString} {b : SessionBinding}
    (hr : RequestInv s.created r) (hok : (resumes r a || bindsNew stack r a) = true → r.attemptAccount = r.call.account)
    (h : r.Settling stack a (.set k b)) : ∃ home : Option AccountId,
      keyAccount? k = home.map AccountId.val ∧ (b.conversationId, home) ∈ s.created ++ creates stack r a := by
  cases h with
  | @set res _ hres hfail hid hkey =>
    refine ⟨r.call.account, hr.key hkey, List.mem_append.mpr ?_⟩
    cases hb : r.call.binding with
    | some b₀ =>
      -- the conversation continued stays bound
      have hid' : b₀.conversationId = b.conversationId := by
        simp only [DispatchCall.finalId, hb, truthy?, Option.filter_eq_some_iff] at hid
        exact Option.some.inj hid.1
      exact Or.inl (hid' ▸ hr.binding b₀ hb)
    | none =>
      have hid' : truthy? res.conversationId = some b.conversationId := by simpa [DispatchCall.finalId, hb] using hid
      have hbinds : bindsNew stack r a = true := by simp [bindsNew, hres, hb, hfail, hid', hkey]
      have hacc := hok (by rw [hbinds, Bool.or_true])
      have harg : r.conversationArg = none := by simp [Dispatch.conversationArg, hb, truthy?]
      exact Or.inr (by simp [creates, harg, hres, hid', hacc])

theorem EngineInv.act {s : EngineState} (hs : s.EngineInv) {i : ℕ} {a : DispatchAction} {r r' : Dispatch}
    (hi : s.requests[i]? = some r) (hok : (resumes r a || bindsNew stack r a) = true → r.attemptAccount = r.call.account)
    (h : r.step stack a = some r') :
    EngineInv {
      store := (newStoreOps r r').foldl StoreOp.apply s.store
      requests := s.requests.set i r'
      created := s.created ++ creates stack r a } := by
  have hr := hs.requests r (List.mem_of_getElem? hi)
  have hsub : s.created ⊆ s.created ++ creates stack r a := List.subset_append_left _ _
  obtain ⟨hcall, hspawns, ops, hops, hset⟩ := Dispatch.step_bindings hr.waits h
  have hnew : newStoreOps r r' = ops := by rw [newStoreOps, hops, List.drop_left]
  refine ⟨?_, fun q hq => ?_⟩
  · show StoreInv ((newStoreOps r r').foldl StoreOp.apply s.store) _
    rw [hnew]
    refine StoreInv.apply ops (fun k b hk => ?_) fun k b hmem => settling_home hr hok (hset _ hmem)
    obtain ⟨home, hhome, hm⟩ := hs.store k b hk
    exact ⟨home, hhome, hsub hm⟩
  · rcases List.mem_or_eq_of_mem_set hq with hq | rfl
    · exact (hs.requests q hq).mono hsub
    · have hr' := hr.mono hsub
      refine ⟨hcall ▸ hr'.key, hcall ▸ hr'.binding, fun sp hsp c hc => ?_, hr.waits.step h⟩
      rcases hspawns with hsame | ⟨rfl, hsup, hnew⟩
      · exact hr'.spawns sp (hsame ▸ hsp) c hc
      · rw [hnew] at hsp
        rcases List.mem_append.mp hsp with hsp | hsp
        · exact hr'.spawns sp hsp c hc
        · obtain rfl := List.mem_singleton.mp hsp
          -- the argument is the id of the binding, at home under the first account
          have hacc := hok (by simp only [resumes, hsup]; rw [show r.conversationArg = some c from hc]; rfl)
          obtain ⟨b, hb, hbc⟩ : ∃ b, r.call.binding = some b ∧ b.conversationId = c := by
            simp only [Dispatch.conversationArg, truthy?, Option.filter_eq_some_iff, Option.map_eq_some_iff] at hc
            exact hc.1
          rw [← hbc]
          exact hacc ▸ hr'.binding b hb

theorem EngineInv.step {s s' : EngineState} {a : EngineAction} (hs : s.EngineInv) (hok : SameHome stack s a)
    (h : s.step stack a = some s') : s'.EngineInv := by
  cases a with
  | arrive call runId =>
    obtain rfl := Option.some.inj h
    exact hs.arrive runId hok
  | act i a =>
    obtain ⟨r, hi, h⟩ := Option.bind_eq_some_iff.mp h
    split_ifs at h
    obtain ⟨r', hstep, rfl⟩ := Option.map_eq_some_iff.mp h
    exact hs.act hi (hok r hi) hstep

end EngineState

end Invariant

/-! ### Runs -/

section Runs

variable {stack : ℕ}

open EngineState

/-- **Bindings stay at home**: in every state that steps under `SameHome` reach, from an empty store and
in any interleaving of requests, a conversation id went only to processes under the account it was created
under, and a binding whose key names an account holds a conversation created under that account. -/
theorem bindings_consistent {as : List EngineAction} {s : EngineState}
    (hok : Every (EngineState.step stack) (SameHome stack) .init as)
    (h : exec (EngineState.step stack) .init as = some s) : s.BindingsConsistent := by
  have hinit : EngineState.init.EngineInv := by
    refine ⟨?_, by simp [EngineState.init]⟩
    intro k b hk
    cases hk
  exact (exec_invariant (fun _ _ _ hs hok h => hs.step hok h) as _ _ hinit hok h).consistent

/-- A request on account A, with no session of its own. -/
def rootCall (messageCount : ℕ) : EngineCall where
  tenantKey := js "root"
  sessionKey := []
  account := some accountA
  family := .google
  model := js "gemini-3.6-flash"
  activeModel := js "gemini-3.6-flash"
  defaultModel := js "gemini-3.6-flash"
  messageCount
  timeoutMs := 300000
  callMeta := ⟨none, none, .openai⟩

/-- One attempt that names conversation `c1` and succeeds. -/
def namesConversation (i : ℕ) : List EngineAction :=
  [.act i (.taskTurn .spawned),
    .act i (.stdout (js "\x7b\"event\":\"result\",\"conversation_id\":\"c1\",\"response\":\"hi\"\x7d\n")),
    .act i (.exit ⟨some 0, none, 900, none⟩)]

/-- Two turns of one conversation under one account. -/
theorem bindings_consistent_twoTurns : ∃ s, exec (EngineState.step 10000) .init
    (.arrive (rootCall 1) dispatchRunId :: namesConversation 0 ++
      .arrive (rootCall 3) dispatchRunId :: namesConversation 1) = some s ∧ s.BindingsConsistent := by
  obtain ⟨s, hs, -⟩ := Option.map_eq_some_iff.mp
    (show (exec (EngineState.step 10000) .init (.arrive (rootCall 1) dispatchRunId :: namesConversation 0 ++
      .arrive (rootCall 3) dispatchRunId :: namesConversation 1)).map
        (fun s => (s.requests.flatMap Dispatch.spawns).map Spawn.conversation) = some [none, some (js "c1")]
      by decide +kernel)
  have hok : Every (EngineState.step 10000) (SameHome 10000) .init
      (.arrive (rootCall 1) dispatchRunId :: namesConversation 0 ++
        .arrive (rootCall 3) dispatchRunId :: namesConversation 1) := by decide +kernel
  exact ⟨s, hs, bindings_consistent hok hs⟩

/-- A crash under account A, a retry under account B: its conversation is bound under A's key. -/
theorem not_bindings_consistent_reselected : ∃ s, exec (EngineState.step 10000) .init
    (.arrive (rootCall 1) dispatchRunId :: .act 0 (.taskTurn .spawned) :: .act 0 (.exit ⟨some 1, none, 900, none⟩) ::
      .act 0 (.delayEnds (.found accountB)) :: namesConversation 0) = some s ∧ ¬ s.BindingsConsistent := by
  obtain ⟨s, hs, hbound⟩ := Option.map_eq_some_iff.mp
    (show (exec (EngineState.step 10000) .init
      (.arrive (rootCall 1) dispatchRunId :: .act 0 (.taskTurn .spawned) :: .act 0 (.exit ⟨some 1, none, 900, none⟩) ::
        .act 0 (.delayEnds (.found accountB)) :: namesConversation 0)).map
          (fun s => (s.store (rootCall 1).sessionAccountKey, s.created)) =
        some (some ⟨js "c1", 1, js "gemini-3.6-flash"⟩, [(js "c1", some accountB)]) by decide +kernel)
  obtain ⟨hstore, hcreated⟩ := Prod.mk.inj hbound
  refine ⟨s, hs, fun h => ?_⟩
  have hmem := h.store _ _ accountA hstore (keyAccount?_account _ _ _)
  rw [hcreated] at hmem
  exact absurd hmem (by decide)

end Runs

end AgyProxy
