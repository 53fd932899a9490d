import AgyProxy.Host.EngineSpec
import AgyProxy.Host.Tenants

/-!
# AgyProxy.Host.TenantsSpec — what one API key can see of another's runs

Session keys carry the tenant, so the store never gives a request a conversation that another key bound
(`bindingKey_inj`).  The run registry is not keyed by tenant: a continuation reads whatever run its call id
names.

* `tenants_isolated`: **isolation**; in a run where every continuation names a run of its own key, or none,
  requests get output of their key's runs only and their processes continue conversations bound under it.
* `not_isolated_foreignCall`: a call id of another key's run surfaces its events.
-/

namespace AgyProxy

open Js Lib

/-! ### Keys -/

section Keys

variable {key key' : Option KeyId} {id id' : AccountId}

theorem tenantKey_injective : Function.Injective tenantKey := by
  have hroot : ∀ k : KeyId, k.val ≠ js "root" := by
    rintro ⟨val, hval⟩ rfl
    exact absurd hval (by decide)
  intro key key' h
  cases key with
  | none =>
    cases key' with
    | none => rfl
    | some k' => exact absurd h.symm (hroot k')
  | some k =>
    cases key' with
    | none => exact absurd h (hroot k)
    | some k' =>
      obtain ⟨val, hval⟩ := k
      obtain ⟨val', hval'⟩ := k'
      obtain rfl : val = val' := h
      rfl

/-- The store key of a gateway request: it sets no session key. -/
def bindingKey (key : Option KeyId) (id : AccountId) : JsString :=
  tenantKey key ++ js ":" ++ [] ++ js ":" ++ id.val

/-- **Store keys keep tenants apart.** -/
theorem bindingKey_inj (h : bindingKey key id = bindingKey key' id') : key = key' := by
  have hid : id.val = id'.val := by
    have hkeys := congrArg keyAccount? h
    rw [bindingKey, bindingKey, keyAccount?_account, keyAccount?_account] at hkeys
    exact Option.some.inj hkeys
  unfold bindingKey at h
  rw [hid] at h
  apply tenantKey_injective
  exact List.append_cancel_right (List.append_cancel_right (List.append_cancel_right (List.append_cancel_right h)))

theorem engineCall_key (q : TenantRequest) :
    q.engineCall.sessionAccountKey = [] ∨ ∃ id, q.engineCall.sessionAccountKey = bindingKey q.key id := by
  cases ha : q.account with
  | none =>
    refine Or.inl ?_
    simp [EngineCall.sessionAccountKey, TenantRequest.engineCall, ha]
  | some id =>
    refine Or.inr ⟨id, ?_⟩
    simp only [EngineCall.sessionAccountKey, TenantRequest.engineCall, ha]
    rfl

end Keys

/-! ### The invariant -/

section Invariant

variable {stack : ℕ} {bound bound' : List (Option KeyId × JsString)} {key : Option KeyId} {r r' : Dispatch}

/-- What is known of a dispatch of a key: its store key carries the key, and what it continues was bound under
it. -/
structure RequestOf (bound : List (Option KeyId × JsString)) (key : Option KeyId) (r : Dispatch) : Prop where
  keyed : r.call.sessionAccountKey = [] ∨ ∃ id, r.call.sessionAccountKey = bindingKey key id
  binding : ∀ b, r.call.binding = some b → (key, b.conversationId) ∈ bound
  spawns : ∀ sp ∈ r.spawns, ∀ id, sp.conversation = some id → (key, id) ∈ bound
  waits : r.WaitsFailed

theorem RequestOf.mono (h : RequestOf bound key r) (hsub : bound ⊆ bound') : RequestOf bound' key r where
  keyed := h.keyed
  binding b hb := hsub (h.binding b hb)
  spawns sp hsp id hid := hsub (h.spawns sp hsp id hid)
  waits := h.waits

/-- A step of a dispatch continues only what was bound under its key. -/
theorem RequestOf.step {a : DispatchAction} (h : RequestOf bound key r) (hs : r.step stack a = some r') :
    RequestOf bound key r' := by
  obtain ⟨hcall, hspawns, -⟩ := Dispatch.step_bindings h.waits hs
  refine ⟨hcall ▸ h.keyed, hcall ▸ h.binding, fun sp hsp id hid => ?_, h.waits.step hs⟩
  rcases hspawns with hsame | ⟨-, -, hnew⟩
  · exact h.spawns sp (hsame ▸ hsp) id hid
  · rw [hnew] at hsp
    rcases List.mem_append.mp hsp with hsp | hsp
    · exact h.spawns sp hsp id hid
    · obtain rfl := List.mem_singleton.mp hsp
      obtain ⟨b, hb, rfl⟩ : ∃ b, r.call.binding = some b ∧ b.conversationId = id := by
        simp only [Dispatch.conversationArg, truthy?, Option.filter_eq_some_iff, Option.map_eq_some_iff] at hid
        exact hid.1
      exact h.binding b hb

/-- Every stored conversation was bound under the key its store key carries. -/
def BoundUnderKey (store : SessionStore) (bound : List (Option KeyId × JsString)) : Prop :=
  ∀ k b, store k = some b → ∃ key id, k = bindingKey key id ∧ (key, b.conversationId) ∈ bound

namespace Tenants

variable {s s' : Tenants} {a : TenantAction} {i : ℕ} {run run' : TenantRun}

structure TenantInv (s : Tenants) : Prop where
  readers : ∀ run ∈ s.runs, ∀ key ∈ run.readers, run.owner = key
  length : s.runs.length = s.engine.requests.length
  store : BoundUnderKey s.engine.store s.bound
  requests : ∀ (i : ℕ) (run : TenantRun) (r : Dispatch), s.runs[i]? = some run → s.engine.requests[i]? = some r →
    RequestOf s.bound run.owner r

theorem init_inv : init.TenantInv where
  readers := fun _ hrun => absurd hrun List.not_mem_nil
  length := rfl
  store := fun _ _ h => nomatch h
  requests := fun _ _ _ h => nomatch h

theorem TenantInv.isolated (h : s.TenantInv) : s.Isolated where
  output := by
    rintro run hrun ⟨key, c⟩ hp -
    exact h.readers run hrun key (List.of_mem_zip hp).1
  conversations := by
    rintro ⟨run, r⟩ hp
    obtain ⟨i, hi⟩ := List.mem_iff_getElem?.mp hp
    obtain ⟨hrun, hr⟩ := List.getElem?_zip_eq_some.mp hi
    exact (h.requests i run r hrun hr).spawns

/-- A run goes on under its owner. -/
theorem TenantInv.setRun (h : s.TenantInv) (hi : s.runs[i]? = some run) (howner : run'.owner = run.owner)
    (hreaders : ∀ key ∈ run'.readers, run.owner = key) : (s.setRun i run').TenantInv where
  readers := by
    intro q hq
    rcases List.mem_or_eq_of_mem_set hq with hq | rfl
    · exact h.readers q hq
    · rw [howner]
      exact hreaders
  length := List.length_set.trans h.length
  store := h.store
  requests := by
    intro j q r hq hr
    have hq : (s.runs.set i run')[j]? = some q := hq
    by_cases hij : i = j
    · subst hij
      rw [List.getElem?_set_self (List.getElem?_eq_some_iff.mp hi).1] at hq
      obtain rfl := Option.some.inj hq
      rw [howner]
      exact h.requests i run r hi hr
    · rw [List.getElem?_set_ne hij] at hq
      exact h.requests j q r hq hr

/-- A continuation of the key's own run. -/
theorem TenantInv.resume (h : s.TenantInv) {runId : JsString} {eventIndex : ℕ}
    (hown : ∀ i ∈ s.find runId, ∀ run ∈ s.runs[i]?, run.owner = key) : (s.resume key runId eventIndex).TenantInv := by
  unfold Tenants.resume
  split
  · next i run' hfound =>
    obtain ⟨i₀, hfind, hat⟩ := Option.bind_eq_some_iff.mp hfound
    obtain ⟨run, hrun, hreads⟩ := Option.bind_eq_some_iff.mp hat
    obtain ⟨run₁, hread, heq⟩ := Option.map_eq_some_iff.mp hreads
    obtain ⟨rfl, rfl⟩ := Prod.mk.inj heq
    obtain ⟨span, -, rfl⟩ := Option.map_eq_some_iff.mp hread
    refine h.setRun hrun rfl fun k hk => ?_
    rcases List.mem_append.mp hk with hk | hk
    · exact h.readers run (List.mem_of_getElem? hrun) k hk
    · rw [List.mem_singleton.mp hk]
      exact hown i₀ hfind run hrun
  · exact h

/-- A new run: what the lookup finds was bound under the key of the request. -/
theorem TenantInv.start (h : s.TenantInv) (q : TenantRequest) (runId : RunId) :
    TenantInv { s with
      engine := { s.engine with
        store := (q.engineCall.lookupBinding s.engine.store).2.foldl StoreOp.apply s.engine.store
        requests := s.engine.requests ++
          [.init (q.engineCall.dispatchCall (q.engineCall.lookupBinding s.engine.store).1) runId] }
      runs := s.runs ++ [.start q.key runId] } := by
  obtain ⟨hops, hfound⟩ := lookupBinding_cases q.engineCall s.engine.store
  refine ⟨?_, ?_, ?_, ?_⟩
  · intro run hrun
    rcases List.mem_append.mp hrun with hrun | hrun
    · exact h.readers run hrun
    · rw [List.mem_singleton.mp hrun]
      intro key hkey
      exact (List.mem_singleton.mp hkey).symm
  · show (s.runs ++ [_]).length = (s.engine.requests ++ [_]).length
    rw [List.length_append, List.length_append, h.length]
    rfl
  · intro k b hk
    rcases foldl_apply_eq_some _ _ hk with hk | hk
    · exact h.store k b hk
    · exact absurd hk (hops k b)
  · intro j run r hrun hr
    have hrun : (s.runs ++ [_])[j]? = some run := hrun
    have hr : (s.engine.requests ++ [_])[j]? = some r := hr
    rcases Nat.lt_or_ge j s.runs.length with hj | hj
    · rw [List.getElem?_append_left hj] at hrun
      rw [List.getElem?_append_left (h.length ▸ hj)] at hr
      exact h.requests j run r hrun hr
    · rw [List.getElem?_append_right hj] at hrun
      rw [List.getElem?_append_right (h.length ▸ hj)] at hr
      have hrun := List.mem_singleton.mp (List.mem_of_getElem? hrun)
      have hr := List.mem_singleton.mp (List.mem_of_getElem? hr)
      subst hrun hr
      refine ⟨engineCall_key q, fun b hb => ?_, fun sp hsp => absurd hsp List.not_mem_nil, fun last hl => ?_⟩
      · obtain ⟨hstore, hkey⟩ := hfound b hb
        obtain ⟨key, id, hk, hmem⟩ := h.store _ _ hstore
        rcases engineCall_key q with hnil | ⟨id', hid'⟩
        · rw [hnil] at hkey
          exact absurd hkey Bool.noConfusion
        · have howner : q.key = key := bindingKey_inj (hid'.symm.trans hk)
          exact howner ▸ hmem
      · exact nomatch hl

theorem newlyBound_eq {engine : EngineState} (hrun : s.runs[i]? = some run) (hr : s.engine.requests[i]? = some r)
    (hr' : engine.requests[i]? = some r') :
    s.newlyBound engine i = (EngineState.newStoreOps r r').filterMap fun op => op.bound?.map (run.owner, ·) := by
  unfold newlyBound
  rw [hrun, hr, hr']

/-- A dispatch step: what it binds is bound under the key of its run. -/
theorem TenantInv.dispatch (h : s.TenantInv) {a : DispatchAction} {engine : EngineState}
    (hs : s.engine.step stack (.act i a) = some engine) :
    TenantInv { s with engine, bound := s.bound ++ s.newlyBound engine i } := by
  obtain ⟨r, hr, hact⟩ := Option.bind_eq_some_iff.mp hs
  obtain ⟨-, hact⟩ := Option.ite_none_left_eq_some.mp hact
  obtain ⟨r', hstep, hengine⟩ := Option.map_eq_some_iff.mp hact
  have hlt : i < s.engine.requests.length := (List.getElem?_eq_some_iff.mp hr).1
  obtain ⟨run, hrun⟩ : ∃ run, s.runs[i]? = some run := ⟨_, List.getElem?_eq_getElem (h.length ▸ hlt)⟩
  have hof := h.requests i run r hrun hr
  have hstore : engine.store = (EngineState.newStoreOps r r').foldl StoreOp.apply s.engine.store := hengine ▸ rfl
  have hrequests : engine.requests = s.engine.requests.set i r' := hengine ▸ rfl
  have hself : engine.requests[i]? = some r' := by rw [hrequests, List.getElem?_set_self hlt]
  obtain ⟨hcall, -, ops, hops, hset⟩ := Dispatch.step_bindings hof.waits hstep
  have hnew : EngineState.newStoreOps r r' = ops := by rw [EngineState.newStoreOps, hops, List.drop_left]
  rw [newlyBound_eq hrun hr hself, hnew]
  rw [hnew] at hstore
  refine ⟨h.readers, ?_, ?_, ?_⟩
  · rw [hrequests, List.length_set]
    exact h.length
  · intro k b hk
    rw [hstore] at hk
    rcases foldl_apply_eq_some _ _ hk with hk | hin
    · obtain ⟨key, id, hkey, hmem⟩ := h.store k b hk
      exact ⟨key, id, hkey, List.mem_append_left _ hmem⟩
    · have hbound : (run.owner, b.conversationId) ∈ ops.filterMap fun op => op.bound?.map (run.owner, ·) :=
        List.mem_filterMap.mpr ⟨_, hin, rfl⟩
      cases hset _ hin with
      | set hres hfail hid hkey =>
        rcases hof.keyed with hnil | ⟨id, hid'⟩
        · rw [hnil] at hkey
          exact absurd hkey Bool.noConfusion
        · exact ⟨run.owner, id, hid', List.mem_append_right _ hbound⟩
  · intro j run₁ r₁ hrun₁ hr₁
    have hsub : s.bound ⊆ s.bound ++ ops.filterMap fun op => op.bound?.map (run.owner, ·) :=
      List.subset_append_left _ _
    by_cases hij : i = j
    · subst hij
      obtain rfl := Option.some.inj (hself.symm.trans hr₁)
      obtain rfl := Option.some.inj (hrun.symm.trans hrun₁)
      exact (hof.step hstep).mono hsub
    · rw [hrequests, List.getElem?_set_ne hij] at hr₁
      exact (h.requests j run₁ r₁ hrun₁ hr₁).mono hsub

theorem TenantInv.step (h : s.TenantInv) (hown : s.OwnContinuation a) (hs : s.step stack a = some s') :
    s'.TenantInv := by
  cases a with
  | request q runId =>
    unfold Tenants.step at hs
    cases hc : detectContinuation q.messages with
    | some c =>
      simp only [hc] at hs
      obtain rfl := Option.some.inj hs
      exact h.resume (hown c hc)
    | none =>
      simp only [hc] at hs
      split_ifs at hs
      obtain ⟨engine, harrive, rfl⟩ := Option.map_eq_some_iff.mp hs
      obtain rfl := Option.some.inj harrive
      exact h.start q runId
  | dispatch i a =>
    obtain ⟨engine, hact, rfl⟩ := Option.map_eq_some_iff.mp hs
    exact h.dispatch hact
  | span i a =>
    obtain ⟨-, hs⟩ := Option.ite_none_left_eq_some.mp hs
    obtain ⟨run, hrun, hs⟩ := Option.bind_eq_some_iff.mp hs
    obtain ⟨span, -, rfl⟩ := Option.map_eq_some_iff.mp hs
    exact h.setRun hrun rfl (h.readers run (List.mem_of_getElem? hrun))
  | evict i =>
    obtain ⟨run, hrun, rfl⟩ := Option.map_eq_some_iff.mp hs
    exact h.setRun hrun rfl (h.readers run (List.mem_of_getElem? hrun))

end Tenants

end Invariant

/-! ### Runs -/

section Runs

variable {stack : ℕ}

open Tenants

/-- **Isolation**: in every state that a run reaches whose continuations each name a run of their own key, or
none, each request was given output of its key's runs only, and each process continues a conversation bound
under its key. -/
theorem tenants_isolated {as : List TenantAction} {s : Tenants} (hown : Every (Tenants.step stack) OwnContinuation .init as)
    (h : exec (Tenants.step stack) .init as = some s) : s.Isolated :=
  (exec_invariant (fun _ _ _ hs hok hstep => hs.step hok hstep) as _ _ init_inv hown h).isolated

def keyA : KeyId := ⟨js "key_0a", by decide⟩
def keyB : KeyId := ⟨js "key_0b", by decide⟩

/-- A request on account A. -/
def requestOf (key : KeyId) (messages : List EngineMessage) : TenantRequest where
  key := some key
  messages
  account := some accountA
  family := .google
  model := js "gemini-3.6-flash"
  activeModel := js "gemini-3.6-flash"
  defaultModel := js "gemini-3.6-flash"
  timeoutMs := 300000
  reqId := none
  protocol := .openai

def userMessage : EngineMessage := ⟨.user, js "hi", none⟩

/-- The answer to the tool call with that id. -/
def toolMessage (callId : String) : EngineMessage := ⟨.tool, [], some (js callId)⟩

def textEvent (text : String) : AgyEvent := .step ⟨js "1", .text, js text, false, none, none, none⟩

/-- Two keys on one account: each has a run, and the first one continues its own. -/
def twoTenants : List TenantAction :=
  [.request (requestOf keyA [userMessage]) ⟨js "a", by decide⟩, .dispatch 0 (.taskTurn .spawned),
    .dispatch 0 (.stdout (js "\x7b\"event\":\"result\",\"conversation_id\":\"c1\",\"response\":\"hi\"\x7d\n")),
    .dispatch 0 (.exit ⟨some 0, none, 900, none⟩), .request (requestOf keyB [userMessage]) ⟨js "b", by decide⟩,
    .span 0 (.append (textEvent "one")), .span 0 (.append (textEvent "two")),
    .request (requestOf keyA [toolMessage "agytc-a-0"]) ⟨js "c", by decide⟩, .span 0 (.pump 1), .span 0 (.drain 1),
    .request (requestOf keyA [userMessage]) ⟨js "d", by decide⟩, .dispatch 2 (.taskTurn .spawned)]

theorem tenants_isolated_two : ∃ s, exec (Tenants.step 10000) .init twoTenants = some s ∧ s.Isolated ∧
    s.engine.requests.map (fun r => r.spawns.map Spawn.conversation) = [[none], [], [some (js "c1")]] := by
  have hown : Every (Tenants.step 10000) OwnContinuation .init twoTenants := by decide +kernel
  have hrun : (exec (Tenants.step 10000) .init twoTenants).map
      (fun s => s.engine.requests.map fun r => r.spawns.map Spawn.conversation) =
      some [[none], [], [some (js "c1")]] := by decide +kernel
  obtain ⟨s, hs, hspawns⟩ := Option.map_eq_some_iff.mp hrun
  exact ⟨s, hs, tenants_isolated hown hs, hspawns⟩

/-- One key's run, and the answer of another key to a tool call of it. -/
def foreignCall : List TenantAction :=
  [.request (requestOf keyA [userMessage]) ⟨js "a", by decide⟩, .span 0 (.append (textEvent "one")),
    .span 0 (.append (textEvent "two")), .request (requestOf keyB [toolMessage "agytc-a-0"]) ⟨js "b", by decide⟩,
    .span 0 (.pump 1), .span 0 (.drain 1)]

/-- The registry hands the run of the first key to the second one. -/
theorem not_isolated_foreignCall : ∃ s, exec (Tenants.step 10000) .init foreignCall = some s ∧ ¬ s.Isolated := by
  have hrun : (exec (Tenants.step 10000) .init foreignCall).map (fun s => s.runs.map fun run =>
      (run.owner, (run.readers.zip run.span.consumers).map fun p => (p.1, p.2.delivered.length))) =
      some [(some keyA, [(some keyA, 0), (some keyB, 1)])] := by decide +kernel
  obtain ⟨s, hs, hruns⟩ := Option.map_eq_some_iff.mp hrun
  refine ⟨s, hs, fun hiso => ?_⟩
  obtain ⟨run, hrun, hfields⟩ := List.map_eq_singleton_iff.mp hruns
  obtain ⟨howner, hreaders⟩ := Prod.mk.inj hfields
  have hmem : (some keyB, 1) ∈ (run.readers.zip run.span.consumers).map fun p => (p.1, p.2.delivered.length) := by
    rw [hreaders]
    exact List.mem_cons_of_mem _ List.mem_cons_self
  obtain ⟨p, hp, heq⟩ := List.mem_map.mp hmem
  obtain ⟨hkey, hlen⟩ := Prod.mk.inj heq
  have hgot : p.2.delivered ≠ [] := by
    intro hnil
    rw [hnil] at hlen
    exact absurd hlen (by decide)
  have hsame := hiso.output run (hrun ▸ List.mem_singleton_self run) p hp hgot
  rw [howner, hkey] at hsame
  exact absurd hsame (by decide)

end Runs

end AgyProxy
