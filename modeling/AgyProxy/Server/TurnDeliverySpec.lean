import Mathlib.Data.List.ReduceOption
import AgyProxy.Host.EngineSpec
import AgyProxy.Server.TurnDelivery

/-!
# AgyProxy.Server.TurnDeliverySpec — every user turn once, no reply again

* `request_turns`, `turn_json`: what the adapters make of a history and of a reply; no turn bears a mark.
* `Exchanged`: the requests and replies of a session, with the messages they make.
* `ExactlyOnce`: what the prompt of a bound conversation has to carry.
* `turns_exactly_once_iff`: **it does, throughout a session, exactly when the replies are blank**.
-/

namespace AgyProxy

open Js Lib

/-! ### What the adapters make of a history -/

section Adapters

/-- A computation that succeeds, taken apart. -/
theorem bind_ok_iff {α β ε : Type} {x : Except ε α} {f : α → Except ε β} {b : β} :
    x >>= f = .ok b ↔ ∃ a, x = .ok a ∧ f a = .ok b := by
  cases x <;> simp [bind, Except.bind]

theorem map_ok_iff {α β ε : Type} {x : Except ε α} {f : α → β} {b : β} :
    x.map f = .ok b ↔ ∃ a, x = .ok a ∧ f a = b := by
  cases x <;> simp [Except.map]

theorem mapM_ok_iff {α β ε : Type} {f : α → Except ε β} {as : List α} {bs : List β} :
    as.mapM f = .ok bs ↔ List.Forall₂ (fun a b => f a = .ok b) as bs := by
  induction as generalizing bs with
  | nil => simp [pure, Except.pure, eq_comm]
  | cons a as ih =>
    rw [List.mapM_cons, bind_ok_iff, List.forall₂_cons_left_iff]
    refine exists_congr fun b => ?_
    rw [bind_ok_iff]
    constructor
    · rintro ⟨hb, bs', hbs', heq⟩
      exact ⟨bs', hb, ih.mp hbs', (Except.ok.inj heq).symm⟩
    · rintro ⟨bs', hb, hbs', rfl⟩
      exact ⟨hb, bs', ih.mpr hbs', rfl⟩

variable {images : ImageDecoders} {client : Client} {raws : List Json} {mapped : MappedMessages}

/-- The turns of a history, one for each message. -/
def Maps (images : ImageDecoders) (client : Client) : List Json → List (Option PromptMessage) → Prop :=
  List.Forall₂ fun raw turn => client.turn? images raw = .ok turn

theorem Maps.unique {ts ts' : List (Option PromptMessage)} (h : Maps images client raws ts)
    (h' : Maps images client raws ts') : ts = ts' := by
  induction h generalizing ts' with
  | nil => exact (List.forall₂_nil_left_iff.mp h').symm
  | cons ht _ ih =>
    obtain ⟨t', ts'', ht', hts', rfl⟩ := List.forall₂_cons_left_iff.mp h'
    rw [Except.ok.inj (ht.symm.trans ht'), ih hts']

theorem mapChatMessages_turns {jsonObject : Bool}
    (h : mapChatMessages images.dataUrl jsonObject raws = .ok mapped) :
    ∃ ts, Maps images (.openAi jsonObject) raws ts ∧ mapped.messages = ts.reduceOption := by
  unfold mapChatMessages at h
  split at h
  · exact absurd h (by simp)
  · obtain ⟨turns, hturns, rfl⟩ := map_ok_iff.mp h
    refine ⟨turns.map Sum.getRight?, ?_, ?_⟩
    · refine List.forall₂_map_right_iff.mpr ((mapM_ok_iff.mp hturns).imp ?_)
      intro raw turn hturn
      show (mapChatMessage images.dataUrl raw).map Sum.getRight? = _
      rw [hturn]
      rfl
    · show turns.filterMap Sum.getRight? = _
      unfold List.reduceOption
      rw [List.filterMap_map]
      rfl

/-- A continuation is no user turn. -/
theorem withContinuation_eq_self {messages : List PromptMessage} {results : ToolResults}
    (hlast : (withContinuation messages results).getLast?.any PromptMessage.isUser = true) :
    withContinuation messages results = messages := by
  unfold withContinuation at hlast ⊢
  cases hcursor : results.cursor with
  | none => rfl
  | some cursor =>
    rw [hcursor] at hlast
    dsimp only at hlast
    rw [List.getLast?_concat] at hlast
    exact absurd hlast (by simp [PromptMessage.isUser])

theorem mapMessages_turns {system : Option Json} (h : mapMessages images.source system raws = .ok mapped)
    (hlast : mapped.messages.getLast?.any PromptMessage.isUser = true) :
    ∃ ts, Maps images (.anthropic system) raws ts ∧ mapped.messages = ts.reduceOption := by
  unfold mapMessages at h
  split at h
  · exact absurd h (by simp)
  · obtain ⟨messages, hmessages, h⟩ := bind_ok_iff.mp h
    obtain ⟨results, -, h⟩ := bind_ok_iff.mp h
    obtain ⟨text, -, h⟩ := bind_ok_iff.mp h
    obtain rfl := Except.ok.inj h
    refine ⟨messages.map some, ?_, ?_⟩
    · refine List.forall₂_map_right_iff.mpr ((mapM_ok_iff.mp hmessages).imp ?_)
      intro raw turn hturn
      show (mapMessage images.source raw).map some = _
      rw [hturn]
      rfl
    · refine (withContinuation_eq_self hlast).trans ?_
      simp [List.reduceOption]

/-- **A request whose last message is a user turn** is mapped message by message. -/
theorem request_turns (h : client.request images raws = .ok mapped)
    (hlast : mapped.messages.getLast?.any PromptMessage.isUser = true) :
    ∃ ts, Maps images client raws ts ∧ mapped.messages = ts.reduceOption := by
  cases client with
  | openAi jsonObject => exact mapChatMessages_turns h
  | anthropic system => exact mapMessages_turns h hlast

/-- A text block of a reply in a later request. -/
theorem mapBlock_json (source : Option Json → Except MessageError Unit) (block : AnthropicMessageBlock) :
    mapBlock source (js "assistant") block.json = .ok (GatewayReply.blockText block) := by
  cases block with
  | text s => rfl
  | thinking s => cases s <;> rfl
  | toolUse id name input => rfl

/-- **A reply is mapped to an assistant turn without a mark.** -/
theorem turn_json {r : GatewayReply} (h : client.gets r = true) :
    client.turn? images r.json = .ok (some (.unmarked .assistant r.text)) := by
  cases r with
  | completion r =>
    cases client with
    | openAi jsonObject =>
      obtain ⟨id, created, model, content, toolCalls, finishReason, usage⟩ := r
      cases content <;> cases toolCalls <;> rfl
    | anthropic system => exact absurd h Bool.noConfusion
  | message r =>
    cases client with
    | openAi jsonObject => exact absurd h Bool.noConfusion
    | anthropic system =>
      have hblocks : (r.content.map AnthropicMessageBlock.json).mapM (mapBlock images.source (js "assistant")) =
          .ok (r.content.map GatewayReply.blockText) := by
        refine mapM_ok_iff.mpr (List.forall₂_map_left_iff.mpr (List.forall₂_map_right_iff.mpr ?_))
        exact List.forall₂_same.mpr fun block _ => mapBlock_json images.source block
      have hcontent : mapContent images.source (some (.arr (r.content.map AnthropicMessageBlock.json)))
          (js "assistant") = .ok (r.content.flatMap GatewayReply.blockText) := by
        unfold mapContent
        dsimp only
        rw [hblocks, List.flatMap_def]
        rfl
      show (((mapContent images.source (some (.arr (r.content.map AnthropicMessageBlock.json)))
        (js "assistant")).map (PromptMessage.unmarked .assistant)).map some) = _
      rw [hcontent]
      rfl

end Adapters

/-! ### Exactly once -/

/-- **The prompt of a turn** consists of the messages at its carried positions, under the instructions and before the
staged images. -/
theorem SentTurn.prompt_carried (t : SentTurn) : ∃ instructions promptSuffix,
    t.prompt = withStaged (instructions ++ (digestText ((taggedDigest t.messages t.binding).map Prod.snd) ++
      (js "\n\n").intercalate ((liveTurns t.messages).map fun m => m.1.text))) promptSuffix := by
  obtain ⟨system, promptSuffix, hprompt⟩ := t.assembled
  obtain ⟨instructions, hcarried⟩ := assemblePrompt_carried t.messages t.binding system
  exact ⟨instructions, promptSuffix, hprompt.trans (by rw [hcarried])⟩

/-- What the prompt of a turn has to carry, behind the earlier turns: each user turn no prompt brought to its
conversation exactly once, and no reply of that conversation. -/
structure ExactlyOnce (conversation : SentTurn → Option JsString) (earlier : List SentTurn) (t : SentTurn) :
    Prop where
  undelivered : ∀ i m, t.messages[i]? = some m → m.isUser = true → m.text ≠ [] →
    (∀ e ∈ earlier, conversation e = conversation t → i ∉ e.carried) → t.carried.count i = 1
  /-- the reply to a turn stands behind its messages -/
  ownReplies : ∀ e ∈ earlier, conversation e = conversation t → e.messages.length ∉ t.carried

/-- Every turn of a bound conversation is delivered so. -/
def AllOnce (conversation : SentTurn → Option JsString) (turns : List SentTurn) : Prop :=
  ∀ earlier t later, turns = earlier ++ t :: later → t.binding.isSome = true → ExactlyOnce conversation earlier t

theorem allOnce_concat {conversation : SentTurn → Option JsString} {turns : List SentTurn} {t : SentTurn} :
    AllOnce conversation (turns ++ [t]) ↔
      AllOnce conversation turns ∧ (t.binding.isSome = true → ExactlyOnce conversation turns t) := by
  constructor
  · intro h
    refine ⟨fun earlier t' later heq => h earlier t' (later ++ [t]) ?_, h turns t [] rfl⟩
    rw [heq, List.append_assoc]
    rfl
  · rintro ⟨hall, hlast⟩ earlier t' later heq
    rcases List.eq_nil_or_concat later with rfl | ⟨later', x, rfl⟩
    · obtain ⟨rfl, heq'⟩ := List.append_inj' heq rfl
      obtain rfl := List.head_eq_of_cons_eq heq'
      exact hlast
    · rw [List.concat_eq_append, ← List.cons_append, ← List.append_assoc] at heq
      exact hall earlier t' later' (List.append_inj' heq rfl).1

/-! ### The shape of a session -/

/-- The requests and the replies of a session, with the messages they make.  The flag is set while the last request
has no reply; a binding behind the first request was written by an earlier one. -/
inductive Exchanged : Bool → List SentTurn → List GatewayReply → List PromptMessage → Prop
  | start : Exchanged false [] [] []
  | send {turns : List SentTurn} {answers : List GatewayReply} {ms : List PromptMessage} {t : SentTurn}
      {u : PromptMessage} : Exchanged false turns answers ms → u.isUser = true → t.messages = ms ++ [u] →
      (turns ≠ [] → ∃ b, t.binding = some b ∧ b.lastMessageCount + 1 ≤ ms.length) →
      Exchanged true (turns ++ [t]) answers (ms ++ [u])
  | reply {turns : List SentTurn} {answers : List GatewayReply} {ms : List PromptMessage} (r : GatewayReply) :
      Exchanged true turns answers ms →
      Exchanged false turns (answers ++ [r]) (ms ++ [.unmarked .assistant r.text])

theorem getElem?_concat_cases {α : Type} {l : List α} {x y : α} {i : ℕ} (h : (l ++ [x])[i]? = some y) :
    l[i]? = some y ∨ i = l.length ∧ y = x := by
  by_cases hi : i < l.length
  · rw [List.getElem?_append_left hi] at h
    exact Or.inl h
  · rw [List.getElem?_append_right (Nat.le_of_not_lt hi), List.getElem?_singleton] at h
    by_cases hzero : i - l.length = 0
    · rw [if_pos hzero] at h
      exact Or.inr ⟨by omega, (Option.some.inj h).symm⟩
    · rw [if_neg hzero] at h
      exact absurd h (by simp)

namespace Exchanged

variable {w : Bool} {turns : List SentTurn} {answers : List GatewayReply} {ms : List PromptMessage} {t : SentTurn}
  {u : PromptMessage} {conversation : SentTurn → Option JsString}

/-- A request waits exactly when there is one turn more than replies. -/
theorem length_turns (h : Exchanged w turns answers ms) : turns.length = answers.length + if w then 1 else 0 := by
  induction h with
  | start => rfl
  | send _ _ _ _ ih => simp [ih]
  | reply r _ ih => simp [ih]

theorem last_assistant (h : Exchanged false turns answers ms) : ∀ m ∈ ms.getLast?, m.isAssistant = true := by
  cases h with
  | start => simp
  | reply r _ =>
    intro m hm
    rw [List.getLast?_concat] at hm
    obtain rfl := Option.some.inj hm
    rfl

/-- The messages of a request begin those of the session, its reply behind them. -/
theorem length_le (h : Exchanged w turns answers ms) :
    ∀ e ∈ turns, e.messages.length + (if w then 0 else 1) ≤ ms.length := by
  induction h with
  | start => simp
  | send _ _ ht _ ih =>
    intro e he
    rw [List.length_append, List.length_singleton]
    rcases List.mem_append.mp he with hold | hnew
    · have := ih e hold
      simp at this ⊢
      omega
    · rw [List.mem_singleton.mp hnew, ht]
      simp
  | reply r _ ih =>
    intro e he
    have := ih e he
    simp at this ⊢
    exact this

theorem messages_nil (h : Exchanged w turns answers ms) (hturns : turns = []) : ms = [] := by
  cases h with
  | start => rfl
  | send => exact absurd hturns (by simp)
  | reply r h =>
    have hlen := h.length_turns
    rw [hturns] at hlen
    simp at hlen

/-- The last message behind a reply is that reply, to the last turn. -/
theorem last_reply (h : Exchanged false turns answers ms) (hturns : turns ≠ []) : ∃ e ∈ turns, ∃ r,
    answers.getLast? = some r ∧ ms = e.messages ++ [.unmarked .assistant r.text] := by
  cases h with
  | start => exact absurd rfl hturns
  | reply r h =>
    cases h with
    | send h hu ht hb =>
      exact ⟨_, List.mem_append_right _ List.mem_cons_self, r, List.getLast?_concat, by rw [ht]⟩

/-- The new turn of a request is carried by its prompt exactly once. -/
theorem count_carried (h : Exchanged false turns answers ms) (hu : u.isUser = true) (htext : u.text ≠ [])
    (ht : t.messages = ms ++ [u]) (hbound : t.binding.isSome = true ∨ turns = []) :
    t.carried.count ms.length = 1 := by
  unfold SentTurn.carried
  rw [ht]
  exact count_carried_last hu htext h.last_assistant (hbound.imp_right h.messages_nil)

/-- Every user turn with a text was carried by the prompt of its request. -/
theorem delivered (h : Exchanged w turns answers ms) : ∀ i m, ms[i]? = some m → m.isUser = true → m.text ≠ [] →
    ∃ e ∈ turns, i ∈ e.carried := by
  induction h with
  | start => simp
  | @send turns answers ms t u h hu ht hb ih =>
    intro i m hm huser htext
    rcases getElem?_concat_cases hm with hm | ⟨rfl, rfl⟩
    · obtain ⟨e, he, hcarried⟩ := ih i m hm huser htext
      exact ⟨e, List.mem_append_left _ he, hcarried⟩
    · have hbound : t.binding.isSome = true ∨ turns = [] := by
        by_cases hturns : turns = []
        · exact Or.inr hturns
        · obtain ⟨b, hb, -⟩ := hb hturns
          exact Or.inl (by rw [hb]; rfl)
      have hcount := h.count_carried hu htext ht hbound
      exact ⟨t, List.mem_append_right _ List.mem_cons_self, List.count_pos_iff.mp (by omega)⟩
  | reply r h ih =>
    intro i m hm huser htext
    rcases getElem?_concat_cases hm with hm | ⟨rfl, rfl⟩
    · exact ih i m hm huser htext
    · exact absurd huser Bool.noConfusion

/-- Behind the messages of a turn stands its reply. -/
theorem reply_at (h : Exchanged w turns answers ms) : ∀ e ∈ turns, ∀ m, ms[e.messages.length]? = some m →
    ∃ r ∈ answers, m.text = r.text := by
  induction h with
  | start => simp
  | @send turns answers ms t u h hu ht hb ih =>
    intro e he m hm
    rcases List.mem_append.mp he with hold | hnew
    · have hlt : e.messages.length < ms.length := h.length_le e hold
      rw [List.getElem?_append_left hlt] at hm
      exact ih e hold m hm
    · rw [List.mem_singleton.mp hnew, ht, List.getElem?_eq_none (Nat.le_refl _)] at hm
      exact absurd hm (by simp)
  | reply r h ih =>
    intro e he m hm
    rcases getElem?_concat_cases hm with hm | ⟨-, rfl⟩
    · obtain ⟨r', hr', htext⟩ := ih e he m hm
      exact ⟨r', List.mem_append_left _ hr', htext⟩
    · exact ⟨r, List.mem_append_right _ List.mem_cons_self, rfl⟩

/-- With blank replies only, a bound turn is delivered exactly once. -/
theorem exactlyOnce_of_blank (h : Exchanged false turns answers ms) (hu : u.isUser = true)
    (ht : t.messages = ms ++ [u]) (hbound : t.binding.isSome = true)
    (hconv : ∀ e ∈ turns, conversation e = conversation t) (hblank : ∀ r ∈ answers, r.text = []) :
    ExactlyOnce conversation turns t where
  undelivered := by
    intro i m hm huser htext hfresh
    rw [ht] at hm
    rcases getElem?_concat_cases hm with hm | ⟨rfl, rfl⟩
    · obtain ⟨e, he, hcarried⟩ := h.delivered i m hm huser htext
      exact absurd hcarried (hfresh e he (hconv e he))
    · exact h.count_carried hu htext ht (Or.inl hbound)
  ownReplies := by
    intro e he _ hcarried
    obtain ⟨m, hm, htext⟩ := carriedPositions_text hcarried
    have hlt : e.messages.length < ms.length := h.length_le e he
    rw [ht, List.getElem?_append_left hlt] at hm
    obtain ⟨r, hr, heq⟩ := h.reply_at e he m hm
    exact htext (heq.trans (hblank r hr))

/-- A turn delivered exactly once follows a blank reply. -/
theorem blank_of_exactlyOnce (h : Exchanged false turns answers ms) (hu : u.isUser = true)
    (ht : t.messages = ms ++ [u]) {b : SessionBinding} (hb : t.binding = some b)
    (hw : b.lastMessageCount + 1 ≤ ms.length) (hturns : turns ≠ [])
    (hconv : ∀ e ∈ turns, conversation e = conversation t) (honce : ExactlyOnce conversation turns t) :
    ∀ r ∈ answers.getLast?, r.text = [] := by
  obtain ⟨e, he, r, hlast, hms⟩ := h.last_reply hturns
  intro r' hr'
  obtain rfl : r = r' := Option.some.inj (hlast.symm.trans hr')
  by_contra htext
  refine honce.ownReplies e he (hconv e he) ?_
  unfold SentTurn.carried
  rw [ht, hms, hb]
  rw [hms, List.length_append, List.length_singleton] at hw
  exact reply_carried hu rfl htext (Nat.le_of_succ_le_succ hw)

/-- **The run of a session**: its bound turns are delivered exactly once when every reply a turn followed is
blank, and only then. -/
theorem allOnce_iff (h : Exchanged w turns answers ms)
    (hconv : ∀ e ∈ turns, ∀ t ∈ turns, conversation e = conversation t) :
    AllOnce conversation turns ↔ ∀ r ∈ answers.take (turns.length - 1), r.text = [] := by
  induction h with
  | start =>
    refine ⟨by simp, fun _ earlier t later heq => ?_⟩
    exact absurd heq (by simp)
  | @send turns answers ms t u h hu ht hb ih =>
    have hold : ∀ e ∈ turns, ∀ t ∈ turns, conversation e = conversation t := fun e he t ht =>
      hconv e (List.mem_append_left _ he) t (List.mem_append_left _ ht)
    have hlast : ∀ e ∈ turns, conversation e = conversation t := fun e he =>
      hconv e (List.mem_append_left _ he) t (List.mem_append_right _ List.mem_cons_self)
    have hlen : turns.length = answers.length := h.length_turns
    rw [allOnce_concat, ih hold, List.length_append, List.length_singleton, Nat.add_sub_cancel, hlen,
      List.take_length]
    constructor
    · rintro ⟨hbefore, hnew⟩ r hr
      rcases List.eq_nil_or_concat answers with rfl | ⟨answers', x, rfl⟩
      · exact absurd hr List.not_mem_nil
      · rw [List.concat_eq_append] at hr hbefore hlen h
        rcases List.mem_append.mp hr with hr | hr
        · exact hbefore r (by simpa using hr)
        · have hturns : turns ≠ [] := by
            rintro rfl
            simp at hlen
          obtain ⟨b, hb, hw⟩ := hb hturns
          obtain rfl := List.mem_singleton.mp hr
          exact h.blank_of_exactlyOnce hu ht hb hw hturns hlast (hnew (by rw [hb]; rfl)) r (by simp)
    · intro hblank
      exact ⟨fun r hr => hblank r (List.mem_of_mem_take hr),
        fun hbound => h.exactlyOnce_of_blank hu ht hbound hlast hblank⟩
  | @reply turns answers ms r h ih =>
    rw [ih hconv]
    have hlen : turns.length = answers.length + 1 := h.length_turns
    rw [hlen, Nat.add_sub_cancel, List.take_length, List.take_left' rfl]

end Exchanged

/-! ### The run of a session -/

section Run

variable {p : SessionParams} {s s' : ClientSession} {ts : List (Option PromptMessage)}

/-- The binding the session finds. -/
def SessionParams.bound (p : SessionParams) (store : SessionStore) : Option SessionBinding :=
  store (p.callFor []).sessionAccountKey

theorem callFor_key (p : SessionParams) (messages : List PromptMessage) :
    (p.callFor messages).sessionAccountKey = (p.callFor []).sessionAccountKey ∧
      (p.callFor messages).sessionAccountKey.isEmpty = false := by
  refine ⟨rfl, ?_⟩
  show (p.call.tenantKey ++ js ":" ++ p.call.sessionKey ++ js ":" ++ p.account.val).isEmpty = false
  rw [List.isEmpty_eq_false_iff]
  intro hnil
  simp only [List.append_eq_nil_iff] at hnil
  exact absurd hnil.1.2 (by decide)

/-- The lookup finds the binding of the session, or leaves none behind. -/
theorem lookup_cases (p : SessionParams) (messages : List PromptMessage) (store : SessionStore) :
    (∃ b, p.bound store = some b ∧ b.lastMessageCount ≤ messages.length ∧
      (p.callFor messages).lookupBinding store = (some b, [])) ∨
    (((p.callFor messages).lookupBinding store).1 = none ∧
      p.bound (((p.callFor messages).lookupBinding store).2.foldl StoreOp.apply store) = none) := by
  have hkey : ¬(p.callFor messages).sessionAccountKey.isEmpty = true := by
    rw [(callFor_key p messages).2]
    exact Bool.false_ne_true
  unfold EngineCall.lookupBinding
  rw [if_neg hkey]
  cases hb : store (p.callFor messages).sessionAccountKey with
  | none => exact Or.inr ⟨rfl, hb⟩
  | some b =>
    dsimp only
    by_cases hout : (p.callFor messages).outdates b = true
    · rw [if_pos hout]
      exact Or.inr ⟨rfl, Function.update_self _ _ _⟩
    · rw [if_neg hout]
      refine Or.inl ⟨b, hb, ?_, rfl⟩
      unfold EngineCall.outdates at hout
      rw [Bool.or_eq_true, not_or, decide_eq_true_eq] at hout
      exact Nat.le_of_not_lt hout.2

/-- The binding a settlement leaves was there, or names the conversation of the run and its message count. -/
theorem settleRun_bound {k : ℕ} {t : SentTurn} {last : AttemptResult} {b : SessionBinding}
    (h : p.bound (s.settleRun p k t last).store = some b) : p.bound s.store = some b ∨
      last.failure = none ∧ b.lastMessageCount = t.messages.length ∧
      ((p.callFor t.messages).dispatchCall t.binding).finalId last = some b.conversationId := by
  rcases foldl_apply_eq_some _ s.store h with hold | hset
  · exact Or.inl hold
  · refine Or.inr ?_
    unfold DispatchCall.storeOps at hset
    split at hset
    · exact absurd hset List.not_mem_nil
    · cases hfail : last.failure with
      | some f =>
        rw [hfail] at hset
        dsimp only at hset
        split at hset <;> simp at hset
      | none =>
        rw [hfail] at hset
        obtain ⟨id, hid, heq⟩ := List.mem_map.mp hset
        obtain ⟨-, rfl⟩ := (StoreOp.set.injEq _ _ _ _).mp heq
        exact ⟨rfl, rfl, Option.mem_toList.mp hid⟩

/-- The history behind a session state; a binding behind the first request counts no later turn. -/
structure Followed (p : SessionParams) (s : ClientSession) (ts : List (Option PromptMessage)) : Prop where
  maps : Maps p.images p.client s.history ts
  exchanged : Exchanged s.waiting s.turns s.answers ts.reduceOption
  watermark : s.turns ≠ [] → ∀ b, p.bound s.store = some b →
    b.lastMessageCount + (if s.waiting then 0 else 1) ≤ ts.reduceOption.length

/-- The conversation of a session: none yet; that of a first run without a binding, not known yet; or one that every
turn went to and that any binding names. -/
inductive OneConversation (p : SessionParams) (s : ClientSession) : Prop
  | silent : s.turns = [] → s.created = none → OneConversation p s
  | first (t : SentTurn) : s.turns = [t] → t.binding = none → s.created = none → p.bound s.store = none →
      OneConversation p s
  | known (c : JsString) : s.turns ≠ [] → (∀ t ∈ s.turns, s.conversation t = some c) →
      (∀ b, p.bound s.store = some b → b.conversationId = c) →
      (∀ k t, s.turns[k]? = some t → t.binding = none → k ∈ s.settled) → OneConversation p s

/-- The steps, with what their guards promise. -/
inductive Stepped (p : SessionParams) (s : ClientSession) : ClientSession → Prop
  | instruct {message : Json} : s.waiting = false → p.client.turn? p.images message = .ok none →
      Stepped p s { s with history := s.history ++ [message] }
  | send {turn : Json} {mapped : MappedMessages} {t : SentTurn} {store : SessionStore} : s.waiting = false →
      p.client.request p.images (s.history ++ [turn]) = .ok mapped →
      mapped.messages.getLast?.any PromptMessage.isUser = true → t.messages = mapped.messages →
      ((∃ b, p.bound s.store = some b ∧ b.lastMessageCount ≤ mapped.messages.length ∧ t.binding = some b ∧
          store = s.store) ∨
        (s.turns = [] ∧ t.binding = none ∧ p.bound store = none)) →
      Stepped p s { s with history := s.history ++ [turn], store, turns := s.turns ++ [t], waiting := true }
  | reply {r : GatewayReply} : s.waiting = true → p.client.gets r = true →
      Stepped p s { s with history := s.history ++ [r.json], answers := s.answers ++ [r], waiting := false }
  | settle {k : ℕ} {t : SentTurn} {last : AttemptResult} : s.turns[k]? = some t → k ∉ s.settled →
      Stepped p s (s.settleRun p k t last)

theorem step_inv {a : SessionAction} (h : s.step p a = some s') : Stepped p s s' := by
  cases a with
  | instruct message =>
    unfold ClientSession.step at h
    dsimp only at h
    split at h
    · rename_i hw ht
      obtain rfl := Option.some.inj h
      exact .instruct hw ht
    · exact absurd h (by simp)
  | send turn promptSuffix =>
    unfold ClientSession.step at h
    dsimp only at h
    split at h
    · rename_i mapped hw hreq
      unfold ClientSession.take at h
      dsimp only at h
      split at h
      · rename_i hguard
        obtain ⟨hlast, hfound⟩ := (Bool.and_eq_true _ _).mp hguard
        obtain rfl := Option.some.inj h
        rcases lookup_cases p mapped.messages s.store with ⟨b, hb, hle, hlook⟩ | ⟨hnone, hstore⟩
        · refine .send hw hreq hlast rfl (Or.inl ⟨b, hb, hle, congrArg Prod.fst hlook, ?_⟩)
          rw [hlook]
          rfl
        · rw [hnone] at hfound
          have hturns : s.turns = [] := by simpa using hfound
          exact .send hw hreq hlast rfl (Or.inr ⟨hturns, hnone, hstore⟩)
      · exact absurd h (by simp)
    · exact absurd h (by simp)
  | reply r =>
    unfold ClientSession.step at h
    dsimp only at h
    split at h
    · rename_i hguard
      obtain ⟨hw, hgets⟩ := (Bool.and_eq_true _ _).mp hguard
      obtain rfl := Option.some.inj h
      exact .reply hw hgets
    · exact absurd h (by simp)
  | settle k last =>
    unfold ClientSession.step at h
    dsimp only at h
    split at h
    · rename_i t ht
      split at h
      · exact absurd h (by simp)
      · rename_i hk
        obtain rfl := Option.some.inj h
        exact .settle ht (by simpa using hk)
    · exact absurd h (by simp)

theorem reduceOption_concat (ts : List (Option PromptMessage)) (t : Option PromptMessage) :
    (ts ++ [t]).reduceOption = ts.reduceOption ++ t.toList := by
  rw [List.reduceOption_append, List.reduceOption_singleton]

/-- The request's last message is a new user turn. -/
theorem Followed.request {turn : Json} {mapped : MappedMessages} (h : Followed p s ts) (hw : s.waiting = false)
    (hreq : p.client.request p.images (s.history ++ [turn]) = .ok mapped)
    (hlast : mapped.messages.getLast?.any PromptMessage.isUser = true) : ∃ u : PromptMessage,
      u.isUser = true ∧ Maps p.images p.client (s.history ++ [turn]) (ts ++ [some u]) ∧
      mapped.messages = ts.reduceOption ++ [u] := by
  obtain ⟨ts', hmaps, hmessages⟩ := request_turns hreq hlast
  have hall := mapM_ok_iff.mpr hmaps
  rw [List.mapM_append, bind_ok_iff] at hall
  obtain ⟨ts₁, hold, hnew⟩ := hall
  obtain ⟨ts₂, hsingle, heq⟩ := bind_ok_iff.mp hnew
  obtain ⟨t, ts₃, ht, hnil, rfl⟩ := List.forall₂_cons_left_iff.mp (mapM_ok_iff.mp hsingle)
  obtain rfl := List.forall₂_nil_left_iff.mp hnil
  obtain rfl : ts₁ ++ [t] = ts' := Except.ok.inj heq
  obtain rfl : ts₁ = ts := Maps.unique (mapM_ok_iff.mp hold) h.maps
  rw [reduceOption_concat] at hmessages
  cases t with
  | none =>
    -- the last message would be the reply before
    have hex := h.exchanged
    rw [hw] at hex
    rw [hmessages, Option.toList_none, List.append_nil] at hlast
    obtain ⟨m, hm, hu⟩ := (Option.any_eq_true _ _).mp hlast
    have ha : m.isAssistant = true := hex.last_assistant m hm
    rw [PromptMessage.not_assistant hu] at ha
    exact absurd ha Bool.noConfusion
  | some u =>
    refine ⟨u, ?_, hmaps, hmessages⟩
    rw [hmessages, Option.toList_some, List.getLast?_concat] at hlast
    exact hlast

/-- The step lemma for the history. -/
theorem Followed.step (h : Followed p s ts) (hstep : Stepped p s s') : ∃ ts', Followed p s' ts' := by
  cases hstep with
  | instruct hw ht =>
    refine ⟨ts ++ [none], ?_, ?_, ?_⟩
    · exact List.rel_append h.maps (.cons ht .nil)
    · rw [reduceOption_concat]
      simpa using h.exchanged
    · rw [reduceOption_concat]
      simpa using h.watermark
  | @send turn mapped t store hw hreq hlast ht hfound =>
    obtain ⟨u, hu, hmaps, hmessages⟩ := h.request hw hreq hlast
    have hex := h.exchanged
    have hmark := h.watermark
    rw [hw] at hex hmark
    refine ⟨ts ++ [some u], hmaps, ?_, ?_⟩
    · rw [reduceOption_concat]
      refine .send hex hu (ht.trans hmessages) fun hturns => ?_
      rcases hfound with ⟨b, hb, -, htb, -⟩ | ⟨hnil, -⟩
      · exact ⟨b, htb, hmark hturns b hb⟩
      · exact absurd hnil hturns
    · intro _ b hb
      rw [reduceOption_concat, Option.toList_some, ← hmessages]
      rcases hfound with ⟨b', hb', hle, -, rfl⟩ | ⟨-, -, hnone⟩
      · obtain rfl : b' = b := Option.some.inj (hb'.symm.trans hb)
        exact hle
      · exact absurd (hnone.symm.trans hb) (by simp)
  | reply hw hgets =>
    have hex := h.exchanged
    have hmark := h.watermark
    rw [hw] at hex hmark
    refine ⟨_, List.rel_append h.maps (.cons (turn_json hgets) .nil), ?_, ?_⟩
    · rw [reduceOption_concat]
      exact .reply _ hex
    · intro hturns b hb
      rw [reduceOption_concat, List.length_append]
      exact Nat.succ_le_succ (hmark hturns b hb)
  | settle ht hk =>
    refine ⟨ts, h.maps, h.exchanged, fun hturns b hb => ?_⟩
    rcases settleRun_bound hb with hold | ⟨-, hcount, -⟩
    · exact h.watermark hturns b hold
    · rw [hcount]
      exact h.exchanged.length_le _ (List.mem_of_getElem? ht)

theorem OneConversation.frame (h : OneConversation p s) (hturns : s'.turns = s.turns) (hstore : s'.store = s.store)
    (hsettled : s'.settled = s.settled) (hcreated : s'.created = s.created) : OneConversation p s' := by
  have hconv : s'.conversation = s.conversation := by
    funext t
    unfold ClientSession.conversation
    rw [hcreated]
  cases h with
  | silent hnil hnone => exact .silent (hturns.trans hnil) (hcreated.trans hnone)
  | first t hone hbinding hnone hbound =>
    exact .first t (hturns.trans hone) hbinding (hcreated.trans hnone) (by rw [hstore]; exact hbound)
  | known c hne hall hbound hset =>
    refine .known c ?_ ?_ ?_ ?_
    · rw [hturns]
      exact hne
    · rw [hturns, hconv]
      exact hall
    · rw [hstore]
      exact hbound
    · rw [hturns, hsettled]
      exact hset

/-- A request that finds the binding goes to its conversation. -/
theorem OneConversation.send_bound (h : OneConversation p s) {b : SessionBinding} (hb : p.bound s.store = some b)
    {t : SentTurn} (ht : t.binding = some b) (history : List Json) :
    OneConversation p { s with history, turns := s.turns ++ [t], waiting := true } := by
  have hbind : ∀ b', p.bound s.store = some b' → b'.conversationId = b.conversationId := by
    intro b' hb'
    rw [Option.some.inj (hb'.symm.trans hb)]
  have hold : (∀ t' ∈ s.turns, s.conversation t' = some b.conversationId) ∧
      ∀ k t', s.turns[k]? = some t' → t'.binding = none → k ∈ s.settled := by
    cases h with
    | silent hturns hcreated =>
      rw [hturns]
      exact ⟨by simp, by simp⟩
    | first t' hturns hbinding hcreated hbound => exact absurd (hbound.symm.trans hb) (by simp)
    | known c hne hall hbound hsettled =>
      rw [hbound b hb]
      exact ⟨hall, hsettled⟩
  refine .known b.conversationId (by simp) ?_ hbind ?_
  · intro t' ht'
    rcases List.mem_append.mp ht' with ht' | ht'
    · exact hold.1 t' ht'
    · rw [List.mem_singleton.mp ht']
      show (t.binding.map SessionBinding.conversationId).or s.created = _
      rw [ht]
      rfl
  · intro k t' hk hnone
    rcases getElem?_concat_cases hk with hk | ⟨-, rfl⟩
    · exact hold.2 k t' hk hnone
    · exact absurd (ht.symm.trans hnone) (by simp)

/-- The first run makes its conversation known when it settles well. -/
theorem OneConversation.settle_first {k : ℕ} {t : SentTurn} (hturns : s.turns = [t]) (hbinding : t.binding = none)
    (hcreated : s.created = none) (hbound : p.bound s.store = none) (hk : s.turns[k]? = some t)
    (last : AttemptResult) : OneConversation p (s.settleRun p k t last) := by
  have hfinal : ∀ b, p.bound (s.settleRun p k t last).store = some b → last.failure = none ∧
      ((p.callFor t.messages).dispatchCall t.binding).finalId last = some b.conversationId := by
    intro b hb
    rcases settleRun_bound hb with hold | ⟨hok, -, hfinal⟩
    · exact absurd (hbound.symm.trans hold) (by simp)
    · exact ⟨hok, hfinal⟩
  have hcreated' : (s.settleRun p k t last).created =
      if last.failure = none then ((p.callFor t.messages).dispatchCall t.binding).finalId last else none := by
    unfold ClientSession.settleRun
    rw [hbinding, hcreated]
    cases last.failure <;> rfl
  have hturns' : (s.settleRun p k t last).turns = [t] := hturns
  cases hnew : (s.settleRun p k t last).created with
  | none =>
    refine .first t hturns' hbinding hnew (Option.eq_none_iff_forall_ne_some.mpr fun b hb => ?_)
    obtain ⟨hok, hid⟩ := hfinal b hb
    rw [hcreated', if_pos hok, hid] at hnew
    exact absurd hnew (by simp)
  | some c =>
    refine .known c ?_ ?_ ?_ ?_
    · rw [hturns']
      exact List.cons_ne_nil _ _
    · intro t' ht'
      rw [hturns'] at ht'
      rw [List.mem_singleton.mp ht']
      unfold ClientSession.conversation
      rw [hbinding, hnew]
      rfl
    · intro b hb
      obtain ⟨hok, hid⟩ := hfinal b hb
      rw [hcreated', if_pos hok, hid] at hnew
      exact Option.some.inj hnew
    · intro k' t' hk' _
      rw [hturns'] at hk'
      rw [hturns] at hk
      have hlt : k < 1 := (List.getElem?_eq_some_iff.mp hk).1
      have hlt' : k' < 1 := (List.getElem?_eq_some_iff.mp hk').1
      obtain rfl : k' = k := by omega
      exact List.mem_cons_self

/-- A run with a binding settles on the conversation of that binding. -/
theorem OneConversation.settle_bound {k : ℕ} {t : SentTurn} {b : SessionBinding} {c : JsString}
    (hb : t.binding = some b) (ht : t ∈ s.turns) (hall : ∀ t ∈ s.turns, s.conversation t = some c)
    (hbound : ∀ b, p.bound s.store = some b → b.conversationId = c)
    (hsettled : ∀ k t, s.turns[k]? = some t → t.binding = none → k ∈ s.settled) (last : AttemptResult) :
    OneConversation p (s.settleRun p k t last) := by
  have hcreated : (s.settleRun p k t last).created = s.created := by
    unfold ClientSession.settleRun
    rw [hb]
    rfl
  have hid : b.conversationId = c := by
    have hconv := hall t ht
    unfold ClientSession.conversation at hconv
    rw [hb] at hconv
    exact Option.some.inj hconv
  refine .known c (List.ne_nil_of_mem ht) ?_ ?_ ?_
  · intro t' ht'
    unfold ClientSession.conversation
    rw [hcreated]
    exact hall t' ht'
  · intro b' hb'
    rcases settleRun_bound hb' with hold | ⟨-, -, hfinal⟩
    · exact hbound b' hold
    · rw [hb] at hfinal
      change truthy? (some b.conversationId) = some b'.conversationId at hfinal
      unfold truthy? at hfinal
      obtain ⟨heq, -⟩ := Option.filter_eq_some_iff.mp hfinal
      rw [← hid]
      exact (Option.some.inj heq).symm
  · intro k' t' hk' hnone
    exact List.mem_cons_of_mem _ (hsettled k' t' hk' hnone)

/-- The step lemma for the conversation. -/
theorem OneConversation.step (h : OneConversation p s) (hstep : Stepped p s s') : OneConversation p s' := by
  cases hstep with
  | instruct => exact h.frame rfl rfl rfl rfl
  | reply => exact h.frame rfl rfl rfl rfl
  | send hw hreq hlast ht hfound =>
    rcases hfound with ⟨b, hb, -, htb, rfl⟩ | ⟨hnil, htb, hnone⟩
    · exact h.send_bound hb htb _
    · cases h with
      | silent hturns hcreated => exact .first _ (by rw [hturns]; rfl) htb hcreated hnone
      | first t' hturns => exact absurd (hturns.symm.trans hnil) (by simp)
      | known c hne => exact absurd hnil hne
  | @settle k t last ht hk =>
    have hmem : t ∈ s.turns := List.mem_of_getElem? ht
    cases h with
    | silent hturns hcreated =>
      rw [hturns] at hmem
      exact absurd hmem List.not_mem_nil
    | first t' hturns hbinding hcreated hbound =>
      obtain rfl : t = t' := by
        rw [hturns] at hmem
        exact List.mem_singleton.mp hmem
      exact .settle_first hturns hbinding hcreated hbound ht last
    | known c hne hall hbound hsettled =>
      cases hbinding : t.binding with
      | none => exact absurd (hsettled k t ht hbinding) hk
      | some b => exact .settle_bound hbinding hmem hall hbound hsettled last

/-- A run keeps both. -/
theorem session_run {as : List SessionAction} {store : SessionStore}
    (h : exec (ClientSession.step p) (.init store) as = some s) :
    (∃ ts, Followed p s ts) ∧ OneConversation p s := by
  refine exec_invariant' (I := fun s => (∃ ts, Followed p s ts) ∧ OneConversation p s) ?_ as (.init store) s ?_ h
  · rintro s a s' ⟨⟨ts, hts⟩, hone⟩ hstep
    have hstepped := step_inv hstep
    exact ⟨hts.step hstepped, hone.step hstepped⟩
  · exact ⟨⟨[], .nil, .start, fun hne => absurd rfl hne⟩, .silent rfl rfl⟩

/-- All turns of a session went to one conversation. -/
theorem OneConversation.conversation_eq (h : OneConversation p s) :
    ∀ e ∈ s.turns, ∀ t ∈ s.turns, s.conversation e = s.conversation t := by
  cases h with
  | silent hturns =>
    rw [hturns]
    simp
  | first t hturns =>
    rw [hturns]
    simp
  | known c hne hall =>
    intro e he t ht
    rw [hall e he, hall t ht]

/-- **Exactly-once turn delivery**: in a run of a session through either adapter, whenever its runs settle, each
bound turn is delivered exactly once if and only if every reply that a turn followed is mapped to a blank text. -/
theorem turns_exactly_once_iff (p : SessionParams) (store : SessionStore) (as : List SessionAction)
    (h : exec (ClientSession.step p) (.init store) as = some s) :
    AllOnce s.conversation s.turns ↔ ∀ r ∈ s.answers.take (s.turns.length - 1), r.text = [] := by
  obtain ⟨⟨ts, hts⟩, hone⟩ := session_run h
  exact hts.exchanged.allOnce_iff hone.conversation_eq

/-- A client of the OpenAI adapter without images. -/
def chatSession : SessionParams where
  client := .openAi false
  images := ⟨fun _ => .ok (), fun _ => .ok ()⟩
  call :=
    { tenantKey := js "root"
      sessionKey := []
      account := none
      family := .google
      model := js "gemini"
      activeModel := js "gemini"
      defaultModel := js "gemini"
      messageCount := 0
      timeoutMs := 300000
      callMeta := ⟨none, none, .openai⟩ }
  account := accountA

/-- Two user turns around a reply; the first run settles before the second request. -/
def twoTurns (reply : JsString) : List SessionAction :=
  let user text := Json.obj [(js "role", .str (js "user")), (js "content", .str text)]
  [.send (user (js "one")) [],
    .reply (.completion ⟨js "chatcmpl-1", 0, js "gemini", some reply, [], .stop, mapUsage .zero⟩),
    .settle 0 ⟨none, noProcess false, [], some (js "conv-1"), none, none⟩,
    .send (user (js "two")) []]

theorem turns_exactly_once_iff_blank : ∃ s, exec (ClientSession.step chatSession) (.init fun _ => none)
      (twoTurns []) = some s ∧
    (AllOnce s.conversation s.turns ↔ ∀ r ∈ s.answers.take (s.turns.length - 1), r.text = []) :=
  ⟨_, rfl, turns_exactly_once_iff chatSession (fun _ => none) (twoTurns []) rfl⟩

/-- The reply of the gateway comes back without a mark, and is sent to its own conversation again. -/
theorem not_all_once_echoed : ∃ s, exec (ClientSession.step chatSession) (.init fun _ => none)
    (twoTurns (js "hi")) = some s ∧ ¬AllOnce s.conversation s.turns := by
  refine ⟨_, rfl, fun h => ?_⟩
  exact (h [_] _ [] rfl rfl).ownReplies _ List.mem_cons_self rfl (by decide +kernel)

end Run

end AgyProxy
