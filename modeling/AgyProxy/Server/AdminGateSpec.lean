import AgyProxy.Server.AdminGate
import AgyProxy.Server.AdminSessionSpec
import Mathlib.Data.Set.Function

/-!
# AgyProxy.Server.AdminGateSpec — what it takes to use the admin API

* `Inv`: the rows are the sessions handed out and not logged out.
* `guard_exact`: **who gets in**, in every reachable state, and where the sessions come from.
* `cookie_admits`: **the cookie of a login is worth its session**, among any other cookies.
* `failures_bounded`: **guessing is slow**, also when passwords are checked side by side.

The tokens of a run are taken to be told apart by their hash.
-/

namespace AgyProxy

open Js Lib

/-! ### Sessions over a run -/

namespace AdminGate

open AdminSessionStore

variable {L : WindowLimiter JsString} {sha256 : JsString → JsString} {argon : Argon2} {s s' t : AdminGate L}
  {a : AdminAction} {T : Set JsString}

/-- A session that was handed out, not logged out and is not over. -/
def Live (s : AdminGate L) (token : JsString) : Prop :=
  ∃ i ∈ s.issued, i.token.val = token ∧ token ∉ s.revoked ∧ s.clock < i.expiresAt

/-- The rows are the sessions; `T` has the tokens of the run. -/
structure Inv (sha256 : JsString → JsString) (argon : Argon2) (T : Set JsString) (s : AdminGate L) : Prop where
  ttl : 60000 ≤ s.sessions.ttlMs
  rows : ∀ r ∈ s.sessions.table.rows, ∃ i ∈ s.issued,
    r.tokenHash = sha256 i.token.val ∧ r.expiresAt = i.expiresAt ∧ i.token.val ∉ s.revoked
  kept : ∀ i ∈ s.issued, i.token.val ∉ s.revoked → s.clock < i.expiresAt →
    ∃ r ∈ s.sessions.table.rows, r.tokenHash = sha256 i.token.val ∧ r.expiresAt = i.expiresAt
  known : ∀ i ∈ s.issued, i.token.val ∈ T
  unique : (s.issued.map fun i => i.token.val).Nodup
  ended : ∀ t ∈ s.revoked, ∃ i ∈ s.issued, i.token.val = t
  proven : ∀ i ∈ s.issued, verifyAdminPassword argon i.login.stored i.login.password = true ∧
    i.issuedAt + 60000 ≤ i.expiresAt ∧ i.issuedAt ≤ s.clock
  answered : ∀ i ∈ s.issued, .loggedIn (serializeSetCookie i.token i.expiresAt) i.expiresAt ∈ s.replies

theorem boot_inv (allowCidr : JsString) (stored : Option JsString) (ttlMs : Option ℕ) (now : ℕ) :
    (boot allowCidr stored ttlMs now : AdminGate L).Inv sha256 argon T := by
  refine ⟨le_max_left .., ?_, ?_, ?_, List.nodup_nil, ?_, ?_, ?_⟩ <;> exact fun _ h => absurd h List.not_mem_nil

/-- Expired rows may go at any time, and replies may be sent. -/
theorem Inv.sheds (hs : s.Inv sha256 argon T) (hsheds : Sheds s.clock s.sessions t.sessions)
    (hclock : t.clock = s.clock) (hissued : t.issued = s.issued) (hrevoked : t.revoked = s.revoked)
    (hreplies : s.replies ⊆ t.replies) : t.Inv sha256 argon T := by
  refine ⟨hsheds.ttlMs ▸ hs.ttl, fun r hr => ?_, fun i hi hnot hlt => ?_, ?_, ?_, ?_, ?_, fun i hi => ?_⟩
  · rw [hissued, hrevoked]
    exact hs.rows r (hsheds.sub r hr)
  · rw [hissued] at hi
    rw [hrevoked] at hnot
    rw [hclock] at hlt
    obtain ⟨r, hr, hhash, hexpires⟩ := hs.kept i hi hnot hlt
    exact ⟨r, hsheds.live r hr (hexpires ▸ hlt), hhash, hexpires⟩
  · rw [hissued]
    exact hs.known
  · rw [hissued]
    exact hs.unique
  · rw [hissued, hrevoked]
    exact hs.ended
  · rw [hissued, hclock]
    exact hs.proven
  · rw [hissued] at hi
    exact hreplies (hs.answered i hi)

variable (sha256) in
/-- The guard looks at the session at most, which may cost an expired row. -/
theorem guard_eq (s : AdminGate L) (opts : GuardOpts) (req : AdminRequest) :
    ∃ sessions, (s.guard sha256 opts req).2 = { s with sessions } ∧ Sheds s.clock s.sessions sessions := by
  unfold guard
  split
  · exact ⟨s.sessions, rfl, .refl _ _⟩
  · cases hskip : opts.skipSession with
    | true =>
      simp only [if_true]
      refine ⟨s.sessions, ?_, .refl _ _⟩
      split
      · rfl
      · split <;> rfl
    | false =>
      simp only [Bool.false_eq_true, if_false]
      refine ⟨(s.sessions.verify sha256 req.sessionToken s.clock).2, ?_, verify_sheds ..⟩
      split
      · rfl
      · split <;> rfl

/-- What the guard asks for. -/
theorem guard_none_iff (s : AdminGate L) (opts : GuardOpts) (req : AdminRequest) :
    (s.guard sha256 opts req).1 = none ↔ ipAllowed req.ip s.allowCidr = true ∧
      (opts.skipSession = true ∨ (s.sessions.verify sha256 req.sessionToken s.clock).1 = true) ∧
      (opts.mutating = true → req.method ∈ MUTATING → req.requestedWith = true) := by
  unfold guard
  by_cases hip : ipAllowed req.ip s.allowCidr = true
  · rw [if_neg (by simp [hip])]
    cases hskip : opts.skipSession with
    | true =>
      by_cases hheader : opts.mutating = true ∧ req.method ∈ MUTATING ∧ req.requestedWith = false
      · simp [hip, hheader]
      · simp only [if_true, Bool.true_eq_false, if_false, if_neg hheader, hip, true_and, true_or, true_iff]
        intro hmutating hmethod
        by_contra hno
        exact hheader ⟨hmutating, hmethod, Bool.eq_false_of_not_eq_true hno⟩
    | false =>
      cases hverify : (s.sessions.verify sha256 req.sessionToken s.clock).1 with
      | true =>
        by_cases hheader : opts.mutating = true ∧ req.method ∈ MUTATING ∧ req.requestedWith = false
        · simp [hip, hverify, hheader]
        · simp only [Bool.false_eq_true, if_false, hverify, Bool.true_eq_false, if_neg hheader, hip, true_and, or_true,
            true_iff]
          intro hmutating hmethod
          by_contra hno
          exact hheader ⟨hmutating, hmethod, Bool.eq_false_of_not_eq_true hno⟩
      | false => simp [hverify]
  · simp [hip]

theorem Inv.guard (hs : s.Inv sha256 argon T) (opts : GuardOpts) (req : AdminRequest) :
    ((s.guard sha256 opts req).2).Inv sha256 argon T := by
  obtain ⟨sessions, heq, hsheds⟩ := guard_eq sha256 s opts req
  rw [heq]
  exact hs.sheds hsheds rfl rfl rfl (List.Subset.refl _)

theorem Inv.failLogin (hs : s.Inv sha256 argon T) (ip : JsString) : (s.failLogin ip).Inv sha256 argon T :=
  hs.sheds (.refl _ _) rfl rfl rfl (List.subset_append_left _ _)

theorem Inv.reply (hs : s.Inv sha256 argon T) (r : AdminReply) : (s.reply r).Inv sha256 argon T :=
  hs.sheds (.refl _ _) rfl rfl rfl (List.subset_append_left _ _)

theorem Inv.login (hs : s.Inv sha256 argon T) (req : AdminRequest) (password : Option JsString) :
    (s.login sha256 req password).Inv sha256 argon T := by
  have hguard := hs.guard ⟨true, true⟩ req
  unfold AdminGate.login
  split
  · next h =>
    rw [h] at hguard
    exact hguard.reply _
  · next h =>
    rw [h] at hguard
    split
    · exact hguard.reply _
    · split
      · split
        · exact hguard.sheds (.refl _ _) rfl rfl rfl (List.Subset.refl _)
        · exact hguard.failLogin req.ip
      · exact hguard.failLogin req.ip

/-- A session whose row is there is live. -/
theorem Inv.verify_iff (hs : s.Inv sha256 argon T) (hinj : Set.InjOn sha256 T) {token : JsString} (htoken : token ∈ T) :
    (s.sessions.verify sha256 token s.clock).1 = true ↔ s.Live token := by
  by_cases hempty : token = []
  · subst hempty
    refine ⟨fun h => absurd h Bool.false_ne_true, fun ⟨i, _, heq, _⟩ => absurd heq i.token.nonempty⟩
  · rw [AdminSessionStore.verify_iff s.sessions hempty]
    constructor
    · rintro ⟨r, hr, hhash, hlt⟩
      obtain ⟨i, hi, hhash', hexpires, hnot⟩ := hs.rows r hr
      have heq : i.token.val = token := hinj (hs.known i hi) htoken (hhash'.symm.trans hhash)
      exact ⟨i, hi, heq, heq ▸ hnot, hexpires ▸ hlt⟩
    · rintro ⟨i, hi, rfl, hnot, hlt⟩
      obtain ⟨r, hr, hhash, hexpires⟩ := hs.kept i hi hnot hlt
      exact ⟨r, hr, hhash, hexpires ▸ hlt⟩

/-- **A login whose password fits** hands out a session. -/
theorem Inv.verified (hs : s.Inv sha256 argon T) (hinj : Set.InjOn sha256 T) (p : PendingLogin)
    (token : SessionToken) (htoken : token.val ∈ T) (hfresh : token.val ∉ s.issued.map fun i => i.token.val) :
    (s.verified sha256 argon p token).Inv sha256 argon T := by
  unfold AdminGate.verified
  split
  · next hproven =>
    have hnew : ∀ r ∈ s.sessions.table.rows, r.tokenHash ≠ sha256 token.val := by
      intro r hr heq
      obtain ⟨i, hi, hhash, -⟩ := hs.rows r hr
      exact hfresh (List.mem_map.mpr ⟨i, hi, hinj (hs.known i hi) htoken (hhash.symm.trans heq)⟩)
    have hlive : token.val ∉ s.revoked := by
      intro hmem
      obtain ⟨i, hi, heq⟩ := hs.ended _ hmem
      exact hfresh (List.mem_map.mpr ⟨i, hi, heq⟩)
    obtain ⟨table, hcreate, hrows⟩ := create_spec s.sessions token s.clock hnew
    dsimp only
    rw [hcreate]
    have hlong := hs.ttl
    refine ⟨hs.ttl, fun r hr => ?_, fun i hi hnot hlt => ?_, fun i hi => ?_, ?_, fun t ht => ?_, fun i hi => ?_,
      fun i hi => ?_⟩
    · rcases (hrows r).mp hr with rfl | ⟨hold, -⟩
      · exact ⟨_, List.mem_append_right _ (List.mem_singleton_self _), rfl, rfl, hlive⟩
      · obtain ⟨i, hi, hrest⟩ := hs.rows r hold
        exact ⟨i, List.mem_append_left _ hi, hrest⟩
    · rcases List.mem_append.mp hi with hi | hi
      · obtain ⟨r, hr, hhash, hexpires⟩ := hs.kept i hi hnot hlt
        exact ⟨r, (hrows r).mpr (.inr ⟨hr, hexpires ▸ hlt⟩), hhash, hexpires⟩
      · obtain rfl := List.mem_singleton.mp hi
        exact ⟨_, (hrows _).mpr (.inl rfl), rfl, rfl⟩
    · rcases List.mem_append.mp hi with hi | hi
      · exact hs.known i hi
      · obtain rfl := List.mem_singleton.mp hi
        exact htoken
    · show ((s.issued ++ [_]).map fun i : IssuedSession => i.token.val).Nodup
      rw [List.map_append, List.map_singleton]
      exact List.nodup_append'.mpr ⟨hs.unique, List.nodup_singleton _, List.disjoint_singleton.mpr hfresh⟩
    · obtain ⟨i, hi, heq⟩ := hs.ended t ht
      exact ⟨i, List.mem_append_left _ hi, heq⟩
    · rcases List.mem_append.mp hi with hi | hi
      · exact hs.proven i hi
      · obtain rfl := List.mem_singleton.mp hi
        exact ⟨hproven, Nat.add_le_add_left hlong _, Nat.le_refl _⟩
    · rcases List.mem_append.mp hi with hi | hi
      · exact List.mem_append_left _ (hs.answered i hi)
      · obtain rfl := List.mem_singleton.mp hi
        exact List.mem_append_right _ (List.mem_singleton_self _)
  · exact hs.failLogin p.ip

/-- **Logging out** ends the session of the cookie and no other. -/
theorem Inv.logout (hs : s.Inv sha256 argon T) (hinj : Set.InjOn sha256 T) (req : AdminRequest)
    (htoken : req.sessionToken ∈ T) : (s.logout sha256 req).Inv sha256 argon T := by
  have hguard := hs.guard ⟨true, false⟩ req
  unfold AdminGate.logout
  split
  · next h =>
    rw [h] at hguard
    exact hguard.reply _
  · next s' h =>
    rw [h] at hguard
    -- it was admitted on the strength of this session
    have hpass : (s.guard sha256 ⟨true, false⟩ req).1 = none := congrArg Prod.fst h
    obtain ⟨-, hskip | hverify, -⟩ := (guard_none_iff s _ req).mp hpass
    · exact absurd hskip Bool.false_ne_true
    have hissued : s'.issued = s.issued := by
      obtain ⟨sessions, heq, -⟩ := guard_eq sha256 s ⟨true, false⟩ req
      rw [h] at heq
      dsimp only at heq
      rw [heq]
    have hlive : s.Live req.sessionToken := (hs.verify_iff hinj htoken).mp hverify
    refine ⟨hguard.ttl, fun r hr => ?_, fun i hi hnot hlt => ?_, hguard.known, hguard.unique, fun t ht => ?_,
      hguard.proven, fun i hi => List.mem_append_left _ (hguard.answered i hi)⟩
    · obtain ⟨hr, hother⟩ := mem_keep.mp hr
      obtain ⟨i, hi, hhash, hexpires, hnot⟩ := hguard.rows r hr
      refine ⟨i, hi, hhash, hexpires, fun hmem => ?_⟩
      rcases List.mem_append.mp hmem with hmem | hmem
      · exact hnot hmem
      · rw [List.mem_singleton.mp hmem] at hhash
        exact of_decide_eq_true hother hhash
    · have hnot' : i.token.val ∉ s'.revoked := fun hmem => hnot (List.mem_append_left _ hmem)
      obtain ⟨r, hr, hhash, hexpires⟩ := hguard.kept i hi hnot' hlt
      refine ⟨r, mem_keep.mpr ⟨hr, decide_eq_true fun heq => ?_⟩, hhash, hexpires⟩
      have heq : i.token.val = req.sessionToken := hinj (hguard.known i hi) htoken (hhash.symm.trans heq)
      exact hnot (List.mem_append_right _ (List.mem_singleton.mpr heq))
    · rcases List.mem_append.mp ht with ht | ht
      · exact hguard.ended t ht
      · obtain ⟨i, hi, heq, -⟩ := hlive
        exact ⟨i, hissued ▸ hi, heq.trans (List.mem_singleton.mp ht).symm⟩

/-- The tokens that go into the store, or leave it, are among `T`. -/
def Within (T : Set JsString) : AdminAction → Prop
  | .verified _ token => token.val ∈ T
  | .logout req => req.sessionToken ∈ T
  | _ => True

theorem step_inv (hinj : Set.InjOn sha256 T) (s : AdminGate L) (a : AdminAction) (s' : AdminGate L)
    (hs : s.Inv sha256 argon T) (ha : Within T a) (h : step sha256 argon s a = some s') : s'.Inv sha256 argon T := by
  cases a with
  | tick now =>
    obtain ⟨hle, rfl⟩ := Option.ite_none_right_eq_some.mp h |>.imp_right Option.some.inj
    refine ⟨hs.ttl, hs.rows, fun i hi hnot hlt => ?_, hs.known, hs.unique, hs.ended, fun i hi => ?_, hs.answered⟩
    · exact hs.kept i hi hnot (Nat.lt_of_le_of_lt hle hlt)
    · exact (hs.proven i hi).imp_right (And.imp_right fun hat => Nat.le_trans hat hle)
  | configure allowCidr =>
    cases h
    exact hs.sheds (.refl _ _) rfl rfl rfl (List.Subset.refl _)
  | login req password =>
    cases h
    exact hs.login req password
  | verified i token =>
    obtain ⟨hfresh, h⟩ := Option.ite_none_right_eq_some.mp h
    obtain ⟨p, -, rfl⟩ := Option.map_eq_some_iff.mp h
    have hwaiting : ({ s with verifying := s.verifying.eraseIdx i } : AdminGate L).Inv sha256 argon T :=
      hs.sheds (.refl _ _) rfl rfl rfl (List.Subset.refl _)
    exact hwaiting.verified hinj p token ha hfresh
  | visit opts req =>
    cases h
    exact hs.guard opts req
  | logout req =>
    cases h
    exact hs.logout hinj req ha
  | restart ttlMs stored =>
    cases h
    exact ⟨le_max_left .., hs.rows, hs.kept, hs.known, hs.unique, hs.ended, hs.proven, hs.answered⟩

theorem exec_inv (hinj : Set.InjOn sha256 T) {allowCidr : JsString} {stored : Option JsString} {ttlMs : Option ℕ}
    {now : ℕ} {as : List AdminAction} (hT : ∀ a ∈ as, Within T a)
    (h : exec (step sha256 argon) (boot allowCidr stored ttlMs now : AdminGate L) as = some s) :
    s.Inv sha256 argon T := by
  have hevery : Every (step sha256 argon) (fun _ a => Within T a) (boot allowCidr stored ttlMs now : AdminGate L) as :=
    Every.of_forall hT
  exact exec_invariant (step_inv hinj) as _ _ (boot_inv allowCidr stored ttlMs now) hevery h

/-- **Who gets in**, after any run over any number of restarts: an allowed address with the token of a session
that was handed out, not logged out and is not over, and with the header on a request that changes something.
Each session was handed out to a password that fitted, for a minute at least. -/
theorem guard_exact (hinj : Set.InjOn sha256 T) {allowCidr : JsString} {stored : Option JsString} {ttlMs : Option ℕ}
    {now : ℕ} {as : List AdminAction} (hT : ∀ a ∈ as, Within T a)
    (h : exec (step sha256 argon) (boot allowCidr stored ttlMs now : AdminGate L) as = some s) (opts : GuardOpts)
    (req : AdminRequest) (hreq : req.sessionToken ∈ T) :
    ((s.guard sha256 opts req).1 = none ↔ ipAllowed req.ip s.allowCidr = true ∧
      (opts.skipSession = true ∨ s.Live req.sessionToken) ∧
      (opts.mutating = true → req.method ∈ MUTATING → req.requestedWith = true)) ∧
    ∀ i ∈ s.issued, verifyAdminPassword argon i.login.stored i.login.password = true ∧
      i.issuedAt + 60000 ≤ i.expiresAt := by
  have hinv : s.Inv sha256 argon T := exec_inv hinj hT h
  refine ⟨?_, fun i hi => (hinv.proven i hi).imp_right And.left⟩
  rw [guard_none_iff, hinv.verify_iff hinj hreq]

/-- Passwords kept as they are. -/
def plainArgon : Argon2 where
  hash _ password := password
  verify hash password := decide (hash = password)
  verify_hash _ _ := decide_eq_true rfl

def tokenA : SessionToken := ⟨js "tok-A", by decide, forall_units (by decide)⟩

def onePassword : AdminGate (.memory JsString) := boot [] (some (js "pw")) none 0

def visitor (cookie : Option JsString) : AdminRequest := ⟨js "10.0.0.1", js "POST", cookie, true⟩

/-- A login, and a restart with the session of the last process. -/
def returningVisitor : List AdminAction :=
  [.configure (js "10.0.0.0/8"), .login (visitor none) (some (js "pw")), .verified 0 tokenA,
    .restart none (some (js "pw")), .tick 604799999]

/-- The visitor is let in, so the session of the cookie is live. -/
theorem guard_exact_returningVisitor :
    ∃ s, exec (step id plainArgon) onePassword returningVisitor =
      some s ∧ s.Live (js "tok-A") := by
  obtain ⟨s, hs, hguard⟩ := Option.map_eq_some_iff.mp
    (show (exec (step id plainArgon) onePassword returningVisitor).map
      (fun s => (s.guard id ⟨true, false⟩ (visitor (some (js "agy_admin_session=tok-A")))).1) = some none
      by decide +kernel)
  have hexact := guard_exact (Set.injOn_id Set.univ) (fun a _ => by cases a <;> trivial) hs ⟨true, false⟩
    (visitor (some (js "agy_admin_session=tok-A"))) (Set.mem_univ _)
  have htoken : (visitor (some (js "agy_admin_session=tok-A"))).sessionToken = js "tok-A" := by decide +kernel
  obtain ⟨-, hskip | hlive, -⟩ := hexact.1.mp hguard
  · exact absurd hskip Bool.false_ne_true
  · exact ⟨s, hs, htoken ▸ hlive⟩

/-- **The cookie of a login** is worth its session: sent back among any other cookies from an allowed address, and
with the header where a mutating route asks for it, it opens the routes that ask for a session until the logout or the
expiry, and no longer. -/
theorem cookie_admits (hinj : Set.InjOn sha256 T) {allowCidr : JsString} {stored : Option JsString} {ttlMs : Option ℕ}
    {now : ℕ} {as : List AdminAction} (hT : ∀ a ∈ as, Within T a)
    (h : exec (step sha256 argon) (boot allowCidr stored ttlMs now : AdminGate L) as = some s) (i : IssuedSession)
    (hi : i ∈ s.issued) :
    .loggedIn (serializeSetCookie i.token i.expiresAt) i.expiresAt ∈ s.replies ∧
    ∀ (jar : List (JsString × JsString)) (opts : GuardOpts) (req : AdminRequest), (∀ c ∈ jar, CookiePair c) →
      cookieOf (serializeSetCookie i.token i.expiresAt) ∈ jar →
      (∀ c ∈ jar, trim c.1 = ADMIN_COOKIE → c = cookieOf (serializeSetCookie i.token i.expiresAt)) →
      req.cookie = some (cookieHeader jar) → ipAllowed req.ip s.allowCidr = true →
      (opts.mutating = true → req.method ∈ MUTATING → req.requestedWith = true) → opts.skipSession = false →
      ((s.guard sha256 opts req).1 = none ↔ i.token.val ∉ s.revoked ∧ s.clock < i.expiresAt) := by
  have hinv : s.Inv sha256 argon T := exec_inv hinj hT h
  refine ⟨hinv.answered i hi, fun jar opts req hjar hin hone hcookie hip hheader hskip => ?_⟩
  rw [cookieOf_serializeSetCookie] at hin hone
  have htoken : req.sessionToken = i.token.val := by
    unfold AdminRequest.sessionToken
    rw [hcookie, parseCookieHeader_session hjar hone hin]
    rfl
  rw [guard_none_iff, htoken, hinv.verify_iff hinj (hinv.known i hi)]
  constructor
  · rintro ⟨-, hopen | ⟨j, hj, heq, hnot, hlt⟩, -⟩
    · exact absurd (hskip.symm.trans hopen) Bool.false_ne_true
    · obtain rfl : j = i := List.inj_on_of_nodup_map hinv.unique hj hi heq
      exact ⟨hnot, hlt⟩
  · rintro ⟨hnot, hlt⟩
    exact ⟨hip, Or.inr ⟨i, hi, rfl, hnot, hlt⟩, hheader⟩

/-- The session of the login, and another cookie. -/
def visitorJar : List (JsString × JsString) := [(js "theme", js "a=%"), (ADMIN_COOKIE, tokenA.val)]

/-- Another cookie comes along: on a mutating route with the header, and on a reading one without it. -/
theorem cookie_admits_returningVisitor :
    ∃ s, exec (step id plainArgon) onePassword returningVisitor = some s ∧
      (s.guard id ⟨true, false⟩ (visitor (some (cookieHeader visitorJar)))).1 = none ∧
      (s.guard id ⟨false, false⟩ ⟨js "10.0.0.1", js "GET", some (cookieHeader visitorJar), false⟩).1 = none := by
  obtain ⟨s, hs, hlog⟩ := Option.map_eq_some_iff.mp
    (show (exec (step id plainArgon) onePassword returningVisitor).map
      (fun s => (s.allowCidr, s.revoked, s.clock, s.issued.map fun i => (i.token.val, i.expiresAt))) =
        some (js "10.0.0.0/8", [], 604799999, [(js "tok-A", 604800000)]) by decide +kernel)
  simp only [Prod.mk.injEq] at hlog
  obtain ⟨hallow, hrevoked, hclock, hissued⟩ := hlog
  obtain ⟨i, hi, hsame⟩ : ∃ i ∈ s.issued, (i.token.val, i.expiresAt) = (js "tok-A", 604800000) := by
    refine List.mem_map.mp ?_
    rw [hissued]
    exact List.mem_singleton_self _
  obtain ⟨htoken, hexpires⟩ := Prod.mk.inj hsame
  have hpairs : ∀ c ∈ visitorJar, CookiePair c := by
    unfold CookiePair
    decide
  have hadmits := (cookie_admits (Set.injOn_id Set.univ) (fun a _ => by cases a <;> trivial) hs i hi).2 visitorJar
  rw [cookieOf_serializeSetCookie, htoken, hrevoked, hclock, hexpires, hallow] at hadmits
  have hlive : js "tok-A" ∉ ([] : List JsString) ∧ 604799999 < 604800000 := ⟨List.not_mem_nil, by decide⟩
  have hin : (ADMIN_COOKIE, js "tok-A") ∈ visitorJar := List.mem_cons_of_mem _ (List.mem_singleton_self _)
  have hone : ∀ c ∈ visitorJar, trim c.1 = ADMIN_COOKIE → c = (ADMIN_COOKIE, js "tok-A") := by decide
  refine ⟨s, hs, ?_, ?_⟩
  · exact (hadmits ⟨true, false⟩ _ hpairs hin hone rfl (by decide +kernel) (fun _ _ => rfl) rfl).mpr hlive
  · exact (hadmits ⟨false, false⟩ ⟨js "10.0.0.1", js "GET", some (cookieHeader visitorJar), false⟩ hpairs hin hone
      rfl (by decide +kernel) (fun hmutating => absurd hmutating Bool.false_ne_true) rfl).mpr hlive

/-! ### Guessing -/

/-- When the logins of an address failed. -/
def failures (s : AdminGate L) (ip : JsString) : List ℕ := (s.failed.filter fun f => decide (f.1 = ip)).map Prod.snd

/-- How many of its passwords are being checked. -/
def underWay (s : AdminGate L) (ip : JsString) : ℕ := s.verifying.countP fun p => decide (p.ip = ip)

/-- The failures and the window of an address, whose last window was `last`. -/
structure Throttled (ip : JsString) (K : ℕ) (last : Option WindowCount) (s : AdminGate L) : Prop where
  past : ∀ t ∈ s.failures ip, t ≤ s.clock
  metered : MeteredBy (K + LOGIN_POINTS - 1) LOGIN_WINDOW_MS (s.failures ip) last
  window : L.windowAt s.loginFailures ip s.clock = WindowCount.running last s.clock
  few : s.underWay ip ≤ K
  /-- once the backoff is on, what is under way is all that may still fail -/
  room : ∀ w, WindowCount.running last s.clock = some w → LOGIN_POINTS ≤ w.consumed →
    w.consumed + s.underWay ip + 1 ≤ K + LOGIN_POINTS

/-- A run in which an address has at most `K` logins at a time, all wrong, on one process. -/
def Guessing (argon : Argon2) (ip : JsString) (K : ℕ) (s : AdminGate L) : AdminAction → Prop
  | .login req _ => req.ip = ip → s.underWay ip < K
  | .verified i _ => ∀ p, s.verifying[i]? = some p → p.ip = ip → verifyAdminPassword argon p.stored p.password = false
  | .restart .. => False
  | _ => True

variable {ip : JsString} {K : ℕ} {last : Option WindowCount}

/-- No wait, no full window. -/
theorem backoff_none (h : s.backoff ip = none) {w : WindowCount} (hw : L.windowAt s.loginFailures ip s.clock = some w) :
    w.consumed < LOGIN_POINTS := by
  unfold backoff at h
  cases hget : L.get s.loginFailures ip s.clock with
  | none =>
    rw [L.get_none _ _ _ hget] at hw
    exact absurd hw.symm (Option.some_ne_none w)
  | some r =>
    have hlaw := L.get_some _ _ _ _ hget
    by_cases hpos : 0 < r.msBeforeNext
    · rw [if_pos hpos] at hlaw
      obtain ⟨w', hw', rfl⟩ := hlaw
      obtain rfl : w' = w := Option.some.inj (hw'.symm.trans hw)
      rw [hget] at h
      by_contra hfull
      have hboth : LOGIN_POINTS ≤ (w'.res s.clock).consumedPoints ∧ 0 < (w'.res s.clock).msBeforeNext :=
        ⟨Nat.le_of_not_lt hfull, hpos⟩
      simp only [Option.bind_some, if_pos hboth, reduceCtorEq] at h
    · rw [if_neg hpos] at hlaw
      exact absurd (hlaw.symm.trans hw) (Option.some_ne_none w).symm

theorem failures_failLogin (s : AdminGate L) (ip l : JsString) :
    (s.failLogin l).failures ip = s.failures ip ++ if l = ip then [s.clock] else [] := by
  unfold failures
  show ((s.failed ++ [(l, s.clock)]).filter _).map _ = _
  rw [List.filter_append, List.map_append]
  by_cases hl : l = ip <;> simp [hl]

/-- One more failure, while the window has room for it and for what is under way. -/
theorem Throttled.failLogin (hs : s.Throttled ip K last) (l : JsString)
    (hroom : l = ip → s.underWay ip < K ∧ ∀ w, WindowCount.running last s.clock = some w → LOGIN_POINTS ≤ w.consumed →
      w.consumed + s.underWay ip + 2 ≤ K + LOGIN_POINTS) : ∃ last', (s.failLogin l).Throttled ip K last' := by
  by_cases hl : l = ip
  · subst hl
    obtain ⟨hfew, hroom⟩ := hroom rfl
    have hpoints : LOGIN_POINTS = 5 := rfl
    have hduration : 0 < LOGIN_WINDOW_MS := by decide
    have hfailures : (s.failLogin l).failures l = s.failures l ++ [s.clock] := by
      rw [failures_failLogin, if_pos rfl]
    have hnext := WindowCount.lt_consume hduration last s.clock
    have hroom' : (WindowCount.consume LOGIN_WINDOW_MS last s.clock).consumed ≤ K + LOGIN_POINTS - 1 ∧
        (LOGIN_POINTS ≤ (WindowCount.consume LOGIN_WINDOW_MS last s.clock).consumed →
          (WindowCount.consume LOGIN_WINDOW_MS last s.clock).consumed + s.underWay l + 1 ≤ K + LOGIN_POINTS) := by
      unfold WindowCount.consume
      cases hrunning : WindowCount.running last s.clock with
      | none =>
        dsimp only
        omega
      | some w =>
        have hw := hroom w hrunning
        dsimp only
        omega
    refine ⟨some (WindowCount.consume LOGIN_WINDOW_MS last s.clock), ?_, ?_, ?_, hs.few, fun w hw hfull => ?_⟩
    · rw [hfailures]
      intro t ht
      rcases List.mem_append.mp ht with ht | ht
      · exact hs.past t ht
      · exact (List.mem_singleton.mp ht).le
    · have hmetered := hs.metered.consume (by omega) hduration hs.past
      rw [if_pos hroom'.1] at hmetered
      rw [hfailures]
      exact hmetered
    · show L.windowAt (L.consume LOGIN_POINTS LOGIN_WINDOW_MS s.loginFailures l s.clock).2 l s.clock =
        WindowCount.running (some (WindowCount.consume LOGIN_WINDOW_MS last s.clock)) s.clock
      rw [L.consume_same _ _ _ _ _ hduration, hs.window, WindowCount.consume_running, WindowCount.running_some,
        if_pos hnext]
    · rw [WindowCount.running_some] at hw
      obtain ⟨-, hw⟩ := Option.ite_none_right_eq_some.mp hw
      obtain rfl := Option.some.inj hw
      exact hroom'.2 hfull
  · have hfailures : (s.failLogin l).failures ip = s.failures ip := by
      rw [failures_failLogin, if_neg hl, List.append_nil]
    refine ⟨last, ?_, ?_, ?_, hs.few, hs.room⟩
    · rw [hfailures]
      exact hs.past
    · rw [hfailures]
      exact hs.metered
    · exact (L.consume_other _ _ _ _ _ _ _ (Ne.symm hl)).trans hs.window

theorem Throttled.tick (hs : s.Throttled ip K last) {now : ℕ} (hle : s.clock ≤ now) :
    ({ s with clock := now } : AdminGate L).Throttled ip K last := by
  refine ⟨fun t ht => (hs.past t ht).trans hle, hs.metered, ?_, hs.few, fun w hw hfull => ?_⟩
  · show L.windowAt s.loginFailures ip now = WindowCount.running last now
    rw [L.windowAt_later _ _ _ _ hle, hs.window, WindowCount.running_running _ hle]
  · refine hs.room w ?_ hfull
    obtain ⟨hlast, hlt⟩ := Option.filter_eq_some_iff.mp hw
    exact Option.filter_eq_some_iff.mpr ⟨hlast, decide_eq_true (hle.trans_lt (of_decide_eq_true hlt))⟩

/-- What else happens to the gate does not matter. -/
theorem Throttled.of_eq (hs : s.Throttled ip K last) (hclock : t.clock = s.clock) (hfailed : t.failed = s.failed)
    (hlimiter : t.loginFailures = s.loginFailures) (hverifying : t.verifying = s.verifying) :
    t.Throttled ip K last := by
  have hfailures : t.failures ip = s.failures ip := by
    unfold failures
    rw [hfailed]
  have hunder : t.underWay ip = s.underWay ip := by
    unfold underWay
    rw [hverifying]
  refine ⟨?_, hfailures ▸ hs.metered, ?_, hunder ▸ hs.few, ?_⟩
  · rw [hfailures, hclock]
    exact hs.past
  · rw [hlimiter, hclock]
    exact hs.window
  · rw [hclock, hunder]
    exact hs.room

theorem Throttled.login (hs : s.Throttled ip K last) (req : AdminRequest) (password : Option JsString)
    (hguess : req.ip = ip → s.underWay ip < K) :
    ∃ last', (s.login sha256 req password).Throttled ip K last' := by
  obtain ⟨sessions, heq, -⟩ := guard_eq sha256 s ⟨true, true⟩ req
  unfold AdminGate.login
  split
  · next h =>
    rw [h] at heq
    dsimp only at heq
    subst heq
    exact ⟨last, hs.of_eq rfl rfl rfl rfl⟩
  · next h =>
    rw [h] at heq
    dsimp only at heq
    subst heq
    have hsame : ({ s with sessions } : AdminGate L).Throttled ip K last := hs.of_eq rfl rfl rfl rfl
    split
    · exact ⟨last, hs.of_eq rfl rfl rfl rfl⟩
    · next hopen =>
      -- the backoff is off for this address
      have hcalm : req.ip = ip → ∀ w, WindowCount.running last s.clock = some w → w.consumed < LOGIN_POINTS := by
        rintro rfl w hw
        exact backoff_none hopen (hsame.window.trans hw)
      have hfail : ∃ last', (({ s with sessions } : AdminGate L).failLogin req.ip).Throttled ip K last' := by
        refine hsame.failLogin req.ip fun hip => ⟨hguess hip, fun w hw hfull => ?_⟩
        exact absurd hfull (Nat.not_le_of_lt (hcalm hip w hw))
      split
      · split
        · next password _ =>
          refine ⟨last, hs.past, hs.metered, hs.window, ?_, fun w hw hfull => ?_⟩
          · show (s.verifying ++ [_]).countP _ ≤ K
            rw [List.countP_append, List.countP_singleton]
            have hfew := hs.few
            unfold underWay at hfew hguess
            by_cases hip : req.ip = ip
            · have := hguess hip
              simp [hip]
              omega
            · simpa [hip] using hfew
          · by_cases hip : req.ip = ip
            · exact absurd hfull (Nat.not_le_of_lt (hcalm hip w hw))
            · have hroom := hs.room w hw hfull
              show w.consumed + (s.verifying ++ [_]).countP _ + 1 ≤ K + LOGIN_POINTS
              rw [List.countP_append, List.countP_singleton]
              simpa [hip, underWay] using hroom
        · exact hfail
      · exact hfail

/-- One check is over. -/
theorem underWay_eraseIdx {i : ℕ} {p : PendingLogin} (h : s.verifying[i]? = some p) (ip : JsString) :
    ({ s with verifying := s.verifying.eraseIdx i } : AdminGate L).underWay ip + (if p.ip = ip then 1 else 0) =
      s.underWay ip := by
  obtain ⟨hi, rfl⟩ := List.getElem?_eq_some_iff.mp h
  have hcount := (List.getElem_cons_eraseIdx_perm hi).countP_eq fun p => decide (p.ip = ip)
  rw [List.countP_cons] at hcount
  simpa [underWay] using hcount

theorem Throttled.verified (hs : s.Throttled ip K last) {i : ℕ} {p : PendingLogin} (hp : s.verifying[i]? = some p)
    (token : SessionToken)
    (hguess : p.ip = ip → verifyAdminPassword argon p.stored p.password = false) :
    ∃ last', (({ s with verifying := s.verifying.eraseIdx i } : AdminGate L).verified sha256 argon p token).Throttled
      ip K last' := by
  have hunder := underWay_eraseIdx hp ip
  have hfew := hs.few
  have hsame : ({ s with verifying := s.verifying.eraseIdx i } : AdminGate L).Throttled ip K last := by
    refine ⟨hs.past, hs.metered, hs.window, by omega, fun w hw hfull => ?_⟩
    have hroom := hs.room w hw hfull
    omega
  unfold AdminGate.verified
  split
  · next hfits =>
    have hother : p.ip ≠ ip := fun heq => absurd (hfits.symm.trans (hguess heq)) Bool.false_ne_true.symm
    have hdelete : L.windowAt (L.delete s.loginFailures p.ip) ip s.clock = WindowCount.running last s.clock :=
      (L.delete_other _ _ _ _ hother.symm).trans hs.window
    dsimp only
    split
    · exact ⟨last, hsame.past, hsame.metered, hdelete, hsame.few, hsame.room⟩
    · exact ⟨last, hsame.past, hsame.metered, hdelete, hsame.few, hsame.room⟩
  · refine hsame.failLogin p.ip fun hip => ?_
    rw [if_pos hip] at hunder
    refine ⟨by omega, fun w hw hfull => ?_⟩
    have hroom := hs.room w hw hfull
    omega

theorem step_throttled (s : AdminGate L) (a : AdminAction) (s' : AdminGate L)
    (hs : ∃ last, s.Throttled ip K last) (ha : Guessing argon ip K s a) (h : step sha256 argon s a = some s') :
    ∃ last, s'.Throttled ip K last := by
  obtain ⟨last, hs⟩ := hs
  cases a with
  | tick now =>
    obtain ⟨hle, rfl⟩ := Option.ite_none_right_eq_some.mp h |>.imp_right Option.some.inj
    exact ⟨last, hs.tick hle⟩
  | configure allowCidr =>
    cases h
    exact ⟨last, hs.of_eq rfl rfl rfl rfl⟩
  | login req password =>
    cases h
    exact hs.login req password ha
  | verified i token =>
    obtain ⟨-, h⟩ := Option.ite_none_right_eq_some.mp h
    obtain ⟨p, hp, rfl⟩ := Option.map_eq_some_iff.mp h
    exact hs.verified hp token (ha p hp)
  | visit opts req =>
    cases h
    obtain ⟨sessions, heq, -⟩ := guard_eq sha256 s opts req
    rw [heq]
    exact ⟨last, hs.of_eq rfl rfl rfl rfl⟩
  | logout req =>
    cases h
    obtain ⟨sessions, heq, -⟩ := guard_eq sha256 s ⟨true, false⟩ req
    unfold AdminGate.logout
    split
    all_goals
      next h =>
        rw [h] at heq
        dsimp only at heq
        subst heq
        exact ⟨last, hs.of_eq rfl rfl rfl rfl⟩
  | restart ttlMs stored => exact ha.elim

/-- **Guessing is slow**: with at most `K` passwords of an address being checked at a time, all wrong, no five minutes
see more than `2 * (K + 4) - 1` of its logins fail; one at a time, nine. -/
theorem failures_bounded {allowCidr : JsString} {stored : Option JsString} {ttlMs : Option ℕ} {now : ℕ}
    {as : List AdminAction}
    (hguess : Every (step sha256 argon) (Guessing argon ip K) (boot allowCidr stored ttlMs now : AdminGate L) as)
    (h : exec (step sha256 argon) (boot allowCidr stored ttlMs now : AdminGate L) as = some s) (t : ℕ) :
    (s.failed.countP fun f => decide (f.1 = ip ∧ t ≤ f.2 ∧ f.2 < t + LOGIN_WINDOW_MS)) ≤ 2 * (K + 4) - 1 := by
  have hboot : (boot allowCidr stored ttlMs now : AdminGate L).Throttled ip K none :=
    ⟨fun _ ht => absurd ht List.not_mem_nil, rfl, L.windowAt_fresh _ _, Nat.zero_le _,
      fun _ hw => absurd hw.symm (Option.some_ne_none _)⟩
  obtain ⟨last, hlast⟩ := exec_invariant step_throttled as _ _ ⟨none, hboot⟩ hguess h
  have hbounded : (inWindow LOGIN_WINDOW_MS t (s.failures ip)).length ≤ 2 * (K + LOGIN_POINTS - 1) - 1 :=
    hlast.metered.bounded (Nat.sub_pos_of_lt (Nat.lt_add_left K (by decide))) t
  have hcount : (s.failed.countP fun f => decide (f.1 = ip ∧ t ≤ f.2 ∧ f.2 < t + LOGIN_WINDOW_MS)) =
      (inWindow LOGIN_WINDOW_MS t (s.failures ip)).length := by
    unfold inWindow failures
    rw [← List.countP_eq_length_filter, List.countP_map, List.countP_filter]
    refine List.countP_congr fun f _ => ?_
    simp only [Function.comp_apply, Bool.and_eq_true, decide_eq_true_eq]
    exact and_comm
  exact hcount ▸ hbounded

instance (argon : Argon2) (ip : JsString) (K : ℕ) (s : AdminGate L) (a : AdminAction) :
    Decidable (Guessing argon ip K s a) :=
  match a with
  | .login req _ => inferInstanceAs (Decidable (req.ip = ip → s.underWay ip < K))
  | .verified i _ => inferInstanceAs (Decidable (∀ p ∈ s.verifying[i]?, p.ip = ip →
      verifyAdminPassword argon p.stored p.password = false))
  | .restart .. => inferInstanceAs (Decidable False)
  | .tick _ | .configure _ | .visit .. | .logout _ => inferInstanceAs (Decidable True)

/-- No password at all, and a wrong one. -/
def emptyGuess : AdminAction := .login (visitor none) none

def wrongGuess : AdminAction := .login (visitor none) (some (js "x"))

/-- One failure opens a window and five fill it as it ends, the last two side by side; the next takes six at once. -/
def hastyGuesses : List AdminAction :=
  [emptyGuess, .tick 299999, emptyGuess, emptyGuess, emptyGuess, wrongGuess, wrongGuess, .verified 0 tokenA,
    .verified 0 tokenA, .tick 300000, emptyGuess, emptyGuess, emptyGuess, emptyGuess, wrongGuess, wrongGuess,
    .verified 1 tokenA, .verified 0 tokenA]

/-- The bound is met. -/
theorem failures_bounded_hastyGuesses :
    ∃ s, exec (step id plainArgon) onePassword hastyGuesses =
        some s ∧
      (s.failed.countP fun f => decide (f.1 = js "10.0.0.1" ∧ 299999 ≤ f.2 ∧ f.2 < 299999 + LOGIN_WINDOW_MS)) =
        2 * (2 + 4) - 1 := by
  obtain ⟨s, hs, hcount⟩ := Option.map_eq_some_iff.mp
    (show (exec (step id plainArgon) onePassword hastyGuesses).map
      (fun s => s.failed.countP fun f =>
        decide (f.1 = js "10.0.0.1" ∧ 299999 ≤ f.2 ∧ f.2 < 299999 + LOGIN_WINDOW_MS)) = some 11 by decide +kernel)
  have hguess : Every (step id plainArgon) (Guessing plainArgon (js "10.0.0.1") 2)
      onePassword hastyGuesses := by decide +kernel
  exact ⟨s, hs, le_antisymm (failures_bounded hguess hs 299999) hcount.ge⟩

end AdminGate

end AgyProxy
