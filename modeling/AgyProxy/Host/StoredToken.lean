import AgyProxy.Common.ResetDuration
import AgyProxy.Common.Types
import AgyProxy.Js.Date
import AgyProxy.Js.JsonSpec

/-!
# AgyProxy.Host.StoredToken — the token file of an account (`src/host/quota.ts`)

The document is the nested one that agy writes, or a flat one; reader and writer each look for its shape.

* `normalizeStoredToken`: the token of a document, with the expiry in milliseconds.
* `getStoredToken`, `persistRefreshedToken`: the file read, and a refreshed access token written back.
* `FieldsKept`: the fields apart from those written; a number no double holds is read as an infinity, which JSON
  writes as null.
* `persistRefreshedToken_readBack`: **what was written is what is read**, in both shapes.

`Date.parse` of other formats, the keychain and the home directory are parameters.
-/

namespace AgyProxy

open Js

structure StoredToken where
  accessToken : Option JsString
  refreshToken : Option JsString
  expiryMs : Option Js.Num
deriving DecidableEq

/-- `tok.accessToken || tok.refreshToken`. -/
def StoredToken.usable (tok : StoredToken) : Bool :=
  (truthy? tok.accessToken).isSome || (truthy? tok.refreshToken).isSome

/-! ### Reading a document -/

/-- `Number(v)` of a parsed value. -/
def Js.Json.toNumber (stack : ℕ) : Json → Except JsError Js.Num
  | .null => .ok (.fin 0)
  | .bool b => .ok (.fin (if b then 1 else 0))
  | .num x => .ok x
  | .str s => .ok (stringToNumber s)
  | v => (v.toJsString stack).map stringToNumber

/-- The first of the keys with a non-empty string. -/
def stringField (obj : Obj) (keys : List JsString) : Option JsString :=
  keys.findSome? fun key =>
    match Obj.get? obj key with
    | some (.str v) => truthy? (some v)
    | _ => none

/-- The nested document, if `token` is an object and no array. -/
def nestedToken? (raw : Obj) : Option Obj :=
  match Obj.get? raw (js "token") with
  | some (.obj nested) => some nested
  | _ => none

section Date

variable (other : JsString → Option ℤ)

/-- Coerce an expiry value (ISO string, epoch millis, or epoch seconds) to ms. -/
def parseExpiryMs : Json → Option Js.Num
  | .num (.fin q) => some (if q < 100000000000 then (Js.Num.fin q).mul (.fin 1000) else .fin q)
  | .str s => (parseDate other s).map fun (t : ℤ) => .fin t
  | _ => none

def expiryField (obj : Obj) (key : JsString) : Option Js.Num := (Obj.get? obj key).bind (parseExpiryMs other)

section Clock

variable (stack now : ℕ)

/-- `source.expires_in ? Date.now() / 1000 + Number(source.expires_in) : undefined`, as an expiry. -/
def expiresIn (source : Obj) : Except JsError (Option Js.Num) :=
  match (Obj.get? source (js "expires_in")).filter Json.truthy with
  | none => .ok none
  | some v => (v.toNumber stack).map fun x => parseExpiryMs other (.num ((roundToDouble (now / 1000)).add x))

/-- The chain of `??`. -/
def storedExpiry (source raw : Obj) : Except JsError (Option Js.Num) :=
  match (expiryField other source (js "expiry")).or (expiryField other source (js "expiresAt")) with
  | some ms => .ok (some ms)
  | none => (expiresIn other stack now source).map fun ms => ms.or (expiryField other raw (js "expiry"))

/-- `none` when no usable string access token is present. -/
def normalizeStoredToken (raw : Obj) : Except JsError (Option StoredToken) :=
  let source := (nestedToken? raw).getD raw
  let accessToken := stringField source [js "access_token", js "accessToken"]
  let refreshToken := (stringField source [js "refresh_token", js "refreshToken"]).or
    ((nestedToken? raw).bind fun _ => stringField raw [js "refresh_token", js "refreshToken"])
  (storedExpiry other stack now source raw).map fun expiryMs =>
    accessToken.map fun token => ⟨some token, refreshToken, expiryMs⟩

end Clock

end Date

/-! ### The file -/

/-- A token file, or a text that is no JSON. -/
inductive TokenFile
  | absent
  | corrupt
  | doc (v : Json)

/-- `ManagedAccount`, as far as its home goes. -/
structure TokenAccount where
  dir : JsString
  systemHome : Bool

namespace TokenAccount

/-- Only such accounts have a directory of their own, and they never see the keychain. -/
def Isolated (account : TokenAccount) : Prop := account.systemHome = false ∧ account.dir ≠ []

instance (account : TokenAccount) : Decidable account.Isolated := inferInstanceAs (Decidable (_ ∧ _))

/-- The home `getTokenFilePath` looks in. -/
def home (homedir : JsString) (account : TokenAccount) : JsString :=
  if account.systemHome || account.dir.isEmpty then homedir else account.dir

theorem Isolated.shared {account : TokenAccount} (h : account.Isolated) :
    (account.systemHome || account.dir.isEmpty) = false := by
  rw [h.1, Bool.false_or]
  exact List.isEmpty_eq_false_iff.mpr h.2

theorem Isolated.home {account : TokenAccount} (h : account.Isolated) (homedir : JsString) :
    account.home homedir = account.dir := by
  rw [TokenAccount.home, h.shared, if_neg Bool.false_ne_true]

end TokenAccount

/-- The token files, by the home they are under. -/
abbrev TokenFiles := JsString → TokenFile

/-- `getStoredToken`; a document that is no object has no token, or throws where the reader catches. -/
def diskToken (other : JsString → Option ℤ) (stack now : ℕ) : TokenFile → Option StoredToken
  | .doc (.obj raw) =>
    match normalizeStoredToken other stack now raw with
    | .ok tok => tok.filter StoredToken.usable
    | .error _ => none
  | _ => none

section Disk

variable (homedir : JsString) (keychain : Option StoredToken)

def getStoredToken (other : JsString → Option ℤ) (stack now : ℕ) (files : TokenFiles) (account : TokenAccount) :
    Option StoredToken :=
  let disk := diskToken other stack now (files (account.home homedir))
  if account.systemHome || account.dir.isEmpty then
    (keychain.filter StoredToken.usable).or disk
  else disk

/-- The document with the refreshed token, `none` when an assignment or `toISOString` throws. -/
def refreshedDocument (accessToken : JsString) (expiryMs : Option Js.Num) (raw : Json) : Option Json := do
  let expiryMs := expiryMs.filter fun ms => (Json.num ms).truthy
  let expiryIso ← match expiryMs with
    | none => some none
    | some ms => ((timeClip ms).bind toISOString).map some
  match raw with
  | .obj o =>
    match Obj.get? o (js "token") with
    | some (.obj nested) =>
      let nested := nested ++ (js "access_token", .str accessToken) ::
        (expiryIso.map fun iso => (js "expiry", Json.str iso)).toList
      some (.obj (o ++ [(js "token", .obj nested)]))
    -- the properties of an array are not written
    | some (.arr _) => some (.obj o)
    | _ =>
      some (.obj (o ++ (js "access_token", .str accessToken) ::
        (expiryMs.map fun ms => (js "expiry", Json.num ms)).toList))
  | .arr elems => some (.arr elems)
  | _ => none

/-- `persistRefreshedToken`; `disk` tells whether the file is written and renamed. -/
def persistRefreshedToken (disk : Bool) (files : TokenFiles) (account : TokenAccount) (accessToken : JsString)
    (expiryMs : Option Js.Num) : TokenFiles :=
  let file := account.home homedir
  let raw := match files file with
    | .doc v => v
    | _ => .obj []
  match refreshedDocument accessToken expiryMs raw with
  | some v => if disk then Function.update files file (.doc v.reparsed) else files
  | none => files

end Disk

/-! ### What the writer leaves alone -/

/-- The fields apart from the keys are what JSON makes of them, the same unless a number in them is infinite. -/
def FieldsKept (keys : List JsString) (o o' : Obj) : Prop :=
  ∀ k, k ∉ keys → Obj.get? o' k = (Obj.get? o k).map Json.reparsed ∧
    ((Obj.get? o k).all Json.allFinite → Obj.get? o' k = Obj.get? o k)

/-- The document after a refresh: in the nested shape only `token` changed, and in it only the two fields. -/
def DocumentKept (raw raw' : Obj) : Prop :=
  match nestedToken? raw with
  | some nested => FieldsKept [js "token"] raw raw' ∧
      ∃ nested', nestedToken? raw' = some nested' ∧ FieldsKept [js "access_token", js "expiry"] nested nested'
  | none => FieldsKept [js "access_token", js "expiry"] raw raw'

theorem fieldsKept_of_get? {keys : List JsString} {o written : Obj}
    (h : ∀ k, k ∉ keys → Obj.get? written k = none) : FieldsKept keys o (Json.reparsed.fields (o ++ written)) := by
  intro k hk
  have hget : Obj.get? (Json.reparsed.fields (o ++ written)) k = (Obj.get? o k).map Json.reparsed := by
    rw [Json.get?_reparsed_fields, Obj.get?_append, h k hk, Option.none_or]
  refine ⟨hget, fun hfinite => ?_⟩
  rw [hget]
  cases hv : Obj.get? o k with
  | none => rfl
  | some v =>
    rw [hv] at hfinite
    exact congrArg some ((Json.reparsed_eq_iff v).mpr hfinite)

/-- The string field of a value. -/
def stringOf? : Json → Option JsString
  | .str v => truthy? (some v)
  | _ => none

theorem stringField_eq (obj : Obj) (keys : List JsString) :
    stringField obj keys = keys.findSome? fun key => (Obj.get? obj key).bind stringOf? := by
  unfold stringField
  congr 1
  funext key
  cases Obj.get? obj key with
  | none => rfl
  | some v => cases v <;> rfl

theorem stringOf?_reparsed (v : Json) : stringOf? v.reparsed = stringOf? v := by
  cases v with
  | num x => cases x <;> rfl
  | null => rfl
  | bool b => rfl
  | str s => rfl
  | arr elems => rw [Json.reparsed]; rfl
  | obj o => rw [Json.reparsed]; rfl

theorem FieldsKept.stringField {written keys : List JsString} {o o' : Obj} (h : FieldsKept written o o')
    (hkeys : ∀ k ∈ keys, k ∉ written) : stringField o' keys = stringField o keys := by
  rw [stringField_eq, stringField_eq]
  induction keys with
  | nil => rfl
  | cons k keys ih =>
    have hfield : (Obj.get? o' k).bind stringOf? = (Obj.get? o k).bind stringOf? := by
      rw [(h k (hkeys k List.mem_cons_self)).1]
      cases Obj.get? o k with
      | none => rfl
      | some v => exact stringOf?_reparsed v
    rw [List.findSome?_cons, List.findSome?_cons, hfield, ih fun k' hk' => hkeys k' (List.mem_cons_of_mem k hk')]

/-! ### Reading back -/

/-- The two fields of a refresh. -/
def refreshPatch (accessToken : JsString) (expiry : Json) : Obj :=
  [(js "access_token", .str accessToken), (js "expiry", expiry)]

/-- An object with the two fields behind its own, written and read. -/
def refreshedFields (o : Obj) (accessToken : JsString) (expiry : Json) : Obj :=
  Json.reparsed.fields (o ++ refreshPatch accessToken expiry)

section Refreshed

variable (o : Obj) {accessToken : JsString} (expiry : Json)

theorem refreshedFields_kept :
    FieldsKept [js "access_token", js "expiry"] o (refreshedFields o accessToken expiry) := by
  refine fieldsKept_of_get? fun k hk => ?_
  obtain ⟨haccess, hexpiry⟩ : k ≠ js "access_token" ∧ k ≠ js "expiry" := by
    rwa [List.mem_cons, List.mem_singleton, not_or] at hk
  show Obj.get? ([_] ++ [_]) k = none
  rw [Obj.get?_append, Obj.get?_singleton, Obj.get?_singleton, if_neg haccess, if_neg hexpiry, Option.none_or]

theorem refreshedFields_accessToken :
    Obj.get? (refreshedFields o accessToken expiry) (js "access_token") = some (.str accessToken) := by
  unfold refreshedFields
  rw [Json.get?_reparsed_fields, Obj.get?_append]
  rfl

theorem refreshedFields_expiry :
    Obj.get? (refreshedFields o accessToken expiry) (js "expiry") = some expiry.reparsed := by
  unfold refreshedFields
  rw [Json.get?_reparsed_fields, Obj.get?_append]
  rfl

theorem stringField_refreshedFields (htoken : accessToken ≠ []) (keys : List JsString) :
    stringField (refreshedFields o accessToken expiry) (js "access_token" :: keys) = some accessToken := by
  have htruthy : stringOf? (.str accessToken) = some accessToken := by
    show truthy? (some accessToken) = _
    rw [truthy?, Option.filter_some, List.isEmpty_eq_false_iff.mpr htoken]
    rfl
  rw [stringField_eq, List.findSome?_cons, refreshedFields_accessToken, Option.bind_some, htruthy]

end Refreshed

/-- What a document's refresh token is. -/
theorem normalizeStoredToken_refreshToken {other : JsString → Option ℤ} {stack now : ℕ} {raw : Obj}
    {tok : StoredToken} (h : normalizeStoredToken other stack now raw = .ok (some tok)) :
    tok.refreshToken = (stringField ((nestedToken? raw).getD raw) [js "refresh_token", js "refreshToken"]).or
      ((nestedToken? raw).bind fun _ => stringField raw [js "refresh_token", js "refreshToken"]) := by
  unfold normalizeStoredToken at h
  dsimp only at h
  cases hexpiry : storedExpiry other stack now ((nestedToken? raw).getD raw) raw with
  | error e =>
    rw [hexpiry] at h
    cases h
  | ok expiryMs =>
    rw [hexpiry] at h
    obtain ⟨token, -, htok⟩ := Option.map_eq_some_iff.mp (Except.ok.inj h)
    rw [← htok]

/-- Reading a document whose source starts with the two fields. -/
theorem normalizeStoredToken_refreshed (other : JsString → Option ℤ) (stack now : ℕ) (raw o : Obj)
    {accessToken : JsString} (htoken : accessToken ≠ []) {expiry : Json} {ms : Js.Num}
    (hexpiry : parseExpiryMs other expiry.reparsed = some ms)
    (hsource : (nestedToken? raw).getD raw = refreshedFields o accessToken expiry) :
    normalizeStoredToken other stack now raw = .ok (some ⟨some accessToken,
      (stringField (refreshedFields o accessToken expiry) [js "refresh_token", js "refreshToken"]).or
        ((nestedToken? raw).bind fun _ => stringField raw [js "refresh_token", js "refreshToken"]), some ms⟩) := by
  have hms : storedExpiry other stack now (refreshedFields o accessToken expiry) raw = .ok (some ms) := by
    unfold storedExpiry expiryField
    rw [refreshedFields_expiry, Option.bind_some, hexpiry, Option.some_or]
  unfold normalizeStoredToken
  dsimp only
  rw [hsource, hms, stringField_refreshedFields o expiry htoken]
  rfl

/-- What the writer makes of an object: in the nested shape only the nested one changes. -/
theorem refreshedDocument_obj {raw : Obj} (harray : ∀ elems, Obj.get? raw (js "token") ≠ some (.arr elems))
    (accessToken : JsString) {t : ℤ} (hpos : 0 < t) (hrange : |t| ≤ MAX_TIME) {iso : JsString}
    (hiso : toISOString t = some iso) :
    refreshedDocument accessToken (some (.fin t)) (.obj raw) = some (.obj (match nestedToken? raw with
      | some nested => raw ++ [(js "token", .obj (nested ++ refreshPatch accessToken (.str iso)))]
      | none => raw ++ refreshPatch accessToken (.num (.fin t)))) := by
  have htruthy : (Json.num (.fin t)).truthy = true := by
    have hne : (t : ℚ) ≠ 0 := by exact_mod_cast hpos.ne'
    show ((t : ℚ) != 0) = true
    exact bne_iff_ne.mpr hne
  have hexpiry : (some (Js.Num.fin t)).filter (fun ms => (Json.num ms).truthy) = some (.fin t) := by
    rw [Option.filter_some, htruthy]
    rfl
  unfold refreshedDocument nestedToken?
  dsimp only [Option.bind_eq_bind]
  rw [hexpiry]
  dsimp only
  rw [timeClip_intCast hrange, Option.bind_some, hiso, Option.map_some, Option.bind_some]
  cases htoken : Obj.get? raw (js "token") with
  | none => rfl
  | some v =>
    cases v with
    | arr elems => exact absurd htoken (harray elems)
    | obj nested => rfl
    | null => rfl
    | bool b => rfl
    | num x => rfl
    | str s => rfl

/-- The source of the written document is the object with the two fields. -/
theorem nestedToken?_written {raw written : Obj} (h : Obj.get? written (js "token") = none) :
    nestedToken? (Json.reparsed.fields (raw ++ written)) = (nestedToken? raw).map Json.reparsed.fields := by
  unfold nestedToken?
  rw [Json.get?_reparsed_fields, Obj.get?_append, h, Option.none_or]
  cases Obj.get? raw (js "token") with
  | none => rfl
  | some v =>
    cases v with
    | num x => cases x <;> rfl
    | null => rfl
    | bool b => rfl
    | str s => rfl
    | arr elems => rw [Option.map_some, Json.reparsed]; rfl
    | obj o => rw [Option.map_some, Json.reparsed]; rfl

theorem nestedToken?_nested (raw nested : Obj) :
    nestedToken? (Json.reparsed.fields (raw ++ [(js "token", .obj nested)])) = some (Json.reparsed.fields nested) := by
  unfold nestedToken?
  rw [Json.get?_reparsed_fields, Obj.get?_append, Obj.get?_singleton, if_pos rfl, Option.some_or, Option.map_some,
    Json.reparsed]

/-- The text and the number of an expiry are read as it. -/
theorem parseExpiryMs_refreshed (other : JsString → Option ℤ) {t : ℤ} (hmillis : 100000000000 ≤ t)
    {iso : JsString} (hiso : toISOString t = some iso) :
    parseExpiryMs other (Json.str iso).reparsed = some (.fin t) ∧
      parseExpiryMs other (Json.num (.fin t)).reparsed = some (.fin t) := by
  have hnot : ¬(t : ℚ) < 100000000000 := not_lt.mpr (by exact_mod_cast hmillis)
  constructor
  · show parseExpiryMs other (.str iso) = _
    rw [parseExpiryMs, parseDate_toISOString hiso, Option.map_some]
  · show parseExpiryMs other (.num (.fin t)) = _
    rw [parseExpiryMs, if_neg hnot]

section ReadBack

variable (other : JsString → Option ℤ) {raw : Obj} {tok : StoredToken} {accessToken : JsString} {t : ℤ}

/-- The object read after a refresh: its token, and what it kept. -/
structure ReadsBack (stack now : ℕ) (raw : Obj) (tok : StoredToken) (accessToken : JsString) (t : ℤ) (raw' : Obj) :
    Prop where
  token : normalizeStoredToken other stack now raw' = .ok (some ⟨some accessToken, tok.refreshToken, some (.fin t)⟩)
  kept : DocumentKept raw raw'

theorem refreshedDocument_readsBack {stack now : ℕ} (now' : ℕ)
    (haccepted : normalizeStoredToken other stack now raw = .ok (some tok))
    (harray : ∀ elems, Obj.get? raw (js "token") ≠ some (.arr elems)) (htoken : accessToken ≠ [])
    (hmillis : 100000000000 ≤ t) (hrange : t ≤ MAX_TIME) :
    ∃ o : Obj, refreshedDocument accessToken (some (.fin t)) (.obj raw) = some (.obj o) ∧
      ReadsBack other stack now' raw tok accessToken t (Json.reparsed.fields o) := by
  have hpos : 0 < t := lt_of_lt_of_le (by decide) hmillis
  have habs : |t| ≤ MAX_TIME := (abs_of_pos hpos).trans_le hrange
  obtain ⟨iso, hiso⟩ := toISOString_isSome habs
  obtain ⟨htext, hnumber⟩ := parseExpiryMs_refreshed other hmillis hiso
  have hrefresh := normalizeStoredToken_refreshToken haccepted
  have hkeys : ∀ k ∈ [js "refresh_token", js "refreshToken"], k ∉ [js "access_token", js "expiry"] := by decide
  refine ⟨_, refreshedDocument_obj harray accessToken hpos habs hiso, ?_⟩
  cases hnested : nestedToken? raw with
  | some nested =>
    rw [hnested, Option.getD_some, Option.bind_some] at hrefresh
    have hread := nestedToken?_nested raw (nested ++ refreshPatch accessToken (.str iso))
    have houter : FieldsKept [js "token"] raw (Json.reparsed.fields (raw ++
        [(js "token", .obj (nested ++ refreshPatch accessToken (.str iso)))])) :=
      fieldsKept_of_get? fun k hk => by rw [Obj.get?_singleton, if_neg (List.ne_of_not_mem_cons hk)]
    have hinner : FieldsKept [js "access_token", js "expiry"] nested
        (refreshedFields nested accessToken (.str iso)) := refreshedFields_kept nested (.str iso)
    constructor
    · rw [normalizeStoredToken_refreshed other stack now' _ nested htoken htext (by rw [hread]; rfl), hread,
        hinner.stringField hkeys, Option.bind_some, houter.stringField (by decide), hrefresh]
    · unfold DocumentKept
      rw [hnested]
      exact ⟨houter, _, hread, hinner⟩
  | none =>
    rw [hnested, Option.getD_none, Option.bind_none, Option.or_none] at hrefresh
    have hread : nestedToken? (Json.reparsed.fields (raw ++ refreshPatch accessToken (.num (.fin t)))) = none := by
      rw [nestedToken?_written rfl, hnested, Option.map_none]
    have hkept : FieldsKept [js "access_token", js "expiry"] raw
        (refreshedFields raw accessToken (.num (.fin t))) := refreshedFields_kept raw (.num (.fin t))
    constructor
    · rw [normalizeStoredToken_refreshed other stack now' _ raw htoken hnumber (by rw [hread]; rfl), hread,
        hkept.stringField hkeys, Option.bind_none, Option.or_none, hrefresh]
    · unfold DocumentKept
      rw [hnested]
      exact hkept

/-- **Token file**: after a refresh the reader finds the new token and expiry beside the same refresh token,
and every other field is kept. -/
theorem persistRefreshedToken_readBack {stack now : ℕ} (now' : ℕ) (homedir : JsString)
    (keychain : Option StoredToken) {files : TokenFiles} {account : TokenAccount} (hisolated : account.Isolated)
    (hfile : files account.dir = .doc (.obj raw))
    (haccepted : normalizeStoredToken other stack now raw = .ok (some tok))
    (harray : ∀ elems, Obj.get? raw (js "token") ≠ some (.arr elems)) (htoken : accessToken ≠ [])
    (hmillis : 100000000000 ≤ t) (hrange : t ≤ MAX_TIME) :
    ∃ raw' : Obj,
      persistRefreshedToken homedir true files account accessToken (some (.fin t)) =
        Function.update files account.dir (.doc (.obj raw')) ∧
      getStoredToken homedir keychain other stack now'
        (persistRefreshedToken homedir true files account accessToken (some (.fin t))) account =
          some ⟨some accessToken, tok.refreshToken, some (.fin t)⟩ ∧
      DocumentKept raw raw' := by
  obtain ⟨o, hdocument, hback⟩ := refreshedDocument_readsBack other now' haccepted harray htoken hmillis hrange
  have hwritten : persistRefreshedToken homedir true files account accessToken (some (.fin t)) =
      Function.update files account.dir (.doc (.obj (Json.reparsed.fields o))) := by
    unfold persistRefreshedToken
    dsimp only
    rw [hisolated.home, hfile]
    dsimp only
    rw [hdocument]
    dsimp only
    rw [if_pos rfl, Json.reparsed]
  have husable : StoredToken.usable ⟨some accessToken, tok.refreshToken, some (.fin t)⟩ = true := by
    unfold StoredToken.usable truthy?
    rw [Option.filter_some, List.isEmpty_eq_false_iff.mpr htoken]
    rfl
  refine ⟨_, hwritten, ?_, hback.kept⟩
  unfold getStoredToken
  dsimp only
  rw [hwritten, hisolated.home, hisolated.shared, Function.update_self, if_neg Bool.false_ne_true]
  unfold diskToken
  dsimp only
  rw [hback.token]
  dsimp only
  rw [Option.filter_some, husable, if_pos rfl]

end ReadBack

/-- A nested document with seconds in `expires_in` and the refresh token outside. -/
def storedDocument : Obj :=
  [(js "token", .obj [(js "accessToken", .str (js "old")), (js "expires_in", .num (.fin 3599))]),
    (js "refresh_token", .str (js "r")), (js "email", .str (js "a@b.c"))]

theorem persistRefreshedToken_readBack_nested :
    let files : TokenFiles := fun _ => .doc (.obj storedDocument)
    let account : TokenAccount := ⟨js "/pool/acc_1", false⟩
    account.Isolated ∧
      normalizeStoredToken (fun _ => none) 100 1700000000000 storedDocument =
        .ok (some ⟨some (js "old"), some (js "r"), some (.fin 1700003599000)⟩) ∧
      ∃ raw' : Obj,
        persistRefreshedToken (js "/root") true files account (js "new") (some (.fin (1700007199000 : ℤ))) =
          Function.update files account.dir (.doc (.obj raw')) ∧
        getStoredToken (js "/root") none (fun _ => none) 100 1700003600000
          (persistRefreshedToken (js "/root") true files account (js "new") (some (.fin (1700007199000 : ℤ))))
          account = some ⟨some (js "new"), some (js "r"), some (.fin (1700007199000 : ℤ))⟩ ∧
        DocumentKept storedDocument raw' := by
  have haccepted : normalizeStoredToken (fun _ => none) 100 1700000000000 storedDocument =
      .ok (some ⟨some (js "old"), some (js "r"), some (.fin 1700003599000)⟩) := by
    decide +kernel
  exact ⟨by decide, haccepted, persistRefreshedToken_readBack _ _ _ _ (by decide) rfl haccepted
    (fun elems h => nomatch h) (by decide) (by decide) (by decide)⟩

/-- What is read of `{"access_token":"old","limit":1e999}`. -/
def infiniteDocument : Obj := [(js "access_token", .str (js "old")), (js "limit", .num (.inf false))]

/-- The limit comes back as null. -/
theorem infinite_field_lost :
    let account : TokenAccount := ⟨js "/pool/acc_1", false⟩
    Json.parse (js "1e999") = Obj.get? infiniteDocument (js "limit") ∧
      normalizeStoredToken (fun _ => none) 100 1700000000000 infiniteDocument =
        .ok (some ⟨some (js "old"), none, none⟩) ∧
      ∃ raw' : Obj,
        persistRefreshedToken (js "/root") true (fun _ => .doc (.obj infiniteDocument)) account (js "new")
          (some (.fin (1700007199000 : ℤ))) account.dir = .doc (.obj raw') ∧
        Obj.get? raw' (js "limit") = some .null ∧
        Obj.get? infiniteDocument (js "limit") ≠ Obj.get? raw' (js "limit") := by
  have hrange : |(1700007199000 : ℤ)| ≤ MAX_TIME := by decide
  have harray : ∀ elems, Obj.get? infiniteDocument (js "token") ≠ some (.arr elems) := fun _ h => nomatch h
  obtain ⟨iso, hiso⟩ := toISOString_isSome hrange
  have hdocument := refreshedDocument_obj harray (js "new") (by decide) hrange hiso
  refine ⟨rfl, by decide +kernel, refreshedFields infiniteDocument (js "new") (.num (.fin (1700007199000 : ℤ))), ?_,
    rfl, fun h => nomatch h⟩
  unfold persistRefreshedToken
  dsimp only
  rw [hdocument]
  rfl

end AgyProxy
