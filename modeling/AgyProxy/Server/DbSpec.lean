import AgyProxy.Server.Db

/-!
# AgyProxy.Server.DbSpec — boots that are cut short

* `tasks`: the statements, each with what it establishes.
* `migrations_converge`: **any number of boots that were cut short** leave a file that the next whole boot brings to
  where it would have brought the first one.

Prefixes are taken as short as every version wrote them.
-/

namespace AgyProxy

open Js Lib

/-- A prefix that is marked once at most. -/
def ShortPrefixes (db : Db) : Prop := ∀ t ∈ db.apiKeys, ∀ r ∈ t.rows, r.shownPrefix.length < 2 * KEY_MARK.length + 1

theorem markedPrefix_length {p : JsString} (h : markedPrefix p = true) : KEY_MARK.length < p.length := by
  simp only [markedPrefix, Bool.and_eq_true, decide_eq_true_eq] at h
  exact h.2

theorem unmarked_length (r : ApiKeyDbRow) : r.unmarked.shownPrefix.length ≤ r.shownPrefix.length := by
  unfold ApiKeyDbRow.unmarked
  split
  · exact (List.drop_sublist _ _).length_le
  · exact Nat.le_refl _

/-- A short prefix is not marked a second time. -/
theorem not_marked_unmarked {r : ApiKeyDbRow} (h : r.shownPrefix.length < 2 * KEY_MARK.length + 1) :
    markedPrefix r.unmarked.shownPrefix = false := by
  unfold ApiKeyDbRow.unmarked
  split
  · refine Bool.eq_false_of_not_eq_true fun hmarked => ?_
    have hlong := markedPrefix_length hmarked
    rw [List.length_drop] at hlong
    omega
  · next hno => exact Bool.eq_false_of_not_eq_true hno

theorem unmarked_of_not_marked {r : ApiKeyDbRow} (h : markedPrefix r.shownPrefix = false) : r.unmarked = r := by
  unfold ApiKeyDbRow.unmarked
  rw [h, if_neg Bool.false_ne_true]

/-- The prefix of a key is short. -/
theorem prefixOf_short (plaintext : JsString) : (prefixOf plaintext).length < 2 * KEY_MARK.length + 1 := by
  have htake : (prefixOf plaintext).length ≤ 8 := by
    unfold prefixOf
    rw [List.length_take]
    exact Nat.min_le_left _ _
  have hmark : KEY_MARK.length = 7 := by decide
  omega

/-- New keys leave the prefixes short. -/
theorem ShortPrefixes.insert {db : Db} {t : ApiKeysTable} (h : ShortPrefixes db) (ht : db.apiKeys = some t)
    (id plaintext : JsString) (secretEnc : Option JsString) :
    ShortPrefixes { db with apiKeys := some { t with rows := t.rows ++ [⟨id, prefixOf plaintext, secretEnc⟩] } } := by
  intro u hu r hr
  obtain rfl := Option.some.inj hu
  rcases List.mem_append.mp hr with hold | hnew
  · exact h t ht r hold
  · rw [List.mem_singleton.mp hnew]
    exact prefixOf_short plaintext

namespace Db

variable {db : Db}

/-- The keys of a file. -/
def keys (db : Db) : List ApiKeyDbRow := (db.apiKeys.map ApiKeysTable.rows).getD []

/-- The statements with what they establish. -/
def tasks : List (Redoable Db) :=
  [⟨createApiKeys, fun db => db.apiKeys.isSome = true, by
      rintro ⟨v, _ | t, u, i, j, a, b⟩ h
      · exact absurd h Bool.false_ne_true
      · rfl⟩,
    ⟨createUsage, fun db => db.usage.isSome = true, by
      rintro ⟨v, k, _ | t, i, j, a, b⟩ h
      · exact absurd h Bool.false_ne_true
      · rfl⟩,
    ⟨createIdxUsageKeyTime, fun db => db.idxUsageKeyTime = true, by
      rintro ⟨v, k, u, i, j, a, b⟩ rfl
      rfl⟩,
    ⟨createIdxUsageTime, fun db => db.idxUsageTime = true, by
      rintro ⟨v, k, u, i, j, a, b⟩ rfl
      rfl⟩,
    ⟨createAdminSessions, fun db => db.adminSessions.isSome = true, by
      rintro ⟨v, k, u, i, j, _ | a, b⟩ h
      · exact absurd h Bool.false_ne_true
      · rfl⟩,
    ⟨createAdminSettings, fun db => db.adminSettings.isSome = true, by
      rintro ⟨v, k, u, i, j, a, _ | b⟩ h
      · exact absurd h Bool.false_ne_true
      · rfl⟩,
    ⟨migrateUsageErrorText, fun db => ∃ t, db.usage = some t ∧ t.hasErrorText = true, by
      rintro ⟨v, k, u, i, j, a, b⟩ ⟨t, rfl, h⟩
      simp [migrateUsageErrorText, h]⟩,
    ⟨migrateKeyPrefixMarker, fun db => ∃ t, db.apiKeys = some t ∧ ∀ r ∈ t.rows, markedPrefix r.shownPrefix = false, by
      rintro ⟨v, k, u, i, j, a, b⟩ ⟨t, rfl, h⟩
      have hrows : t.rows.map ApiKeyDbRow.unmarked = t.rows := by
        conv_rhs => rw [← List.map_id t.rows]
        exact List.map_congr_left fun r hr => unmarked_of_not_marked (h r hr)
      simp [migrateKeyPrefixMarker, hrows]⟩,
    ⟨migrateKeySecretEnc, fun db => ∃ t, db.apiKeys = some t ∧ t.hasSecretEnc = true, by
      rintro ⟨v, k, u, i, j, a, b⟩ ⟨t, rfl, h⟩
      simp [migrateKeySecretEnc, h]⟩,
    ⟨setUserVersion, fun db => db.userVersion = SCHEMA_VERSION, by
      rintro ⟨v, k, u, i, j, a, b⟩ rfl
      rfl⟩]

theorem tasks_run : tasks.map Redoable.run = statements := rfl

theorem forall_tasks {P : Redoable Db → Prop} (h : tasks.Forall P) : ∀ t ∈ tasks, P t := List.forall_iff_forall_mem.mp h

theorem createApiKeys_of_some {t : ApiKeysTable} (h : db.apiKeys = some t) :
    (createApiKeys db).apiKeys = some t := by
  unfold createApiKeys
  rw [h, Option.getD_some]

/-- The table with the column, and the rows it had. -/
theorem migrateKeySecretEnc_of_some {t : ApiKeysTable} (h : db.apiKeys = some t) :
    ∃ u, (migrateKeySecretEnc db).apiKeys = some u ∧ u.hasSecretEnc = true ∧ u.rows = t.rows := by
  refine ⟨if t.hasSecretEnc then t else { t with hasSecretEnc := true }, congrArg (Option.map _) h, ?_⟩
  by_cases hcolumn : t.hasSecretEnc = true
  · rw [if_pos hcolumn]
    exact ⟨hcolumn, rfl⟩
  · rw [if_neg hcolumn]
    exact ⟨rfl, rfl⟩

theorem tasks_keep : ∀ t ∈ tasks, ∀ db, ShortPrefixes db → ShortPrefixes (t.run db) := by
  refine forall_tasks ⟨?_, fun _ h => h, fun _ h => h, fun _ h => h, fun _ h => h, fun _ h => h, fun _ h => h, ?_, ?_,
    fun _ h => h⟩
  · rintro ⟨v, _ | k, u, i, j, a, b⟩ h t ht r hr
    · obtain rfl := Option.some.inj ht
      exact absurd hr List.not_mem_nil
    · exact h t ht r hr
  · rintro ⟨v, _ | k, u, i, j, a, b⟩ h t ht r hr
    · exact absurd ht (Option.not_mem_none t)
    · obtain rfl := Option.some.inj ht
      obtain ⟨old, hold, rfl⟩ := List.mem_map.mp hr
      exact (unmarked_length old).trans_lt (h k rfl old hold)
  · intro db h t ht r hr
    cases hkeys : db.apiKeys with
    | none => exact nomatch (congrArg (Option.map _) hkeys).symm.trans ht
    | some k =>
      obtain ⟨u, hu, -, hrows⟩ := migrateKeySecretEnc_of_some hkeys
      obtain rfl := Option.some.inj (hu.symm.trans ht)
      exact h k hkeys r (hrows ▸ hr)

theorem tasks_do : Does ShortPrefixes tasks := by
  refine ⟨fun _ _ => rfl, fun _ _ => rfl, fun _ _ => rfl, fun _ _ => rfl, fun _ _ => rfl, fun _ _ => rfl, ?_, ?_, ?_,
    fun _ _ => rfl, trivial⟩
  · rintro db ⟨⟨⟨⟨⟨_, husage⟩, _⟩, _⟩, _⟩, _⟩
    obtain ⟨t, ht⟩ := Option.isSome_iff_exists.mp husage
    refine ⟨if t.hasErrorText then t else { t with hasErrorText := true }, congrArg (Option.map _) ht, ?_⟩
    by_cases h : t.hasErrorText = true <;> simp [h]
  · rintro db ⟨⟨⟨⟨⟨⟨⟨hshort, hkeys⟩, _⟩, _⟩, _⟩, _⟩, _⟩, _⟩
    obtain ⟨t, ht⟩ := Option.isSome_iff_exists.mp hkeys
    refine ⟨{ t with rows := t.rows.map ApiKeyDbRow.unmarked }, congrArg (Option.map _) ht, fun r hr => ?_⟩
    obtain ⟨old, hold, rfl⟩ := List.mem_map.mp hr
    exact not_marked_unmarked (hshort t ht old hold)
  · rintro db ⟨⟨⟨⟨⟨⟨⟨⟨_, hkeys⟩, _⟩, _⟩, _⟩, _⟩, _⟩, _⟩, _⟩
    obtain ⟨t, ht⟩ := Option.isSome_iff_exists.mp hkeys
    obtain ⟨u, hu, hcolumn, -⟩ := migrateKeySecretEnc_of_some ht
    exact ⟨u, hu, hcolumn⟩

/-- No statement undoes what another established: either they have to do with different things, or the second only
adds to what there is. -/
theorem tasks_stay : ∀ t ∈ tasks, ∀ u ∈ tasks, ∀ db, t.done db → t.done (u.run db) := by
  refine forall_tasks ⟨?_, ?_, ?_, ?_, ?_, ?_, ?_, ?_, ?_, ?_⟩
  · refine forall_tasks ⟨fun _ _ => rfl, fun _ h => h, fun _ h => h, fun _ h => h, fun _ h => h, fun _ h => h,
      fun _ h => h, fun _ h => ?_, fun _ h => ?_, fun _ h => h⟩
    · exact Option.isSome_map.trans h
    · exact Option.isSome_map.trans h
  · refine forall_tasks ⟨fun _ h => h, fun _ _ => rfl, fun _ h => h, fun _ h => h, fun _ h => h, fun _ h => h,
      fun _ h => ?_, fun _ h => h, fun _ h => h, fun _ h => h⟩
    exact Option.isSome_map.trans h
  · exact forall_tasks ⟨fun _ h => h, fun _ h => h, fun _ _ => rfl, fun _ h => h, fun _ h => h, fun _ h => h,
      fun _ h => h, fun _ h => h, fun _ h => h, fun _ h => h⟩
  · exact forall_tasks ⟨fun _ h => h, fun _ h => h, fun _ h => h, fun _ _ => rfl, fun _ h => h, fun _ h => h,
      fun _ h => h, fun _ h => h, fun _ h => h, fun _ h => h⟩
  · exact forall_tasks ⟨fun _ h => h, fun _ h => h, fun _ h => h, fun _ h => h, fun _ _ => rfl, fun _ h => h,
      fun _ h => h, fun _ h => h, fun _ h => h, fun _ h => h⟩
  · exact forall_tasks ⟨fun _ h => h, fun _ h => h, fun _ h => h, fun _ h => h, fun _ h => h, fun _ _ => rfl,
      fun _ h => h, fun _ h => h, fun _ h => h, fun _ h => h⟩
  · refine forall_tasks ⟨fun _ h => h, ?_, fun _ h => h, fun _ h => h, fun _ h => h, fun _ h => h,
      fun _ h => Redoable.again _ h, fun _ h => h, fun _ h => h, fun _ h => h⟩
    rintro db ⟨t, ht, h⟩
    exact ⟨t, by simp [createUsage, ht], h⟩
  · refine forall_tasks ⟨?_, fun _ h => h, fun _ h => h, fun _ h => h, fun _ h => h, fun _ h => h,
      fun _ h => h, fun _ h => Redoable.again _ h, ?_, fun _ h => h⟩
    · rintro db ⟨t, ht, h⟩
      exact ⟨t, createApiKeys_of_some ht, h⟩
    · rintro db ⟨t, ht, h⟩
      obtain ⟨u, hu, -, hrows⟩ := migrateKeySecretEnc_of_some ht
      exact ⟨u, hu, hrows ▸ h⟩
  · refine forall_tasks ⟨?_, fun _ h => h, fun _ h => h, fun _ h => h, fun _ h => h, fun _ h => h,
      fun _ h => h, ?_, fun _ h => Redoable.again _ h, fun _ h => h⟩
    · rintro db ⟨t, ht, h⟩
      exact ⟨t, createApiKeys_of_some ht, h⟩
    · rintro db ⟨t, ht, h⟩
      exact ⟨_, congrArg (Option.map _) ht, h⟩
  · exact forall_tasks ⟨fun _ h => h, fun _ h => h, fun _ h => h, fun _ h => h, fun _ h => h, fun _ h => h,
      fun _ h => h, fun _ h => h, fun _ h => h, fun _ _ => rfl⟩

theorem tasks_steady : Steady ShortPrefixes tasks := ⟨tasks_keep, tasks_do, tasks_stay⟩

/-! ### Boots -/

theorem statements_run (k : ℕ) (db : Db) :
    (statements.take k).foldl (fun db f => f db) db = runAll (tasks.take k) db := by
  rw [← tasks_run, ← List.map_take, List.foldl_map]
  rfl

theorem openDb_eq (h : db.userVersion < SCHEMA_VERSION) : openDb db = runAll tasks db := by
  unfold openDb
  rw [if_pos h, ← List.take_length (l := statements), statements_run]
  rfl

/-- The version is written last. -/
theorem userVersion_taken {k : ℕ} (hk : k < 10) (db : Db) :
    (runAll (tasks.take k) db).userVersion = db.userVersion := by
  have hsame : ∀ t ∈ tasks.take 9, ∀ d : Db, d.userVersion = db.userVersion → (t.run d).userVersion = db.userVersion :=
    List.forall_iff_forall_mem.mp ⟨fun _ h => h, fun _ h => h, fun _ h => h, fun _ h => h, fun _ h => h, fun _ h => h,
      fun _ h => h, fun _ h => h, fun _ h => h⟩
  refine runAll_keeps (P := fun d => d.userVersion = db.userVersion) (fun t ht => hsame t ?_) rfl
  have hsub : tasks.take k = (tasks.take 9).take k := by
    rw [List.take_take, Nat.min_eq_left (Nat.le_of_lt_succ hk)]
  exact List.mem_of_mem_take (hsub ▸ ht)

/-- A boot that was cut short leaves the next one the same work. -/
theorem openDb_cut (hshort : ShortPrefixes db) (k : ℕ) :
    ShortPrefixes (openDbCut k db) ∧ openDb (openDbCut k db) = openDb db := by
  by_cases h : db.userVersion < SCHEMA_VERSION
  · have hcut : openDbCut k db = runAll (tasks.take k) db := by
      unfold openDbCut
      rw [if_pos h, statements_run]
    have hkeeps : ShortPrefixes (runAll (tasks.take k) db) :=
      runAll_keeps (fun t ht => tasks_keep t (List.mem_of_mem_take ht)) hshort
    rw [hcut]
    refine ⟨hkeeps, ?_⟩
    by_cases hagain : (runAll (tasks.take k) db).userVersion < SCHEMA_VERSION
    · rw [openDb_eq hagain, openDb_eq h, tasks_steady.runAll_taken hshort]
    · -- only the last statement was left, and it was done too
      have hall : tasks.take k = tasks := by
        refine List.take_of_length_le (Nat.le_of_not_lt fun hk => hagain ?_)
        rw [userVersion_taken hk]
        exact h
      have hopen : openDb (runAll (tasks.take k) db) = runAll (tasks.take k) db := if_neg hagain
      rw [hopen, hall, openDb_eq h]
  · have hcut : openDbCut k db = db := if_neg h
    rw [hcut]
    exact ⟨hshort, rfl⟩

theorem apiKeys_runAll (db : Db) :
    (runAll tasks db).apiKeys = some ⟨true, (keys db).map ApiKeyDbRow.unmarked⟩ := by
  obtain ⟨v, k, u, i, j, a, b⟩ := db
  cases k with
  | none => rfl
  | some t =>
    obtain ⟨column, rows⟩ := t
    cases column <;> rfl

/-- **Interrupted migrations converge**: however many boots end after however many statements, the next whole boot
leaves the file that a whole boot of the first one would have left: with every table and column, the keys in their
order with at most their mark gone, and nothing left to do. -/
theorem migrations_converge (hshort : ShortPrefixes db) (cuts : List ℕ) :
    openDb (cuts.foldl (fun db k => openDbCut k db) db) = openDb db ∧
    (db.userVersion < SCHEMA_VERSION →
      (openDb db).userVersion = SCHEMA_VERSION ∧
      (openDb db).apiKeys = some ⟨true, (keys db).map ApiKeyDbRow.unmarked⟩ ∧
      (∀ r ∈ keys (openDb db), markedPrefix r.shownPrefix = false) ∧
      (∃ t, (openDb db).usage = some t ∧ t.hasErrorText = true) ∧
      (openDb db).adminSessions.isSome = true ∧ (openDb db).adminSettings.isSome = true) ∧
    openDb (openDb db) = openDb db := by
  refine ⟨?_, fun h => ?_, ?_⟩
  · induction cuts generalizing db with
    | nil => rfl
    | cons k cuts ih =>
      obtain ⟨hstill, heq⟩ := openDb_cut hshort k
      exact (ih hstill).trans heq
  · have hdone : ∀ t ∈ tasks, t.done (runAll tasks db) := tasks_steady.done_all hshort
    obtain ⟨-, -, -, -, hsessions, hsettings, herror, hmark, -, hversion⟩ := List.forall_iff_forall_mem.mpr hdone
    rw [openDb_eq h]
    refine ⟨hversion, apiKeys_runAll db, fun r hr => ?_, herror, hsessions, hsettings⟩
    obtain ⟨t, ht, hrows⟩ := hmark
    unfold keys at hr
    rw [ht] at hr
    exact hrows r hr
  · by_cases h : db.userVersion < SCHEMA_VERSION
    · obtain ⟨-, hagain⟩ := openDb_cut hshort statements.length
      have hwhole : openDbCut statements.length db = openDb db := by
        unfold openDbCut openDb
        rw [List.take_length]
      rw [← hwhole]
      exact hagain.trans hwhole.symm
    · have hopen : openDb db = db := if_neg h
      rw [hopen, hopen]

/-- The file of an old gateway: a key whose prefix shows the mark, and none of the later columns. -/
def oldFile : Db :=
  ⟨1, some ⟨false, [⟨js "k1", js "sk-agy-x", none⟩]⟩, some ⟨false, []⟩, true, true, some [], some []⟩

/-- Cut in front of the version, in front of the marks, and twice more. -/
theorem migrations_converge_oldFile :
    openDb ([9, 7, 0, 8].foldl (fun db k => openDbCut k db) oldFile) =
      ⟨3, some ⟨true, [⟨js "k1", js "x", none⟩]⟩, some ⟨true, []⟩, true, true, some [], some []⟩ := by
  have hshort : ShortPrefixes oldFile := by
    rintro t ht r hr
    obtain rfl := Option.some.inj ht
    rw [List.mem_singleton.mp hr]
    decide
  exact (migrations_converge hshort [9, 7, 0, 8]).1.trans (by decide +kernel)

end Db

end AgyProxy
