import AgyProxy.Lib.Resume
import AgyProxy.Server.AdminSession
import AgyProxy.Server.KeyStore

/-!
# AgyProxy.Server.Db — the database at boot (`src/server/db.ts`)

* `Db`: what a file holds as far as the migrations see it: the tables with the columns that were added later, and the
  shown prefixes of the keys.
* `openDb`: the statements that bring a file to the schema of this version, each of which SQLite does whole or not at
  all; `openDbCut`: a boot that ends after some of them.

Rows are taken with the columns the migrations touch and one that tells them apart.
-/

namespace AgyProxy

open Js Lib

structure ApiKeyDbRow where
  id : JsString
  shownPrefix : JsString
  /-- `NULL` also while there is no such column -/
  secretEnc : Option JsString
deriving DecidableEq

structure ApiKeysTable where
  /-- the column `secret_enc` -/
  hasSecretEnc : Bool
  rows : List ApiKeyDbRow
deriving DecidableEq

structure UsageDbRow where
  requestId : JsString
  errorText : Option JsString
deriving DecidableEq

structure UsageDbTable where
  /-- the column `error_text` -/
  hasErrorText : Bool
  rows : List UsageDbRow
deriving DecidableEq

structure Db where
  /-- `PRAGMA user_version` -/
  userVersion : ℕ
  apiKeys : Option ApiKeysTable
  usage : Option UsageDbTable
  idxUsageKeyTime : Bool
  idxUsageTime : Bool
  adminSessions : Option (List AdminSessionRow)
  adminSettings : Option (List (JsString × JsString))
deriving DecidableEq

def SCHEMA_VERSION : ℕ := 3

/-- `prefix LIKE 'sk-agy-_%'`, where the case of ASCII letters does not matter. -/
def markedPrefix (shownPrefix : JsString) : Bool :=
  (shownPrefix.take KEY_MARK.length).map upperUnit = KEY_MARK.map upperUnit && KEY_MARK.length < shownPrefix.length

/-- `substr(prefix, …)` where the prefix is marked. -/
def ApiKeyDbRow.unmarked (r : ApiKeyDbRow) : ApiKeyDbRow :=
  if markedPrefix r.shownPrefix then { r with shownPrefix := r.shownPrefix.drop KEY_MARK.length } else r

namespace Db

/-- `CREATE TABLE IF NOT EXISTS`. -/
def createApiKeys (db : Db) : Db := { db with apiKeys := some (db.apiKeys.getD ⟨true, []⟩) }

def createUsage (db : Db) : Db := { db with usage := some (db.usage.getD ⟨false, []⟩) }

def createIdxUsageKeyTime (db : Db) : Db := { db with idxUsageKeyTime := true }

def createIdxUsageTime (db : Db) : Db := { db with idxUsageTime := true }

def createAdminSessions (db : Db) : Db := { db with adminSessions := some (db.adminSessions.getD []) }

def createAdminSettings (db : Db) : Db := { db with adminSettings := some (db.adminSettings.getD []) }

def migrateUsageErrorText (db : Db) : Db :=
  { db with usage := db.usage.map fun t => if t.hasErrorText then t else { t with hasErrorText := true } }

def migrateKeyPrefixMarker (db : Db) : Db :=
  { db with apiKeys := db.apiKeys.map fun t => { t with rows := t.rows.map ApiKeyDbRow.unmarked } }

def migrateKeySecretEnc (db : Db) : Db :=
  { db with apiKeys := db.apiKeys.map fun t => if t.hasSecretEnc then t else { t with hasSecretEnc := true } }

def setUserVersion (db : Db) : Db := { db with userVersion := SCHEMA_VERSION }

/-- The statements of a boot, in order. -/
def statements : List (Db → Db) :=
  [createApiKeys, createUsage, createIdxUsageKeyTime, createIdxUsageTime, createAdminSessions, createAdminSettings,
    migrateUsageErrorText, migrateKeyPrefixMarker, migrateKeySecretEnc, setUserVersion]

/-- A boot that gets through the first `k` statements. -/
def openDbCut (k : ℕ) (db : Db) : Db :=
  if db.userVersion < SCHEMA_VERSION then (statements.take k).foldl (fun db f => f db) db else db

def openDb (db : Db) : Db :=
  if db.userVersion < SCHEMA_VERSION then statements.foldl (fun db f => f db) db else db

end Db

end AgyProxy
