import AgyProxy.Common.Config
import Mathlib.Logic.Function.Basic

/-!
# AgyProxy.Common.ConfigMemo — the two memos of the configuration read (`src/common/config.ts`)

* `readOverridesWithStat`: the overrides file, memoized on path, mtime and size.
* `resolveConfig`: the layering below the environment, memoized on the same key.
* `writeOverridesPatch` (`src/server/settings.ts`): the settings write, which drops both memos once the file is renamed.
* `MemoAction`: these calls, and a change of a file by anyone.
-/

namespace AgyProxy

open Js

structure FileStat where
  mtimeMs : ℚ
  size : ℕ
deriving DecidableEq

inductive FileContent
  | missing
  | corrupt
  | parsed (v : Json)

/-- What `statSync` and a read of the file find; they need not agree. -/
structure OverridesFile where
  st : Option FileStat
  content : FileContent

/-- Path, mtime and size; the key text of `resolveConfig` is one to one with them. -/
structure StatKey where
  file : JsString
  st : FileStat
deriving DecidableEq

structure OverridesRead where
  st : Option FileStat
  parsed : Bool
  data : Obj

/-- The files and the module's two memos. -/
structure ConfigMemo where
  files : JsString → OverridesFile
  overridesCache : Option (StatKey × Obj)
  baseCache : Option (StatKey × GatewayConfig)

namespace ConfigMemo

variable (s : ConfigMemo)

def invalidateOverridesCache : ConfigMemo := { s with overridesCache := none, baseCache := none }

/-- The read of the file itself, after the stat. -/
def readFresh (file : JsString) (st : Option FileStat) : ConfigMemo × OverridesRead :=
  match (s.files file).content with
  | .corrupt => (s, ⟨st, false, []⟩)
  | .missing =>
    ({ s with overridesCache := (st.map fun st => (⟨file, st⟩, [])).or s.overridesCache }, ⟨st, true, []⟩)
  | .parsed v =>
    let data := AgyProxy.readOverrides (some v)
    ({ s with overridesCache := (st.map fun st => (⟨file, st⟩, data)).or s.overridesCache }, ⟨st, true, data⟩)

def readOverridesWithStat (file : JsString) : ConfigMemo × OverridesRead :=
  match (s.files file).st with
  | none => readFresh { s with overridesCache := none } file none
  | some st =>
    match s.overridesCache with
    | some (key, data) => if key = ⟨file, st⟩ then (s, ⟨some st, true, data⟩) else s.readFresh file (some st)
    | none => s.readFresh file (some st)

def resolveConfig (env : ProcessEnv) (file : JsString) : ConfigMemo × GatewayConfig :=
  let read := s.readOverridesWithStat file
  let s := read.1
  let rd := read.2
  match rd.st, rd.parsed with
  | some st, true =>
    let key : StatKey := ⟨file, st⟩
    match s.baseCache.filter fun cached => decide (cached.1 = key) with
    | some cached => (s, finishConfig env cached.2)
    | none =>
      let base := buildBase rd.data
      ({ s with baseCache := some (key, base) }, finishConfig env base)
  | _, _ => (s, finishConfig env (buildBase rd.data))

/-- What becomes of a settings write: the file is replaced, or nothing is. -/
inductive WriteOutcome
  | renamed (st : Option FileStat)
  | failed

def writeOverridesPatch (patch : Obj) (file : JsString) (outcome : WriteOutcome) : ConfigMemo :=
  if patch = [] then s
  else
    let read := s.readOverridesWithStat file
    match outcome with
    | .failed => read.1
    | .renamed st =>
      let written : OverridesFile := ⟨st, .parsed (Json.reparsed (.obj (read.2.data ++ patch)))⟩
      { read.1 with files := Function.update read.1.files file written }.invalidateOverridesCache

end ConfigMemo

/-! ### Actions -/

inductive MemoAction
  /-- someone changes a file -/
  | edit (file : JsString) (now : OverridesFile)
  /-- `readOverrides(file)` -/
  | read (file : JsString)
  /-- `resolveConfig(env)`, with the path of the overrides then -/
  | resolve (env : ProcessEnv) (file : JsString)
  | write (patch : Obj) (file : JsString) (outcome : ConfigMemo.WriteOutcome)

end AgyProxy
