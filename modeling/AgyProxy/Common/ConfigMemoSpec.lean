import AgyProxy.Common.ConfigMemo
import AgyProxy.Lib.Machine

/-!
# AgyProxy.Common.ConfigMemoSpec — when a resolved configuration is that of the overrides just read

* `memoStep`: the calls in any order, with the reads of the resolves as history.
* `Coherent`: a resolve returns what its own read and its environment give; `SameStretch`: its read agrees with
  the one that opened the stretch of resolves under the same stat key.
* `resolveConfig_coherent_iff`: over a run the two are one.
* `coherent_of_told`: they hold when a stat key stands for one content.
-/

namespace AgyProxy

open Js Lib

/-! ### Runs -/

/-- The memos, and what the resolves read under a stat key since the memos were last dropped, newest first. -/
structure MemoRun where
  memo : ConfigMemo
  reads : List (StatKey × Obj)

/-- The key a read can be memoized under. -/
def OverridesRead.key? (rd : OverridesRead) (file : JsString) : Option StatKey :=
  if rd.parsed then rd.st.map fun st => ⟨file, st⟩ else none

def memoStep (r : MemoRun) : MemoAction → Option MemoRun
  | .edit file now => some { r with memo := { r.memo with files := Function.update r.memo.files file now } }
  | .read file => some { r with memo := (r.memo.readOverridesWithStat file).1 }
  | .resolve env file =>
    let rd := (r.memo.readOverridesWithStat file).2
    some ⟨(r.memo.resolveConfig env file).1, ((rd.key? file).map fun key => (key, rd.data)).toList ++ r.reads⟩
  | .write patch file outcome =>
    let reads := match outcome with
      | .renamed _ => if patch = [] then r.reads else []
      | .failed => r.reads
    some ⟨r.memo.writeOverridesPatch patch file outcome, reads⟩

/-- A process that has just started, over some files. -/
def MemoRun.init (files : JsString → OverridesFile) : MemoRun := ⟨⟨files, none, none⟩, []⟩

/-! ### Coherence -/

/-- A resolve returns what the data of its own read and its environment give. -/
def Coherent (r : MemoRun) : MemoAction → Prop
  | .resolve env file =>
    (r.memo.resolveConfig env file).2 = resolveConfig env (r.memo.readOverridesWithStat file).2.data
  | _ => True

/-- The read that opened the unbroken stretch of resolves under the key. -/
def opener (key : StatKey) : List (StatKey × Obj) → Option Obj
  | [] => none
  | (k, data) :: reads => if k = key then some ((opener key reads).getD data) else none

/-- The read of a resolve and the one that opened its stretch give the same configuration. -/
def SameStretch (r : MemoRun) : MemoAction → Prop
  | .resolve env file =>
    let rd := (r.memo.readOverridesWithStat file).2
    ∀ key ∈ rd.key? file, ∀ opened ∈ opener key r.reads, resolveConfig env opened = resolveConfig env rd.data
  | _ => True

/-- The base memo is what the opening read of the last stretch gave. -/
def BaseOfOpener (r : MemoRun) : Prop :=
  r.memo.baseCache = r.reads.head?.map fun last => (last.1, buildBase ((opener last.1 r.reads).getD last.2))

section Coherence

variable {r r' : MemoRun} {s : ConfigMemo} {file : JsString} {env : ProcessEnv}

theorem readFresh_baseCache (st : Option FileStat) : (s.readFresh file st).1.baseCache = s.baseCache := by
  unfold ConfigMemo.readFresh
  cases (s.files file).content with
  | missing => rfl
  | corrupt => rfl
  | parsed v => rfl

/-- A read leaves the base memo. -/
theorem readOverridesWithStat_baseCache : (s.readOverridesWithStat file).1.baseCache = s.baseCache := by
  unfold ConfigMemo.readOverridesWithStat
  cases (s.files file).st with
  | none => exact readFresh_baseCache none
  | some st =>
    cases s.overridesCache with
    | none => exact readFresh_baseCache (some st)
    | some cached =>
      by_cases hkey : cached.1 = ⟨file, st⟩
      · simp only [if_pos hkey]
      · simp only [if_neg hkey]
        exact readFresh_baseCache (some st)

/-- **A resolve**: without a key nothing is memoized; with one, the memo of that key is used, or made. -/
theorem resolveConfig_eq :
    s.resolveConfig env file =
      match (s.readOverridesWithStat file).2.key? file with
      | none => ((s.readOverridesWithStat file).1, resolveConfig env (s.readOverridesWithStat file).2.data)
      | some key =>
        match s.baseCache.filter fun cached => decide (cached.1 = key) with
        | some cached => ((s.readOverridesWithStat file).1, finishConfig env cached.2)
        | none =>
          ({ (s.readOverridesWithStat file).1 with
            baseCache := some (key, buildBase (s.readOverridesWithStat file).2.data) },
            resolveConfig env (s.readOverridesWithStat file).2.data) := by
  unfold ConfigMemo.resolveConfig OverridesRead.key?
  dsimp only
  rw [readOverridesWithStat_baseCache]
  cases (s.readOverridesWithStat file).2.st with
  | none => cases (s.readOverridesWithStat file).2.parsed <;> rfl
  | some st => cases (s.readOverridesWithStat file).2.parsed <;> rfl

/-- Whether the base memo is of a key, and what it then holds. -/
theorem BaseOfOpener.lookup (h : BaseOfOpener r) (key : StatKey) :
    r.memo.baseCache.filter (fun cached => decide (cached.1 = key)) =
      (opener key r.reads).map fun opened => (key, buildBase opened) := by
  rw [h]
  cases hreads : r.reads with
  | nil => rfl
  | cons last reads =>
    by_cases hkey : last.1 = key
    · subst hkey
      simp [opener]
    · simp [opener, hkey]

theorem BaseOfOpener.step {a : MemoAction} (h : BaseOfOpener r) (ha : memoStep r a = some r') : BaseOfOpener r' := by
  cases a with
  | edit file now =>
    rw [← Option.some.inj ha]
    exact h
  | read file =>
    rw [← Option.some.inj ha]
    exact readOverridesWithStat_baseCache.trans h
  | write patch file outcome =>
    rw [← Option.some.inj ha]
    unfold BaseOfOpener ConfigMemo.writeOverridesPatch
    by_cases hpatch : patch = []
    · rw [if_pos hpatch]
      cases outcome with
      | failed => exact h
      | renamed st =>
        rw [if_pos hpatch]
        exact h
    · rw [if_neg hpatch]
      cases outcome with
      | failed => exact readOverridesWithStat_baseCache.trans h
      | renamed st =>
        rw [if_neg hpatch]
        rfl
  | resolve env file =>
    rw [← Option.some.inj ha]
    unfold BaseOfOpener
    dsimp only
    rw [resolveConfig_eq]
    cases hkey : (r.memo.readOverridesWithStat file).2.key? file with
    | none => exact readOverridesWithStat_baseCache.trans h
    | some key =>
      dsimp only
      rw [h.lookup key]
      cases hopener : opener key r.reads with
      | none => simp [opener, hopener]
      | some opened =>
        have hcached := h.lookup key
        rw [hopener] at hcached
        have hbase := (Option.filter_eq_some_iff.mp hcached).1
        show (r.memo.readOverridesWithStat file).1.baseCache = _
        rw [readOverridesWithStat_baseCache, hbase]
        simp [opener, hopener]

/-- **One resolve** is coherent exactly when its read agrees with the opening one. -/
theorem coherent_iff_sameStretch (h : BaseOfOpener r) (a : MemoAction) : Coherent r a ↔ SameStretch r a := by
  cases a with
  | edit file now => exact Iff.rfl
  | read file => exact Iff.rfl
  | write patch file outcome => exact Iff.rfl
  | resolve env file =>
    show (r.memo.resolveConfig env file).2 = _ ↔ ∀ key ∈ _, ∀ opened ∈ opener key r.reads, _
    rw [resolveConfig_eq]
    cases hkey : (r.memo.readOverridesWithStat file).2.key? file with
    | none => exact ⟨fun _ key hmem => (nomatch hmem), fun _ => rfl⟩
    | some key =>
      dsimp only
      rw [h.lookup key]
      constructor
      · intro hcoherent key' hmem opened hopened
        obtain rfl := Option.some.inj hmem
        rw [Option.mem_def.mp hopened] at hcoherent
        exact hcoherent
      · intro hsame
        cases hopener : opener key r.reads with
        | none => rfl
        | some opened => exact hsame key rfl opened hopener

end Coherence

theorem memoStep_total (as : List MemoAction) : ∀ r : MemoRun, ∃ r', exec memoStep r as = some r' := by
  induction as with
  | nil => exact fun r => ⟨r, rfl⟩
  | cons a as ih =>
    intro r
    cases a with
    | edit file now => exact ih _
    | read file => exact ih _
    | resolve env file => exact ih _
    | write patch file outcome => exact ih _

/-- **Coherence over a run**: every resolve returns the configuration of its own read exactly when every read
agrees with the one that opened its stretch. -/
theorem resolveConfig_coherent_iff (files : JsString → OverridesFile) (as : List MemoAction) :
    Every memoStep Coherent (MemoRun.init files) as ↔ Every memoStep SameStretch (MemoRun.init files) as := by
  obtain ⟨r', hrun⟩ := memoStep_total as (MemoRun.init files)
  have hinit : BaseOfOpener (MemoRun.init files) := rfl
  exact every_congr (fun _ _ _ h ha => h.step ha) (fun _ a _ h _ => coherent_iff_sameStretch h a) as _ r' hinit hrun

/-! ### Deleted and made again -/

def overridesFile : JsString := js "/data/gateway/runtime-overrides.json"

/-- The file with one port, of a fixed mtime and size. -/
def portFile (port : ℕ) : OverridesFile :=
  ⟨some ⟨1790000000000, 14⟩, .parsed (.obj [(js "port", .num (.fin port))])⟩

def noFile : OverridesFile := ⟨none, .missing⟩

/-- The file is deleted, a resolve finds it gone, and it is made again with the same mtime and size. -/
def recreated : List MemoAction :=
  [.edit overridesFile (portFile 8081), .resolve (fun _ => none) overridesFile, .edit overridesFile noFile,
    .resolve (fun _ => none) overridesFile, .edit overridesFile (portFile 8082),
    .resolve (fun _ => none) overridesFile]

theorem not_coherent_recreated : ¬ Every memoStep Coherent (MemoRun.init fun _ => noFile) recreated := by
  intro h
  have hlast := (((((h.2 _ rfl).2 _ rfl).2 _ rfl).2 _ rfl).2 _ rfl).1
  exact absurd (congrArg GatewayConfig.port hlast) (by decide +kernel)

/-! ### Stat keys that tell contents apart -/

section Told

variable (told : StatKey → Obj)

/-- The overrides a file gives, unless it is corrupt. -/
def OverridesFile.data? (f : OverridesFile) : Option Obj :=
  match f.content with
  | .missing => some []
  | .corrupt => none
  | .parsed v => some (readOverrides (some v))

/-- What the file holds is what its stat key stands for. -/
def OverridesFile.Told (file : JsString) (f : OverridesFile) : Prop :=
  ∀ st ∈ f.st, ∀ data ∈ f.data?, data = told ⟨file, st⟩

/-- A change of a file keeps to what its stat key stands for. -/
def KeepsTold (r : MemoRun) : MemoAction → Prop
  | .edit file now => now.Told told file
  | .write patch file (.renamed st) =>
    patch ≠ [] → OverridesFile.Told told file
      ⟨st, .parsed (Json.reparsed (.obj ((r.memo.readOverridesWithStat file).2.data ++ patch)))⟩
  | _ => True

/-- Files, memo and history tell the same. -/
structure AllTold (r : MemoRun) : Prop where
  files : ∀ file, (r.memo.files file).Told told file
  cached : ∀ cached ∈ r.memo.overridesCache, cached.2 = told cached.1
  reads : ∀ read ∈ r.reads, read.2 = told read.1

variable {told} {r r' : MemoRun} {s : ConfigMemo} {file : JsString}

theorem files_readFresh (st : Option FileStat) : (s.readFresh file st).1.files = s.files := by
  unfold ConfigMemo.readFresh
  cases (s.files file).content with
  | missing => rfl
  | corrupt => rfl
  | parsed v => rfl

theorem files_readOverridesWithStat : (s.readOverridesWithStat file).1.files = s.files := by
  unfold ConfigMemo.readOverridesWithStat
  cases (s.files file).st with
  | none => exact files_readFresh none
  | some st =>
    cases s.overridesCache with
    | none => exact files_readFresh (some st)
    | some cached =>
      by_cases hkey : cached.1 = ⟨file, st⟩
      · simp only [if_pos hkey]
      · simp only [if_neg hkey]
        exact files_readFresh (some st)

/-- A read, the memo it leaves and the key it may be memoized under. -/
structure ReadTold (told : StatKey → Obj) (file : JsString) (read : ConfigMemo × OverridesRead) : Prop where
  cached : ∀ cached ∈ read.1.overridesCache, cached.2 = told cached.1
  data : ∀ key ∈ read.2.key? file, read.2.data = told key

/-- What is read of the file itself. -/
theorem readTold_fresh {st : Option FileStat}
    (hfile : ∀ st' ∈ st, ∀ data ∈ (s.files file).data?, data = told ⟨file, st'⟩)
    (hcached : ∀ cached ∈ s.overridesCache, cached.2 = told cached.1) : ReadTold told file (s.readFresh file st) := by
  have hread : ∀ data ∈ (s.files file).data?,
      ReadTold told file ({ s with overridesCache := (st.map fun st => (⟨file, st⟩, data)).or s.overridesCache },
        ⟨st, true, data⟩) := by
    intro data hdata
    cases st with
    | none => exact ⟨hcached, fun key hkey => nomatch hkey⟩
    | some st' =>
      have htold := hfile st' rfl data hdata
      refine ⟨fun cached hmem => ?_, fun key hkey => ?_⟩
      · obtain rfl := Option.some.inj hmem
        exact htold
      · obtain rfl := Option.some.inj hkey
        exact htold
  unfold ConfigMemo.readFresh
  unfold OverridesFile.data? at hread
  cases hcontent : (s.files file).content with
  | missing => exact hread [] (by rw [hcontent]; rfl)
  | parsed v => exact hread (readOverrides (some v)) (by rw [hcontent]; rfl)
  | corrupt => exact ⟨hcached, fun key hkey => nomatch hkey⟩

theorem readTold_stat (hfile : (s.files file).Told told file)
    (hcached : ∀ cached ∈ s.overridesCache, cached.2 = told cached.1) :
    ReadTold told file (s.readOverridesWithStat file) := by
  unfold ConfigMemo.readOverridesWithStat
  unfold OverridesFile.Told at hfile
  cases hst : (s.files file).st with
  | none => exact readTold_fresh (fun st' hmem => nomatch hmem) fun cached hmem => nomatch hmem
  | some st =>
    rw [hst] at hfile
    cases hcache : s.overridesCache with
    | none => exact readTold_fresh hfile hcached
    | some cached =>
      have htold := hcached cached hcache
      by_cases hkey : cached.1 = ⟨file, st⟩
      · simp only [if_pos hkey]
        refine ⟨hcached, fun key hmem => ?_⟩
        obtain rfl := Option.some.inj hmem
        show cached.2 = told ⟨file, st⟩
        rw [← hkey]
        exact htold
      · simp only [if_neg hkey]
        exact readTold_fresh hfile hcached

/-- One file changes. -/
theorem told_update {files : JsString → OverridesFile} (hfiles : ∀ file, (files file).Told told file)
    {now : OverridesFile} (hnow : now.Told told file) (file' : JsString) :
    (Function.update files file now file').Told told file' := by
  by_cases hfile : file' = file
  · subst hfile
    rw [Function.update_self]
    exact hnow
  · rw [Function.update_of_ne hfile]
    exact hfiles file'

/-- A resolve leaves the files alone, and in the overrides memo what its read left. -/
theorem resolveConfig_frame (s : ConfigMemo) (env : ProcessEnv) (file : JsString) :
    (s.resolveConfig env file).1.files = s.files ∧
      (s.resolveConfig env file).1.overridesCache = (s.readOverridesWithStat file).1.overridesCache := by
  rw [resolveConfig_eq]
  cases (s.readOverridesWithStat file).2.key? file with
  | none => exact ⟨files_readOverridesWithStat, rfl⟩
  | some key =>
    dsimp only
    cases s.baseCache.filter fun cached => decide (cached.1 = key) with
    | none => exact ⟨files_readOverridesWithStat, rfl⟩
    | some cached => exact ⟨files_readOverridesWithStat, rfl⟩

/-- A read of a file keeps all told. -/
theorem AllTold.read (h : AllTold told r) (file : JsString) :
    AllTold told { r with memo := (r.memo.readOverridesWithStat file).1 } := by
  refine ⟨fun file' => ?_, (readTold_stat (h.files file) h.cached).cached, h.reads⟩
  show ((r.memo.readOverridesWithStat file).1.files file').Told told file'
  rw [files_readOverridesWithStat]
  exact h.files file'

/-- **One step** that keeps to the told contents. -/
theorem AllTold.step {a : MemoAction} (h : AllTold told r) (hkeeps : KeepsTold told r a)
    (ha : memoStep r a = some r') : AllTold told r' := by
  cases a with
  | edit file now =>
    rw [← Option.some.inj ha]
    exact ⟨told_update h.files hkeeps, h.cached, h.reads⟩
  | read file =>
    rw [← Option.some.inj ha]
    exact h.read file
  | resolve env file =>
    have hread := readTold_stat (h.files file) h.cached
    obtain ⟨hfiles, hcache⟩ := resolveConfig_frame r.memo env file
    rw [← Option.some.inj ha]
    refine ⟨fun file' => ?_, fun cached hmem => hread.cached cached (hcache ▸ hmem), fun read hmem => ?_⟩
    · show ((r.memo.resolveConfig env file).1.files file').Told told file'
      rw [hfiles]
      exact h.files file'
    · rcases List.mem_append.mp hmem with hmem | hmem
      · obtain ⟨key, hkey, rfl⟩ := Option.map_eq_some_iff.mp (Option.mem_toList.mp hmem)
        exact hread.data key hkey
      · exact h.reads read hmem
  | write patch file outcome =>
    rw [← Option.some.inj ha]
    unfold ConfigMemo.writeOverridesPatch
    by_cases hpatch : patch = []
    · rw [if_pos hpatch]
      cases outcome with
      | failed => exact h
      | renamed st =>
        rw [if_pos hpatch]
        exact h
    · rw [if_neg hpatch]
      cases outcome with
      | failed => exact h.read file
      | renamed st =>
        rw [if_neg hpatch]
        have hfiles := told_update (h.read file).files (hkeeps hpatch)
        exact ⟨hfiles, fun cached hmem => (nomatch hmem), fun read hmem => (nomatch hmem)⟩

theorem opener_mem {key : StatKey} {opened : Obj} :
    ∀ {reads : List (StatKey × Obj)}, opener key reads = some opened → (key, opened) ∈ reads
  | (k, data) :: reads, h => by
    unfold opener at h
    split at h
    · next hkey =>
      subst hkey
      cases hrest : opener k reads with
      | none =>
        rw [hrest] at h
        obtain rfl := Option.some.inj h
        exact List.mem_cons_self
      | some opened' =>
        rw [hrest] at h
        obtain rfl := Option.some.inj h
        exact List.mem_cons_of_mem _ (opener_mem hrest)
    · exact nomatch h

theorem AllTold.sameStretch (h : AllTold told r) (a : MemoAction) : SameStretch r a := by
  cases a with
  | edit file now => exact trivial
  | read file => exact trivial
  | write patch file outcome => exact trivial
  | resolve env file =>
    intro key hkey opened hopened
    have hread := (readTold_stat (h.files file) h.cached).data key hkey
    have hopener : opened = told key := h.reads (key, opened) (opener_mem hopened)
    rw [hread, hopener]

/-- **A stat key that stands for one content**: as long as every change of the files keeps to it, every resolve
is coherent. -/
theorem coherent_of_told {files : JsString → OverridesFile} (hfiles : ∀ file, (files file).Told told file) :
    ∀ as : List MemoAction, Every memoStep (KeepsTold told) (MemoRun.init files) as →
      Every memoStep Coherent (MemoRun.init files) as := by
  intro as hkeeps
  have hall : ∀ (as : List MemoAction) (r : MemoRun), BaseOfOpener r → AllTold told r →
      Every memoStep (KeepsTold told) r as → Every memoStep Coherent r as := by
    intro as
    induction as with
    | nil => exact fun _ _ _ _ => trivial
    | cons a as ih =>
      intro r hbase h hkeeps
      refine ⟨(coherent_iff_sameStretch hbase a).mpr (h.sameStretch a), fun r' ha => ?_⟩
      exact ih r' (hbase.step ha) (h.step hkeeps.1 ha) (hkeeps.2 r' ha)
  exact hall as _ rfl ⟨hfiles, fun cached hmem => (nomatch hmem), fun read hmem => (nomatch hmem)⟩ hkeeps

end Told

end AgyProxy
