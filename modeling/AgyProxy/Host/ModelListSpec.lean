import AgyProxy.Host.ModelList

/-!
# AgyProxy.Host.ModelListSpec — what folding the efforts keeps, and what it invents

* `foldTarget?_eq_some_iff`: which slugs are folded, and into what.
* `Folded`: what the maps hold after some of the slugs; `foldAll` after all of them.
* `foldEfforts_lossless`: **no slug is lost, no effort is invented** and no id appears twice.
* `inventsNoBase_iff`: **no base is invented** exactly when no lone variant has a cousin in the listing.
-/

namespace AgyProxy

open Js Lib

section Fold

variable {raw : List RawModel} {r : RawModel} {base eff : JsString}

/-! ### Variants -/

def Listed (raw : List RawModel) (slug : JsString) : Prop := slug ∈ raw.map RawModel.slug

/-- A Gemini slug `base-eff`. -/
def IsVariant (slug base eff : JsString) : Prop :=
  js "gemini" <+: slug ∧ eff ∈ EFFORT_SUFFIXES ∧ slug = variantSlug base eff

/-- The sibling the code looks for: a slug that starts like the base and ends in an effort. -/
def Sibling (raw : List RawModel) (base slug : JsString) : Prop :=
  ∃ x ∈ raw, base ++ js "-" <+: x.slug ∧ (∃ e ∈ EFFORT_SUFFIXES, js "-" ++ e <:+ x.slug) ∧ x.slug ≠ slug

/-- An effort is known by its last letter. -/
theorem effort_eq_of_getLast? {e e' : JsString} (he : e ∈ EFFORT_SUFFIXES) (he' : e' ∈ EFFORT_SUFFIXES)
    (h : e.getLast? = e'.getLast?) : e = e' := by
  have hall : ∀ e ∈ EFFORT_SUFFIXES, ∀ e' ∈ EFFORT_SUFFIXES, e.getLast? = e'.getLast? → e = e' := by decide +kernel
  exact hall e he e' he' h

theorem getLast?_variantSlug (he : eff ∈ EFFORT_SUFFIXES) : (variantSlug base eff).getLast? = eff.getLast? := by
  have hne : ∀ e ∈ EFFORT_SUFFIXES, e ≠ [] := by decide +kernel
  unfold variantSlug
  rw [List.getLast?_append_of_ne_nil _ (hne eff he)]

/-- A slug is a variant of one base only. -/
theorem variantSlug_inj {base' eff' : JsString} (he : eff ∈ EFFORT_SUFFIXES) (he' : eff' ∈ EFFORT_SUFFIXES)
    (h : variantSlug base eff = variantSlug base' eff') : base = base' ∧ eff = eff' := by
  have hlast := congrArg List.getLast? h
  rw [getLast?_variantSlug he, getLast?_variantSlug he'] at hlast
  have heff : eff = eff' := effort_eq_of_getLast? he he' hlast
  subst heff
  unfold variantSlug at h
  rw [List.append_assoc, List.append_assoc] at h
  exact ⟨List.append_cancel_right h, rfl⟩

/-- What the loop over the efforts does at one of them. -/
theorem foldAt_eq_some_iff {eff' : JsString} (hgemini : js "gemini" <+: r.slug) (he : eff' ∈ EFFORT_SUFFIXES) :
    (if js "-" ++ eff' <:+ r.slug then
      let base := r.slug.take (r.slug.length - (js "-" ++ eff').length)
      let hasBare := raw.any fun x => decide (x.slug = base)
      let hasSibling := raw.any fun x =>
        decide (base ++ js "-" <+: x.slug ∧ (∃ e ∈ EFFORT_SUFFIXES, js "-" ++ e <:+ x.slug) ∧ x.slug ≠ r.slug)
      if hasBare || hasSibling then some (base, eff') else none
    else none) = some (base, eff) ↔
      eff' = eff ∧ IsVariant r.slug base eff ∧ (Listed raw base ∨ Sibling raw base r.slug) := by
  by_cases hsuffix : js "-" ++ eff' <:+ r.slug
  · obtain ⟨front, hfront⟩ := hsuffix
    have htake : r.slug.take (r.slug.length - (js "-" ++ eff').length) = front := by
      rw [← hfront, List.length_append, Nat.add_sub_cancel, List.take_left]
    have hkin : (raw.any (fun x => decide (x.slug = front)) || raw.any fun x =>
        decide (front ++ js "-" <+: x.slug ∧ (∃ e ∈ EFFORT_SUFFIXES, js "-" ++ e <:+ x.slug) ∧ x.slug ≠ r.slug)) = true ↔
          Listed raw front ∨ Sibling raw front r.slug := by
      simp only [Bool.or_eq_true, List.any_eq_true, decide_eq_true_eq, Listed, List.mem_map, Sibling]
    have hslug : r.slug = variantSlug front eff' := by
      rw [← hfront, variantSlug, List.append_assoc]
    rw [if_pos ⟨front, hfront⟩]
    dsimp only
    rw [htake]
    constructor
    · intro h
      split at h
      · rename_i hkin'
        obtain ⟨rfl, rfl⟩ := Prod.mk.inj (Option.some.inj h)
        exact ⟨rfl, ⟨hgemini, he, hslug⟩, hkin.mp hkin'⟩
      · exact absurd h.symm (Option.some_ne_none _)
    · rintro ⟨rfl, ⟨-, -, hbase⟩, hkin'⟩
      obtain ⟨rfl, -⟩ := variantSlug_inj he he (hslug.symm.trans hbase)
      rw [if_pos (hkin.mpr hkin')]
  · rw [if_neg hsuffix]
    refine ⟨fun h => absurd h.symm (Option.some_ne_none _), ?_⟩
    rintro ⟨rfl, ⟨-, -, hbase⟩, -⟩
    rw [hbase, variantSlug, List.append_assoc] at hsuffix
    exact absurd (List.suffix_append _ _) hsuffix

theorem foldTarget?_sound (h : foldTarget? raw r = some (base, eff)) :
    IsVariant r.slug base eff ∧ (Listed raw base ∨ Sibling raw base r.slug) := by
  unfold foldTarget? at h
  split at h
  · exact absurd h.symm (Option.some_ne_none _)
  · rename_i hgemini
    obtain ⟨eff', he, hat⟩ := List.exists_of_findSome?_eq_some h
    exact ((foldAt_eq_some_iff (not_not.mp hgemini) he).mp hat).2

/-- The slugs that are folded. -/
theorem foldTarget?_eq_some_iff :
    foldTarget? raw r = some (base, eff) ↔ IsVariant r.slug base eff ∧ (Listed raw base ∨ Sibling raw base r.slug) := by
  refine ⟨foldTarget?_sound, fun ⟨hvariant, hkin⟩ => ?_⟩
  obtain ⟨hgemini, heff, hslug⟩ := hvariant
  cases htarget : foldTarget? raw r with
  | none =>
    unfold foldTarget? at htarget
    rw [if_neg (not_not.mpr hgemini)] at htarget
    have hat := (foldAt_eq_some_iff hgemini heff).mpr ⟨rfl, ⟨hgemini, heff, hslug⟩, hkin⟩
    exact absurd (List.findSome?_eq_none_iff.mp htarget eff heff) (by rw [hat]; exact Option.some_ne_none _)
  | some target =>
    obtain ⟨-, heff', hslug'⟩ := (foldTarget?_sound htarget).1
    obtain ⟨rfl, rfl⟩ := variantSlug_inj heff heff' (hslug.symm.trans hslug')
    rfl

/-! ### The loop -/

/-- What the maps hold after the slugs `done`. -/
structure Folded (raw done : List RawModel) (acc : List FoldedBase × List CatalogEntry) : Prop where
  ids : (acc.1.map FoldedBase.id).Nodup
  efforts : ∀ b ∈ acc.1, ∀ eff, eff ∈ b.efforts ↔ ∃ r ∈ done, foldTarget? raw r = some (b.id, eff)
  bases : ∀ base, base ∈ acc.1.map FoldedBase.id ↔ ∃ r ∈ done, ∃ eff, foldTarget? raw r = some (base, eff)
  verbatim : acc.2 = (done.filter fun r => (foldTarget? raw r).isNone).map verbatimEntry

theorem folded_nil : Folded raw [] ([], []) := by
  refine ⟨List.nodup_nil, fun b hb => absurd hb List.not_mem_nil, fun base => ?_, rfl⟩
  exact ⟨fun h => absurd h List.not_mem_nil, fun ⟨r, hr, _⟩ => absurd hr List.not_mem_nil⟩

theorem exists_mem_concat {α : Type} {P : α → Prop} {l : List α} {a : α} :
    (∃ x ∈ l ++ [a], P x) ↔ (∃ x ∈ l, P x) ∨ P a := by
  simp [or_and_right, exists_or]

theorem noteEffort_known {bases : List FoldedBase} (label : JsString) (h : base ∈ bases.map FoldedBase.id) :
    noteEffort bases base eff label =
      updateAt FoldedBase.id base (fun b => { b with efforts := eff :: b.efforts }) bases := by
  unfold noteEffort
  cases hfind : bases.find? fun b => decide (b.id = base) with
  | some b => rfl
  | none =>
    obtain ⟨b, hb, hid⟩ := List.mem_map.mp h
    exact absurd hid (find?_key_none_iff.mp hfind b hb)

theorem noteEffort_new {bases : List FoldedBase} (label : JsString) (h : base ∉ bases.map FoldedBase.id) :
    noteEffort bases base eff label = bases ++ [⟨base, stripEffortLabel label eff, [eff]⟩] := by
  unfold noteEffort
  have hfind : bases.find? (fun b => decide (b.id = base)) = none :=
    find?_key_none_iff.mpr fun b hb hid => h (List.mem_map.mpr ⟨b, hb, hid⟩)
  rw [hfind]

/-! One slug more: it stays verbatim, it is a variant of a known base, or it makes its base known. -/

variable {done : List RawModel} {acc : List FoldedBase × List CatalogEntry}

theorem Folded.keep (h : Folded raw done acc) (htarget : foldTarget? raw r = none) :
    Folded raw (done ++ [r]) (acc.1, acc.2 ++ [verbatimEntry r]) := by
  refine ⟨h.ids, fun b hb eff => ?_, fun base => ?_, ?_⟩
  · rw [h.efforts b hb eff, exists_mem_concat, htarget]
    exact (or_iff_left (Option.some_ne_none _).symm).symm
  · rw [h.bases base, exists_mem_concat, htarget]
    exact (or_iff_left fun ⟨eff, he⟩ => Option.some_ne_none _ he.symm).symm
  · show acc.2 ++ [verbatimEntry r] = _
    rw [h.verbatim, List.filter_append, List.map_append, List.filter_cons_of_pos (by rw [htarget]; rfl)]
    rfl

theorem Folded.verbatim_target (h : Folded raw done acc) (htarget : foldTarget? raw r = some (base, eff)) :
    acc.2 = ((done ++ [r]).filter fun r => (foldTarget? raw r).isNone).map verbatimEntry := by
  rw [h.verbatim, List.filter_append, List.filter_cons_of_neg (by rw [htarget]; exact Bool.false_ne_true),
    List.filter_nil, List.append_nil]

/-- The efforts of a base after a variant: those before it and, if the base is the variant's, its effort. -/
theorem target_concat_iff (htarget : foldTarget? raw r = some (base, eff)) (base' eff' : JsString) :
    (∃ x ∈ done ++ [r], foldTarget? raw x = some (base', eff')) ↔
      (∃ x ∈ done, foldTarget? raw x = some (base', eff')) ∨ (base = base' ∧ eff = eff') := by
  rw [exists_mem_concat, htarget]
  simp

theorem Folded.bases_concat (h : Folded raw done acc) (htarget : foldTarget? raw r = some (base, eff))
    (base' : JsString) : (∃ x ∈ done ++ [r], ∃ eff, foldTarget? raw x = some (base', eff)) ↔
      base' ∈ acc.1.map FoldedBase.id ∨ base = base' := by
  rw [h.bases base', exists_mem_concat, htarget]
  simp

theorem Folded.noteKnown (h : Folded raw done acc) (htarget : foldTarget? raw r = some (base, eff))
    (hknown : base ∈ acc.1.map FoldedBase.id) :
    Folded raw (done ++ [r]) (noteEffort acc.1 base eff r.label, acc.2) := by
  have hids : (noteEffort acc.1 base eff r.label).map FoldedBase.id = acc.1.map FoldedBase.id := by
    rw [noteEffort_known r.label hknown]
    exact map_updateAt fun _ => rfl
  refine ⟨hids ▸ h.ids, fun b hb eff' => ?_, fun base' => ?_, h.verbatim_target htarget⟩
  · rw [noteEffort_known r.label hknown] at hb
    rw [target_concat_iff htarget]
    rcases mem_updateAt_iff.mp hb with ⟨hmem, hne⟩ | ⟨b', hmem, rfl, rfl⟩
    · rw [h.efforts b hmem eff']
      exact (or_iff_left fun hsame => hne hsame.1.symm).symm
    · rw [← h.efforts b' hmem eff', List.mem_cons, or_comm]
      exact or_congr_right ⟨fun he => ⟨rfl, he.symm⟩, fun he => he.2.symm⟩
  · rw [hids, h.bases_concat htarget]
    exact (or_iff_left_of_imp fun hsame => hsame ▸ hknown).symm

theorem Folded.noteNew (h : Folded raw done acc) (htarget : foldTarget? raw r = some (base, eff))
    (hnew : base ∉ acc.1.map FoldedBase.id) :
    Folded raw (done ++ [r]) (noteEffort acc.1 base eff r.label, acc.2) := by
  have hids : (noteEffort acc.1 base eff r.label).map FoldedBase.id = acc.1.map FoldedBase.id ++ [base] := by
    rw [noteEffort_new r.label hnew, List.map_append]
    rfl
  refine ⟨?_, fun b hb eff' => ?_, fun base' => ?_, h.verbatim_target htarget⟩
  · rw [hids, List.nodup_append]
    refine ⟨h.ids, List.nodup_singleton _, ?_⟩
    rintro x hx y hy rfl
    exact hnew (List.mem_singleton.mp hy ▸ hx)
  · rw [noteEffort_new r.label hnew] at hb
    rw [target_concat_iff htarget]
    rcases List.mem_append.mp hb with hmem | hmem
    · rw [h.efforts b hmem eff']
      refine (or_iff_left fun hsame => hnew ?_).symm
      exact hsame.1 ▸ List.mem_map_of_mem hmem
    · obtain rfl := List.mem_singleton.mp hmem
      have hnone : ¬ ∃ r ∈ done, foldTarget? raw r = some (base, eff') := fun ⟨r, hr, he⟩ =>
        hnew ((h.bases base).mpr ⟨r, hr, eff', he⟩)
      rw [or_iff_right hnone, List.mem_singleton]
      exact ⟨fun he => ⟨rfl, he.symm⟩, fun he => he.2.symm⟩
  · rw [hids, h.bases_concat htarget, List.mem_append, List.mem_singleton]
    exact or_congr_right eq_comm

/-- **One slug**. -/
theorem Folded.slug (h : Folded raw done acc) (r : RawModel) : Folded raw (done ++ [r]) (foldSlug raw acc r) := by
  unfold foldSlug
  cases htarget : foldTarget? raw r with
  | none => exact h.keep htarget
  | some target =>
    obtain ⟨base, eff⟩ := target
    by_cases hknown : base ∈ acc.1.map FoldedBase.id
    · exact h.noteKnown htarget hknown
    · exact h.noteNew htarget hknown

theorem folded_foldl : ∀ (rest done : List RawModel) (acc : List FoldedBase × List CatalogEntry), Folded raw done acc →
    Folded raw (done ++ rest) (rest.foldl (foldSlug raw) acc)
  | [], done, acc, h => by
    rw [List.append_nil]
    exact h
  | r :: rest, done, acc, h => by
    rw [List.foldl_cons, List.append_cons]
    exact folded_foldl rest (done ++ [r]) _ (h.slug r)

/-- **The maps after the whole listing**. -/
theorem folded_all (raw : List RawModel) : Folded raw raw (raw.foldl (foldSlug raw) ([], [])) :=
  folded_foldl raw [] _ folded_nil

/-! ### The entries -/

/-- The bases of a listing. -/
def foldedBases (raw : List RawModel) : List FoldedBase := (raw.foldl (foldSlug raw) ([], [])).1

theorem sortEntries_perm (raw : List RawModel) (entries : List CatalogEntry) : (sortEntries raw entries).Perm entries :=
  List.perm_insertionSort _ entries

/-- A base has at least the effort it was made for. -/
theorem entry_efforts {b : FoldedBase} (hb : b ∈ foldedBases raw) :
    ∃ efforts, b.entry.efforts = some efforts ∧
      ∀ eff, eff ∈ efforts ↔ ∃ r ∈ raw, foldTarget? raw r = some (b.id, eff) := by
  have hall := folded_all raw
  have hmem : ∀ eff, eff ∈ EFFORT_SUFFIXES.filter (fun e => decide (e ∈ b.efforts)) ↔
      ∃ r ∈ raw, foldTarget? raw r = some (b.id, eff) := by
    intro eff
    rw [List.mem_filter, decide_eq_true_eq, hall.efforts b hb eff]
    exact and_iff_right_of_imp fun ⟨r, _, htarget⟩ => (foldTarget?_sound htarget).1.2.1
  obtain ⟨r, hr, eff, htarget⟩ := (hall.bases b.id).mp (List.mem_map_of_mem hb)
  have hne : EFFORT_SUFFIXES.filter (fun e => decide (e ∈ b.efforts)) ≠ [] :=
    List.ne_nil_of_mem ((hmem eff).mpr ⟨r, hr, htarget⟩)
  exact ⟨_, if_pos hne, hmem⟩

theorem mem_foldedIds_iff : base ∈ (foldedBases raw).map FoldedBase.id ↔
    ∃ r ∈ raw, ∃ eff, foldTarget? raw r = some (base, eff) :=
  (folded_all raw).bases base

/-- The entries: the bases, and the slugs that are neither folded nor a base. -/
theorem mem_foldEfforts_iff {e : CatalogEntry} : e ∈ foldEfforts raw ↔ (∃ b ∈ foldedBases raw, b.entry = e) ∨
    ∃ r ∈ raw, foldTarget? raw r = none ∧ verbatimEntry r = e ∧ r.slug ∉ (foldedBases raw).map FoldedBase.id := by
  unfold foldEfforts
  rw [List.mem_append, (sortEntries_perm _ _).mem_iff, List.mem_map, List.mem_filter, (sortEntries_perm _ _).mem_iff,
    (folded_all raw).verbatim, List.mem_map, decide_eq_true_eq]
  refine or_congr_right ⟨?_, ?_⟩
  · rintro ⟨⟨r, hr, rfl⟩, hid⟩
    obtain ⟨hraw, hnone⟩ := List.mem_filter.mp hr
    exact ⟨r, hraw, Option.isNone_iff_eq_none.mp hnone, rfl, hid⟩
  · rintro ⟨r, hr, hnone, rfl, hid⟩
    exact ⟨⟨r, List.mem_filter.mpr ⟨hr, Option.isNone_iff_eq_none.mpr hnone⟩, rfl⟩, hid⟩

/-- The base of a folded slug is an entry with that effort. -/
theorem entry_of_target (hr : r ∈ raw) (h : foldTarget? raw r = some (base, eff)) :
    ∃ e ∈ foldEfforts raw, e.id = base ∧ ∃ efforts, e.efforts = some efforts ∧ eff ∈ efforts := by
  obtain ⟨b, hb, rfl⟩ := List.mem_map.mp (mem_foldedIds_iff.mpr ⟨r, hr, eff, h⟩)
  obtain ⟨efforts, hefforts, hmem⟩ := entry_efforts hb
  exact ⟨b.entry, mem_foldEfforts_iff.mpr (Or.inl ⟨b, hb, rfl⟩), rfl, efforts, hefforts, (hmem eff).mpr ⟨r, hr, h⟩⟩

/-- An entry with efforts is a base, and each of its efforts was listed. -/
theorem target_of_effort {e : CatalogEntry} (he : e ∈ foldEfforts raw) {efforts : List JsString}
    (hefforts : e.efforts = some efforts) :
    efforts ≠ [] ∧ ∀ eff ∈ efforts, ∃ r ∈ raw, foldTarget? raw r = some (e.id, eff) := by
  rcases mem_foldEfforts_iff.mp he with ⟨b, hb, rfl⟩ | ⟨r, -, -, rfl, -⟩
  · obtain ⟨efforts', hefforts', hmem⟩ := entry_efforts hb
    obtain rfl := Option.some.inj (hefforts'.symm.trans hefforts)
    obtain ⟨r, hr, eff, htarget⟩ := mem_foldedIds_iff.mp (List.mem_map_of_mem hb)
    exact ⟨List.ne_nil_of_mem ((hmem eff).mpr ⟨r, hr, htarget⟩), fun eff heff => (hmem eff).mp heff⟩
  · exact absurd hefforts.symm (Option.some_ne_none efforts)

/-- A slug that is not folded is an entry of its own, or the base of others. -/
theorem entry_of_verbatim (hr : r ∈ raw) (h : foldTarget? raw r = none) :
    verbatimEntry r ∈ foldEfforts raw ∨ ∃ e ∈ foldEfforts raw, e.id = r.slug ∧ e.efforts ≠ none := by
  by_cases hbase : r.slug ∈ (foldedBases raw).map FoldedBase.id
  · obtain ⟨x, hx, eff, htarget⟩ := mem_foldedIds_iff.mp hbase
    obtain ⟨e, he, hid, efforts, hefforts, -⟩ := entry_of_target hx htarget
    exact Or.inr ⟨e, he, hid, by rw [hefforts]; exact Option.some_ne_none efforts⟩
  · exact Or.inl (mem_foldEfforts_iff.mpr (Or.inr ⟨r, hr, h, rfl, hbase⟩))

/-! ### Nothing is lost -/

structure LosslessFolding (raw : List RawModel) : Prop where
  distinct : ((foldEfforts raw).map CatalogEntry.id).Nodup
  covered : ∀ slug, Listed raw slug → (∃ e ∈ foldEfforts raw, e.id = slug) ∨
    ∃ e ∈ foldEfforts raw, ∃ efforts, e.efforts = some efforts ∧ ∃ eff ∈ efforts, slug = variantSlug e.id eff
  listed : ∀ e ∈ foldEfforts raw, ∀ efforts, e.efforts = some efforts → ∀ eff ∈ efforts, Listed raw (variantSlug e.id eff)

/-- No id appears twice. -/
theorem foldEfforts_nodup (hraw : (raw.map RawModel.slug).Nodup) : ((foldEfforts raw).map CatalogEntry.id).Nodup := by
  have hall := folded_all raw
  have hbases : ((sortEntries raw ((foldedBases raw).map FoldedBase.entry)).map CatalogEntry.id).Nodup := by
    rw [((sortEntries_perm _ _).map _).nodup_iff, List.map_map]
    exact hall.ids
  have hverbatim : ((sortEntries raw (raw.foldl (foldSlug raw) ([], [])).2).map CatalogEntry.id).Nodup := by
    rw [((sortEntries_perm _ _).map _).nodup_iff, hall.verbatim, List.map_map]
    exact hraw.sublist ((List.filter_sublist).map _)
  unfold foldEfforts
  rw [List.map_append, List.nodup_append]
  refine ⟨hbases, hverbatim.sublist ((List.filter_sublist).map _), ?_⟩
  rintro x hx y hy rfl
  obtain ⟨e, he, rfl⟩ := List.mem_map.mp hx
  obtain ⟨e', he', hid⟩ := List.mem_map.mp hy
  obtain ⟨b, hb, rfl⟩ := List.mem_map.mp ((sortEntries_perm _ _).mem_iff.mp he)
  have hnot := of_decide_eq_true (List.mem_filter.mp he').2
  rw [hid] at hnot
  exact hnot (List.mem_map_of_mem hb)

/-- **Folding loses no slug and invents no effort**. -/
theorem foldEfforts_lossless (raw : List RawModel) (hraw : (raw.map RawModel.slug).Nodup) : LosslessFolding raw := by
  refine ⟨foldEfforts_nodup hraw, fun slug hslug => ?_, fun e he efforts hefforts eff heff => ?_⟩
  · obtain ⟨r, hr, rfl⟩ := List.mem_map.mp hslug
    cases htarget : foldTarget? raw r with
    | none =>
      rcases entry_of_verbatim hr htarget with he | ⟨e, he, hid, -⟩
      · exact Or.inl ⟨_, he, rfl⟩
      · exact Or.inl ⟨e, he, hid⟩
    | some target =>
      obtain ⟨e, he, hid, efforts, hefforts, heff⟩ := entry_of_target hr htarget
      have hvariant := (foldTarget?_sound htarget).1.2.2
      exact Or.inr ⟨e, he, efforts, hefforts, target.2, heff, by rw [hid]; exact hvariant⟩
  · obtain ⟨r, hr, htarget⟩ := (target_of_effort he hefforts).2 eff heff
    exact List.mem_map.mpr ⟨r, hr, (foldTarget?_sound htarget).1.2.2⟩

/-- Two flash variants and a lone one of a shorter name. -/
def cousinListing : List RawModel :=
  [⟨js "gemini-3-high", js "Gemini 3 (High)"⟩, ⟨js "gemini-3-flash-low", js "Gemini 3 Flash (Low)"⟩,
    ⟨js "claude-sonnet-4-6", js "Claude Sonnet 4.6"⟩]

theorem foldEfforts_lossless_cousins : LosslessFolding cousinListing :=
  foldEfforts_lossless cousinListing (by decide +kernel)

/-! ### Nothing is invented -/

/-- The base is listed, or two of its own variants are. -/
def Justified (raw : List RawModel) (base : JsString) : Prop :=
  Listed raw base ∨ ∃ e ∈ EFFORT_SUFFIXES, ∃ e' ∈ EFFORT_SUFFIXES, e ≠ e' ∧ Listed raw (variantSlug base e) ∧
    Listed raw (variantSlug base e')

/-- Only justified bases are emitted; a slug without one is emitted as it is, unless it is a base itself. -/
structure InventsNoBase (raw : List RawModel) : Prop where
  bases : ∀ e ∈ foldEfforts raw, e.efforts ≠ none → Justified raw e.id
  verbatim : ∀ r ∈ raw, (∀ base eff, IsVariant r.slug base eff → ¬ Justified raw base) →
    verbatimEntry r ∈ foldEfforts raw ∨ ∃ e ∈ foldEfforts raw, e.id = r.slug ∧ e.efforts ≠ none

/-- A variant without its base and without another variant of it, but with a cousin: a slug that continues the
base by more than an effort and ends in one. -/
def StrayVariant (raw : List RawModel) : Prop :=
  ∃ r ∈ raw, ∃ base eff, IsVariant r.slug base eff ∧ ¬ Justified raw base ∧ Sibling raw base r.slug

/-- **No base is invented** exactly when the listing has no stray variant. -/
theorem inventsNoBase_iff (raw : List RawModel) : InventsNoBase raw ↔ ¬ StrayVariant raw := by
  constructor
  · rintro hsound ⟨r, hr, base, eff, hvariant, hnot, hsibling⟩
    have htarget := foldTarget?_eq_some_iff.mpr ⟨hvariant, Or.inr hsibling⟩
    obtain ⟨e, he, rfl, efforts, hefforts, -⟩ := entry_of_target hr htarget
    exact hnot (hsound.bases e he (by rw [hefforts]; exact Option.some_ne_none efforts))
  · intro hstray
    -- whatever is folded is folded for a good reason
    have hjust : ∀ r ∈ raw, ∀ base eff, foldTarget? raw r = some (base, eff) → Justified raw base := by
      intro r hr base eff htarget
      obtain ⟨hvariant, hlisted | hsibling⟩ := foldTarget?_eq_some_iff.mp htarget
      · exact Or.inl hlisted
      · by_contra hnot
        exact hstray ⟨r, hr, base, eff, hvariant, hnot, hsibling⟩
    refine ⟨fun e he hefforts => ?_, fun r hr hnone => ?_⟩
    · obtain ⟨efforts, hsome⟩ := Option.ne_none_iff_exists'.mp hefforts
      obtain ⟨hne, hall⟩ := target_of_effort he hsome
      obtain ⟨eff, heff⟩ := List.exists_mem_of_ne_nil efforts hne
      obtain ⟨r, hr, htarget⟩ := hall eff heff
      exact hjust r hr e.id eff htarget
    · cases htarget : foldTarget? raw r with
      | none => exact entry_of_verbatim hr htarget
      | some target => exact absurd (hjust r hr _ _ htarget) (hnone _ _ (foldTarget?_sound htarget).1)

instance (raw : List RawModel) (slug : JsString) : Decidable (Listed raw slug) :=
  inferInstanceAs (Decidable (slug ∈ raw.map RawModel.slug))

instance (raw : List RawModel) (base : JsString) : Decidable (Justified raw base) :=
  inferInstanceAs (Decidable (_ ∨ _))

/-- `gemini-3` is emitted, of which only one variant was listed. -/
theorem not_inventsNoBase_cousins : ¬ InventsNoBase cousinListing := by
  intro hsound
  have he : ⟨js "gemini-3", js "Gemini 3", some [js "high"]⟩ ∈ foldEfforts cousinListing := by decide +kernel
  exact absurd (hsound.bases _ he (Option.some_ne_none _)) (by decide +kernel)

end Fold

/-! ### What a catalog lists -/

section Catalog

/-- The slugs that are kept are new, and not empty. -/
theorem dedupeFrom_slugs : ∀ (raw : List RawModel) (seen : List JsString),
    ((dedupeFrom seen raw).map RawModel.slug).Nodup ∧ ∀ r ∈ dedupeFrom seen raw, r.slug ≠ [] ∧ r.slug ∉ seen
  | [], _ => ⟨List.nodup_nil, fun _ hr => absurd hr List.not_mem_nil⟩
  | r :: raw, seen => by
    unfold dedupeFrom
    dsimp only
    by_cases hskip : trim r.slug = [] ∨ trim r.slug ∈ seen
    · rw [if_pos hskip]
      exact dedupeFrom_slugs raw seen
    · rw [if_neg hskip]
      obtain ⟨hempty, hseen⟩ := not_or.mp hskip
      obtain ⟨hnodup, hnew⟩ := dedupeFrom_slugs raw (trim r.slug :: seen)
      constructor
      · rw [List.map_cons, List.nodup_cons]
        refine ⟨fun hmem => ?_, hnodup⟩
        obtain ⟨x, hx, hslug⟩ := List.mem_map.mp hmem
        exact (hnew x hx).2 (hslug ▸ List.mem_cons_self)
      · intro x hx
        rcases List.mem_cons.mp hx with rfl | hx
        · exact ⟨hempty, hseen⟩
        · exact ⟨(hnew x hx).1, fun hmem => (hnew x hx).2 (List.mem_cons_of_mem _ hmem)⟩

/-- **The output lists each slug once**, and none is empty. -/
theorem parseModelsOutput_slugs (stdout : JsString) :
    ((parseModelsOutput stdout).map RawModel.slug).Nodup ∧ ∀ r ∈ parseModelsOutput stdout, r.slug ≠ [] := by
  have hdedupe : ∀ raw, ((dedupeBySlug raw).map RawModel.slug).Nodup ∧ ∀ r ∈ dedupeBySlug raw, r.slug ≠ [] := fun raw =>
    ⟨(dedupeFrom_slugs raw []).1, fun r hr => ((dedupeFrom_slugs raw []).2 r hr).1⟩
  unfold parseModelsOutput
  dsimp only
  split
  · exact ⟨List.nodup_nil, fun _ hr => absurd hr List.not_mem_nil⟩
  · split
    · exact hdedupe _
    · exact hdedupe _

/-- No entry of a discovered catalog has an empty id. -/
theorem foldEfforts_id_ne_nil {raw : List RawModel} (hraw : ∀ r ∈ raw, r.slug ≠ []) :
    ∀ e ∈ foldEfforts raw, e.id ≠ [] := by
  intro e he hid
  rcases mem_foldEfforts_iff.mp he with ⟨b, hb, rfl⟩ | ⟨r, hr, -, rfl, -⟩
  · obtain ⟨r, -, eff, htarget⟩ := mem_foldedIds_iff.mp (List.mem_map_of_mem hb)
    obtain ⟨⟨rest, hrest⟩, -, hslug⟩ := (foldTarget?_sound htarget).1
    have hid' : b.id = [] := hid
    -- an empty base would make the variant's slug start with the hyphen
    have hhyphen : js "gemini" ++ rest = 0x2D :: eff := by rw [hrest, hslug, hid']; rfl
    exact absurd (List.cons.inj hhyphen).1 (by decide)
  · exact hraw r hr hid

/-- No entry of a fallback catalog has an empty id. -/
theorem buildFallbackCatalog_id_ne_nil (defs : List Json) : ∀ e ∈ buildFallbackCatalog defs, e.id ≠ [] := by
  intro e he
  obtain ⟨d, -, hentry⟩ := List.mem_filterMap.mp he
  obtain ⟨o, -, hid⟩ := Option.bind_eq_some_iff.mp hentry
  obtain ⟨id, hblank, rfl⟩ := Option.map_eq_some_iff.mp hid
  exact of_decide_eq_true (Option.filter_eq_some_iff.mp hblank).2

end Catalog

end AgyProxy
