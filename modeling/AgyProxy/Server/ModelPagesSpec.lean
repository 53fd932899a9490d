import AgyProxy.Host.ModelListSpec
import AgyProxy.Host.Refresh
import AgyProxy.Server.ModelPages

/-!
# AgyProxy.Server.ModelPagesSpec — what a page promises, and the walk over all pages

* `PageExact`: a page is the head of its window, and `has_more` tells whether the window goes on behind it.
* `pageBetween_data`, `pageBetween_has_more`: what a page holds, and when the code sets the flag.
* `Walk`: the pages a client sees who follows `last_id` for as long as `has_more` is set.
* `Catalog.ListsWell`: no id of a catalog is empty; kept by every discovery, and what the walk rests on.
* `paginateModels_iff`: **a page is exact** unless it shows the whole rest of a window that ends inside the
  list; the walk over the whole list meets no such page.
-/

namespace AgyProxy

open Js

section Pages

variable {T : Type} (idOf : T → JsString)

/-- The entries between two anchors. -/
def pageWindow (entries : List T) (start stop : ℕ) : List T := (entries.take stop).drop start

/-- The entries a query asks for. -/
def queryWindow (entries : List T) (query : PageQuery) : List T :=
  pageWindow entries (windowStart (entries.map idOf) (anchor? query.after_id))
    (windowEnd (entries.map idOf) (anchor? query.before_id))

/-- The answer to a query with that page limit is right. -/
structure PageExact (entries : List T) (query : PageQuery) (limit : ℕ) (page : ModelPage T) : Prop where
  data : page.data = (queryWindow idOf entries query).take limit
  first : page.first_id = page.data.head?.map idOf
  last : page.last_id = page.data.getLast?.map idOf
  more : page.has_more = true ↔ page.data.length < (queryWindow idOf entries query).length
  emptyPage : page.data = [] → page.has_more = false

/-- More of the window is left than the page shows, or nothing of the list is left behind the window. -/
def WindowOpen (entries : List T) (query : PageQuery) (limit : ℕ) : Prop :=
  limit < (queryWindow idOf entries query).length ∨
    entries.length ≤ max (windowStart (entries.map idOf) (anchor? query.after_id))
      (windowEnd (entries.map idOf) (anchor? query.before_id))

/-- From the anchor on, the entries seen page by page until `has_more` is no longer set. -/
inductive Walk (entries : List T) (limit : Option Json) : Option JsString → List T → Prop
  | last {after page} : paginateModels idOf entries ⟨limit, after.map .str, none⟩ = .ok page → page.has_more = false →
      Walk entries limit after page.data
  | next {after page id seen} : paginateModels idOf entries ⟨limit, after.map .str, none⟩ = .ok page →
      page.has_more = true → page.last_id = some id → Walk entries limit (some id) seen →
      Walk entries limit after (page.data ++ seen)

variable {idOf} {entries : List T} {query : PageQuery} {start stop limit : ℕ}

/-! ### One page -/

theorem pageLimit_pos {v : Option Json} (h : pageLimit v = .ok limit) : 0 < limit := by
  cases v with
  | none =>
    obtain rfl : MODELS_PAGE_DEFAULT = limit := Except.ok.inj h
    decide
  | some v =>
    cases hn : (limitNumber? v).bind positiveInteger? with
    | none =>
      simp only [pageLimit, hn] at h
      exact nomatch h
    | some n =>
      simp only [pageLimit, hn] at h
      obtain rfl : min n MODELS_PAGE_MAX = limit := Except.ok.inj h
      obtain ⟨x, -, hx⟩ := Option.bind_eq_some_iff.mp hn
      have hpos : 0 < n := by
        cases x with
        | fin q =>
          unfold positiveInteger? at hx
          dsimp only at hx
          split at hx
          · rename_i hq
            obtain rfl : q.num.toNat = n := Option.some.inj hx
            omega
          · exact absurd hx.symm (Option.some_ne_none n)
        | inf neg => exact absurd hx.symm (Option.some_ne_none n)
        | nan => exact absurd hx.symm (Option.some_ne_none n)
      exact lt_min hpos (by decide)

theorem windowStart_le (ids : List JsString) (after : Option JsString) : windowStart ids after ≤ ids.length := by
  cases after with
  | none => exact Nat.zero_le _
  | some id =>
    cases hidx : ids.findIdx? fun x => decide (x = id) with
    | none => simp [windowStart, hidx]
    | some idx =>
      have hlt := (List.findIdx?_eq_some_iff_findIdx_eq.mp hidx).1
      simpa [windowStart, hidx] using Nat.succ_le_of_lt hlt

theorem windowEnd_le (ids : List JsString) (before : Option JsString) : windowEnd ids before ≤ ids.length := by
  cases before with
  | none => exact le_rfl
  | some id =>
    cases hidx : ids.findIdx? fun x => decide (x = id) with
    | none => simp [windowEnd, hidx]
    | some idx =>
      have hlt := (List.findIdx?_eq_some_iff_findIdx_eq.mp hidx).1
      simpa [windowEnd, hidx] using hlt.le

/-- A page is the head of its window. -/
theorem pageBetween_data (idOf : T → JsString) (entries : List T) (start stop limit : ℕ) :
    (pageBetween idOf entries start stop limit).data = (pageWindow entries start stop).take limit := by
  unfold pageBetween pageWindow
  dsimp only
  have hend : (if start = 0 then min stop limit else min stop (start + limit)) = min (start + limit) stop := by
    split <;> omega
  rw [hend, ← List.take_take, List.take_drop]

theorem pageWindow_length (hstop : stop ≤ entries.length) : (pageWindow entries start stop).length = stop - start := by
  unfold pageWindow
  rw [List.length_drop, List.length_take, Nat.min_eq_left hstop]

/-- The flag is set whenever the list, not the window, goes on behind the page. -/
theorem pageBetween_has_more (idOf : T → JsString) (start limit : ℕ) (hstop : stop ≤ entries.length) :
    (pageBetween idOf entries start stop limit).has_more = true ↔
      start + (pageBetween idOf entries start stop limit).data.length < entries.length := by
  have hmore : (pageBetween idOf entries start stop limit).has_more =
      ((if 0 < (pageBetween idOf entries start stop limit).data.length then
        decide ((if start = 0 then (pageBetween idOf entries start stop limit).data.length
          else start + (pageBetween idOf entries start stop limit).data.length) < stop) ||
        decide (start + (pageBetween idOf entries start stop limit).data.length < stop) else false) ||
        decide ((if start = 0 then (pageBetween idOf entries start stop limit).data.length
          else start + (pageBetween idOf entries start stop limit).data.length) < entries.length)) := rfl
  have hconsumed : (if start = 0 then (pageBetween idOf entries start stop limit).data.length
      else start + (pageBetween idOf entries start stop limit).data.length) =
        start + (pageBetween idOf entries start stop limit).data.length := by
    split <;> omega
  rw [hmore, hconsumed, Bool.or_self, Bool.or_eq_true, decide_eq_true_eq]
  constructor
  · rintro (h | h)
    · split at h
      · exact lt_of_lt_of_le (of_decide_eq_true h) hstop
      · exact nomatch h
    · exact h
  · exact Or.inr

theorem paginateModels_ok (hlimit : pageLimit query.limit = .ok limit) :
    paginateModels idOf entries query = .ok (pageBetween idOf entries
      (windowStart (entries.map idOf) (anchor? query.after_id)) (windowEnd (entries.map idOf) (anchor? query.before_id))
      limit) := by
  unfold paginateModels
  rw [hlimit]
  rfl

/-- The page is exact when the window is open. -/
theorem pageExact_iff (hlimit : pageLimit query.limit = .ok limit) :
    (∃ page, paginateModels idOf entries query = .ok page ∧ PageExact idOf entries query limit page) ↔
      WindowOpen idOf entries query limit := by
  have hpos := pageLimit_pos hlimit
  have hstart := windowStart_le (entries.map idOf) (anchor? query.after_id)
  have hstop := windowEnd_le (entries.map idOf) (anchor? query.before_id)
  rw [List.length_map] at hstart hstop
  unfold WindowOpen
  rw [paginateModels_ok hlimit]
  have hdata : (pageBetween idOf entries (windowStart (entries.map idOf) (anchor? query.after_id))
      (windowEnd (entries.map idOf) (anchor? query.before_id)) limit).data = (queryWindow idOf entries query).take limit :=
    pageBetween_data idOf entries _ _ limit
  have hwindow : (queryWindow idOf entries query).length =
      windowEnd (entries.map idOf) (anchor? query.before_id) - windowStart (entries.map idOf) (anchor? query.after_id) :=
    pageWindow_length hstop
  have hmore := pageBetween_has_more idOf (windowStart (entries.map idOf) (anchor? query.after_id)) limit hstop
  rw [hdata, List.length_take, hwindow] at hmore
  constructor
  · rintro ⟨page, hpage, hexact⟩
    obtain rfl := Except.ok.inj hpage
    have hiff := hmore.symm.trans hexact.more
    rw [hdata, List.length_take, hwindow] at hiff
    omega
  · intro hopen
    have hiff : (pageBetween idOf entries (windowStart (entries.map idOf) (anchor? query.after_id))
        (windowEnd (entries.map idOf) (anchor? query.before_id)) limit).has_more = true ↔
          min limit (queryWindow idOf entries query).length < (queryWindow idOf entries query).length := by
      rw [hmore, hwindow]
      omega
    refine ⟨_, rfl, hdata, rfl, rfl, ?_, fun hempty => ?_⟩
    · rw [hiff, hdata, List.length_take]
    · rw [hdata] at hempty
      have hzero := congrArg List.length hempty
      rw [List.length_take, List.length_nil] at hzero
      rw [Bool.eq_false_iff, ne_eq, hiff]
      omega

/-! ### The walk -/

theorem anchor?_str {id : JsString} (h : id ≠ []) : anchor? (some (.str id)) = some id := by
  unfold anchor? asString truthy?
  simp [h]

/-- Behind the entries seen so far the window starts. -/
theorem windowStart_seen {seen rest : List T} (hids : ((seen ++ rest).map idOf).Nodup)
    (hne : ∀ e ∈ seen ++ rest, idOf e ≠ []) :
    windowStart ((seen ++ rest).map idOf) (anchor? ((seen.getLast?.map idOf).map .str)) = seen.length := by
  cases hlast : seen.getLast? with
  | none =>
    rw [List.getLast?_eq_none_iff.mp hlast]
    rfl
  | some e =>
    obtain ⟨front, rfl⟩ := List.getLast?_eq_some_iff.mp hlast
    have hids' : (front.map idOf ++ idOf e :: rest.map idOf).Nodup := by
      simpa using hids
    have hfront : ∀ x ∈ front.map idOf, decide (x = idOf e) = false := by
      intro x hx
      exact decide_eq_false ((List.nodup_append.mp hids').2.2 x hx _ List.mem_cons_self)
    have hidx : (front.map idOf ++ idOf e :: rest.map idOf).findIdx? (fun x => decide (x = idOf e)) =
        some front.length := by
      rw [List.findIdx?_append, List.findIdx?_eq_none_iff.mpr hfront, List.findIdx?_cons]
      simp
    have hsplit : (front ++ [e] ++ rest).map idOf = front.map idOf ++ idOf e :: rest.map idOf := by
      simp
    rw [Option.map_some, Option.map_some, anchor?_str (hne e (by simp)), hsplit, List.length_append]
    simp [windowStart, hidx]

/-- The page behind the entries seen so far. -/
theorem walk_page {v : Option Json} (hlimit : pageLimit v = .ok limit) {seen rest : List T}
    (hids : ((seen ++ rest).map idOf).Nodup) (hne : ∀ e ∈ seen ++ rest, idOf e ≠ []) :
    ∃ page, paginateModels idOf (seen ++ rest) ⟨v, (seen.getLast?.map idOf).map .str, none⟩ = .ok page ∧
      page.data = rest.take limit ∧ page.last_id = page.data.getLast?.map idOf ∧
      (page.has_more = true ↔ limit < rest.length) := by
  have hwindow : pageWindow (seen ++ rest) seen.length (seen ++ rest).length = rest := by
    unfold pageWindow
    rw [List.take_length, List.drop_left]
  have hdata := pageBetween_data idOf (seen ++ rest) seen.length (seen ++ rest).length limit
  rw [hwindow] at hdata
  have hmore := pageBetween_has_more idOf seen.length limit (le_refl (seen ++ rest).length)
  have hend : windowEnd ((seen ++ rest).map idOf) (anchor? none) = (seen ++ rest).length := List.length_map idOf
  refine ⟨_, paginateModels_ok hlimit, ?_⟩
  dsimp only
  rw [windowStart_seen hids hne, hend]
  refine ⟨hdata, rfl, hmore.trans ?_⟩
  rw [hdata, List.length_take, List.length_append]
  omega

/-- The walk from any page boundary on. -/
theorem walk_from {v : Option Json} (hlimit : pageLimit v = .ok limit) : ∀ (n : ℕ) (seen rest : List T),
    rest.length ≤ n → ((seen ++ rest).map idOf).Nodup → (∀ e ∈ seen ++ rest, idOf e ≠ []) →
      Walk idOf (seen ++ rest) v (seen.getLast?.map idOf) rest := by
  intro n
  induction n with
  | zero =>
    intro seen rest hn hids hne
    obtain ⟨page, hpage, hdata, -, hmore⟩ := walk_page hlimit hids hne
    have hall : page.data = rest := hdata.trans (List.take_of_length_le (by omega))
    have hflag : page.has_more = false := by
      rw [Bool.eq_false_iff, ne_eq, hmore]
      omega
    have hend := Walk.last hpage hflag
    rw [hall] at hend
    exact hend
  | succ n ih =>
    intro seen rest hn hids hne
    obtain ⟨page, hpage, hdata, hlast, hmore⟩ := walk_page hlimit hids hne
    by_cases hlong : limit < rest.length
    · obtain ⟨e, he⟩ : ∃ e, (rest.take limit).getLast? = some e := by
        refine Option.ne_none_iff_exists'.mp fun hempty => ?_
        have hzero := congrArg List.length (List.getLast?_eq_none_iff.mp hempty)
        rw [List.length_take, List.length_nil] at hzero
        have hpos := pageLimit_pos hlimit
        omega
      have hsplit : seen ++ rest = (seen ++ rest.take limit) ++ rest.drop limit := by
        rw [List.append_assoc, List.take_append_drop]
      have hgo : Walk idOf (seen ++ rest) v (some (idOf e)) (rest.drop limit) := by
        have hnext := ih (seen ++ rest.take limit) (rest.drop limit) (by
          have hpos := pageLimit_pos hlimit
          rw [List.length_drop]
          omega)
        rw [← hsplit, List.getLast?_append, he] at hnext
        exact hnext hids hne
      have hstep := Walk.next hpage (hmore.mpr hlong) (hlast.trans (by rw [hdata, he]; rfl)) hgo
      rw [hdata, List.take_append_drop] at hstep
      exact hstep
    · have hall : page.data = rest := hdata.trans (List.take_of_length_le (by omega))
      have hflag : page.has_more = false := by
        rw [Bool.eq_false_iff, ne_eq, hmore]
        exact hlong
      have hend := Walk.last hpage hflag
      rw [hall] at hend
      exact hend

/-! ### The catalog that is paged -/

/-- No id is empty, and none is discovered twice. -/
structure Catalog.ListsWell (c : Catalog) : Prop where
  named : ∀ e ∈ c.models, e.id ≠ []
  distinct : c.source = .discovered → (c.models.map CatalogEntry.id).Nodup

theorem listsWell_newModelCatalog (fallbackDefs : List Json) :
    (newModelCatalog fallbackDefs).toCatalog.ListsWell :=
  ⟨buildFallbackCatalog_id_ne_nil fallbackDefs, fun h => nomatch h⟩

theorem listsWell_refresh {current : CatalogState} (h : current.toCatalog.ListsWell) (d : Discovery) :
    (current.refresh d).1.toCatalog.ListsWell := by
  unfold CatalogState.refresh
  cases d.result with
  | error message => exact h
  | ok stdout =>
    obtain ⟨hslugs, hne⟩ := parseModelsOutput_slugs stdout
    dsimp only
    split
    · exact ⟨foldEfforts_id_ne_nil hne, fun _ => foldEfforts_nodup hslugs⟩
    · exact h

/-- The catalog after those discoveries, failed ones among them. -/
def catalogAfter (fallbackDefs : List Json) (ds : List Discovery) : CatalogState :=
  ds.foldl (fun current d => (current.refresh d).1) (newModelCatalog fallbackDefs)

theorem listsWell_catalogAfter (fallbackDefs : List Json) (ds : List Discovery) :
    (catalogAfter fallbackDefs ds).toCatalog.ListsWell := by
  unfold catalogAfter
  induction ds using List.reverseRecOn with
  | nil => exact listsWell_newModelCatalog fallbackDefs
  | append_singleton ds d ih =>
    rw [List.foldl_append]
    exact listsWell_refresh ih d

/-- The walk over the list of a catalog; the configured fallback may name an id twice. -/
theorem walk_catalogAfter (fallbackDefs : List Json) (ds : List Discovery) {c : Catalog}
    (hc : (catalogAfter fallbackDefs ds).toCatalog = c)
    (hfallback : c.source = .fallback → (c.models.map CatalogEntry.id).Nodup)
    {v : Option Json} (hlimit : pageLimit v = .ok limit) :
    Walk AnthropicModelEntry.id (toAnthropicEntries c.models) v none (toAnthropicEntries c.models) := by
  obtain ⟨hnamed, hdistinct⟩ := hc ▸ listsWell_catalogAfter fallbackDefs ds
  have hids : ((toAnthropicEntries c.models).map AnthropicModelEntry.id).Nodup := by
    have hsame : (toAnthropicEntries c.models).map AnthropicModelEntry.id = c.models.map CatalogEntry.id :=
      List.map_map
    rw [hsame]
    cases hsource : c.source with
    | discovered => exact hdistinct hsource
    | fallback => exact hfallback hsource
  refine walk_from hlimit _ [] _ le_rfl hids fun e he => ?_
  obtain ⟨m, hm, rfl⟩ := List.mem_map.mp he
  exact hnamed m hm

/-- **Pages are exact when their window is open**, and the walk over the whole list sees every entry once. -/
theorem paginateModels_iff (idOf : T → JsString) (entries : List T) (hids : (entries.map idOf).Nodup)
    (hne : ∀ e ∈ entries, idOf e ≠ []) (query : PageQuery) (limit : ℕ) (hlimit : pageLimit query.limit = .ok limit) :
    ((∃ page, paginateModels idOf entries query = .ok page ∧ PageExact idOf entries query limit page) ↔
      WindowOpen idOf entries query limit) ∧ Walk idOf entries query.limit none entries :=
  ⟨pageExact_iff hlimit, walk_from hlimit entries.length [] entries le_rfl hids hne⟩

/-! ### Three models -/

def sampleModels : List AnthropicModelEntry :=
  toAnthropicEntries [⟨js "m1", [], none⟩, ⟨js "m2", [], none⟩, ⟨js "m3", [], none⟩]

/-- The page before `m2` is the whole window, and the flag is set. -/
def beforeSecond : PageQuery := ⟨some (.str (js "5")), none, some (.str (js "m2"))⟩

theorem not_pageExact_before : ¬ ∃ page, paginateModels AnthropicModelEntry.id sampleModels beforeSecond = .ok page ∧
    PageExact AnthropicModelEntry.id sampleModels beforeSecond 5 page := by
  rintro ⟨page, hpage, hexact⟩
  have hlimit : pageLimit beforeSecond.limit = .ok 5 := by decide +kernel
  obtain rfl := Except.ok.inj ((paginateModels_ok hlimit).symm.trans hpage)
  exact absurd hexact.more (by decide +kernel)

theorem paginateModels_two : WindowOpen AnthropicModelEntry.id sampleModels ⟨some (.num (.fin 2)), none, none⟩ 2 ∧
    Walk AnthropicModelEntry.id sampleModels (some (.num (.fin 2))) none sampleModels := by
  obtain ⟨hiff, hwalk⟩ := paginateModels_iff AnthropicModelEntry.id sampleModels (by decide +kernel)
    (by decide +kernel) ⟨some (.num (.fin 2)), none, none⟩ 2 (by decide +kernel)
  exact ⟨Or.inl (by decide +kernel), hwalk⟩

end Pages

end AgyProxy
