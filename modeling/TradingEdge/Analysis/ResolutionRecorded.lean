import Mathlib.Data.List.Find
import TradingEdge.Library.EntryReading
import TradingEdge.Program.PolymarketDiscovery

/-!
# Whether the resolution of a market reaches its row

A pass inserts the rows it builds, and an insert leaves a row that is there as it is.  A market
that was found open has its row, so the passes that find it resolved change nothing, unless the
inserts of all that found it open failed.

Which pages a pass fetches and which markets it takes from them is said here by the answers of the
API and the fate of the inserts alone; `logged_discoverMarkets` connects it to the loops.
-/

set_option autoImplicit false

namespace TradingEdge.Analysis

open TradingEdge.Program TradingEdge.Library

variable {K : Type} [Field K] [LinearOrder K]

/-- The rows the passes build, in order. -/
def seenMarkets (passes : List (DiscoveryPass K)) : List (PolymarketRow K) :=
  passes.flatMap fun pass => (discoverMarkets pass).seen

/-- The rows the inserts of the passes put to the table, in order. -/
def insertedMarkets (passes : List (DiscoveryPass K)) : List (PolymarketRow K) :=
  passes.flatMap fun pass => (discoverMarkets pass).inserted.flatten

/-- The market was first seen open, and last seen resolved with an outcome. -/
structure OpenThenResolved (passes : List (DiscoveryPass K)) (conditionId : String)
    (outcome : Option String) : Prop where
  firstOpen : ∃ r, (seenMarkets passes).find? (fun r => r.conditionId = conditionId) = some r ∧
    r.resolved = false
  lastResolved : ∃ r,
    (seenMarkets passes).reverse.find? (fun r => r.conditionId = conditionId) = some r ∧
      r.resolved = true ∧ r.outcome = outcome

/-- The stored row says that the market is resolved, and how. -/
def ResolutionStored (passes : List (DiscoveryPass K)) (conditionId : String)
    (outcome : Option String) : Prop :=
  ∃ r ∈ (marketTable passes).rows,
    r.conditionId = conditionId ∧ r.resolved = true ∧ r.outcome = outcome

/-- The table is the result of all inserts in order. -/
theorem marketTable_eq (passes : List (DiscoveryPass K)) :
    marketTable passes = upsertMany Table.empty (insertedMarkets passes) := by
  unfold marketTable insertedMarkets
  simp only [foldl_upsertMany]
  rw [List.flatMap_def, ← foldl_upsertMany, List.foldl_map]

/-- A stored row is the first of its market that an insert put to the table. -/
theorem mem_marketTable_iff (passes : List (DiscoveryPass K)) (r : PolymarketRow K) :
    r ∈ (marketTable passes).rows ↔
      (insertedMarkets passes).find? (fun r' => r'.conditionId = r.conditionId) = some r := by
  rw [Table.mem_rows_iff_find?, marketTable_eq, find?_upsertMany]
  rfl

/-! ## What the API shows -/

section Shown

omit [Field K] [LinearOrder K]

/-- A market as a page shows it, with its event. -/
abbrev ShownMarket (K : Type) := GammaEventMarket K × GammaEvent K

/-- The slug of a market, or else that of its event. -/
def shownSlug (e : ShownMarket K) : Option String := (nonEmpty e.1.slug).or (nonEmpty e.2.slug)

/-- The market has an id and is of the family. -/
def OfFamily (slugPattern : String) (e : ShownMarket K) : Prop :=
  (nonEmpty e.1.conditionId).isSome ∧ ∃ slug ∈ shownSlug e, slugPattern.toList <+: slug.toList

instance (slugPattern : String) (e : ShownMarket K) : Decidable (OfFamily slugPattern e) :=
  inferInstanceAs (Decidable (_ ∧ _))

/-- The window of the market can be told, from its slug or from the end of its event. -/
def Dated (e : ShownMarket K) : Prop :=
  ((shownSlug e).bind trailingTs).isSome ∨ e.2.endDate ≠ some none

instance (e : ShownMarket K) : Decidable (Dated e) := inferInstanceAs (Decidable (_ ∨ _))

/-- The markets of a page, in order. -/
def marketsOn (page : GammaPage K) : List (ShownMarket K) :=
  (page.events.getD []).flatMap fun ev => ev.markets.map fun m => (m, ev)

/-- Every market of the family on the page has its window. -/
def Readable (slugPattern : String) (page : GammaPage K) : Prop :=
  ∀ e ∈ marketsOn page, OfFamily slugPattern e → Dated e

instance (slugPattern : String) (page : GammaPage K) : Decidable (Readable slugPattern page) :=
  inferInstanceAs (Decidable (∀ e ∈ marketsOn page, _))

/-- The first market with an id that the page shows of the family. -/
def firstShown (slugPattern : String) (page : GammaPage K) (conditionId : String) :
    Option (ShownMarket K) :=
  (marketsOn page).find? fun e => OfFamily slugPattern e ∧ e.1.conditionId = some conditionId

/-- The API shows the market as resolved. -/
def ShownResolved (e : ShownMarket K) : Bool := e.1.closed || e.1.resolved || e.2.closed

/-- The pass asks for another page after this one: it was not empty and could be read, its insert
went through unless there was nothing to insert, no event on it ended before the time the pass goes
back to, and it had at least `size` events. -/
def GoesOn (slugPattern : String) (sinceEpoch : ℤ) (size : ℕ) (page : GammaPage K) : Prop :=
  Readable slugPattern page ∧
    (page.committed ∨ ∀ e ∈ marketsOn page, ¬OfFamily slugPattern e) ∧
    (∀ ev ∈ page.events.getD [], ∀ endTs ∈ endEpoch ev, sinceEpoch ≤ endTs) ∧
    size ≤ (page.events.getD []).length

instance (slugPattern : String) (sinceEpoch : ℤ) (size : ℕ) (page : GammaPage K) :
    Decidable (GoesOn slugPattern sinceEpoch size page) :=
  inferInstanceAs (Decidable (_ ∧ _ ∧ _ ∧ _))

/-- The pages up to the first one after which there is no other. -/
def pagesToEnd (goesOn : GammaPage K → Prop) [DecidablePred goesOn] :
    List (GammaPage K) → List (GammaPage K)
  | [] => []
  | page :: rest => page :: if goesOn page then pagesToEnd goesOn rest else []

/-- The pages a pass fetches. -/
def fetchedPages (pass : DiscoveryPass K) : List (GammaPage K) :=
  if pass.slugPattern = "btc-updown-5m-" ∨ pass.slugPattern = "eth-updown-5m-" then
    pagesToEnd (GoesOn pass.slugPattern pass.sinceEpoch 1) pass.pages
  else if pass.slugPattern = "btc-updown-15m-" ∨ pass.slugPattern = "eth-updown-15m-" then
    pagesToEnd (GoesOn pass.slugPattern pass.sinceEpoch 500) (pass.pages.take 60)
  else []

/-- The pages all passes fetch, in order, each with the family it is searched for. -/
def allFetched (passes : List (DiscoveryPass K)) : List (String × GammaPage K) :=
  passes.flatMap fun pass => (fetchedPages pass).map fun page => (pass.slugPattern, page)

/-- The market can be read off the page. -/
def Shows (page : String × GammaPage K) (conditionId : String) : Prop :=
  Readable page.1 page.2 ∧ (firstShown page.1 page.2 conditionId).isSome

end Shown

/-- **The exact condition**: of the pages that show the market the first one whose insert went
through shows it resolved, with the outcome. -/
def SavedResolved (passes : List (DiscoveryPass K)) (conditionId : String)
    (outcome : Option String) : Prop :=
  ∃ before page after, allFetched passes = before ++ page :: after ∧
    (∀ earlier ∈ before, Shows earlier conditionId → earlier.2.committed = false) ∧
    Readable page.1 page.2 ∧ page.2.committed ∧
    ∃ e, firstShown page.1 page.2 conditionId = some e ∧ ShownResolved e ∧
      winningOutcome e.1 = outcome

/-! ## The rows of a page -/

/-- The row that a market of a page gets. -/
def rowOf (slugPattern : String) (now : ℤ) (e : ShownMarket K) : Option (PolymarketRow K) :=
  (marketRowFromEvent e.1 e.2 slugPattern now).toOption.join

omit [Field K] [LinearOrder K] in
/-- The window is told by the number at the end of the slug, or by an end date that is none or a
date. -/
theorem isOk_closeTsFromSlug (slug : String) (ev : GammaEvent K) (now : ℤ) :
    (closeTsFromSlug slug ev now).isOk ↔ (trailingTs slug).isSome ∨ ev.endDate ≠ some none := by
  rw [closeTsFromSlug]
  cases trailingTs slug with
  | some ts => exact iff_of_true rfl (Or.inl rfl)
  | none =>
    cases ev.endDate with
    | none => exact iff_of_true rfl (Or.inr (Option.some_ne_none _).symm)
    | some date =>
      cases date with
      | none => exact iff_of_false Bool.false_ne_true (by simp)
      | some endTs => exact iff_of_true rfl (Or.inr (by simp))

/-- A market that is not of the family is passed over. -/
theorem marketRowFromEvent_of_not_family {slugPattern : String} (now : ℤ) {e : ShownMarket K}
    (h : ¬OfFamily slugPattern e) : marketRowFromEvent e.1 e.2 slugPattern now = .ok none := by
  rw [marketRowFromEvent]
  split
  · next slug conditionId hslug hid =>
    refine if_neg fun hprefix => h ⟨?_, slug, hslug, hprefix⟩
    rw [hid]
    rfl
  · rfl

/-- One that is has a row, with its id and what the API says, unless its window cannot be told. -/
theorem marketRowFromEvent_of_family {slugPattern : String} (now : ℤ) {e : ShownMarket K}
    (h : OfFamily slugPattern e) :
    ∃ (slug : String) (row : ℤ → PolymarketRow K), shownSlug e = some slug ∧
      marketRowFromEvent e.1 e.2 slugPattern now =
        (closeTsFromSlug slug e.2 now).map (fun windowTs => some (row windowTs)) ∧
      ∀ windowTs, e.1.conditionId = some (row windowTs).conditionId ∧
        (row windowTs).resolved = ShownResolved e ∧
        (row windowTs).outcome = if ShownResolved e then winningOutcome e.1 else none := by
  obtain ⟨hid, slug, hslug, hprefix⟩ := h
  obtain ⟨conditionId, hid⟩ := Option.isSome_iff_exists.mp hid
  have hgiven : e.1.conditionId = some conditionId := (Option.filter_eq_some_iff.mp hid).1
  have hsame : (nonEmpty e.1.slug).or (nonEmpty e.2.slug) = some slug := hslug
  simp only [marketRowFromEvent, hsame, hid, if_pos hprefix]
  exact ⟨slug, _, hslug, rfl, fun windowTs => ⟨hgiven, rfl, rfl⟩⟩

/-- A market of the family has its row where its window can be told. -/
theorem isOk_marketRowFromEvent (slugPattern : String) (now : ℤ) (e : ShownMarket K) :
    (marketRowFromEvent e.1 e.2 slugPattern now).isOk ↔ (OfFamily slugPattern e → Dated e) := by
  by_cases hfamily : OfFamily slugPattern e
  · obtain ⟨slug, row, hslug, hrow, -⟩ := marketRowFromEvent_of_family now hfamily
    have hdated : Dated e ↔ (closeTsFromSlug slug e.2 now).isOk := by
      rw [isOk_closeTsFromSlug, Dated, hslug]
      rfl
    rw [hrow, imp_iff_right hfamily, hdated]
    cases closeTsFromSlug slug e.2 now <;> rfl
  · rw [marketRowFromEvent_of_not_family now hfamily]
    exact iff_of_true rfl fun h => absurd h hfamily

/-- The row has the id and what the API says. -/
theorem rowOf_eq_some {slugPattern : String} {now : ℤ} {e : ShownMarket K} {r : PolymarketRow K}
    (h : rowOf slugPattern now e = some r) :
    OfFamily slugPattern e ∧ e.1.conditionId = some r.conditionId ∧ r.resolved = ShownResolved e ∧
      r.outcome = if ShownResolved e then winningOutcome e.1 else none := by
  by_cases hfamily : OfFamily slugPattern e
  · obtain ⟨slug, row, -, hrow, hfields⟩ := marketRowFromEvent_of_family now hfamily
    rw [rowOf, hrow] at h
    cases hwindow : closeTsFromSlug slug e.2 now with
    | error _ =>
      rw [hwindow] at h
      cases h
    | ok windowTs =>
      rw [hwindow] at h
      obtain rfl : row windowTs = r := Option.some.inj h
      exact ⟨hfamily, hfields windowTs⟩
  · rw [rowOf, marketRowFromEvent_of_not_family now hfamily] at h
    cases h

/-- A market of the family whose window can be told has a row. -/
theorem exists_rowOf {slugPattern : String} (now : ℤ) {e : ShownMarket K}
    (hfamily : OfFamily slugPattern e) (hdated : Dated e) :
    ∃ r, rowOf slugPattern now e = some r := by
  obtain ⟨slug, row, hslug, hrow, -⟩ := marketRowFromEvent_of_family now hfamily
  have hok := (isOk_marketRowFromEvent slugPattern now e).mpr fun _ => hdated
  rw [rowOf]
  rw [hrow] at hok ⊢
  cases hwindow : closeTsFromSlug slug e.2 now with
  | error _ =>
    rw [hwindow] at hok
    exact absurd hok Bool.false_ne_true
  | ok windowTs => exact ⟨row windowTs, rfl⟩

/-- The rows of a page that can be read. -/
def rowsOn (slugPattern : String) (page : GammaPage K) : List (PolymarketRow K) :=
  if Readable slugPattern page then (marketsOn page).filterMap (rowOf slugPattern page.now) else []

/-- The rows of a page, or the end of the pass. -/
theorem pageRows_eq (slugPattern : String) (page : GammaPage K) :
    pageRows (page.events.getD []) slugPattern page.now =
      if Readable slugPattern page then .ok (rowsOn slugPattern page) else .error () := by
  have hreadable : (∀ e ∈ marketsOn page,
      (marketRowFromEvent e.1 e.2 slugPattern page.now).isOk) ↔ Readable slugPattern page :=
    forall₂_congr fun e _ => isOk_marketRowFromEvent slugPattern page.now e
  have hrows : pageRows (page.events.getD []) slugPattern page.now =
      ((marketsOn page).mapM fun e => marketRowFromEvent e.1 e.2 slugPattern page.now).map
        fun rows => rows.filterMap id := rfl
  rw [hrows, mapM_eq_ite]
  by_cases hread : Readable slugPattern page
  · rw [if_pos (hreadable.mpr hread), if_pos hread, rowsOn, if_pos hread, Except.map,
      List.filterMap_filterMap]
    rfl
  · rw [if_neg (mt hreadable.mp hread), if_neg hread]
    rfl

/-- A page has a row to insert where it can be read and has a market of the family. -/
theorem rowsOn_eq_nil_iff {slugPattern : String} {page : GammaPage K}
    (h : Readable slugPattern page) :
    rowsOn slugPattern page = [] ↔ ∀ e ∈ marketsOn page, ¬OfFamily slugPattern e := by
  rw [rowsOn, if_pos h, List.filterMap_eq_nil_iff]
  constructor
  · intro hnone e he hfamily
    obtain ⟨r, hr⟩ := exists_rowOf page.now hfamily (h e he hfamily)
    rw [hnone e he] at hr
    cases hr
  · intro hnone e he
    by_contra hrow
    obtain ⟨r, hr⟩ := Option.ne_none_iff_exists'.mp hrow
    exact hnone e he (rowOf_eq_some hr).1

/-- The first row of a market on a page is that of the first entry of the market. -/
theorem find?_rowsOn {page : String × GammaPage K} {conditionId : String}
    (h : Readable page.1 page.2) :
    (rowsOn page.1 page.2).find? (fun r => r.conditionId = conditionId) =
      (firstShown page.1 page.2 conditionId).bind (rowOf page.1 page.2.now) := by
  rw [rowsOn, if_pos h, List.find?_filterMap, firstShown]
  refine congrArg (fun e : Option (ShownMarket K) => e.bind _) (List.find?_congr fun e he => ?_)
  rw [Bool.eq_iff_iff, Option.any_eq_true, decide_eq_true_eq]
  constructor
  · rintro ⟨r, hr, hid⟩
    obtain ⟨hfamily, hgiven, -⟩ := rowOf_eq_some hr
    exact ⟨hfamily, hgiven.trans (congrArg some (of_decide_eq_true hid))⟩
  · rintro ⟨hfamily, hgiven⟩
    obtain ⟨r, hr⟩ := exists_rowOf page.2.now hfamily (h e he hfamily)
    have hid := (rowOf_eq_some hr).2.1
    exact ⟨r, hr, decide_eq_true (Option.some.inj (hid.symm.trans hgiven))⟩

/-! ## The rows of a pass -/

/-- The rows of a page whose insert goes through. -/
def savedOn (slugPattern : String) (page : GammaPage K) : List (PolymarketRow K) :=
  if page.committed then rowsOn slugPattern page else []

/-- A loop sees the rows of the pages, and inserts those whose insert goes through. -/
def Logged (slugPattern : String) (log : DiscoveryLog K) (pages : List (GammaPage K)) : Prop :=
  log.seen = pages.flatMap (rowsOn slugPattern) ∧
    log.inserted.flatten = pages.flatMap (savedOn slugPattern)

/-- A pass that fetches no page. -/
theorem Logged.nil (slugPattern : String) : Logged slugPattern (⟨[], []⟩ : DiscoveryLog K) [] :=
  ⟨rfl, rfl⟩

/-- The last page of a pass. -/
theorem logged_last {slugPattern : String} {goesOn : GammaPage K → Prop} [DecidablePred goesOn]
    {page : GammaPage K} {rest : List (GammaPage K)} {log : DiscoveryLog K} (hlast : ¬goesOn page)
    (hseen : log.seen = rowsOn slugPattern page)
    (hinserted : log.inserted.flatten = savedOn slugPattern page) :
    Logged slugPattern log (pagesToEnd goesOn (page :: rest)) := by
  rw [pagesToEnd, if_neg hlast]
  exact ⟨by rw [hseen, List.flatMap_singleton], by rw [hinserted, List.flatMap_singleton]⟩

/-- One turn of either loop; `ended` is its test for the end. -/
theorem logged_turn {slugPattern : String} {sinceEpoch : ℤ} {size : ℕ} (hsize : 0 < size)
    {page : GammaPage K} {rest : List (GammaPage K)} {ended : List (GammaEvent K) → Prop}
    [DecidablePred ended]
    (hended : ∀ events, events ≠ [] → (ended events ↔
      (∃ ev ∈ events, ∃ endTs ∈ endEpoch ev, endTs < sinceEpoch) ∨ events.length < size))
    {later : DiscoveryLog K}
    (hlater : Logged slugPattern later (pagesToEnd (GoesOn slugPattern sinceEpoch size) rest)) :
    Logged slugPattern
      (match page.events with
        | none => ⟨[], []⟩
        | some [] => ⟨[], []⟩
        | some events =>
          match pageRows events slugPattern page.now with
          | .error _ => ⟨[], []⟩
          | .ok rows =>
            if rows ≠ [] ∧ ¬page.committed then ⟨rows, []⟩
            else if ended events then ⟨rows, [rows]⟩
            else ⟨rows ++ later.seen, rows :: later.inserted⟩)
      (pagesToEnd (GoesOn slugPattern sinceEpoch size) (page :: rest)) := by
  by_cases hempty : page.events.getD [] = []
  · -- a request that raises and an empty page end the pass, with nothing seen
    have hnone : rowsOn slugPattern page = [] := by
      rw [rowsOn, marketsOn, hempty, List.flatMap_nil, List.filterMap_nil, ite_self]
    have hlast : ¬GoesOn slugPattern sinceEpoch size page := by
      rintro ⟨-, -, -, hlength⟩
      rw [hempty, List.length_nil] at hlength
      omega
    have hsaved : savedOn slugPattern page = [] := by rw [savedOn, hnone, ite_self]
    split
    · exact logged_last hlast hnone.symm hsaved.symm
    · exact logged_last hlast hnone.symm hsaved.symm
    · next events hevents hne =>
      rw [hne] at hempty
      exact absurd hempty hevents
  · split
    · next hevents => exact absurd (by rw [hevents]; rfl) hempty
    · next hevents => exact absurd (by rw [hevents]; rfl) hempty
    · next events hne hevents =>
      have hrows := pageRows_eq slugPattern page
      have hgiven : page.events.getD [] = events := by rw [hevents]; rfl
      rw [hgiven] at hrows hempty
      by_cases hread : Readable slugPattern page
      · rw [if_pos hread] at hrows
        simp only [hrows]
        by_cases hfails : rowsOn slugPattern page ≠ [] ∧ ¬page.committed
        · rw [if_pos hfails]
          refine logged_last (fun h => ?_) rfl (if_neg hfails.2).symm
          exact h.2.1.elim hfails.2 fun h => hfails.1 ((rowsOn_eq_nil_iff hread).mpr h)
        · have hinserted : page.committed ∨ rowsOn slugPattern page = [] := by tauto
          have hsaved : savedOn slugPattern page = rowsOn slugPattern page := by
            rw [savedOn]
            split_ifs with hcommitted
            · rfl
            · exact (hinserted.resolve_left hcommitted).symm
          have hgoes : GoesOn slugPattern sinceEpoch size page ↔ ¬ended events := by
            rw [hended events hempty, GoesOn, hgiven, ← rowsOn_eq_nil_iff hread]
            push Not
            exact ⟨fun h => h.2.2, fun h => ⟨hread, hinserted, h⟩⟩
          rw [if_neg hfails]
          by_cases hend : ended events
          · rw [if_pos hend]
            exact logged_last (fun h => hgoes.mp h hend) rfl (by rw [hsaved]; simp)
          · rw [if_neg hend, pagesToEnd, if_pos (hgoes.mpr hend)]
            refine ⟨?_, ?_⟩
            · rw [List.flatMap_cons, ← hlater.1]
            · rw [List.flatMap_cons, ← hlater.2, hsaved, List.flatten_cons]
      · rw [if_neg hread] at hrows
        simp only [hrows]
        have hnone : rowsOn slugPattern page = [] := if_neg hread
        exact logged_last (fun h => hread h.1) hnone.symm (by rw [savedOn, hnone, ite_self]; rfl)

/-- The loop over a series. -/
theorem logged_discoverViaSeries (slugPattern : String) (sinceEpoch : ℤ)
    (pages : List (GammaPage K)) :
    Logged slugPattern (discoverViaSeries slugPattern sinceEpoch pages)
      (pagesToEnd (GoesOn slugPattern sinceEpoch 1) pages) := by
  induction pages with
  | nil => exact Logged.nil slugPattern
  | cons page rest ih =>
    rw [discoverViaSeries]
    refine logged_turn Nat.one_pos (fun events hne => ?_) ih
    have := List.length_pos_iff.mpr hne
    exact ⟨Or.inl, fun h => h.resolve_right (by omega)⟩

/-- The loop over all events. -/
theorem logged_discoverViaGlobalEvents (slugPattern : String) (sinceEpoch : ℤ) (cap : ℕ)
    (pages : List (GammaPage K)) :
    Logged slugPattern (discoverViaGlobalEvents slugPattern sinceEpoch cap pages)
      (pagesToEnd (GoesOn slugPattern sinceEpoch 500) (pages.take cap)) := by
  induction pages generalizing cap with
  | nil =>
    rw [List.take_nil]
    cases cap <;> exact Logged.nil slugPattern
  | cons page rest ih =>
    cases cap with
    | zero => exact Logged.nil slugPattern
    | succ cap =>
      rw [discoverViaGlobalEvents, List.take_succ_cons]
      exact logged_turn (by decide) (fun events _ => Iff.rfl) (ih cap)

/-- A pass sees the rows of the pages it fetches, and inserts those whose insert goes through. -/
theorem logged_discoverMarkets (pass : DiscoveryPass K) :
    Logged pass.slugPattern (discoverMarkets pass) (fetchedPages pass) := by
  unfold discoverMarkets fetchedPages
  split_ifs
  · exact logged_discoverViaSeries _ _ _
  · exact logged_discoverViaGlobalEvents _ _ _ _
  · exact Logged.nil _

/-- The passes see the rows of all pages they fetch. -/
theorem seenMarkets_eq (passes : List (DiscoveryPass K)) :
    seenMarkets passes = (allFetched passes).flatMap fun page => rowsOn page.1 page.2 := by
  rw [seenMarkets, allFetched, List.flatMap_assoc]
  refine List.flatMap_congr fun pass _ => ?_
  rw [(logged_discoverMarkets pass).1, List.flatMap_map]

/-- Of these they insert the ones whose insert goes through. -/
theorem insertedMarkets_eq (passes : List (DiscoveryPass K)) :
    insertedMarkets passes = (allFetched passes).flatMap fun page => savedOn page.1 page.2 := by
  rw [insertedMarkets, allFetched, List.flatMap_assoc]
  refine List.flatMap_congr fun pass _ => ?_
  rw [(logged_discoverMarkets pass).2, List.flatMap_map]

/-! ## What is stored -/

/-- The row of the first entry of the market on a page that can be read. -/
theorem find?_rowsOn_of_firstShown {page : String × GammaPage K} {conditionId : String}
    (hread : Readable page.1 page.2) {e : ShownMarket K}
    (h : firstShown page.1 page.2 conditionId = some e) :
    ∃ r, (rowsOn page.1 page.2).find? (fun r => r.conditionId = conditionId) = some r ∧
      r.resolved = ShownResolved e ∧
      r.outcome = if ShownResolved e then winningOutcome e.1 else none := by
  have hfirst := List.find?_some (p := fun e : ShownMarket K =>
    decide (OfFamily page.1 e ∧ e.1.conditionId = some conditionId)) h
  have hfamily := (of_decide_eq_true hfirst).1
  obtain ⟨r, hr⟩ := exists_rowOf page.2.now hfamily (hread e (List.mem_of_find?_eq_some h) hfamily)
  refine ⟨r, ?_, (rowOf_eq_some hr).2.2⟩
  rw [find?_rowsOn hread, h]
  exact hr

/-- An insert that goes through puts a row of the market to the table exactly if the page shows
it. -/
theorem find?_savedOn_eq_none_iff {page : String × GammaPage K} {conditionId : String} :
    (savedOn page.1 page.2).find? (fun r => r.conditionId = conditionId) = none ↔
      (Shows page conditionId → page.2.committed = false) := by
  cases hcommitted : page.2.committed with
  | false => simp [savedOn, hcommitted]
  | true =>
    rw [savedOn, if_pos hcommitted, Shows]
    by_cases hread : Readable page.1 page.2
    · cases hshown : firstShown page.1 page.2 conditionId with
      | none => simp [find?_rowsOn hread, hshown]
      | some e =>
        obtain ⟨r, hr, -⟩ := find?_rowsOn_of_firstShown hread hshown
        simp [hr, hread]
    · simp [rowsOn, hread]

/-- It says that the market is resolved exactly if the page does. -/
theorem find?_savedOn_resolved_iff {page : String × GammaPage K} {conditionId : String}
    {outcome : Option String} :
    (∃ r, (savedOn page.1 page.2).find? (fun r => r.conditionId = conditionId) = some r ∧
        r.resolved = true ∧ r.outcome = outcome) ↔
      Readable page.1 page.2 ∧ page.2.committed ∧
        ∃ e, firstShown page.1 page.2 conditionId = some e ∧ ShownResolved e ∧
          winningOutcome e.1 = outcome := by
  constructor
  · rintro ⟨r, hfound, hresolved, houtcome⟩
    have hsome : (savedOn page.1 page.2).find? (fun r => r.conditionId = conditionId) ≠ none := by
      rw [hfound]
      exact Option.some_ne_none r
    rw [ne_eq, find?_savedOn_eq_none_iff, Classical.not_imp, Bool.not_eq_false] at hsome
    obtain ⟨⟨hread, hshown⟩, hcommitted⟩ := hsome
    obtain ⟨e, he⟩ := Option.isSome_iff_exists.mp hshown
    obtain ⟨r', hr', hresolved', houtcome'⟩ := find?_rowsOn_of_firstShown hread he
    rw [savedOn, if_pos hcommitted, hr'] at hfound
    obtain rfl := Option.some.inj hfound
    have hshows : ShownResolved e = true := hresolved'.symm.trans hresolved
    rw [hshows, if_pos rfl] at houtcome'
    exact ⟨hread, hcommitted, e, he, hshows, houtcome'.symm.trans houtcome⟩
  · rintro ⟨hread, hcommitted, e, he, hresolved, houtcome⟩
    obtain ⟨r, hr, hresolved', houtcome'⟩ := find?_rowsOn_of_firstShown hread he
    rw [hresolved, if_pos rfl] at houtcome'
    refine ⟨r, ?_, hresolved'.trans hresolved, houtcome'.trans houtcome⟩
    rw [savedOn, if_pos hcommitted, hr]

/-- What is stored of a market is what the first page shows of it whose insert goes through. -/
theorem resolutionStored_iff (passes : List (DiscoveryPass K)) (conditionId : String)
    (outcome : Option String) :
    ResolutionStored passes conditionId outcome ↔ SavedResolved passes conditionId outcome := by
  have hinserted : ResolutionStored passes conditionId outcome ↔
      ∃ r, (insertedMarkets passes).find? (fun r => r.conditionId = conditionId) = some r ∧
        r.resolved = true ∧ r.outcome = outcome := by
    constructor
    · rintro ⟨r, hr, rfl, hresolved, houtcome⟩
      exact ⟨r, (mem_marketTable_iff passes r).mp hr, hresolved, houtcome⟩
    · rintro ⟨r, hfirst, hresolved, houtcome⟩
      have hid := List.find?_some hfirst
      simp only [decide_eq_true_eq] at hid
      subst hid
      exact ⟨r, (mem_marketTable_iff passes r).mpr hfirst, rfl, hresolved, houtcome⟩
  rw [hinserted, insertedMarkets_eq]
  constructor
  · rintro ⟨r, hfirst, hresolved, houtcome⟩
    obtain ⟨before, page, after, hpages, hfound, hnone⟩ := find?_flatMap_eq_some_iff.mp hfirst
    exact ⟨before, page, after, hpages,
      fun earlier he => find?_savedOn_eq_none_iff.mp (hnone earlier he),
      find?_savedOn_resolved_iff.mp ⟨r, hfound, hresolved, houtcome⟩⟩
  · rintro ⟨before, page, after, hpages, hearlier, hpage⟩
    obtain ⟨r, hfound, hresolved, houtcome⟩ := find?_savedOn_resolved_iff.mpr hpage
    exact ⟨r, find?_flatMap_eq_some_iff.mpr ⟨before, page, after, hpages, hfound,
      fun earlier he => find?_savedOn_eq_none_iff.mpr (hearlier earlier he)⟩, hresolved, houtcome⟩

/-- **Recording a resolution.** For every sequence of passes: each market that is first seen open
and then resolved has its flag and outcome in the table exactly when, for each of them, of the
fetched pages that show it the first one whose insert went through shows it so.
SOURCE: ingest/polymarket/adapter.py:148-270, common/db.py:51-71 -/
theorem resolution_recorded_iff (passes : List (DiscoveryPass K)) :
    (∀ conditionId outcome, OpenThenResolved passes conditionId outcome →
        ResolutionStored passes conditionId outcome) ↔
      ∀ conditionId outcome, OpenThenResolved passes conditionId outcome →
        SavedResolved passes conditionId outcome := by
  simp only [resolutionStored_iff]

/-! ## When every insert goes through -/

/-- No insert of a pass fails. -/
def AllCommitted (pass : DiscoveryPass K) : Prop := ∀ page ∈ pass.pages, page.committed = true

omit [Field K] [LinearOrder K] in
/-- No page is made up. -/
theorem mem_of_mem_pagesToEnd {goesOn : GammaPage K → Prop} [DecidablePred goesOn]
    {pages : List (GammaPage K)} {page : GammaPage K} (h : page ∈ pagesToEnd goesOn pages) :
    page ∈ pages := by
  induction pages with
  | nil => exact h
  | cons first rest ih =>
    rw [pagesToEnd] at h
    rcases List.mem_cons.mp h with rfl | h
    · exact List.mem_cons_self
    · split_ifs at h
      · exact List.mem_cons_of_mem first (ih h)
      · cases h

omit [Field K] [LinearOrder K] in
/-- A pass fetches pages that are there. -/
theorem mem_of_mem_fetchedPages {pass : DiscoveryPass K} {page : GammaPage K}
    (h : page ∈ fetchedPages pass) : page ∈ pass.pages := by
  unfold fetchedPages at h
  split_ifs at h
  · exact mem_of_mem_pagesToEnd h
  · exact List.mem_of_mem_take (mem_of_mem_pagesToEnd h)
  · cases h

/-- Then the resolution of a market first seen open is never stored. -/
theorem not_resolutionStored_of_committed (passes : List (DiscoveryPass K))
    (hall : ∀ pass ∈ passes, AllCommitted pass) {conditionId : String} {outcome : Option String}
    (h : OpenThenResolved passes conditionId outcome) :
    ¬ResolutionStored passes conditionId outcome := by
  obtain ⟨r, hfirst, hopen⟩ := h.firstOpen
  rw [resolutionStored_iff]
  rintro ⟨before, page, after, hpages, hearlier, hread, -, e, he, hresolved, -⟩
  -- every page in front whose insert went through shows nothing of the market
  have hbefore : ∀ earlier ∈ before,
      (rowsOn earlier.1 earlier.2).find? (fun r => r.conditionId = conditionId) = none := by
    intro earlier hmem
    have hcommitted : earlier.2.committed = true := by
      have hfetched : earlier ∈ allFetched passes := by
        rw [hpages]
        exact List.mem_append_left _ hmem
      obtain ⟨pass, hpass, hmem⟩ := List.mem_flatMap.mp hfetched
      obtain ⟨page', hpage', rfl⟩ := List.mem_map.mp hmem
      exact hall pass hpass page' (mem_of_mem_fetchedPages hpage')
    have hnone := find?_savedOn_eq_none_iff.mpr (hearlier earlier hmem)
    rwa [savedOn, if_pos hcommitted] at hnone
  obtain ⟨r', hr', hresolved', -⟩ := find?_rowsOn_of_firstShown hread he
  have hfound : (seenMarkets passes).find? (fun r => r.conditionId = conditionId) = some r' := by
    rw [seenMarkets_eq]
    exact find?_flatMap_eq_some_iff.mpr ⟨before, page, after, hpages, hr', hbefore⟩
  obtain rfl := Option.some.inj (hfirst.symm.trans hfound)
  rw [hopen, hresolved] at hresolved'
  cases hresolved'

/-! ## A market that is found open and then closed -/

/-- A market as the API shows it, open or closed with the price of its first outcome at one. -/
def dayMarket (closed : Bool) : GammaEventMarket ℚ where
  conditionId := some "0xaa"
  slug := some "btc-updown-5m-600"
  question := some "BTC up?"
  closed := closed
  resolved := false
  outcomes := some ["Up", "Down"]
  outcomePrices := some [some (if closed then 1 else 1 / 2), some (if closed then 0 else 1 / 2)]
  startDate := none
  endDate := some (some 600000000)
  resolvedAt := none
  resolveTime := none

/-- A pass that finds it on one page. -/
def dayPass (closed : Bool) : DiscoveryPass ℚ where
  slugPattern := "btc-updown-5m-"
  sinceEpoch := 0
  pages := [⟨some [⟨none, none, false, none, some (some 600000000), [dayMarket closed]⟩], 0, true⟩]

/-- Found open and then closed with outcome "Up", the market is still open in the table.
SOURCE: ingest/polymarket/adapter.py:175-193 -/
theorem resolved_market_stays_open :
    ¬∀ (passes : List (DiscoveryPass ℚ)) (conditionId : String) (outcome : Option String),
      OpenThenResolved passes conditionId outcome →
        ResolutionStored passes conditionId outcome := by
  intro h
  have hseen : OpenThenResolved [dayPass false, dayPass true] "0xaa" (some "Up") := by
    constructor
    · exact ⟨_, rfl, by decide +kernel⟩
    · exact ⟨_, rfl, by decide +kernel⟩
  have hall : ∀ pass ∈ [dayPass false, dayPass true], AllCommitted pass := by
    simp [AllCommitted, dayPass]
  exact not_resolutionStored_of_committed _ hall hseen (h _ _ _ hseen)

end TradingEdge.Analysis
