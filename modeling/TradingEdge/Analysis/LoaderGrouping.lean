import TradingEdge.Program.LoaderWindow

/-!
# One pass over the ticks and a query for each market

`iter_markets` groups the ticks of a range in one pass.  With one row for a slug and a time the
groups are the rows of the separate queries (`filter_slug_eq_slugRows`), and with distinct first
times they come in the order of `GROUP BY slug ORDER BY MIN(ts)` (`firstSeen_eq_slugsByMinTs`).
The strikes of the whole batch are the strike of each close (`bulkOhlcvOpens_eq`).  So the markets
are those of the design that was replaced (`iterMarkets_eq_perSlugMarkets`).
-/

set_option autoImplicit false

namespace TradingEdge.Analysis

open TradingEdge.Library TradingEdge.Model TradingEdge.Program

variable {K : Type} [Field K] [LinearOrder K]

/-! ## The rows of a slug -/

omit [LinearOrder K] in
/-- Ticks of one key are one. -/
theorem eq_of_tickKey (ticks : Table (tickKey (K := K))) {r r' : StoredTick K}
    (hr : r ∈ ticks.rows) (hr' : r' ∈ ticks.rows) (hslug : r.marketSlug = r'.marketSlug)
    (hts : r.ts = r'.ts) : r = r' :=
  List.inj_on_of_nodup_map ticks.nodup_keys hr hr' (Prod.ext hslug hts)

/-- The rows of a slug are its ticks in the range. -/
theorem mem_slugRows {ticks : List (StoredTick K)} {fromTs toTs : K} {slug : String}
    {r : StoredTick K} : r ∈ slugRows ticks fromTs toTs slug ↔
      r ∈ ticks ∧ r.InRange fromTs toTs ∧ r.marketSlug = slug := by
  rw [slugRows, mem_sortedBy, List.mem_filter, decide_eq_true_eq]

/-- What is fetched are the ticks in the range. -/
theorem mem_fetched {ticks : List (StoredTick K)} {fromTs toTs : K}
    {rows : List (StoredTick K)} (h : FetchesTicks ticks fromTs toTs rows) {r : StoredTick K} :
    r ∈ rows ↔ r ∈ ticks ∧ r.InRange fromTs toTs := by
  rw [h.perm.mem_iff, List.mem_filter, decide_eq_true_eq]

/-- The rows of a slug among those of the range are what a query for the slug answers. -/
theorem filter_slug_eq_slugRows {ticks : Table (tickKey (K := K))} {fromTs toTs : K}
    {rows : List (StoredTick K)} (h : FetchesTicks ticks.rows fromTs toTs rows) (slug : String) :
    rows.filter (fun r => r.marketSlug = slug) = slugRows ticks.rows fromTs toTs slug := by
  have hperm : (rows.filter fun r => r.marketSlug = slug).Perm
      (slugRows ticks.rows fromTs toTs slug) := by
    refine (h.perm.filter _).trans ?_
    rw [List.filter_filter]
    refine List.Perm.trans (List.Perm.of_eq ?_) (sortedBy_perm _ _).symm
    apply List.filter_congr
    intro r _
    rw [Bool.and_comm, Bool.decide_and]
  refine List.Perm.eq_of_pairwise ?_ (h.ordered.filter _) (pairwise_sortedBy _ _) hperm
  intro r r' hr hr' hle hge
  obtain ⟨hmem', -, hslug'⟩ := mem_slugRows.mp hr'
  obtain ⟨hmem, -, hslug⟩ := mem_slugRows.mp (hperm.mem_iff.mp hr)
  exact eq_of_tickKey ticks hmem hmem' (hslug.trans hslug'.symm) (le_antisymm hle hge)

/-- The rows of a slug are in strict order of time. -/
theorem pairwise_slugRows (ticks : Table (tickKey (K := K))) (fromTs toTs : K) (slug : String) :
    (slugRows ticks.rows fromTs toTs slug).Pairwise fun r r' => r.ts < r'.ts := by
  have hnodup : (slugRows ticks.rows fromTs toTs slug).Nodup := by
    rw [slugRows, (sortedBy_perm _ _).nodup_iff]
    exact (List.Nodup.of_map _ ticks.nodup_keys).filter _
  refine ((pairwise_sortedBy _ _).and hnodup).imp_of_mem ?_
  rintro r r' hr hr' ⟨hle, hne⟩
  obtain ⟨hmem, -, hslug⟩ := mem_slugRows.mp hr
  obtain ⟨hmem', -, hslug'⟩ := mem_slugRows.mp hr'
  refine lt_of_le_of_ne hle fun hts => hne ?_
  exact eq_of_tickKey ticks hmem hmem' (hslug.trans hslug'.symm) hts

/-! ## The order of the slugs -/

/-- The slugs are those of the ticks in the range, but for the empty one. -/
theorem mem_slugsByMinTs {ticks : List (StoredTick K)} {fromTs toTs : K} {slug : String} :
    slug ∈ slugsByMinTs ticks fromTs toTs ↔
      slug ≠ "" ∧ ∃ r ∈ ticks, r.InRange fromTs toTs ∧ r.marketSlug = slug := by
  rw [slugsByMinTs, mem_sortedBy, List.mem_dedup, List.mem_map]
  constructor
  · rintro ⟨r, hr, rfl⟩
    obtain ⟨hmem, hp⟩ := List.mem_filter.mp hr
    obtain ⟨hrange, hslug⟩ := of_decide_eq_true hp
    exact ⟨hslug, r, hmem, hrange, rfl⟩
  · rintro ⟨hslug, r, hmem, hrange, rfl⟩
    exact ⟨r, List.mem_filter.mpr ⟨hmem, decide_eq_true ⟨hrange, hslug⟩⟩, rfl⟩

/-- No slug is listed twice. -/
theorem nodup_slugsByMinTs (ticks : List (StoredTick K)) (fromTs toTs : K) :
    (slugsByMinTs ticks fromTs toTs).Nodup := by
  rw [slugsByMinTs, (sortedBy_perm _ _).nodup_iff]
  exact List.nodup_dedup _

/-- `minTs` is the time of a row of the slug, and no row of the slug is earlier. -/
theorem minTs_spec {ticks : List (StoredTick K)} {fromTs toTs : K} {slug : String}
    (h : slug ∈ slugsByMinTs ticks fromTs toTs) :
    (∃ r ∈ slugRows ticks fromTs toTs slug, r.ts = minTs ticks fromTs toTs slug) ∧
      ∀ r ∈ slugRows ticks fromTs toTs slug, minTs ticks fromTs toTs slug ≤ r.ts := by
  obtain ⟨-, row, hrow, hrange, hslug⟩ := mem_slugsByMinTs.mp h
  have hmem := mem_slugRows.mpr ⟨hrow, hrange, hslug⟩
  have hordered : (slugRows ticks fromTs toTs slug).Pairwise fun r r' => r.ts ≤ r'.ts :=
    pairwise_sortedBy _ _
  unfold minTs
  cases hrows : slugRows ticks fromTs toTs slug with
  | nil =>
    rw [hrows] at hmem
    exact absurd hmem List.not_mem_nil
  | cons first rest =>
    rw [hrows] at hordered
    refine ⟨⟨first, List.mem_cons_self, rfl⟩, ?_⟩
    intro r hr
    rcases List.mem_cons.mp hr with rfl | hr
    · exact le_rfl
    · exact List.rel_of_pairwise_cons hordered hr

/-- Two slugs of the range do not begin at one time. -/
def DistinctFirsts (ticks : List (StoredTick K)) (fromTs toTs : K) : Prop :=
  ∀ slug ∈ slugsByMinTs ticks fromTs toTs, ∀ slug' ∈ slugsByMinTs ticks fromTs toTs,
    minTs ticks fromTs toTs slug = minTs ticks fromTs toTs slug' → slug = slug'

/-- The slugs as the pass first sees them are those of `GROUP BY slug ORDER BY MIN(ts)`. -/
theorem firstSeen_eq_slugsByMinTs {ticks : List (StoredTick K)} {fromTs toTs : K}
    {rows : List (StoredTick K)} (h : FetchesTicks ticks fromTs toTs rows)
    (hfirst : DistinctFirsts ticks fromTs toTs) :
    firstSeen ((rows.filter fun r => r.marketSlug ≠ "").map fun r => r.marketSlug) =
      slugsByMinTs ticks fromTs toTs := by
  have hmem : ∀ slug,
      slug ∈ firstSeen ((rows.filter fun r => r.marketSlug ≠ "").map fun r => r.marketSlug) ↔
        slug ∈ slugsByMinTs ticks fromTs toTs := by
    intro slug
    rw [mem_firstSeen, mem_slugsByMinTs, List.mem_map]
    constructor
    · rintro ⟨r, hr, rfl⟩
      obtain ⟨hr, hslug⟩ := List.mem_filter.mp hr
      obtain ⟨hrow, hrange⟩ := (mem_fetched h).mp hr
      exact ⟨of_decide_eq_true hslug, r, hrow, hrange, rfl⟩
    · rintro ⟨hslug, r, hrow, hrange, rfl⟩
      have hr := (mem_fetched h).mpr ⟨hrow, hrange⟩
      exact ⟨r, List.mem_filter.mpr ⟨hr, decide_eq_true hslug⟩, rfl⟩
  have hperm := (List.perm_ext_iff_of_nodup (nodup_firstSeen _)
    (nodup_slugsByMinTs ticks fromTs toTs)).mpr hmem
  have hordered : (rows.filter fun r => r.marketSlug ≠ "").Pairwise fun r r' => r.ts ≤ r'.ts :=
    h.ordered.filter _
  -- what is seen first has a row that is no later than the first row of what is seen next
  have hpair : (firstSeen ((rows.filter fun r => r.marketSlug ≠ "").map fun r =>
      r.marketSlug)).Pairwise fun slug slug' =>
        minTs ticks fromTs toTs slug ≤ minTs ticks fromTs toTs slug' := by
    refine (pairwise_firstSeen hordered).imp_of_mem ?_
    intro slug slug' hslug hslug' hearlier
    obtain ⟨⟨b, hb, hbts⟩, -⟩ := minTs_spec ((hmem slug').mp hslug')
    obtain ⟨hbrow, hbrange, hbslug⟩ := mem_slugRows.mp hb
    have hbne := (mem_slugsByMinTs.mp ((hmem slug').mp hslug')).1
    have hbmem : b ∈ rows.filter fun r => r.marketSlug ≠ "" :=
      List.mem_filter.mpr ⟨(mem_fetched h).mpr ⟨hbrow, hbrange⟩, decide_eq_true (hbslug ▸ hbne)⟩
    obtain ⟨a, ha, haslug, hle⟩ := hearlier b hbmem hbslug
    obtain ⟨harow, harange⟩ := (mem_fetched h).mp (List.mem_filter.mp ha).1
    rw [← hbts]
    exact ((minTs_spec ((hmem slug).mp hslug)).2 a
      (mem_slugRows.mpr ⟨harow, harange, haslug⟩)).trans hle
  refine List.Perm.eq_of_pairwise ?_ hpair (pairwise_sortedBy _ _) hperm
  intro slug slug' hslug hslug' hle hge
  exact hfirst slug ((hmem slug).mp hslug) slug' hslug' (le_antisymm hle hge)

/-! ## The strikes -/

omit [LinearOrder K] in
/-- The closing times are those of the rows. -/
theorem mem_closeTss {rows : List (StoredTick K)} {c : ℤ} :
    c ∈ closeTss rows ↔ ∃ r ∈ rows, r.closeTs = c := by
  rw [closeTss, mem_sortedBy, List.mem_dedup, List.mem_map]

/-- Of the fetched candles, those of a minute that was asked for are the candle of the minute. -/
theorem getLast?_minute_eq_candleAt [IsStrictOrderedRing K] [FloorRing K]
    {candles : Table (candleKey (K := K))} {closes : List ℤ} {candleRows : List (CandleRow K)}
    (h : FetchesCandles candles.rows closes candleRows) {c : ℤ} (hc : c ∈ closes) :
    (candleRows.filter fun r => round r.ts = c - 300).getLast? =
      candleAt candles.rows ((c : K) - 300) := by
  have hminute : ∀ r, r ∈ candleRows.filter (fun r => round r.ts = c - 300) ↔
      r ∈ candles.rows ∧ r.IsBinanceBtc1m ∧ r.ts = (c : K) - 300 := by
    intro r
    rw [List.mem_filter, h.mem_iff, List.mem_filter, decide_eq_true_eq, decide_eq_true_eq]
    constructor
    · rintro ⟨⟨hmem, hbtc, hasked⟩, hround⟩
      obtain ⟨c', -, hts⟩ := List.mem_map.mp hasked
      rw [← hts, round_intCast] at hround
      rw [← hts, hround]
      exact ⟨hmem, hbtc, by push_cast; rfl⟩
    · rintro ⟨hmem, hbtc, hts⟩
      have hcast : r.ts = ((c - 300 : ℤ) : K) := by
        rw [hts]
        push_cast
        rfl
      exact ⟨⟨hmem, hbtc, List.mem_map.mpr ⟨c, hc, hcast.symm⟩⟩, by rw [hcast, round_intCast]⟩
  cases hfind : candleAt candles.rows ((c : K) - 300) with
  | none =>
    rw [List.getLast?_eq_none_iff, List.eq_nil_iff_forall_not_mem]
    intro r hr
    obtain ⟨hmem, hbtc, hts⟩ := (hminute r).mp hr
    exact List.find?_eq_none.mp hfind r hmem (decide_eq_true ⟨hbtc, hts⟩)
  | some candle =>
    have hfound := List.find?_some hfind
    obtain ⟨hbtc, hts⟩ := of_decide_eq_true hfound
    have hmem := List.mem_of_find?_eq_some hfind
    refine getLast?_eq_some_of_forall ((hminute candle).mpr ⟨hmem, hbtc, hts⟩) ?_
    intro r hr
    obtain ⟨hrmem, ⟨hexchange, hsymbol, hinterval⟩, hrts⟩ := (hminute r).mp hr
    refine List.inj_on_of_nodup_map candles.nodup_keys hrmem hmem ?_
    rw [candleKey, candleKey, hexchange, hsymbol, hinterval, hrts, hbtc.1, hbtc.2.1, hbtc.2.2, hts]

/-- The strikes of the batch are the strike of each of its closes. -/
theorem bulkOhlcvOpens_eq [IsStrictOrderedRing K] [FloorRing K]
    {candles : Table (candleKey (K := K))} {closes : List ℤ} {candleRows : List (CandleRow K)}
    (h : FetchesCandles candles.rows closes candleRows)
    (hdates : ∀ c ∈ closes, OnCalendar (c - 300)) :
    ∃ opens, bulkOhlcvOpens candleRows closes = some opens ∧
      ∀ c ∈ closes, opens.get? c = ohlcvOpen candles.rows (c : K) := by
  have hno : ¬∃ c ∈ closes, ¬OnCalendar (c - 300) := by
    rintro ⟨c, hc, hdate⟩
    exact hdate (hdates c hc)
  unfold bulkOhlcvOpens
  rw [if_neg hno]
  refine ⟨_, rfl, ?_⟩
  intro c hc
  rw [Dict.get?_ofList_filterMap _ hc, Dict.get?_ofList, getLast?_minute_eq_candleAt h hc]
  rfl

/-! ## The markets -/

/-- **One pass is the separate queries.**  The markets of the range, with their ticks and strikes,
are those of a query for each market. -/
theorem iterMarkets_eq_perSlugMarkets [IsStrictOrderedRing K] [FloorRing K]
    {ticks : Table (tickKey (K := K))} {candles : Table (candleKey (K := K))} {fromTs toTs : K}
    {rows : List (StoredTick K)} {candleRows : List (CandleRow K)}
    (hrows : FetchesTicks ticks.rows fromTs toTs rows)
    (hcandles : FetchesCandles candles.rows (closeTss rows) candleRows)
    (hfirst : DistinctFirsts ticks.rows fromTs toTs)
    (hdates : ∀ r ∈ rows, OnCalendar (r.closeTs - 300)) :
    iterMarkets rows candleRows = some (perSlugMarkets ticks.rows candles.rows fromTs toTs) := by
  have hcloses : ∀ c ∈ closeTss rows, OnCalendar (c - 300) := by
    intro c hc
    obtain ⟨r, hr, rfl⟩ := mem_closeTss.mp hc
    exact hdates r hr
  obtain ⟨opens, hopens, hget⟩ := bulkOhlcvOpens_eq hcandles hcloses
  have hmarkets : iterMarkets rows candleRows =
      some ((grouped (fun r => r.marketSlug) (rows.filter fun r => r.marketSlug ≠ "")).entries.map
        fun e => yieldMarket opens e.1 e.2) := by
    rw [iterMarkets, hopens]
    rfl
  rw [hmarkets, Option.some_inj, entries_grouped, firstSeen_eq_slugsByMinTs hrows hfirst,
    perSlugMarkets, List.map_map]
  apply List.map_congr_left
  intro slug hslug
  have hne := (mem_slugsByMinTs.mp hslug).1
  have hgroup : (rows.filter fun r => r.marketSlug ≠ "").filter (fun r => r.marketSlug = slug) =
      slugRows ticks.rows fromTs toTs slug := by
    rw [← filter_slug_eq_slugRows hrows, List.filter_filter]
    apply List.filter_congr
    intro r _
    by_cases h : r.marketSlug = slug
    · simp [h, hne]
    · simp [h]
  rw [Function.comp_apply, hgroup]
  cases hslugRows : slugRows ticks.rows fromTs toTs slug with
  | nil => rfl
  | cons first rest =>
    have hmem : first ∈ rows := by
      obtain ⟨hrow, hrange, -⟩ := mem_slugRows.mp (hslugRows ▸ List.mem_cons_self)
      exact (mem_fetched hrows).mpr ⟨hrow, hrange⟩
    have hstrike := hget first.closeTs (mem_closeTss.mpr ⟨first, hmem, rfl⟩)
    rw [← first.windowCloseTs_eq] at hstrike
    simp only [yieldMarket, marketTicks, List.map_cons, List.map_map, hstrike, Function.comp_def]

/-- What the markets of a range are to their rows: every row with a slug once, in order of time,
the markets by their first ticks, and the open of the candle of the window on every tick. -/
structure GroupsRange (ticks : List (StoredTick K)) (candles : List (CandleRow K)) (fromTs toTs : K)
    (markets : List (String × List (TickContext K))) : Prop where
  slugs : (markets.map Prod.fst).Nodup
  once : (markets.flatMap fun m => m.2.map fun t => (m.1, t.ts)).Perm
    ((ticks.filter fun r => r.InRange fromTs toTs ∧ r.marketSlug ≠ "").map tickKey)
  ordered : ∀ m ∈ markets, m.2.Pairwise fun t t' => t.ts < t'.ts
  byFirst : markets.Pairwise fun m m' =>
    ∀ t ∈ m.2.head?, ∀ t' ∈ m'.2.head?, t.ts < t'.ts
  strike : ∀ m ∈ markets, ∀ first ∈ m.2.head?, ∀ candle,
    candleAt candles (first.windowCloseTs - 300) = some candle → 0 < candle.open_ →
      ∀ t ∈ m.2, t.openPrice = candle.open_

/-- The queries for the slugs return every row with a slug once. -/
theorem flatMap_slugRows_perm (ticks : Table (tickKey (K := K))) (fromTs toTs : K) :
    ((slugsByMinTs ticks.rows fromTs toTs).flatMap (slugRows ticks.rows fromTs toTs)).Perm
      (ticks.rows.filter fun r => r.InRange fromTs toTs ∧ r.marketSlug ≠ "") := by
  have hnodup : ticks.rows.Nodup := List.Nodup.of_map _ ticks.nodup_keys
  refine (List.perm_ext_iff_of_nodup ?_ (hnodup.filter _)).mpr ?_
  · refine List.nodup_flatMap.mpr ⟨?_, ?_⟩
    · intro slug _
      rw [slugRows, (sortedBy_perm _ _).nodup_iff]
      exact hnodup.filter _
    · refine (nodup_slugsByMinTs ticks.rows fromTs toTs).imp ?_
      intro slug slug' hne r hr hr'
      exact hne ((mem_slugRows.mp hr).2.2.symm.trans (mem_slugRows.mp hr').2.2)
  · intro r
    rw [List.mem_flatMap, List.mem_filter, decide_eq_true_eq]
    constructor
    · rintro ⟨slug, hslug, hr⟩
      obtain ⟨hrow, hrange, rfl⟩ := mem_slugRows.mp hr
      exact ⟨hrow, hrange, (mem_slugsByMinTs.mp hslug).1⟩
    · rintro ⟨hrow, hrange, hne⟩
      exact ⟨r.marketSlug, mem_slugsByMinTs.mpr ⟨hne, r, hrow, hrange, rfl⟩,
        mem_slugRows.mpr ⟨hrow, hrange, rfl⟩⟩

/-- The times of a market are those of its rows. -/
theorem map_ts_marketTicks (candles : List (CandleRow K)) (rows : List (RecordedTick K)) :
    (marketTicks candles rows).map (fun t => t.ts) = rows.map fun r => r.ts := by
  cases rows with
  | nil => rfl
  | cons first rest =>
    rw [marketTicks, List.map_map]
    rfl

/-- The first tick of a market has the first time of its slug. -/
theorem ts_head?_marketTicks {ticks : List (StoredTick K)} {candles : List (CandleRow K)}
    {fromTs toTs : K} {slug : String} {t : TickContext K}
    (ht : t ∈ (marketTicks candles
      ((slugRows ticks fromTs toTs slug).map fun r => r.toRecordedTick)).head?) :
    t.ts = minTs ticks fromTs toTs slug := by
  unfold minTs
  cases hrows : slugRows ticks fromTs toTs slug with
  | nil =>
    rw [hrows] at ht
    cases ht
  | cons first rest =>
    rw [hrows] at ht
    obtain rfl := Option.some_inj.mp ht
    rfl

/-- **The separate queries group the range.** -/
theorem perSlugMarkets_groupsRange (ticks : Table (tickKey (K := K)))
    (candles : List (CandleRow K)) {fromTs toTs : K}
    (hfirst : DistinctFirsts ticks.rows fromTs toTs) :
    GroupsRange ticks.rows candles fromTs toTs
      (perSlugMarkets ticks.rows candles fromTs toTs) where
  slugs := by
    have hslugs : (perSlugMarkets ticks.rows candles fromTs toTs).map Prod.fst =
        slugsByMinTs ticks.rows fromTs toTs := by
      rw [perSlugMarkets, List.map_map]
      exact List.map_id _
    rw [hslugs]
    exact nodup_slugsByMinTs _ _ _
  once := by
    have hkeys : (perSlugMarkets ticks.rows candles fromTs toTs).flatMap
        (fun m => m.2.map fun t => (m.1, t.ts)) =
          ((slugsByMinTs ticks.rows fromTs toTs).flatMap
            (slugRows ticks.rows fromTs toTs)).map tickKey := by
      rw [perSlugMarkets, List.flatMap_map, List.map_flatMap]
      apply List.flatMap_congr
      intro slug _
      have htimes := map_ts_marketTicks candles
        ((slugRows ticks.rows fromTs toTs slug).map fun r => r.toRecordedTick)
      have hpair : ∀ ts : List (TickContext K),
          ts.map (fun t => (slug, t.ts)) = (ts.map fun t => t.ts).map fun time => (slug, time) := by
        intro ts
        rw [List.map_map]
        rfl
      rw [hpair, htimes, List.map_map, List.map_map]
      apply List.map_congr_left
      intro r hr
      exact Prod.ext (mem_slugRows.mp hr).2.2.symm rfl
    rw [hkeys]
    exact (flatMap_slugRows_perm ticks fromTs toTs).map tickKey
  ordered := by
    intro m hm
    obtain ⟨slug, -, rfl⟩ := List.mem_map.mp hm
    have htimes := map_ts_marketTicks candles
      ((slugRows ticks.rows fromTs toTs slug).map fun r => r.toRecordedTick)
    rw [List.map_map] at htimes
    rw [← List.pairwise_map (f := fun t : TickContext K => t.ts) (R := (· < ·)), htimes,
      List.pairwise_map]
    exact pairwise_slugRows ticks fromTs toTs slug
  byFirst := by
    have hordered := pairwise_sortedBy (minTs ticks.rows fromTs toTs)
      ((ticks.rows.filter fun r => r.InRange fromTs toTs ∧ r.marketSlug ≠ "").map
        fun r => r.marketSlug).dedup
    refine List.pairwise_map.mpr ((hordered.and (nodup_slugsByMinTs _ _ _)).imp_of_mem ?_)
    rintro slug slug' hslug hslug' ⟨hle, hne⟩ t ht t' ht'
    rw [ts_head?_marketTicks ht, ts_head?_marketTicks ht']
    exact lt_of_le_of_ne hle fun heq => hne (hfirst slug hslug slug' hslug' heq)
  strike := by
    intro m hm head hhead candle hcandle hpos t ht
    obtain ⟨slug, -, rfl⟩ := List.mem_map.mp hm
    cases hrows : (slugRows ticks.rows fromTs toTs slug).map fun r => r.toRecordedTick with
    | nil =>
      simp only [hrows] at hhead
      cases hhead
    | cons first rest =>
      simp only [hrows] at hhead ht
      obtain rfl := Option.some_inj.mp hhead
      refine openPrice_of_mem_marketTicks candles first rest candle.open_ ?_ hpos t ht
      rw [ohlcvOpen]
      exact congrArg (Option.map fun r => r.open_) hcandle

/-- The pass yields the markets of the separate queries, and they group the range. -/
def PassGroups [FloorRing K] (ticks : List (StoredTick K)) (candles : List (CandleRow K))
    (fromTs toTs : K) (rows : List (StoredTick K)) (candleRows : List (CandleRow K)) : Prop :=
  ∃ markets, iterMarkets rows candleRows = some markets ∧
    markets = perSlugMarkets ticks candles fromTs toTs ∧
      GroupsRange ticks candles fromTs toTs markets

/-- **Grouping.**  Where every window of the range opens at a date, the pass yields the markets of
the separate queries, whatever the order of the rows of one time. -/
theorem passGroups_of_dates [IsStrictOrderedRing K] [FloorRing K]
    (ticks : Table (tickKey (K := K))) (candles : Table (candleKey (K := K))) (fromTs toTs : K)
    (rows : List (StoredTick K)) (candleRows : List (CandleRow K))
    (hrows : FetchesTicks ticks.rows fromTs toTs rows)
    (hcandles : FetchesCandles candles.rows (closeTss rows) candleRows)
    (hfirst : DistinctFirsts ticks.rows fromTs toTs)
    (hdates : ∀ r ∈ ticks.rows, r.InRange fromTs toTs → OnCalendar (r.closeTs - 300)) :
    PassGroups ticks.rows candles.rows fromTs toTs rows candleRows := by
  refine ⟨_, iterMarkets_eq_perSlugMarkets hrows hcandles hfirst ?_, rfl, ?_⟩
  · intro r hr
    obtain ⟨hrow, hrange⟩ := (mem_fetched hrows).mp hr
    exact hdates r hrow hrange
  · exact perSlugMarkets_groupsRange ticks candles.rows hfirst

/-- Two slugs whose rows never share a time do not begin at one. -/
theorem distinctFirsts_of_times {ticks : List (StoredTick K)} {fromTs toTs : K}
    (h : ∀ r ∈ ticks, ∀ r' ∈ ticks, r.ts = r'.ts → r.marketSlug = r'.marketSlug) :
    DistinctFirsts ticks fromTs toTs := by
  intro slug hslug slug' hslug' heq
  obtain ⟨⟨r, hr, hts⟩, -⟩ := minTs_spec hslug
  obtain ⟨⟨r', hr', hts'⟩, -⟩ := minTs_spec hslug'
  obtain ⟨hmem, -, rfl⟩ := mem_slugRows.mp hr
  obtain ⟨hmem', -, rfl⟩ := mem_slugRows.mp hr'
  exact h r hmem r' hmem' (hts.trans (heq.trans hts'.symm))

/-- A row with a slug, a time and a close, and a spot price. -/
def spotTick (slug : String) (ts : ℚ) (closeTs : ℤ) : StoredTick ℚ where
  ts := ts
  marketSlug := slug
  tInWindow := 0
  windowCloseTs := closeTs
  spotPrice := some 100
  chainlinkPrice := none
  openPrice := none
  pmYesBid := none
  pmYesAsk := none
  pmNoBid := none
  pmNoAsk := none
  pmDepthYes := none
  pmDepthNo := none
  pmImbalance := none
  pmSpreadBps := none
  impliedProbYes := none
  closeTs := closeTs
  windowCloseTs_eq := rfl

/-- Two markets whose ticks are interleaved, and a tick without a slug. -/
def interleavedTicks : Table (tickKey (K := ℚ)) where
  rows := [spotTick "a" 10 600, spotTick "b" 11 900, spotTick "" 12 600, spotTick "a" 13 600,
    spotTick "b" 14 900]
  nodup_keys := by decide +kernel

/-- The candle of the minute at which the first of them opens. -/
def openCandle : Table (candleKey (K := ℚ)) where
  rows := [⟨"binance", "BTCUSDT", "1m", 300, 101, 102⟩]
  nodup_keys := by decide +kernel

/-- The ticks of the range are grouped by their markets, and the one without a slug is left out. -/
theorem passGroups_interleaved :
    PassGroups interleavedTicks.rows openCandle.rows 10 13
      [spotTick "a" 10 600, spotTick "b" 11 900, spotTick "" 12 600, spotTick "a" 13 600]
      openCandle.rows := by
  refine passGroups_of_dates interleavedTicks openCandle 10 13 _ _ ⟨?_, ?_⟩ ?_ ?_ ?_
  · exact .of_eq rfl
  · decide +kernel
  · refine .of_eq (List.filter_eq_self.mpr ?_).symm
    intro r hr
    obtain rfl := List.mem_singleton.mp hr
    have hclose : (600 : ℤ) ∈ closeTss [spotTick "a" 10 600, spotTick "b" 11 900,
        spotTick "" 12 600, spotTick "a" 13 600] :=
      mem_closeTss.mpr ⟨_, List.mem_cons_self, rfl⟩
    refine decide_eq_true ⟨⟨rfl, rfl, rfl⟩, List.mem_map.mpr ⟨600, hclose, ?_⟩⟩
    norm_num
  · refine distinctFirsts_of_times ?_
    decide +kernel
  · decide +kernel

/-- A close in milliseconds is in no year of the calendar, and the pass raises. -/
def millisecondTicks : Table (tickKey (K := ℚ)) where
  rows := [spotTick "a" 10 1700000000000]
  nodup_keys := by decide +kernel

/-- **Not every table.**  One row whose close is no date, and the range yields no market at all. -/
theorem not_passGroups_milliseconds :
    FetchesTicks millisecondTicks.rows 0 20 millisecondTicks.rows ∧
      FetchesCandles (Table.empty : Table (candleKey (K := ℚ))).rows
        (closeTss millisecondTicks.rows) [] ∧
      DistinctFirsts millisecondTicks.rows 0 20 ∧
      iterMarkets millisecondTicks.rows ([] : List (CandleRow ℚ)) = none ∧
      ¬PassGroups millisecondTicks.rows (Table.empty : Table (candleKey (K := ℚ))).rows 0 20
        millisecondTicks.rows [] := by
  have hraise : iterMarkets millisecondTicks.rows ([] : List (CandleRow ℚ)) = none := by
    have hclose : (1700000000000 : ℤ) ∈ closeTss millisecondTicks.rows :=
      mem_closeTss.mpr ⟨_, List.mem_cons_self, rfl⟩
    rw [iterMarkets, bulkOhlcvOpens, if_pos ⟨_, hclose, by decide +kernel⟩]
    rfl
  refine ⟨⟨.of_eq rfl, by decide +kernel⟩, .of_eq rfl, ?_, hraise, ?_⟩
  · refine distinctFirsts_of_times ?_
    decide +kernel
  · rintro ⟨markets, hsome, -⟩
    rw [hraise] at hsome
    cases hsome

end TradingEdge.Analysis
