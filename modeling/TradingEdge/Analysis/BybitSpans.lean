import TradingEdge.Analysis.BackfillCoverage
import TradingEdge.Library.Buffer

/-!
# The candles that the Bybit backfill loses

A span includes both ends: one that starts at a candle and has no gap holds 1001, and the endpoint
keeps the newest thousand.  No other span comes back to the candle left out.  So a candle of the
range is lost exactly if a span starts at it and holds more than a thousand, or the loop is left at
it (`bybit_backfill_complete_iff`).
-/

set_option autoImplicit false

namespace TradingEdge.Analysis

open TradingEdge.Library TradingEdge.Program

variable {K : Type}

/-! ## Spans and pages -/

/-- The endpoint answers with the newest `limit` candles from `start` to `end`, the newest
first. -/
def ServesNewest (kline : String → String → ℤ → ℤ → ℕ → List (RestCandle K))
    (symbol minutes : String) (candles : List (RestCandle K)) : Prop :=
  ∀ start stop limit, kline symbol minutes start stop limit =
    ((candles.filter fun c => start ≤ c.ts ∧ c.ts ≤ stop).reverse).take limit

/-- At a candle of the range where a span starts, the loop goes on, and the span holds no more than
a page. -/
def CleanSpans (candles : List (RestCandle K)) (intervalMs fromTs toTs : ℤ) : Prop :=
  ∀ x ∈ inRange 1000 fromTs toTs candles,
    SpanStart intervalMs (intervalMs * 1000) (timestampMs toTs)
      (spanOf candles (intervalMs * 1000) (timestampMs toTs)) (timestampMs fromTs) x.ts →
    x.ts < timestampMs toTs ∧
      (spanOf candles (intervalMs * 1000) (timestampMs toTs) x.ts).length ≤ 1000

/-- Candles in a row stand as many intervals apart as there are steps between them. -/
theorem Spaced.length_le {step : ℤ} {x last : RestCandle K} {rest : List (RestCandle K)}
    (h : Spaced step (x :: rest)) (hlast : (x :: rest).getLast? = some last) :
    x.ts + rest.length * step ≤ last.ts := by
  induction rest generalizing x with
  | nil =>
    obtain rfl := Option.some.inj hlast
    simp
  | cons y rest ih =>
    obtain ⟨hfirst, hrest⟩ := List.pairwise_cons.mp h
    rw [List.getLast?_cons_cons] at hlast
    have hnext := hfirst y List.mem_cons_self
    have hback := ih hrest hlast
    rw [List.length_cons]
    push_cast
    linarith

/-- What is left out of the newest candles stands as many intervals before the last of them. -/
theorem Spaced.far_of_mem_rdrop {step : ℤ} (hstep : 0 < step) {l : List (RestCandle K)}
    (h : Spaced step l) {last : RestCandle K} (hlast : l.getLast? = some last) {limit : ℕ}
    {x : RestCandle K} (hx : x ∈ l.rdrop limit) : x.ts + step * limit ≤ last.ts := by
  have hmany : limit ≤ l.length := by
    by_contra hfew
    have hnone : l.rdrop limit = [] := by
      rw [List.rdrop, Nat.sub_eq_zero_of_le (by omega), List.take_zero]
    rw [hnone] at hx
    cases hx
  obtain ⟨before, after, hbefore⟩ := List.append_of_mem hx
  have hwhole : l = before ++ (x :: (after ++ l.rtake limit)) := by
    rw [← List.cons_append, ← List.append_assoc, ← hbefore]
    exact (rdrop_append_rtake l limit).symm
  have htail : Spaced step (x :: (after ++ l.rtake limit)) := by
    rw [hwhole] at h
    exact (List.pairwise_append.mp h).2.1
  have hback : (x :: (after ++ l.rtake limit)).getLast? = some last := by
    rw [hwhole, List.getLast?_append_of_ne_nil _ (List.cons_ne_nil _ _)] at hlast
    exact hlast
  have hfar := htail.length_le hback
  rw [List.length_append, length_rtake hmany] at hfar
  push_cast at hfar
  have hgap : 0 ≤ (after.length : ℤ) * step := by positivity
  linarith

section Spans

variable {step width stop : ℤ} {candles : List (RestCandle K)}
  {delivered : ℤ → List (RestCandle K)}

/-- The spans start one behind the other. -/
theorem SpanStart.le (hstep : 0 < step) (hwidth : 0 ≤ width)
    (hsub : ∀ c, ∀ x ∈ delivered c, x ∈ spanOf candles width stop c) {first cursor : ℤ}
    (h : SpanStart step width stop delivered first cursor) : first ≤ cursor := by
  refine Visits.invariant (I := fun c => first ≤ c) h ?_ ?_
  · intro c hc
    rw [Option.some.inj hc]
  · intro c c' hle hc'
    rw [guarded] at hc'
    split at hc'
    · rename_i hopen
      obtain rfl := Option.some.inj hc'
      exact hle.trans (lt_nextSpan hstep hwidth hsub hopen).le
    · cases hc'

/-- **No span starts at a candle of an earlier one.** -/
theorem eq_of_mem_earlier_span (hstep : 0 < step) (hwidth : 0 ≤ width)
    (hspaced : Spaced step candles) {first cursor : ℤ} {x : RestCandle K}
    (hcursor : SpanStart step width stop (spanOf candles width stop) first cursor)
    (hx : SpanStart step width stop (spanOf candles width stop) first x.ts)
    (hopen : cursor < stop) (hmem : x ∈ spanOf candles width stop cursor) : cursor = x.ts := by
  have hsub : ∀ c, ∀ y ∈ spanOf candles width stop c, y ∈ spanOf candles width stop c :=
    fun c y hy => hy
  have hle := (mem_spanOf_iff.mp hmem).2.1
  rcases Visits.linear hcursor hx with hahead | hbehind
  · rcases visits_some_iff.mp hahead with heq | hlater
    · exact heq.symm
    · -- the next span starts behind the last candle of this one
      rw [guarded, if_pos hopen] at hlater
      have hnext : nextSpan step width stop cursor (spanOf candles width stop cursor) ≤ x.ts :=
        SpanStart.le hstep hwidth hsub hlater
      obtain ⟨last, hlast⟩ :=
        Option.isSome_iff_exists.mp (List.getLast?_isSome.mpr (List.ne_nil_of_mem hmem))
      unfold nextSpan at hnext
      rw [hlast] at hnext
      dsimp only at hnext
      have hlastMem := mem_spanOf_iff.mp (List.mem_of_getLast? hlast)
      have hbefore : last.ts < x.ts := by omega
      obtain ⟨before, hbeforeLast⟩ := List.getLast?_eq_some_iff.mp hlast
      have hsorted := hspaced.spanOf width stop cursor
      rw [hbeforeLast] at hmem hsorted
      rcases List.mem_append.mp hmem with hfront | hlastIs
      · have hapart := (List.pairwise_append.mp hsorted).2.2 x hfront last List.mem_cons_self
        omega
      · rw [List.mem_singleton.mp hlastIs] at hbefore
        exact absurd hbefore (lt_irrefl _)
  · exact le_antisymm hle (SpanStart.le hstep hwidth hsub hbehind)

/-- **What a page of the newest candles leaves out** stands at the start of a span that has no
gap. -/
theorem mem_rtake_or_start (hstep : 0 < step) (hspaced : Spaced step candles) {cursor : ℤ}
    {x : RestCandle K} {limit : ℕ} (hwidth : width = step * limit)
    (hmem : x ∈ spanOf candles width stop cursor) :
    x ∈ (spanOf candles width stop cursor).rtake limit ∨
      x.ts = cursor ∧ limit < (spanOf candles width stop cursor).length := by
  obtain ⟨-, hfrom, -⟩ := mem_spanOf_iff.mp hmem
  have hsorted := hspaced.spanOf width stop cursor
  by_cases hfew : (spanOf candles width stop cursor).length ≤ limit
  · left
    rw [rtake_of_length_le _ hfew]
    exact hmem
  · rw [← rdrop_append_rtake (spanOf candles width stop cursor) limit] at hmem
    rcases List.mem_append.mp hmem with hfront | hback
    · right
      obtain ⟨last, hlast⟩ := Option.isSome_iff_exists.mp
        (List.getLast?_isSome.mpr (List.ne_nil_of_mem (List.mem_of_mem_take hfront)))
      have hlastMem := mem_spanOf_iff.mp (List.mem_of_getLast? hlast)
      have hfar := hsorted.far_of_mem_rdrop hstep hlast hfront
      have hend : last.ts ≤ cursor + width := hlastMem.2.2.trans (min_le_left _ _)
      exact ⟨by linarith, not_le.mp hfew⟩
    · exact Or.inl hback

/-- The candle a span starts at is on its page only if the page holds the whole span. -/
theorem length_le_of_mem_rtake (hstep : 0 < step) (hspaced : Spaced step candles)
    {x : RestCandle K} {limit : ℕ} (hmem : x ∈ (spanOf candles width stop x.ts).rtake limit) :
    (spanOf candles width stop x.ts).length ≤ limit := by
  by_contra hmany
  have hfront : (spanOf candles width stop x.ts).rdrop limit ≠ [] := by
    intro hnil
    have hlength := congrArg List.length hnil
    rw [List.rdrop, List.length_take, List.length_nil] at hlength
    omega
  obtain ⟨e, he⟩ := List.exists_mem_of_ne_nil _ hfront
  have hsorted := hspaced.spanOf width stop x.ts
  rw [← rdrop_append_rtake (spanOf candles width stop x.ts) limit] at hsorted
  have hbefore := (List.pairwise_append.mp hsorted).2.2 e he x hmem
  have hspan := mem_spanOf_iff.mp (List.take_subset _ _ he)
  omega

end Spans

/-- The page of a cursor is the newest thousand candles of its span. -/
theorem bybit_fetch_eq {kline : String → String → ℤ → ℤ → ℕ → List (RestCandle K)}
    {symbol minutes : String} {candles : List (RestCandle K)}
    (hserves : ServesNewest kline symbol minutes candles) (width stop c : ℤ) :
    (kline symbol minutes c (min (c + width) stop) 1000).reverse =
      (spanOf candles width stop c).rtake 1000 := by
  rw [hserves c _ 1000, List.rtake_eq_reverse_take_reverse]
  rfl

/-- It leads to the same next span as the whole of it. -/
theorem spanStart_rtake (step width stop : ℤ) (candles : List (RestCandle K)) (first c : ℤ) :
    SpanStart step width stop (fun c => (spanOf candles width stop c).rtake 1000) first c ↔
      SpanStart step width stop (spanOf candles width stop) first c := by
  have hnext : ∀ c, nextSpan step width stop c ((spanOf candles width stop c).rtake 1000) =
      nextSpan step width stop c (spanOf candles width stop c) := by
    intro c
    unfold nextSpan
    rw [getLast?_rtake _ (by decide)]
  unfold SpanStart
  simp only [hnext]

/-- A candle of the range is on the page of a span where the loop goes on. -/
def OnSomePage (candles : List (RestCandle K)) (intervalMs fromTs toTs : ℤ) (x : RestCandle K) :
    Prop :=
  ∃ c, (SpanStart intervalMs (intervalMs * 1000) (timestampMs toTs)
      (spanOf candles (intervalMs * 1000) (timestampMs toTs)) (timestampMs fromTs) c ∧
        c < timestampMs toTs) ∧
    x ∈ (spanOf candles (intervalMs * 1000) (timestampMs toTs) c).rtake 1000

/-- The backfill ends, and stores the candles that are on its pages.
SOURCE: ingest/bybit/adapter.py:99-145 -/
theorem bybit_stores_iff {kline : String → String → ℤ → ℤ → ℕ → List (RestCandle K)}
    {symbol interval minutes : String} {intervalMs : ℤ} {candles : List (RestCandle K)}
    (hinterval : intervalToBybit.lookup interval = some minutes)
    (hms : bybitIntervalMs.lookup interval = some intervalMs)
    (hserves : ServesNewest kline (upperCase symbol) minutes candles)
    (hspaced : Spaced intervalMs candles) (fromTs toTs : ℤ) {wanted : List (RestCandle K)}
    (hwanted : ∀ x ∈ wanted, x ∈ candles) :
    (∃ b, bybitBackfill kline symbol interval fromTs toTs = .ok b ∧
      Stores b (ohlcvRow "bybit" symbol interval 1000) wanted) ↔
    ∀ x ∈ wanted, OnSomePage candles intervalMs fromTs toTs x := by
  have hstep : 0 < intervalMs := lookup_pos (by decide) hms
  have hwidth : 0 ≤ intervalMs * 1000 := by omega
  unfold bybitBackfill
  rw [hinterval, hms]
  simp only [Option.getD_some, Except.ok.injEq, exists_eq_left']
  simp only [bybit_fetch_eq hserves]
  refine (span_stores_iff (timestampMs toTs) (timestampMs fromTs) (by decide) hstep hwidth hspaced
    ?_ ?_ (fun _ _ => rfl) rfl hwanted).trans ?_
  · intro c x hx
    dsimp only at hx
    exact mem_of_mem_rtake hx
  · funext cursor raw
    dsimp only [bybitBackfillPage]
    rw [hms]
    rfl
  · simp only [spanStart_rtake]
    rfl

/-- They are all the candles of the range exactly if its spans are clean. -/
theorem onSomePage_iff_cleanSpans {intervalMs : ℤ} (hstep : 0 < intervalMs)
    {candles : List (RestCandle K)} (hspaced : Spaced intervalMs candles) (fromTs toTs : ℤ) :
    (∀ x ∈ inRange 1000 fromTs toTs candles, OnSomePage candles intervalMs fromTs toTs x) ↔
      CleanSpans candles intervalMs fromTs toTs := by
  have hwidth : 0 ≤ intervalMs * 1000 := by omega
  constructor
  · intro hpages x hx hstart
    obtain ⟨c, ⟨hc, hopen⟩, hpage⟩ := hpages x hx
    have hspan := mem_of_mem_rtake hpage
    obtain rfl := eq_of_mem_earlier_span hstep hwidth hspaced hc hstart hopen hspan
    exact ⟨hopen, length_le_of_mem_rtake hstep hspaced hpage⟩
  · intro hclean x hx
    obtain ⟨hmem, hfrom, hto⟩ := mem_inRange_iff.mp hx
    have hstop : x.ts ≤ timestampMs toTs := le_tdiv_of_mul_le (by decide) hto.le
    have hsub : ∀ c, ∀ y ∈ (spanOf candles (intervalMs * 1000) (timestampMs toTs) c).rtake 1000,
        y ∈ spanOf candles (intervalMs * 1000) (timestampMs toTs) c := fun c y hy =>
      mem_of_mem_rtake hy
    have hserved : ∀ c, SpanStart intervalMs (intervalMs * 1000) (timestampMs toTs)
        (fun c => (spanOf candles (intervalMs * 1000) (timestampMs toTs) c).rtake 1000)
        (timestampMs fromTs) c → x ∈ spanOf candles (intervalMs * 1000) (timestampMs toTs) c →
        x ∈ (spanOf candles (intervalMs * 1000) (timestampMs toTs) c).rtake 1000 := by
      intro c hc hspan
      have hlimit : intervalMs * 1000 = intervalMs * (1000 : ℕ) := by norm_num
      rcases mem_rtake_or_start hstep hspaced hlimit hspan with hpage | ⟨heq, hmany⟩
      · exact hpage
      · -- the span starts at the candle, and is not clean
        rw [← heq] at hc hmany
        have hfew := (hclean x hx ((spanStart_rtake _ _ _ _ _ _).mp hc)).2
        omega
    obtain ⟨c, ⟨hc, hopen⟩, hpage⟩ := span_covered hstep hwidth hspaced hsub hmem
      (tdiv_le_of_le_mul (by decide) hfrom) hstop
      (fun hstart => (hclean x hx ((spanStart_rtake _ _ _ _ _ _).mp hstart)).1)
      fun c hc hspan => Or.inl (hserved c hc hspan)
    exact ⟨c, ⟨(spanStart_rtake _ _ _ _ _ _).mp hc, hopen⟩, hpage⟩

/-- **When the Bybit backfill stores every candle.**
SOURCE: ingest/bybit/adapter.py:68-145 -/
theorem bybit_backfill_complete_iff {kline : String → String → ℤ → ℤ → ℕ → List (RestCandle K)}
    {symbol interval minutes : String} {intervalMs : ℤ} {candles : List (RestCandle K)}
    (hinterval : intervalToBybit.lookup interval = some minutes)
    (hms : bybitIntervalMs.lookup interval = some intervalMs)
    (hserves : ServesNewest kline (upperCase symbol) minutes candles)
    (hspaced : Spaced intervalMs candles) (fromTs toTs : ℤ) :
    (∃ b, bybitBackfill kline symbol interval fromTs toTs = .ok b ∧
      Stores b (ohlcvRow "bybit" symbol interval 1000) (inRange 1000 fromTs toTs candles)) ↔
    CleanSpans candles intervalMs fromTs toTs := by
  rw [bybit_stores_iff hinterval hms hserves hspaced fromTs toTs
    fun x hx => (mem_inRange_iff.mp hx).1]
  exact onSomePage_iff_cleanSpans (lookup_pos (by decide) hms) hspaced fromTs toTs

section BybitInstance

/-- A Bybit endpoint over a list of candles. -/
def klineOf (candles : List (RestCandle ℚ)) (_symbol _minutes : String) (start stop : ℤ)
    (limit : ℕ) : List (RestCandle ℚ) :=
  ((candles.filter fun c => start ≤ c.ts ∧ c.ts ≤ stop).reverse).take limit

/-- This endpoint serves the newest candles of a span. -/
theorem servesNewest_klineOf (candles : List (RestCandle ℚ)) (symbol minutes : String) :
    ServesNewest (klineOf candles) symbol minutes candles := fun _ _ _ => rfl

/-- A backfill of five minutes from a history of four candles. -/
theorem bybit_backfill_complete_iff_fourMinutes :
    (∃ b, bybitBackfill (klineOf (minuteCandles 1000)) "BTCUSDT" "1m" 0 300000000 = .ok b ∧
      Stores b (ohlcvRow "bybit" "BTCUSDT" "1m" 1000)
        (inRange 1000 0 300000000 (minuteCandles 1000))) ↔
    CleanSpans (minuteCandles 1000) 60000 0 300000000 :=
  bybit_backfill_complete_iff rfl rfl (servesNewest_klineOf _ _ _) spaced_minutes_ms 0 300000000

/-- So many candles a minute apart. -/
def minuteRow (n : ℕ) : List (RestCandle ℚ) :=
  (List.range n).map fun i : ℕ => ⟨60000 * (i : ℤ), 1, 1, 1, 1, 1⟩

/-- The candles of the row are a minute apart. -/
theorem spaced_minuteRow (n : ℕ) : Spaced 60000 (minuteRow n) := by
  unfold Spaced minuteRow
  rw [List.pairwise_map]
  refine List.pairwise_lt_range.imp ?_
  intro i j hij
  dsimp only
  omega

/-- 1001 candles, the first at the start of the range: its page holds the other thousand. -/
theorem first_of_full_span_lost :
    ¬∀ (kline : String → String → ℤ → ℤ → ℕ → List (RestCandle ℚ))
      (symbol interval minutes : String) (intervalMs : ℤ) (candles : List (RestCandle ℚ))
      (fromTs toTs : ℤ),
      intervalToBybit.lookup interval = some minutes →
      bybitIntervalMs.lookup interval = some intervalMs →
      ServesNewest kline (upperCase symbol) minutes candles → Spaced intervalMs candles →
      ∃ b, bybitBackfill kline symbol interval fromTs toTs = .ok b ∧
        Stores b (ohlcvRow "bybit" symbol interval 1000) (inRange 1000 fromTs toTs candles) := by
  intro h
  have hstores := h (klineOf (minuteRow 1001)) "BTCUSDT" "1m" "1" 60000 (minuteRow 1001) 0
    60000001000 rfl rfl (servesNewest_klineOf _ _ _) (spaced_minuteRow 1001)
  have hminutes : intervalToBybit.lookup "1m" = some "1" := rfl
  have hms : bybitIntervalMs.lookup "1m" = some 60000 := rfl
  have hpages := (bybit_stores_iff hminutes hms
    (servesNewest_klineOf _ _ _) (spaced_minuteRow 1001) 0 60000001000
    (fun x hx => (mem_inRange_iff.mp hx).1)).mp hstores
  have hclean := (onSomePage_iff_cleanSpans (by decide) (spaced_minuteRow 1001) 0
    60000001000).mp hpages
  have hfirst : (⟨60000 * (0 : ℕ), 1, 1, 1, 1, 1⟩ : RestCandle ℚ) ∈ minuteRow 1001 :=
    List.mem_map.mpr ⟨0, List.mem_range.mpr (by decide), rfl⟩
  have hfew := (hclean _ (mem_inRange_iff.mpr ⟨hfirst, by decide, by decide⟩)
    (Visits.here _)).2
  have hspan : spanOf (minuteRow 1001) (60000 * 1000) (timestampMs 60000001000)
      (60000 * (0 : ℕ)) = minuteRow 1001 := by
    apply List.filter_eq_self.mpr
    intro c hc
    obtain ⟨i, hi, rfl⟩ := List.mem_map.mp hc
    have hlast := List.mem_range.mp hi
    have hend : timestampMs 60000001000 = 60000001 := rfl
    rw [hend, decide_eq_true_eq]
    dsimp only
    omega
  rw [hspan, minuteRow, List.length_map, List.length_range] at hfew
  omega

end BybitInstance

end TradingEdge.Analysis
