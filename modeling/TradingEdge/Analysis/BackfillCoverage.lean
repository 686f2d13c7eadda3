import TradingEdge.Program.OhlcvBackfills

/-!
# What a backfill stores

A backfill stores the pages of the cursors it comes to (`stores_iff`).  Walking forwards, the
next span starts behind the last candle that was delivered, or behind a span without any; candles
stand an interval apart, so that no candle lies between.  A candle is then stored unless its own
span leaves it out or the loop is left at it (`span_covered`).  Binance delivers the first thousand
candles of a span and Coinbase all of them, and both store every candle of the range
(`forward_backfills_complete`).
-/

set_option autoImplicit false

namespace TradingEdge.Analysis

open TradingEdge.Library TradingEdge.Program

variable {K : Type}

/-! ## Histories and tables -/

/-- Candles of one interval, in the order of time. -/
def Spaced (step : ℤ) (candles : List (RestCandle K)) : Prop :=
  candles.Pairwise fun a b => a.ts + step ≤ b.ts

/-- The candles of a range of time, given in microseconds. -/
def inRange (unit fromTs toTs : ℤ) (candles : List (RestCandle K)) : List (RestCandle K) :=
  candles.filter fun c => fromTs ≤ c.ts * unit ∧ c.ts * unit < toTs

/-- The loop ends, and the table then has a row for each of the candles wanted: the one it had, or
that of the candle. -/
def Stores (b : BackfillLoop K) (row : RestCandle K → OhlcvRow K) (wanted : List (RestCandle K)) :
    Prop :=
  ∀ t0, ∃ t total, Ends b.body (b.start, t0, 0) (none, t, total) ∧ ∀ c ∈ wanted,
    t.rows.find? (fun r => r.key = (row c).key) =
      (t0.rows.find? fun r => r.key = (row c).key).or (some (row c))

/-- Two candles are a step apart, one way or the other. -/
theorem Spaced.apart_of_ne {step : ℤ} {candles : List (RestCandle K)} (h : Spaced step candles)
    {a b : RestCandle K} (ha : a ∈ candles) (hb : b ∈ candles) (hne : a ≠ b) :
    a.ts + step ≤ b.ts ∨ b.ts + step ≤ a.ts := by
  let Apart (a b : RestCandle K) : Prop := a.ts + step ≤ b.ts ∨ b.ts + step ≤ a.ts
  have hboth : candles.Pairwise Apart := h.imp Or.inl
  have hsymm : Std.Symm Apart := ⟨fun _ _ => Or.symm⟩
  exact hboth.forall ha hb hne

/-- Two candles of the history are an interval apart. -/
theorem Spaced.apart {step : ℤ} (hstep : 0 < step) {candles : List (RestCandle K)}
    (h : Spaced step candles) {a b : RestCandle K} (ha : a ∈ candles) (hb : b ∈ candles)
    (hlt : a.ts < b.ts) : a.ts + step ≤ b.ts := by
  have hne : a ≠ b := by
    rintro rfl
    exact lt_irrefl _ hlt
  rcases h.apart_of_ne ha hb hne with hle | hback
  · exact hle
  · omega

/-- There is one candle at a time. -/
theorem Spaced.eq_of_ts {step : ℤ} (hstep : 0 < step) {candles : List (RestCandle K)}
    (h : Spaced step candles) {a b : RestCandle K} (ha : a ∈ candles) (hb : b ∈ candles)
    (heq : a.ts = b.ts) : a = b := by
  by_contra hne
  rcases h.apart_of_ne ha hb hne with hlater | hlater
  · omega
  · omega

/-- Candles of different times have different keys. -/
theorem ohlcvRow_key_injective {exchange symbol interval : String} {unit : ℤ} (hunit : 0 < unit)
    {a b : RestCandle K} (h : (ohlcvRow exchange symbol interval unit a).key =
      (ohlcvRow exchange symbol interval unit b).key) : a.ts = b.ts := by
  have hts : a.ts * unit = b.ts * unit := congrArg (fun k => k.2.2.2) h
  exact Int.eq_of_mul_eq_mul_right hunit.ne' hts

/-! ## The loop and its pages -/

/-- The pages are inserted row by row. -/
theorem foldl_deposit_fst (b : BackfillLoop K)
    (hinsert : ∀ t rows, b.insert t rows = rows.foldl Table.insertNew t)
    (pages : List (List (OhlcvRow K))) (s : Table (OhlcvRow.key (K := K)) × ℕ) :
    (pages.foldl b.deposit s).1 = upsertMany s.1 pages.flatten := by
  induction pages generalizing s with
  | nil => rfl
  | cons rows rest ih =>
    rw [List.foldl_cons, ih, BackfillLoop.deposit, hinsert, List.flatten_cons, upsertMany,
      upsertMany, List.foldl_append]

/-- **A backfill stores the pages of the cursors it comes to**, if a measure of the cursor
falls. -/
theorem stores_iff {b : BackfillLoop K} {row : RestCandle K → OhlcvRow K}
    {candles wanted : List (RestCandle K)}
    (hinsert : ∀ t rows, b.insert t rows = rows.foldl Table.insertNew t)
    (measure : ℤ → ℕ) (hmeasure : ∀ c c', Visits b.next b.start c → b.next c = some c' →
      measure c' < measure c)
    (hrows : ∀ c, Visits b.next b.start c → ∀ r ∈ b.rows c, ∃ x ∈ candles, r = row x)
    (hkey : ∀ x ∈ candles, ∀ y ∈ candles, (row x).key = (row y).key → x = y)
    (hwanted : ∀ x ∈ wanted, x ∈ candles) :
    Stores b row wanted ↔ ∀ x ∈ wanted, ∃ c, Visits b.next b.start c ∧ row x ∈ b.rows c := by
  have hwalk : ∀ t0 : Table (OhlcvRow.key (K := K)), ∃ pages : List (List (OhlcvRow K)),
      Ends b.body (b.start, t0, 0) (none, pages.foldl b.deposit (t0, 0)) ∧
      ∀ r, r ∈ pages.flatten ↔ ∃ c, Visits b.next b.start c ∧ r ∈ b.rows c := by
    intro t0
    refine walk_ends b.rows b.deposit measure (I := fun c => Visits b.next b.start c) ?_ ?_ _
    · intro c c' hc hnext
      refine ⟨hc.trans (Visits.later ?_), hmeasure c c' hc hnext⟩
      rw [hnext]
      exact Visits.here c'
    · intro c hstart
      rw [hstart]
      exact Visits.here c
  constructor
  · intro hstores x hx
    obtain ⟨pages, hends, hpages⟩ := hwalk Table.empty
    obtain ⟨t, total, hends', hfound⟩ := hstores Table.empty
    have htable : t = (pages.foldl b.deposit (Table.empty, 0)).1 :=
      congrArg (fun s => s.2.1) (hends'.unique hends)
    have hrow := hfound x hx
    rw [htable, foldl_deposit_fst b hinsert, find?_upsertMany] at hrow
    have hmem := List.mem_of_find?_eq_some hrow
    exact (hpages (row x)).mp (by simpa using hmem)
  · intro hvisited t0
    obtain ⟨pages, hends, hpages⟩ := hwalk t0
    refine ⟨_, _, hends, ?_⟩
    intro x hx
    rw [foldl_deposit_fst b hinsert, find?_upsertMany, List.find?_append]
    congr 1
    have hmem : row x ∈ pages.flatten := (hpages (row x)).mpr (hvisited x hx)
    cases hfind : pages.flatten.find? fun r => r.key = (row x).key with
    | none =>
      have hnone := List.find?_eq_none.mp hfind (row x) hmem
      exact absurd (decide_eq_true rfl) hnone
    | some r =>
      obtain ⟨c, hc, hr⟩ := (hpages r).mp (List.mem_of_find?_eq_some hfind)
      obtain ⟨y, hy, rfl⟩ := hrows c hc r hr
      have hsame := List.find?_some hfind
      rw [hkey y hy x (hwanted x hx) (of_decide_eq_true hsame)]

/-- The same of candles that stand apart: it stores those that are kept of its pages. -/
theorem stores_candles_iff {b : BackfillLoop K} {exchange symbol interval : String}
    {unit step : ℤ} (hunit : 0 < unit) (hstep : 0 < step) {candles : List (RestCandle K)}
    (hspaced : Spaced step candles)
    (hinsert : ∀ t rows, b.insert t rows = rows.foldl Table.insertNew t)
    (measure : ℤ → ℕ) (hmeasure : ∀ c c', Visits b.next b.start c → b.next c = some c' →
      measure c' < measure c)
    {page : ℤ → List (RestCandle K)} (hpage : ∀ c, ∀ x ∈ page c, x ∈ candles)
    {kept : RestCandle K → Prop} (hrows : ∀ c r, r ∈ b.rows c ↔
      ∃ x ∈ page c, kept x ∧ r = ohlcvRow exchange symbol interval unit x)
    {wanted : List (RestCandle K)} (hwanted : ∀ x ∈ wanted, x ∈ candles ∧ kept x) :
    Stores b (ohlcvRow exchange symbol interval unit) wanted ↔
      ∀ x ∈ wanted, ∃ c, Visits b.next b.start c ∧ x ∈ page c := by
  have hkey : ∀ x ∈ candles, ∀ y ∈ candles, (ohlcvRow exchange symbol interval unit x).key =
      (ohlcvRow exchange symbol interval unit y).key → x = y := fun x hx y hy hxy =>
    hspaced.eq_of_ts hstep hx hy (ohlcvRow_key_injective hunit hxy)
  have hrow : ∀ c, Visits b.next b.start c → ∀ r ∈ b.rows c, ∃ x ∈ candles,
      r = ohlcvRow exchange symbol interval unit x := by
    intro c _ r hr
    obtain ⟨x, hx, -, rfl⟩ := (hrows c r).mp hr
    exact ⟨x, hpage c x hx, rfl⟩
  rw [stores_iff hinsert measure hmeasure hrow hkey fun x hx => (hwanted x hx).1]
  refine forall₂_congr fun x hx => exists_congr fun c => and_congr_right fun _ => ?_
  rw [hrows]
  constructor
  · rintro ⟨y, hy, -, hxy⟩
    rw [hkey x (hwanted x hx).1 y (hpage c y hy) (by rw [hxy])]
    exact hy
  · exact fun hmem => ⟨x, hmem, (hwanted x hx).2, rfl⟩

/-! ## Walking forwards -/

/-- The candles of the span that starts at a cursor. -/
def spanOf (candles : List (RestCandle K)) (width stop cursor : ℤ) : List (RestCandle K) :=
  candles.filter fun c => cursor ≤ c.ts ∧ c.ts ≤ min (cursor + width) stop

/-- Where the next span starts, after what was delivered of one. -/
def nextSpan (step width stop cursor : ℤ) (delivered : List (RestCandle K)) : ℤ :=
  match delivered.getLast? with
  | none => min (cursor + width) stop + 1
  | some last => last.ts + step

/-- The cursor takes this value on its way from the first one, in a loop that is left at `stop`. -/
def SpanStart (step width stop : ℤ) (delivered : ℤ → List (RestCandle K)) (first cursor : ℤ) :
    Prop :=
  Visits (fun c => (guarded (· < stop) c).map fun c => nextSpan step width stop c (delivered c))
    (some first) cursor

/-- The candles of a span. -/
theorem mem_spanOf_iff {candles : List (RestCandle K)} {width stop cursor : ℤ}
    {x : RestCandle K} : x ∈ spanOf candles width stop cursor ↔
      x ∈ candles ∧ cursor ≤ x.ts ∧ x.ts ≤ min (cursor + width) stop := by
  unfold spanOf
  rw [List.mem_filter, decide_eq_true_eq]

/-- They are spaced as the history is. -/
theorem Spaced.spanOf {step : ℤ} {candles : List (RestCandle K)} (h : Spaced step candles)
    (width stop cursor : ℤ) : Spaced step (spanOf candles width stop cursor) :=
  h.sublist List.filter_sublist

/-- The rows of a page and its next cursor.
SOURCE: ingest/binance/adapter.py:101-139, ingest/bybit/adapter.py:109-144,
ingest/coinbase/adapter.py:142-177 -/
theorem spanBackfillPage_eq (row : RestCandle K → OhlcvRow K) (step width stop cursor : ℤ)
    (raw : List (RestCandle K)) :
    (spanBackfillPage row step width stop cursor raw).rows = raw.map row ∧
      (spanBackfillPage row step width stop cursor raw).next =
        guarded (· < stop) (nextSpan step width stop cursor raw) := by
  unfold spanBackfillPage nextSpan
  cases hlast : raw.getLast? with
  | none =>
    rw [List.getLast?_eq_none_iff.mp hlast]
    exact ⟨rfl, rfl⟩
  | some last => exact ⟨rfl, rfl⟩

section Forward

variable {step width stop : ℤ} {candles : List (RestCandle K)}
  {delivered : ℤ → List (RestCandle K)}

/-- A span start below the end has a next one. -/
theorem SpanStart.next {first cursor : ℤ} (h : SpanStart step width stop delivered first cursor)
    (hopen : cursor < stop) :
    SpanStart step width stop delivered first
      (nextSpan step width stop cursor (delivered cursor)) := by
  apply Visits.trans h
  apply Visits.later
  rw [guarded, if_pos hopen]
  exact Visits.here _

/-- **Progress.** The next span starts later. -/
theorem lt_nextSpan (hstep : 0 < step) (hwidth : 0 ≤ width)
    (hsub : ∀ c, ∀ x ∈ delivered c, x ∈ spanOf candles width stop c) {cursor : ℤ}
    (hopen : cursor < stop) : cursor < nextSpan step width stop cursor (delivered cursor) := by
  unfold nextSpan
  cases hlast : (delivered cursor).getLast? with
  | none =>
    dsimp only
    omega
  | some last =>
    have hspan := mem_spanOf_iff.mp (hsub cursor last (List.mem_of_getLast? hlast))
    dsimp only
    omega

/-- What lies behind a span and its delivered candles lies behind the next start. -/
theorem nextSpan_le (hstep : 0 < step) (hspaced : Spaced step candles)
    (hsub : ∀ c, ∀ x ∈ delivered c, x ∈ spanOf candles width stop c) {x : RestCandle K}
    (hx : x ∈ candles) {cursor : ℤ} (hcursor : cursor ≤ x.ts)
    (hleft : x ∈ spanOf candles width stop cursor →
      ∃ last, (delivered cursor).getLast? = some last ∧ last.ts < x.ts) :
    nextSpan step width stop cursor (delivered cursor) ≤ x.ts := by
  unfold nextSpan
  by_cases hspan : x ∈ spanOf candles width stop cursor
  · obtain ⟨last, hlast, hlt⟩ := hleft hspan
    rw [hlast]
    have hmem := mem_spanOf_iff.mp (hsub cursor last (List.mem_of_getLast? hlast))
    exact hspaced.apart hstep hmem.1 hx hlt
  · have hbehind : min (cursor + width) stop < x.ts := by
      by_contra hwithin
      exact hspan (mem_spanOf_iff.mpr ⟨hx, hcursor, not_lt.mp hwithin⟩)
    cases hlast : (delivered cursor).getLast? with
    | none =>
      dsimp only
      omega
    | some last =>
      have hmem := mem_spanOf_iff.mp (hsub cursor last (List.mem_of_getLast? hlast))
      exact hspaced.apart hstep hmem.1 hx (hmem.2.2.trans_lt hbehind)

/-- **A candle is delivered** unless its span leaves it out, or the loop is left at it. -/
theorem span_covered (hstep : 0 < step) (hwidth : 0 ≤ width) (hspaced : Spaced step candles)
    (hsub : ∀ c, ∀ x ∈ delivered c, x ∈ spanOf candles width stop c) {x : RestCandle K}
    (hx : x ∈ candles) {first : ℤ} (hfirst : first ≤ x.ts) (hstop : x.ts ≤ stop)
    (hopen : SpanStart step width stop delivered first x.ts → x.ts < stop)
    (hserved : ∀ c, SpanStart step width stop delivered first c →
      x ∈ spanOf candles width stop c → x ∈ delivered c ∨
        ∃ last, (delivered c).getLast? = some last ∧ last.ts < x.ts) :
    ∃ c, (SpanStart step width stop delivered first c ∧ c < stop) ∧ x ∈ delivered c := by
  -- from a start that is not behind `x`, by the distance that is left
  have hfrom : ∀ c, SpanStart step width stop delivered first c → c ≤ x.ts →
      ∃ c, (SpanStart step width stop delivered first c ∧ c < stop) ∧ x ∈ delivered c := by
    intro c
    induction hn : (x.ts - c).toNat using Nat.strong_induction_on generalizing c with
    | _ n ih =>
      intro hc hle
      have hgoes : c < stop := by
        rcases hle.lt_or_eq with hlt | rfl
        · exact hlt.trans_le hstop
        · exact hopen hc
      by_cases hdelivered : x ∈ delivered c
      · exact ⟨c, ⟨hc, hgoes⟩, hdelivered⟩
      · have hnext := nextSpan_le hstep hspaced hsub hx hle fun hspan =>
          (hserved c hc hspan).resolve_left hdelivered
        have hlater := lt_nextSpan hstep hwidth hsub hgoes
        exact ih _ (by omega) _ rfl (hc.next hgoes) hnext
  exact hfrom first (Visits.here first) hfirst

/-- The cursors of a loop that takes its pages as delivered are the span starts below the end. -/
theorem visits_iff_spanStart {b : BackfillLoop K} {first : ℤ}
    (hnext : ∀ c, b.next c = guarded (· < stop) (nextSpan step width stop c (delivered c)))
    (hstart : b.start = guarded (· < stop) first) (c : ℤ) :
    Visits b.next b.start c ↔ SpanStart step width stop delivered first c ∧ c < stop := by
  rw [funext hnext, hstart]
  exact visits_guarded_iff

variable (stop) in
/-- **A backfill by spans stores a candle** exactly if one of its spans delivers it. -/
theorem span_stores_iff {b : BackfillLoop K} {exchange symbol interval : String} {unit : ℤ}
    (first : ℤ) (hunit : 0 < unit) (hstep : 0 < step) (hwidth : 0 ≤ width) (hspaced : Spaced step candles)
    (hsub : ∀ c, ∀ x ∈ b.fetch c, x ∈ spanOf candles width stop c)
    (hreceive : b.receive =
      spanBackfillPage (ohlcvRow exchange symbol interval unit) step width stop)
    (hinsert : ∀ t rows, b.insert t rows = rows.foldl Table.insertNew t)
    (hstart : b.start = whileBefore first stop) {wanted : List (RestCandle K)}
    (hwanted : ∀ x ∈ wanted, x ∈ candles) :
    Stores b (ohlcvRow exchange symbol interval unit) wanted ↔ ∀ x ∈ wanted, ∃ c,
      (SpanStart step width stop b.fetch first c ∧ c < stop) ∧ x ∈ b.fetch c := by
  have hnext : ∀ c, b.next c = guarded (· < stop) (nextSpan step width stop c (b.fetch c)) := by
    intro c
    rw [BackfillLoop.next, hreceive, (spanBackfillPage_eq _ step width stop c _).2]
  have hvisits := visits_iff_spanStart hnext hstart
  rw [stores_candles_iff hunit hstep hspaced hinsert (fun c => (stop - c).toNat) ?_
    (fun c x hx => (mem_spanOf_iff.mp (hsub c x hx)).1) ?_ fun x hx => ⟨hwanted x hx, trivial⟩]
  · simp only [hvisits]
  · intro c c' hc hc'
    have hopen := ((hvisits c).mp hc).2
    have hlater := lt_nextSpan hstep hwidth hsub hopen
    rw [hnext, guarded] at hc'
    split at hc'
    · rename_i hbefore
      obtain rfl := Option.some.inj hc'
      omega
    · cases hc'
  · intro c r
    rw [BackfillLoop.rows, hreceive, (spanBackfillPage_eq _ step width stop c _).1, List.mem_map]
    simp only [true_and, eq_comm (b := r)]

variable (stop) in
/-- **It stores all candles from the first cursor to the end**, if each span delivers its first
candles. -/
theorem span_stores_all {b : BackfillLoop K} {exchange symbol interval : String} {unit : ℤ}
    (first : ℤ) (hunit : 0 < unit) (hstep : 0 < step) (hwidth : 0 ≤ width) (hspaced : Spaced step candles)
    (hsub : ∀ c, ∀ x ∈ b.fetch c, x ∈ spanOf candles width stop c)
    (hserved : ∀ c, ∀ x ∈ spanOf candles width stop c, x ∈ b.fetch c ∨
      ∃ last, (b.fetch c).getLast? = some last ∧ last.ts < x.ts)
    (hreceive : b.receive =
      spanBackfillPage (ohlcvRow exchange symbol interval unit) step width stop)
    (hinsert : ∀ t rows, b.insert t rows = rows.foldl Table.insertNew t)
    (hstart : b.start = whileBefore first stop) {wanted : List (RestCandle K)}
    (hwanted : ∀ x ∈ wanted, x ∈ candles ∧ first ≤ x.ts ∧ x.ts < stop) :
    Stores b (ohlcvRow exchange symbol interval unit) wanted := by
  rw [span_stores_iff stop first hunit hstep hwidth hspaced hsub hreceive hinsert hstart
    fun x hx => (hwanted x hx).1]
  intro x hx
  obtain ⟨hmem, hfirst, hstop⟩ := hwanted x hx
  exact span_covered hstep hwidth hspaced hsub hmem hfirst hstop.le (fun _ => hstop)
    fun c _ hspan => hserved c x hspan

end Forward

/-! ## Binance and Coinbase -/

/-- The endpoint answers with the first `limit` candles from `start` to `end`. -/
def ServesFirst (klines : String → String → ℤ → ℤ → ℕ → List (RestCandle K))
    (symbol interval : String) (candles : List (RestCandle K)) : Prop :=
  ∀ start stop limit, klines symbol interval start stop limit =
    (candles.filter fun c => start ≤ c.ts ∧ c.ts ≤ stop).take limit

/-- The endpoint answers with all candles from `start` to `end`, the newest first, if there is no
room for more than 300. -/
def ServesSpans (endpoint : String → ℤ → ℤ → ℤ → List (RestCandle K)) (product : String)
    (granularity : ℤ) (candles : List (RestCandle K)) : Prop :=
  ∀ start stop, stop - start < 300 * granularity → endpoint product granularity start stop =
    (candles.filter fun c => start ≤ c.ts ∧ c.ts ≤ stop).reverse

/-- A candle among the first of a span, or behind the last of these. -/
theorem mem_take_or_behind {step : ℤ} (hstep : 0 < step) {span : List (RestCandle K)}
    (h : Spaced step span) {limit : ℕ} (hlimit : 0 < limit) {x : RestCandle K} (hx : x ∈ span) :
    x ∈ span.take limit ∨ ∃ last, (span.take limit).getLast? = some last ∧ last.ts < x.ts := by
  rw [← List.take_append_drop limit span] at hx h
  rcases List.mem_append.mp hx with hfront | hback
  · exact Or.inl hfront
  · right
    cases hlast : (span.take limit).getLast? with
    | none =>
      have hnil := List.getLast?_eq_none_iff.mp hlast
      rw [List.take_eq_nil_iff] at hnil
      rcases hnil with hzero | hspan
      · omega
      · rw [hspan, List.drop_nil] at hback
        cases hback
    | some last =>
      have hapart := (List.pairwise_append.mp h).2.2 last (List.mem_of_getLast? hlast) x hback
      exact ⟨last, rfl, by omega⟩

/-- The intervals of a table are positive. -/
theorem lookup_pos {table : List (String × ℤ)} (hpos : ∀ e ∈ table, 0 < e.2) {interval : String}
    {step : ℤ} (h : table.lookup interval = some step) : 0 < step := by
  obtain ⟨before, after, rfl, -⟩ := List.lookup_eq_some_iff.mp h
  exact hpos (interval, step) (List.mem_append_right _ List.mem_cons_self)

/-- Cutting off the part after the point of a quotient keeps it between whole numbers. -/
theorem tdiv_le_of_le_mul {a n unit : ℤ} (hunit : 0 < unit) (h : a ≤ n * unit) :
    a.tdiv unit ≤ n := by
  rcases le_total 0 a with hpos | hneg
  · rw [Int.tdiv_eq_ediv_of_nonneg hpos]
    exact Int.ediv_le_of_le_mul hunit h
  · have hcut : a.tdiv unit = -(-a / unit) := by
      rw [← Int.tdiv_eq_ediv_of_nonneg (Int.neg_nonneg_of_nonpos hneg), Int.neg_tdiv, neg_neg]
    have hle : -n ≤ -a / unit := Int.le_ediv_of_mul_le hunit (by rw [Int.neg_mul]; omega)
    omega

/-- A whole number of units in a time is at most its quotient. -/
theorem le_tdiv_of_mul_le {a n unit : ℤ} (hunit : 0 < unit) (h : n * unit ≤ a) :
    n ≤ a.tdiv unit := by
  have hneg := tdiv_le_of_le_mul (a := -a) (n := -n) hunit (by rw [Int.neg_mul]; omega)
  rw [Int.neg_tdiv] at hneg
  omega

/-- The candles that the range asks for. -/
theorem mem_inRange_iff {unit fromTs toTs : ℤ} {candles : List (RestCandle K)}
    {x : RestCandle K} : x ∈ inRange unit fromTs toTs candles ↔
      x ∈ candles ∧ fromTs ≤ x.ts * unit ∧ x.ts * unit < toTs := by
  unfold inRange
  rw [List.mem_filter, decide_eq_true_eq]

/-- **The Binance backfill stores every candle** of the range up to the last whole millisecond.
SOURCE: ingest/binance/adapter.py:91-140 -/
theorem binance_backfill_complete {klines : String → String → ℤ → ℤ → ℕ → List (RestCandle K)}
    {symbol interval : String} {intervalMs : ℤ} {candles : List (RestCandle K)}
    (hinterval : binanceIntervalMs.lookup interval = some intervalMs)
    (hserves : ServesFirst klines (upperCase symbol) interval candles)
    (hspaced : Spaced intervalMs candles) (fromTs toTs : ℤ) :
    ∃ b, binanceBackfill klines symbol interval fromTs toTs = .ok b ∧
      Stores b (ohlcvRow "binance" symbol interval 1000)
        (inRange 1000 fromTs (timestampMs toTs * 1000) candles) := by
  have hstep : 0 < intervalMs := lookup_pos (by decide) hinterval
  have hfetch : ∀ c, klines (upperCase symbol) interval c
      (min (c + intervalMs * 1000) (timestampMs toTs)) 1000 =
      (spanOf candles (intervalMs * 1000) (timestampMs toTs) c).take 1000 := fun c =>
    hserves c _ 1000
  have hwidth : 0 ≤ intervalMs * 1000 := by omega
  unfold binanceBackfill
  rw [hinterval]
  refine ⟨_, rfl, ?_⟩
  refine span_stores_all (timestampMs toTs) (timestampMs fromTs) (by decide) hstep hwidth hspaced ?_ ?_ ?_
    (fun _ _ => rfl) rfl ?_
  · intro c x hx
    dsimp only at hx
    rw [hfetch] at hx
    exact List.mem_of_mem_take hx
  · intro c x hx
    dsimp only
    rw [hfetch]
    exact mem_take_or_behind hstep (hspaced.spanOf _ _ c) (by decide) hx
  · funext cursor raw
    dsimp only
    rw [binanceBackfillPage_eq, hinterval]
    rfl
  · intro x hx
    obtain ⟨hmem, hfrom, hto⟩ := mem_inRange_iff.mp hx
    exact ⟨hmem, tdiv_le_of_le_mul (by decide) hfrom, by omega⟩

/-- **The Coinbase backfill stores every candle** of the range up to the last whole second.
SOURCE: ingest/coinbase/adapter.py:130-178 -/
theorem coinbase_backfill_complete {endpoint : String → ℤ → ℤ → ℤ → List (RestCandle K)}
    {symbol interval : String} {granularity : ℤ} {candles : List (RestCandle K)}
    (hinterval : intervalToGranularity.lookup interval = some granularity)
    (hserves : ServesSpans endpoint (toProductId symbol) granularity candles)
    (hspaced : Spaced granularity candles) (fromTs toTs : ℤ) :
    ∃ b, coinbaseBackfill endpoint symbol interval fromTs toTs = .ok b ∧
      Stores b (ohlcvRow "coinbase" symbol interval 1000000)
        (inRange 1000000 fromTs (timestampS toTs * 1000000) candles) := by
  have hstep : 0 < granularity := lookup_pos (by decide) hinterval
  have hfetch : ∀ c, (endpoint (toProductId symbol) granularity c
      (min (c + 290 * granularity) (timestampS toTs))).reverse =
      spanOf candles (290 * granularity) (timestampS toTs) c := by
    intro c
    rw [hserves c _ (by omega), List.reverse_reverse]
    rfl
  have hwidth : 0 ≤ 290 * granularity := by omega
  unfold coinbaseBackfill
  rw [hinterval]
  refine ⟨_, rfl, ?_⟩
  refine span_stores_all (timestampS toTs) (timestampS fromTs) (by decide) hstep hwidth hspaced ?_ ?_ ?_
    (fun _ _ => rfl) rfl ?_
  · intro c x hx
    dsimp only at hx
    rw [hfetch] at hx
    exact hx
  · intro c x hx
    dsimp only
    rw [hfetch]
    exact Or.inl hx
  · funext cursor raw
    dsimp only [coinbaseBackfillPage]
    rw [hinterval]
    rfl
  · intro x hx
    obtain ⟨hmem, hfrom, hto⟩ := mem_inRange_iff.mp hx
    exact ⟨hmem, tdiv_le_of_le_mul (by decide) hfrom, by omega⟩

/-- **Both forward backfills are complete** up to the last whole unit of the venue before the end
of the range.
SOURCE: ingest/binance/adapter.py:91-140, ingest/coinbase/adapter.py:103-178 -/
theorem forward_backfills_complete
    {klines : String → String → ℤ → ℤ → ℕ → List (RestCandle K)}
    {endpoint : String → ℤ → ℤ → ℤ → List (RestCandle K)} {symbol interval : String}
    {intervalMs granularity : ℤ} {binance coinbase : List (RestCandle K)}
    (hms : binanceIntervalMs.lookup interval = some intervalMs)
    (hs : intervalToGranularity.lookup interval = some granularity)
    (hbinance : ServesFirst klines (upperCase symbol) interval binance)
    (hcoinbase : ServesSpans endpoint (toProductId symbol) granularity coinbase)
    (hbinanceSpaced : Spaced intervalMs binance) (hcoinbaseSpaced : Spaced granularity coinbase)
    (fromTs toTs : ℤ) :
    (∃ b, binanceBackfill klines symbol interval fromTs toTs = .ok b ∧
      Stores b (ohlcvRow "binance" symbol interval 1000)
        (inRange 1000 fromTs (timestampMs toTs * 1000) binance)) ∧
    ∃ b, coinbaseBackfill endpoint symbol interval fromTs toTs = .ok b ∧
      Stores b (ohlcvRow "coinbase" symbol interval 1000000)
        (inRange 1000000 fromTs (timestampS toTs * 1000000) coinbase) :=
  ⟨binance_backfill_complete hms hbinance hbinanceSpaced fromTs toTs,
    coinbase_backfill_complete hs hcoinbase hcoinbaseSpaced fromTs toTs⟩

section Instance

/-- A candle a minute but for the third, in a unit of which a second has so many. -/
def minuteCandles (unit : ℤ) : List (RestCandle ℚ) :=
  [0, 1, 3, 4].map fun i => ⟨60 * unit * i, 1, 1, 1, 1, 1⟩

/-- These candles are a minute apart or more. -/
theorem spaced_minuteCandles (unit : ℤ) (hunit : 0 ≤ unit) :
    Spaced (60 * unit) (minuteCandles unit) := by
  simp only [Spaced, minuteCandles, List.map_cons, List.map_nil, List.pairwise_cons,
    List.mem_cons, List.not_mem_nil, or_false, forall_eq_or_imp, forall_eq]
  refine ⟨?_, ?_, ?_, ?_, ?_⟩ <;> grind

/-- In milliseconds. -/
theorem spaced_minutes_ms : Spaced 60000 (minuteCandles 1000) :=
  spaced_minuteCandles 1000 (by decide)

/-- In seconds. -/
theorem spaced_minutes_s : Spaced 60 (minuteCandles 1) := spaced_minuteCandles 1 (by decide)

/-- The Binance endpoint with these candles. -/
def minuteKlines (_symbol _interval : String) (start stop : ℤ) (limit : ℕ) :
    List (RestCandle ℚ) :=
  ((minuteCandles 1000).filter fun c => start ≤ c.ts ∧ c.ts ≤ stop).take limit

/-- The Coinbase endpoint with these candles. -/
def minuteEndpoint (_product : String) (_granularity start stop : ℤ) : List (RestCandle ℚ) :=
  ((minuteCandles 1).filter fun c => start ≤ c.ts ∧ c.ts ≤ stop).reverse

/-- Backfills of five minutes from that history, with both adapters. -/
theorem forward_backfills_complete_fourMinutes :
    (∃ b, binanceBackfill minuteKlines "BTCUSD" "1m" 0 300000000 = .ok b ∧
      Stores b (ohlcvRow "binance" "BTCUSD" "1m" 1000)
        (inRange 1000 0 300000000 (minuteCandles 1000))) ∧
    ∃ b, coinbaseBackfill minuteEndpoint "BTCUSD" "1m" 0 300000000 = .ok b ∧
      Stores b (ohlcvRow "coinbase" "BTCUSD" "1m" 1000000)
        (inRange 1000000 0 300000000 (minuteCandles 1)) :=
  forward_backfills_complete rfl rfl (fun _ _ _ => rfl) (fun _ _ _ => rfl) spaced_minutes_ms
    spaced_minutes_s 0 300000000

/-- A candle starts with the range, and the range ends half a second later: the loop is not
entered. -/
theorem range_within_a_second :
    ¬∀ (endpoint : String → ℤ → ℤ → ℤ → List (RestCandle ℚ)) (symbol interval : String)
      (granularity : ℤ) (candles : List (RestCandle ℚ)) (fromTs toTs : ℤ),
      intervalToGranularity.lookup interval = some granularity →
      ServesSpans endpoint (toProductId symbol) granularity candles →
      Spaced granularity candles →
      ∃ b, coinbaseBackfill endpoint symbol interval fromTs toTs = .ok b ∧
        Stores b (ohlcvRow "coinbase" symbol interval 1000000)
          (inRange 1000000 fromTs toTs candles) := by
  intro h
  obtain ⟨b, hb, hstores⟩ := h minuteEndpoint "BTCUSD" "1m" 60 (minuteCandles 1) 0 500000 rfl
    (fun _ _ _ => rfl) spaced_minutes_s
  obtain rfl := Except.ok.inj hb
  obtain ⟨t, total, hends, hrows⟩ := hstores Table.empty
  have hleft : t = Table.empty :=
    congrArg (fun s => s.2.1) (hends.unique (Ends.of_none rfl))
  have hwanted : (⟨0, 1, 1, 1, 1, 1⟩ : RestCandle ℚ) ∈
      inRange 1000000 0 500000 (minuteCandles 1) :=
    mem_inRange_iff.mpr ⟨by simp [minuteCandles], by decide, by decide⟩
  have hrow := hrows ⟨0, 1, 1, 1, 1, 1⟩ hwanted
  rw [hleft] at hrow
  cases hrow

end Instance

end TradingEdge.Analysis
