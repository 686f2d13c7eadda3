import TradingEdge.Library.EntryReading
import TradingEdge.Program.CandleIngest

/-!
# Which observation of a candle is stored

Every statement on the candle table does nothing on a conflict, so of all entries of a candle that
the tasks pass on and commit the first one stays.  Kraken sends a candle while it is open and a
Binance backfill can reach it, so that entry need not have the values that are shown last.

What the tasks pass on is said here by the pages and messages alone: `passedOn` knows neither the
cursor of a loop nor the rows it is about to insert.  `follows_step` connects it to the tasks.
-/

set_option autoImplicit false

namespace TradingEdge.Analysis

open TradingEdge.Model TradingEdge.Program TradingEdge.Library

variable {ι K : Type}

/-! ## What the tasks observe, insert and leave in the table -/

/-- The candles an event observes. -/
def observedOf : CandleEvent K → List (OhlcvRow K)
  | .observed rows => rows
  | .inserted _ => []

/-- The rows an event inserts. -/
def insertedOf : CandleEvent K → List (OhlcvRow K)
  | .observed _ => []
  | .inserted rows => rows

/-- The candles observed in a trace, in order. -/
def observedRows (events : List (ι × CandleEvent K)) : List (OhlcvRow K) :=
  events.flatMap fun e => observedOf e.2

/-- The rows inserted in a trace, in order. -/
def insertedRows (events : List (ι × CandleEvent K)) : List (OhlcvRow K) :=
  events.flatMap fun e => insertedOf e.2

/-- The first row of a candle. -/
def firstOf (rows : List (OhlcvRow K)) (k : String × String × String × ℤ) : Option (OhlcvRow K) :=
  rows.find? fun r => r.key = k

/-- The last row of a candle. -/
def lastOf (rows : List (OhlcvRow K)) (k : String × String × String × ℤ) : Option (OhlcvRow K) :=
  firstOf rows.reverse k

/-- Every stored row holds the last observation of its candle. -/
def StoresLast (writers : ι → CandleWriter) (events : List (ι × CandleEvent K)) : Prop :=
  ∀ r ∈ (candleTable writers events).rows, lastOf (observedRows events) r.key = some r

/-- The table is the result of all inserts in order, whoever made them. -/
theorem candleTable_eq (writers : ι → CandleWriter) (events : List (ι × CandleEvent K)) :
    candleTable writers events = upsertMany Table.empty (insertedRows events) := by
  unfold candleTable insertedRows upsertMany
  induction events using List.reverseRecOn with
  | nil => rfl
  | append_singleton events e ih =>
    rw [List.foldl_append, List.flatMap_append, List.foldl_append, ← ih]
    obtain ⟨i, event⟩ := e
    cases event with
    | observed rows => rfl
    | inserted rows => simp [CandleWriter.insert_eq, insertedOf]

/-- A stored row is the first one inserted for its candle. -/
theorem mem_candleTable_iff (writers : ι → CandleWriter) (events : List (ι × CandleEvent K))
    (r : OhlcvRow K) :
    r ∈ (candleTable writers events).rows ↔ firstOf (insertedRows events) r.key = some r := by
  rw [Table.mem_rows_iff_find?, candleTable_eq, find?_upsertMany]
  rfl

/-! ## What is shown and what is passed on -/

section Passed

variable [Zero K]

/-- The candles that an answer or a message shows to the task. -/
def shown (w : CandleWriter) (r : Resumption K) : List (OhlcvRow K) :=
  match w, r with
  | .krakenBackfill symbol interval _ _, .page raw => raw.map (krakenCandle symbol interval)
  | .krakenStream, .ohlc msg => msg.data.filterMap KrakenOhlc.candle
  | .binanceBackfill symbol interval _ _, .page raw => raw.map (binanceCandle symbol interval)
  | .binanceStream, .kline symbol (some k) => [k.candle symbol]
  | _, _ => []

omit [Zero K] in
/-- The time of the last candle of a page. -/
def pageEnd : Resumption K → Option ℤ
  | .page raw => raw.getLast?.map RestCandle.ts
  | _ => none

omit [Zero K] in
/-- Where a Kraken backfill from `fromTs` on has come to: one interval past the end of the last
page.  `past` is what the task was resumed with, the latest first. -/
def reached (interval : String) (fromTs : ℤ) (past : List (Resumption K)) : ℤ :=
  match past.findSome? pageEnd with
  | none => fromTs
  | some last => last + (krakenIntervalS.lookup interval).getD 0

/-- A candle that an answer or a message shows goes on to the table: in a page of Kraken the ones
from where the loop has come to up to its end, in a message of Kraken all of an update whose entries
can all be read, in a page of Binance all, in a message of Binance a closed one. -/
def passesOn (w : CandleWriter) (past : List (Resumption K)) (r : Resumption K) :
    OhlcvRow K → Bool :=
  match w, r with
  | .krakenBackfill _ interval fromTs stop, _ => fun row =>
    reached interval fromTs past * 1000000 ≤ row.ts ∧ row.ts ≤ stop * 1000000
  | .krakenStream, .ohlc msg => fun _ =>
    msg.type = "update" ∧ ∀ d ∈ msg.data, (krakenRow d).isOk
  | .binanceBackfill _ _ _ _, _ => fun _ => true
  | .binanceStream, .kline _ (some k) => fun _ => k.x
  | _, _ => fun _ => false

/-- What the task passes on of the answer or the message it was resumed with last. -/
def passedOn (w : CandleWriter) : List (Resumption K) → List (OhlcvRow K)
  | [] => []
  | r :: past => (shown w r).filter (passesOn w past r)

/-- What the task has in the table once it is resumed with `r`: where that is the end of an insert,
what it passed on of the answer or the message before. -/
def commits (w : CandleWriter) (past : List (Resumption K)) : Resumption K → List (OhlcvRow K)
  | .committed => passedOn w past
  | _ => []

end Passed

/-! ## The tasks pass on just that -/

section Tasks

variable [Zero K] {w : CandleWriter} {past : List (Resumption K)} {cursor : ℤ} {r : Resumption K}
  {got : Reception K}

/-- The place a task waits at, which matters to a Kraken backfill only. -/
def AtPlace (w : CandleWriter) (past : List (Resumption K)) (cursor : ℤ) : Prop :=
  match w with
  | .krakenBackfill _ interval fromTs _ => cursor = reached interval fromTs past
  | _ => True

/-- The state of a task tells what it was resumed with. -/
def Follows (w : CandleWriter) (past : List (Resumption K)) : WriterState K → Prop
  | .waiting cursor => AtPlace w past cursor
  | .inserting rows next => rows = passedOn w past ∧ ∀ cursor ∈ next, AtPlace w past cursor
  | .ended => True

/-- What a received message shows. -/
theorem observed_eq_shown (h : w.receive cursor r = some got) : got.observed = shown w r := by
  cases w <;> cases r <;> cases h
  case krakenBackfill.page.refl symbol interval fromTs stop raw =>
    cases hlast : raw.getLast? with
    | none => simp [krakenBackfillPage, shown, List.getLast?_eq_none_iff.mp hlast]
    | some last => simp [krakenBackfillPage, shown, hlast]
  case krakenStream.ohlc.refl msg => rfl
  case binanceBackfill.page.refl symbol interval fromTs stop raw =>
    cases hlast : raw.getLast? with
    | none => simp [binanceBackfillPage, shown, List.getLast?_eq_none_iff.mp hlast]
    | some last => simp [binanceBackfillPage, shown, hlast]
  case binanceStream.kline.refl symbol k =>
    cases k with
    | none => rfl
    | some k => rfl

/-- What a loop at its place inserts is what it passes on. -/
theorem rows_eq_passedOn (hplace : AtPlace w past cursor) (h : w.receive cursor r = some got) :
    got.rows = passedOn w (r :: past) := by
  cases w <;> cases r <;> cases h
  case krakenBackfill.page.refl symbol interval fromTs stop raw =>
    obtain rfl : cursor = reached interval fromTs past := hplace
    cases hlast : raw.getLast? with
    | none => simp [krakenBackfillPage, passedOn, shown, List.getLast?_eq_none_iff.mp hlast]
    | some last =>
      simp only [krakenBackfillPage, passedOn, shown, hlast, List.filter_map]
      congr 2
      funext c
      simp [passesOn, krakenCandle]
  case krakenStream.ohlc.refl msg =>
    have hcandles : (msg.data.filterMap fun d => (krakenRow d).toOption).filterMap id =
        msg.data.filterMap KrakenOhlc.candle := by
      rw [List.filterMap_filterMap]
      rfl
    simp only [handleOhlc, passedOn, shown, passesOn, mapM_eq_ite]
    by_cases htype : msg.type = "update"
    · by_cases hall : ∀ d ∈ msg.data, (krakenRow d).isOk
      · simp only [if_pos hall, htype, decide_eq_true hall, ne_eq, not_true, if_false, true_and,
          hcandles, List.filter_true]
      · simp only [if_neg hall, htype, decide_eq_false hall, ne_eq, not_true, if_false, true_and,
          List.filter_false]
    · simp [htype]
  case binanceBackfill.page.refl symbol interval fromTs stop raw =>
    cases hlast : raw.getLast? with
    | none => simp [binanceBackfillPage, passedOn, shown, List.getLast?_eq_none_iff.mp hlast]
    | some last => simp [binanceBackfillPage, passedOn, shown, passesOn, hlast]
  case binanceStream.kline.refl symbol k =>
    cases k with
    | none => rfl
    | some k => cases hx : k.x <;> simp [streamKline, passedOn, shown, passesOn, hx]

/-- A message leaves the loop at its place. -/
theorem atPlace_next (h : w.receive cursor r = some got) :
    ∀ c ∈ got.next, AtPlace w (r :: past) c := by
  intro c hc
  cases w <;> cases r <;> cases h <;> try trivial
  case krakenBackfill.page.refl symbol interval fromTs stop raw =>
    cases hlast : raw.getLast? with
    | none => simp [krakenBackfillPage, hlast] at hc
    | some last =>
      simp only [krakenBackfillPage, hlast, whileBefore] at hc
      simp only [AtPlace, reached, List.findSome?_cons, pageEnd, hlast, Option.map_some]
      split_ifs at hc <;> simp_all

/-- What a task does with an answer or a message. -/
theorem step_receive (h : w.receive cursor r = some got) :
    w.machine.step (.waiting cursor) r =
      (if got.rows = [] then got.next.elim .ended .waiting else .inserting got.rows got.next,
        [.observed got.observed]) := by
  have hraised : r ≠ .raised := by
    rintro rfl
    cases w <;> cases h
  cases r <;> simp_all [CandleWriter.machine]

/-- The state a task goes on in. -/
theorem follows_elim {next : Option ℤ} (h : ∀ c ∈ next, AtPlace w past c) :
    Follows w past (next.elim .ended .waiting) := by
  cases next with
  | none => trivial
  | some c => exact h c rfl

/-- An exception ends a backfill, and a stream waits at no place. -/
theorem follows_afterError : Follows w past w.afterError := by
  cases w <;> trivial

omit [Zero K] in
/-- An insert that ends does not move the place. -/
theorem AtPlace.committed (h : AtPlace w past cursor) : AtPlace w (.committed :: past) cursor := by
  cases w <;> exact h

/-- One resumption: a task observes what is shown to it and inserts what its past says, and its
state tells its past. -/
theorem follows_step {s : WriterState K} (h : Follows w past s) (hr : w.Awaits s r) :
    Follows w (r :: past) (w.machine.next s r) ∧
      (w.machine.emits s r).flatMap observedOf = shown w r ∧
      (w.machine.emits s r).flatMap insertedOf = commits w past r := by
  cases s with
  | waiting cursor =>
    rcases hr with rfl | hr
    · exact ⟨follows_afterError, by cases w <;> rfl, rfl⟩
    · obtain ⟨got, hgot⟩ := Option.isSome_iff_exists.mp hr
      have hcommits : commits w past r = [] := by
        cases r <;> first | rfl | cases w <;> cases hgot
      rw [Machine.next, Machine.emits, step_receive hgot, hcommits, ← observed_eq_shown hgot]
      refine ⟨?_, by simp [observedOf], by simp [insertedOf]⟩
      split_ifs with hrows
      · exact follows_elim (atPlace_next hgot)
      · exact ⟨rows_eq_passedOn h hgot, atPlace_next hgot⟩
  | inserting rows next =>
    obtain ⟨rfl, hnext⟩ := h
    rcases hr with rfl | rfl
    · exact ⟨follows_afterError, by cases w <;> rfl, rfl⟩
    · refine ⟨follows_elim fun c hc => (hnext c hc).committed, by cases w <;> rfl, ?_⟩
      simp [Machine.emits, CandleWriter.machine, insertedOf, commits]
  | ended => exact hr.elim

end Tasks

/-! ## Runs -/

section Runs

variable [DecidableEq ι] [Zero K] {writers : ι → CandleWriter}

/-- The candles that the answers and messages of a run show, in order. -/
def shownCandles (writers : ι → CandleWriter) (ls : List (ι × Resumption K)) : List (OhlcvRow K) :=
  ls.flatMap fun l => shown (writers l.1) l.2

/-- The candles that the tasks passed on and committed, in order, of a run given the latest
resumption first. -/
def committedCandles (writers : ι → CandleWriter) :
    List (ι × Resumption K) → List (OhlcvRow K)
  | [] => []
  | l :: past =>
    committedCandles writers past ++ commits (writers l.1) (Machine.only l.1 past) l.2

/-- A backfill starts where it was told to. -/
theorem follows_start (w : CandleWriter) : Follows w ([] : List (Resumption K)) w.start := by
  cases w with
  | krakenStream => trivial
  | binanceStream => trivial
  | krakenBackfill symbol interval fromTs stop =>
    simp only [CandleWriter.start]
    split_ifs
    · trivial
    · refine follows_elim fun c hc => ?_
      rw [whileBefore] at hc
      split_ifs at hc
      · exact (Option.some.inj hc).symm
      · cases hc
  | binanceBackfill symbol interval fromTs stop =>
    simp only [CandleWriter.start]
    split_ifs
    · trivial
    · exact follows_elim fun c hc => trivial

/-- What the tasks observe and insert in a run is what it shows to them and what they pass on and
commit. -/
theorem follows_run (ls : List (ι × Resumption K))
    (h : (Machine.interleave fun i => (writers i).machine (K := K)).Along
      (fun s l => (writers l.1).Awaits (s l.1) l.2) (fun i => (writers i).start) ls) :
    (∀ i, Follows (writers i) (Machine.only i ls.reverse)
        ((Machine.interleave fun i => (writers i).machine).final
          (fun i => (writers i).start) ls i)) ∧
      observedRows (candleTrace writers ls) = shownCandles writers ls ∧
      insertedRows (candleTrace writers ls) = committedCandles writers ls.reverse := by
  induction ls using List.reverseRecOn with
  | nil => exact ⟨fun i => follows_start (writers i), rfl, rfl⟩
  | append_singleton ls l ih =>
    obtain ⟨hls, hl⟩ := (Obeys.concat_iff ls l).mp h
    obtain ⟨hfollows, hshown, hcommitted⟩ := ih hls
    obtain ⟨i, r⟩ := l
    obtain ⟨hnext, hobserves, hinserts⟩ := follows_step (hfollows i) hl
    rw [List.reverse_concat, Machine.final_concat, Machine.interleave_next]
    refine ⟨fun j => ?_, ?_, ?_⟩
    · by_cases hj : j = i
      · subst hj
        rw [Function.update_self]
        simpa [Machine.only] using hnext
      · rw [Function.update_of_ne hj]
        have hother : Machine.only j ((i, r) :: ls.reverse) = Machine.only j ls.reverse := by
          simp [Machine.only, Ne.symm hj]
        rw [hother]
        exact hfollows j
    · rw [observedRows, candleTrace, Machine.trace_concat, List.flatMap_append, shownCandles,
        List.flatMap_append, List.flatMap_singleton, ← hobserves]
      exact congrArg₂ _ hshown (List.flatMap_map _ _ _)
    · rw [insertedRows, candleTrace, Machine.trace_concat, List.flatMap_append, committedCandles,
        ← hinserts]
      exact congrArg₂ _ hcommitted (List.flatMap_map _ _ _)

/-- Of every candle, the entry that is passed on and committed first is the one shown last. -/
def FirstCommittedIsLast (writers : ι → CandleWriter) (ls : List (ι × Resumption K)) : Prop :=
  ∀ k r, firstOf (committedCandles writers ls.reverse) k = some r →
    lastOf (shownCandles writers ls) k = some r

/-- **What is stored.** For any tasks and every order in which they go on, each stored row holds
the last observation of its candle exactly when, of what the pages and messages show, the entry that
is passed on and committed first is the one shown last.
SOURCE: common/db.py:51-71, ingest/kraken/adapter.py:131-192, 259-300,
ingest/binance/adapter.py:91-193 -/
theorem stores_last_iff (writers : ι → CandleWriter) (run : CandleRun writers K) :
    StoresLast writers (candleTrace writers run.steps) ↔
      FirstCommittedIsLast writers run.steps := by
  obtain ⟨-, hshown, hcommitted⟩ := follows_run run.steps run.awaited
  simp only [StoresLast, mem_candleTable_iff, hshown, hcommitted]
  constructor
  · intro h k r hfirst
    have hkey := List.find?_some hfirst
    simp only [decide_eq_true_eq] at hkey
    subst hkey
    exact h r hfirst
  · intro h r hfirst
    exact h r.key r hfirst

end Runs

/-! ## A candle that is still open -/

/-- An update of the minute that begins at 1700000040. -/
def krakenUpdate (close : ℚ) : KrakenMessage ℚ :=
  ⟨"update", [⟨"BTC/USD", 1, some 1700000040000000, some 100, some 110, some 90, some close,
    some 1⟩]⟩

/-- The Kraken stream alone gets two updates of it, and inserts both. -/
def openMinute : CandleRun (fun _ : Unit => CandleWriter.krakenStream) ℚ where
  steps := [((), .ohlc (krakenUpdate 100)), ((), .committed), ((), .ohlc (krakenUpdate 105)),
    ((), .committed)]
  awaited := by
    simp only [Machine.along_cons_iff]
    exact ⟨Or.inr rfl, Or.inr rfl, Or.inr rfl, Or.inr rfl, Obeys.nil⟩

/-- Two updates of one candle: the row keeps the close of the first.
SOURCE: ingest/kraken/adapter.py:264-266 -/
theorem open_candle_stays :
    ¬∀ (writers : Unit → CandleWriter) (run : CandleRun writers ℚ),
      StoresLast writers (candleTrace writers run.steps) := by
  intro h
  have hstored := h _ openMinute
    ⟨"kraken", "BTCUSD", "1m", 1700000040000000, 100, 110, 90, 100, 1⟩
    ((mem_candleTable_iff _ _ _).mpr (by decide +kernel))
  revert hstored
  decide +kernel

end TradingEdge.Analysis
