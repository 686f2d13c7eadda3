import Mathlib.Data.Nat.Bits
import TradingEdge.Program.MarketSlug

/-!
# The training set of the last-90-seconds forecaster

`cli/train_last90s.py`: the resolved markets of two SQLite files, with prices taken from the
Binance candles, become samples at second 210 of their window; the list of the samples is cut
by position into a training, a calibration and a test part.

The databases are their tables.  A query without an order returns its rows in some order, so a
`PolybotDb` holds the answer it gives, with what makes it an answer.  The feature vector is a
function of what the source feeds into it; nothing here looks inside.
-/

set_option autoImplicit false

namespace TradingEdge.Program

open TradingEdge.Model

/-! ## The sources -/

/-- The pattern `btc-%updown-5m-%` of the query; `LIKE` does not look at letter case.
SOURCE: cli/train_last90s.py:195-202 -/
def LikeBtcUpdown5m (slug : String) : Prop :=
  "btc-".toList <+: slug.toList.map Char.toLower ∧
    "updown-5m-".toList <:+: (slug.toList.map Char.toLower).drop 4

instance (slug : String) : Decidable (LikeBtcUpdown5m slug) := inferInstanceAs (Decidable (_ ∧ _))

/-- A row of `trades`, as far as the loader looks at it. -/
structure PolybotTrade where
  marketSlug : String
  resolution : Option String

/-- A polybot file: its trades, the slugs `SELECT DISTINCT` finds in them, and its ticks by
market, times ascending.
SOURCE: cli/train_last90s.py:186-206, 277-291 -/
structure PolybotDb (K : Type) where
  trades : List PolybotTrade
  resolvedSlugs : List String
  nodup_resolvedSlugs : resolvedSlugs.Nodup
  mem_resolvedSlugs_iff : ∀ slug, slug ∈ resolvedSlugs ↔
    LikeBtcUpdown5m slug ∧
      ∃ t ∈ trades, t.marketSlug = slug ∧ (t.resolution = some "win" ∨ t.resolution = some "loss")
  ticks : String → List (K × Option K)

/-- A 5-minute candle of the macro features. -/
structure Candle5m (K : Type) where
  ts : K
  high : K
  low : K
  close : K

/-- A trade of the Binance tape: price, quantity and side. -/
structure TapeTrade (K : Type) where
  price : K
  qty : K
  side : String

/-- What a feature vector is computed from.
SOURCE: cli/train_last90s.py:391-447 -/
structure FeatureInputs (K : Type) where
  asOfTs : ℤ
  spotsLast90s : List K
  macroWindow : List (Candle5m K)
  impliedProbYes : K
  openPrice : K
  microstructure : Option (List (TapeTrade K) × ℕ)

/-- The two files and the tables of the store.  `minuteCloses` are the closes of the 1-minute
candles by their minute, `impliedYes` and `microstructure` the answers of the two lookups, and
`vector` is `build_vector` with the microstructure features behind it. -/
structure TrainSources (K V : Type) where
  polybotBtc5m : Option (PolybotDb K)
  polybotAgent : Option (PolybotDb K)
  minuteCloses : ℤ → Option K
  candles5m : List (Candle5m K)
  impliedYes : String → ℤ → Option K
  microstructure : ℤ → ℤ → List (TapeTrade K) × ℕ
  vector : FeatureInputs K → V

/-- The arguments of `build_samples` that decide which markets it drops.
SOURCE: cli/train_last90s.py:323-336 -/
structure SampleOptions where
  useRealImpliedProb : Bool
  microstructureWindowS : ℤ

/-- The arguments of the command: the range of close times in microseconds, and whether the two
files have the same name.
SOURCE: cli/train_last90s.py:742-773 -/
structure TrainArgs where
  dateFrom : ℤ
  dateTo : ℤ
  sameFileName : Bool
  options : SampleOptions

/-! ## The market loader -/

/-- A market with the closes of the candles of its two minutes.  The source counts its times in
whole seconds.
SOURCE: cli/train_last90s.py:247-256 -/
structure ResolvedMarket (K : Type) where
  slug : String
  openTs : ℤ
  closeTs : ℤ
  openPrice : K
  closePrice : K
deriving DecidableEq

/-- The market of a slug, or `none` where the slug has no time or a minute has no candle.
SOURCE: cli/train_last90s.py:214-256 -/
def resolvedMarket {K : Type} (minuteCloses : ℤ → Option K) (slugEncodesOpenTs : Bool)
    (slug : String) : Option (ResolvedMarket K) := do
  let trailing ← trailingTs slug
  let openTs := if slugEncodesOpenTs then trailing else trailing - 300
  let closeTs := if slugEncodesOpenTs then trailing + 300 else trailing
  let binOpen ← minuteCloses (openTs / 60 * 60)
  let binClose ← minuteCloses (closeTs / 60 * 60)
  return ⟨slug, openTs, closeTs, binOpen, binClose⟩

/-- The market closes between two instants, given in microseconds, either included.
SOURCE: cli/train_last90s.py:824-826, cli/walk_forward.py:202-203 -/
def ClosesIn {K : Type} (m : ResolvedMarket K) (a b : ℤ) : Prop :=
  a ≤ m.closeTs * 1000000 ∧ m.closeTs * 1000000 ≤ b

instance {K : Type} (m : ResolvedMarket K) (a b : ℤ) : Decidable (ClosesIn m a b) :=
  inferInstanceAs (Decidable (_ ∧ _))

/-- The resolved markets of a file, in the order of its query; none if it is missing.
SOURCE: cli/train_last90s.py:157-270 -/
def loadResolvedMarkets {K : Type} (minuteCloses : ℤ → Option K) (slugEncodesOpenTs : Bool)
    (db : Option (PolybotDb K)) : List (ResolvedMarket K) :=
  match db with
  | none => []
  | some db => db.resolvedSlugs.filterMap (resolvedMarket minuteCloses slugEncodesOpenTs)

/-! ## The samples -/

/-- SOURCE: cli/train_last90s.py:47-54 -/
structure Sample (V : Type) where
  openTs : ℤ
  closeTs : ℤ
  slug : String
  features : V
  label : ℕ

section Samples

variable {K V : Type} [Field K] [LinearOrder K]

/-- The positive spot prices of a market in a range of time.
SOURCE: cli/train_last90s.py:267-291 -/
def loadTicksForSlug (db : Option (PolybotDb K)) (slug : String) (openTs cutoffTs : ℤ) : List K :=
  match db with
  | none => []
  | some db => (db.ticks slug).filterMap fun t =>
    if (openTs : K) ≤ t.1 ∧ t.1 ≤ (cutoffTs : K) then t.2.filter (0 < ·) else none

/-- The candles from an hour before the first instant to an hour after the second, in seconds.
SOURCE: cli/train_last90s.py:294-315, 836-839 -/
def loadOhlcv5m (candles5m : List (Candle5m K)) (a b : ℤ) : List (Candle5m K) :=
  candles5m.filter fun c =>
    ((a.tdiv 1000000 - 3600 : ℤ) : K) ≤ c.ts ∧ c.ts ≤ ((b.tdiv 1000000 + 3600 : ℤ) : K)

/-- The last 34 candles that were complete at a time, if there are so many.
SOURCE: cli/train_last90s.py:354-364 -/
def macroAt (candles5m : List (Candle5m K)) (asOf : ℤ) : Option (List (Candle5m K)) :=
  let eligible := candles5m.filter fun c => c.ts ≤ ((asOf - 300 : ℤ) : K)
  if eligible.length < 34 then none else some (eligible.drop (eligible.length - 34))

/-- `implied_yes`: one half, or the clamped recorded price, without which the sample is dropped.
SOURCE: cli/train_last90s.py:392-409 -/
def impliedProb (src : TrainSources K V) (options : SampleOptions) (slug : String)
    (asOf : ℤ) : Option K :=
  if options.useRealImpliedProb then (src.impliedYes slug asOf).map fun p => max 0 (min 1 p)
  else some (1 / 2)

/-- The sample of one market of the file `db`, or `none` where the source goes on to the next.
SOURCE: cli/train_last90s.py:380-459 -/
def sampleOf (src : TrainSources K V) (options : SampleOptions) (candles5m : List (Candle5m K))
    (db : Option (PolybotDb K)) (m : ResolvedMarket K) : Option (Sample V) :=
  let asOf := m.openTs + 210
  let spots := loadTicksForSlug db m.slug (m.openTs + 120) asOf
  if spots.length < 60 then none
  else
    match macroAt candles5m asOf with
    | none => none
    | some window =>
      match impliedProb src options m.slug asOf with
      | none => none
      | some implied =>
        let microstructure := src.microstructure asOf options.microstructureWindowS
        if microstructure.1 = [] then none
        else some {
          openTs := m.openTs
          closeTs := m.closeTs
          slug := m.slug
          features := src.vector ⟨asOf, spots, window, implied, m.openPrice, some microstructure⟩
          label := if m.openPrice < m.closePrice then 1 else 0 }

/-- The file the first loader reads: the snapshots go to one directory under their file names,
so the second overwrites a first of the same name.
SOURCE: cli/train_last90s.py:789-801 -/
def btc5mSnapshot (src : TrainSources K V) (args : TrainArgs) : Option (PolybotDb K) :=
  match src.polybotBtc5m, src.polybotAgent with
  | some btc5m, some agent => some (if args.sameFileName then agent else btc5m)
  | btc5m, _ => btc5m

/-- The markets of both files, each with its file, that close in the range.
SOURCE: cli/train_last90s.py:817-827 -/
def datasetMarkets (src : TrainSources K V) (args : TrainArgs) :
    List (Option (PolybotDb K) × ResolvedMarket K) :=
  let btc5m := btc5mSnapshot src args
  let ma := (loadResolvedMarkets src.minuteCloses false btc5m).map fun m => (btc5m, m)
  let mb := (loadResolvedMarkets src.minuteCloses true src.polybotAgent).map fun m =>
    (src.polybotAgent, m)
  (ma ++ mb).filter fun e => ClosesIn e.2 args.dateFrom args.dateTo

/-- SOURCE: cli/train_last90s.py:373-471 -/
def buildSamples (src : TrainSources K V) (options : SampleOptions)
    (candles5m : List (Candle5m K)) (markets : List (Option (PolybotDb K) × ResolvedMarket K)) :
    List (Sample V) :=
  markets.filterMap fun e => sampleOf src options candles5m e.1 e.2

/-- The samples the command trains on, or the exit code it gives up with.
SOURCE: cli/train_last90s.py:825-866 -/
def assemble (src : TrainSources K V) (args : TrainArgs) : Except ℕ (List (Sample V)) :=
  let markets := datasetMarkets src args
  if markets.length < 100 then .error 2
  else
    let samples := buildSamples src args.options
      (loadOhlcv5m src.candles5m args.dateFrom args.dateTo) markets
    if samples.length < 100 then .error 3 else .ok samples

end Samples

/-! ## The split -/

/-- `int(n * x)` for the double `x = m / 2 ^ e`: the product is rounded to 53 binary digits,
ties to even, and truncated. -/
def timesDouble (n m e : ℕ) : ℕ :=
  let product := n * m
  let low := product.size - 53
  let digits := product / 2 ^ low
  let rest := product % 2 ^ low
  let up : Bool := 2 ^ low < 2 * rest ∨ 2 ^ low = 2 * rest ∧ digits % 2 = 1
  (if up then digits + 1 else digits) * 2 ^ low / 2 ^ e

/-- `int(n * 0.70)`. -/
def nTrain (n : ℕ) : ℕ := timesDouble n 6305039478318694 53

/-- `int(n * 0.15)`. -/
def nVal (n : ℕ) : ℕ := timesDouble n 5404319552844595 55

/-- The training, the calibration and the test part. -/
structure Partitions (α : Type) where
  train : List α
  val : List α
  test : List α

/-- The split by position.
SOURCE: cli/train_last90s.py:509-516 -/
def splitSamples {α : Type} (samples : List α) : Partitions α where
  train := samples.take (nTrain samples.length)
  val := (samples.drop (nTrain samples.length)).take (nVal samples.length)
  test := samples.drop (nTrain samples.length + nVal samples.length)

end TradingEdge.Program
