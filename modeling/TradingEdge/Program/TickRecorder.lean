import TradingEdge.Program.PriceTables
import TradingEdge.Program.TickMessage

/-!
# The tick recorder

`paper/tick_recorder.py`: which markets are published at a time, and the message and the row
of each.  The length of a window is read off the slug.
-/

set_option autoImplicit false

namespace TradingEdge.Program

open TradingEdge.Model

/-- The best quotes and depths of a market.
SOURCE: paper/state.py:24-31 -/
structure CLOBBookSnapshot (K : Type) where
  yesBid : K
  yesAsk : K
  noBid : K
  noAsk : K
  depthYes : K
  depthNo : K

/-- A market the feed has discovered.
SOURCE: paper/state.py:35-42 -/
structure MarketMeta (K : Type) where
  conditionId : String
  slug : String
  windowCloseTs : ℤ
  openPrice : K
  openPriceCaptured : Bool

/-- The prices of the feeds when a tick is composed. -/
structure FeedSnapshot (K : Type) where
  spot : K
  chainlink : K

/-- The depth ratio of a book; `infinite` is Python's `inf`. -/
inductive BookImbalance (K : Type) where
  | infinite
  | ratio (value : K)

/-- SOURCE: paper/feeds.py:483-497 -/
structure DerivedBook (K : Type) where
  imbalance : Option (BookImbalance K)
  spreadBps : Option K
  impliedProbYes : Option K

/-- A slug names a 15-minute market. -/
def Is15m (slug : String) : Prop := "-15m-".toList <:+: slug.toList

instance (slug : String) : Decidable (Is15m slug) := inferInstanceAs (Decidable (_ <:+: _))

/-- The length of the window of a market, by its slug.
SOURCE: paper/tick_recorder.py:35-46 -/
def windowSecondsForSlug (slug : String) : ℤ := if Is15m slug then 900 else 300

variable {K : Type} [Field K] [LinearOrder K]

/-- From two seconds before the window opens until it closes.
SOURCE: paper/tick_recorder.py:49-60 -/
def IsInPublishingWindow (windowCloseTs : ℤ) (now : K) (slug : String) : Prop :=
  (windowCloseTs : K) - windowSecondsForSlug slug - 2 ≤ now ∧ now < windowCloseTs

instance (windowCloseTs : ℤ) (now : K) (slug : String) :
    Decidable (IsInPublishingWindow windowCloseTs now slug) :=
  inferInstanceAs (Decidable (_ ∧ _))

/-- SOURCE: paper/feeds.py:483-497 -/
def computeDerivedBook (book : CLOBBookSnapshot K) : DerivedBook K :=
  if book.yesBid ≤ 0 ∨ book.yesAsk ≤ 0 then ⟨none, none, none⟩
  else
    let midYes := (book.yesBid + book.yesAsk) / 2
    { imbalance := some (
        if 0 < book.depthNo then .ratio (book.depthYes / book.depthNo)
        else if 0 < book.depthYes then .infinite else .ratio 1)
      spreadBps := if 0 < midYes then some ((book.yesAsk - book.yesBid) / midYes * 10000)
        else none
      impliedProbYes := some midYes }

/-- `t_in_window` of a market at a time.
SOURCE: paper/tick_recorder.py:108-120 -/
def tInWindowAt (windowCloseTs : ℤ) (slug : String) (now : K) : K :=
  max 0 (now - ((windowCloseTs : K) - windowSecondsForSlug slug))

/-- The open price is captured once, within five seconds of the open.
SOURCE: paper/tick_recorder.py:101-118 -/
def MarketMeta.captureOpen (m : MarketMeta K) (feed : FeedSnapshot K) (now : K) :
    MarketMeta K :=
  if m.openPriceCaptured = false ∧
      (m.windowCloseTs : K) - windowSecondsForSlug m.slug ≤ now ∧
      tInWindowAt m.windowCloseTs m.slug now ≤ 5 then
    { m with
      openPrice := if feed.spot ≠ 0 then feed.spot else feed.chainlink
      openPriceCaptured := true }
  else m

/-- The message of a market.  `inf` has no JSON number and is sent as null.
SOURCE: paper/tick_recorder.py:123-143 -/
def composeTick (m : MarketMeta K) (book : CLOBBookSnapshot K) (feed : FeedSnapshot K)
    (now : K) : TickDict K :=
  let derived := computeDerivedBook book
  { ts := now
    windowCloseTs := m.windowCloseTs
    marketSlug := m.slug
    conditionId := some m.conditionId
    tInWindow := some (tInWindowAt m.windowCloseTs m.slug now)
    spotPrice := some feed.spot
    chainlinkPrice := some feed.chainlink
    openPrice := some m.openPrice
    pmYesBid := some book.yesBid
    pmYesAsk := some book.yesAsk
    pmNoBid := some book.noBid
    pmNoAsk := some book.noAsk
    pmDepthYes := some book.depthYes
    pmDepthNo := some book.depthNo
    pmImbalance :=
      match derived.imbalance with
      | none => some 0
      | some .infinite => none
      | some (.ratio value) => some value
    pmSpreadBps := some (derived.spreadBps.getD 0)
    impliedProbYes := some (derived.impliedProbYes.getD 0) }

/-- The row of a market, in the columns the settlement reads.
SOURCE: paper/tick_recorder.py:151-171 -/
def composeRow (m : MarketMeta K) (feed : FeedSnapshot K) (now : K) : PaperTickRow K where
  conditionId := m.conditionId
  ts := now
  spotPrice := some feed.spot
  chainlinkPrice := some feed.chainlink
  openPrice := some m.openPrice

/-- What the recorder does with one market at a tick of the master clock: the market with
its open price, and the message and the row if one is published.
SOURCE: paper/tick_recorder.py:79-171 -/
def recordMarket (m : MarketMeta K) (book : Option (CLOBBookSnapshot K))
    (feed : FeedSnapshot K) (now : K) :
    MarketMeta K × Option (TickDict K × PaperTickRow K) :=
  if ¬IsInPublishingWindow m.windowCloseTs now m.slug then (m, none)
  else
    match book with
    | none => (m, none)
    | some book =>
      let m := m.captureOpen feed now
      if (windowSecondsForSlug m.slug : K) < tInWindowAt m.windowCloseTs m.slug now then
        (m, none)
      else (m, some (composeTick m book feed now, composeRow m feed now))

/-- Capturing the open price changes nothing else. -/
theorem captureOpen_frame (m : MarketMeta K) (feed : FeedSnapshot K) (now : K) :
    (m.captureOpen feed now).slug = m.slug ∧
      (m.captureOpen feed now).windowCloseTs = m.windowCloseTs ∧
      (m.captureOpen feed now).conditionId = m.conditionId := by
  unfold MarketMeta.captureOpen
  split <;> exact ⟨rfl, rfl, rfl⟩

/-- A published message is timed now, inside the publishing window of its market, and counts
`t_in_window` from the market's own open; the row beside it has the same time and the spot
price of the feed.
SOURCE: paper/tick_recorder.py:79-171 -/
theorem recordMarket_published (m m' : MarketMeta K) (book : Option (CLOBBookSnapshot K))
    (feed : FeedSnapshot K) (now : K) (d : TickDict K) (row : PaperTickRow K)
    (h : recordMarket m book feed now = (m', some (d, row))) :
    IsInPublishingWindow m.windowCloseTs now m.slug ∧ d.ts = now ∧ d.marketSlug = m.slug ∧
      d.windowCloseTs = m.windowCloseTs ∧ d.conditionId = some m.conditionId ∧
      d.tInWindow = some (tInWindowAt m.windowCloseTs m.slug now) ∧
      row.conditionId = m.conditionId ∧ row.ts = now ∧ row.spotPrice = some feed.spot := by
  unfold recordMarket at h
  split at h
  · cases h
  rename_i hin
  split at h
  · cases h
  obtain ⟨hslug, hclose, hcid⟩ := captureOpen_frame m feed now
  dsimp only at h
  split at h
  · cases h
  cases h
  refine ⟨not_not.mp hin, rfl, hslug, ?_, ?_, ?_, hcid, rfl, rfl⟩
  · simp only [composeTick, hclose]
  · simp only [composeTick, hcid]
  · simp only [composeTick, hclose, hslug]

end TradingEdge.Program
