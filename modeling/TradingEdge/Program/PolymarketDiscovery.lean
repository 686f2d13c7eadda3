import TradingEdge.Program.CommonDb
import TradingEdge.Program.MarketSlug

/-!
# The discovery of Polymarket markets

`PolymarketAdapter.discover_markets` pages through the events of a family and inserts a row for
each market it finds.  The 5-minute families have a series of their own; for the others all
events are paged through, at most sixty pages of them.  Later passes find the same markets again.
-/

set_option autoImplicit false

namespace TradingEdge.Program

open TradingEdge.Library

/-! ## The answers of the market API -/

/-- A date of an answer in microseconds: `none` where it is absent or empty, `some none` where
the text is not a date. -/
abbrev GammaDate := Option (Option ℤ)

/-- A market of an event.  The two lists are `none` where the answer holds something else, an
outcome price is `none` where `float` raises on it.
SOURCE: ingest/polymarket/adapter.py:346-404 -/
structure GammaEventMarket (K : Type) where
  conditionId : Option String
  slug : Option String
  question : Option String
  closed : Bool
  resolved : Bool
  outcomes : Option (List String)
  outcomePrices : Option (List (Option K))
  startDate : GammaDate
  endDate : GammaDate
  resolvedAt : GammaDate
  resolveTime : GammaDate

structure GammaEvent (K : Type) where
  slug : Option String
  title : Option String
  closed : Bool
  startDate : GammaDate
  endDate : GammaDate
  markets : List (GammaEventMarket K)

/-- A row of `market_data.polymarket_markets`.  The metadata column keeps the two answers.
SOURCE: infra/postgres/init/03_market_data_tables.sql:92-103 -/
structure PolymarketRow (K : Type) where
  conditionId : String
  slug : String
  question : String
  windowTs : ℤ
  resolved : Bool
  outcome : Option String
  openTime : Option ℤ
  closeTime : Option ℤ
  resolveTime : Option ℤ
  metadata : GammaEventMarket K × GammaEvent K

/-! ## The row of a market -/

/-- A text the source takes for present: not empty. -/
def nonEmpty (s : Option String) : Option String := s.filter (· ≠ "")

section Rows

variable {K : Type} [Field K] [LinearOrder K]

/-- The outcome of a resolved market: the first whose price is at least 0.99.
SOURCE: ingest/polymarket/adapter.py:367-389 -/
def winningOutcome (m : GammaEventMarket K) : Option String :=
  match m.outcomePrices, m.outcomes with
  | some prices, some outcomes =>
    if prices.length = outcomes.length then
      ((outcomes.zip prices).find? fun e => e.2.any fun p => 99 / 100 ≤ p).map Prod.fst
    else none
  | _, _ => none

/-- The close of the window: the number at the end of the slug, or else the window the event ends
in.  An end date that is no date raises.
SOURCE: ingest/polymarket/adapter.py:355-365 -/
def closeTsFromSlug (slug : String) (ev : GammaEvent K) (now : ℤ) : Except Unit ℤ :=
  match trailingTs slug with
  | some ts => .ok ts
  | none =>
    match ev.endDate with
    | none => .ok (windowFor (now / 1000000)).closeTs
    | some (some endTs) => .ok (windowFor (endTs / 1000000)).closeTs
    | some none => .error ()

/-- The row of a market: none where the pass goes on to the next market, an error where it
raises.
SOURCE: ingest/polymarket/adapter.py:346-404 -/
def marketRowFromEvent (m : GammaEventMarket K) (ev : GammaEvent K) (slugPattern : String) (now : ℤ) :
    Except Unit (Option (PolymarketRow K)) :=
  match (nonEmpty m.slug).or (nonEmpty ev.slug), nonEmpty m.conditionId with
  | some slug, some conditionId =>
    if slugPattern.toList <+: slug.toList then
      let resolved := m.closed || m.resolved || ev.closed
      (closeTsFromSlug slug ev now).map fun windowTs => some {
        conditionId := conditionId
        slug := slug
        question := (nonEmpty m.question).getD (ev.title.getD "")
        windowTs := windowTs
        resolved := resolved
        outcome := if resolved then winningOutcome m else none
        openTime := (m.startDate.or ev.startDate).join
        closeTime := (m.endDate.or ev.endDate).join
        resolveTime := (m.resolvedAt.or m.resolveTime).join
        metadata := (m, ev) }
    else .ok none
  | _, _ => .ok none

/-- The rows of a page, in order; the first market that raises ends the pass.
SOURCE: ingest/polymarket/adapter.py:166-174, 222-230 -/
def pageRows (events : List (GammaEvent K)) (slugPattern : String) (now : ℤ) :
    Except Unit (List (PolymarketRow K)) :=
  ((events.flatMap fun ev => ev.markets.map fun m => (m, ev)).mapM fun e =>
    marketRowFromEvent e.1 e.2 slugPattern now).map fun rows => rows.filterMap id

/-! ## The passes -/

/-- What one turn of a paging loop meets: the page, or `none` where the request raises; the
clock; and whether the insert goes through. -/
structure GammaPage (K : Type) where
  events : Option (List (GammaEvent K))
  now : ℤ
  committed : Bool

/-- The rows a pass builds, and those of them that an insert has put to the table. -/
structure DiscoveryLog (K : Type) where
  seen : List (PolymarketRow K)
  inserted : List (List (PolymarketRow K))

/-- The end of an event in seconds. -/
def endEpoch (ev : GammaEvent K) : Option ℤ := ev.endDate.join.map (· / 1000000)

/-- The loop over the pages of a series.
SOURCE: ingest/polymarket/adapter.py:148-206 -/
def discoverViaSeries (slugPattern : String) (sinceEpoch : ℤ) :
    List (GammaPage K) → DiscoveryLog K
  | [] => ⟨[], []⟩
  | page :: rest =>
    match page.events with
    | none => ⟨[], []⟩
    | some [] => ⟨[], []⟩
    | some events =>
      match pageRows events slugPattern page.now with
      | .error _ => ⟨[], []⟩
      | .ok rows =>
        if rows ≠ [] ∧ ¬page.committed then ⟨rows, []⟩
        else if ∃ ev ∈ events, ∃ endTs ∈ endEpoch ev, endTs < sinceEpoch then ⟨rows, [rows]⟩
        else
          let later := discoverViaSeries slugPattern sinceEpoch rest
          ⟨rows ++ later.seen, rows :: later.inserted⟩

/-- The loop over all events, of which `cap` pages are left.
SOURCE: ingest/polymarket/adapter.py:208-270 -/
def discoverViaGlobalEvents (slugPattern : String) (sinceEpoch : ℤ) :
    ℕ → List (GammaPage K) → DiscoveryLog K
  | 0, _ => ⟨[], []⟩
  | _, [] => ⟨[], []⟩
  | cap + 1, page :: rest =>
    match page.events with
    | none => ⟨[], []⟩
    | some [] => ⟨[], []⟩
    | some events =>
      match pageRows events slugPattern page.now with
      | .error _ => ⟨[], []⟩
      | .ok rows =>
        if rows ≠ [] ∧ ¬page.committed then ⟨rows, []⟩
        else if (∃ ev ∈ events, ∃ endTs ∈ endEpoch ev, endTs < sinceEpoch) ∨ events.length < 500 then
          ⟨rows, [rows]⟩
        else
          let later := discoverViaGlobalEvents slugPattern sinceEpoch cap rest
          ⟨rows ++ later.seen, rows :: later.inserted⟩

/-- A call of `discover_markets` and the pages it meets. -/
structure DiscoveryPass (K : Type) where
  slugPattern : String
  sinceEpoch : ℤ
  pages : List (GammaPage K)

/-- SOURCE: ingest/polymarket/adapter.py:124-146 -/
def discoverMarkets (pass : DiscoveryPass K) : DiscoveryLog K :=
  if pass.slugPattern = "btc-updown-5m-" ∨ pass.slugPattern = "eth-updown-5m-" then
    discoverViaSeries pass.slugPattern pass.sinceEpoch pass.pages
  else if pass.slugPattern = "btc-updown-15m-" ∨ pass.slugPattern = "eth-updown-15m-" then
    discoverViaGlobalEvents pass.slugPattern pass.sinceEpoch 60 pass.pages
  else ⟨[], []⟩

/-- The table after the passes, from an empty one. -/
def marketTable (passes : List (DiscoveryPass K)) :
    Table (PolymarketRow.conditionId (K := K)) :=
  passes.foldl (fun t pass => (discoverMarkets pass).inserted.foldl upsertMany t) Table.empty

end Rows

end TradingEdge.Program
