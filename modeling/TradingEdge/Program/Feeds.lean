import TradingEdge.Library.Dict
import TradingEdge.Program.TickRecorder

/-!
# Market discovery

The part of `paper/feeds.py` that decides which markets get ticks: two passes over the events
of the Gamma API write into one map, the 5-minute series of BTC and ETH one family at a time
and the 15-minute markets of both together.  The recorder publishes every market of the map.
-/

set_option autoImplicit false

namespace TradingEdge.Program

open TradingEdge.Model TradingEdge.Library

/-- `slug.startswith(family)`. -/
def InFamily (family slug : String) : Prop := family.toList <+: slug.toList

instance (family slug : String) : Decidable (InFamily family slug) :=
  inferInstanceAs (Decidable (_ <+: _))

/-- The families that are refreshed by their series.
SOURCE: paper/feeds.py:393-394 -/
def series5m : List String := ["btc-updown-5m-", "eth-updown-5m-"]

/-- The families found in the global list of events.
SOURCE: paper/feeds.py:336-339 -/
def families15m : List String := ["btc-updown-15m-", "eth-updown-15m-"]

/-- The families the feed discovers. -/
def slugFamilies : List String := series5m ++ families15m

/-- A market of an event as Gamma sends it, with the slug of the market or else of the event,
the number at the end of the slug and the parsed token ids. -/
structure GammaMarket where
  eventClosed : Bool
  slug : String
  slugCloseTs : Option ℤ
  conditionId : Option String
  tokens : List String

variable {K : Type} [Field K] [LinearOrder K]

/-- The condition id and the close of a market that is taken into the map.
SOURCE: paper/feeds.py:328-361, 426-451 -/
def acceptMarket (families : List String) (now : K) (g : GammaMarket) : Option (String × ℤ) :=
  if g.eventClosed ∨ g.slug = "" ∨ ¬∃ family ∈ families, InFamily family g.slug then none
  else
    match g.slugCloseTs, g.conditionId with
    | some closeTs, some conditionId =>
      if (closeTs : K) ≤ now ∨ conditionId = "" ∨ g.tokens.length ≠ 2 then none
      else some (conditionId, closeTs)
    | _, _ => none

/-- A market that is already in the map keeps its open price.
SOURCE: paper/feeds.py:364-377, 452-465 -/
def addMarket (families : List String) (now : K) (markets : Dict String (MarketMeta K))
    (g : GammaMarket) : Dict String (MarketMeta K) :=
  match acceptMarket families now g with
  | none => markets
  | some (conditionId, closeTs) =>
    let old := markets.get? conditionId
    markets.set conditionId {
      conditionId := conditionId
      slug := g.slug
      windowCloseTs := closeTs
      openPrice := (old.map (·.openPrice)).getD 0
      openPriceCaptured := (old.map (·.openPriceCaptured)).getD false }

/-- Markets five minutes past their close leave the map.
SOURCE: paper/feeds.py:470-479 -/
def dropExpired (now : K) (markets : Dict String (MarketMeta K)) :
    Dict String (MarketMeta K) :=
  let expired := markets.entries.filter fun e => (e.2.windowCloseTs : K) < now - 300
  expired.foldl (fun ms e => ms.pop e.1) markets

/-- What one answer of the API does to the map. -/
inductive Refresh where
  | series (family : String) (events : List GammaMarket)
  | globalPage (events : List GammaMarket)

/-- SOURCE: paper/feeds.py:293-379, 397-479 -/
def refreshMarkets (now : K) (markets : Dict String (MarketMeta K)) :
    Refresh → Dict String (MarketMeta K)
  | .series family events => dropExpired now (events.foldl (addMarket [family] now) markets)
  | .globalPage events => events.foldl (addMarket families15m now) markets

/-- Every market of the map belongs to one of the families. -/
def MarketsIn (families : List String) (markets : Dict String (MarketMeta K)) : Prop :=
  ∀ cid m, markets.get? cid = some m → ∃ family ∈ families, InFamily family m.slug

/-- A market is only added under a slug of the families it was looked for in. -/
theorem addMarket_marketsIn {families all : List String} (hsub : families ⊆ all) (now : K)
    (markets : Dict String (MarketMeta K)) (g : GammaMarket) (h : MarketsIn all markets) :
    MarketsIn all (addMarket families now markets g) := by
  unfold addMarket
  split
  · exact h
  rename_i conditionId closeTs haccept
  have hfamily : ∃ family ∈ families, InFamily family g.slug := by
    unfold acceptMarket at haccept
    split at haccept
    · cases haccept
    rename_i hslug
    push Not at hslug
    exact hslug.2.2
  intro cid m hm
  rw [Dict.get?_set] at hm
  split at hm
  · cases hm
    obtain ⟨family, hmem, hin⟩ := hfamily
    exact ⟨family, hsub hmem, hin⟩
  · exact h cid m hm

/-- Dropping markets keeps them in the families. -/
theorem dropExpired_marketsIn {families : List String} (now : K)
    (markets : Dict String (MarketMeta K)) (h : MarketsIn families markets) :
    MarketsIn families (dropExpired now markets) := by
  unfold dropExpired
  dsimp only
  generalize (markets.entries.filter fun e => (e.2.windowCloseTs : K) < now - 300) = expired
  induction expired generalizing markets with
  | nil => exact h
  | cons e expired ih =>
    refine ih (markets.pop e.1) fun cid m hm => ?_
    rw [Dict.get?_pop] at hm
    split at hm
    · cases hm
    · exact h cid m hm

/-- Discovery keeps the map within the four families, over any sequence of answers about
them.
SOURCE: paper/feeds.py:293-379, 385-479 -/
theorem refreshMarkets_marketsIn (answers : List (K × Refresh))
    (hseries : ∀ now family events, (now, .series family events) ∈ answers →
      family ∈ series5m)
    (markets : Dict String (MarketMeta K)) (h : MarketsIn slugFamilies markets) :
    MarketsIn slugFamilies
      (answers.foldl (fun ms a => refreshMarkets a.1 ms a.2) markets) := by
  have hfold : ∀ (families : List String) (events : List GammaMarket) (now : K)
      (ms : Dict String (MarketMeta K)), families ⊆ slugFamilies → MarketsIn slugFamilies ms →
      MarketsIn slugFamilies (events.foldl (addMarket families now) ms) := by
    intro families events now ms hsub
    induction events generalizing ms with
    | nil => exact id
    | cons g events ih => exact fun hms => ih _ (addMarket_marketsIn hsub now ms g hms)
  induction answers generalizing markets with
  | nil => exact h
  | cons a answers ih =>
    refine ih (fun now family events hmem => hseries now family events (by simp [hmem])) _ ?_
    obtain ⟨now, answer⟩ := a
    cases answer with
    | series family events =>
      have hfamily : [family] ⊆ slugFamilies := by
        intro x hx
        rw [List.mem_singleton.mp hx]
        exact List.mem_append_left _ (hseries now family events (by simp))
      exact dropExpired_marketsIn now _ (hfold _ events now markets hfamily h)
    | globalPage events =>
      exact hfold _ events now markets (List.subset_append_right _ _) h

/-- What the recorder publishes of a discovered market carries a slug of the families. -/
theorem published_in_families (markets : Dict String (MarketMeta K))
    (h : MarketsIn slugFamilies markets) (cid : String) (m m' : MarketMeta K)
    (hm : markets.get? cid = some m) (book : Option (CLOBBookSnapshot K))
    (feed : FeedSnapshot K) (now : K) (d : TickDict K) (row : PaperTickRow K)
    (hrec : recordMarket m book feed now = (m', some (d, row))) :
    ∃ family ∈ slugFamilies, InFamily family d.marketSlug := by
  obtain ⟨-, -, hslug, -⟩ := recordMarket_published m m' book feed now d row hrec
  rw [hslug]
  exact h cid m hm

end TradingEdge.Program
