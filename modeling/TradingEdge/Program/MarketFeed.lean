import TradingEdge.Library.Machine
import TradingEdge.Program.ClobFeed
import TradingEdge.Program.Feeds

/-!
# Markets, tokens and subscriptions

`paper/feeds.py` with the tokens of the markets: the refresh of the markets enters the two tokens
of a market in the maps that messages of the order books are resolved by, and takes them out again
with the market; the CLOB task subscribes to the tokens it finds when it connects, and a loop of
each connection subscribes to those that have come since.  The tasks run side by side, between two
of their awaits one step is taken.
-/

set_option autoImplicit false

namespace TradingEdge.Program

open TradingEdge.Model TradingEdge.Library

/-- SOURCE: paper/state.py:35-42 -/
structure ListedMarket (K : Type) extends MarketMeta K where
  yesTokenId : String
  noTokenId : String

/-- SOURCE: paper/state.py:46-59 -/
structure MarketFeed (K : Type) extends ClobFeed K where
  markets : Dict String (ListedMarket K)

/-! ## The maps of the tokens -/

/-- Both maps get an entry for a token. -/
def TokenMaps.add (tokens : TokenMaps) (token condition : String) (side : TokenSide) :
    TokenMaps where
  tokenToCondition := tokens.tokenToCondition.set token condition
  tokenSide := tokens.tokenSide.set token side
  sided := by
    intro t ht
    rw [Dict.get?_set] at ht ⊢
    by_cases h : t = token
    · simp [h]
    · rw [if_neg h] at ht ⊢
      exact tokens.sided t ht

/-- Both maps lose the entry of a token. -/
def TokenMaps.drop (tokens : TokenMaps) (token : String) : TokenMaps where
  tokenToCondition := tokens.tokenToCondition.pop token
  tokenSide := tokens.tokenSide.pop token
  sided := by
    intro t ht
    rw [Dict.get?_pop] at ht ⊢
    by_cases h : t = token
    · simp [h] at ht
    · rw [if_neg h] at ht ⊢
      exact tokens.sided t ht

section Empty

variable {K : Type}

/-- SOURCE: paper/state.py:54-61 -/
def MarketFeed.empty : MarketFeed K where
  tokenToCondition := Dict.empty
  tokenSide := Dict.empty
  sided := fun _ h => absurd rfl h
  books := Dict.empty
  markets := Dict.empty

end Empty

variable {K : Type} [Field K] [LinearOrder K]

/-! ## The refresh of the markets -/

/-- SOURCE: paper/feeds.py:363-379, 454-470 -/
def MarketFeed.enter (s : MarketFeed K) (m : ListedMarket K) : MarketFeed K :=
  { s with
    toTokenMaps := (s.toTokenMaps.add m.yesTokenId m.conditionId .yes).add m.noTokenId
      m.conditionId .no
    markets := s.markets.set m.conditionId m }

/-- A market that is already listed keeps its open price.
SOURCE: paper/feeds.py:328-379, 426-470 -/
def MarketFeed.list (families : List String) (now : K) (s : MarketFeed K) (g : GammaMarket) :
    MarketFeed K :=
  match acceptMarket families now g, g.tokens with
  | some (conditionId, closeTs), [yesId, noId] =>
    let old := s.markets.get? conditionId
    s.enter {
      conditionId := conditionId
      slug := g.slug
      windowCloseTs := closeTs
      openPrice := (old.map (·.openPrice)).getD 0
      openPriceCaptured := (old.map (·.openPriceCaptured)).getD false
      yesTokenId := yesId
      noTokenId := noId }
  | _, _ => s

/-- SOURCE: paper/feeds.py:476-480 -/
def MarketFeed.drop (s : MarketFeed K) (conditionId : String) (m : ListedMarket K) :
    MarketFeed K :=
  { s with
    toTokenMaps := (s.toTokenMaps.drop m.yesTokenId).drop m.noTokenId
    books := s.books.pop conditionId
    markets := s.markets.pop conditionId }

/-- One market of the loop that drops what closed before `cutoff`.
SOURCE: paper/feeds.py:473-480 -/
def MarketFeed.dropIfExpired (cutoff : K) (s : MarketFeed K) (conditionId : String) :
    MarketFeed K :=
  match s.markets.get? conditionId with
  | none => s
  | some m => if (m.windowCloseTs : K) < cutoff then s.drop conditionId m else s

/-- Markets five minutes past their close are dropped.
SOURCE: paper/feeds.py:471-480 -/
def MarketFeed.dropExpired (now : K) (s : MarketFeed K) : MarketFeed K :=
  (s.markets.entries.map Prod.fst).foldl (MarketFeed.dropIfExpired (now - 300)) s

/-! ## The subscriptions -/

/-- The CLOB task: it sleeps, it connects with the tokens it has looked up, or it is connected; then
it has its known tokens, and its loop for new ones runs unless it has raised.
SOURCE: paper/feeds.py:131-195 -/
inductive ClobLink where
  | idle
  | connecting (tokens : List String)
  | connected (knownTokens : List String) (diffLoop : Bool)
deriving DecidableEq

structure FeedSystem (K : Type) where
  feed : MarketFeed K
  link : ClobLink

/-- An answer about the markets of some families comes in, expired markets are dropped; the CLOB
task looks up the tokens, is connected, wakes its loop for new tokens (which may fail to send),
gets a message, or is disconnected. -/
inductive MarketFeedLabel (K : Type) where
  | list (families : List String) (now : K) (events : List GammaMarket)
  | dropExpired (now : K)
  | dial
  | connect
  | diff (sent : Bool)
  | message (events : List (ClobEvent K))
  | disconnect

/-- A new connection, and the tokens of a message that subscribes. -/
inductive FeedNote where
  | connected
  | subscribed (tokens : List String)

/-- The tokens that are mapped. -/
def TokenMaps.tokens (maps : TokenMaps) : List String :=
  maps.tokenToCondition.entries.map Prod.fst

/-- SOURCE: paper/feeds.py:131-195, 293-480 -/
def FeedSystem.step (s : FeedSystem K) : MarketFeedLabel K → FeedSystem K × List FeedNote
  | .list families now events =>
    ({ s with feed := events.foldl (MarketFeed.list families now) s.feed }, [])
  | .dropExpired now => ({ s with feed := s.feed.dropExpired now }, [])
  | .dial =>
    match s.link with
    | .idle =>
      if s.feed.tokens = [] then (s, []) else ({ s with link := .connecting s.feed.tokens }, [])
    | _ => (s, [])
  | .connect =>
    match s.link with
    | .connecting tokens =>
      ({ s with link := .connected tokens true }, [.connected, .subscribed tokens])
    | _ => (s, [])
  | .diff sent =>
    match s.link with
    | .connected knownTokens true =>
      let new := s.feed.tokens.filter (· ∉ knownTokens)
      if new = [] then (s, [])
      else if sent then
        ({ s with link := .connected (knownTokens ++ new) true }, [.subscribed new])
      else ({ s with link := .connected knownTokens false }, [])
    | _ => (s, [])
  | .message events =>
    match s.link with
    | .connected _ _ =>
      let feed := events.foldl (fun feed ev => applyClobEvent ev feed) s.feed.toClobFeed
      ({ s with feed := { s.feed with toClobFeed := feed } }, [])
    | _ => (s, [])
  | .disconnect => ({ s with link := .idle }, [])

def feedMachine : Machine (FeedSystem K) (MarketFeedLabel K) FeedNote := ⟨FeedSystem.step⟩

end TradingEdge.Program
