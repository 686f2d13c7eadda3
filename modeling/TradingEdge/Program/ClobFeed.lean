import TradingEdge.Library.Dict
import TradingEdge.Program.TickRecorder

/-!
# The order-book feed

The handler of the CLOB messages in `paper/feeds.py`.  Of every market the feed keeps the best
bid and ask of its two tokens and their depths, not the book: a `book` event is a full snapshot,
a `price_change` event names levels of one token whose size has changed.
-/

set_option autoImplicit false

namespace TradingEdge.Program

open TradingEdge.Model TradingEdge.Library

/-- Which of the two tokens of a market.
SOURCE: paper/state.py:58-59 -/
inductive TokenSide where
  | yes
  | no
deriving DecidableEq

/-- A value of a message that the code passes to `float`. -/
inductive JsonNumber (K : Type) where
  | missing
  | number (value : K)
  | malformed

/-- `float(d.get(key, default))`; `none` is the exception it raises. -/
def JsonNumber.toFloat {K : Type} (default : Option K) : JsonNumber K → Option K
  | .missing => default
  | .number value => some value
  | .malformed => none

/-- A level of a `book` event. -/
structure RawLevel (K : Type) where
  price : JsonNumber K
  size : JsonNumber K

/-- An entry of a `price_change` event. -/
structure RawChange (K : Type) where
  price : JsonNumber K
  size : JsonNumber K
  side : Option String

/-- A message of the CLOB feed, with the keys the handler reads. -/
structure ClobEvent (K : Type) where
  eventType : Option String
  type : Option String
  assetId : Option String
  market : Option String
  bids : List (RawLevel K)
  asks : List (RawLevel K)
  changes : List (RawChange K)

/-- `a or b` of two texts. -/
def textOr (a b : Option String) : Option String :=
  match a with
  | none => b
  | some text => if text = "" then b else some text

/-- The market and the side of each token the feed knows.  Both maps are always written together.
SOURCE: paper/state.py:56-59; paper/feeds.py:376-379, 464-467, 474-480 -/
structure TokenMaps where
  tokenToCondition : Dict String String
  tokenSide : Dict String TokenSide
  sided : ∀ token, tokenToCondition.get? token ≠ none → tokenSide.get? token ≠ none

/-- What the feed holds: the quotes of each market, and the tokens.
SOURCE: paper/state.py:46-59 -/
structure ClobFeed (K : Type) extends TokenMaps where
  books : Dict String (CLOBBookSnapshot K)

variable {K : Type} [Field K] [LinearOrder K]

/-- A snapshot before the first event.
SOURCE: paper/state.py:24-31 -/
def CLOBBookSnapshot.initial : CLOBBookSnapshot K := ⟨0, 0, 0, 0, 0, 0⟩

/-- The quotes of a token. -/
def CLOBBookSnapshot.quote (book : CLOBBookSnapshot K) : TokenSide → Bool → K
  | .yes, false => book.yesBid
  | .yes, true => book.yesAsk
  | .no, false => book.noBid
  | .no, true => book.noAsk

/-- The market and the side of a token. -/
def TokenMaps.resolve (tokens : TokenMaps) (token : String) : Option (String × TokenSide) :=
  match tokens.tokenToCondition.get? token, tokens.tokenSide.get? token with
  | some condition, some side => if condition = "" then none else some (condition, side)
  | _, _ => none

/-- What the feed has for a market. -/
def ClobFeed.bookOf (feed : ClobFeed K) (market : String) : CLOBBookSnapshot K :=
  (feed.books.get? market).getD .initial

/-- The first positive price in the order asked for; zero if there is none, or if a price is
malformed.
SOURCE: paper/feeds.py:239-248 -/
def best (levels : List (RawLevel K)) (ascending : Bool) : K :=
  match levels.mapM fun level => level.price.toFloat (some 0) with
  | none => 0
  | some prices =>
    let sorted := prices.mergeSort fun a b => if ascending then a ≤ b else b ≤ a
    (sorted.find? fun p => 0 < p).getD 0

/-- SOURCE: paper/feeds.py:251-260 -/
def sumUsd (levels : List (RawLevel K)) : K :=
  levels.foldl (fun total level =>
    match level.price.toFloat (some 0), level.size.toFloat (some 0) with
    | some p, some s => total + p * s
    | _, _ => total) 0

/-- A snapshot replaces the quotes of its token.
SOURCE: paper/feeds.py:206-216 -/
def applySnapshot (side : Option TokenSide) (bids asks : List (RawLevel K))
    (book : CLOBBookSnapshot K) : CLOBBookSnapshot K :=
  match side with
  | some .yes =>
    { book with
      yesBid := best bids false
      yesAsk := best asks true
      depthYes := sumUsd bids + sumUsd asks }
  | some .no =>
    { book with
      noBid := best bids false
      noAsk := best asks true
      depthNo := sumUsd bids + sumUsd asks }
  | none => book

/-- A change sets the quote of its side to its price, whatever its size is.
SOURCE: paper/feeds.py:221-236 -/
def applyChange (side : Option TokenSide) (book : CLOBBookSnapshot K) (ch : RawChange K) :
    CLOBBookSnapshot K :=
  match ch.price.toFloat none with
  | none => book
  | some price =>
    if side = some .yes then
      if ch.side = some "SELL" then { book with yesAsk := price }
      else { book with yesBid := price }
    else if ch.side = some "SELL" then { book with noAsk := price }
    else { book with noBid := price }

/-- SOURCE: paper/feeds.py:198-236 -/
def applyClobEvent (ev : ClobEvent K) (feed : ClobFeed K) : ClobFeed K :=
  let eventType := textOr ev.eventType ev.type
  let token := (textOr (textOr ev.assetId ev.market) (some "")).getD ""
  match feed.tokenToCondition.get? token with
  | none => feed
  | some condition =>
    if condition = "" then feed
    else
      let books := feed.books.setDefault condition .initial
      let book := (books.get? condition).getD .initial
      let side := feed.tokenSide.get? token
      if eventType = some "book" then
        { feed with books := books.set condition (applySnapshot side ev.bids ev.asks book) }
      else if eventType = some "price_change" then
        { feed with books := books.set condition (ev.changes.foldl (applyChange side) book) }
      else { feed with books := books }

end TradingEdge.Program
