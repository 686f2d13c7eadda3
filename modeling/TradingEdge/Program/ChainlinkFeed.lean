import Mathlib.Algebra.Order.Ring.Defs
import TradingEdge.Library.Json
import TradingEdge.Model.Types

/-!
# The Chainlink feed

The paper engine takes the Chainlink price from the messages of a websocket whose layout is not
fixed: it walks through a message and takes the first value above 1000 that stands under one of the
keys a price may have.
-/

set_option autoImplicit false

namespace TradingEdge.Program

open TradingEdge.Library

variable {K : Type} [Ring K] [LinearOrder K]

/-- SOURCE: paper/feeds.py:105 -/
def priceKeys : List String := ["price", "value", "p", "close", "usd", "last", "c"]

/-- `float(value)`, which reads a text by `parse`; `none` is the exception it raises. -/
def floatOf (parse : String → Option K) : Json K → Option K
  | .null => none
  | .bool b => some (if b then 1 else 0)
  | .number x => some x
  | .string s => parse s
  | .array _ => none
  | .object _ => none

/-- What an object has under a key, if it is a price.
SOURCE: paper/feeds.py:110-116 -/
def quoteUnder (parse : String → Option K) (node : Json.Members K) (k : String) : Option K :=
  match node.lookup k with
  | none => none
  | some value =>
    match floatOf parse value with
    | none => none
    | some v => if 1000 < v then some v else none

mutual

/-- SOURCE: paper/feeds.py:107-126 -/
def walk (parse : String → Option K) : Json K → Option K
  | .object node =>
    match priceKeys.findSome? (quoteUnder parse node) with
    | some v => some v
    | none => walkMembers parse node
  | .array node => walkItems parse node
  | .null => none
  | .bool _ => none
  | .number _ => none
  | .string _ => none

/-- SOURCE: paper/feeds.py:117-120 -/
def walkMembers (parse : String → Option K) : List (String × Json K) → Option K
  | [] => none
  | (_, v) :: rest =>
    match walk parse v with
    | some found => if found ≠ 0 then some found else walkMembers parse rest
    | none => walkMembers parse rest

/-- SOURCE: paper/feeds.py:121-125 -/
def walkItems (parse : String → Option K) : List (Json K) → Option K
  | [] => none
  | v :: rest =>
    match walk parse v with
    | some found => if found ≠ 0 then some found else walkItems parse rest
    | none => walkItems parse rest

end

/-- SOURCE: paper/feeds.py:104-128 -/
def extractChainlinkPrice (parse : String → Option K) (data : Json K) : Option K := walk parse data

/-- What the task writes of `FeedState`.
SOURCE: paper/state.py:48-49 -/
structure ChainlinkFeed (K : Type) where
  chainlinkPrice : K
  chainlinkTs : K

/-- SOURCE: paper/state.py:48-49 -/
def ChainlinkFeed.initial : ChainlinkFeed K := ⟨0, 0⟩

/-- What happens to the task: a message, which may not be JSON, or the end of a connection, after
which it connects again. -/
inductive ChainlinkLabel (K : Type) where
  | message (data : Option (Json K)) (now : K)
  | disconnected

/-- SOURCE: paper/feeds.py:51-90 -/
def runChainlinkRtds (parse : String → Option K) (s : ChainlinkFeed K) :
    ChainlinkLabel K → ChainlinkFeed K
  | .message none _ => s
  | .message (some data) now =>
    match extractChainlinkPrice parse data with
    | none => s
    | some price => if price ≠ 0 then ⟨price, now⟩ else s
  | .disconnected => s

end TradingEdge.Program
