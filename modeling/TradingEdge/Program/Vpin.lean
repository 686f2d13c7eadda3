import TradingEdge.Library.WhileLoop
import TradingEdge.Program.AfmlFeatures

/-!
# The VPIN feature

`engine/features/vpin.py`: trades are poured into buckets of a fixed volume, a trade that does
not fit being split over as many buckets as it takes; what the feature measures is how one-sided
the last buckets are.

The inner loop is a while loop over what is left of a trade.  Of a completed bucket the source
keeps its imbalance; the model keeps what it held by side and its fill, and the imbalance is
computed from these (`VpinBucket.imbalance`).
-/

set_option autoImplicit false

namespace TradingEdge.Program

open TradingEdge.Library

/-- A trade: its time, its size in USD, and its side. -/
structure VpinTrade (K : Type) where
  ts : K
  qty : K
  side : String

/-- A completed bucket. -/
structure VpinBucket (K : Type) where
  buy : K
  sell : K
  fill : K

/-- The bucket being filled, and the completed ones.
SOURCE: engine/features/vpin.py:25-28 -/
structure VpinState (K : Type) where
  buyBucket : K
  sellBucket : K
  bucketFill : K
  completed : List (VpinBucket K)

variable {K : Type} [Field K] [LinearOrder K]

/-- How far below the volume a bucket counts as full. -/
def bucketSlack : K := 1 / 1000000000

/-- SOURCE: engine/features/vpin.py:43 -/
def VpinBucket.imbalance (bucketVolume : K) (b : VpinBucket K) : K :=
  |b.buy - b.sell| / bucketVolume

/-- No trade yet.
SOURCE: engine/features/vpin.py:25-28 -/
def VpinState.init : VpinState K := ⟨0, 0, 0, []⟩

/-- SOURCE: engine/features/vpin.py:34 -/
def VpinTrade.IsBuy (t : VpinTrade K) : Prop := t.side.toList.map Char.toUpper = "BUY".toList

instance (t : VpinTrade K) : Decidable t.IsBuy := inferInstanceAs (Decidable (_ = _))

/-- Pour a chunk into the bucket, and close the bucket if that fills it.
SOURCE: engine/features/vpin.py:38-46 -/
def VpinState.pour (bucketVolume : K) (isBuy : Bool) (s : VpinState K) (chunk : K) :
    VpinState K :=
  let buyBucket := if isBuy then s.buyBucket + chunk else s.buyBucket
  let sellBucket := if isBuy then s.sellBucket else s.sellBucket + chunk
  let bucketFill := s.bucketFill + chunk
  if bucketVolume - bucketSlack ≤ bucketFill then
    ⟨0, 0, 0, s.completed ++ [⟨buyBucket, sellBucket, bucketFill⟩]⟩
  else ⟨buyBucket, sellBucket, bucketFill, s.completed⟩

/-- One turn of the inner loop: what is left of the trade goes into the bucket as far as it
has room.
SOURCE: engine/features/vpin.py:35-46 -/
def vpinTurn (bucketVolume : K) (isBuy : Bool) (s : VpinState K × K) : Option (VpinState K × K) :=
  if 0 < s.2 then
    let room := bucketVolume - s.1.bucketFill
    let chunk := min room s.2
    some (s.1.pour bucketVolume isBuy chunk, s.2 - chunk)
  else none

/-- One trade.  `none` says that the bound on the turns of the inner loop was too small.
SOURCE: engine/features/vpin.py:30-46 -/
def vpinTrade (fuel : ℕ) (bucketVolume : K) (s : VpinState K) (t : VpinTrade K) :
    Option (VpinState K) :=
  if t.qty ≤ 0 then some s
  else (whileLoop (vpinTurn bucketVolume t.IsBuy) fuel (s, t.qty)).map Prod.fst

/-- All trades in order.
SOURCE: engine/features/vpin.py:25-46 -/
def vpinBuckets (fuel : ℕ) (trades : List (VpinTrade K)) (bucketVolume : K) :
    Option (VpinState K) :=
  trades.foldlM (vpinTrade fuel bucketVolume) VpinState.init

/-- The mean imbalance of the last buckets.
SOURCE: engine/features/vpin.py:48-51 -/
def VpinState.value (bucketVolume : K) (nBuckets : ℤ) (s : VpinState K) : K :=
  if s.completed = [] then 0
  else mean (sliceFrom (-nBuckets) (s.completed.map (VpinBucket.imbalance bucketVolume)))

/-- SOURCE: engine/features/vpin.py:15-51 -/
def vpin (fuel : ℕ) (trades : List (VpinTrade K)) (bucketVolume : K) (nBuckets : ℤ) : Option K :=
  if bucketVolume ≤ 0 ∨ nBuckets < 1 ∨ trades = [] then some 0
  else (vpinBuckets fuel trades bucketVolume).map (VpinState.value bucketVolume nBuckets)

end TradingEdge.Program
