import Mathlib.Algebra.Field.Defs
import Mathlib.Algebra.BigOperators.Group.List.Defs
import Mathlib.Data.Int.Cast.Basic
import TradingEdge.Model.Types

/-!
# The taker fee canary

The canary methods of `MMSafetyGuard` (`engine/mm_safety.py`), which nothing outside the tests
calls: two deques of amounts with their times, cut together at every record, and their ratio.
-/

set_option autoImplicit false

namespace TradingEdge.Program

open TradingEdge.Model

/-- SOURCE: engine/mm_safety.py:48-49 -/
structure CanaryParams (K : Type) where
  takerFeeCanaryPct : K
  takerFeeCanaryWindowDays : ℤ

/-- The deques of times and dollars, the oldest first.
SOURCE: engine/mm_safety.py:77-79 -/
structure TakerFeeCanary (K : Type) where
  takerFeePaidUsdc : List (K × K)
  pnlGrossUsdc : List (K × K)

/-- The deques of a new guard. -/
def TakerFeeCanary.init {K : Type} : TakerFeeCanary K := ⟨[], []⟩

/-- The recording methods. -/
inductive CanaryMethod where
  | takerFeePaid
  | pnlGross
deriving DecidableEq

/-- A call. -/
structure CanaryCall (K : Type) where
  method : CanaryMethod
  usdc : K
  now : K
deriving DecidableEq

variable {K : Type} [Field K] [LinearOrder K]

/-- How long a record counts, in seconds. -/
def CanaryParams.span (params : CanaryParams K) : K :=
  (params.takerFeeCanaryWindowDays : K) * 86400

/-- SOURCE: engine/mm_safety.py:188-193 -/
def TakerFeeCanary.gcCanary (params : CanaryParams K) (g : TakerFeeCanary K) (now : K) :
    TakerFeeCanary K :=
  let cutoff := now - params.span
  { takerFeePaidUsdc := g.takerFeePaidUsdc.dropWhile fun e => e.1 < cutoff
    pnlGrossUsdc := g.pnlGrossUsdc.dropWhile fun e => e.1 < cutoff }

/-- SOURCE: engine/mm_safety.py:178-181 -/
def TakerFeeCanary.recordTakerFeePaid (params : CanaryParams K) (g : TakerFeeCanary K)
    (usdc now : K) : TakerFeeCanary K :=
  { g with takerFeePaidUsdc := g.takerFeePaidUsdc ++ [(now, usdc)] }.gcCanary params now

/-- SOURCE: engine/mm_safety.py:183-186 -/
def TakerFeeCanary.recordPnlGross (params : CanaryParams K) (g : TakerFeeCanary K)
    (usdc now : K) : TakerFeeCanary K :=
  { g with pnlGrossUsdc := g.pnlGrossUsdc ++ [(now, usdc)] }.gcCanary params now

/-- SOURCE: engine/mm_safety.py:195-200 -/
def TakerFeeCanary.canaryRatio (g : TakerFeeCanary K) : K :=
  let fee := (g.takerFeePaidUsdc.map Prod.snd).sum
  let gross := (g.pnlGrossUsdc.map Prod.snd).sum
  if gross ≤ 0 then 0 else fee / gross

/-- SOURCE: engine/mm_safety.py:202-203 -/
def TakerFeeCanary.canaryBreached (params : CanaryParams K) (g : TakerFeeCanary K) : Bool :=
  params.takerFeeCanaryPct < g.canaryRatio

/-- One call. -/
def TakerFeeCanary.record (params : CanaryParams K) (g : TakerFeeCanary K) (c : CanaryCall K) :
    TakerFeeCanary K :=
  match c.method with
  | .takerFeePaid => g.recordTakerFeePaid params c.usdc c.now
  | .pnlGross => g.recordPnlGross params c.usdc c.now

/-- The guard after a sequence of calls. -/
def canaryAfter (params : CanaryParams K) (calls : List (CanaryCall K)) : TakerFeeCanary K :=
  calls.foldl (TakerFeeCanary.record params) TakerFeeCanary.init

end TradingEdge.Program
