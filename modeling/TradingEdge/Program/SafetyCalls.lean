import TradingEdge.Library.Machine
import TradingEdge.Program.MMSafety

/-!
# Calls to the safety guard

The calls of one guard that have to do with cancels and fills, as a machine: `record_cancel`,
`record_fill` and `is_market_killed`, each with its market and the time it is made at.  What can
be seen of it are the breaches it records in its list of alerts and its answers.
-/

set_option autoImplicit false

namespace TradingEdge.Program

open TradingEdge.Library

/-- An entry of the list of alerts, whose kind is always `cancel_fill_breach`.
SOURCE: engine/mm_safety.py:162-170 -/
structure BreachAlert (K : Type) where
  ts : K
  marketSlug : String
  ratio : K
  nBreachesInWindow : ℕ

/-- The methods. -/
inductive GuardMethod where
  | recordCancel
  | recordFill
  | isMarketKilled
deriving DecidableEq

/-- A call. -/
structure GuardCall (K : Type) where
  method : GuardMethod
  slug : String
  now : K

/-- What a call lets see. -/
inductive GuardEvent (K : Type) where
  | breach (alert : BreachAlert K)
  | answer (killed : Bool)

/-- The state of a market, or the one it is given at its first record.
SOURCE: engine/mm_safety.py:120, 127 -/
def MMSafetyGuard.market {K : Type} (g : MMSafetyGuard K) (slug : String) : MarketMMState K :=
  (g.marketState.get? slug).getD MarketMMState.init

variable {K : Type} [Field K] [LinearOrder K]

/-- A cancel is filed and what is out of date is dropped.
SOURCE: engine/mm_safety.py:121-122 -/
def MarketMMState.fileCancel (params : MMSafetyParams K) (st : MarketMMState K) (now : K) :
    MarketMMState K :=
  { st with cancels := st.cancels ++ [now] }.gcWindow params now

/-- SOURCE: engine/mm_safety.py:128-129 -/
def MarketMMState.fileFill (params : MMSafetyParams K) (st : MarketMMState K) (now : K) :
    MarketMMState K :=
  { st with fills := st.fills ++ [now] }.gcWindow params now

/-- Cancels over fills, of which at least one is counted.
SOURCE: engine/mm_safety.py:152-153 -/
def MarketMMState.cancelFillRatio (st : MarketMMState K) : K :=
  (st.cancels.length : K) / (max 1 st.fills.length : ℕ)

/-- The alert that the check for a breach appends, if it does.
SOURCE: engine/mm_safety.py:151-170 -/
def MarketMMState.breachAlert (params : MMSafetyParams K) (slug : String) (st : MarketMMState K)
    (now : K) : Option (BreachAlert K) :=
  if st.cancelFillRatio ≤ params.cancelFillRatioMax then none
  else if (st.breachEvents.getLast?).any fun last => now - last < 60 then none
  else some {
    ts := now
    marketSlug := slug
    ratio := st.cancelFillRatio
    nBreachesInWindow := (st.breachEvents ++ [now]).length }

/-- One call.
SOURCE: engine/mm_safety.py:118-139 -/
def guardMachine (params : MMSafetyParams K) :
    Machine (MMSafetyGuard K) (GuardCall K) (GuardEvent K) :=
  ⟨fun g c =>
    match c.method with
    | .recordCancel =>
      (g.recordCancel params c.slug c.now,
        (((g.market c.slug).fileCancel params c.now).breachAlert params c.slug c.now).toList.map
          .breach)
    | .recordFill => (g.recordFill params c.slug c.now, [])
    | .isMarketKilled =>
      ((g.isMarketKilled c.slug c.now).2, [.answer (g.isMarketKilled c.slug c.now).1])⟩

section Market

variable (params : MMSafetyParams K) (g : MMSafetyGuard K) (slug slug' : String) (now : K)

/-- The check leaves the state as it is, or files the breach and sets the timer.
SOURCE: engine/mm_safety.py:151-174 -/
theorem MarketMMState.maybeBreach_eq (st : MarketMMState K) :
    st.maybeBreach params now =
      match st.breachAlert params slug now with
      | none => st
      | some alert =>
        { st with
          breachEvents := st.breachEvents ++ [now]
          killedUntil :=
            if params.cancelFillKillThreshold ≤ alert.nBreachesInWindow ∧
                params.autoKillOnBreach then
              some (now + (params.cancelFillResumeMin : K) * 60)
            else st.killedUntil } := by
  unfold maybeBreach breachAlert cancelFillRatio
  dsimp only
  by_cases hratio : (st.cancels.length : K) / (max 1 st.fills.length : ℕ) ≤
      params.cancelFillRatioMax
  · rw [if_pos hratio, if_pos hratio]
  · rw [if_neg hratio, if_neg hratio]
    by_cases hlast : (st.breachEvents.getLast?).any fun last => now - last < 60
    · rw [if_pos hlast, if_pos hlast]
    · rw [if_neg hlast, if_neg hlast]

/-- The check touches neither the cancels nor the fills. -/
theorem MarketMMState.maybeBreach_cancels_fills (st : MarketMMState K) :
    (st.maybeBreach params now).cancels = st.cancels ∧
      (st.maybeBreach params now).fills = st.fills := by
  rw [maybeBreach_eq params ""]
  split
  · exact ⟨rfl, rfl⟩
  · exact ⟨rfl, rfl⟩

/-- What the records and the query do to a market.
SOURCE: engine/mm_safety.py:118-139 -/
theorem MMSafetyGuard.market_recordCancel :
    (g.recordCancel params slug now).market slug' =
      if slug' = slug then ((g.market slug).fileCancel params now).maybeBreach params now
      else g.market slug' := by
  rw [market, recordCancel, Dict.get?_set]
  split
  · rfl
  · rfl

/-- A fill is filed with its market only. -/
theorem MMSafetyGuard.market_recordFill :
    (g.recordFill params slug now).market slug' =
      if slug' = slug then (g.market slug).fileFill params now else g.market slug' := by
  rw [market, recordFill, Dict.get?_set]
  split
  · rfl
  · rfl

omit [Field K] in
/-- A market is reported killed while its timer runs.
SOURCE: engine/mm_safety.py:131-139 -/
theorem MMSafetyGuard.isMarketKilled_fst :
    (g.isMarketKilled slug now).1 = true ↔ ∃ k ∈ (g.market slug).killedUntil, now < k := by
  unfold isMarketKilled market
  cases g.marketState.get? slug with
  | none => simp [MarketMMState.init]
  | some st =>
    cases hkilled : st.killedUntil with
    | none => simp [hkilled]
    | some k =>
      by_cases hk : k ≤ now
      · simp [hkilled, hk]
      · simp [hkilled, hk, not_le.mp hk]

omit [Field K] in
/-- The query takes a timer back that has run out, and that is all.
SOURCE: engine/mm_safety.py:131-139 -/
theorem MMSafetyGuard.market_isMarketKilled :
    (g.isMarketKilled slug now).2.market slug' = g.market slug' ∨
      slug' = slug ∧ (∃ k ∈ (g.market slug).killedUntil, k ≤ now) ∧
        (g.isMarketKilled slug now).2.market slug' =
          { g.market slug with killedUntil := none } := by
  unfold isMarketKilled market
  cases hget : g.marketState.get? slug with
  | none => exact Or.inl rfl
  | some st =>
    dsimp only
    cases hkilled : st.killedUntil with
    | none => exact Or.inl rfl
    | some k =>
      dsimp only
      by_cases hk : k ≤ now
      · rw [if_pos hk, Dict.get?_set]
        by_cases hslug : slug' = slug
        · refine Or.inr ⟨hslug, ⟨k, by simp [hkilled], hk⟩, ?_⟩
          rw [if_pos hslug]
          rfl
        · rw [if_neg hslug]
          exact Or.inl rfl
      · rw [if_neg hk]
        exact Or.inl rfl

/-- A call is about one market. -/
theorem market_next_of_ne (c : GuardCall K) (h : slug ≠ c.slug) :
    ((guardMachine params).next g c).market slug = g.market slug := by
  unfold guardMachine Machine.next
  dsimp only
  cases c.method with
  | recordCancel => rw [g.market_recordCancel params c.slug slug c.now, if_neg h]
  | recordFill => rw [g.market_recordFill params c.slug slug c.now, if_neg h]
  | isMarketKilled =>
    rcases g.market_isMarketKilled c.slug slug c.now with hsame | ⟨heq, -⟩
    · exact hsame
    · exact absurd heq h

/-- A cancel is filed, and may breach. -/
theorem market_next_recordCancel (c : GuardCall K) (h : c.method = .recordCancel) :
    ((guardMachine params).next g c).market c.slug =
      ((g.market c.slug).fileCancel params c.now).maybeBreach params c.now := by
  unfold guardMachine Machine.next
  dsimp only
  rw [h]
  exact (g.market_recordCancel params c.slug c.slug c.now).trans (if_pos rfl)

/-- A fill is filed. -/
theorem market_next_recordFill (c : GuardCall K) (h : c.method = .recordFill) :
    ((guardMachine params).next g c).market c.slug =
      (g.market c.slug).fileFill params c.now := by
  unfold guardMachine Machine.next
  dsimp only
  rw [h]
  exact (g.market_recordFill params c.slug c.slug c.now).trans (if_pos rfl)

/-- A question emits its answer. -/
theorem next_isMarketKilled (c : GuardCall K) (h : c.method = .isMarketKilled) :
    (guardMachine params).next g c = (g.isMarketKilled c.slug c.now).2 ∧
      (guardMachine params).emits g c = [.answer (g.isMarketKilled c.slug c.now).1] := by
  unfold guardMachine Machine.next Machine.emits
  dsimp only
  rw [h]
  exact ⟨rfl, rfl⟩

/-- A cancel emits a breach, if it is one. -/
theorem emits_recordCancel (c : GuardCall K) (h : c.method = .recordCancel) :
    (guardMachine params).emits g c =
      (((g.market c.slug).fileCancel params c.now).breachAlert params c.slug c.now).toList.map
        .breach := by
  unfold guardMachine Machine.emits
  dsimp only
  rw [h]

end Market

end TradingEdge.Program
