import Mathlib.Algebra.Order.Ring.Defs
import TradingEdge.Library.Buffer
import TradingEdge.Library.Custody
import TradingEdge.Program.RiskManager
import TradingEdge.Program.TickMessage

/-!
# Runs of the risk manager

What the manager promises over a sequence of calls with times in order.

* Once a close has brought the daily pnl to the loss limit, no entry passes for the rest of the
  day.  The breaker that would see to it is only tripped by a `can_enter` that comes to the loss
  limit, so closes before that can bring the pnl back (`latched_iff`).
* A cooldown and a rolling-loss pause hold for their full time, and the rolling loss is summed
  over its full window.  The day roll ends all three at midnight (`periods_kept_iff`).

Within a day the calls act on one state (`sameDay_run`); the first call of another day starts
from a fresh one (`rollDay_of_later_day`).
-/

set_option autoImplicit false

namespace TradingEdge.Analysis

open TradingEdge.Model TradingEdge.Program TradingEdge.Library

variable {K : Type} [Field K] [LinearOrder K]

/-- The calls come with times in order. -/
def CallsInOrder (calls : List (RiskCall K)) : Prop := (calls.map RiskCall.time).Pairwise (· ≤ ·)

instance (calls : List (RiskCall K)) : Decidable (CallsInOrder calls) :=
  inferInstanceAs (Decidable (List.Pairwise _ _))

/-- The trade that a call closes. -/
def closeOf : RiskCall K → List (K × K)
  | .onTradeClosed pnl now => [(now, pnl)]
  | .canEnter _ => []

/-- The pnl of the trades that some calls close. -/
def closedPnl (calls : List (RiskCall K)) : K := ((calls.flatMap closeOf).map Prod.snd).sum

omit [Field K] in
/-- Between two calls of a run, the times are between theirs. -/
theorem CallsInOrder.between {pre mid post : List (RiskCall K)} {a b : RiskCall K}
    (h : CallsInOrder (pre ++ a :: (mid ++ b :: post))) :
    a.time ≤ b.time ∧ ∀ c ∈ mid, a.time ≤ c.time ∧ c.time ≤ b.time := by
  unfold CallsInOrder at h
  rw [List.map_append, List.map_cons, List.map_append, List.map_cons, List.pairwise_append,
    List.pairwise_cons, List.pairwise_append, List.pairwise_cons] at h
  obtain ⟨-, ⟨ha, -, -, hmid⟩, -⟩ := h
  have hmem : ∀ c ∈ mid, c.time ∈ mid.map RiskCall.time := fun c hc => List.mem_map.mpr ⟨c, hc, rfl⟩
  refine ⟨ha _ (by simp), fun c hc => ⟨?_, ?_⟩⟩
  · exact ha _ (List.mem_append_left _ (hmem c hc))
  · exact hmid _ (hmem c hc) _ (List.mem_cons_self)

variable [FloorRing K]

/-! ## Within a day -/

section Day

variable (cfg : RiskConfig K)

/-- A `can_enter` that trips the breaker. -/
def TripsCall (s : RiskState K) (c : RiskCall K) : Prop := ∃ ctx, c = .canEnter ctx ∧ Trips cfg s ctx

/-- One call of the day of the state. -/
theorem sameDay_step (s : RiskState K) (c : RiskCall K) (h : utcDay c.time = s.dayKey) :
    ((riskMachine cfg).next s c).dailyPnl = s.dailyPnl + closedPnl [c] ∧
      (((riskMachine cfg).next s c).circuitBreakerTripped = true ↔
        s.circuitBreakerTripped = true ∨ TripsCall cfg s c) := by
  cases c with
  | canEnter ctx =>
    have hroll : s.rollDay ctx.ts = s := rollDay_of_eq s ctx.ts h
    have htrips : TripsCall cfg s (.canEnter ctx) ↔ Trips cfg s ctx := by
      constructor
      · rintro ⟨ctx', ⟨⟩, htrips⟩
        exact htrips
      · exact fun htrips => ⟨ctx, rfl, htrips⟩
    have hpnl : closedPnl [RiskCall.canEnter ctx] = 0 := rfl
    rw [riskMachine_next_canEnter, canEnter_state, hroll, htrips, hpnl, add_zero]
    split
    · rename_i hyes
      exact ⟨rfl, fun _ => Or.inr hyes, fun _ => rfl⟩
    · rename_i hno
      exact ⟨rfl, fun hold => Or.inl hold, fun hor => hor.resolve_right hno⟩
  | onTradeClosed pnl now =>
    have hroll : s.rollDay now = s := rollDay_of_eq s now h
    have hpnl : closedPnl [RiskCall.onTradeClosed pnl now] = pnl := by
      simp [closedPnl, closeOf]
    rw [riskMachine_next_closed, onTradeClosed_eq, hroll, hpnl]
    refine ⟨rfl, fun hold => Or.inl hold, ?_⟩
    rintro (hold | ⟨ctx, hcall, -⟩)
    · exact hold
    · cases hcall

/-- **The calls of a day add up on one state.** -/
theorem sameDay_run (s : RiskState K) (calls : List (RiskCall K))
    (hday : ∀ c ∈ calls, utcDay c.time = s.dayKey) :
    ((riskMachine cfg).final s calls).dayKey = s.dayKey ∧
      ((riskMachine cfg).final s calls).dailyPnl = s.dailyPnl + closedPnl calls ∧
      (((riskMachine cfg).final s calls).circuitBreakerTripped = true ↔
        s.circuitBreakerTripped = true ∨ (riskMachine cfg).Sometime (TripsCall cfg) s calls) := by
  induction calls using List.reverseRecOn with
  | nil =>
    have hno := (riskMachine cfg).not_sometime_nil (TripsCall cfg) s
    refine ⟨rfl, (add_zero _).symm, ?_⟩
    rw [Machine.final_nil]
    exact (or_iff_left hno).symm
  | append_singleton calls c ih =>
    have hc := hday c (by simp)
    obtain ⟨hkey, hpnl, htripped⟩ := ih fun c' hc' => hday c' (List.mem_append_left _ hc')
    obtain ⟨hpnlStep, htrippedStep⟩ := sameDay_step cfg ((riskMachine cfg).final s calls) c
      (hc.trans hkey.symm)
    have hsum : closedPnl (calls ++ [c]) = closedPnl calls + closedPnl [c] := by
      simp [closedPnl]
    rw [Machine.final_concat, Machine.sometime_concat_iff, hpnlStep, htrippedStep, hpnl, htripped,
      hsum, riskMachine_next_dayKey, hc]
    exact ⟨rfl, add_assoc _ _ _, or_assoc⟩

end Day

/-! ## The circuit breaker -/

section Latch

variable (cfg : RiskConfig K)

/-- Once a close of a day has brought the daily pnl to the loss limit, every later `can_enter` of
that day refuses. -/
def Latched (calls : List (RiskCall K)) : Prop :=
  ∀ pre pnl now mid ctx post,
    calls = pre ++ .onTradeClosed pnl now :: (mid ++ .canEnter ctx :: post) →
    ((riskMachine cfg).final RiskState.init (pre ++ [.onTradeClosed pnl now])).dailyPnl ≤
      -cfg.dailyLossLimit →
    utcDay ctx.ts = utcDay now →
    (canEnter cfg ((riskMachine cfg).final RiskState.init
      (pre ++ .onTradeClosed pnl now :: mid)) ctx).1 ≠ none

/-- If the trades closed since bring the pnl back above the limit before any `can_enter` has
tripped the breaker, a gate that does not look at the pnl refuses. -/
def RecoveryRefused (calls : List (RiskCall K)) : Prop :=
  ∀ pre pnl now mid ctx post,
    calls = pre ++ .onTradeClosed pnl now :: (mid ++ .canEnter ctx :: post) →
    ((riskMachine cfg).final RiskState.init (pre ++ [.onTradeClosed pnl now])).dailyPnl ≤
      -cfg.dailyLossLimit →
    utcDay ctx.ts = utcDay now →
    ((riskMachine cfg).final RiskState.init
      (pre ++ [.onTradeClosed pnl now])).circuitBreakerTripped = false →
    ¬(riskMachine cfg).Sometime (TripsCall cfg)
      ((riskMachine cfg).final RiskState.init (pre ++ [.onTradeClosed pnl now])) mid →
    -cfg.dailyLossLimit <
      ((riskMachine cfg).final RiskState.init (pre ++ [.onTradeClosed pnl now])).dailyPnl +
        closedPnl mid →
    EarlierGate cfg ((riskMachine cfg).final RiskState.init
      (pre ++ .onTradeClosed pnl now :: mid)) ctx.ts ∨ MarketRefuses cfg ctx

/-- A later `can_enter` of the day refuses for the breaker, for the limit, or for a gate that does
not look at the pnl. -/
theorem canEnter_after_close [IsStrictOrderedRing K] (pre mid post : List (RiskCall K))
    (pnl now : K) (ctx : TickContext K)
    (horder : CallsInOrder (pre ++ .onTradeClosed pnl now :: (mid ++ .canEnter ctx :: post)))
    (hday : utcDay ctx.ts = utcDay now) (s : RiskState K)
    (hs : s = (riskMachine cfg).final RiskState.init (pre ++ [.onTradeClosed pnl now])) :
    (canEnter cfg ((riskMachine cfg).final RiskState.init
        (pre ++ .onTradeClosed pnl now :: mid)) ctx).1 ≠ none ↔
      (s.circuitBreakerTripped = true ∨ (riskMachine cfg).Sometime (TripsCall cfg) s mid) ∨
        EarlierGate cfg ((riskMachine cfg).final RiskState.init
          (pre ++ .onTradeClosed pnl now :: mid)) ctx.ts ∨
        s.dailyPnl + closedPnl mid ≤ -cfg.dailyLossLimit ∨ MarketRefuses cfg ctx := by
  obtain ⟨-, hbetween⟩ := horder.between
  have hkey : s.dayKey = utcDay now := by
    rw [hs, Machine.final_concat, riskMachine_next_dayKey]
    rfl
  have hmid : ∀ c ∈ mid, utcDay c.time = s.dayKey := by
    intro c hc
    obtain ⟨hlow, hhigh⟩ := hbetween c hc
    apply le_antisymm
    · rw [hkey, ← hday]
      exact utcDay_mono hhigh
    · rw [hkey]
      exact utcDay_mono hlow
  have hfinal : (riskMachine cfg).final RiskState.init (pre ++ .onTradeClosed pnl now :: mid) =
      (riskMachine cfg).final s mid := by
    rw [hs, ← Machine.final_append, List.append_assoc, List.singleton_append]
  obtain ⟨hdayKey, hpnl, htripped⟩ := sameDay_run cfg s mid hmid
  rw [hfinal, canEnter_refuses_iff, rollDay_of_eq _ _ (by rw [hdayKey, hkey, hday]), hpnl,
    htripped]

/-- **The circuit breaker.** Over every sequence of calls with times in order, the loss limit
latches exactly when, whenever closes bring the pnl back above it before the breaker has tripped,
another gate refuses.
SOURCE: engine/risk.py:47-93 -/
theorem latched_iff [IsStrictOrderedRing K] (calls : List (RiskCall K)) (horder : CallsInOrder calls) :
    Latched cfg calls ↔ RecoveryRefused cfg calls := by
  constructor
  · intro hlatched pre pnl now mid ctx post heq hhit hday htripped hnever habove
    have hrefuses := hlatched pre pnl now mid ctx post heq hhit hday
    rw [canEnter_after_close cfg pre mid post pnl now ctx (heq ▸ horder) hday _ rfl] at hrefuses
    rcases hrefuses with (htrip | htrip) | hgate | hlimit | hmarket
    · rw [htripped] at htrip
      cases htrip
    · exact absurd htrip hnever
    · exact Or.inl hgate
    · exact absurd hlimit (not_le.mpr habove)
    · exact Or.inr hmarket
  · intro hrecovery pre pnl now mid ctx post heq hhit hday
    rw [canEnter_after_close cfg pre mid post pnl now ctx (heq ▸ horder) hday _ rfl]
    by_contra hpasses
    push Not at hpasses
    obtain ⟨⟨htripped, hnever⟩, hgate, habove, hmarket⟩ := hpasses
    rcases hrecovery pre pnl now mid ctx post heq hhit hday (by simpa using htripped) hnever habove
      with hearlier | hrefuses
    · exact hgate hearlier
    · exact hmarket hrefuses

omit [Field K] [LinearOrder K] [FloorRing K] in
/-- Two calls in a row have nothing around them. -/
theorem eq_nil_of_pair {a b a' b' : RiskCall K} {pre mid post : List (RiskCall K)}
    (h : [a, b] = pre ++ a' :: (mid ++ b' :: post)) :
    pre = [] ∧ mid = [] ∧ post = [] ∧ a = a' ∧ b = b' := by
  have hlength := congrArg List.length h
  simp only [List.length_cons, List.length_nil, List.length_append] at hlength
  have hpre : pre = [] := List.eq_nil_of_length_eq_zero (by omega)
  have hmid : mid = [] := List.eq_nil_of_length_eq_zero (by omega)
  have hpost : post = [] := List.eq_nil_of_length_eq_zero (by omega)
  subst hpre hmid hpost
  simpa using h

/-- A daily limit of 50 USD, a cooldown of a minute, and a pause of half an hour after a loss of
20 USD within half an hour. -/
def fiftyADay : RiskConfig ℚ :=
  { RiskConfig.permissive with
    cooldownSeconds := 60
    dailyLossLimit := 50
    lossPauseThreshold := 20
    lossPauseWindowS := 1800
    lossPauseDurationS := 1800 }

/-- A tick at a time that the thresholds on the market let pass. -/
def plainTick (ts : ℚ) : TickContext ℚ :=
  tickFromDict { ts := ts, windowCloseTs := ts + 100, marketSlug := "btc-updown-5m-1200" }

/-- After a loss over the limit the day stays closed. -/
theorem latched_after_loss :
    Latched fiftyADay [.onTradeClosed (-60) 1000, .canEnter (plainTick 5000)] := by
  apply (latched_iff fiftyADay _ (by decide +kernel)).mpr
  intro pre pnl now mid ctx post heq hhit hday htripped hnever habove
  obtain ⟨rfl, rfl, rfl, hclose, -⟩ := eq_nil_of_pair heq
  cases hclose
  exact absurd habove (by decide +kernel)

/-- A loss of 60 USD and a win of 30 half a minute later, before any tick: the daily pnl is above
the limit again when the next tick comes, and the breaker has never tripped.
SOURCE: engine/risk.py:52-93 -/
theorem enters_after_recovery :
    ¬∀ (cfg : RiskConfig ℚ) (calls : List (RiskCall ℚ)), CallsInOrder calls →
      Latched cfg calls := by
  intro h
  have hlatched := h fiftyADay [.onTradeClosed (-60) 1000, .onTradeClosed 30 1030,
    .canEnter (plainTick 5000)] (by decide +kernel)
  apply hlatched [] (-60) 1000 [.onTradeClosed 30 1030] (plainTick 5000) [] rfl (by decide +kernel)
    (by decide +kernel)
  exact Option.isNone_iff_eq_none.mp (by decide +kernel)

end Latch

/-! ## Across midnight -/

section Midnight

variable (cfg : RiskConfig K) [IsStrictOrderedRing K]

/-- The calls of a day. -/
def callsOn (day : ℤ) (calls : List (RiskCall K)) : List (RiskCall K) :=
  calls.filter fun c => utcDay c.time = day

/-- **A day starts from a fresh state.** After calls in order, the state for a call of a day that
is not the day of an earlier call `a` comes from the calls of that day since `a` alone. -/
theorem rollDay_of_later_day (s : RiskState K) (calls : List (RiskCall K)) (now : K)
    (hkey : s.dayKey < utcDay now)
    (horder : (calls.map RiskCall.time).Pairwise (· ≤ ·))
    (hbounds : ∀ c ∈ calls, s.dayKey ≤ utcDay c.time ∧ utcDay c.time ≤ utcDay now) :
    ((riskMachine cfg).final s calls).rollDay now =
      (riskMachine cfg).final (RiskState.fresh (utcDay now)) (callsOn (utcDay now) calls) := by
  induction calls generalizing s with
  | nil => exact rollDay_of_ne s now hkey.ne'
  | cons c calls ih =>
    rw [List.map_cons, List.pairwise_cons] at horder
    obtain ⟨hfirst, horder⟩ := horder
    obtain ⟨⟨hlow, hhigh⟩, hrest⟩ := List.forall_mem_cons.mp hbounds
    have hlater : ∀ c' ∈ calls, utcDay c.time ≤ utcDay c'.time := fun c' hc' =>
      utcDay_mono (hfirst _ (List.mem_map.mpr ⟨c', hc', rfl⟩))
    have hkey' := riskMachine_next_dayKey cfg s c
    rw [Machine.final_cons]
    rcases hhigh.lt_or_eq with hbefore | hon
    · -- the call belongs to an earlier day than the one we look at
      have hskip : callsOn (utcDay now) (c :: calls) = callsOn (utcDay now) calls :=
        List.filter_cons_of_neg (by simpa using hbefore.ne)
      rw [hskip]
      apply ih
      · rw [hkey']
        exact hbefore
      · exact horder
      · intro c' hc'
        rw [hkey']
        exact ⟨hlater c' hc', (hrest c' hc').2⟩
    · -- the first call of the day: it starts the day, and all that follow belong to it
      have hall : ∀ c' ∈ c :: calls, utcDay c'.time = utcDay now := by
        intro c' hc'
        rcases List.mem_cons.mp hc' with rfl | hc'
        · exact hon
        · exact le_antisymm (hrest c' hc').2 (hon ▸ hlater c' hc')
      have hcalls : callsOn (utcDay now) (c :: calls) = c :: calls :=
        List.filter_eq_self.mpr fun c' hc' => by simpa using hall c' hc'
      have hroll : s.rollDay c.time = RiskState.fresh (utcDay now) := by
        rw [rollDay_of_ne s c.time (by rw [hon]; exact hkey.ne'), hon]
      rw [hcalls, Machine.final_cons, riskMachine_next_rollDay, hroll]
      obtain ⟨hdayKey, -⟩ := sameDay_run cfg
        ((riskMachine cfg).next (RiskState.fresh (utcDay now)) c) calls fun c' hc' => by
          rw [riskMachine_next_dayKey, hon]
          exact hall c' (List.mem_cons_of_mem _ hc')
      apply rollDay_of_eq
      rw [hdayKey, riskMachine_next_dayKey, hon]

/-- Within the day a running cooldown and pause are not cut short. -/
theorem periods_sameDay (s : RiskState K) (calls : List (RiskCall K)) (t : K)
    (hday : ∀ c ∈ calls, utcDay c.time = s.dayKey) (htimes : ∀ c ∈ calls, t ≤ c.time) :
    (t + cfg.cooldownSeconds ≤ s.cooldownUntil →
      t + cfg.cooldownSeconds ≤ ((riskMachine cfg).final s calls).cooldownUntil) ∧
    (t + cfg.lossPauseDurationS ≤ s.pauseUntil →
      t + cfg.lossPauseDurationS ≤ ((riskMachine cfg).final s calls).pauseUntil) := by
  induction calls generalizing s with
  | nil => exact ⟨id, id⟩
  | cons c calls ih =>
    obtain ⟨hc, hdayRest⟩ := List.forall_mem_cons.mp hday
    obtain ⟨ht, htimesRest⟩ := List.forall_mem_cons.mp htimes
    have hkey : ((riskMachine cfg).next s c).dayKey = s.dayKey :=
      (riskMachine_next_dayKey cfg s c).trans hc
    obtain ⟨hcooldown, hpause⟩ := ih ((riskMachine cfg).next s c)
      (fun c' hc' => (hdayRest c' hc').trans hkey.symm) htimesRest
    rw [Machine.final_cons]
    cases c with
    | canEnter ctx =>
      have hroll : s.rollDay ctx.ts = s := rollDay_of_eq s ctx.ts hc
      have hstate := canEnter_timers cfg s ctx
      rw [hroll] at hstate
      rw [riskMachine_next_canEnter] at hcooldown hpause ⊢
      rw [hstate.1] at hcooldown
      rw [hstate.2] at hpause
      exact ⟨hcooldown, hpause⟩
    | onTradeClosed pnl now =>
      have hroll : s.rollDay now = s := rollDay_of_eq s now hc
      have hnow : t ≤ now := ht
      rw [riskMachine_next_closed] at hcooldown hpause ⊢
      refine ⟨fun _ => hcooldown ?_, fun hs => hpause ?_⟩
      · rw [onTradeClosed_eq]
        exact add_le_add_left hnow _
      · rw [onTradeClosed_eq, hroll]
        dsimp only
        split
        · exact add_le_add_left hnow _
        · exact hs

/-- A closed trade that starts the rolling-loss pause. -/
def isPause : RiskEvent K → Bool
  | .closed _ _ pauses => pauses
  | .answered _ => false

/-- The trade of an event. -/
def tradeOf : RiskEvent K → List (K × K)
  | .closed pnl now _ => [(now, pnl)]
  | .answered _ => []

/-- The trades closed since the last pause was started. -/
def tradesSincePause (calls : List (RiskCall K)) : List (K × K) :=
  (sinceLast isPause ((riskMachine cfg).trace RiskState.init calls)).flatMap tradeOf

/-- At `ts` the cooldown or the pause that a close starts is still running. -/
def StillRunning (pre : List (RiskCall K)) (pnl now ts : K) : Prop :=
  ts < now + cfg.cooldownSeconds ∨
    Pauses cfg ((riskMachine cfg).final RiskState.init pre) pnl now ∧
      ts < now + cfg.lossPauseDurationS

/-- Cooldown and pause refuse every entry for their full time, and the rolling loss of a close
counts every trade of the window since the last pause. -/
def PeriodsKept (calls : List (RiskCall K)) : Prop :=
  (∀ pre (pnl now : K) mid ctx post,
    calls = pre ++ .onTradeClosed pnl now :: (mid ++ .canEnter ctx :: post) →
    StillRunning cfg pre pnl now ctx.ts →
    (canEnter cfg ((riskMachine cfg).final RiskState.init
      (pre ++ .onTradeClosed pnl now :: mid)) ctx).1 ≠ none) ∧
  ∀ pre (pnl now : K) post, calls = pre ++ .onTradeClosed pnl now :: post →
    0 < cfg.lossPauseThreshold →
    ((windowPnls cfg ((riskMachine cfg).final RiskState.init pre) pnl now).map Prod.snd).sum =
      (((tradesSincePause cfg pre ++ [(now, pnl)]).filter
        fun e => now - cfg.lossPauseWindowS ≤ e.1).map Prod.snd).sum

/-- A gate refuses in the state that the calls of the tick's day alone lead to. -/
def NewDayRefuses (mid : List (RiskCall K)) (ctx : TickContext K) : Prop :=
  ((riskMachine cfg).final (RiskState.fresh (utcDay ctx.ts))
      (callsOn (utcDay ctx.ts) mid)).circuitBreakerTripped = true ∨
    EarlierGate cfg ((riskMachine cfg).final (RiskState.fresh (utcDay ctx.ts))
      (callsOn (utcDay ctx.ts) mid)) ctx.ts ∨
    ((riskMachine cfg).final (RiskState.fresh (utcDay ctx.ts))
      (callsOn (utcDay ctx.ts) mid)).dailyPnl ≤ -cfg.dailyLossLimit ∨
    MarketRefuses cfg ctx

/-- While a period of an earlier day runs, the calls of the new day refuse on their own, and the
trades of earlier days that are still in the window add up to zero. -/
def MidnightHarmless (calls : List (RiskCall K)) : Prop :=
  (∀ pre (pnl now : K) mid ctx post,
    calls = pre ++ .onTradeClosed pnl now :: (mid ++ .canEnter ctx :: post) →
    StillRunning cfg pre pnl now ctx.ts →
    utcDay now < utcDay ctx.ts → NewDayRefuses cfg mid ctx) ∧
  ∀ pre (pnl now : K) post, calls = pre ++ .onTradeClosed pnl now :: post →
    0 < cfg.lossPauseThreshold →
    (((tradesSincePause cfg pre).filter fun e =>
      now - cfg.lossPauseWindowS ≤ e.1 ∧ utcDay e.1 < utcDay now).map Prod.snd).sum = 0

/-! ### The window -/

omit [IsStrictOrderedRing K] in
/-- A question is no trade. -/
theorem tradesSincePause_canEnter (calls : List (RiskCall K)) (ctx : TickContext K) :
    tradesSincePause cfg (calls ++ [.canEnter ctx]) = tradesSincePause cfg calls := by
  unfold tradesSincePause sinceLast
  rw [Machine.trace_concat, riskMachine_emits_canEnter, List.rtakeWhile_concat_pos _ _ _ rfl,
    List.flatMap_append]
  exact List.append_nil _

omit [IsStrictOrderedRing K] in
/-- A trade is one more since the last pause, or the pause itself. -/
theorem tradesSincePause_closed (calls : List (RiskCall K)) (pnl now : K) :
    tradesSincePause cfg (calls ++ [.onTradeClosed pnl now]) =
      if Pauses cfg ((riskMachine cfg).final RiskState.init calls) pnl now then []
      else tradesSincePause cfg calls ++ [(now, pnl)] := by
  unfold tradesSincePause sinceLast
  rw [Machine.trace_concat, riskMachine_emits_closed]
  split
  · rename_i hpause
    rw [List.rtakeWhile_concat_neg _ _ _ (by simp [isPause, hpause])]
    rfl
  · rename_i hpause
    rw [List.rtakeWhile_concat_pos _ _ _ (by simp [isPause, hpause]), List.flatMap_append]
    rfl

omit [IsStrictOrderedRing K] in
/-- The trades since the last pause are trades of the calls, in their order. -/
theorem tradesSincePause_sublist (calls : List (RiskCall K)) :
    (tradesSincePause cfg calls).Sublist (calls.flatMap closeOf) := by
  induction calls using List.reverseRecOn with
  | nil => exact List.Sublist.refl _
  | append_singleton calls c ih =>
    rw [List.flatMap_append]
    cases c with
    | canEnter ctx =>
      rw [tradesSincePause_canEnter]
      exact ih.trans (List.sublist_append_left _ _)
    | onTradeClosed pnl now =>
      rw [tradesSincePause_closed]
      split
      · exact List.nil_sublist _
      · exact ih.append (List.Sublist.refl _)

omit [Field K] [LinearOrder K] [FloorRing K] [IsStrictOrderedRing K] in
/-- Every close is a call at its time. -/
theorem exists_call_of_mem_closes {calls : List (RiskCall K)} {e : K × K}
    (he : e ∈ calls.flatMap closeOf) : ∃ c ∈ calls, c.time = e.1 := by
  obtain ⟨c, hc, hec⟩ := List.mem_flatMap.mp he
  cases c with
  | canEnter ctx => cases hec
  | onTradeClosed pnl now =>
    have he' : e = (now, pnl) := List.mem_singleton.mp hec
    exact ⟨_, hc, by rw [he']; rfl⟩

omit [Field K] [FloorRing K] [IsStrictOrderedRing K] in
/-- Closes in order have their times in order. -/
theorem closes_pairwise {calls : List (RiskCall K)} (horder : CallsInOrder calls) :
    (calls.flatMap closeOf).Pairwise fun a b => a.1 ≤ b.1 := by
  induction calls with
  | nil => exact List.Pairwise.nil
  | cons c calls ih =>
    unfold CallsInOrder at horder
    rw [List.map_cons, List.pairwise_cons] at horder
    obtain ⟨hfirst, hrest⟩ := horder
    cases c with
    | canEnter ctx => exact ih hrest
    | onTradeClosed pnl now =>
      refine List.pairwise_cons.mpr ⟨fun e he => ?_, ih hrest⟩
      obtain ⟨c, hc, htime⟩ := exists_call_of_mem_closes he
      rw [← htime]
      exact hfirst _ (List.mem_map.mpr ⟨c, hc, rfl⟩)

omit [IsStrictOrderedRing K] in
/-- The window of trades in order is what is not older than it. -/
theorem windowPnls_eq (s : RiskState K) (pnl now : K)
    (horder : ((s.rollDay now).recentPnls ++ [(now, pnl)]).Pairwise fun a b => a.1 ≤ b.1) :
    windowPnls cfg s pnl now = ((s.rollDay now).recentPnls ++ [(now, pnl)]).filter
      fun e => now - cfg.lossPauseWindowS ≤ e.1 := by
  have hold : ((s.rollDay now).recentPnls ++ [(now, pnl)]).Pairwise fun a b =>
      (decide (b.1 < now - (cfg.lossPauseWindowS : K))) = true →
        (decide (a.1 < now - (cfg.lossPauseWindowS : K))) = true := by
    apply horder.imp
    intro a b hle hb
    exact decide_eq_true (hle.trans_lt (of_decide_eq_true hb))
  rw [windowPnls, dropWhile_eq_filter _ _ hold]
  apply List.filter_congr
  intro e _
  rw [← decide_not, decide_eq_decide]
  exact not_lt

omit [IsStrictOrderedRing K] in
/-- Trades since the last pause are closed at the time of a call. -/
theorem time_le_of_mem_tradesSincePause {calls : List (RiskCall K)} {e : K × K} {now : K}
    (he : e ∈ tradesSincePause cfg calls) (htimes : ∀ c ∈ calls, c.time ≤ now) : e.1 ≤ now := by
  obtain ⟨c, hc, htime⟩ := exists_call_of_mem_closes ((tradesSincePause_sublist cfg calls).mem he)
  rw [← htime]
  exact htimes c hc

/-- Once the day is over, none of its trades is of the day. -/
theorem filter_of_later_day {calls : List (RiskCall K)} {t now : K}
    (htimes : ∀ c ∈ calls, c.time ≤ t) (ht : t ≤ now) (hday : utcDay now ≠ utcDay t) :
    ((tradesSincePause cfg calls).filter fun e =>
      now - cfg.lossPauseWindowS ≤ e.1 ∧ utcDay e.1 = utcDay now) = [] := by
  apply List.filter_eq_nil_iff.mpr
  intro e he
  have hle : utcDay e.1 ≤ utcDay t := utcDay_mono (time_le_of_mem_tradesSincePause cfg he htimes)
  have hlt : utcDay t < utcDay now := lt_of_le_of_ne (utcDay_mono ht) hday.symm
  rw [decide_eq_true_eq]
  rintro ⟨-, hsame⟩
  omega

omit [FloorRing K] [IsStrictOrderedRing K] [Field K] in
/-- Calls in order are so without the last one, which is the latest. -/
theorem CallsInOrder.le_last {calls : List (RiskCall K)} {c : RiskCall K}
    (h : CallsInOrder (calls ++ [c])) :
    CallsInOrder calls ∧ ∀ c' ∈ calls, c'.time ≤ c.time := by
  unfold CallsInOrder at h
  rw [List.map_append, List.pairwise_append] at h
  obtain ⟨hcalls, -, hlast⟩ := h
  exact ⟨hcalls, fun c' hc' => hlast _ (List.mem_map.mpr ⟨c', hc', rfl⟩) _ (by simp)⟩

omit [IsStrictOrderedRing K] in
/-- What the manager remembers are trades since the last pause. -/
theorem recentPnls_sublist (calls : List (RiskCall K)) :
    ((riskMachine cfg).final RiskState.init calls).recentPnls.Sublist
      (tradesSincePause cfg calls) := by
  induction calls using List.reverseRecOn with
  | nil => exact List.Sublist.refl _
  | append_singleton calls c ih =>
    have hroll : ∀ now, (((riskMachine cfg).final RiskState.init calls).rollDay now).recentPnls.Sublist
        (tradesSincePause cfg calls) := by
      intro now
      rw [rollDay_recentPnls]
      split
      · exact ih
      · exact List.nil_sublist _
    rw [Machine.final_concat]
    cases c with
    | canEnter ctx =>
      rw [riskMachine_next_canEnter, canEnter_state, tradesSincePause_canEnter]
      split
      · exact hroll ctx.ts
      · exact hroll ctx.ts
    | onTradeClosed pnl now =>
      rw [riskMachine_next_closed, onTradeClosed_eq, tradesSincePause_closed]
      dsimp only
      split
      · exact List.nil_sublist _
      · split
        · exact (List.dropWhile_sublist _).trans ((hroll now).append (List.Sublist.refl _))
        · exact (hroll now).trans (List.sublist_append_left _ _)

omit [IsStrictOrderedRing K] in
/-- The window of a close after calls in order. -/
theorem windowPnls_run (calls : List (RiskCall K)) (pnl now : K)
    (horder : CallsInOrder (calls ++ [.onTradeClosed pnl now])) :
    windowPnls cfg ((riskMachine cfg).final RiskState.init calls) pnl now =
      ((((riskMachine cfg).final RiskState.init calls).rollDay now).recentPnls ++
        [(now, pnl)]).filter fun e => now - cfg.lossPauseWindowS ≤ e.1 := by
  apply windowPnls_eq
  have hcloses := closes_pairwise horder
  rw [List.flatMap_append] at hcloses
  apply List.Pairwise.sublist _ hcloses
  apply List.Sublist.append _ (List.Sublist.refl _)
  rw [rollDay_recentPnls]
  split
  · exact (recentPnls_sublist cfg calls).trans (tradesSincePause_sublist cfg calls)
  · exact List.nil_sublist _

/-- **The window of a day.** After calls in order, the manager remembers all the trades of its day
since the last pause that a later close of the day still counts. -/
theorem recentPnls_run (calls : List (RiskCall K)) (horder : CallsInOrder calls)
    (hthreshold : 0 < cfg.lossPauseThreshold) (now : K) (hnow : ∀ c ∈ calls, c.time ≤ now) :
    (((riskMachine cfg).final RiskState.init calls).rollDay now).recentPnls.filter
        (fun e => now - cfg.lossPauseWindowS ≤ e.1) =
      (tradesSincePause cfg calls).filter fun e =>
        now - cfg.lossPauseWindowS ≤ e.1 ∧ utcDay e.1 = utcDay now := by
  induction calls using List.reverseRecOn with
  | nil =>
    rw [rollDay_recentPnls]
    split <;> rfl
  | append_singleton calls c ih =>
    obtain ⟨hcalls, hlast⟩ := horder.le_last
    have hc : c.time ≤ now := hnow c (by simp)
    have hih := ih hcalls fun c' hc' => (hlast c' hc').trans hc
    have hkey := riskMachine_next_dayKey cfg ((riskMachine cfg).final RiskState.init calls) c
    rw [Machine.final_concat, rollDay_recentPnls, hkey]
    by_cases hday : utcDay now = utcDay c.time
    · -- still the day of the call
      have hroll : (((riskMachine cfg).final RiskState.init calls).rollDay c.time).recentPnls =
          (((riskMachine cfg).final RiskState.init calls).rollDay now).recentPnls := by
        rw [rollDay_recentPnls, rollDay_recentPnls, hday]
      rw [if_pos hday]
      cases c with
      | canEnter ctx =>
        rw [riskMachine_next_canEnter, canEnter_state, tradesSincePause_canEnter, ← hih, ← hroll]
        split <;> rfl
      | onTradeClosed pnl t =>
        rw [riskMachine_next_closed, onTradeClosed_eq, tradesSincePause_closed]
        dsimp only
        rw [if_pos hthreshold]
        split
        · rfl
        · -- what the close dropped is older than the window of any later close
          have hwindow : t - (cfg.lossPauseWindowS : K) ≤ now - cfg.lossPauseWindowS :=
            sub_le_sub_right hc _
          have hboth : ∀ e : K × K, (decide (now - (cfg.lossPauseWindowS : K) ≤ e.1) &&
              decide (t - (cfg.lossPauseWindowS : K) ≤ e.1)) =
                decide (now - (cfg.lossPauseWindowS : K) ≤ e.1) := by
            intro e
            rw [← Bool.decide_and, decide_eq_decide]
            exact and_iff_left_of_imp hwindow.trans
          have hclose : utcDay t = utcDay now := hday.symm
          rw [windowPnls_run cfg calls pnl t horder, List.filter_filter, List.filter_congr
            fun e _ => hboth e, List.filter_append, List.filter_append, ← hih, ← hroll]
          congr 1
          apply List.filter_congr
          intro e he
          rw [List.mem_singleton.mp he, decide_eq_decide]
          exact (and_iff_left hclose).symm
    · rw [if_neg hday, List.filter_nil]
      refine (filter_of_later_day cfg (t := c.time) ?_ hc hday).symm
      intro c' hc'
      rcases List.mem_append.mp hc' with hc' | hc'
      · exact hlast c' hc'
      · exact le_of_eq (by rw [List.mem_singleton.mp hc'])

/-- The rolling loss of a close counts the whole window exactly when the trades of earlier days in
it add up to zero. -/
theorem windowPnls_sum_iff (pre post : List (RiskCall K)) (pnl now : K)
    (horder : CallsInOrder (pre ++ .onTradeClosed pnl now :: post))
    (hthreshold : 0 < cfg.lossPauseThreshold) :
    ((windowPnls cfg ((riskMachine cfg).final RiskState.init pre) pnl now).map Prod.snd).sum =
        (((tradesSincePause cfg pre ++ [(now, pnl)]).filter
          fun e => now - cfg.lossPauseWindowS ≤ e.1).map Prod.snd).sum ↔
      (((tradesSincePause cfg pre).filter fun e =>
        now - cfg.lossPauseWindowS ≤ e.1 ∧ utcDay e.1 < utcDay now).map Prod.snd).sum = 0 := by
  have hclose : CallsInOrder (pre ++ [.onTradeClosed pnl now]) := by
    unfold CallsInOrder at horder ⊢
    apply List.Pairwise.sublist _ horder
    exact ((List.Sublist.refl pre).append
      (List.singleton_sublist.mpr List.mem_cons_self)).map RiskCall.time
  obtain ⟨hpre, hlast⟩ := hclose.le_last
  -- the trades of the window are those of earlier days and those of this one
  have hperm := List.filter_append_perm (fun e : K × K => decide (utcDay e.1 < utcDay now))
    ((tradesSincePause cfg pre).filter fun e => now - cfg.lossPauseWindowS ≤ e.1)
  have hold : ((tradesSincePause cfg pre).filter fun e => now - cfg.lossPauseWindowS ≤ e.1).filter
      (fun e => utcDay e.1 < utcDay now) = (tradesSincePause cfg pre).filter fun e =>
        now - cfg.lossPauseWindowS ≤ e.1 ∧ utcDay e.1 < utcDay now := by
    rw [List.filter_filter]
    apply List.filter_congr
    intro e _
    rw [← Bool.decide_and, decide_eq_decide]
    exact and_comm
  have hnew : ((tradesSincePause cfg pre).filter fun e => now - cfg.lossPauseWindowS ≤ e.1).filter
      (fun e => !decide (utcDay e.1 < utcDay now)) = (tradesSincePause cfg pre).filter fun e =>
        now - cfg.lossPauseWindowS ≤ e.1 ∧ utcDay e.1 = utcDay now := by
    rw [List.filter_filter]
    apply List.filter_congr
    intro e he
    have hle : utcDay e.1 ≤ utcDay now :=
      utcDay_mono (time_le_of_mem_tradesSincePause cfg he hlast)
    rw [← decide_not, ← Bool.decide_and, decide_eq_decide, not_lt]
    exact ⟨fun h => ⟨h.2, le_antisymm hle h.1⟩, fun h => ⟨h.2.ge, h.1⟩⟩
  rw [hold, hnew] at hperm
  have hsum := (hperm.map Prod.snd).sum_eq
  rw [List.map_append, List.sum_append] at hsum
  rw [windowPnls_run cfg pre pnl now hclose, List.filter_append, List.filter_append,
    recentPnls_run cfg pre hpre hthreshold now hlast, List.map_append, List.map_append,
    List.sum_append, List.sum_append, ← hsum, add_left_inj]
  exact right_eq_add

/-- While a period that a close starts is running, an entry is refused on the day of the close, and
on a later day if the calls of that day refuse it. -/
theorem canEnter_while_running (pre mid post : List (RiskCall K)) (pnl now : K)
    (ctx : TickContext K)
    (horder : CallsInOrder (pre ++ .onTradeClosed pnl now :: (mid ++ .canEnter ctx :: post)))
    (hrunning : StillRunning cfg pre pnl now ctx.ts) :
    (canEnter cfg ((riskMachine cfg).final RiskState.init
        (pre ++ .onTradeClosed pnl now :: mid)) ctx).1 ≠ none ↔
      (utcDay now < utcDay ctx.ts → NewDayRefuses cfg mid ctx) := by
  obtain ⟨hle, hbetween⟩ := horder.between
  have hmidOrder : (mid.map RiskCall.time).Pairwise (· ≤ ·) := by
    unfold CallsInOrder at horder
    apply List.Pairwise.sublist _ horder
    apply List.Sublist.map
    exact ((List.sublist_append_left mid _).trans (List.sublist_cons_self _ _)).trans
      (List.sublist_append_right pre _)
  have hdays : ∀ c ∈ mid, utcDay now ≤ utcDay c.time ∧ utcDay c.time ≤ utcDay ctx.ts :=
    fun c hc => ⟨utcDay_mono (hbetween c hc).1, utcDay_mono (hbetween c hc).2⟩
  generalize hs : (riskMachine cfg).final RiskState.init (pre ++ [.onTradeClosed pnl now]) = s
  have hclose : s = onTradeClosed cfg ((riskMachine cfg).final RiskState.init pre) pnl now := by
    rw [← hs, Machine.final_concat, riskMachine_next_closed]
  have hkey : s.dayKey = utcDay now := by
    rw [hclose, onTradeClosed_eq]
    exact rollDay_dayKey _ now
  have hfinal : (riskMachine cfg).final RiskState.init (pre ++ .onTradeClosed pnl now :: mid) =
      (riskMachine cfg).final s mid := by
    rw [← hs, ← Machine.final_append, List.append_assoc, List.singleton_append]
  rw [hfinal, canEnter_refuses_iff]
  by_cases hlater : utcDay now < utcDay ctx.ts
  · rw [rollDay_of_later_day cfg s mid ctx.ts (by rw [hkey]; exact hlater) hmidOrder
      (by rw [hkey]; exact hdays)]
    exact ⟨fun hrefuses _ => hrefuses, fun hnew => hnew hlater⟩
  · refine ⟨fun _ hday => absurd hday hlater, fun _ => Or.inr (Or.inl ?_)⟩
    have hsame : utcDay ctx.ts = utcDay now := le_antisymm (not_lt.mp hlater) (utcDay_mono hle)
    have hday : ∀ c ∈ mid, utcDay c.time = s.dayKey := by
      intro c hc
      rw [hkey]
      exact le_antisymm (hsame ▸ (hdays c hc).2) (hdays c hc).1
    obtain ⟨hfinalKey, -⟩ := sameDay_run cfg s mid hday
    obtain ⟨hcooldown, hpause⟩ := periods_sameDay cfg s mid now hday fun c hc => (hbetween c hc).1
    rw [rollDay_of_eq _ _ (by rw [hfinalKey, hkey, hsame])]
    rcases hrunning with hrunning | ⟨hpauses, hrunning⟩
    · refine Or.inr (Or.inl (hrunning.trans_le (hcooldown ?_)))
      rw [hclose, onTradeClosed_eq]
    · refine Or.inl (hrunning.trans_le (hpause ?_))
      rw [hclose, onTradeClosed_eq]
      dsimp only
      rw [if_pos hpauses]

/-- **Cooldown, pause and window.** Over every sequence of calls with times in order, they hold for
their full time exactly when midnight finds nothing to cut short: whenever one of them still runs
on a later day, the calls of that day refuse on their own, and the trades of earlier days that a
close still has to count add up to zero.
SOURCE: engine/risk.py:47-93 -/
theorem periods_kept_iff (calls : List (RiskCall K)) (horder : CallsInOrder calls) :
    PeriodsKept cfg calls ↔ MidnightHarmless cfg calls := by
  apply and_congr
  · constructor
    · intro hkept pre pnl now mid ctx post heq hrunning
      rw [← canEnter_while_running cfg pre mid post pnl now ctx (heq ▸ horder) hrunning]
      exact hkept pre pnl now mid ctx post heq hrunning
    · intro hharmless pre pnl now mid ctx post heq hrunning
      rw [canEnter_while_running cfg pre mid post pnl now ctx (heq ▸ horder) hrunning]
      exact hharmless pre pnl now mid ctx post heq hrunning
  · constructor
    · intro hkept pre pnl now post heq hthreshold
      rw [← windowPnls_sum_iff cfg pre post pnl now (heq ▸ horder) hthreshold]
      exact hkept pre pnl now post heq hthreshold
    · intro hharmless pre pnl now post heq hthreshold
      rw [windowPnls_sum_iff cfg pre post pnl now (heq ▸ horder) hthreshold]
      exact hharmless pre pnl now post heq hthreshold

/-- A loss within the limit, and a question on the same day. -/
theorem periods_kept_within_day :
    PeriodsKept fiftyADay [.onTradeClosed (-30) 1000, .canEnter (plainTick 2000)] := by
  apply (periods_kept_iff fiftyADay _ (by decide +kernel)).mpr
  constructor
  · intro pre pnl now mid ctx post heq hrunning hday
    obtain ⟨rfl, rfl, rfl, hclose, henter⟩ := eq_nil_of_pair heq
    cases hclose
    cases henter
    exact absurd hday (by decide +kernel)
  · intro pre pnl now post heq hthreshold
    cases pre with
    | nil => rfl
    | cons c pre =>
      -- the other call of the run closes nothing
      rw [List.cons_append, List.cons_eq_cons] at heq
      obtain ⟨-, htail⟩ := heq
      have hmem : RiskCall.onTradeClosed pnl now ∈ [RiskCall.canEnter (plainTick 2000)] := by
        rw [htail]
        simp
      cases List.mem_singleton.mp hmem

/-- A loss of 30 USD at 23:53:20 pauses entries for half an hour; an entry at 00:01:40 passes.
SOURCE: engine/risk.py:47-61 -/
theorem enters_after_midnight :
    ¬∀ (cfg : RiskConfig ℚ) (calls : List (RiskCall ℚ)), CallsInOrder calls →
      PeriodsKept cfg calls := by
  intro h
  obtain ⟨hrefuses, -⟩ := h fiftyADay [.onTradeClosed (-30) 86000, .canEnter (plainTick 86500)]
    (by decide +kernel)
  apply hrefuses [] (-30) 86000 [] (plainTick 86500) [] rfl
    (Or.inr ⟨by decide +kernel, by decide +kernel⟩)
  exact Option.isNone_iff_eq_none.mp (by decide +kernel)

end Midnight

end TradingEdge.Analysis
