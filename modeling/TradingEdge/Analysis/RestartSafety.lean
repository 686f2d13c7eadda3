import TradingEdge.Analysis.DriverSteps

/-!
# Entries after a restart

At boot the driver reads the markets entered today into the set of traded markets, and leaves
the day empty.  The first tick then rolls the day, which clears the set: the rehydrated
markets are forgotten, and nothing but the other gates keeps the driver from entering them
again.

`no_reentry_iff` says when a run after a boot calls `try_enter` for none of them.  The
invariant `Remembered` follows what the set can still hold of the rehydrated markets once a
tick came in: those the daily pause gate marked, and those the run entered itself.
-/

set_option autoImplicit false

namespace TradingEdge.Analysis

open TradingEdge.Model TradingEdge.Program TradingEdge.Library

variable {K S P : Type} [Field K] [LinearOrder K] [FloorRing K]
  (env : DriverEnv K S P) (rehydrated : Finset String) (day : ℤ)

/-! ## What a run after a boot assumes and promises -/

/-- No rehydrated market is entered again. -/
def NoReentry (w : World K S) (ls : List (DriverLabel K)) : Prop :=
  ∀ slug ∈ triedSlugs ((driverMachine env).trace w ls), slug ∉ rehydrated

/-- The ticks belong to one day, and those of rehydrated markets come before the close. -/
def RestartTick (l : DriverLabel K) : Prop :=
  ∀ d ks, l.action = .tick d ks →
    utcDay d.ts = day ∧ (d.marketSlug ∈ rehydrated → orZero d.tInWindow < 300)

/-- The step handles a tick of the market that the first daily pause gate holds back: the
driver is not paused, at its loss limit, and has no position there.  The gate then marks the
market as traded. -/
def HeldBack (slug : String) (w : World K S) (l : DriverLabel K) : Prop :=
  ∃ d ks, l.action = .tick d ks ∧ w.consumer = .idle ∧ d.marketSlug = slug ∧
    w.driver.paused = false ∧
    (rolledState env w.driver d).dailyPnl ≤ env.cfg.dailyPausePnlThreshold ∧
    w.driver.openPositions.get? slug = none

/-- A handled tick of a rehydrated market meets another gate, or comes after one that the
daily pause gate held back. -/
def OtherwiseGuarded (w : World K S) (pre : List (DriverLabel K)) (l : DriverLabel K) : Prop :=
  ∀ d ks, l.action = .tick d ks → ((driverMachine env).final w pre).consumer = .idle →
    d.marketSlug ∈ rehydrated → GatesRefuse env ((driverMachine env).final w pre).driver d ∨
      (driverMachine env).Sometime (HeldBack env d.marketSlug) w pre

/-! ## What the set of traded markets remembers -/

/-- Once a tick came in, the day is that of the run, the markets held back are in the set,
and a rehydrated market in the set was held back or entered by the run itself. -/
structure Remembered (boot : World K S) (pre : List (DriverLabel K)) (w : World K S)
    (es : List (DriverEvent K P)) : Prop where
  today : w.driver.today = none ∨ w.driver.today = some day
  kept : ∀ slug ∈ rehydrated, (driverMachine env).Sometime (HeldBack env slug) boot pre →
    w.driver.today = some day ∧ slug ∈ w.driver.tradeTaken
  known : w.driver.today = some day → ∀ slug ∈ rehydrated, slug ∈ w.driver.tradeTaken →
    (driverMachine env).Sometime (HeldBack env slug) boot pre ∨ slug ∈ triedSlugs es
  pending : ∀ attempt, attemptOf w.consumer = some attempt →
    attempt.position.marketSlug ∈ triedSlugs es

/-- A market held back at a tick is in the set when that tick comes to the gates. -/
theorem heldBack_mem_gateState (w : World K S) (l : DriverLabel K) (d : TickDict K) (ks : Bool)
    (action : l.action = .tick d ks) (slug : String) (h : HeldBack env slug w l) :
    slug ∈ (gateState env w.driver d).tradeTaken := by
  obtain ⟨d', ks', action', -, rfl, hpaused, hpnl, hopen⟩ := h
  rw [action] at action'
  cases action'
  rw [mem_gateState_tradeTaken]
  by_cases htaken : d.marketSlug ∈ (rolledState env w.driver d).tradeTaken
  · exact Or.inl htaken
  · exact Or.inr ⟨rfl, by simpa using hpaused, hpnl, by simpa using hopen, htaken⟩

/-- Before the close of a market a tick leaves it in the set. -/
theorem mem_handleTick_tradeTaken (st : DriverState K S) (clock : K) (d : TickDict K)
    (ks : Bool) (slug : String) (hbefore : slug = d.marketSlug → orZero d.tInWindow < 300) :
    slug ∈ (handleTick env st clock d ks).1.tradeTaken ↔
      slug ∈ (gateState env st d).tradeTaken := by
  rw [handleTick_eq]
  change slug ∈ (gated env st clock d ks).1.tradeTaken ↔ _
  rw [gated]
  rcases atGate_tradeTaken env (gateState env st d) clock (conditionIdOf d) ks
    (observeTick env st d).ctx (gateOf env st d) with heq | ⟨ht, heq⟩
  · rw [heq]
  · rw [heq, Finset.mem_erase, observeTick_ctx_marketSlug]
    refine and_iff_right fun hslug => ?_
    exact absurd ht (not_le.mpr (hbefore hslug))

/-- Within the day of the run a tick comes to the gates with the set as it was, and its own
market if it is held back. -/
theorem mem_gateState_of_today (st : DriverState K S) (d : TickDict K) (slug : String)
    (hday : utcDay d.ts = day) (htoday : st.today = some day) (h : slug ∈ st.tradeTaken) :
    slug ∈ (gateState env st d).tradeTaken := by
  have hsame : ¬Rolls st d := by
    rw [Rolls, hday, htoday]
    exact fun hne => hne rfl
  rw [mem_gateState_tradeTaken, rolledState_tradeTaken, if_neg hsame]
  exact Or.inl h

/-- What the set holds at the gates, it held before on the same day, or this tick is held
back. -/
theorem of_mem_gateState (w : World K S) (l : DriverLabel K) (d : TickDict K) (ks : Bool)
    (action : l.action = .tick d ks) (idle : w.consumer = .idle) (slug : String)
    (hday : utcDay d.ts = day) (h : slug ∈ (gateState env w.driver d).tradeTaken) :
    w.driver.today = some day ∧ slug ∈ w.driver.tradeTaken ∨ HeldBack env slug w l := by
  rw [mem_gateState_tradeTaken, rolledState_tradeTaken] at h
  rcases h with h | ⟨rfl, hpaused, hpnl, hopen, -⟩
  · left
    split at h
    · exact absurd h (Finset.notMem_empty _)
    · rename_i hsame
      exact ⟨by rw [← not_not.mp hsame, hday], h⟩
  · right
    exact ⟨d, ks, action, idle, rfl, by simpa using hpaused, hpnl, by simpa using hopen⟩

/-- **One step keeps what the set remembers.** -/
theorem remembered_step (boot : World K S) (pre : List (DriverLabel K)) (l : DriverLabel K)
    (hl : RestartTick rehydrated day l)
    (h : Remembered env rehydrated day boot pre ((driverMachine env).final boot pre)
      ((driverMachine env).trace boot pre)) :
    Remembered env rehydrated day boot (pre ++ [l])
      ((driverMachine env).next ((driverMachine env).final boot pre) l)
      ((driverMachine env).trace boot pre ++
        (driverMachine env).emits ((driverMachine env).final boot pre) l) := by
  obtain ⟨htoday, hkept, hknown, hpending⟩ := h
  have hearlier : ∀ slug, (driverMachine env).Sometime (HeldBack env slug) boot pre →
      (driverMachine env).Sometime (HeldBack env slug) boot (pre ++ [l]) := fun slug hs =>
    ((driverMachine env).sometime_concat_iff _ _ _ _).mpr (Or.inl hs)
  have hnow : ∀ slug, HeldBack env slug ((driverMachine env).final boot pre) l →
      (driverMachine env).Sometime (HeldBack env slug) boot (pre ++ [l]) := fun slug hs =>
    ((driverMachine env).sometime_concat_iff _ _ _ _).mpr (Or.inr hs)
  have htry := mem_triedSlugs_emits_iff env ((driverMachine env).final boot pre) l
  have heffect := driver_tradeEffect env ((driverMachine env).final boot pre) l
  generalize (driverMachine env).next ((driverMachine env).final boot pre) l = w' at heffect ⊢
  generalize (driverMachine env).emits ((driverMachine env).final boot pre) l = new
    at heffect htry ⊢
  have hentered : ∀ slug ∈ triedSlugs ((driverMachine env).trace boot pre),
      slug ∈ triedSlugs ((driverMachine env).trace boot pre ++ new) := fun slug hslug =>
    by
    rw [triedSlugs_append]
    exact List.mem_append_left _ hslug
  cases heffect with
  | tick d ks action idle driver consumer events =>
    obtain ⟨hday, hbefore⟩ := hl d ks action
    have htoday' : w'.driver.today = some day := by
      rw [driver, handleTick_today, hday]
    have hmem : ∀ slug ∈ rehydrated, slug ∈ w'.driver.tradeTaken ↔
        slug ∈ (gateState env ((driverMachine env).final boot pre).driver d).tradeTaken := by
      intro slug hslug
      rw [driver]
      exact mem_handleTick_tradeTaken env _ _ _ _ _ fun heq => hbefore (heq ▸ hslug)
    refine ⟨Or.inr htoday', ?_, ?_, ?_⟩
    · intro slug hslug hheld
      refine ⟨htoday', (hmem slug hslug).mpr ?_⟩
      rcases ((driverMachine env).sometime_concat_iff _ _ _ _).mp hheld with hheld | hheld
      · obtain ⟨hold, htaken⟩ := hkept slug hslug hheld
        exact mem_gateState_of_today env day _ d slug hday hold htaken
      · exact heldBack_mem_gateState env _ l d ks action slug hheld
    · intro _ slug hslug htaken
      rcases of_mem_gateState env day _ l d ks action idle slug hday
        ((hmem slug hslug).mp htaken) with ⟨hold, htaken⟩ | hheld
      · exact (hknown hold slug hslug htaken).imp (hearlier slug) (hentered slug)
      · exact Or.inl (hnow slug hheld)
    · intro attempt hattempt
      rw [consumer] at hattempt
      obtain ⟨risk, dec, strategy, hgate, hok⟩ := attemptOf_handleTick hattempt
      rw [(tryEnter_ok _ _ _ _ _ hok).1, triedSlugs_append]
      refine List.mem_append_right _ ((htry _).mpr ⟨d, ks, action, idle, rfl, ?_⟩)
      exact (gateOf_enter_iff env _ d).mp ⟨risk, dec, strategy, hgate⟩
  | enters attempt before after driver events =>
    have hnotTick : ∀ slug, ¬HeldBack env slug ((driverMachine env).final boot pre) l := by
      rintro slug ⟨d, ks, -, idle, -⟩
      rw [idle] at before
      cases before
    refine ⟨by rw [driver]; exact htoday, ?_, ?_, ?_⟩
    · intro slug hslug hheld
      rcases ((driverMachine env).sometime_concat_iff _ _ _ _).mp hheld with hheld | hheld
      · obtain ⟨hold, htaken⟩ := hkept slug hslug hheld
        rw [driver]
        exact ⟨hold, Finset.mem_insert_of_mem htaken⟩
      · exact absurd hheld (hnotTick slug)
    · intro hold slug hslug htaken
      rw [driver] at hold htaken
      rcases Finset.mem_insert.mp htaken with rfl | htaken
      · exact Or.inr (hentered _ (hpending attempt before))
      · exact (hknown hold slug hslug htaken).imp (hearlier slug) (hentered slug)
    · intro attempt' hattempt
      rw [after] at hattempt
      cases hattempt
  | aside tradeTaken today consumer events noTick =>
    have hnotTick : ∀ slug, ¬HeldBack env slug ((driverMachine env).final boot pre) l := by
      rintro slug ⟨d, ks, action, idle, -⟩
      exact noTick d ks action idle
    refine ⟨by rw [today]; exact htoday, ?_, ?_, ?_⟩
    · intro slug hslug hheld
      rcases ((driverMachine env).sometime_concat_iff _ _ _ _).mp hheld with hheld | hheld
      · rw [today, tradeTaken]
        exact hkept slug hslug hheld
      · exact absurd hheld (hnotTick slug)
    · intro hold slug hslug htaken
      rw [today] at hold
      rw [tradeTaken] at htaken
      exact (hknown hold slug hslug htaken).imp (hearlier slug) (hentered slug)
    · intro attempt hattempt
      exact hentered _ (hpending attempt (consumer attempt hattempt))

/-- **Every run after a boot keeps it.** -/
theorem remembered_run (boot : World K S) (hidle : boot.consumer = .idle)
    (htoday : boot.driver.today = none) (ls : List (DriverLabel K))
    (hls : Obeys (fun _ l => RestartTick rehydrated day l) ls) :
    Remembered env rehydrated day boot ls ((driverMachine env).final boot ls)
      ((driverMachine env).trace boot ls) := by
  induction ls using List.reverseRecOn with
  | nil =>
    refine ⟨Or.inl htoday, fun slug _ h => absurd h ((driverMachine env).not_sometime_nil _ _),
      fun h => ?_, fun attempt h => ?_⟩
    · rw [Machine.final_nil, htoday] at h
      cases h
    · rw [Machine.final_nil, hidle] at h
      cases h
  | append_singleton pre l ih =>
    obtain ⟨hpre, hl⟩ := (Obeys.concat_iff pre l).mp hls
    rw [Machine.final_concat, Machine.trace_concat]
    exact remembered_step env rehydrated day boot pre l hl (ih hpre)

/-! ## When the driver is safe -/

/-- **When a restart is safe.** A run after a boot, within one day, enters none of the
rehydrated markets again exactly when every handled tick of such a market meets a gate other
than the set of traded markets, or comes after one that the daily pause gate held back.  The
rehydration itself guards nothing.
SOURCE: paper/driver.py:203-235, 314-416, 708-714 -/
theorem no_reentry_iff (strategy : S) (paused : Bool) (rows : Option (List String))
    (dailyPnl : K) (dailyTrades : ℤ) (orders : Table (OrderRow.key (K := K)))
    (fills : Table (FillRow.key (K := K))) (ls : List (DriverLabel K))
    (hls : Obeys (fun _ l => RestartTick (rehydrateTradeTaken rows) day l) ls) :
    NoReentry env (rehydrateTradeTaken rows)
        (World.boot (DriverState.boot strategy paused rows dailyPnl dailyTrades) orders fills)
        ls ↔
      Obeys (OtherwiseGuarded env (rehydrateTradeTaken rows)
        (World.boot (DriverState.boot strategy paused rows dailyPnl dailyTrades) orders fills))
        ls := by
  generalize hboot : World.boot (DriverState.boot strategy paused rows dailyPnl dailyTrades)
    orders fills = boot
  have hidle : boot.consumer = .idle := by rw [← hboot]; rfl
  have htoday : boot.driver.today = none := by rw [← hboot]; rfl
  constructor
  · intro hno pre l post heq d ks action idle hslug
    by_contra hunguarded
    obtain ⟨hpass, hnever⟩ := not_or.mp hunguarded
    have hrem := remembered_run env (rehydrateTradeTaken rows) day boot hidle htoday pre
      (Obeys.of_append (heq ▸ hls))
    have hday := (hls pre l post heq d ks action).1
    have hfree : d.marketSlug ∉
        (gateState env ((driverMachine env).final boot pre).driver d).tradeTaken := by
      intro htaken
      rcases of_mem_gateState env day _ l d ks action idle _ hday htaken with
        ⟨hold, htaken⟩ | ⟨d', ks', action', -, -, -, hpnl, -⟩
      · rcases hrem.known hold _ hslug htaken with hheld | htried
        · exact hnever hheld
        · refine hno _ ?_ hslug
          rw [heq, Machine.trace_append, triedSlugs_append]
          exact List.mem_append_left _ htried
      · rw [action] at action'
        cases action'
        exact hpass (Or.inr (Or.inr (Or.inr (Or.inl hpnl))))
    have htried : d.marketSlug ∈ triedSlugs ((driverMachine env).trace boot ls) :=
      (mem_triedSlugs_trace_iff env boot ls _).mpr ⟨pre, l, post, heq,
        (mem_triedSlugs_emits_iff env _ l _).mpr ⟨d, ks, action, idle, rfl, hfree, hpass⟩⟩
    exact hno _ htried hslug
  · intro hguarded slug htried hslug
    obtain ⟨pre, l, post, heq, hemit⟩ := (mem_triedSlugs_trace_iff env boot ls slug).mp htried
    obtain ⟨d, ks, action, idle, rfl, hfree, hpass⟩ :=
      (mem_triedSlugs_emits_iff env _ l slug).mp hemit
    rcases hguarded pre l post heq d ks action idle hslug with hrefuse | hheld
    · exact hpass hrefuse
    · have hrem := remembered_run env (rehydrateTradeTaken rows) day boot hidle htoday pre
        (Obeys.of_append (heq ▸ hls))
      obtain ⟨hold, htaken⟩ := hrem.kept _ hslug hheld
      exact hfree (mem_gateState_of_today env day _ d _ (hls pre l post heq d ks action).1 hold
        htaken)

section Instance

/-- The first tick after a restart, `t` seconds into the window of a market. -/
def firstTickAfterRestart (t : ℚ) : DriverLabel ℚ :=
  ⟨1200 + t, .tick (quotedDict "btc-updown-5m-1200" (1200 + t) t 1500) false⟩

/-- The first tick after a restart, at any second of the window. -/
theorem restartTick_firstTick (t : ℚ) (ht : 0 ≤ t ∧ t < 300) :
    Obeys (fun _ l => RestartTick (rehydrateTradeTaken (some ["btc-updown-5m-1200"])) 0 l)
      [firstTickAfterRestart t] := by
  refine (Obeys.cons_iff _ _).mpr ⟨fun d ks hd => ?_, Obeys.nil⟩
  cases hd
  refine ⟨?_, fun _ => ht.2⟩
  rw [utcDay, Int.floor_eq_zero_iff]
  constructor <;> simp only [quotedDict] <;> linarith [ht.1, ht.2]

/-- A market entered before a restart is rehydrated, but its first tick clears the set and
enters it again.
SOURCE: paper/driver.py:225-229, 708-714 -/
theorem reentered_after_restart :
    Obeys (fun _ l => RestartTick (rehydrateTradeTaken (some ["btc-updown-5m-1200"])) 0 l)
        [firstTickAfterRestart 100] ∧
      ¬NoReentry (eagerDriver 60) (rehydrateTradeTaken (some ["btc-updown-5m-1200"]))
        (eagerBoot ["btc-updown-5m-1200"]) [firstTickAfterRestart 100] := by
  refine ⟨restartTick_firstTick 100 (by norm_num), fun h => ?_⟩
  exact absurd (h "btc-updown-5m-1200" (by decide +kernel)) (by decide +kernel)

/-- 30 s into its window the market is not entered: the tick comes before the entry window. -/
theorem no_reentry_before_window :
    NoReentry (eagerDriver 60) (rehydrateTradeTaken (some ["btc-updown-5m-1200"]))
      (eagerBoot ["btc-updown-5m-1200"]) [firstTickAfterRestart 30] := by
  refine (no_reentry_iff (eagerDriver 60) 0 () false (some ["btc-updown-5m-1200"]) 0 0
    Table.empty Table.empty _ (restartTick_firstTick 30 (by norm_num))).mpr ?_
  refine (Obeys.cons_iff _ _).mpr ⟨fun d ks hd _ _ => Or.inl ?_, Obeys.nil⟩
  cases hd
  exact Or.inr (Or.inr (Or.inl (by decide +kernel)))

end Instance

end TradingEdge.Analysis
