import TradingEdge.Analysis.MakerFleet
import TradingEdge.Library.Timeline

/-!
# The fill intensity that the spread is computed with

A tick reads k of its bucket at two cents.  `onFill` counts the fills, but nothing the driver
calls counts the minutes: after a run a cell is the one the strategy was booted with, with the
fills added, or, once a fill has found it seven days old, a cell without minutes
(`counters_final`, `afterFills_of_not_restarted`, `minutesQuoted_of_restarted`).  The age is
looked at by fills only, so a cell that no fill has restarted is read at any age.  The recorder
of quoted minutes would do both (`k_recordQuotingMinute`).

`ReadsIntensity` says that the value is the fills over the minutes of the last seven days; for
each read of each run `readsIntensity_iff` says when it is.
-/

set_option autoImplicit false

namespace TradingEdge.Analysis

open TradingEdge.Library TradingEdge.Model TradingEdge.Program

variable {K : Type} [Field K] [LinearOrder K]

/-- The intensity a tick reads, and `MMRebate.wanted` gives to the spread.
SOURCE: strategies/polymarket_btc15m/mm_rebate_v1.py:183-185 -/
def kAt2c (m : MMRebate K) (ctx : TickContext K) : K :=
  m.k.k (bucketForEstimator ctx.impliedProbYes) 2

section Cell

/-- A cell looked at before it is written to.
SOURCE: strategies/polymarket_btc15m/_k_estimator.py:81-87 -/
def rolled (cell : Option (KCounter K)) (now : K) : KCounter K :=
  match cell with
  | none => ⟨0, 0, now⟩
  | some c => if KEstimator.window ≤ now - c.windowStart then ⟨0, 0, now⟩ else c

/-- A cell after a fill. -/
def withFill (cell : Option (KCounter K)) (now : K) : KCounter K :=
  { rolled cell now with fillsCount := (rolled cell now).fillsCount + 1 }

/-- SOURCE: strategies/polymarket_btc15m/_k_estimator.py:81-87 -/
theorem get?_maybeRoll (e : KEstimator K) (key key' : String × ℤ) (now : K) :
    (e.maybeRoll key now).counters.get? key' =
      if key' = key then some (rolled (e.counters.get? key) now) else e.counters.get? key' := by
  unfold KEstimator.maybeRoll rolled KEstimator.window
  cases hget : e.counters.get? key with
  | none => exact Dict.get?_set _ _ _ _
  | some c =>
    by_cases hold : 604800 ≤ now - c.windowStart
    · simp only [if_pos hold]
      exact Dict.get?_set _ _ _ _
    · simp only [if_neg hold]
      by_cases hkey : key' = key
      · rw [if_pos hkey, hkey, hget]
      · rw [if_neg hkey]

/-- A fill is counted in the cell of its bucket at two cents, and in no other.
SOURCE: strategies/polymarket_btc15m/_k_estimator.py:101-111 -/
theorem get?_recordFill (e : KEstimator K) (bucket : String) (now : K) (key : String × ℤ) :
    (e.recordFill bucket 2 now).counters.get? key =
      if key = (bucket, 2) then some (withFill (e.counters.get? (bucket, 2)) now)
      else e.counters.get? key := by
  have hdelta : ¬((2 : ℤ) ∉ KEstimator.deltasCents) := by decide
  have hself := get?_maybeRoll e (bucket, 2) (bucket, 2) now
  rw [if_pos rfl] at hself
  unfold KEstimator.recordFill
  rw [if_neg hdelta]
  dsimp only
  rw [hself]
  dsimp only
  rw [Dict.get?_set]
  by_cases hkey : key = (bucket, 2)
  · rw [if_pos hkey, if_pos hkey]
    rfl
  · rw [if_neg hkey, if_neg hkey, get?_maybeRoll, if_neg hkey]

/-- A cell after fills at some times. -/
def afterFills (cell : Option (KCounter K)) (times : List K) : Option (KCounter K) :=
  times.foldl (fun cell now => some (withFill cell now)) cell

/-- Some fill found the cell seven days old or older. -/
def Restarted (c : KCounter K) (times : List K) : Prop :=
  ∃ s ∈ times, KEstimator.window ≤ s - c.windowStart

instance (c : KCounter K) (times : List K) : Decidable (Restarted c times) :=
  inferInstanceAs (Decidable (∃ s ∈ times, _))

/-- A cell that no fill restarts counts them all, over the minutes it had. -/
theorem afterFills_of_not_restarted (c : KCounter K) (times : List K) (h : ¬Restarted c times) :
    afterFills (some c) times = some { c with fillsCount := c.fillsCount + times.length } := by
  induction times generalizing c with
  | nil => simp [afterFills]
  | cons s times ih =>
    have hyoung : ¬KEstimator.window ≤ s - c.windowStart :=
      fun hold => h ⟨s, List.mem_cons_self, hold⟩
    have hfill : withFill (some c) s = { c with fillsCount := c.fillsCount + 1 } := by
      simp [withFill, rolled, hyoung]
    have hrest : ¬Restarted (withFill (some c) s) times := by
      rintro ⟨s', hs', hold⟩
      rw [hfill] at hold
      exact h ⟨s', List.mem_cons_of_mem s hs', hold⟩
    rw [afterFills, List.foldl_cons, ← afterFills, ih _ hrest, hfill]
    simp only [List.length_cons, Nat.cast_add, Nat.cast_one, Option.some.injEq,
      KCounter.mk.injEq, and_true]
    ring

/-- A cell without minutes stays without. -/
theorem minutesQuoted_afterFills (cell : Option (KCounter K)) (times : List K)
    (h : ∀ c ∈ cell, c.minutesQuoted = 0) : ∀ c ∈ afterFills cell times, c.minutesQuoted = 0 := by
  induction times generalizing cell with
  | nil => exact h
  | cons s times ih =>
    refine ih _ fun c hc => ?_
    obtain rfl := Option.some.inj hc
    cases cell with
    | none => rfl
    | some c =>
      change (rolled (some c) s).minutesQuoted = 0
      unfold rolled
      dsimp only
      split
      · rfl
      · exact h c rfl

/-- A restarted cell has no minutes. -/
theorem minutesQuoted_of_restarted (c : KCounter K) (times : List K) (h : Restarted c times) :
    ∀ c' ∈ afterFills (some c) times, c'.minutesQuoted = 0 := by
  induction times generalizing c with
  | nil =>
    obtain ⟨s, hs, -⟩ := h
    cases hs
  | cons s times ih =>
    by_cases hold : KEstimator.window ≤ s - c.windowStart
    · refine minutesQuoted_afterFills _ times fun c' hc' => ?_
      obtain rfl := Option.some.inj hc'
      simp [withFill, rolled, hold]
    · refine ih (withFill (some c) s) ?_
      obtain ⟨s', hs', hold'⟩ := h
      rcases List.mem_cons.mp hs' with rfl | hs'
      · exact absurd hold' hold
      · refine ⟨s', hs', ?_⟩
        simpa [withFill, rolled, hold] using hold'

end Cell

section Intensity

/-- Fills per minute, zero without minutes. -/
def intensity (fills : ℤ) (minutes : K) : K := if 0 < minutes then fills / minutes else 0

/-- What `k` returns for a cell.
SOURCE: strategies/polymarket_btc15m/_k_estimator.py:54-57, 127-132 -/
def kOf (cell : Option (KCounter K)) : K :=
  match cell with
  | none => 0
  | some c => c.k

/-- The intensity of a counter. -/
theorem kOf_some (c : KCounter K) :
    kOf (some c) = intensity c.fillsCount c.minutesQuoted := by
  unfold kOf intensity
  dsimp only
  unfold KCounter.k
  by_cases h : c.minutesQuoted ≤ 0
  · rw [if_pos h, if_neg (not_lt.mpr h)]
  · rw [if_neg h, if_pos (not_le.mp h)]

/-- A warm start reads the intensity it was given, if that is a whole number of fills.
SOURCE: strategies/polymarket_btc15m/_k_estimator.py:89-99, 127-132 -/
theorem k_warmStart [IsStrictOrderedRing K] [FloorRing K] (e : KEstimator K) (bucket : String)
    (deltaCents fills : ℤ) {k0 minutes : K} (now : K) (hminutes : 0 < minutes)
    (hfills : k0 * minutes = fills) :
    (e.warmStart bucket deltaCents k0 minutes now).k bucket deltaCents = k0 := by
  rw [KEstimator.warmStart, KEstimator.k, Dict.get?_set_self, hfills, roundInt_intCast]
  change KCounter.k _ = k0
  rw [KCounter.k, if_neg (not_le.mpr hminutes)]
  exact ((eq_div_iff hminutes.ne').mpr hfills).symm

/-- Recording quoted minutes looks at the age of the cell and adds them.
SOURCE: strategies/polymarket_btc15m/_k_estimator.py:113-132 -/
theorem k_recordQuotingMinute (e : KEstimator K) (bucket : String) (minutes now : K) :
    (e.recordQuotingMinute bucket 2 minutes now).k bucket 2 =
      intensity (rolled (e.counters.get? (bucket, 2)) now).fillsCount
        ((rolled (e.counters.get? (bucket, 2)) now).minutesQuoted + minutes) := by
  have hdelta : ¬((2 : ℤ) ∉ KEstimator.deltasCents) := by decide
  have hself := get?_maybeRoll e (bucket, 2) (bucket, 2) now
  rw [if_pos rfl] at hself
  unfold KEstimator.recordQuotingMinute
  rw [if_neg hdelta]
  dsimp only
  rw [hself]
  dsimp only
  rw [KEstimator.k, Dict.get?_set_self]
  exact kOf_some _

variable [IsStrictOrderedRing K]

/-- The intensity is zero without fills or without minutes. -/
theorem intensity_eq_zero_iff (fills : ℤ) (minutes : K) :
    intensity fills minutes = 0 ↔ fills = 0 ∨ minutes ≤ 0 := by
  unfold intensity
  by_cases h : 0 < minutes
  · rw [if_pos h, div_eq_zero_iff, Int.cast_eq_zero]
    simp [h.ne', h]
  · simp [h, not_lt.mp h]

/-- Two intensities agree when both are zero, or as fractions. -/
theorem intensity_eq_iff (fills fills' : ℤ) (minutes minutes' : K) :
    intensity fills minutes = intensity fills' minutes' ↔
      (fills = 0 ∨ minutes ≤ 0) ∧ (fills' = 0 ∨ minutes' ≤ 0) ∨
        0 < minutes ∧ 0 < minutes' ∧ fills * minutes' = fills' * minutes := by
  by_cases h : 0 < minutes
  · by_cases h' : 0 < minutes'
    · have hfrac : intensity fills minutes = intensity fills' minutes' ↔
          (fills : K) * minutes' = fills' * minutes := by
        rw [intensity, intensity, if_pos h, if_pos h', div_eq_div_iff h.ne' h'.ne']
      rw [hfrac]
      constructor
      · exact fun heq => Or.inr ⟨h, h', heq⟩
      · rintro (⟨hzero | hneg, hzero' | hneg'⟩ | ⟨-, -, heq⟩)
        · rw [hzero, hzero', Int.cast_zero, zero_mul, zero_mul]
        · exact absurd h' (not_lt.mpr hneg')
        · exact absurd h (not_lt.mpr hneg)
        · exact absurd h (not_lt.mpr hneg)
        · exact heq
    · have hzero' := (intensity_eq_zero_iff fills' minutes').mpr (Or.inr (not_lt.mp h'))
      rw [hzero', intensity_eq_zero_iff]
      simp [h', not_lt.mp h']
  · have hzero := (intensity_eq_zero_iff fills minutes).mpr (Or.inr (not_lt.mp h))
    rw [hzero, eq_comm, intensity_eq_zero_iff]
    simp [h, not_lt.mp h]

/-- Minutes that are left out change the intensity, unless it is zero with them. -/
theorem intensity_add_iff (fills : ℤ) (minutes : K) {missing : K} (h : 0 ≤ missing) :
    intensity fills minutes = intensity fills (minutes + missing) ↔
      missing = 0 ∨ fills = 0 ∨ minutes + missing ≤ 0 := by
  rw [intensity_eq_iff]
  constructor
  · rintro (⟨-, hzero⟩ | ⟨-, -, heq⟩)
    · exact Or.inr hzero
    · have hprod : (fills : K) * missing = 0 := by linarith
      rcases mul_eq_zero.mp hprod with hfills | hmissing
      · exact Or.inr (Or.inl (Int.cast_eq_zero.mp hfills))
      · exact Or.inl hmissing
  · rintro (hmissing | hfills | hneg)
    · rw [hmissing, add_zero]
      by_cases hpos : 0 < minutes
      · exact Or.inr ⟨hpos, hpos, rfl⟩
      · exact Or.inl ⟨Or.inr (not_lt.mp hpos), Or.inr (not_lt.mp hpos)⟩
    · exact Or.inl ⟨Or.inl hfills, Or.inl hfills⟩
    · exact Or.inl ⟨Or.inr (by linarith), Or.inr hneg⟩

end Intensity

section Recent

/-- What happened at a time is less than seven days old. -/
def WithinWindow (now s : K) : Prop := now - s < KEstimator.window

instance (now s : K) : Decidable (WithinWindow now s) := inferInstanceAs (Decidable (_ < _))

/-- The warm start, while it is recent. -/
def recentWarm (cell : Option (KCounter K)) (now : K) : Option (KCounter K) :=
  cell.filter fun c => WithinWindow now c.windowStart

/-- The fills of the last seven days, those of the warm start included. -/
def recentFills (cell : Option (KCounter K)) (times : List K) (now : K) : ℤ :=
  (recentWarm cell now).elim 0 KCounter.fillsCount +
    (times.filter fun s => WithinWindow now s).length

/-- The minutes of the last seven days, those of the warm start included. -/
def recentMinutes (cell : Option (KCounter K)) (quoted now : K) : K :=
  (recentWarm cell now).elim 0 KCounter.minutesQuoted + quoted

/-- When a cell that was booted as `cell`, and filled at `times`, has the intensity of the last
seven days, in `quoted` minutes of which its bucket was quoted. -/
def CellMatches (cell : Option (KCounter K)) (times : List K) (quoted now : K) : Prop :=
  match cell with
  | none => quoted = 0 ∨ ∀ s ∈ times, ¬WithinWindow now s
  | some c =>
    if Restarted c times then quoted = 0 ∨ ∀ s ∈ times, ¬WithinWindow now s
    else if WithinWindow now c.windowStart then
      quoted = 0 ∨ c.fillsCount + times.length = 0 ∨ c.minutesQuoted + quoted ≤ 0
    else
      -- the warm start is too old, and is read all the same
      (c.fillsCount + times.length = 0 ∨ c.minutesQuoted ≤ 0) ∧
          (quoted = 0 ∨ ∀ s ∈ times, ¬WithinWindow now s) ∨
        0 < c.minutesQuoted ∧ 0 < quoted ∧
          ((c.fillsCount + times.length : ℤ) : K) * quoted =
            (times.filter fun s => WithinWindow now s).length * c.minutesQuoted

instance (cell : Option (KCounter K)) (times : List K) (quoted now : K) :
    Decidable (CellMatches cell times quoted now) :=
  match cell with
  | none => inferInstanceAs (Decidable (_ ∨ _))
  | some c =>
    inferInstanceAs (Decidable (if Restarted c times then _ else if WithinWindow now c.windowStart
      then _ else _))

variable [IsStrictOrderedRing K] (cell : Option (KCounter K)) (times : List K)
  {quoted now : K}

omit [IsStrictOrderedRing K] in
/-- No fill is counted if none is within the window. -/
theorem recent_length_eq_zero_iff :
    (((times.filter fun s => WithinWindow now s).length : ℕ) : ℤ) = 0 ↔
      ∀ s ∈ times, ¬WithinWindow now s := by
  rw [Int.natCast_eq_zero, List.length_eq_zero_iff, List.filter_eq_nil_iff]
  simp

/-- Without a warm start, or with one that is out of date, and without minutes, the cell reads
zero. -/
theorem zero_eq_recent_iff (hquoted : 0 ≤ quoted) (hwarm : recentWarm cell now = none) :
    0 = intensity (recentFills cell times now) (recentMinutes cell quoted now) ↔
      quoted = 0 ∨ ∀ s ∈ times, ¬WithinWindow now s := by
  rw [eq_comm, intensity_eq_zero_iff, recentFills, recentMinutes, hwarm]
  simp only [Option.elim_none, zero_add]
  rw [recent_length_eq_zero_iff, or_comm]
  refine or_congr_left ?_
  exact ⟨fun h => le_antisymm h hquoted, fun h => h.le⟩

/-- A counter without minutes has the intensity zero. -/
theorem kOf_eq_zero {cell : Option (KCounter K)} (h : ∀ c ∈ cell, c.minutesQuoted = 0) :
    kOf cell = 0 := by
  cases cell with
  | none => rfl
  | some c =>
    rw [kOf_some, intensity_eq_zero_iff]
    exact Or.inr (h c rfl).le

/-- **One cell.** The cell reads the intensity of the last seven days exactly when
`CellMatches`. -/
theorem kOf_afterFills_iff (hquoted : 0 ≤ quoted) (hpast : ∀ s ∈ times, s ≤ now)
    (hwarm : ∀ c ∈ cell, ∀ s ∈ times, c.windowStart ≤ s) :
    kOf (afterFills cell times) =
        intensity (recentFills cell times now) (recentMinutes cell quoted now) ↔
      CellMatches cell times quoted now := by
  cases cell with
  | none =>
    have hzero : kOf (afterFills (none : Option (KCounter K)) times) = 0 :=
      kOf_eq_zero (minutesQuoted_afterFills none times fun c hc => by cases hc)
    rw [hzero]
    exact zero_eq_recent_iff none times hquoted rfl
  | some c =>
    unfold CellMatches
    dsimp only
    by_cases hrestarted : Restarted c times
    · rw [if_pos hrestarted, kOf_eq_zero (minutesQuoted_of_restarted c times hrestarted)]
      refine zero_eq_recent_iff (some c) times hquoted ?_
      obtain ⟨s, hs, hold⟩ := hrestarted
      have hgone : ¬WithinWindow now c.windowStart := by
        rw [WithinWindow, not_lt]
        exact hold.trans (sub_le_sub_right (hpast s hs) _)
      simp [recentWarm, hgone]
    · rw [if_neg hrestarted, afterFills_of_not_restarted c times hrestarted, kOf_some]
      by_cases hrecent : WithinWindow now c.windowStart
      · have hall : (times.filter fun s => WithinWindow now s) = times := by
          rw [List.filter_eq_self]
          intro s hs
          exact decide_eq_true ((sub_le_sub_left (hwarm c rfl s hs) now).trans_lt hrecent)
        rw [if_pos hrecent, recentFills, recentMinutes, hall]
        simp only [recentWarm, Option.filter_some, hrecent, decide_true, if_true,
          Option.elim_some]
        exact intensity_add_iff _ _ hquoted
      · rw [if_neg hrecent, recentFills, recentMinutes]
        simp only [recentWarm, Option.filter_some, hrecent, decide_false, Bool.false_eq_true,
          if_false, Option.elim_none, zero_add]
        rw [intensity_eq_iff, recent_length_eq_zero_iff, Int.cast_natCast]
        have hnone : quoted ≤ 0 ↔ quoted = 0 :=
          ⟨fun h => le_antisymm h hquoted, fun h => h.le⟩
        rw [hnone, or_comm (a := ∀ s ∈ times, ¬WithinWindow now s)]

end Recent

section Run

variable (env : MMDriverEnv K) (g : GlobalMMState K)

/-- When a step fills quotes of a bucket.
SOURCE: paper/mm_driver.py:104-119 -/
def fillTimesOf (bucket : String) (st : MMPaperDriver K) (l : MMLabel K) : List K :=
  match l with
  | .tick d clock fillClock =>
    ((fillsOf (st.handleTick env g d clock fillClock).2).filter fun f =>
      bucketForEstimator f.price = bucket).map fun _ => fillClock
  | .control _ => []

/-- When a run does. -/
def fillTimes (bucket : String) (st : MMPaperDriver K) (ls : List (MMLabel K)) : List K :=
  ((mmMachine env g).observing (fillTimesOf env g bucket)).trace st ls

/-- The strategy has a live quote in the bucket, in some market. -/
def QuotesIn (bucket : String) (m : MMRebate K) : Prop :=
  ∃ quotes ∈ m.liveQuotesByMarket.values, ∃ q ∈ quotes, bucketForEstimator q.price = bucket

instance (bucket : String) : DecidablePred (QuotesIn (K := K) bucket) :=
  fun m => inferInstanceAs (Decidable (∃ quotes ∈ m.liveQuotesByMarket.values, _))

/-- The strategy after its answer to a tick, and after the fills. -/
def strategiesOf (st : MMPaperDriver K) (l : MMLabel K) : List (K × MMRebate K) :=
  match l with
  | .tick d clock fillClock =>
    if st.paused then []
    else
      [(clock, (MMPaperDriver.quoted env g st (tickFromDict d) clock).strategy),
        (fillClock, (st.handleTick env g d clock fillClock).1.strategy)]
  | .control _ => []

/-- The minutes of the last seven days in which the strategy had a live quote in the bucket. -/
def quotedMinutes (bucket : String) (boot : K) (st : MMPaperDriver K) (ls : List (MMLabel K))
    (now : K) : K :=
  timeIn (QuotesIn bucket) (now - KEstimator.window) now
    ((boot, st.strategy) :: ((mmMachine env g).observing (strategiesOf env g)).trace st ls) / 60

/-- The readings of the wall clock in a step. -/
def clocksOf (l : MMLabel K) : List K :=
  match l with
  | .tick _ clock fillClock => [clock, fillClock]
  | .control _ => []

/-- **The fill intensity of a read.** The value a tick reads after a run is the fills over the
minutes of the last seven days, and is zero only without such fills or such minutes. -/
def ReadsIntensity (boot : K) (k : KEstimator K) (paused : Bool) (ls : List (MMLabel K))
    (ctx : TickContext K) (now : K) : Prop :=
  let st := MMPaperDriver.init k paused
  let bucket := bucketForEstimator ctx.impliedProbYes
  let cell := k.counters.get? (bucket, 2)
  let fills := recentFills cell (fillTimes env g bucket st ls) now
  let minutes := recentMinutes cell (quotedMinutes env g bucket boot st ls now) now
  let value := kAt2c ((mmMachine env g).final st ls).strategy ctx
  value = intensity fills minutes ∧ (value = 0 → fills = 0 ∨ minutes ≤ 0)

/-- The fills of a tick are counted in the cells of their buckets.
SOURCE: strategies/polymarket_btc15m/mm_rebate_v1.py:222-225 -/
theorem get?_creditFills (cfg : MMRebateConfig K) (slug bucket : String) (clock : K)
    (m : MMRebate K) (fills : List (LimitFill K)) :
    (creditFills cfg slug clock m fills).1.k.counters.get? (bucket, 2) =
      afterFills (m.k.counters.get? (bucket, 2))
        ((fills.filter fun f => bucketForEstimator f.price = bucket).map fun _ => clock) := by
  induction fills generalizing m with
  | nil => rfl
  | cons f fills ih =>
    have hcredit : (creditFill cfg m slug f clock).k =
        m.k.recordFill (bucketForEstimator f.price) 2 clock := rfl
    rw [creditFills]
    dsimp only
    rw [ih, hcredit, get?_recordFill]
    by_cases hbucket : bucketForEstimator f.price = bucket
    · rw [List.filter_cons_of_pos (by simpa using hbucket), hbucket, if_pos rfl]
      rfl
    · rw [List.filter_cons_of_neg (by simpa using hbucket), if_neg]
      exact fun h => hbucket (Prod.mk.inj h).1.symm

/-- The cell of a bucket after a step.
SOURCE: paper/mm_driver.py:67-135 -/
theorem get?_next (bucket : String) (st : MMPaperDriver K) (l : MMLabel K) :
    ((mmMachine env g).next st l).strategy.k.counters.get? (bucket, 2) =
      afterFills (st.strategy.k.counters.get? (bucket, 2)) (fillTimesOf env g bucket st l) := by
  cases l with
  | control msg => cases msg <;> rfl
  | tick d clock fillClock =>
    change (st.handleTick env g d clock fillClock).1.strategy.k.counters.get? (bucket, 2) = _
    have hk : (MMPaperDriver.quoted env g st (tickFromDict d) clock).strategy.k = st.strategy.k :=
      st.strategy.k_onTick env.toMMEnv (tickFromDict d) clock
    have hnone : fillsOf (MMPaperDriver.sent env g st (tickFromDict d) clock).events = [] :=
      fillsOf_dispatchAll env g _ _ _
    rw [fillTimesOf]
    rcases handleTick_cases env g st d clock fillClock with
      ⟨-, htick⟩ | ⟨-, ⟨e, -, htick⟩ | ⟨-, htick⟩⟩
    · rw [htick]
      rfl
    · rw [htick, fillsOf_append, hnone, hk]
      rfl
    · rw [htick, fillsOf_append, fillsOf_append, hnone]
      dsimp only
      by_cases hmatched : TickContext.Matched (tickFromDict d)
      · rw [MMPaperDriver.matchTick_of_matched _ _ _ _ hmatched, fillsOf_append,
          fillsOf_expired, fillsOf_creditFills]
        dsimp only
        rw [get?_creditFills, hk]
        simp [fillsOf]
      · rw [MMPaperDriver.matchTick, if_neg hmatched, hk]
        rfl

/-- The cell of a bucket after a run is the cell of the boot with the fills of the run.
SOURCE: paper/mm_driver.py:67-135 -/
theorem counters_final (bucket : String) (st : MMPaperDriver K) (ls : List (MMLabel K)) :
    ((mmMachine env g).final st ls).strategy.k.counters.get? (bucket, 2) =
      afterFills (st.strategy.k.counters.get? (bucket, 2)) (fillTimes env g bucket st ls) := by
  induction ls using List.reverseRecOn with
  | nil => rfl
  | append_singleton ls l ih =>
    rw [Machine.final_concat, get?_next, ih, fillTimes, fillTimes, Machine.trace_concat,
      Machine.emits_observing, Machine.final_observing, afterFills, afterFills, afterFills,
      List.foldl_append]

/-- A run fills when its clock is read. -/
theorem mem_clocks_of_mem_fillTimes {bucket : String} {st : MMPaperDriver K}
    {ls : List (MMLabel K)} {s : K} (h : s ∈ fillTimes env g bucket st ls) :
    s ∈ ls.flatMap clocksOf := by
  obtain ⟨pre, l, post, rfl, hs⟩ := (Machine.mem_trace_iff _ s st ls).mp h
  rw [Machine.emits_observing] at hs
  refine List.mem_flatMap.mpr ⟨l, by simp, ?_⟩
  cases l with
  | control msg => cases hs
  | tick d clock fillClock =>
    obtain ⟨f, -, rfl⟩ := List.mem_map.mp hs
    exact List.mem_cons_of_mem _ List.mem_cons_self

variable [IsStrictOrderedRing K]

/-- **The intensity of every read.** After any run whose clock does not go back, from any warm
start that was made before the boot, a tick reads the fill intensity of the last seven days
exactly when the cell of its bucket matches the fills and the quoted minutes of the run.
SOURCE: strategies/polymarket_btc15m/_k_estimator.py:81-132, paper/mm_driver.py:98-135 -/
theorem readsIntensity_iff (boot : K) (k : KEstimator K) (paused : Bool)
    (ls : List (MMLabel K)) (ctx : TickContext K) (now : K)
    (hclocks : (boot :: (ls.flatMap clocksOf ++ [now])).Pairwise (· ≤ ·))
    (hwarm : ∀ key c, k.counters.get? key = some c → c.windowStart ≤ boot) :
    ReadsIntensity env g boot k paused ls ctx now ↔
      CellMatches (k.counters.get? (bucketForEstimator ctx.impliedProbYes, 2))
        (fillTimes env g (bucketForEstimator ctx.impliedProbYes) (MMPaperDriver.init k paused) ls)
        (quotedMinutes env g (bucketForEstimator ctx.impliedProbYes) boot
          (MMPaperDriver.init k paused) ls now) now := by
  set bucket := bucketForEstimator ctx.impliedProbYes with hbucket
  set st := MMPaperDriver.init k paused with hst
  have hquoted : 0 ≤ quotedMinutes env g bucket boot st ls now :=
    div_nonneg (timeIn_nonneg _ _ _ _) (by norm_num)
  obtain ⟨hboot, hsorted⟩ := List.pairwise_cons.mp hclocks
  have hpast : ∀ s ∈ fillTimes env g bucket st ls, s ≤ now := by
    intro s hs
    exact (List.pairwise_append.mp hsorted).2.2 s (mem_clocks_of_mem_fillTimes env g hs) now
      (List.mem_singleton_self now)
  have hstart : ∀ c ∈ k.counters.get? (bucket, 2), ∀ s ∈ fillTimes env g bucket st ls,
      c.windowStart ≤ s := by
    intro c hc s hs
    exact (hwarm _ c hc).trans
      (hboot s (List.mem_append_left _ (mem_clocks_of_mem_fillTimes env g hs)))
  have hvalue : kAt2c ((mmMachine env g).final st ls).strategy ctx =
      kOf (afterFills (k.counters.get? (bucket, 2)) (fillTimes env g bucket st ls)) := by
    change kOf (((mmMachine env g).final st ls).strategy.k.counters.get? (bucket, 2)) = _
    rw [counters_final]
    rfl
  rw [← kOf_afterFills_iff _ _ hquoted hpast hstart, ← hvalue]
  refine and_iff_left_of_imp fun heq hzero => ?_
  rw [heq, intensity_eq_zero_iff] at hzero
  exact hzero

end Run

section Instance

/-- The warm start of the engine, made at a time.
SOURCE: cli/paper_engine.py:121-127 -/
def engineWarmStart (now : ℚ) : KEstimator ℚ :=
  (⟨Dict.empty⟩ : KEstimator ℚ).warmStart "0.30-0.40" 2 28 60 now

/-- After a warm start every window starts at the boot or before. -/
theorem windowStart_engineWarmStart (boot : ℚ) (key : String × ℤ) (c : KCounter ℚ)
    (h : (engineWarmStart boot).counters.get? key = some c) : c.windowStart ≤ boot := by
  rw [engineWarmStart, KEstimator.warmStart, Dict.get?_set] at h
  split at h
  · exact (Option.some.inj h) ▸ le_rfl
  · cases h

/-- A tick too early in its window to quote, and a minute later one that reads the warm start. -/
theorem readsIntensity_unquoted :
    ReadsIntensity (btc15mEnv [] 0 75) (GlobalMMState.init 3500 350) 1000 (engineWarmStart 1000)
      false [.tick (btcTick 1000 10 (7 / 20)) 1000 1000] (tickFromDict (btcTick 1060 70 (7 / 20)))
      1060 :=
  (readsIntensity_iff _ _ 1000 _ _ _ _ _ (by decide +kernel)
    (windowStart_engineWarmStart 1000)).mpr (by decide +kernel)

/-- Two quotes of the bucket rest for a minute, and the next tick reads the intensity of the
warm start, as if there had been no such minute. -/
theorem not_readsIntensity_quoted :
    ¬∀ (env : MMDriverEnv ℚ) (g : GlobalMMState ℚ) (boot : ℚ) (k : KEstimator ℚ) (paused : Bool)
      (ls : List (MMLabel ℚ)) (ctx : TickContext ℚ) (now : ℚ),
      (boot :: (ls.flatMap clocksOf ++ [now])).Pairwise (· ≤ ·) →
      (∀ key c, k.counters.get? key = some c → c.windowStart ≤ boot) →
      ((mmMachine env g).final (MMPaperDriver.init k paused) ls).paused = false →
      ((mmMachine env g).final (MMPaperDriver.init k paused) ls).strategy.Quotes env.toMMEnv ctx
        now →
      ReadsIntensity env g boot k paused ls ctx now := by
  intro h
  have hreads := h (btc15mEnv [91 / 400] 0 75) (GlobalMMState.init 3500 350) 1000
    (engineWarmStart 1000) false [.tick (btcTick 1000 (2781 / 4) (7 / 20)) 1000 1000]
    (tickFromDict (btcTick 1060 (3021 / 4) (7 / 20))) 1060 (by decide +kernel)
    (windowStart_engineWarmStart 1000) (by decide +kernel) (by decide +kernel)
  -- twenty eight, not 1680 fills over 61 minutes
  exact absurd hreads.1 (by decide +kernel)

end Instance

end TradingEdge.Analysis
