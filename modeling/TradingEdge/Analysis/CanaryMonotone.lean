import TradingEdge.Library.SlidingWindow
import TradingEdge.Program.TakerFeeCanary

/-!
# The canary under worse records

After any sequence of calls the deques of the canary hold exactly the records of the window that
ends at the last call (`canaryAfter_concat`), so that its ratio is that of two sums over the window.
Higher fees and lower profits only raise the ratio while the profits of the window stay positive.
At zero profits the ratio is taken as zero, and a canary that was breached is not breached any more.
-/

set_option autoImplicit false

namespace TradingEdge.Analysis

open TradingEdge.Library TradingEdge.Program

variable {K : Type} [Field K] [LinearOrder K]

/-! ## The deques -/

omit [Field K] [LinearOrder K] in
/-- What the calls of a method have recorded. -/
def recordedBy (method : CanaryMethod) (calls : List (CanaryCall K)) : List (K × K) :=
  (calls.filter fun c => c.method = method).map fun c => (c.now, c.usdc)

/-- The calls are made in the order of their times. -/
def RecordsInOrder (calls : List (CanaryCall K)) : Prop := calls.Pairwise fun c c' => c.now ≤ c'.now

/-- The sum of what a method has recorded within the window that ends at the last call.
SOURCE: engine/mm_safety.py:188-198 -/
def windowSum (params : CanaryParams K) (method : CanaryMethod) (calls : List (CanaryCall K)) : K :=
  match calls.getLast? with
  | none => 0
  | some last =>
    ((calls.filter fun c => c.method = method ∧ last.now - params.span ≤ c.now).map
      CanaryCall.usdc).sum

omit [Field K] [LinearOrder K] in
/-- What a method has recorded after one more call. -/
theorem recordedBy_concat (method : CanaryMethod) (calls : List (CanaryCall K))
    (c : CanaryCall K) :
    recordedBy method (calls ++ [c]) =
      recordedBy method calls ++ if c.method = method then [(c.now, c.usdc)] else [] := by
  unfold recordedBy
  rw [List.filter_append, List.map_append, List.filter_singleton]
  by_cases h : c.method = method
  · rw [decide_eq_true h, if_pos h]
    rfl
  · rw [decide_eq_false h, if_neg h]
    rfl

omit [Field K] in
/-- The records of a method are in order. -/
theorem RecordsInOrder.recordedBy {calls : List (CanaryCall K)} (h : RecordsInOrder calls)
    (method : CanaryMethod) :
    (recordedBy method calls).Pairwise fun e e' => e.1 ≤ e'.1 := by
  rw [Analysis.recordedBy, List.pairwise_map]
  exact h.filter _

/-- The deques that hold the records of the window that ends at `now`. -/
def canaryWindow (params : CanaryParams K) (now : K) (calls : List (CanaryCall K)) :
    TakerFeeCanary K where
  takerFeePaidUsdc := recentBy Prod.fst params.span now (recordedBy .takerFeePaid calls)
  pnlGrossUsdc := recentBy Prod.fst params.span now (recordedBy .pnlGross calls)

variable [IsStrictOrderedRing K]

/-- One call cuts both deques and puts its record into one. -/
theorem record_canaryWindow (params : CanaryParams K) {earlier : K}
    {calls : List (CanaryCall K)} {c : CanaryCall K} (hle : earlier ≤ c.now)
    (horder : RecordsInOrder (calls ++ [c])) :
    (canaryWindow params earlier calls).record params c =
      canaryWindow params c.now (calls ++ [c]) := by
  have hcut (method : CanaryMethod) :
      (recentBy Prod.fst params.span earlier (recordedBy method calls) ++
          if c.method = method then [(c.now, c.usdc)] else []).dropWhile
        (fun e => e.1 < c.now - params.span) =
      recentBy Prod.fst params.span c.now (recordedBy method (calls ++ [c])) := by
    have hpairs := horder.recordedBy method
    rw [recordedBy_concat] at hpairs ⊢
    exact dropWhile_append_eq_recentBy Prod.fst hle hpairs
  have hfee := hcut .takerFeePaid
  have hgross := hcut .pnlGross
  unfold TakerFeeCanary.record
  cases hmethod : c.method with
  | takerFeePaid =>
    rw [hmethod, if_pos rfl] at hfee
    rw [hmethod, if_neg (by decide), List.append_nil] at hgross
    unfold canaryWindow
    rw [← hfee, ← hgross]
    rfl
  | pnlGross =>
    rw [hmethod, if_neg (by decide), List.append_nil] at hfee
    rw [hmethod, if_pos rfl] at hgross
    unfold canaryWindow
    rw [← hfee, ← hgross]
    rfl

/-- **The deques.**  After any calls they hold the records of the window of the last one. -/
theorem canaryAfter_concat (params : CanaryParams K) {calls : List (CanaryCall K)}
    {c : CanaryCall K} (horder : RecordsInOrder (calls ++ [c])) :
    canaryAfter params (calls ++ [c]) = canaryWindow params c.now (calls ++ [c]) := by
  induction calls using List.reverseRecOn generalizing c with
  | nil => exact record_canaryWindow params le_rfl horder
  | append_singleton calls c' ih =>
    obtain ⟨hbefore, -, hlast⟩ := List.pairwise_append.mp horder
    have hle : c'.now ≤ c.now := hlast c' (by simp) c (List.mem_singleton_self c)
    have hstep : canaryAfter params (calls ++ [c'] ++ [c]) =
        (canaryAfter params (calls ++ [c'])).record params c := by
      rw [canaryAfter, List.foldl_append]
      rfl
    rw [hstep, ih hbefore, record_canaryWindow params hle horder]

/-! ## The breach -/

omit [IsStrictOrderedRing K] in
/-- The sum of the recent records is that of the window. -/
theorem sum_recentBy_recordedBy (params : CanaryParams K) (method : CanaryMethod)
    (calls : List (CanaryCall K)) (c : CanaryCall K) :
    ((recentBy Prod.fst params.span c.now (recordedBy method (calls ++ [c]))).map Prod.snd).sum =
      windowSum params method (calls ++ [c]) := by
  rw [windowSum, List.getLast?_append, List.getLast?_singleton, Option.some_or, recentBy,
    recordedBy, List.filter_map, List.map_map, List.filter_filter]
  congr 2
  apply List.filter_congr
  intro c' _
  rw [Bool.eq_iff_iff, Bool.and_eq_true, Function.comp_apply, decide_eq_true_eq, decide_eq_true_eq,
    decide_eq_true_eq]
  exact and_comm

/-- The canary by the sums over the window. -/
theorem canaryBreached_iff (params : CanaryParams K) {calls : List (CanaryCall K)}
    (horder : RecordsInOrder calls) :
    (canaryAfter params calls).canaryBreached params = true ↔
      (windowSum params .pnlGross calls ≤ 0 ∧ params.takerFeeCanaryPct < 0) ∨
      (0 < windowSum params .pnlGross calls ∧
        params.takerFeeCanaryPct * windowSum params .pnlGross calls <
          windowSum params .takerFeePaid calls) := by
  have hratio : (canaryAfter params calls).canaryRatio =
      if windowSum params .pnlGross calls ≤ 0 then 0
      else windowSum params .takerFeePaid calls / windowSum params .pnlGross calls := by
    rcases List.eq_nil_or_concat calls with rfl | ⟨calls, c, rfl⟩
    · simp [canaryAfter, TakerFeeCanary.init, TakerFeeCanary.canaryRatio, windowSum]
    · rw [List.concat_eq_append] at horder ⊢
      rw [canaryAfter_concat params horder, TakerFeeCanary.canaryRatio, canaryWindow]
      simp only [sum_recentBy_recordedBy]
  rw [TakerFeeCanary.canaryBreached, hratio, decide_eq_true_eq]
  split
  · next hgross => simp [hgross, hgross.not_gt]
  · next hgross => rw [lt_div_iff₀ (not_le.mp hgross)]; simp [hgross, not_le.mp hgross]

/-! ## Worse records -/

/-- The same call with a higher fee or a lower profit. -/
structure Degrades (c c' : CanaryCall K) : Prop where
  method : c'.method = c.method
  now : c'.now = c.now
  fee : c.method = .takerFeePaid → c.usdc ≤ c'.usdc
  gross : c.method = .pnlGross → c'.usdc ≤ c.usdc

omit [Field K] [IsStrictOrderedRing K] in
/-- Worse calls come in the same order. -/
theorem RecordsInOrder.degraded {calls calls' : List (CanaryCall K)} (horder : RecordsInOrder calls)
    (h : List.Forall₂ Degrades calls calls') : RecordsInOrder calls' := by
  have htimes : calls'.map CanaryCall.now = calls.map CanaryCall.now := by
    induction h with
    | nil => rfl
    | cons hc _ ih =>
      rw [List.map_cons, List.map_cons, hc.now, ih (List.pairwise_cons.mp horder).2]
  have hsorted : (calls.map CanaryCall.now).Pairwise (· ≤ ·) := List.pairwise_map.mpr horder
  rw [← htimes] at hsorted
  exact List.pairwise_map.mp hsorted

/-- The worse calls recorded no lower fees and no higher profits since any time. -/
theorem sum_filter_degraded {calls calls' : List (CanaryCall K)}
    (h : List.Forall₂ Degrades calls calls') (cutoff : K) :
    ((calls.filter fun c => c.method = .takerFeePaid ∧ cutoff ≤ c.now).map CanaryCall.usdc).sum ≤
      ((calls'.filter fun c => c.method = .takerFeePaid ∧ cutoff ≤ c.now).map
        CanaryCall.usdc).sum ∧
    ((calls'.filter fun c => c.method = .pnlGross ∧ cutoff ≤ c.now).map CanaryCall.usdc).sum ≤
      ((calls.filter fun c => c.method = .pnlGross ∧ cutoff ≤ c.now).map CanaryCall.usdc).sum := by
  induction h with
  | nil => exact ⟨le_rfl, le_rfl⟩
  | @cons c c' calls calls' hc _ ih =>
    simp only [List.filter_cons, hc.method, hc.now, decide_eq_true_eq]
    constructor
    · split
      · next hkept => exact add_le_add (hc.fee hkept.1) ih.1
      · exact ih.1
    · split
      · next hkept => exact add_le_add (hc.gross hkept.1) ih.2
      · exact ih.2

/-- Worse calls pay more fees and earn less. -/
theorem windowSum_degraded (params : CanaryParams K) {calls calls' : List (CanaryCall K)}
    (h : List.Forall₂ Degrades calls calls') :
    windowSum params .takerFeePaid calls ≤ windowSum params .takerFeePaid calls' ∧
      windowSum params .pnlGross calls' ≤ windowSum params .pnlGross calls := by
  have hlast : calls'.getLast?.map CanaryCall.now = calls.getLast?.map CanaryCall.now := by
    rw [← List.getLast?_map, ← List.getLast?_map]
    congr 1
    clear params
    induction h with
    | nil => rfl
    | cons hc _ ih => rw [List.map_cons, List.map_cons, hc.now, ih]
  unfold windowSum
  cases hcalls : calls.getLast? with
  | none =>
    rw [hcalls, Option.map_none, Option.map_eq_none_iff] at hlast
    rw [hlast]
    exact ⟨le_rfl, le_rfl⟩
  | some last =>
    rw [hcalls, Option.map_some, Option.map_eq_some_iff] at hlast
    obtain ⟨last', hlast', hnow⟩ := hlast
    rw [hlast']
    simp only [hnow]
    exact sum_filter_degraded h (last.now - params.span)

/-- **The canary under worse records.**  A breached canary stays breached under higher fees and
lower profits, over any calls in order, if and only if the profits of the window stay positive; for
a negative limit, if and only if the fees still exceed what it makes of positive profits. -/
theorem breach_persists_iff (params : CanaryParams K) {calls calls' : List (CanaryCall K)}
    (horder : RecordsInOrder calls) (h : List.Forall₂ Degrades calls calls') :
    ((canaryAfter params calls).canaryBreached params = true →
        (canaryAfter params calls').canaryBreached params = true) ↔
      (0 ≤ params.takerFeeCanaryPct → 0 < windowSum params .pnlGross calls →
        params.takerFeeCanaryPct * windowSum params .pnlGross calls <
          windowSum params .takerFeePaid calls →
        0 < windowSum params .pnlGross calls') ∧
      (params.takerFeeCanaryPct < 0 → 0 < windowSum params .pnlGross calls' →
        params.takerFeeCanaryPct * windowSum params .pnlGross calls <
          windowSum params .takerFeePaid calls →
        params.takerFeeCanaryPct * windowSum params .pnlGross calls' <
          windowSum params .takerFeePaid calls') := by
  obtain ⟨hfees, hgross⟩ := windowSum_degraded params h
  rw [canaryBreached_iff params horder, canaryBreached_iff params (horder.degraded h)]
  constructor
  · intro hpersists
    constructor
    · intro hpct hpos hexceeds
      rcases hpersists (.inr ⟨hpos, hexceeds⟩) with ⟨-, hneg⟩ | ⟨hpos', -⟩
      · exact absurd hpct hneg.not_ge
      · exact hpos'
    · intro hpct hpos' hexceeds
      rcases hpersists (.inr ⟨hpos'.trans_le hgross, hexceeds⟩) with ⟨hle, -⟩ | ⟨-, hexceeds'⟩
      · exact absurd hpos' hle.not_gt
      · exact hexceeds'
  · rintro ⟨hstays, hnegative⟩ (⟨hle, hpct⟩ | ⟨hpos, hexceeds⟩)
    · exact .inl ⟨hgross.trans hle, hpct⟩
    · rcases lt_or_ge params.takerFeeCanaryPct 0 with hpct | hpct
      · rcases le_or_gt (windowSum params .pnlGross calls') 0 with hle' | hpos'
        · exact .inl ⟨hle', hpct⟩
        · exact .inr ⟨hpos', hnegative hpct hpos' hexceeds⟩
      · refine .inr ⟨hstays hpct hpos hexceeds, ?_⟩
        calc params.takerFeeCanaryPct * windowSum params .pnlGross calls'
            ≤ params.takerFeeCanaryPct * windowSum params .pnlGross calls :=
              mul_le_mul_of_nonneg_left hgross hpct
          _ < windowSum params .takerFeePaid calls := hexceeds
          _ ≤ windowSum params .takerFeePaid calls' := hfees

/-! ## Through zero -/

/-- The limits of the configuration. -/
def canaryLimits : CanaryParams ℚ := ⟨1 / 20, 7⟩

/-- A profit and a fee a second later. -/
def profitThenFee (gross : ℚ) : List (CanaryCall ℚ) :=
  [⟨.pnlGross, gross, 0⟩, ⟨.takerFeePaid, 10, 1⟩]

/-- Ten dollars of fees flag a profit of a hundred dollars, and no longer a loss of five. -/
theorem not_breach_persists_through_zero :
    ¬ ∀ (params : CanaryParams ℚ) (calls calls' : List (CanaryCall ℚ)),
      RecordsInOrder calls →
      (∃ c ∈ calls, c.method = .pnlGross ∧
        ∀ last ∈ calls.getLast?, last.now - params.span ≤ c.now) →
      List.Forall₂ Degrades calls calls' →
      (canaryAfter params calls).canaryBreached params = true →
      (canaryAfter params calls').canaryBreached params = true := by
  intro hall
  have horder : RecordsInOrder (profitThenFee 100) := by
    simp [RecordsInOrder, profitThenFee]
  have hdegrades : List.Forall₂ Degrades (profitThenFee 100) (profitThenFee (-5)) := by
    refine .cons ⟨rfl, rfl, by simp, fun _ => by norm_num⟩ (.cons ?_ .nil)
    exact ⟨rfl, rfl, fun _ => le_rfl, by simp⟩
  have hrecorded : ∃ c ∈ profitThenFee 100, c.method = .pnlGross ∧
      ∀ last ∈ (profitThenFee 100).getLast?, last.now - canaryLimits.span ≤ c.now := by
    refine ⟨⟨.pnlGross, 100, 0⟩, List.mem_cons_self, rfl, ?_⟩
    rintro last ⟨⟩
    decide +kernel
  have hflagged := hall canaryLimits (profitThenFee 100) (profitThenFee (-5)) horder hrecorded
    hdegrades (by decide +kernel)
  exact absurd hflagged (by decide +kernel)

/-- A profit that shrinks but stays positive stays flagged. -/
theorem breach_persists_forty :
    (canaryAfter canaryLimits (profitThenFee 40)).canaryBreached canaryLimits = true := by
  have horder : RecordsInOrder (profitThenFee 100) := by
    simp [RecordsInOrder, profitThenFee]
  have hdegrades : List.Forall₂ Degrades (profitThenFee 100) (profitThenFee 40) := by
    refine .cons ⟨rfl, rfl, by simp, fun _ => by norm_num⟩ (.cons ?_ .nil)
    exact ⟨rfl, rfl, fun _ => le_rfl, by simp⟩
  have hpositive : 0 < windowSum canaryLimits .pnlGross (profitThenFee 40) := by decide +kernel
  have hlimit : ¬ canaryLimits.takerFeeCanaryPct < 0 := by decide +kernel
  exact (breach_persists_iff canaryLimits horder hdegrades).mpr
    ⟨fun _ _ _ => hpositive, fun hneg => absurd hneg hlimit⟩ (by decide +kernel)

end TradingEdge.Analysis
