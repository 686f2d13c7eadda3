import Mathlib.Tactic.Linarith
import Mathlib.Tactic.NormNum
import TradingEdge.Program.FoldVerdicts

/-!
# The summary of the folds

The summary does not depend on the order of the folds, but for which of several most frequent
verdicts is elected where the table of priorities has none of them.  The table has no place for a
fold that failed.  Such a fold counts among the folds, and not among the figures whose median is
taken: it is as if the median and the total were taken without the fold it stands for
(`raised_iff`).  All this is in exact arithmetic; sums of doubles depend on the order
(`not_promotes_stableFolds`).
-/

set_option autoImplicit false

namespace TradingEdge.Analysis

open TradingEdge.Library TradingEdge.Program

/-! ## The table of priorities -/

/-- A verdict that the table has. -/
def Prioritised (v : String) : Prop := v ∈ verdictPriorities.map Prod.fst

/-- A verdict outside the table has the priority 9. -/
theorem verdictPriority_of_not_prioritised {v : String} (h : ¬Prioritised v) :
    verdictPriority v = 9 := by
  rw [verdictPriority, lookup_eq_none_of_notMem h, Option.getD_none]

/-- A verdict of the table has the priority that the table gives it. -/
theorem mem_verdictPriorities {v : String} (h : Prioritised v) :
    (v, verdictPriority v) ∈ verdictPriorities := by
  have htable : ∀ e ∈ verdictPriorities, (e.1, verdictPriority e.1) ∈ verdictPriorities := by
    decide
  obtain ⟨e, he, rfl⟩ := List.mem_map.mp h
  exact htable e he

/-- The verdicts of the table come before all others. -/
theorem verdictPriority_lt_iff {v : String} : verdictPriority v < 9 ↔ Prioritised v := by
  have htable : ∀ e ∈ verdictPriorities, e.2 < 9 := by decide
  constructor
  · intro hlt
    by_contra hnot
    have := verdictPriority_of_not_prioritised hnot
    omega
  · intro h
    exact htable _ (mem_verdictPriorities h)

/-- No two of them have the same priority. -/
theorem eq_of_verdictPriority_eq {v w : String} (hv : Prioritised v) (hw : Prioritised w)
    (h : verdictPriority v = verdictPriority w) : v = w := by
  have htable : ∀ e ∈ verdictPriorities, ∀ e' ∈ verdictPriorities, e.2 = e'.2 → e.1 = e'.1 := by
    decide
  exact htable _ (mem_verdictPriorities hv) _ (mem_verdictPriorities hw) h

/-- One of the most frequent verdicts is in the table, or there is only one. -/
def TieListed (verdicts : List String) : Prop :=
  (∃ v ∈ plurality verdicts, Prioritised v) ∨
    ∀ v ∈ plurality verdicts, ∀ w ∈ plurality verdicts, v = w

/-- That leaves one verdict to elect. -/
theorem tieListed_iff (verdicts : List String) :
    TieListed verdicts ↔
      ∀ v w, Leads verdictPriority verdicts v → Leads verdictPriority verdicts w → v = w := by
  constructor
  · rintro (⟨u, hu, hlisted⟩ | hone) v w ⟨hv, hvleast⟩ ⟨hw, hwleast⟩
    · have hulow := verdictPriority_lt_iff.mpr hlisted
      have hvlow := verdictPriority_lt_iff.mp (lt_of_le_of_lt (hvleast u hu) hulow)
      have hwlow := verdictPriority_lt_iff.mp (lt_of_le_of_lt (hwleast u hu) hulow)
      exact eq_of_verdictPriority_eq hvlow hwlow (le_antisymm (hvleast w hw) (hwleast v hv))
    · exact hone v hv w hw
  · intro h
    by_cases hlisted : ∃ v ∈ plurality verdicts, Prioritised v
    · exact Or.inl hlisted
    · have hleads : ∀ v ∈ plurality verdicts, Leads verdictPriority verdicts v := by
        intro v hv
        refine ⟨hv, fun w hw => ?_⟩
        rw [verdictPriority_of_not_prioritised fun hpv => hlisted ⟨v, hv, hpv⟩,
          verdictPriority_of_not_prioritised fun hpw => hlisted ⟨w, hw, hpw⟩]
      exact Or.inr fun v hv w hw => h v w (hleads v hv) (hleads w hw)

/-! ## The order of the folds -/

section Order

variable {K : Type} [Field K] [LinearOrder K] {folds folds' : List (FoldResult K)}

omit [Field K] [LinearOrder K] in
/-- The verdicts of folds in another order. -/
theorem verdictsOf_perm (h : folds'.Perm folds) : (verdictsOf folds').Perm (verdictsOf folds) :=
  h.map _

omit [Field K] [LinearOrder K] in
/-- The number of stable folds does not depend on the order. -/
theorem nStable_perm (h : folds'.Perm folds) : nStable folds' = nStable folds :=
  (verdictsOf_perm h).count_eq _

omit [LinearOrder K] in
/-- Nor does their share. -/
theorem stabilityIndex_perm (h : folds'.Perm folds) :
    stabilityIndex folds' = stabilityIndex folds := by
  rw [stabilityIndex, stabilityIndex, nStable_perm h, h.length_eq]

/-- The median of the AUCs does not depend on the order. -/
theorem median_aucsOf_perm (h : folds'.Perm folds) :
    median (aucsOf folds') = median (aucsOf folds) := median_perm (h.filterMap _)

/-- The median of the pnls does not depend on the order. -/
theorem median_pnlsOf_perm (h : folds'.Perm folds) :
    median (pnlsOf folds') = median (pnlsOf folds) := median_perm (h.filterMap _)

omit [LinearOrder K] in
/-- The exact total does not depend on the order. -/
theorem totalPnlOos_perm (h : folds'.Perm folds) : totalPnlOos folds' = totalPnlOos folds := by
  rw [totalPnlOos, totalPnlOos, leftSum_eq_sum, leftSum_eq_sum]
  exact (h.filterMap _).sum_eq

/-- So the recommendation does not depend on the order. -/
theorem recommendation_perm (h : folds'.Perm folds) :
    recommendation folds' = recommendation folds := by
  have hpromotes : Promotes folds' ↔ Promotes folds := by
    rw [Promotes, Promotes, stabilityIndex_perm h, median_aucsOf_perm h]
  have hsoaks : Soaks folds' ↔ Soaks folds := by
    rw [Soaks, Soaks, stabilityIndex_perm h, totalPnlOos_perm h]
  simp only [recommendation, h.length_eq, hpromotes, hsoaks]

variable [FloorRing K]

/-- All but the dominant verdict is the same in every order of the folds. -/
theorem aggregateVerdicts_perm (h : folds'.Perm folds) :
    aggregateVerdicts folds' = aggregateVerdicts folds ↔
      elected verdictPriority (verdictsOf folds') = elected verdictPriority (verdictsOf folds) := by
  by_cases hnil : folds = []
  · subst hnil
    rw [h.eq_nil]
    simp
  · have hnil' : folds' ≠ [] := by
      rintro rfl
      exact hnil h.nil_eq.symm
    obtain ⟨v, hv⟩ := exists_elected verdictPriority
      (mt List.map_eq_nil_iff.mp hnil : verdictsOf folds ≠ [])
    obtain ⟨v', hv'⟩ := exists_elected verdictPriority
      (mt List.map_eq_nil_iff.mp hnil' : verdictsOf folds' ≠ [])
    rw [aggregateVerdicts, aggregateVerdicts, if_neg hnil, if_neg hnil']
    simp [h.length_eq, nStable_perm h, stabilityIndex_perm h, median_aucsOf_perm h,
      median_pnlsOf_perm h, totalPnlOos_perm h, recommendation_perm h, dominantVerdict, hv, hv']

/-- **Order independence.**  In exact arithmetic the summary is the same in every order of the folds
exactly when the tie between the most frequent verdicts is one for the table. -/
theorem aggregateVerdicts_perm_iff (folds : List (FoldResult K)) :
    (∀ folds', folds'.Perm folds → aggregateVerdicts folds' = aggregateVerdicts folds) ↔
      TieListed (verdictsOf folds) := by
  rw [tieListed_iff, verdictsOf, ← elected_perm_iff]
  exact forall₂_congr fun folds' hperm => aggregateVerdicts_perm hperm

end Order

/-! ## The worst verdict -/

/-- The verdicts from the worst on, with a place for a fold that failed. -/
def severities : List (String × ℕ) :=
  [("drift", 0), ("unstable_aucs", 1), ("unvalidated_small_sample", 2), ("no_model_auc", 3),
    ("error", 4), ("stable", 5), ("unknown", 6)]

/-- The worse a verdict, the lower. -/
def severity (v : String) : ℕ := (severities.lookup v).getD 9

/-- Among the most frequent verdicts, a failed fold is alone or outranked. -/
def ErrorOutranked (verdicts : List String) : Prop :=
  "error" ∈ plurality verdicts → (∀ v ∈ plurality verdicts, v = "error") ∨
    ∃ v ∈ plurality verdicts, severity v < severity "error"

/-- Without the failed folds the order is that of the table. -/
theorem severity_eq {v : String} (h : v ≠ "error") :
    severity v = if verdictPriority v ≤ 3 then verdictPriority v
      else if verdictPriority v ≤ 5 then verdictPriority v + 1 else 9 := by
  by_cases hlisted : Prioritised v
  · have htable : ∀ e ∈ verdictPriorities, severity e.1 =
        if verdictPriority e.1 ≤ 3 then verdictPriority e.1
        else if verdictPriority e.1 ≤ 5 then verdictPriority e.1 + 1 else 9 := by decide
    obtain ⟨e, he, rfl⟩ := List.mem_map.mp hlisted
    exact htable e he
  · have hplaces : ∀ w ∈ severities.map Prod.fst,
        w = "error" ∨ w ∈ verdictPriorities.map Prod.fst := by decide
    have hplaceless : v ∉ severities.map Prod.fst := by
      intro hv
      exact (hplaces v hv).elim h hlisted
    rw [severity, lookup_eq_none_of_notMem hplaceless, verdictPriority_of_not_prioritised hlisted]
    simp

/-- Two verdicts other than `error` stand in the order of the table. -/
theorem severity_le {v w : String} (hv : v ≠ "error") (hw : w ≠ "error")
    (h : verdictPriority v ≤ verdictPriority w) : severity v ≤ severity w := by
  rw [severity_eq hv, severity_eq hw]
  split_ifs <;> omega

/-- Worse than a failed fold are the first four of the table. -/
theorem severity_lt_error_iff {v : String} (h : v ≠ "error") :
    severity v < severity "error" ↔ verdictPriority v ≤ 3 := by
  have hfour : severity "error" = 4 := by decide
  rw [hfour, severity_eq h]
  split_ifs <;> omega

/-- **The dominant verdict** is the worst of the most frequent ones. -/
theorem dominantVerdict_leads {verdicts : List String} (hne : verdicts ≠ [])
    (herror : ErrorOutranked verdicts) : Leads severity verdicts (dominantVerdict verdicts) := by
  have hnine : verdictPriority "error" = 9 := by decide
  obtain ⟨d, hd⟩ := exists_elected verdictPriority hne
  obtain ⟨hmem, hleast⟩ := leads_of_elected hd
  -- with an error among them, one that is worse comes before all others
  have hworse : ∀ v ∈ plurality verdicts, severity v < severity "error" →
      v ≠ "error" ∧ verdictPriority d ≤ 3 := by
    intro v hv hlt
    have hve : v ≠ "error" := by
      rintro rfl
      exact lt_irrefl _ hlt
    exact ⟨hve, (hleast v hv).trans ((severity_lt_error_iff hve).mp hlt)⟩
  rw [dominantVerdict, hd, Option.getD_some]
  refine ⟨hmem, fun w hw => ?_⟩
  by_cases hde : d = "error"
  · rcases herror (hde ▸ hmem) with hone | ⟨v, hv, hlt⟩
    · rw [hde, hone w hw]
    · have hthree := (hworse v hv hlt).2
      rw [hde, hnine] at hthree
      omega
  · by_cases hwe : w = "error"
    · rcases herror (hwe ▸ hw) with hone | ⟨v, hv, hlt⟩
      · exact absurd (hone d hmem) hde
      · rw [hwe]
        exact ((severity_lt_error_iff hde).mpr (hworse v hv hlt).2).le
    · exact severity_le hde hwe (hleast w hw)

/-! ## Folds that failed -/

section Failed

variable {K : Type} [Field K] {before after : List (FoldResult K)}
  {fold failed : FoldResult K}

/-- The result of a fold that raised, or was not validated. -/
def Failed (failed : FoldResult K) : Prop :=
  (∃ window message, failed = errorFold window message) ∨
    ∃ window nTradesOos note, failed = unvalidatedFold window nTradesOos note

/-- A failed fold is not stable, has no figure and made nothing. -/
theorem Failed.fields (h : Failed failed) :
    failed.verdictText ≠ "stable" ∧ failed.aucOos = none ∧ failed.pnlOos = some 0 := by
  rcases h with ⟨window, message, rfl⟩ | ⟨window, nTradesOos, note, rfl⟩
  · refine ⟨?_, rfl, rfl⟩
    show "error" ≠ "stable"
    decide
  · refine ⟨?_, rfl, rfl⟩
    show "unvalidated_small_sample" ≠ "stable"
    decide

/-- A failed fold is not stable. -/
theorem nStable_failed (h : Failed failed) :
    nStable (before ++ failed :: after) = nStable (before ++ after) := by
  simp [nStable, verdictsOf, h.fields.1]

/-- A failed fold has no AUC. -/
theorem aucsOf_failed (h : Failed failed) :
    aucsOf (before ++ failed :: after) = aucsOf (before ++ after) := by
  simp [aucsOf, h.fields.2.1]

/-- A failed fold adds nothing to the total. -/
theorem totalPnlOos_failed (h : Failed failed) :
    totalPnlOos (before ++ failed :: after) = totalPnlOos (before ++ after) := by
  simp [totalPnlOos, pnlsOf, leftSum_eq_sum, h.fields.2.2]

omit [Field K] in
/-- A fold adds one to the stable ones at most. -/
theorem nStable_le : nStable (before ++ after) ≤ nStable (before ++ fold :: after) := by
  simp only [nStable, verdictsOf, List.map_append, List.map_cons, List.count_append,
    List.count_cons]
  omega

variable [LinearOrder K] [IsStrictOrderedRing K]

/-- The share of the stable folds, compared. -/
theorem le_stabilityIndex_iff {folds : List (FoldResult K)} (hne : folds ≠ []) (p q : ℕ)
    (hq : 0 < q) :
    (p / q : K) ≤ stabilityIndex folds ↔ p * folds.length ≤ q * nStable folds := by
  have hlength : (0 : K) < folds.length := by
    exact_mod_cast List.length_pos_iff.mpr hne
  have hqpos : (0 : K) < q := by exact_mod_cast hq
  rw [stabilityIndex, div_le_div_iff₀ hqpos hlength]
  constructor
  · intro h
    have hcast : ((p * folds.length : ℕ) : K) ≤ (q * nStable folds : ℕ) := by
      push_cast
      linarith
    exact_mod_cast hcast
  · intro h
    have hcast : ((p * folds.length : ℕ) : K) ≤ (q * nStable folds : ℕ) := by exact_mod_cast h
    push_cast at hcast
    linarith

/-- When the folds promote: three in four are stable and the median AUC is at least 0.55. -/
theorem promotes_iff {folds : List (FoldResult K)} (hne : folds ≠ []) :
    Promotes folds ↔ 3 * folds.length ≤ 4 * nStable folds ∧
      ∃ m ∈ median (aucsOf folds), 55 / 100 ≤ m := by
  have h := le_stabilityIndex_iff (K := K) hne 3 4 (by omega)
  push_cast at h
  rw [Promotes, h]

/-- When the folds soak: half of them are stable and the total is positive. -/
theorem soaks_iff {folds : List (FoldResult K)} (hne : folds ≠ []) :
    Soaks folds ↔ folds.length ≤ 2 * nStable folds ∧ 0 < totalPnlOos folds := by
  have h := le_stabilityIndex_iff (K := K) hne 1 2 (by omega)
  push_cast at h
  rw [Soaks, h, one_mul]

/-- Without the fold the median comes to the bound, with three in four of all folds stable. -/
def LiftsMedian (before after : List (FoldResult K)) (fold : FoldResult K) : Prop :=
  3 * (before ++ fold :: after).length ≤ 4 * nStable (before ++ after) ∧
    (∃ m ∈ median (aucsOf (before ++ after)), 55 / 100 ≤ m) ∧
    ¬∃ m ∈ median (aucsOf (before ++ fold :: after)), 55 / 100 ≤ m

/-- Without the fold the total is positive, with half of all folds stable. -/
def LiftsTotal (before after : List (FoldResult K)) (fold : FoldResult K) : Prop :=
  (before ++ fold :: after).length ≤ 2 * nStable (before ++ after) ∧
    0 < totalPnlOos (before ++ after) ∧ totalPnlOos (before ++ fold :: after) ≤ 0 ∧
    ¬Promotes (before ++ fold :: after)

/-- How far a recommendation goes: too few folds hold a strategy back as well. -/
def level : Recommendation → ℕ
  | .hold => 0
  | .insufficientFolds => 0
  | .soakLonger => 1
  | .promote => 2

/-- A failed fold raises the recommendation. -/
def Raised (before after : List (FoldResult K)) (fold failed : FoldResult K) : Prop :=
  level (recommendation (before ++ fold :: after)) <
    level (recommendation (before ++ failed :: after))

omit [IsStrictOrderedRing K] in
/-- How far the recommendation goes. -/
theorem level_recommendation {folds : List (FoldResult K)} (h : 3 ≤ folds.length) :
    level (recommendation folds) = if Promotes folds then 2 else if Soaks folds then 1 else 0 := by
  rw [recommendation, if_neg (not_lt.mpr h)]
  split_ifs <;> rfl

/-- **Failed folds.**  The result of a failed fold in place of another raises the recommendation
exactly when the median, or the total, of the rest is high enough and that with the fold is not. -/
theorem raised_iff (h : Failed failed) :
    Raised before after fold failed ↔ 3 ≤ (before ++ fold :: after).length ∧
      (LiftsMedian before after fold ∨ LiftsTotal before after fold) := by
  have hne : before ++ fold :: after ≠ [] := by simp
  have hne' : before ++ failed :: after ≠ [] := by simp
  have hlength : (before ++ failed :: after).length = (before ++ fold :: after).length := by simp
  have hstable : nStable (before ++ after) ≤ nStable (before ++ fold :: after) := nStable_le
  have hpromotes' := promotes_iff hne'
  have hsoaks' := soaks_iff hne'
  rw [hlength, nStable_failed h, aucsOf_failed h] at hpromotes'
  rw [hlength, nStable_failed h, totalPnlOos_failed h] at hsoaks'
  have hpromotes := promotes_iff hne
  have hsoaks := soaks_iff hne
  by_cases hthree : 3 ≤ (before ++ fold :: after).length
  · have hmedian : LiftsMedian before after fold ↔
        Promotes (before ++ failed :: after) ∧ ¬Promotes (before ++ fold :: after) := by
      rw [hpromotes', hpromotes, LiftsMedian]
      constructor
      · rintro ⟨hshare, hlifted, hlow⟩
        exact ⟨⟨hshare, hlifted⟩, fun hpromoted => hlow hpromoted.2⟩
      · rintro ⟨⟨hshare, hlifted⟩, hnot⟩
        exact ⟨hshare, hlifted, fun hhigh => hnot ⟨by omega, hhigh⟩⟩
    have htotal : LiftsTotal before after fold ↔ Soaks (before ++ failed :: after) ∧
        ¬Soaks (before ++ fold :: after) ∧ ¬Promotes (before ++ fold :: after) := by
      rw [hsoaks', hsoaks, LiftsTotal]
      constructor
      · rintro ⟨hshare, hlifted, hlow, hnot⟩
        exact ⟨⟨hshare, hlifted⟩, fun hsoaked => not_lt.mpr hlow hsoaked.2, hnot⟩
      · rintro ⟨⟨hshare, hlifted⟩, hlow, hnot⟩
        refine ⟨hshare, hlifted, not_lt.mp fun hpositive => hlow ⟨by omega, hpositive⟩, hnot⟩
    rw [Raised, level_recommendation hthree, level_recommendation (hlength ▸ hthree), hmedian,
      htotal]
    split_ifs <;> simp_all
  · have hfew : (before ++ fold :: after).length < 3 := not_le.mp hthree
    rw [Raised, recommendation, if_pos hfew, recommendation, if_pos (hlength ▸ hfew)]
    simp only [lt_self_iff_false, false_iff, not_and]
    intro h
    omega

end Failed

/-! ## The summary -/

section Summary

variable {K : Type} [Field K] [LinearOrder K] [FloorRing K]

/-- **A sound summary.**  It is the same in every order of the folds, its dominant verdict is the
worst of the most frequent ones, and a failed fold in place of another does not raise what it
recommends. -/
structure AggregatesSoundly (folds : List (FoldResult K)) : Prop where
  anyOrder : ∀ folds', folds'.Perm folds → aggregateVerdicts folds' = aggregateVerdicts folds
  worst : folds ≠ [] → Leads severity (verdictsOf folds) (aggregateVerdicts folds).dominantVerdict
  notRaised : ∀ before fold after failed, folds = before ++ fold :: after → Failed failed →
    level (aggregateVerdicts (before ++ failed :: after)).promoteRecommendation ≤
      level (aggregateVerdicts folds).promoteRecommendation

/-- The dominant verdict of a summary is that of its verdicts. -/
theorem dominantVerdict_aggregateVerdicts {folds : List (FoldResult K)} (hne : folds ≠ []) :
    (aggregateVerdicts folds).dominantVerdict = dominantVerdict (verdictsOf folds) := by
  rw [aggregateVerdicts, if_neg hne]

/-- The recommendation of a summary is that of its folds. -/
theorem promoteRecommendation_aggregateVerdicts (before after : List (FoldResult K))
    (fold : FoldResult K) :
    (aggregateVerdicts (before ++ fold :: after)).promoteRecommendation =
      recommendation (before ++ fold :: after) := by
  rw [aggregateVerdicts, if_neg (by simp)]

/-- **The summary of the folds**, in exact arithmetic.  It is the same in every order of the folds
exactly when the tie between the most frequent verdicts is one for the table; its dominant verdict is
the worst of them, where a failed fold is alone or outranked; and a failed fold in place of another
raises what it recommends exactly when it lifts the median or the total.
SOURCE: research/walk_forward.py:117-177, cli/walk_forward.py:372-385, 464-487 -/
theorem aggregateVerdicts_laws [IsStrictOrderedRing K] (folds : List (FoldResult K)) :
    ((∀ folds', folds'.Perm folds → aggregateVerdicts folds' = aggregateVerdicts folds) ↔
        TieListed (verdictsOf folds)) ∧
      (folds ≠ [] → ErrorOutranked (verdictsOf folds) →
        Leads severity (verdictsOf folds) (aggregateVerdicts folds).dominantVerdict) ∧
      ∀ before fold after failed, folds = before ++ fold :: after → Failed failed →
        (level (aggregateVerdicts folds).promoteRecommendation <
            level (aggregateVerdicts (before ++ failed :: after)).promoteRecommendation ↔
          3 ≤ folds.length ∧ (LiftsMedian before after fold ∨ LiftsTotal before after fold)) := by
  refine ⟨aggregateVerdicts_perm_iff folds, ?_, ?_⟩
  · intro hne herror
    rw [dominantVerdict_aggregateVerdicts hne]
    exact dominantVerdict_leads (mt List.map_eq_nil_iff.mp hne) herror
  · rintro before fold after failed rfl hfailed
    rw [promoteRecommendation_aggregateVerdicts, promoteRecommendation_aggregateVerdicts]
    exact raised_iff hfailed

end Summary

section Instance

/-- A fold of a day, with its verdict and its figures. -/
def foldOf (verdict : String) (auc pnl : ℚ) : FoldResult ℚ where
  window := foldAt 5 1 0 0
  aucIs := some auc
  aucOos := some auc
  nTradesOos := 50
  pnlOos := some pnl
  verdict := some verdict

/-- A stable fold and one that drifts. -/
theorem aggregateVerdicts_laws_drift :
    let folds := [foldOf "stable" (58 / 100) 3, foldOf "drift" (50 / 100) (-1)]
    (∀ folds', folds'.Perm folds → aggregateVerdicts folds' = aggregateVerdicts folds) ∧
      Leads severity (verdictsOf folds) (aggregateVerdicts folds).dominantVerdict ∧
      ¬level (aggregateVerdicts folds).promoteRecommendation <
        level (aggregateVerdicts ([foldOf "stable" (58 / 100) 3] ++
          errorFold (foldAt 5 1 0 0) "no data" :: [])).promoteRecommendation := by
  intro folds
  obtain ⟨horder, hworst, hraised⟩ := aggregateVerdicts_laws folds
  have hlisted : TieListed (verdictsOf folds) := by
    refine Or.inl ⟨"stable", by decide, ?_⟩
    unfold Prioritised
    decide
  have herror : ErrorOutranked (verdictsOf folds) := by
    intro hmem
    exact absurd (mem_plurality.mp hmem).1 (by decide)
  refine ⟨horder.mpr hlisted, hworst (by simp [folds]) herror, ?_⟩
  rw [hraised _ _ _ _ rfl (Or.inl ⟨_, _, rfl⟩)]
  simp [folds]

/-- Three stable folds behind one that drifts. -/
def driftFirst : List (FoldResult ℚ) :=
  [] ++ foldOf "drift" (30 / 100) (-1) ::
    [foldOf "stable" (54 / 100) 1, foldOf "stable" (55 / 100) 1, foldOf "stable" (56 / 100) 1]

/-- A stable fold that made `pnl`, in doubles. -/
def stableFold (pnl : Float) : FoldResult Float where
  window := foldAt 5 1 0 0
  aucIs := some 0.5
  aucOos := some 0.5
  nTradesOos := 50
  pnlOos := some pnl
  verdict := some "stable"

/-- Three of them are not promoted: their figures are too low. -/
theorem not_promotes_stableFolds (a b c : Float) :
    ¬Promotes [stableFold a, stableFold b, stableFold c] := by
  have hmedian : median [0.5, 0.5, (0.5 : Float)] = some 0.5 := by
    rw [median, sortedBy, List.mergeSort_of_pairwise (by decide +kernel)]
    rfl
  rintro ⟨-, m, hm, hhigh⟩
  obtain rfl := Option.some.inj (hm.symm.trans hmedian)
  exact absurd hhigh (by decide +kernel)

/-- A tie between a stable fold and a failed one is won by the stable one; where the fold that
drifts fails instead, the folds are promoted; and in doubles the sum of the three profits, and with
it the recommendation, depends on their order. -/
theorem not_aggregatesSoundly :
    ¬AggregatesSoundly [foldOf "stable" (58 / 100) 3, errorFold (foldAt 5 1 0 0) "no data"] ∧
      ¬AggregatesSoundly driftFirst ∧
      [stableFold 0.5, stableFold (-0.6), stableFold 0.1].Perm
        [stableFold 0.1, stableFold 0.5, stableFold (-0.6)] ∧
      recommendation [stableFold 0.1, stableFold 0.5, stableFold (-0.6)] = .hold ∧
      recommendation [stableFold 0.5, stableFold (-0.6), stableFold 0.1] = .soakLonger := by
  have hperm : ([stableFold 0.5, stableFold (-0.6)] ++ [stableFold 0.1]).Perm
      ([stableFold 0.1] ++ [stableFold 0.5, stableFold (-0.6)]) := List.perm_append_comm
  refine ⟨?_, ?_, hperm, ?_, ?_⟩
  · intro h
    have hleads := (h.worst (by simp)).2 "error" (by decide)
    rw [dominantVerdict_aggregateVerdicts (by simp)] at hleads
    revert hleads
    decide
  · intro h
    have hle := h.notRaised _ _ _ (errorFold (foldAt 5 1 0 0) "no data") rfl (Or.inl ⟨_, _, rfl⟩)
    refine absurd hle (not_le.mpr ?_)
    rw [driftFirst, promoteRecommendation_aggregateVerdicts,
      promoteRecommendation_aggregateVerdicts]
    refine (raised_iff (Or.inl ⟨_, _, rfl⟩)).mpr ⟨by simp, Or.inl ⟨?_, ?_, ?_⟩⟩
    · decide
    · have hrest : median [54 / 100, 55 / 100, (56 / 100 : ℚ)] = some (55 / 100) := by
        rw [median, sortedBy_id_of_pairwise (by norm_num)]
        rfl
      exact ⟨55 / 100, hrest, le_rfl⟩
    · have hall : median [30 / 100, 54 / 100, 55 / 100, (56 / 100 : ℚ)] = some (109 / 200) := by
        rw [median, sortedBy_id_of_pairwise (by norm_num)]
        norm_num
      rintro ⟨m, hm, hhigh⟩
      obtain rfl := Option.some.inj (hm.symm.trans hall)
      norm_num at hhigh
  · rw [recommendation, if_neg (by decide), if_neg (not_promotes_stableFolds _ _ _)]
    decide +kernel
  · rw [recommendation, if_neg (by decide), if_neg (not_promotes_stableFolds _ _ _)]
    decide +kernel

end Instance

end TradingEdge.Analysis
