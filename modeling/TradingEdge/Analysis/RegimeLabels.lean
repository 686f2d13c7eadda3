import Mathlib.Algebra.Field.Rat
import Mathlib.Algebra.Order.Field.Basic
import Mathlib.Algebra.Order.Ring.Rat
import Mathlib.Data.Fin.Basic
import Mathlib.Data.List.FinRange
import Mathlib.Data.List.OfFn
import Mathlib.Logic.Equiv.Defs
import TradingEdge.Program.HmmRegime

/-!
# What the regime labels mean

The labels of four states are a ranking: the state of the highest volatility, and the other three
in the order of their returns (`exists_ranked`).  With distinct keys there is only one ranking
(`Ranked.unique`), which is why the labels follow a renumbering of the states.  Nothing in the
ranking looks at the sign of a return: the labels of the trends mean what they say exactly if the
calmer states have returns of both signs.
-/

set_option autoImplicit false

namespace TradingEdge.Analysis

open TradingEdge.Library TradingEdge.Program

/-! ## Rankings -/

section Ranking

variable {K : Type} [LinearOrder K]

/-- The states by their labels: `high` has the highest volatility, and the others have their
returns in order. -/
structure Ranked (ret vol : Fin 4 → K) (bear mid bull high : Fin 4) : Prop where
  all : ∀ i, i = bear ∨ i = mid ∨ i = bull ∨ i = high
  nodup : [bear, mid, bull, high].Nodup
  bear_le : ret bear ≤ ret mid
  mid_le : ret mid ≤ ret bull
  vol_le : ∀ i, vol i ≤ vol high

/-- The label of a state, by the ranking. -/
def labelBy (bear mid bull high i : Fin 4) : HmmRegime :=
  if i = high then .highVol
  else if i = mid then .ranging
  else if i = bull then .trendingBull
  else if i = bear then .trendingBear
  else .ranging

variable {ret vol : Fin 4 → K} {bear mid bull high : Fin 4}

/-- No calm state has a higher return than the one called bull. -/
theorem Ranked.le_bull (h : Ranked ret vol bear mid bull high) {i : Fin 4} (hi : i ≠ high) :
    ret i ≤ ret bull := by
  rcases h.all i with rfl | rfl | rfl | rfl
  · exact h.bear_le.trans h.mid_le
  · exact h.mid_le
  · exact le_rfl
  · exact absurd rfl hi

/-- The bear has the least return of the states other than the volatile one. -/
theorem Ranked.bear_le_of_ne (h : Ranked ret vol bear mid bull high) {i : Fin 4} (hi : i ≠ high) :
    ret bear ≤ ret i := by
  rcases h.all i with rfl | rfl | rfl | rfl
  · exact le_rfl
  · exact h.bear_le
  · exact h.bear_le.trans h.mid_le
  · exact absurd rfl hi

/-- The three others are not the volatile one. -/
theorem Ranked.ne_high (h : Ranked ret vol bear mid bull high) :
    bear ≠ high ∧ mid ≠ high ∧ bull ≠ high := by
  have hnodup := h.nodup
  simp only [List.nodup_cons, List.mem_cons, not_or, List.not_mem_nil, not_false_eq_true] at hnodup
  exact ⟨hnodup.1.2.2.1, hnodup.2.1.2.1, hnodup.2.2.1.1⟩

/-- **One ranking.**  Distinct keys have only one. -/
theorem Ranked.unique (h : Ranked ret vol bear mid bull high)
    {bear' mid' bull' high' : Fin 4} (h' : Ranked ret vol bear' mid' bull' high')
    (hvol : Function.Injective vol)
    (hret : ∀ i j, i ≠ high → j ≠ high → ret i = ret j → i = j) :
    bear' = bear ∧ mid' = mid ∧ bull' = bull ∧ high' = high := by
  have hhigh : high' = high := hvol (le_antisymm (h.vol_le high') (h'.vol_le high))
  subst hhigh
  obtain ⟨hbear, hmid, hbull⟩ := h.ne_high
  obtain ⟨hbear', hmid', hbull'⟩ := h'.ne_high
  have hbulls : bull' = bull :=
    hret _ _ hbull' hbull (le_antisymm (h.le_bull hbull') (h'.le_bull hbull))
  have hbears : bear' = bear :=
    hret _ _ hbear' hbear (le_antisymm (h'.bear_le_of_ne hbear) (h.bear_le_of_ne hbear'))
  subst hbulls hbears
  have hnodup' := h'.nodup
  simp only [List.nodup_cons, List.mem_cons, not_or] at hnodup'
  refine ⟨rfl, ?_, rfl, rfl⟩
  rcases h.all mid' with heq | heq | heq | heq
  · exact absurd heq (Ne.symm hnodup'.1.1)
  · exact heq
  · exact absurd heq hnodup'.2.1.1
  · exact absurd heq hmid'

/-- A ranking of renumbered states ranks the states. -/
theorem Ranked.renumber {σ : Equiv.Perm (Fin 4)}
    (h : Ranked (ret ∘ σ) (vol ∘ σ) bear mid bull high) :
    Ranked ret vol (σ bear) (σ mid) (σ bull) (σ high) where
  all i := by
    have hall := h.all (σ.symm i)
    simp only [Equiv.symm_apply_eq] at hall
    exact hall
  nodup := by
    have hnodup := h.nodup.map σ.injective
    exact hnodup
  bear_le := h.bear_le
  mid_le := h.mid_le
  vol_le i := by
    have hle := h.vol_le (σ.symm i)
    rwa [Function.comp_apply, Equiv.apply_symm_apply] at hle

/-- Labels do not depend on the numbers of the states. -/
theorem labelBy_renumber (σ : Equiv.Perm (Fin 4)) (bear mid bull high i : Fin 4) :
    labelBy (σ bear) (σ mid) (σ bull) (σ high) (σ i) = labelBy bear mid bull high i := by
  unfold labelBy
  simp only [σ.injective.eq_iff]

end Ranking

/-! ## The labels -/

variable {K : Type} [Field K] [LinearOrder K]

/-- The labels that are set one after another. -/
theorem set_labels (bear mid bull high : Fin 4) (h : [bear, mid, bull, high].Nodup) :
    ((((List.replicate 4 HmmRegime.ranging).set bear .trendingBear).set bull .trendingBull).set mid
      .ranging).set high .highVol = List.ofFn (labelBy bear mid bull high) := by
  revert bear mid bull high
  decide +kernel

/-- Two states in their order. -/
theorem pair_sublist_range {d i : Fin 4} (h : d < i) :
    [(d : ℕ), (i : ℕ)].Sublist (List.range 4) := by
  revert d i
  decide +kernel

omit [Field K] in
/-- Three elements in the order of their keys. -/
theorem sortedBy_three (key : ℕ → K) (a b c : ℕ) :
    ∃ x y z, sortedBy key [a, b, c] = [x, y, z] ∧ key x ≤ key y ∧ key y ≤ key z := by
  obtain ⟨x, y, z, heq⟩ := List.length_eq_three.mp (length_sortedBy key [a, b, c])
  have hsorted := pairwise_sortedBy key [a, b, c]
  rw [heq] at hsorted
  simp only [List.pairwise_cons, List.mem_cons] at hsorted
  exact ⟨x, y, z, heq, hsorted.1 y (.inl rfl), hsorted.2.1 z (.inl rfl)⟩

/-- **The ranking.**  The labels of four states rank them; of several states of the highest
volatility the last one gets its label. -/
theorem exists_ranked {means : List (K × K)} (h : means.length = 4) :
    ∃ bear mid bull high : Fin 4,
      Ranked (fun i => meanReturn means i) (fun i => meanVol means i) bear mid bull high ∧
      (∀ i, high < i → meanVol means i < meanVol means high) ∧
      (low3 means).Perm [(bear : ℕ), mid, bull] ∧
      canonicalLabelOrder means = List.ofFn (labelBy bear mid bull high) := by
  have hbyVol : byVol means = sortedBy (meanVol means) (List.range 4) := by rw [byVol, h]
  have hperm : (byVol means).Perm (List.range 4) := hbyVol ▸ sortedBy_perm _ _
  obtain ⟨a, rest, hcons⟩ : ∃ a rest, byVol means = a :: rest :=
    List.exists_cons_of_length_eq_add_one hperm.length_eq
  have hlength := hperm.length_eq
  rw [hcons, List.length_cons, List.length_range, Nat.add_right_cancel_iff] at hlength
  obtain ⟨b, c, d, rfl⟩ := List.length_eq_three.mp hlength
  obtain ⟨x, y, z, hlow, hxy, hyz⟩ := sortedBy_three (meanReturn means) a b c
  have hlowPerm : [x, y, z].Perm [a, b, c] := hlow ▸ sortedBy_perm _ _
  have hall : [x, y, z, d].Perm (List.range 4) := by
    rw [hcons] at hperm
    exact (hlowPerm.append_right [d]).trans hperm
  have hmem : ∀ i, i ∈ [x, y, z, d] ↔ i < 4 := fun i => hall.mem_iff.trans List.mem_range
  lift x to Fin 4 using (hmem x).mp (by simp)
  lift y to Fin 4 using (hmem y).mp (by simp)
  lift z to Fin 4 using (hmem z).mp (by simp)
  lift d to Fin 4 using (hmem d).mp (by simp)
  have hnodup : [x, y, z, d].Nodup := by
    have hcast : ([x, y, z, d].map Fin.val).Nodup := hall.nodup_iff.mpr List.nodup_range
    exact hcast.of_map _
  have hsorted := pairwise_sortedBy (meanVol means) (List.range 4)
  rw [← hbyVol, hcons] at hsorted
  refine ⟨x, y, z, d, ⟨?_, hnodup, hxy, hyz, ?_⟩, ?_, ?_, ?_⟩
  · intro i
    have hi := (hmem i).mpr i.isLt
    simpa [Fin.ext_iff] using hi
  · intro i
    have hi : (i : ℕ) ∈ [a, b, c, (d : ℕ)] := by
      rw [← hcons, hperm.mem_iff, List.mem_range]
      exact i.isLt
    simp only [List.pairwise_cons, List.mem_cons] at hsorted
    simp only [List.mem_cons, List.not_mem_nil, or_false] at hi
    rcases hi with hi | hi | hi | hi
    · exact hi ▸ hsorted.1 d (by simp)
    · exact hi ▸ hsorted.2.1 d (by simp)
    · exact hi ▸ hsorted.2.2.1 d (by simp)
    · exact hi ▸ le_rfl
  · intro i hi
    -- a state of the same volatility behind `d` would have stayed behind it
    by_contra hnot
    have hrange : [(d : ℕ), (i : ℕ)].Sublist (List.range 4) := pair_sublist_range hi
    have hpair : [(d : ℕ), (i : ℕ)].Sublist (byVol means) :=
      hbyVol ▸ pair_sublist_sortedBy (not_lt.mp hnot) hrange
    rw [hcons] at hpair
    have hlast : [a, b, c, (d : ℕ)].Pairwise fun (u _ : ℕ) => u ≠ d := by
      have hne := hperm.nodup_iff.mpr List.nodup_range
      rw [hcons] at hne
      simp only [List.nodup_cons, List.mem_cons, not_or] at hne
      simp only [List.pairwise_cons, List.mem_cons]
      exact ⟨fun _ _ => hne.1.2.2.1, fun _ _ => hne.2.1.2.1, fun _ _ => hne.2.2.1.1, by simp⟩
    exact (List.pairwise_pair.mp (hlast.sublist hpair)) rfl
  · rw [low3, hcons]
    exact hlowPerm.symm
  · rw [← set_labels x y z d hnodup, canonicalLabelOrder]
    simp only [h, ne_eq, not_true_eq_false, if_false, low3, hcons, List.take_succ_cons,
      List.take_zero, hlow]
    rfl

/-- The label of a state. -/
theorem getElem?_labels {labels : List HmmRegime} {bear mid bull high : Fin 4}
    (h : labels = List.ofFn (labelBy bear mid bull high)) (i : Fin 4) :
    labels[(i : ℕ)]? = some (labelBy bear mid bull high i) := by
  rw [h, List.getElem?_ofFn, dif_pos i.isLt]

/-- What has a label is a state. -/
theorem getElem?_eq_some_iff {labels : List HmmRegime} {bear mid bull high : Fin 4}
    (h : labels = List.ofFn (labelBy bear mid bull high)) (i : ℕ) (label : HmmRegime) :
    labels[i]? = some label ↔ ∃ hi : i < 4, labelBy bear mid bull high ⟨i, hi⟩ = label := by
  rw [h, List.getElem?_ofFn]
  split
  · next hi =>
    rw [Option.some_inj]
    exact ⟨fun heq => ⟨hi, heq⟩, fun ⟨_, heq⟩ => heq⟩
  · next hi => exact ⟨fun heq => absurd heq (by simp), fun ⟨hi', _⟩ => absurd hi' hi⟩

/-- The bull is labelled so, and no other. -/
theorem labelBy_eq_trendingBull (bear mid bull high i : Fin 4)
    (h : [bear, mid, bull, high].Nodup) :
    labelBy bear mid bull high i = .trendingBull ↔ i = bull := by
  revert bear mid bull high i
  decide +kernel

/-- The bear is labelled so, and no other. -/
theorem labelBy_eq_trendingBear (bear mid bull high i : Fin 4)
    (h : [bear, mid, bull, high].Nodup) :
    labelBy bear mid bull high i = .trendingBear ↔ i = bear := by
  revert bear mid bull high i
  decide +kernel

/-- The four labels are given to one state each. -/
theorem labels_perm (bear mid bull high : Fin 4) (h : [bear, mid, bull, high].Nodup) :
    (List.ofFn (labelBy bear mid bull high)).Perm
      [.trendingBull, .trendingBear, .ranging, .highVol] := by
  revert bear mid bull high
  decide +kernel

omit [LinearOrder K] in
/-- The states in another order: state `i` is what was state `σ i`. -/
def renumbered (σ : Equiv.Perm (Fin 4)) (means : List (K × K)) : List (K × K) :=
  List.ofFn fun i => means.getD (σ i) (0, 0)

/-- The keys of both sorts are distinct.
SOURCE: engine/features/hmm_regime.py:89, 92 -/
structure DistinctKeys (means : List (K × K)) : Prop where
  vols : ((List.range means.length).map (meanVol means)).Nodup
  returns : ((low3 means).map (meanReturn means)).Nodup

/-- What the labels promise: every label is given once, they follow a renumbering of the states,
and the trends go where their labels say.
SOURCE: engine/features/hmm_regime.py:8-14 -/
structure LabelsSound (means : List (K × K)) : Prop where
  perm : (canonicalLabelOrder means).Perm [.trendingBull, .trendingBear, .ranging, .highVol]
  equivariant : DistinctKeys means → ∀ (σ : Equiv.Perm (Fin 4)) (i : Fin 4),
    (canonicalLabelOrder (renumbered σ means))[(i : ℕ)]? =
      (canonicalLabelOrder means)[(σ i : ℕ)]?
  bull : ∀ i : ℕ, (canonicalLabelOrder means)[i]? = some .trendingBull → 0 < meanReturn means i
  bear : ∀ i : ℕ, (canonicalLabelOrder means)[i]? = some .trendingBear → meanReturn means i < 0

/-- The state that is called volatile: the last of those of the highest volatility. -/
def MostVolatile (means : List (K × K)) (high : ℕ) : Prop :=
  high < means.length ∧ ∀ i < means.length, meanVol means i ≤ meanVol means high ∧
    (high < i → meanVol means i < meanVol means high)

/-- Renumbered states get the renumbered labels. -/
theorem labels_equivariant {means : List (K × K)} (h : means.length = 4)
    (hkeys : DistinctKeys means) (σ : Equiv.Perm (Fin 4)) (i : Fin 4) :
    (canonicalLabelOrder (renumbered σ means))[(i : ℕ)]? =
      (canonicalLabelOrder means)[(σ i : ℕ)]? := by
  obtain ⟨bear, mid, bull, high, hranked, -, hlow, hlabels⟩ := exists_ranked h
  have hlength : (renumbered σ means).length = 4 := List.length_ofFn ..
  obtain ⟨bear', mid', bull', high', hranked', -, -, hlabels'⟩ := exists_ranked hlength
  have hget (j : Fin 4) : (renumbered σ means).getD j (0, 0) = means.getD (σ j) (0, 0) := by
    rw [renumbered, List.getD_eq_getElem?_getD, List.getElem?_ofFn, dif_pos j.isLt]
    rfl
  have hfollows : Ranked (fun i => meanReturn means i) (fun i => meanVol means i)
      (σ bear') (σ mid') (σ bull') (σ high') := by
    apply Ranked.renumber
    simp only [meanReturn, meanVol, hget] at hranked'
    exact hranked'
  have hvol : Function.Injective fun i : Fin 4 => meanVol means i := by
    intro j j' heq
    have hinj := List.inj_on_of_nodup_map hkeys.vols
    rw [h] at hinj
    exact Fin.ext (hinj (List.mem_range.mpr j.isLt) (List.mem_range.mpr j'.isLt) heq)
  have hret : ∀ j j' : Fin 4, j ≠ high → j' ≠ high →
      meanReturn means j = meanReturn means j' → j = j' := by
    have hmem (j : Fin 4) (hj : j ≠ high) : (j : ℕ) ∈ low3 means := by
      rw [hlow.mem_iff]
      rcases hranked.all j with rfl | rfl | rfl | rfl
      · simp
      · simp
      · simp
      · exact absurd rfl hj
    intro j j' hj hj' heq
    exact Fin.ext (List.inj_on_of_nodup_map hkeys.returns (hmem j hj) (hmem j' hj') heq)
  obtain ⟨rfl, rfl, rfl, rfl⟩ := hranked.unique hfollows hvol hret
  rw [getElem?_labels hlabels', getElem?_labels hlabels, labelBy_renumber]

/-- **The meaning of the labels.**  The labels of four states are sound exactly if some state but
the most volatile has a positive mean return and some other a negative one. -/
theorem labels_sound_iff (means : List (K × K)) (h : means.length = 4) :
    LabelsSound means ↔
      ∃ high, MostVolatile means high ∧
        (∃ i < means.length, i ≠ high ∧ 0 < meanReturn means i) ∧
        ∃ i < means.length, i ≠ high ∧ meanReturn means i < 0 := by
  obtain ⟨bear, mid, bull, high, hranked, hlast, hlow, hlabels⟩ := exists_ranked h
  obtain ⟨hbearHigh, -, hbullHigh⟩ := hranked.ne_high
  have hvolatile : MostVolatile means high := by
    refine ⟨by rw [h]; exact high.isLt, fun i hi => ?_⟩
    rw [h] at hi
    exact ⟨hranked.vol_le ⟨i, hi⟩, hlast ⟨i, hi⟩⟩
  have honly : ∀ high', MostVolatile means high' → high' = high := by
    rintro high' ⟨hlt, hall⟩
    have hlt' : (high : ℕ) < means.length := hvolatile.1
    rcases lt_trichotomy high' high with hless | heq | hmore
    · exact absurd (hvolatile.2 high' hlt).1 ((hall high hlt').2 hless).not_ge
    · exact heq
    · exact absurd (hall high hlt').1 ((hvolatile.2 high' hlt).2 hmore).not_ge
  have hbull : ∀ i : ℕ, (canonicalLabelOrder means)[i]? = some .trendingBull ↔ i = bull := by
    intro i
    rw [getElem?_eq_some_iff hlabels]
    simp only [labelBy_eq_trendingBull _ _ _ _ _ hranked.nodup]
    exact ⟨fun ⟨_, heq⟩ => congrArg Fin.val heq, fun heq => ⟨heq ▸ bull.isLt, Fin.ext heq⟩⟩
  have hbear : ∀ i : ℕ, (canonicalLabelOrder means)[i]? = some .trendingBear ↔ i = bear := by
    intro i
    rw [getElem?_eq_some_iff hlabels]
    simp only [labelBy_eq_trendingBear _ _ _ _ _ hranked.nodup]
    exact ⟨fun ⟨_, heq⟩ => congrArg Fin.val heq, fun heq => ⟨heq ▸ bear.isLt, Fin.ext heq⟩⟩
  have hlt (i : Fin 4) : (i : ℕ) < means.length := by
    rw [h]
    exact i.isLt
  constructor
  · intro hsound
    refine ⟨high, hvolatile, ⟨bull, hlt bull, ?_, hsound.bull bull ((hbull bull).mpr rfl)⟩,
      ⟨bear, hlt bear, ?_, hsound.bear bear ((hbear bear).mpr rfl)⟩⟩
    · exact fun heq => hbullHigh (Fin.ext heq)
    · exact fun heq => hbearHigh (Fin.ext heq)
  · rintro ⟨high', hvolatile', ⟨up, hup, hupHigh, hpos⟩, ⟨down, hdown, hdownHigh, hneg⟩⟩
    obtain rfl := honly high' hvolatile'
    rw [h] at hup hdown
    have hupLe : meanReturn means up ≤ meanReturn means bull :=
      hranked.le_bull (i := ⟨up, hup⟩) fun heq => hupHigh (congrArg Fin.val heq)
    have hleDown : meanReturn means bear ≤ meanReturn means down :=
      hranked.bear_le_of_ne (i := ⟨down, hdown⟩) fun heq => hdownHigh (congrArg Fin.val heq)
    refine ⟨?_, fun hkeys σ i => labels_equivariant h hkeys σ i, ?_, ?_⟩
    · rw [hlabels]
      exact labels_perm _ _ _ _ hranked.nodup
    · intro i hi
      rw [(hbull i).mp hi]
      exact hpos.trans_le hupLe
    · intro i hi
      rw [(hbear i).mp hi]
      exact hleDown.trans_lt hneg

/-- Four states whose returns are all positive. -/
def risingMeans : List (ℚ × ℚ) :=
  [(1 / 1000, 1 / 100), (2 / 1000, 1 / 200), (3 / 1000, 1 / 300), (4 / 1000, 1 / 10)]

/-- One of them is called bear. -/
theorem not_labelsSound_rising :
    ¬ ∀ means : List (ℚ × ℚ), means.length = 4 → LabelsSound means := by
  intro hall
  have hrising : ∀ i : Fin 4, 0 < meanReturn risingMeans i := by decide +kernel
  have hlength : risingMeans.length = 4 := rfl
  obtain ⟨bear, mid, bull, high, hranked, -, -, hlabels⟩ := exists_ranked hlength
  have hlabel : (canonicalLabelOrder risingMeans)[(bear : ℕ)]? = some .trendingBear := by
    rw [getElem?_labels hlabels, (labelBy_eq_trendingBear _ _ _ _ _ hranked.nodup).mpr rfl]
  have hfalling := (hall risingMeans rfl).bear bear hlabel
  exact absurd hfalling (hrising bear).not_gt

/-- Four states with a rise and a fall among the calm ones. -/
theorem labelsSound_rise_and_fall :
    LabelsSound ([(1 / 1000, 1 / 100), (-2 / 1000, 1 / 200), (0, 1 / 300),
      (-4 / 1000, 1 / 10)] : List (ℚ × ℚ)) := by
  rw [labels_sound_iff _ rfl]
  refine ⟨3, ⟨by decide, by decide +kernel⟩, ⟨0, by decide, by decide, by decide +kernel⟩,
    ⟨1, by decide, by decide, by decide +kernel⟩⟩

end TradingEdge.Analysis
