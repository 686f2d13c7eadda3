import Mathlib.Data.List.MinMax
import Mathlib.Order.Nat
import TradingEdge.Library.Grouping

/-!
# The most frequent elements of a list

`plurality ks` are the elements that occur most often, in the order in which they are first seen,
as `Counter(ks)` has them.  `elected rank ks` is the first of them with the least rank.  It does not
depend on the order of the list exactly when no other has that rank (`elected_perm_iff`).
-/

set_option autoImplicit false

namespace TradingEdge.Library

variable {κ ρ : Type} [DecidableEq κ]

/-- How often the most frequent elements occur: `max(counts.values())`. -/
def maxCount (ks : List κ) : ℕ := ((firstSeen ks).map fun k => ks.count k).foldr max ⊥

/-- The most frequent elements: `[k for k, c in counts.items() if c == max_count]`. -/
def plurality (ks : List κ) : List κ := (firstSeen ks).filter fun k => ks.count k = maxCount ks

/-- No key is counted more often than the most frequent one. -/
theorem count_le_maxCount {ks : List κ} {k : κ} (hk : k ∈ ks) : ks.count k ≤ maxCount ks :=
  List.le_max_of_le (List.mem_map_of_mem (mem_firstSeen.mpr hk)) le_rfl

/-- They occur at least as often as any other. -/
theorem mem_plurality {ks : List κ} {k : κ} :
    k ∈ plurality ks ↔ k ∈ ks ∧ ∀ k' ∈ ks, ks.count k' ≤ ks.count k := by
  rw [plurality, List.mem_filter, mem_firstSeen, decide_eq_true_eq]
  refine and_congr_right fun hk => ?_
  constructor
  · intro hcount k' hk'
    rw [hcount]
    exact count_le_maxCount hk'
  · intro hmost
    refine le_antisymm (count_le_maxCount hk) (List.max_le_of_forall_le _ _ ?_)
    intro n hn
    obtain ⟨k', hk', rfl⟩ := List.mem_map.mp hn
    exact hmost k' (mem_firstSeen.mp hk')

/-- Some keys have a most frequent one. -/
theorem plurality_ne_nil {ks : List κ} (h : ks ≠ []) : plurality ks ≠ [] := by
  obtain ⟨k, hk⟩ := List.exists_mem_of_ne_nil ks h
  obtain ⟨most, hmost⟩ := Option.ne_none_iff_exists'.mp
    (mt List.argmax_eq_none.mp h : ks.argmax (fun k => ks.count k) ≠ none)
  refine List.ne_nil_of_mem (mem_plurality.mpr ⟨List.argmax_mem hmost, ?_⟩)
  intro k' hk'
  exact List.le_of_mem_argmax hk' hmost

/-- They are the same in every order of the list. -/
theorem mem_plurality_perm {ks ks' : List κ} (h : ks.Perm ks') (k : κ) :
    k ∈ plurality ks ↔ k ∈ plurality ks' := by
  simp only [mem_plurality, h.mem_iff, h.count_eq]

variable [LinearOrder ρ] {rank : κ → ρ}

/-- The first of the most frequent elements with the least rank. -/
def elected (rank : κ → ρ) (ks : List κ) : Option κ := (plurality ks).argmin rank

/-- One of the most frequent elements, and none of them has a lower rank. -/
def Leads (rank : κ → ρ) (ks : List κ) (k : κ) : Prop :=
  k ∈ plurality ks ∧ ∀ k' ∈ plurality ks, rank k ≤ rank k'

/-- Who leads does not depend on the order. -/
theorem leads_perm {ks ks' : List κ} (h : ks.Perm ks') (k : κ) :
    Leads rank ks k ↔ Leads rank ks' k := by
  simp only [Leads, mem_plurality_perm h]

/-- The elected element leads. -/
theorem leads_of_elected {ks : List κ} {k : κ} (h : elected rank ks = some k) :
    Leads rank ks k :=
  ⟨List.argmin_mem h, fun _ hk' => List.le_of_mem_argmin hk' h⟩

/-- Of some keys one is elected. -/
theorem exists_elected (rank : κ → ρ) {ks : List κ} (h : ks ≠ []) : ∃ k, elected rank ks = some k :=
  Option.ne_none_iff_exists'.mp (mt List.argmin_eq_none.mp (plurality_ne_nil h))

/-- What leads a list is elected where it comes first. -/
theorem elected_cons {ks : List κ} {k : κ} (h : Leads rank (k :: ks) k) :
    elected rank (k :: ks) = some k := by
  obtain ⟨hmem, hleast⟩ := h
  have hfirst : ∃ seen, firstSeen (k :: ks) = k :: seen := by
    have hhead := head?_firstSeen (k :: ks)
    rw [List.head?_cons] at hhead
    exact List.head?_eq_some_iff.mp hhead
  obtain ⟨seen, hseen⟩ := hfirst
  have hcount := (List.mem_filter.mp hmem).2
  rw [elected, List.argmin_eq_some_iff]
  refine ⟨hmem, hleast, ?_⟩
  intro k' _ _
  rw [plurality, hseen, List.filter_cons_of_pos (by simpa using hcount), List.idxOf_cons_self]
  exact Nat.zero_le _

/-- **Order independence.**  The key elected among the keys of a list is the same in every order of
the list exactly when only one leads them. -/
theorem elected_perm_iff {α : Type} (key : α → κ) (l : List α) :
    (∀ l' : List α, l'.Perm l → elected rank (l'.map key) = elected rank (l.map key)) ↔
      ∀ k k', Leads rank (l.map key) k → Leads rank (l.map key) k' → k = k' := by
  constructor
  · intro h
    have hof : ∀ k, Leads rank (l.map key) k → elected rank (l.map key) = some k := by
      intro k hk
      obtain ⟨a, ha, rfl⟩ := List.mem_map.mp (mem_plurality.mp hk.1).1
      obtain ⟨before, after, rfl⟩ := List.append_of_mem ha
      have hperm : (a :: (before ++ after)).Perm (before ++ a :: after) := List.perm_middle.symm
      rw [← h _ hperm, List.map_cons]
      exact elected_cons ((leads_perm (hperm.map key) (key a)).mpr hk)
    intro k k' hk hk'
    exact Option.some.inj ((hof k hk).symm.trans (hof k' hk'))
  · intro h l' hperm
    by_cases hnil : l = []
    · subst hnil
      rw [hperm.eq_nil]
    · have hnil' : l' ≠ [] := by
        rintro rfl
        exact hnil hperm.nil_eq.symm
      obtain ⟨k, hk⟩ := exists_elected rank (mt List.map_eq_nil_iff.mp hnil)
      obtain ⟨k', hk'⟩ := exists_elected rank (mt List.map_eq_nil_iff.mp hnil')
      have hsame := h k k' (leads_of_elected hk)
        ((leads_perm (hperm.map key) k').mp (leads_of_elected hk'))
      rw [hk, hk', hsame]

end TradingEdge.Library
