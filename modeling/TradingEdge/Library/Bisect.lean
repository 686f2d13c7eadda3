import Mathlib.Data.List.Basic
import Mathlib.Order.Lattice

/-!
# Bisection

The search of a sorted list that halves the interval of possible places.  On an ascending list
the place to the right of a value counts the elements up to it, so that what stands in front of
it is what a scan with the same bound would keep.
-/

set_option autoImplicit false

namespace TradingEdge.Library

variable {α β : Type} [LinearOrder α]

/-- The search between two places, in at most so many rounds. -/
def bisectLoop (a : List α) (x : α) : ℕ → ℕ → ℕ → ℕ
  | 0, lo, _ => lo
  | rounds + 1, lo, hi =>
    if lo < hi then
      match a[(lo + hi) / 2]? with
      | none => lo
      | some v =>
        if x < v then bisectLoop a x rounds lo ((lo + hi) / 2)
        else bisectLoop a x rounds ((lo + hi) / 2 + 1) hi
    else lo

/-- The place of a value in a sorted list, to the right of those equal to it. -/
def bisectRight (a : List α) (x : α) : ℕ := bisectLoop a x a.length 0 a.length

/-- The elements in front of `lo` are at most `x`, those from `hi` on are larger. -/
structure Brackets (a : List α) (x : α) (lo hi : ℕ) : Prop where
  le : lo ≤ hi
  bound : hi ≤ a.length
  below : ∀ i v, i < lo → a[i]? = some v → v ≤ x
  above : ∀ i v, hi ≤ i → a[i]? = some v → x < v

/-- Elements of an ascending list ascend with their places. -/
theorem le_of_getElem? {a : List α} (h : a.Pairwise (· ≤ ·)) {i j : ℕ} (hij : i ≤ j) {v w : α}
    (hv : a[i]? = some v) (hw : a[j]? = some w) : v ≤ w := by
  obtain ⟨hi, rfl⟩ := List.getElem?_eq_some_iff.mp hv
  obtain ⟨hj, rfl⟩ := List.getElem?_eq_some_iff.mp hw
  rcases Nat.lt_or_eq_of_le hij with hlt | rfl
  · exact List.pairwise_iff_getElem.mp h i j hi hj hlt
  · exact le_refl _

/-- A round keeps the brackets; the search ends where they meet. -/
theorem Brackets.bisectLoop {a : List α} (h : a.Pairwise (· ≤ ·)) {x : α} (rounds : ℕ) {lo hi : ℕ}
    (hb : Brackets a x lo hi) (hrounds : hi - lo ≤ rounds) :
    Brackets a x (bisectLoop a x rounds lo hi) (bisectLoop a x rounds lo hi) := by
  induction rounds generalizing lo hi with
  | zero =>
    have hmeet : hi = lo := by
      have hle := hb.le
      omega
    rw [hmeet] at hb
    exact hb
  | succ rounds ih =>
    unfold Library.bisectLoop
    split
    · rename_i hopen
      have hmid : (lo + hi) / 2 < a.length := by
        have hbound := hb.bound
        omega
      have hget : a[(lo + hi) / 2]? = some a[(lo + hi) / 2] := List.getElem?_eq_getElem hmid
      rw [hget]
      dsimp only
      split
      · rename_i hlt
        -- everything from the middle on is larger
        refine ih ⟨by omega, Nat.le_of_lt hmid, hb.below, ?_⟩ (by omega)
        intro i v hi hv
        exact hlt.trans_le (le_of_getElem? h hi hget hv)
      · rename_i hge
        -- everything up to the middle is at most `x`
        refine ih ⟨by omega, hb.bound, ?_, hb.above⟩ (by omega)
        intro i v hi hv
        exact (le_of_getElem? h (by omega) hv hget).trans (not_lt.mp hge)
    · rename_i hclosed
      have hmeet : hi = lo := by
        have hle := hb.le
        omega
      rw [hmeet] at hb
      exact hb

/-- **Bisection** splits an ascending list at the value. -/
theorem brackets_bisectRight {a : List α} (h : a.Pairwise (· ≤ ·)) (x : α) :
    Brackets a x (bisectRight a x) (bisectRight a x) := by
  refine Brackets.bisectLoop h a.length ⟨Nat.zero_le _, Nat.le_refl _, ?_, ?_⟩ (Nat.sub_le _ _)
  · intro i v hi
    exact absurd hi (Nat.not_lt_zero i)
  · intro i v hi hv
    rw [List.getElem?_eq_none hi] at hv
    cases hv

/-- **What stands in front of the place** is what a scan keeps. -/
theorem take_bisectRight {key : β → α} {l : List β} (h : (l.map key).Pairwise (· ≤ ·)) (x : α) :
    l.take (bisectRight (l.map key) x) = l.filter fun e => key e ≤ x := by
  have hb := brackets_bisectRight h x
  generalize bisectRight (l.map key) x = place at hb
  have hfront : (l.take place).filter (fun e => key e ≤ x) = l.take place := by
    apply List.filter_eq_self.mpr
    intro e he
    obtain ⟨i, hi, rfl⟩ := List.mem_take_iff_getElem.mp he
    refine decide_eq_true (hb.below i _ (by omega) ?_)
    rw [List.getElem?_map, List.getElem?_eq_getElem (by omega), Option.map_some]
  have hback : (l.drop place).filter (fun e => key e ≤ x) = [] := by
    apply List.filter_eq_nil_iff.mpr
    intro e he
    obtain ⟨i, hi, rfl⟩ := List.mem_drop_iff_getElem.mp he
    have hlarger := hb.above (place + i) (key l[place + i]) (Nat.le_add_right _ _) (by
      rw [List.getElem?_map, List.getElem?_eq_getElem (by omega), Option.map_some])
    exact fun hle => absurd (of_decide_eq_true hle) (not_le.mpr hlarger)
  calc l.take place = (l.take place).filter (fun e => key e ≤ x) ++
        (l.drop place).filter (fun e => key e ≤ x) := by rw [hfront, hback, List.append_nil]
    _ = l.filter fun e => key e ≤ x := by rw [← List.filter_append, List.take_append_drop]

/-- The index is within the list. -/
theorem bisectRight_le_length {a : List α} (h : a.Pairwise (· ≤ ·)) (x : α) :
    bisectRight a x ≤ a.length := (brackets_bisectRight h x).bound

end TradingEdge.Library
