import Mathlib.Data.List.Basic
import Mathlib.Tactic.Ring

/-!
# Pages by offset

A list is read page by page, the page of the `n`-th request starts at `n` times the page size, and
between two requests the list may grow in front.  What is new pushes the rest back, so that a page
may repeat what an earlier one had, and none skips what was there at the first request
(`exists_page_of_mem`).
-/

set_option autoImplicit false

namespace TradingEdge.Library

variable {α : Type}

/-- The page of a list at an offset. -/
def offsetPage (size offset : ℕ) (l : List α) : List α := (l.drop offset).take size

/-- The list of a later request is that of an earlier one with something new before it. -/
def GrowsInFront (feed : ℕ → List α) : Prop := ∀ n, ∃ fresh, feed (n + 1) = fresh ++ feed n

/-- A page is full, or as long as what is left. -/
theorem length_offsetPage (size offset : ℕ) (l : List α) :
    (offsetPage size offset l).length = min size (l.length - offset) := by
  rw [offsetPage, List.length_take, List.length_drop]

/-- The elements of a page are those whose index is in its range. -/
theorem mem_offsetPage {size offset i : ℕ} {l : List α} {x : α} (hx : l[i]? = some x)
    (hlow : offset ≤ i) (hhigh : i < offset + size) : x ∈ offsetPage size offset l := by
  refine List.mem_of_getElem? (i := i - offset) ?_
  have hi : i - offset < size := by omega
  have hback : offset + (i - offset) = i := by omega
  rw [offsetPage, List.getElem?_take, if_pos hi, List.getElem?_drop, hback]
  exact hx

/-- What is on a page is in the list. -/
theorem mem_of_mem_offsetPage {size offset : ℕ} {l : List α} {x : α}
    (h : x ∈ offsetPage size offset l) : x ∈ l :=
  List.mem_of_mem_drop (List.mem_of_mem_take h)

namespace GrowsInFront

variable {feed : ℕ → List α}

/-- The feed grows by new elements in front. -/
theorem prepended (h : GrowsInFront feed) (n : ℕ) : ∃ fresh, feed n = fresh ++ feed 0 := by
  induction n with
  | zero => exact ⟨[], rfl⟩
  | succ n ih =>
    obtain ⟨fresh, hfresh⟩ := ih
    obtain ⟨newer, hnewer⟩ := h n
    exact ⟨newer ++ fresh, by rw [hnewer, hfresh, List.append_assoc]⟩

/-- The feed gets no shorter. -/
theorem length_mono (h : GrowsInFront feed) : Monotone fun n => (feed n).length := by
  refine monotone_nat_of_le_succ fun n => ?_
  obtain ⟨fresh, hfresh⟩ := h n
  show (feed n).length ≤ (feed (n + 1)).length
  rw [hfresh, List.length_append]
  exact Nat.le_add_left _ _

/-- An element moves back by what is new. -/
theorem getElem?_pushed (h : GrowsInFront feed) (n i : ℕ) :
    (feed n)[(feed n).length - (feed 0).length + i]? = (feed 0)[i]? := by
  obtain ⟨fresh, hfresh⟩ := h.prepended n
  have hlength : (feed n).length - (feed 0).length = fresh.length := by
    rw [hfresh, List.length_append]
    omega
  rw [hlength, hfresh, List.getElem?_append_right (Nat.le_add_right _ _)]
  congr 1
  omega

/-- An element that the pages have come past at its present place was on one of them. -/
theorem exists_page_of_lt (h : GrowsInFront feed) (size : ℕ) {i : ℕ} {x : α}
    (hx : (feed 0)[i]? = some x) (n : ℕ)
    (hpast : (feed n).length - (feed 0).length + i < (n + 1) * size) :
    ∃ k ≤ n, x ∈ offsetPage size (k * size) (feed k) := by
  induction n with
  | zero =>
    refine ⟨0, le_rfl, mem_offsetPage hx ?_ ?_⟩
    · rw [Nat.zero_mul]
      exact Nat.zero_le i
    · omega
  | succ n ih =>
    have hmono : (feed n).length ≤ (feed (n + 1)).length := h.length_mono n.le_succ
    by_cases hbefore : (feed (n + 1)).length - (feed 0).length + i < (n + 1) * size
    · obtain ⟨k, hk, hpage⟩ := ih (by omega)
      exact ⟨k, by omega, hpage⟩
    · have hnow := (h.getElem?_pushed (n + 1) i).trans hx
      refine ⟨n + 1, le_rfl, mem_offsetPage hnow (by omega) ?_⟩
      have hsize : (n + 1 + 1) * size = (n + 1) * size + size := by ring
      omega

/-- **Pages skip nothing.** When a page comes short, everything that was there at the first request
has been on a page. -/
theorem exists_page_of_mem (h : GrowsInFront feed) {size n : ℕ}
    (hshort : (feed n).length < (n + 1) * size) {x : α} (hx : x ∈ feed 0) :
    ∃ k ≤ n, x ∈ offsetPage size (k * size) (feed k) := by
  obtain ⟨i, hi⟩ := List.getElem?_of_mem hx
  obtain ⟨hlt, -⟩ := List.getElem?_eq_some_iff.mp hi
  have hmono : (feed 0).length ≤ (feed n).length := h.length_mono n.zero_le
  exact h.exists_page_of_lt size hi n (by omega)

end GrowsInFront

end TradingEdge.Library
