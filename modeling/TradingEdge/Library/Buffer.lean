import Mathlib.Data.List.DropRight

/-!
# The last elements of a list

`List.rtake n` is what a buffer of size `n` holds of everything that was put into it.  The
lemmas say how buffers of different sizes relate, that a window over the last elements does
not see what is put before them, and that a buffer which appends and drops its first element
when it is full is one.  A buffer that drops from its front what is out of date holds what is
not, when its elements go out of date in their order.
-/

set_option autoImplicit false

namespace TradingEdge.Library

variable {α : Type}

/-- Of a list cut to its last `m` elements, the last `n` are those of the list. -/
theorem rtake_rtake (l : List α) {n m : ℕ} (h : n ≤ m) : (l.rtake m).rtake n = l.rtake n := by
  simp only [List.rtake_eq_reverse_take_reverse, List.reverse_reverse, List.take_take,
    min_eq_left h]

/-- What comes before the last `n` elements does not matter to them. -/
theorem rtake_append_of_le (older l : List α) (n : ℕ) (h : n ≤ l.length) :
    (older ++ l).rtake n = l.rtake n := by
  rw [List.rtake, List.rtake, List.length_append, List.drop_append,
    List.drop_eq_nil_of_le (by omega), List.nil_append]
  congr 1
  omega

/-- A list of at most `n` elements is all in its last `n`. -/
theorem rtake_of_length_le (l : List α) {n : ℕ} (h : l.length ≤ n) : l.rtake n = l := by
  rw [List.rtake, Nat.sub_eq_zero_of_le h, List.drop_zero]

/-- Everything is what is older than the last `n` elements, and those. -/
theorem rdrop_append_rtake (l : List α) (n : ℕ) : l.rdrop n ++ l.rtake n = l :=
  List.take_append_drop _ _

/-- The last `n` of enough elements are `n`. -/
theorem length_rtake {l : List α} {n : ℕ} (h : n ≤ l.length) : (l.rtake n).length = n := by
  rw [List.rtake, List.length_drop]
  omega

/-- The last elements are elements. -/
theorem mem_of_mem_rtake {l : List α} {n : ℕ} {a : α} (h : a ∈ l.rtake n) : a ∈ l :=
  List.mem_of_mem_drop h

/-- The last `n` elements end with the list. -/
theorem getLast?_rtake (l : List α) {n : ℕ} (hn : 0 < n) :
    (l.rtake n).getLast? = l.getLast? := by
  rcases List.eq_nil_or_concat l with rfl | ⟨before, last, rfl⟩
  · rw [List.rtake_nil]
  · obtain ⟨n, rfl⟩ := Nat.exists_eq_succ_of_ne_zero hn.ne'
    rw [List.concat_eq_append, List.rtake_concat_succ, List.getLast?_concat, List.getLast?_concat]

/-- A full buffer that appends and drops its first element holds the last `n`. -/
theorem buffer_append (l : List α) (a : α) (n : ℕ) :
    (if n < (l.rtake n ++ [a]).length then (l.rtake n ++ [a]).drop 1 else l.rtake n ++ [a]) =
      (l ++ [a]).rtake n := by
  simp only [List.rtake, List.length_append, List.length_singleton, List.length_drop]
  split
  · rw [← List.drop_append_of_le_length (by omega), List.drop_drop]
    congr 1
    omega
  · rw [← List.drop_append_of_le_length (by omega)]
    congr 1
    omega

/-- Elements that go out of date in their order are all dropped from the front. -/
theorem dropWhile_eq_filter (old : α → Bool) (l : List α)
    (h : l.Pairwise fun a b => old b = true → old a = true) :
    l.dropWhile old = l.filter fun a => !old a := by
  induction l with
  | nil => rfl
  | cons a l ih =>
    obtain ⟨hfirst, hrest⟩ := List.pairwise_cons.mp h
    cases hold : old a with
    | true =>
      rw [List.dropWhile_cons_of_pos hold, List.filter_cons_of_neg (by simp [hold])]
      exact ih hrest
    | false =>
      -- nothing after a current element is out of date
      have hall : ∀ b ∈ a :: l, (!old b) = true := by
        intro b hb
        rcases List.mem_cons.mp hb with rfl | hb
        · rw [hold]
          rfl
        · cases holdb : old b with
          | false => rfl
          | true => rw [hfirst b hb holdb] at hold; cases hold
      rw [List.dropWhile_cons_of_neg (by simp [hold]), List.filter_eq_self.mpr hall]

/-- A filter by a property that holds of all before one it holds of is a front part. -/
theorem filter_append_filter_not (p : α → Bool) {l : List α}
    (h : l.Pairwise fun a b => p b = true → p a = true) :
    l.filter p ++ (l.filter fun a => !p a) = l := by
  induction l with
  | nil => rfl
  | cons a rest ih =>
    obtain ⟨hfirst, hrest⟩ := List.pairwise_cons.mp h
    cases ha : p a with
    | true =>
      rw [List.filter_cons_of_pos ha, List.filter_cons_of_neg (by simp [ha]), List.cons_append,
        ih hrest]
    | false =>
      have hnone : rest.filter p = [] := by
        apply List.filter_eq_nil_iff.mpr
        intro b hb hpb
        rw [hfirst b hb hpb] at ha
        cases ha
      have hall : (rest.filter fun a => !p a) = rest := by
        have hsplit := ih hrest
        rw [hnone, List.nil_append] at hsplit
        exact hsplit
      rw [List.filter_cons_of_neg (by simp [ha]), List.filter_cons_of_pos (by simp [ha]), hnone,
        hall, List.nil_append]

/-- If the last element has a property that holds of all after one it holds of, some element has,
and the other way round. -/
theorem any_getLast?_iff (p : α → Bool) {l : List α}
    (h : l.Pairwise fun a b => p a = true → p b = true) :
    l.getLast?.any p = true ↔ ∃ a ∈ l, p a = true := by
  rw [Option.any_eq_true]
  constructor
  · rintro ⟨last, hlast, hp⟩
    exact ⟨last, List.mem_of_getLast? hlast, hp⟩
  · rintro ⟨a, ha, hp⟩
    rcases List.eq_nil_or_concat l with rfl | ⟨before, last, rfl⟩
    · cases ha
    · rw [List.concat_eq_append] at h ha ⊢
      refine ⟨last, List.getLast?_concat, ?_⟩
      rcases List.mem_append.mp ha with hbefore | hlast
      · exact (List.pairwise_append.mp h).2.2 a hbefore last List.mem_cons_self hp
      · rw [← List.mem_singleton.mp hlast]
        exact hp

end TradingEdge.Library
