import Mathlib.Data.List.Basic

/-!
# Reading the entries of a list

A list is read entry by entry, and the first entry that cannot be read loses it as a whole:
`mapM` in `Except` gives all the values, or an error.
-/

set_option autoImplicit false

namespace TradingEdge.Library

variable {α β : Type}

/-- The list is read exactly if each of its entries is, and then it has the value of each. -/
theorem mapM_eq_ite (f : α → Except Unit β) (l : List α) :
    l.mapM f =
      if ∀ a ∈ l, (f a).isOk then .ok (l.filterMap fun a => (f a).toOption) else .error () := by
  induction l with
  | nil => rfl
  | cons a l ih =>
    rw [List.mapM_cons, ih]
    cases hread : f a with
    | error e =>
      have hraises : ¬∀ a' ∈ a :: l, (f a').isOk := by
        intro h
        have hok := h a List.mem_cons_self
        rw [hread] at hok
        exact Bool.false_ne_true hok
      rw [if_neg hraises]
      rfl
    | ok b =>
      have hok : (f a).isOk = true := by
        rw [hread]
        rfl
      have hvalues : (a :: l).filterMap (fun a => (f a).toOption) =
          b :: l.filterMap fun a => (f a).toOption := by
        rw [List.filterMap_cons, hread]
        rfl
      have hiff : (∀ a' ∈ a :: l, (f a').isOk) ↔ ∀ a' ∈ l, (f a').isOk := by
        simp [hok]
      rw [hvalues]
      by_cases hall : ∀ a' ∈ l, (f a').isOk
      · rw [if_pos hall, if_pos (hiff.mpr hall)]
        rfl
      · rw [if_neg hall, if_neg (mt hiff.mp hall)]
        rfl

/-- What a list of lists has first is in the first of them that has any. -/
theorem find?_flatMap_eq_some_iff {f : α → List β} {p : β → Bool} {l : List α} {b : β} :
    (l.flatMap f).find? p = some b ↔
      ∃ before a after, l = before ++ a :: after ∧ (f a).find? p = some b ∧
        ∀ earlier ∈ before, (f earlier).find? p = none := by
  rw [List.find?_flatMap, List.findSome?_eq_some_iff]

end TradingEdge.Library
