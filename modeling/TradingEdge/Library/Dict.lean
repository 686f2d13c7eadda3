import Mathlib.Data.List.Nodup
import Mathlib.Data.List.Perm.Basic

/-!
# Insertion-ordered dictionaries

`Dict κ α` is a finite map whose entries keep the order in which their keys were
first inserted: `set` overwrites in place when the key is there and appends
otherwise, `pop` removes.  The field `nodup_keys` says a key has one entry, so
lookups and the list of values agree (`mem_entries_iff`), and the two facts that
accounting arguments need are permutations: `values_set_of_get?_none` and
`values_perm_pop`.
-/

set_option autoImplicit false

namespace TradingEdge.Library

/-- A key that no entry has is not found. -/
theorem lookup_eq_none_of_notMem {κ α : Type} [DecidableEq κ] {entries : List (κ × α)} {k : κ}
    (h : k ∉ entries.map Prod.fst) : entries.lookup k = none := by
  rw [List.lookup_eq_none_iff]
  intro e he
  have hne : k ≠ e.1 := by
    rintro rfl
    exact h (List.mem_map_of_mem he)
  simpa using hne

/-- A finite map that remembers the order in which its keys were inserted. -/
structure Dict (κ α : Type) where
  entries : List (κ × α)
  nodup_keys : (entries.map Prod.fst).Nodup

namespace Dict

variable {κ α : Type} [DecidableEq κ]

/-- The dictionary without entries. -/
def empty : Dict κ α := ⟨[], List.nodup_nil⟩

/-- The value stored under `k`. -/
def get? (d : Dict κ α) (k : κ) : Option α :=
  (d.entries.find? fun e => e.1 = k).map Prod.snd

/-- The values in insertion order. -/
def values (d : Dict κ α) : List α := d.entries.map Prod.snd

omit [DecidableEq κ] in
/-- An empty dictionary has no values. -/
@[simp] theorem values_empty : (empty : Dict κ α).values = [] := rfl

/-- An empty dictionary has no keys. -/
@[simp] theorem get?_empty (k : κ) : (empty : Dict κ α).get? k = none := rfl

/-- A key has at most one entry, so membership is lookup. -/
theorem mem_entries_iff (d : Dict κ α) (k : κ) (a : α) :
    (k, a) ∈ d.entries ↔ d.get? k = some a := by
  obtain ⟨es, hnd⟩ := d
  simp only [get?]
  induction es with
  | nil => simp
  | cons e es ih =>
    simp only [List.map_cons, List.nodup_cons] at hnd
    by_cases h : e.1 = k
    · have hk : ∀ b, (k, b) ∉ es := fun b hb =>
        hnd.1 (h ▸ List.mem_map.mpr ⟨(k, b), hb, rfl⟩)
      simp only [List.mem_cons, List.find?_cons, h, decide_true, Option.map_some,
        Option.some.injEq]
      constructor
      · rintro (rfl | hb)
        · rfl
        · exact absurd hb (hk a)
      · rintro rfl
        exact Or.inl (Prod.ext h.symm rfl)
    · have hne : (k, a) ≠ e := fun heq => h (heq ▸ rfl)
      simp only [List.mem_cons, List.find?_cons, h, decide_false, hne, false_or]
      exact ih hnd.2

/-- A key without a value has no entry. -/
theorem get?_eq_none_iff (d : Dict κ α) (k : κ) :
    d.get? k = none ↔ k ∉ d.entries.map Prod.fst := by
  constructor
  · intro h hk
    obtain ⟨e, he, rfl⟩ := List.mem_map.mp hk
    have := (d.mem_entries_iff e.1 e.2).mp he
    rw [h] at this
    cases this
  · intro h
    cases hv : d.get? k with
    | none => rfl
    | some a =>
      exact absurd (List.mem_map.mpr ⟨(k, a), (d.mem_entries_iff k a).mpr hv, rfl⟩) h

/-- `d[k] = a`: overwrite in place, or append a new entry at the end. -/
def set (d : Dict κ α) (k : κ) (a : α) : Dict κ α :=
  if h : (d.get? k).isSome then
    ⟨d.entries.map fun e => if e.1 = k then (k, a) else e, by
      have hfst : (d.entries.map fun e => if e.1 = k then (k, a) else e).map Prod.fst =
          d.entries.map Prod.fst := by
        rw [List.map_map]
        refine List.map_congr_left fun e _ => ?_
        by_cases he : e.1 = k <;> simp [he]
      rw [hfst]
      exact d.nodup_keys⟩
  else
    ⟨d.entries ++ [(k, a)], by
      have hk := (d.get?_eq_none_iff k).mp (Option.not_isSome_iff_eq_none.mp h)
      rw [List.map_append, List.map_singleton]
      exact d.nodup_keys.append (List.nodup_singleton k)
        (List.disjoint_singleton.mpr hk)⟩

/-- `d.pop(k, None)` seen as the dictionary that is left. -/
def pop (d : Dict κ α) (k : κ) : Dict κ α :=
  ⟨d.entries.filter fun e => e.1 ≠ k,
    d.nodup_keys.sublist (List.Sublist.map _ List.filter_sublist)⟩

/-- `d.setdefault(k, a)` seen as the dictionary that is left. -/
def setDefault (d : Dict κ α) (k : κ) (a : α) : Dict κ α :=
  if (d.get? k).isSome then d else d.set k a

/-- Setting a key changes that one only. -/
theorem get?_set (d : Dict κ α) (k k' : κ) (a : α) :
    (d.set k a).get? k' = if k' = k then some a else d.get? k' := by
  have key : ∀ b, (k', b) ∈ (d.set k a).entries ↔
      if k' = k then b = a else (k', b) ∈ d.entries := by
    intro b
    unfold set
    by_cases h : (d.get? k).isSome
    · rw [dif_pos h, List.mem_map]
      obtain ⟨v, hv⟩ := Option.isSome_iff_exists.mp h
      constructor
      · rintro ⟨e, he, heq⟩
        by_cases hk : e.1 = k
        · rw [if_pos hk] at heq
          obtain ⟨rfl, rfl⟩ := Prod.mk.inj heq
          simp
        · rw [if_neg hk] at heq
          subst heq
          rw [if_neg hk]
          exact he
      · by_cases hk : k' = k
        · rw [if_pos hk]
          rintro rfl
          exact ⟨(k, v), (d.mem_entries_iff k v).mpr hv, by simp [hk]⟩
        · rw [if_neg hk]
          exact fun hb => ⟨(k', b), hb, by simp [hk]⟩
    · rw [dif_neg h, List.mem_append, List.mem_singleton, Prod.mk.injEq]
      have hnone := Option.not_isSome_iff_eq_none.mp h
      by_cases hk : k' = k
      · subst hk
        have : (k', b) ∉ d.entries := by
          rw [d.mem_entries_iff, hnone]
          exact fun hc => by cases hc
        simp [this]
      · simp [hk]
  apply Option.ext
  intro b
  rw [← mem_entries_iff, key]
  by_cases hk : k' = k
  · simp [hk, eq_comm]
  · simp [hk, mem_entries_iff]

/-- A key that is set has its value. -/
@[simp] theorem get?_set_self (d : Dict κ α) (k : κ) (a : α) :
    (d.set k a).get? k = some a := by
  rw [get?_set, if_pos rfl]

/-- Popping a key removes that one only. -/
theorem get?_pop (d : Dict κ α) (k k' : κ) :
    (d.pop k).get? k' = if k' = k then none else d.get? k' := by
  apply Option.ext
  intro b
  rw [← mem_entries_iff]
  by_cases hk : k' = k
  · simp [pop, hk]
  · simp [pop, hk, mem_entries_iff]

/-- A key that is popped is gone. -/
@[simp] theorem get?_pop_self (d : Dict κ α) (k : κ) : (d.pop k).get? k = none := by
  rw [get?_pop, if_pos rfl]

/-- Popping an absent key changes nothing. -/
theorem pop_of_get?_none (d : Dict κ α) (k : κ) (h : d.get? k = none) : d.pop k = d := by
  have hk := (d.get?_eq_none_iff k).mp h
  have : (d.entries.filter fun e => e.1 ≠ k) = d.entries := by
    rw [List.filter_eq_self]
    intro e he
    simpa using fun heq : e.1 = k => hk (List.mem_map.mpr ⟨e, he, heq⟩)
  cases d
  simp only [pop] at this ⊢
  simp only [this]

/-- The values are those of the keys. -/
theorem mem_values_iff (d : Dict κ α) (a : α) :
    a ∈ d.values ↔ ∃ k, d.get? k = some a := by
  simp only [values, List.mem_map]
  constructor
  · rintro ⟨e, he, rfl⟩
    exact ⟨e.1, (d.mem_entries_iff e.1 e.2).mp he⟩
  · rintro ⟨k, hk⟩
    exact ⟨(k, a), (d.mem_entries_iff k a).mpr hk, rfl⟩

/-- A new key adds its value at the end. -/
theorem values_set_of_get?_none (d : Dict κ α) (k : κ) (a : α) (h : d.get? k = none) :
    (d.set k a).values = d.values ++ [a] := by
  simp [set, values, h]

/-- Popping a present key removes exactly its value. -/
theorem values_perm_pop (d : Dict κ α) (k : κ) (a : α) (h : d.get? k = some a) :
    d.values.Perm (a :: (d.pop k).values) := by
  have hmem := (d.mem_entries_iff k a).mpr h
  obtain ⟨es, hnd⟩ := d
  simp only [values, pop] at hmem ⊢
  clear h
  induction es with
  | nil => cases hmem
  | cons e es ih =>
    simp only [List.map_cons, List.nodup_cons] at hnd
    rcases List.mem_cons.mp hmem with rfl | hmem'
    · have hrest : (es.filter fun e => e.1 ≠ k) = es := by
        rw [List.filter_eq_self]
        intro e he
        simpa using fun heq : e.1 = k => hnd.1 (List.mem_map.mpr ⟨e, he, heq⟩)
      rw [List.filter_cons_of_neg (by simp), hrest, List.map_cons]
    · have hne : e.1 ≠ k := fun heq =>
        hnd.1 (heq ▸ List.mem_map.mpr ⟨(k, a), hmem', rfl⟩)
      have := ih hnd.2 hmem'
      simp only [List.map_cons, List.filter_cons, hne, ne_eq, not_false_eq_true, decide_true,
        if_true]
      exact (this.cons e.2).trans (List.Perm.swap _ _ _)

end Dict

end TradingEdge.Library
