import Mathlib.Data.List.Induction
import Mathlib.Order.Lattice
import TradingEdge.Library.Dict

/-!
# Grouping by a key

`grouped key l` is the dictionary of `d.setdefault(key(a), []).append(a)` over a list: its keys are
in the order in which they are first seen, and each has the elements of its key in the order they
had (`entries_grouped`).  In a list that is sorted by a time the groups are in the order of their
first times (`pairwise_firstSeen`).
-/

set_option autoImplicit false

namespace TradingEdge.Library

variable {α κ β : Type} [DecidableEq κ]

/-! ## Dictionaries built from a list -/

/-- Setting a key replaces its value where it stands, or adds it at the end. -/
theorem Dict.entries_set (d : Dict κ β) (k : κ) (b : β) :
    (d.set k b).entries =
      if (d.get? k).isSome then d.entries.map fun e => if e.1 = k then (k, b) else e
      else d.entries ++ [(k, b)] := by
  unfold Dict.set
  split
  · rfl
  · rfl

/-- Put all entries of a list in. -/
def Dict.setAll (d : Dict κ β) (es : List (κ × β)) : Dict κ β :=
  es.foldl (fun d e => d.set e.1 e.2) d

/-- Entries with different keys go over those that were there. -/
theorem Dict.get?_setAll (d : Dict κ β) (es : List (κ × β)) (hnodup : (es.map Prod.fst).Nodup)
    (k : κ) :
    (d.setAll es).get? k = ((es.find? fun e => e.1 = k).map Prod.snd).or (d.get? k) := by
  induction es generalizing d with
  | nil => rfl
  | cons e es ih =>
    rw [List.map_cons, List.nodup_cons] at hnodup
    obtain ⟨hnew, hrest⟩ := hnodup
    show ((d.set e.1 e.2).setAll es).get? k = _
    rw [ih _ hrest, Dict.get?_set, List.find?_cons]
    by_cases hk : e.1 = k
    · have hnone : es.find? (fun e => e.1 = k) = none := by
        rw [List.find?_eq_none]
        intro e' he' hkey
        exact hnew (List.mem_map.mpr ⟨e', he', (of_decide_eq_true hkey).trans hk.symm⟩)
      rw [hnone, if_pos hk.symm, decide_eq_true hk]
      rfl
    · rw [if_neg fun h => hk h.symm, decide_eq_false hk]

/-- The same, where what the entries have for a key is known. -/
theorem Dict.get?_setAll_of_mem (d : Dict κ β) {es : List (κ × β)}
    (hnodup : (es.map Prod.fst).Nodup) {k : κ} {v : Option β}
    (h : ∀ b, (k, b) ∈ es ↔ v = some b) : (d.setAll es).get? k = v.or (d.get? k) := by
  have hfind : (es.find? fun e => e.1 = k).map Prod.snd = v := by
    apply Option.ext
    intro b
    rw [← h b]
    exact ((⟨es, hnodup⟩ : Dict κ β).mem_entries_iff k b).symm
  rw [d.get?_setAll es hnodup, hfind]

/-- `{key(a): value(a) for a in l}`: a later element overwrites an earlier one. -/
def Dict.ofList (key : α → κ) (value : α → β) (l : List α) : Dict κ β :=
  l.foldl (fun d a => d.set (key a) (value a)) Dict.empty

/-- Of several entries of a key the last one counts. -/
theorem Dict.get?_ofList (key : α → κ) (value : α → β) (l : List α) (k : κ) :
    (Dict.ofList key value l).get? k = (l.filter fun a => key a = k).getLast?.map value := by
  induction l using List.reverseRecOn with
  | nil => rfl
  | append_singleton l a ih =>
    have hstep : Dict.ofList key value (l ++ [a]) =
        (Dict.ofList key value l).set (key a) (value a) := by
      rw [Dict.ofList, List.foldl_append]
      rfl
    rw [hstep, Dict.get?_set, List.filter_append, List.filter_singleton, ih]
    by_cases h : key a = k
    · rw [if_pos h.symm, decide_eq_true h]
      simp
    · rw [if_neg (Ne.symm h), decide_eq_false h]
      simp

/-- A list whose elements are all the same ends in it. -/
theorem getLast?_eq_some_of_forall {l : List α} {a : α} (hmem : a ∈ l) (h : ∀ b ∈ l, b = a) :
    l.getLast? = some a := by
  cases hlast : l.getLast? with
  | none =>
    rw [List.getLast?_eq_none_iff.mp hlast] at hmem
    exact absurd hmem List.not_mem_nil
  | some b => rw [h b (List.mem_of_getLast? hlast)]

/-- `{k: f(k) for k in l if f has k}` has the value of `f` at a key of `l`. -/
theorem Dict.get?_ofList_filterMap (f : κ → Option β) {l : List κ} {k : κ} (hk : k ∈ l) :
    (Dict.ofList Prod.fst Prod.snd
      (l.filterMap fun k => (f k).map fun b => (k, b))).get? k = f k := by
  have hmem : ∀ e : κ × β,
      e ∈ (l.filterMap fun k => (f k).map fun b => (k, b)).filter (fun e => e.1 = k) ↔
        e.1 = k ∧ f k = some e.2 := by
    intro e
    rw [List.mem_filter, List.mem_filterMap, decide_eq_true_eq]
    constructor
    · rintro ⟨⟨k', -, heq⟩, rfl⟩
      obtain ⟨b, hb, rfl⟩ := Option.map_eq_some_iff.mp heq
      exact ⟨rfl, hb⟩
    · rintro ⟨rfl, hval⟩
      exact ⟨⟨e.1, hk, by rw [hval]; rfl⟩, rfl⟩
  rw [Dict.get?_ofList]
  cases hf : f k with
  | none =>
    have hnil : (l.filterMap fun k => (f k).map fun b => (k, b)).filter
        (fun e => e.1 = k) = [] := by
      rw [List.eq_nil_iff_forall_not_mem]
      intro e he
      have hval := ((hmem e).mp he).2
      rw [hf] at hval
      cases hval
    rw [hnil]
    rfl
  | some b =>
    rw [getLast?_eq_some_of_forall ((hmem (k, b)).mpr ⟨rfl, hf⟩)]
    · rfl
    · intro e he
      obtain ⟨hkey, hval⟩ := (hmem e).mp he
      rw [hf, Option.some_inj] at hval
      exact Prod.ext hkey hval.symm

/-! ## Keys in the order they are seen -/

/-- The different keys of a list, in the order in which they are first seen. -/
def firstSeen (ks : List κ) : List κ :=
  ks.foldl (fun seen k => if k ∈ seen then seen else seen ++ [k]) []

/-- A key that was seen is not listed again. -/
theorem firstSeen_concat (ks : List κ) (k : κ) :
    firstSeen (ks ++ [k]) = if k ∈ firstSeen ks then firstSeen ks else firstSeen ks ++ [k] := by
  rw [firstSeen, List.foldl_append]
  rfl

/-- All keys are listed. -/
theorem mem_firstSeen {ks : List κ} {k : κ} : k ∈ firstSeen ks ↔ k ∈ ks := by
  induction ks using List.reverseRecOn with
  | nil => rfl
  | append_singleton ks k' ih =>
    rw [firstSeen_concat, List.mem_append, List.mem_singleton, ← ih]
    split
    · next hseen => exact ⟨.inl, fun h => h.elim id fun heq => heq ▸ hseen⟩
    · rw [List.mem_append, List.mem_singleton]

/-- No key is listed twice. -/
theorem nodup_firstSeen (ks : List κ) : (firstSeen ks).Nodup := by
  induction ks using List.reverseRecOn with
  | nil => exact List.nodup_nil
  | append_singleton ks k ih =>
    rw [firstSeen_concat]
    split
    · exact ih
    · next hnew => exact ih.append (List.nodup_singleton k) (List.disjoint_singleton.mpr hnew)

/-- The first key is seen first. -/
theorem head?_firstSeen (ks : List κ) : (firstSeen ks).head? = ks.head? := by
  induction ks using List.reverseRecOn with
  | nil => rfl
  | append_singleton ks k ih =>
    rw [firstSeen_concat, List.head?_append, ← ih]
    split
    · next hseen =>
      cases hks : firstSeen ks with
      | nil =>
        rw [hks] at hseen
        exact absurd hseen List.not_mem_nil
      | cons k' seen => rfl
    · rw [List.head?_append]

/-- In a list in the order of its times, what is seen first is first in time. -/
theorem pairwise_firstSeen {τ : Type} [LinearOrder τ] {key : α → κ} {time : α → τ} {l : List α}
    (h : l.Pairwise fun a b => time a ≤ time b) :
    (firstSeen (l.map key)).Pairwise fun k k' =>
      ∀ b ∈ l, key b = k' → ∃ a ∈ l, key a = k ∧ time a ≤ time b := by
  induction l using List.reverseRecOn with
  | nil => exact List.Pairwise.nil
  | append_singleton l x ih =>
    obtain ⟨hsorted, -, hlast⟩ := List.pairwise_append.mp h
    -- every key seen before has an element in front of the new one
    have hseen : ∀ k ∈ firstSeen (l.map key), ∃ a ∈ l ++ [x], key a = k ∧ time a ≤ time x := by
      intro k hk
      obtain ⟨a, ha, rfl⟩ := List.mem_map.mp (mem_firstSeen.mp hk)
      exact ⟨a, List.mem_append_left [x] ha, rfl, hlast a ha x (List.mem_singleton_self x)⟩
    have hold : (firstSeen (l.map key)).Pairwise fun k k' =>
        ∀ b ∈ l ++ [x], key b = k' → ∃ a ∈ l ++ [x], key a = k ∧ time a ≤ time b := by
      refine (ih hsorted).imp_of_mem ?_
      intro k k' hk _ hfirst b hb hkey
      rcases List.mem_append.mp hb with hb | hb
      · obtain ⟨a, ha, hkey', hle⟩ := hfirst b hb hkey
        exact ⟨a, List.mem_append_left [x] ha, hkey', hle⟩
      · obtain rfl := List.mem_singleton.mp hb
        exact hseen k hk
    rw [List.map_append, List.map_singleton, firstSeen_concat]
    split
    · exact hold
    · next hnew =>
      refine List.pairwise_append.mpr ⟨hold, List.pairwise_singleton _ _, ?_⟩
      intro k hk k' hk' b hb hkey
      obtain rfl := List.mem_singleton.mp hk'
      rcases List.mem_append.mp hb with hb | hb
      · have hmem : key b ∈ firstSeen (l.map key) := mem_firstSeen.mpr (List.mem_map_of_mem hb)
        exact absurd (hkey ▸ hmem) hnew
      · obtain rfl := List.mem_singleton.mp hb
        exact hseen k hk

/-! ## Groups -/

/-- `for a in l: d.setdefault(key(a), []).append(a)`. -/
def grouped (key : α → κ) (l : List α) : Dict κ (List α) :=
  l.foldl (fun d a => d.set (key a) ((d.get? (key a)).getD [] ++ [a])) Dict.empty

/-- One more element goes to the end of its group. -/
theorem grouped_concat (key : α → κ) (l : List α) (a : α) :
    grouped key (l ++ [a]) =
      (grouped key l).set (key a) (((grouped key l).get? (key a)).getD [] ++ [a]) := by
  rw [grouped, List.foldl_append]
  rfl

/-- A group has the elements of its key, in order. -/
theorem get?_grouped (key : α → κ) (l : List α) (k : κ) :
    (grouped key l).get? k =
      if k ∈ l.map key then some (l.filter fun a => key a = k) else none := by
  induction l using List.reverseRecOn with
  | nil => rfl
  | append_singleton l a ih =>
    have hkeys : k ∈ (l ++ [a]).map key ↔ k ∈ l.map key ∨ k = key a := by
      rw [List.map_append, List.mem_append, List.map_singleton, List.mem_singleton]
    rw [grouped_concat, Dict.get?_set, List.filter_append, List.filter_singleton]
    simp only [hkeys]
    by_cases h : k = key a
    · subst h
      rw [if_pos rfl, if_pos (.inr rfl), decide_eq_true rfl, ih]
      by_cases hmem : key a ∈ l.map key
      · rw [if_pos hmem]
        rfl
      · have hnone : l.filter (fun b => key b = key a) = [] := by
          rw [List.filter_eq_nil_iff]
          intro b hb heq
          exact hmem (of_decide_eq_true heq ▸ List.mem_map_of_mem hb)
        rw [if_neg hmem, hnone]
        rfl
    · rw [if_neg h, ih, decide_eq_false (Ne.symm h)]
      simp [h]

/-- **Groups.**  The keys as they are first seen, each with its elements as they come. -/
theorem entries_grouped (key : α → κ) (l : List α) :
    (grouped key l).entries =
      (firstSeen (l.map key)).map fun k => (k, l.filter fun a => key a = k) := by
  induction l using List.reverseRecOn with
  | nil => rfl
  | append_singleton l a ih =>
    have hother : ∀ k, k ≠ key a →
        (l ++ [a]).filter (fun b => key b = k) = l.filter fun b => key b = k := by
      intro k hk
      rw [List.filter_append, List.filter_singleton, decide_eq_false (Ne.symm hk)]
      exact List.append_nil _
    have hself : (l ++ [a]).filter (fun b => key b = key a) =
        l.filter (fun b => key b = key a) ++ [a] := by
      rw [List.filter_append, List.filter_singleton, decide_eq_true rfl]
      rfl
    rw [grouped_concat, Dict.entries_set, get?_grouped, List.map_append, List.map_singleton,
      firstSeen_concat, ih]
    by_cases hmem : key a ∈ l.map key
    · rw [if_pos hmem, if_pos (mem_firstSeen.mpr hmem), Option.isSome_some, if_pos rfl,
        List.map_map, Option.getD_some]
      apply List.map_congr_left
      intro k _
      by_cases hk : k = key a
      · subst hk
        simp [hself]
      · simp [hk, hother k hk]
    · have hnone : l.filter (fun b => key b = key a) = [] := by
        rw [List.filter_eq_nil_iff]
        intro b hb heq
        exact hmem (of_decide_eq_true heq ▸ List.mem_map_of_mem hb)
      rw [if_neg hmem, if_neg (fun h => hmem (mem_firstSeen.mp h)), Option.isSome_none,
        if_neg (by simp), List.map_append, List.map_singleton, hself, hnone, Option.getD_none]
      congr 1
      apply List.map_congr_left
      intro k hk
      rw [hother k fun heq => hmem (heq ▸ mem_firstSeen.mp hk)]

end TradingEdge.Library
