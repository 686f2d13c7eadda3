import Mathlib.Algebra.BigOperators.Group.List.Basic
import Mathlib.Data.List.Nodup

/-!
# Tables with a primary key

A `Table key` is a list of rows whose keys differ.  `insertNew` is the
`INSERT … ON CONFLICT DO NOTHING` of a relational store: a row whose key is already there
is not written, and an old row is never changed.  `updateWhere` is an `UPDATE … WHERE` of
columns outside the key.
-/

set_option autoImplicit false

namespace TradingEdge.Library

/-- Rows with pairwise different keys. -/
structure Table {ρ κ : Type} (key : ρ → κ) where
  rows : List ρ
  nodup_keys : (rows.map key).Nodup

namespace Table

variable {ρ κ : Type} {key : ρ → κ}

/-- The table without rows. -/
def empty : Table key := ⟨[], List.nodup_nil⟩

/-- An empty table has no rows. -/
@[simp] theorem rows_empty : (empty : Table key).rows = [] := rfl

variable [DecidableEq κ]

/-- Insert a row unless a row with its key is there. -/
def insertNew (t : Table key) (r : ρ) : Table key :=
  if h : key r ∈ t.rows.map key then t
  else ⟨t.rows ++ [r], by
    rw [List.map_append, List.map_singleton]
    exact t.nodup_keys.append (List.nodup_singleton _) (List.disjoint_singleton.mpr h)⟩

/-- What an insert leaves: the old rows, or the old rows and the new one. -/
theorem rows_insertNew (t : Table key) (r : ρ) :
    (t.insertNew r).rows = if key r ∈ t.rows.map key then t.rows else t.rows ++ [r] := by
  unfold insertNew
  split <;> rfl

/-- A row with a key of its own is added at the end. -/
theorem rows_insertNew_of_forall (t : Table key) (r : ρ) (h : ∀ r' ∈ t.rows, key r' ≠ key r) :
    (t.insertNew r).rows = t.rows ++ [r] := by
  have hnew : key r ∉ t.rows.map key := by
    intro hmem
    obtain ⟨r', hr', heq⟩ := List.mem_map.mp hmem
    exact h r' hr' heq
  rw [rows_insertNew, if_neg hnew]

/-- So are rows whose keys are new and differ. -/
theorem rows_foldl_insertNew (t : Table key) (rs : List ρ) (hnodup : (rs.map key).Nodup)
    (h : ∀ r ∈ rs, ∀ r' ∈ t.rows, key r' ≠ key r) :
    (rs.foldl Table.insertNew t).rows = t.rows ++ rs := by
  induction rs generalizing t with
  | nil => exact (List.append_nil _).symm
  | cons r rs ih =>
    rw [List.map_cons, List.nodup_cons] at hnodup
    obtain ⟨hr, hrs⟩ := hnodup
    have hrow := t.rows_insertNew_of_forall r (h r List.mem_cons_self)
    rw [List.foldl_cons, ih _ hrs, hrow, List.append_assoc]
    · rfl
    · intro s hs r' hr'
      rw [hrow, List.mem_append, List.mem_singleton] at hr'
      rcases hr' with hold | rfl
      · exact h s (List.mem_cons_of_mem _ hs) r' hold
      · intro heq
        exact hr (List.mem_map.mpr ⟨s, hs, heq.symm⟩)

/-- An insert keeps every row. -/
theorem mem_insertNew_of_mem (t : Table key) (r : ρ) {r' : ρ} (h : r' ∈ t.rows) :
    r' ∈ (t.insertNew r).rows := by
  rw [rows_insertNew]
  split
  · exact h
  · exact List.mem_append_left _ h

/-- A row that an insert adds is the inserted one. -/
theorem mem_of_mem_insertNew (t : Table key) (r : ρ) {r' : ρ}
    (h : r' ∈ (t.insertNew r).rows) : r' ∈ t.rows ∨ r' = r := by
  rw [rows_insertNew] at h
  split at h
  · exact Or.inl h
  · simpa using h

/-- What every row and the new row satisfy, every row of the new table satisfies. -/
theorem forall_mem_insertNew {Q : ρ → Prop} (t : Table key) (r : ρ)
    (ht : ∀ r' ∈ t.rows, Q r') (hr : Q r) : ∀ r' ∈ (t.insertNew r).rows, Q r' := by
  intro r' h
  rcases t.mem_of_mem_insertNew r h with h | rfl
  · exact ht r' h
  · exact hr

/-- **The first writer wins.** After any number of inserts the row of a key is the first one that
was there or came. -/
theorem find?_foldl_insertNew (t : Table key) (rs : List ρ) (k : κ) :
    (rs.foldl Table.insertNew t).rows.find? (fun r => key r = k) =
      (t.rows ++ rs).find? (fun r => key r = k) := by
  induction rs generalizing t with
  | nil => rw [List.foldl_nil, List.append_nil]
  | cons r rs ih =>
    rw [List.foldl_cons, ih, rows_insertNew]
    split
    · rename_i hmem
      obtain ⟨r', hr', heq⟩ := List.mem_map.mp hmem
      rw [List.find?_append, List.find?_append, List.find?_cons]
      by_cases hk : key r = k
      · have hfound : (t.rows.find? fun r => key r = k).isSome := by
          rw [List.find?_isSome]
          exact ⟨r', hr', decide_eq_true (heq.trans hk)⟩
        obtain ⟨found, hfound⟩ := Option.isSome_iff_exists.mp hfound
        rw [hfound, Option.some_or, Option.some_or]
      · rw [decide_eq_false hk]
    · rw [List.append_assoc, List.singleton_append]

/-- A table holds a row exactly when it is the one found under its key. -/
theorem mem_rows_iff_find? (t : Table key) (r : ρ) :
    r ∈ t.rows ↔ t.rows.find? (fun r' => key r' = key r) = some r := by
  constructor
  · intro h
    have hsome : (t.rows.find? fun r' => key r' = key r).isSome := by
      rw [List.find?_isSome]
      exact ⟨r, h, decide_eq_true rfl⟩
    obtain ⟨found, hfound⟩ := Option.isSome_iff_exists.mp hsome
    have hkey := List.find?_some hfound
    simp only [decide_eq_true_eq] at hkey
    rw [hfound, List.inj_on_of_nodup_map t.nodup_keys (List.mem_of_find?_eq_some hfound) h hkey]
  · exact List.mem_of_find?_eq_some

omit [DecidableEq κ] in
/-- Change the rows that satisfy `p`, in a way that keeps their keys. -/
def updateWhere (t : Table key) (p : ρ → Bool) (f : ρ → ρ) (hf : ∀ r, key (f r) = key r) :
    Table key :=
  ⟨t.rows.map fun r => if p r then f r else r, by
    have hkeys : (t.rows.map fun r => if p r then f r else r).map key = t.rows.map key := by
      rw [List.map_map]
      apply List.map_congr_left
      intro r _
      by_cases hp : p r = true
      · simp [hp, hf]
      · simp [hp]
    rw [hkeys]
    exact t.nodup_keys⟩

end Table

end TradingEdge.Library
