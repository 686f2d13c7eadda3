import TradingEdge.Library.Table
import TradingEdge.Model.Types

/-!
# The shared statements

`common/db.py`: the two ways in which adapters and scripts write many rows at once.  Both leave
a row that is there as it is.
-/

set_option autoImplicit false

namespace TradingEdge.Program

open TradingEdge.Library

variable {ρ κ : Type} {key : ρ → κ} [DecidableEq κ]

/-- SOURCE: common/db.py:51-71 -/
def upsertMany (t : Table key) (rows : List ρ) : Table key := rows.foldl Table.insertNew t

/-- The copy through a temporary table, as its callers use it: without columns to update.
SOURCE: common/db.py:74-125 -/
def bulkUpsertViaCopy (t : Table key) (rows : List ρ) : Table key := rows.foldl Table.insertNew t

/-- Calls in a row write what one call with all rows writes. -/
theorem foldl_upsertMany (t : Table key) (batches : List (List ρ)) :
    batches.foldl upsertMany t = upsertMany t batches.flatten := by
  induction batches generalizing t with
  | nil => rfl
  | cons rows rest ih =>
    rw [List.foldl_cons, ih, List.flatten_cons, upsertMany, upsertMany, upsertMany,
      List.foldl_append]

/-- After a call the row of a key is the one that was there, or else the first new one. -/
theorem find?_upsertMany (t : Table key) (rows : List ρ) (k : κ) :
    (upsertMany t rows).rows.find? (fun r => key r = k) =
      (t.rows ++ rows).find? (fun r => key r = k) :=
  Table.find?_foldl_insertNew t rows k

/-- A row that is put in is found under its key, unless another was. -/
theorem exists_key_upsertMany (t : Table key) {rows : List ρ} {row : ρ} (h : row ∈ rows) :
    ∃ r ∈ (upsertMany t rows).rows, key r = key row := by
  have hsome : ((t.rows ++ rows).find? fun r => key r = key row).isSome := by
    rw [List.find?_isSome]
    exact ⟨row, List.mem_append_right _ h, decide_eq_true rfl⟩
  rw [← find?_upsertMany] at hsome
  obtain ⟨r, hr⟩ := Option.isSome_iff_exists.mp hsome
  have hkey := List.find?_some hr
  simp only [decide_eq_true_eq] at hkey
  exact ⟨r, List.mem_of_find?_eq_some hr, hkey⟩

/-- A row that is there stays. -/
theorem mem_upsertMany_of_mem {t : Table key} {rows : List ρ} {r : ρ} (h : r ∈ t.rows) :
    r ∈ (upsertMany t rows).rows := by
  rw [Table.mem_rows_iff_find?] at h ⊢
  rw [find?_upsertMany, List.find?_append, h, Option.some_or]

/-- A call makes up no rows. -/
theorem mem_of_mem_upsertMany {t : Table key} {rows : List ρ} {r : ρ}
    (h : r ∈ (upsertMany t rows).rows) : r ∈ t.rows ∨ r ∈ rows := by
  rw [Table.mem_rows_iff_find?, find?_upsertMany] at h
  exact List.mem_append.mp (List.mem_of_find?_eq_some h)

end TradingEdge.Program
