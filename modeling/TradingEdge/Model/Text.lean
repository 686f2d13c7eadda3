import Mathlib.Data.List.DropRight

/-!
# Texts

The functions of Python's `str` that the repository's parsers and command handlers use, on lists
of characters.  White space is what `str.isspace` says it is.
-/

set_option autoImplicit false

namespace TradingEdge.Model

/-- `str.isspace` of a character. -/
def isSpace (c : Char) : Bool :=
  let n := c.toNat
  9 ≤ n ∧ n ≤ 13 ∨ 28 ≤ n ∧ n ≤ 32 ∨ n = 133 ∨ n = 160 ∨ n = 5760 ∨ 8192 ≤ n ∧ n ≤ 8202 ∨
    n = 8232 ∨ n = 8233 ∨ n = 8239 ∨ n = 8287 ∨ n = 12288

/-- `str.strip()`. -/
def strip (cs : List Char) : List Char := (cs.dropWhile isSpace).rdropWhile isSpace

/-- `str.rstrip()`. -/
def rstrip (cs : List Char) : List Char := cs.rdropWhile isSpace

/-- `str.rfind` of a character, `none` for its `-1`. -/
def rfind (c : Char) : List Char → Option ℕ
  | [] => none
  | a :: cs =>
    match rfind c cs with
    | some i => some (i + 1)
    | none => if a = c then some 0 else none

/-- `str.split()`. -/
def splitSpaces (cs : List Char) : List (List Char) :=
  (cs.splitOnP isSpace).filter (· ≠ [])

/-- `str.partition(" ")` without the separator. -/
def partitionSpace (cs : List Char) : List Char × List Char :=
  (cs.takeWhile (· ≠ ' '), (cs.dropWhile (· ≠ ' ')).drop 1)

/-- The digits of an integer literal, in groups that single underscores separate. -/
def parseDigits (cs : List Char) : Option ℕ :=
  let groups := cs.splitOn '_'
  if ∀ g ∈ groups, g ≠ [] ∧ g.all Char.isDigit then
    some (groups.flatten.foldl (fun n c => 10 * n + (c.toNat - '0'.toNat)) 0)
  else none

/-- `int` of a text with ASCII digits; `none` where it raises. -/
def parseInt (cs : List Char) : Option ℤ :=
  match strip cs with
  | '+' :: digits => (parseDigits digits).map (↑)
  | '-' :: digits => (parseDigits digits).map fun n => -(n : ℤ)
  | digits => (parseDigits digits).map (↑)

/-- What begins with a character that is no space still does when the spaces at its end are
gone. -/
theorem dropWhile_rdropWhile {p : Char → Bool} {cs : List Char} (h : cs.dropWhile p = cs) :
    (cs.rdropWhile p).dropWhile p = cs.rdropWhile p := by
  cases hr : cs.rdropWhile p with
  | nil => rfl
  | cons c rest =>
    obtain ⟨tail, htail⟩ := hr ▸ List.rdropWhile_prefix p cs
    rw [← htail] at h
    cases hc : p c with
    | false => rw [List.dropWhile_cons, hc]; rfl
    | true =>
      rw [List.cons_append, List.dropWhile_cons, if_pos hc] at h
      have hlen := congrArg List.length h
      have hle := (List.dropWhile_sublist p (l := rest ++ tail)).length_le
      rw [List.length_cons] at hlen
      omega

/-- A stripped text has nothing more to strip. -/
@[simp] theorem strip_strip (cs : List Char) : strip (strip cs) = strip cs := by
  unfold strip
  rw [dropWhile_rdropWhile (List.dropWhile_idempotent _ _), List.rdropWhile_idempotent]

/-- What `rfind` finds is the character. -/
theorem getElem?_of_rfind {c : Char} {cs : List Char} {i : ℕ} (h : rfind c cs = some i) :
    cs[i]? = some c := by
  induction cs generalizing i with
  | nil => cases h
  | cons a cs ih =>
    rw [rfind] at h
    cases hrest : rfind c cs with
    | some j =>
      simp only [hrest, Option.some.injEq] at h
      subst h
      rw [List.getElem?_cons_succ]
      exact ih hrest
    | none =>
      simp only [hrest] at h
      split at h
      · next hac =>
        obtain rfl := Option.some.inj h
        rw [List.getElem?_cons_zero, hac]
      · cases h

end TradingEdge.Model
