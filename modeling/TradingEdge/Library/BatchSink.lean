import Mathlib.Algebra.Order.Ring.Rat
import TradingEdge.Library.Machine

/-!
# Elements that are written in batches

Elements come in while a connection is open, and a buffer collects them until a batch is due.  A
batch is written or its write fails; the connection then closes, as it may at any time, and what the
buffer holds is lost.  Nothing else happens to an element (`received_eq`), and no more is lost at
once than a buffer that is not due and what came last (`lost_bounded`).
-/

set_option autoImplicit false

namespace TradingEdge.Library

variable {α : Type}

/-- What an open connection has received since its last batch, and when that was. -/
structure BatchBuffer (α : Type) where
  held : List α
  lastFlush : ℚ

/-- The connection opens; elements come, or a message that cannot be read, and if a batch is due then
its write succeeds or fails; the connection closes. -/
inductive BatchLabel (α : Type) where
  | opened (now : ℚ)
  | came (xs : Option (List α)) (now : ℚ) (ok : Bool)
  | closed

inductive BatchNote (α : Type) where
  | received (xs : List α)
  | written (xs : List α)
  | lost (xs : List α)

/-- What a label brings. -/
def BatchLabel.arriving : BatchLabel α → List α
  | .opened _ => []
  | .came xs _ _ => xs.getD []
  | .closed => []

/-- An empty batch is not written. -/
def batchStep (due : ℕ → ℚ → Bool) (s : Option (BatchBuffer α)) :
    BatchLabel α → Option (BatchBuffer α) × List (BatchNote α)
  | .opened now =>
    match s with
    | none => (some ⟨[], now⟩, [])
    | some b => (some b, [])
  | .came xs now ok =>
    match s, xs with
    | none, _ => (none, [])
    | some b, none => (none, [.lost b.held])
    | some b, some xs =>
      let held := b.held ++ xs
      if due held.length (now - b.lastFlush) = true ∧ held ≠ [] then
        if ok then (some ⟨[], now⟩, [.received xs, .written held])
        else (none, [.received xs, .lost held])
      else (some ⟨held, b.lastFlush⟩, [.received xs])
  | .closed =>
    match s with
    | none => (none, [])
    | some b => (none, [.lost b.held])

def batchMachine (due : ℕ → ℚ → Bool) :
    Machine (Option (BatchBuffer α)) (BatchLabel α) (BatchNote α) :=
  ⟨batchStep due⟩

/-- What has come in. -/
def receivedOf (notes : List (BatchNote α)) : List α :=
  notes.flatMap fun note =>
    match note with
    | .received xs => xs
    | _ => []

/-- What has been written. -/
def writtenOf (notes : List (BatchNote α)) : List α :=
  notes.flatMap fun note =>
    match note with
    | .written xs => xs
    | _ => []

/-- What has left the buffer, one way or the other. -/
def releasedOf (notes : List (BatchNote α)) : List α :=
  notes.flatMap fun note =>
    match note with
    | .written xs => xs
    | .lost xs => xs
    | .received _ => []

/-- What the buffer holds. -/
def unflushed : Option (BatchBuffer α) → List α
  | none => []
  | some b => b.held

/-- What was received in a run continued. -/
theorem receivedOf_append (notes notes' : List (BatchNote α)) :
    receivedOf (notes ++ notes') = receivedOf notes ++ receivedOf notes' :=
  List.flatMap_append

/-- What was written in a run continued. -/
theorem writtenOf_append (notes notes' : List (BatchNote α)) :
    writtenOf (notes ++ notes') = writtenOf notes ++ writtenOf notes' :=
  List.flatMap_append

/-- What was released in a run continued. -/
theorem releasedOf_append (notes notes' : List (BatchNote α)) :
    releasedOf (notes ++ notes') = releasedOf notes ++ releasedOf notes' :=
  List.flatMap_append

variable (due : ℕ → ℚ → Bool)

/-- A step moves elements from what comes in to the buffer, and from there out. -/
theorem held_step (s : Option (BatchBuffer α)) (l : BatchLabel α) :
    unflushed s ++ receivedOf ((batchMachine due).emits s l) =
      releasedOf ((batchMachine due).emits s l) ++ unflushed ((batchMachine due).next s l) := by
  show unflushed s ++ receivedOf (batchStep due s l).2 =
    releasedOf (batchStep due s l).2 ++ unflushed (batchStep due s l).1
  cases l with
  | opened now => cases s <;> simp [batchStep, unflushed, receivedOf, releasedOf]
  | closed => cases s <;> simp [batchStep, unflushed, receivedOf, releasedOf]
  | came xs now ok =>
    cases s with
    | none => rfl
    | some b =>
      cases xs with
      | none => simp [batchStep, unflushed, receivedOf, releasedOf]
      | some xs =>
        simp only [batchStep]
        split
        · cases ok <;> simp [unflushed, receivedOf, releasedOf]
        · simp [unflushed, receivedOf, releasedOf]

/-- **Every element is accounted for.** What has come in is, in this order, what was written or lost,
and what is still held. -/
theorem received_eq (ls : List (BatchLabel α)) :
    receivedOf ((batchMachine due).trace none ls) =
      releasedOf ((batchMachine due).trace none ls) ++ unflushed ((batchMachine due).final none ls) := by
  induction ls using List.reverseRecOn with
  | nil => rfl
  | append_singleton ls l ih =>
    rw [Machine.trace_concat, Machine.final_concat, receivedOf_append, releasedOf_append, ih,
      List.append_assoc, held_step, List.append_assoc]

/-- What comes in is what the label brings. -/
theorem eq_arriving_of_received {s : Option (BatchBuffer α)} {l : BatchLabel α} {xs : List α}
    (h : .received xs ∈ (batchMachine due).emits s l) : xs = l.arriving := by
  have hstep : .received xs ∈ (batchStep due s l).2 := h
  cases l with
  | opened now => cases s <;> simp [batchStep] at hstep
  | closed => cases s <;> simp [batchStep] at hstep
  | came ys now ok =>
    cases s with
    | none => simp [batchStep] at hstep
    | some b =>
      cases ys with
      | none => simp [batchStep] at hstep
      | some ys =>
        show xs = ys
        simp only [batchStep] at hstep
        split at hstep
        · cases ok <;> simpa using hstep
        · simpa using hstep

/-- What was received came in with a batch. -/
theorem mem_receivedOf {notes : List (BatchNote α)} {x : α} :
    x ∈ receivedOf notes ↔ ∃ xs, .received xs ∈ notes ∧ x ∈ xs := by
  simp only [receivedOf, List.mem_flatMap]
  constructor
  · rintro ⟨note, hnote, hx⟩
    cases note with
    | received xs => exact ⟨xs, hnote, hx⟩
    | written xs => cases hx
    | lost xs => cases hx
  · rintro ⟨xs, hnote, hx⟩
    exact ⟨_, hnote, hx⟩

/-- What is written or lost is one or the other. -/
theorem mem_releasedOf {notes : List (BatchNote α)} {x : α} :
    x ∈ releasedOf notes ↔
      x ∈ writtenOf notes ∨ ∃ xs, .lost xs ∈ notes ∧ x ∈ xs := by
  simp only [releasedOf, writtenOf, List.mem_flatMap]
  constructor
  · rintro ⟨note, hnote, hx⟩
    cases note with
    | received xs => cases hx
    | written xs => exact .inl ⟨_, hnote, hx⟩
    | lost xs => exact .inr ⟨xs, hnote, hx⟩
  · rintro (⟨note, hnote, hx⟩ | ⟨xs, hnote, hx⟩)
    · cases note with
      | received xs => cases hx
      | written xs => exact ⟨_, hnote, hx⟩
      | lost xs => cases hx
    · exact ⟨_, hnote, hx⟩

section Bounded

variable {due} {most : ℕ} (hdue : ∀ n age, due n age = false → n ≤ most)

include hdue

/-- A buffer that is not due is short, and a batch is one of these and what comes last. -/
theorem lost_step {s : Option (BatchBuffer α)} (hs : (unflushed s).length ≤ most)
    (l : BatchLabel α) :
    (unflushed ((batchMachine due).next s l)).length ≤ most ∧
      ∀ xs, .lost xs ∈ (batchMachine due).emits s l → xs.length ≤ most + l.arriving.length := by
  show (unflushed (batchStep due s l).1).length ≤ most ∧ ∀ xs, .lost xs ∈ (batchStep due s l).2 →
    xs.length ≤ most + l.arriving.length
  -- a connection that breaks loses what it holds
  have hbreak : ∀ b, s = some b → ∀ xs, .lost xs ∈ [BatchNote.lost b.held] →
      xs.length ≤ most + l.arriving.length := by
    rintro b rfl xs hxs
    obtain rfl := BatchNote.lost.inj (List.mem_singleton.mp hxs)
    exact Nat.le_add_right_of_le hs
  cases l with
  | opened now =>
    cases s with
    | none => exact ⟨Nat.zero_le most, fun xs hxs => by cases hxs⟩
    | some b => exact ⟨hs, fun xs hxs => by cases hxs⟩
  | closed =>
    cases s with
    | none => exact ⟨Nat.zero_le most, fun xs hxs => by cases hxs⟩
    | some b => exact ⟨Nat.zero_le most, hbreak b rfl⟩
  | came xs now ok =>
    cases s with
    | none => exact ⟨Nat.zero_le most, fun xs hxs => by cases hxs⟩
    | some b =>
      cases xs with
      | none => exact ⟨Nat.zero_le most, hbreak b rfl⟩
      | some xs =>
        have hb : b.held.length ≤ most := hs
        simp only [batchStep]
        split
        · cases ok with
          | true =>
            refine ⟨Nat.zero_le most, fun ys hys => ?_⟩
            simp at hys
          | false =>
            refine ⟨Nat.zero_le most, fun ys hys => ?_⟩
            have heq : ys = b.held ++ xs := by simpa using hys
            show ys.length ≤ most + xs.length
            rw [heq, List.length_append]
            omega
        · next hnot =>
          refine ⟨?_, fun ys hys => ?_⟩
          · by_cases hempty : b.held ++ xs = []
            · simp [unflushed, hempty]
            · refine hdue _ (now - b.lastFlush) ?_
              by_contra hdue'
              exact hnot ⟨Bool.eq_true_of_not_eq_false hdue', hempty⟩
          · simp at hys

/-- **The losses are bounded.** If no label brings more than `few` elements, no connection that breaks
loses more than these and those of a buffer that is not due. -/
theorem lost_bounded {few : ℕ} (ls : List (BatchLabel α))
    (hfew : ∀ l ∈ ls, l.arriving.length ≤ few) :
    (unflushed ((batchMachine due).final none ls)).length ≤ most ∧
      ∀ xs, .lost xs ∈ (batchMachine due).trace none ls → xs.length ≤ most + few := by
  induction ls using List.reverseRecOn with
  | nil => exact ⟨Nat.zero_le most, fun xs hxs => by cases hxs⟩
  | append_singleton ls l ih =>
    obtain ⟨hbefore, hlast⟩ := List.forall_mem_append.mp hfew
    obtain ⟨hheld, hlost⟩ := ih hbefore
    obtain ⟨hnext, hemits⟩ := lost_step hdue hheld l
    rw [Machine.final_concat, Machine.trace_concat]
    refine ⟨hnext, fun xs hxs => ?_⟩
    rcases List.mem_append.mp hxs with hxs | hxs
    · exact hlost xs hxs
    · exact (hemits xs hxs).trans
        (Nat.add_le_add_left (hlast l (List.mem_singleton.mpr rfl)) most)

end Bounded

end TradingEdge.Library
