import Mathlib.Data.List.Induction
import TradingEdge.Program.StreamTasks

/-!
# Price streams

A life of the loop has one stream task at most: its last one.  A task of an earlier life runs on
only if that life ended by a failed query, for a loop that crashes on its task had none that ran.
So each stream that runs, but one, has a failed query behind it (`price_streams`).
-/

set_option autoImplicit false

namespace TradingEdge.Analysis

open TradingEdge.Library TradingEdge.Program

/-- The stream task of the loop that runs. -/
def ownTask (s : StreamTasks) : Option ℕ := s.loop.bind PolymarketLoop.lastStreamTask

/-- The streams that run and that the loop does not know of. -/
def strayStreams (s : StreamTasks) : List (ℕ × Finset String) :=
  s.running.filter fun e => ownTask s ≠ some e.1

/-- What holds of the tasks after a run. -/
structure StreamsOwned (ls : List StreamLabel) (s : StreamTasks) (notes : List StreamNote) :
    Prop where
  nodup : (s.running.map Prod.fst).Nodup
  running_lt : ∀ e ∈ s.running, e.1 < s.created
  own_lt : ∀ task, ownTask s = some task → task < s.created
  failed_lt : ∀ task ∈ s.failed, task < s.created
  failed_ended : ∀ task ∈ s.failed, task ∉ s.running.map Prod.fst
  stray : (strayStreams s).length ≤ notes.count .queryFailed
  own : ∀ loop, s.loop = some loop → ∀ task, loop.lastStreamTask = some task →
    (task, loop.streamedIds) ∈ s.running ∨ ∃ raises, StreamLabel.ends task raises ∈ ls
  idle : ∀ loop, s.loop = some loop → loop.lastStreamTask = none → loop.streamedIds = ∅

/-- Of streams with different numbers one has a given number. -/
theorem length_le_filter_ne {running : List (ℕ × Finset String)} (own : Option ℕ)
    (hnodup : (running.map Prod.fst).Nodup) :
    running.length ≤ (running.filter fun e => own ≠ some e.1).length + 1 := by
  induction running with
  | nil => exact Nat.zero_le _
  | cons e rest ih =>
    rw [List.map_cons, List.nodup_cons] at hnodup
    obtain ⟨hnew, hrest⟩ := hnodup
    by_cases hown : own = some e.1
    · have hall : rest.filter (fun e => own ≠ some e.1) = rest := by
        apply List.filter_eq_self.mpr
        intro f hf
        apply decide_eq_true
        intro hsame
        rw [hown] at hsame
        exact hnew (List.mem_map.mpr ⟨f, hf, (Option.some.inj hsame).symm⟩)
      rw [List.filter_cons_of_neg (by simp [hown]), hall, List.length_cons]
    · have h := ih hrest
      rw [List.filter_cons_of_pos (by simp [hown]), List.length_cons, List.length_cons]
      omega

/-- A loop without a task knows of no stream. -/
theorem strayStreams_of_ownTask_none {s : StreamTasks} (h : ownTask s = none) :
    strayStreams s = s.running := by
  unfold strayStreams
  rw [h]
  exact List.filter_eq_self.mpr fun e _ => decide_eq_true (by simp)

/-- Stray streams are running. -/
theorem strayStreams_subset (s : StreamTasks) : strayStreams s ⊆ s.running :=
  List.filter_sublist.subset

/-! ## One step -/

section Step

variable {ls : List StreamLabel} {s : StreamTasks} {notes : List StreamNote}

/-- What is owned stays so with one more step to come. -/
theorem StreamsOwned.mono (h : StreamsOwned ls s notes) (l : StreamLabel) :
    StreamsOwned (ls ++ [l]) s notes where
  nodup := h.nodup
  running_lt := h.running_lt
  own_lt := h.own_lt
  failed_lt := h.failed_lt
  failed_ended := h.failed_ended
  stray := h.stray
  own := by
    intro loop hloop task htask
    rcases h.own loop hloop task htask with hin | ⟨raises, hended⟩
    · exact .inl hin
    · exact .inr ⟨raises, List.mem_append_left _ hended⟩
  idle := h.idle

/-- The next stream takes the place of the loop's own; the others go on. -/
theorem StreamsOwned.stream (h : StreamsOwned ls s notes) (ids : Finset String) (l : StreamLabel) :
    StreamsOwned (ls ++ [l]) ({ s with running := strayStreams s }.stream ids).1
      (notes ++ [.streams s.created ids]) := by
  have hlt : ∀ e ∈ strayStreams s, e.1 < s.created := fun e he =>
    h.running_lt e (strayStreams_subset s he)
  refine ⟨?_, ?_, ?_, ?_, ?_, ?_, ?_, ?_⟩
  · show ((strayStreams s ++ [(s.created, ids)]).map Prod.fst).Nodup
    rw [List.map_append, List.map_singleton]
    refine List.Nodup.append ?_ (List.nodup_singleton _) ?_
    · exact h.nodup.sublist (List.filter_sublist.map _)
    · apply List.disjoint_singleton.mpr
      intro hmem
      obtain ⟨e, he, heq⟩ := List.mem_map.mp hmem
      exact (hlt e he).ne heq
  · intro e he
    rcases List.mem_append.mp he with hold | hnew
    · exact (hlt e hold).trans (Nat.lt_succ_self _)
    · rw [List.mem_singleton.mp hnew]
      exact Nat.lt_succ_self _
  · intro task htask
    rw [← Option.some.inj htask]
    exact Nat.lt_succ_self _
  · exact fun task htask => (h.failed_lt task htask).trans (Nat.lt_succ_self _)
  · intro task htask hmem
    obtain ⟨e, he, heq⟩ := List.mem_map.mp hmem
    rcases List.mem_append.mp he with hold | hnew
    · exact h.failed_ended task htask
        (List.mem_map.mpr ⟨e, strayStreams_subset s hold, heq⟩)
    · rw [List.mem_singleton.mp hnew] at heq
      exact (h.failed_lt task htask).ne heq.symm
  · have hkept : strayStreams ({ s with running := strayStreams s }.stream ids).1 =
        strayStreams s := by
      show (strayStreams s ++ [(s.created, ids)]).filter (fun e => some s.created ≠ some e.1) = _
      rw [List.filter_append, List.filter_eq_self.mpr, List.filter_cons_of_neg, List.filter_nil,
        List.append_nil]
      · simp
      · exact fun e he => decide_eq_true fun heq => (hlt e he).ne (Option.some.inj heq).symm
    rw [hkept, List.count_append]
    exact h.stray.trans (Nat.le_add_right _ _)
  · intro loop hloop task htask
    obtain rfl := Option.some.inj hloop
    obtain rfl := Option.some.inj htask
    exact .inl (List.mem_append_right _ (List.mem_singleton.mpr rfl))
  · intro loop hloop hnone
    obtain rfl := Option.some.inj hloop
    cases hnone

/-- The loop crashes: its task, if it runs, runs on without it. -/
theorem StreamsOwned.crash (h : StreamsOwned ls s notes) (l : StreamLabel) (note : StreamNote)
    (hnote : s.running.length ≤ (notes ++ [note]).count .queryFailed) :
    StreamsOwned (ls ++ [l]) { s with loop := none } (notes ++ [note]) where
  nodup := h.nodup
  running_lt := h.running_lt
  own_lt := fun task htask => nomatch htask
  failed_lt := h.failed_lt
  failed_ended := h.failed_ended
  stray := by
    rw [strayStreams_of_ownTask_none rfl]
    exact hnote
  own := fun loop hloop => nomatch hloop
  idle := fun loop hloop => nomatch hloop

/-- A task ends. -/
theorem StreamsOwned.ended (h : StreamsOwned ls s notes) {task : ℕ} (raises : Bool)
    (hrun : task ∈ s.running.map Prod.fst) :
    StreamsOwned (ls ++ [.ends task raises])
      { s.cancel task with failed := if raises then task :: s.failed else s.failed } notes := by
  have hfailed : ∀ t ∈ (if raises then task :: s.failed else s.failed),
      t = task ∨ t ∈ s.failed := by
    intro t ht
    split at ht
    · exact List.mem_cons.mp ht
    · exact .inr ht
  refine ⟨?_, ?_, h.own_lt, ?_, ?_, ?_, ?_, h.idle⟩
  · exact h.nodup.sublist (List.filter_sublist.map _)
  · exact fun e he => h.running_lt e (List.mem_of_mem_filter he)
  · intro t ht
    rcases hfailed t ht with rfl | hold
    · obtain ⟨e, he, heq⟩ := List.mem_map.mp hrun
      exact heq ▸ h.running_lt e he
    · exact h.failed_lt t hold
  · intro t ht hmem
    obtain ⟨e, he, heq⟩ := List.mem_map.mp hmem
    obtain ⟨hin, hne⟩ := List.mem_filter.mp he
    rcases hfailed t ht with rfl | hold
    · exact of_decide_eq_true hne heq
    · exact h.failed_ended t hold (List.mem_map.mpr ⟨e, hin, heq⟩)
  · refine le_trans ?_ h.stray
    exact (List.filter_sublist.filter _).length_le
  · intro loop hloop t ht
    by_cases heq : t = task
    · rw [heq]
      exact .inr ⟨raises, List.mem_append_right _ (List.mem_singleton.mpr rfl)⟩
    · rcases h.own loop hloop t ht with hin | ⟨raises', hended⟩
      · exact .inl (List.mem_filter.mpr ⟨hin, decide_eq_true heq⟩)
      · exact .inr ⟨raises', List.mem_append_left _ hended⟩

/-- It is enough to know what a step comes to. -/
theorem StreamsOwned.of_step {l : StreamLabel} {next : StreamTasks} {new : List StreamNote}
    (hstep : s.step l = (next, new)) (h : StreamsOwned (ls ++ [l]) next (notes ++ new)) :
    StreamsOwned (ls ++ [l]) (streamMachine.next s l) (notes ++ streamMachine.emits s l) := by
  show StreamsOwned _ (s.step l).1 (notes ++ (s.step l).2)
  rw [hstep]
  exact h

/-- A turn that finds other markets: the loop's task is replaced, or the loop crashes on it. -/
theorem StreamsOwned.replace (h : StreamsOwned ls s notes) {loop : PolymarketLoop}
    (hloop : s.loop = some loop) (rows : List String) (hempty : rows.toFinset ≠ ∅)
    (hchanged : rows.toFinset ≠ loop.streamedIds) :
    StreamsOwned (ls ++ [.turn (some rows)]) (streamMachine.next s (.turn (some rows)))
      (notes ++ streamMachine.emits s (.turn (some rows))) := by
  cases hlast : loop.lastStreamTask with
  | none =>
    have hown : ownTask s = none := by rw [ownTask, hloop]; exact hlast
    have hall := strayStreams_of_ownTask_none hown
    have hnext := h.stream rows.toFinset (.turn (some rows))
    rw [hall] at hnext
    have hstep : s.step (.turn (some rows)) = s.stream rows.toFinset := by
      simp [StreamTasks.step, hloop, hempty, hchanged, hlast]
    exact .of_step hstep hnext
  | some task =>
    have hown : ownTask s = some task := by rw [ownTask, hloop]; exact hlast
    by_cases hfailed : task ∈ s.failed
    · have hstep : s.step (.turn (some rows)) = ({ s with loop := none }, [.streamFailed]) := by
        simp [StreamTasks.step, hloop, hempty, hchanged, hlast, hfailed]
      refine .of_step hstep (h.crash _ _ ?_)
      -- the task has raised, so all streams that run are strays already
      have hall : strayStreams s = s.running := by
        apply List.filter_eq_self.mpr
        intro e he
        apply decide_eq_true
        intro heq
        rw [hown] at heq
        exact h.failed_ended task hfailed (List.mem_map.mpr ⟨e, he, (Option.some.inj heq).symm⟩)
      rw [← hall, List.count_append]
      exact h.stray.trans (Nat.le_add_right _ _)
    · have hcancel : s.cancel task = { s with running := strayStreams s } := by
        unfold StreamTasks.cancel strayStreams
        rw [hown]
        congr 1
        apply List.filter_congr
        intro e _
        simp [eq_comm]
      have hstep : s.step (.turn (some rows)) =
          { s with running := strayStreams s }.stream rows.toFinset := by
        rw [← hcancel]
        simp [StreamTasks.step, hloop, hempty, hchanged, hlast, hfailed]
      exact .of_step hstep (h.stream rows.toFinset (.turn (some rows)))

/-- A step keeps every running stream owned. -/
theorem streamsOwned_step (h : StreamsOwned ls s notes) (l : StreamLabel) :
    StreamsOwned (ls ++ [l]) (streamMachine.next s l) (notes ++ streamMachine.emits s l) := by
  have hstill : s.step l = (s, []) → StreamsOwned (ls ++ [l]) (streamMachine.next s l)
      (notes ++ streamMachine.emits s l) := by
    intro hstep
    refine .of_step hstep ?_
    rw [List.append_nil]
    exact h.mono l
  cases l with
  | turn listed =>
    cases hloop : s.loop with
    | none => exact hstill (by simp [StreamTasks.step, hloop])
    | some loop =>
      cases listed with
      | none =>
        have hstep : s.step (.turn none) = ({ s with loop := none }, [.queryFailed]) := by
          simp [StreamTasks.step, hloop]
        refine .of_step hstep (h.crash _ _ ?_)
        have hone := length_le_filter_ne (ownTask s) h.nodup
        rw [List.count_append, List.count_singleton_self]
        exact hone.trans (Nat.succ_le_succ h.stray)
      | some rows =>
        by_cases hchanged : rows.toFinset ≠ ∅ ∧ rows.toFinset ≠ loop.streamedIds
        · exact h.replace hloop rows hchanged.1 hchanged.2
        · apply hstill
          simp only [StreamTasks.step, hloop]
          rw [if_neg hchanged]
  | ends task raises =>
    by_cases hrun : task ∈ s.running.map Prod.fst
    · have hstep : s.step (.ends task raises) =
          ({ s.cancel task with failed := if raises then task :: s.failed else s.failed }, []) := by
        simp only [StreamTasks.step]
        rw [if_pos hrun]
      refine .of_step hstep ?_
      rw [List.append_nil]
      exact h.ended raises hrun
    · apply hstill
      simp only [StreamTasks.step]
      rw [if_neg hrun]
  | restart =>
    cases hloop : s.loop with
    | some loop => exact hstill (by simp [StreamTasks.step, hloop])
    | none =>
      have hstep : s.step .restart = ({ s with loop := some .initial }, []) := by
        simp [StreamTasks.step, hloop]
      refine .of_step hstep ?_
      rw [List.append_nil]
      have hown : ownTask s = none := by rw [ownTask, hloop]; rfl
      have hstray := h.stray
      rw [strayStreams_of_ownTask_none hown] at hstray
      refine ⟨h.nodup, h.running_lt, fun task htask => (nomatch htask), h.failed_lt,
        h.failed_ended, ?_, ?_, ?_⟩
      · rw [strayStreams_of_ownTask_none rfl]
        exact hstray
      · intro loop hloop' task htask
        obtain rfl := Option.some.inj hloop'
        cases htask
      · intro loop hloop' _
        obtain rfl := Option.some.inj hloop'
        rfl

end Step

/-! ## Runs -/

/-- So does a run. -/
theorem streamsOwned_run (ls : List StreamLabel) :
    StreamsOwned ls (streamMachine.final .started ls) (streamMachine.trace .started ls) := by
  induction ls using List.reverseRecOn with
  | nil =>
    refine ⟨List.nodup_nil, fun e he => absurd he List.not_mem_nil,
      fun task htask => (nomatch htask), fun task htask => absurd htask List.not_mem_nil,
      fun task htask => absurd htask List.not_mem_nil, Nat.zero_le _, ?_, ?_⟩
    · intro loop hloop task htask
      obtain rfl := Option.some.inj hloop
      cases htask
    · intro loop hloop _
      obtain rfl := Option.some.inj hloop
      rfl
  | append_singleton ls l ih =>
    rw [Machine.final_concat, Machine.trace_concat]
    exact streamsOwned_step ih l

/-- After a turn that finds markets, a loop that has not crashed streams them. -/
theorem streamedIds_turn (s : StreamTasks) (rows : List String) (hrows : rows ≠ [])
    (loop : PolymarketLoop) (hloop : (streamMachine.next s (.turn (some rows))).loop = some loop) :
    loop.streamedIds = rows.toFinset := by
  have hempty : rows.toFinset ≠ ∅ := by
    rw [Ne, List.toFinset_eq_empty_iff]
    exact hrows
  change (s.step (.turn (some rows))).1.loop = some loop at hloop
  unfold StreamTasks.step at hloop
  cases hold : s.loop with
  | none => rw [hold] at hloop; cases hloop.symm.trans hold
  | some before =>
    simp only [hold] at hloop
    split at hloop
    · split at hloop
      · rw [← Option.some.inj hloop]
      · split at hloop
        · cases hloop
        · rw [← Option.some.inj hloop]
    · next hsame =>
      have heq : rows.toFinset = before.streamedIds := by
        by_contra hne
        exact hsame ⟨hempty, hne⟩
      rw [heq, ← Option.some.inj (hold.symm.trans hloop)]

/-- **A stream for the loop, and one at most for each failed query.** After any run no more streams
run; and after a turn that found markets the loop, unless it crashed, has a task for exactly these,
which runs or has ended by itself. -/
theorem price_streams (ls : List StreamLabel) :
    let s := streamMachine.final .started ls
    let notes := streamMachine.trace .started ls
    s.running.length ≤ (if s.loop = none then 0 else 1) + notes.count .queryFailed ∧
      ∀ pre rows, ls = pre ++ [.turn (some rows)] → rows ≠ [] → ∀ loop, s.loop = some loop →
        ∃ task, loop.lastStreamTask = some task ∧
          ((task, rows.toFinset) ∈ s.running ∨ ∃ raises, StreamLabel.ends task raises ∈ ls) := by
  intro s notes
  have h : StreamsOwned ls s notes := streamsOwned_run ls
  constructor
  · cases hloop : s.loop with
    | none =>
      have hstray := h.stray
      have hown : ownTask s = none := by rw [ownTask, hloop]; rfl
      rw [strayStreams_of_ownTask_none hown] at hstray
      simpa using hstray
    | some loop =>
      have hone := length_le_filter_ne (ownTask s) h.nodup
      have hstray : (s.running.filter fun e => ownTask s ≠ some e.1).length ≤
          notes.count .queryFailed := h.stray
      simp only [reduceCtorEq, if_false]
      omega
  · rintro pre rows rfl hrows loop hloop
    have hnext : (streamMachine.next (streamMachine.final .started pre) (.turn (some rows))).loop =
        some loop := by
      rw [← Machine.final_concat]
      exact hloop
    have hids := streamedIds_turn _ rows hrows loop hnext
    cases hlast : loop.lastStreamTask with
    | none =>
      have hnone := h.idle loop hloop hlast
      rw [hids, List.toFinset_eq_empty_iff] at hnone
      exact absurd hnone hrows
    | some task =>
      refine ⟨task, rfl, ?_⟩
      rw [← hids]
      exact h.own loop hloop task hlast

/-- A query fails while a stream runs, and the next life of the loop starts a second one. -/
example : (streamMachine.final .started
    [.turn (some ["a"]), .turn none, .restart, .turn (some ["a"])]).running =
      [(0, {"a"}), (1, {"a"})] := by
  decide

end TradingEdge.Analysis
