import TradingEdge.Library.Simulation
import TradingEdge.Program.TradeStreams

/-!
# What becomes of a trade

The tasks of the three exchanges write to one table and none disturbs the others: a trade that
comes in is stored under its key, or lost with a connection, or held for the next batch, and the
table has what its exchange's task wrote first (`received_trade_kept_or_lost`).
-/

set_option autoImplicit false

namespace TradingEdge.Analysis

open TradingEdge.Library TradingEdge.Program

variable {K : Type}

/-- Every row is that of a trade. -/
theorem mem_mapM_row {task : TradeTask} {trades : List (SentTrade K)} {rows : List (CryptoTrade K)}
    (h : trades.mapM task.row = some rows) : ∀ r ∈ rows, ∃ t ∈ trades, task.row t = some r := by
  induction trades generalizing rows with
  | nil =>
    obtain rfl : [] = rows := Option.some.inj h
    exact fun r hr => absurd hr (List.not_mem_nil)
  | cons t trades ih =>
    rw [List.mapM_cons] at h
    obtain ⟨first, hfirst, h⟩ := Option.bind_eq_some_iff.mp h
    obtain ⟨rest, hrest, h⟩ := Option.bind_eq_some_iff.mp h
    obtain rfl := Option.some.inj h
    intro r hr
    rcases List.mem_cons.mp hr with rfl | hr
    · exact ⟨t, List.mem_cons_self, hfirst⟩
    · obtain ⟨t', ht', hrow⟩ := ih hrest r hr
      exact ⟨t', List.mem_cons_of_mem _ ht', hrow⟩

/-- A row carries the name of its exchange. -/
theorem exchange_of_row {task : TradeTask} {t : SentTrade K} {r : CryptoTrade K}
    (h : task.row t = some r) : r.exchange = task.name := by
  unfold TradeTask.row at h
  simp only [Option.bind_eq_bind, Option.bind_eq_some_iff, Option.pure_def, Option.some.injEq] at h
  obtain ⟨ts, -, symbol, -, tradeId, -, price, -, qty, -, rfl⟩ := h
  rfl

/-- The rows of a task are of its exchange. -/
theorem exchange_of_rows {task : TradeTask} {trades : List (SentTrade K)}
    {rows : List (CryptoTrade K)} (h : task.rows trades = some rows) :
    ∀ r ∈ rows, r.exchange = task.name := by
  have hmap : ∀ task' : TradeTask, trades.mapM task'.row = some rows →
      ∀ r ∈ rows, r.exchange = task'.name := by
    intro task' hrows r hr
    obtain ⟨t, -, hrow⟩ := mem_mapM_row hrows r hr
    exact exchange_of_row hrow
  cases task with
  | binance =>
    simp only [TradeTask.rows] at h
    split at h
    · obtain ⟨r, hrow, rfl⟩ := Option.map_eq_some_iff.mp h
      intro r' hr'
      rw [List.mem_singleton.mp hr']
      exact exchange_of_row hrow
    · cases h
  | bybit => exact hmap .bybit h
  | coinbase => exact hmap .coinbase h

/-! ## One task -/

/-- A task is a batch writer of what its messages read as. -/
theorem simulates_reading (task : TradeTask) :
    Simulates (tradeMachine (K := K) task) (batchMachine task.due) id task.reading
      (fun _ => True) (fun _ _ => True) (fun _ _ => True) where
  keeps := fun _ _ _ _ => trivial
  meets := fun _ _ _ _ => trivial
  next := fun _ _ _ _ => rfl
  emits := fun _ _ _ _ => rfl

/-- A run meets the condition that asks for nothing. -/
theorem along_true (task : TradeTask) (ls : List (TradeLabel K)) :
    (tradeMachine task).Along (fun _ _ => True) none ls :=
  fun _ _ _ _ => trivial

/-- A run of a task, as one of a batch writer. -/
theorem tradeMachine_run (task : TradeTask) (ls : List (TradeLabel K)) :
    (tradeMachine task).final none ls = (batchMachine task.due).final none (ls.map task.reading) ∧
      (tradeMachine task).trace none ls =
        (batchMachine task.due).trace none (ls.map task.reading) :=
  ⟨((simulates_reading task).final_map none trivial ls (along_true task ls)).symm,
    ((simulates_reading task).trace_map none trivial ls (along_true task ls)).symm⟩

/-- What a message brings carries the name of the exchange. -/
theorem exchange_of_arriving (task : TradeTask) (l : TradeLabel K) :
    ∀ r ∈ (task.reading l).arriving, r.exchange = task.name := by
  intro r hr
  cases l with
  | connected now => cases hr
  | disconnected => cases hr
  | message trades now ok =>
    cases hread : trades.bind task.rows with
    | none =>
      simp [TradeTask.reading, BatchLabel.arriving, hread] at hr
    | some rows =>
      obtain ⟨sent, -, hrows⟩ := Option.bind_eq_some_iff.mp hread
      refine exchange_of_rows hrows r ?_
      simpa [TradeTask.reading, BatchLabel.arriving, hread] using hr

/-- So does what is written, as it has come in. -/
theorem exchange_of_written (task : TradeTask) (ls : List (TradeLabel K)) :
    ∀ r ∈ writtenOf ((tradeMachine task).trace none ls), r.exchange = task.name := by
  intro r hr
  have hreceived : r ∈ receivedOf ((tradeMachine task).trace none ls) := by
    rw [(tradeMachine_run task ls).2, received_eq, ← (tradeMachine_run task ls).2]
    exact List.mem_append_left _ (mem_releasedOf.mpr (.inl hr))
  obtain ⟨rows, hnote, hr⟩ := mem_receivedOf.mp hreceived
  obtain ⟨pre, l, post, -, hemits⟩ := ((tradeMachine task).mem_trace_iff _ _ _).mp hnote
  have hrows := eq_arriving_of_received task.due (l := task.reading l) hemits
  rw [hrows] at hr
  exact exchange_of_arriving task l r hr

/-- A message of Binance brings one trade. -/
theorem binance_arriving (l : TradeLabel K) :
    (TradeTask.binance.reading l).arriving.length ≤ 1 := by
  cases l with
  | connected now => exact Nat.zero_le 1
  | disconnected => exact Nat.zero_le 1
  | message trades now ok =>
    cases trades with
    | none => exact Nat.zero_le 1
    | some trades =>
      show ((TradeTask.binance.rows trades).getD []).length ≤ 1
      simp only [TradeTask.rows]
      split
      · next all t =>
        cases TradeTask.binance.row t with
        | none => exact Nat.zero_le 1
        | some r => exact le_rfl
      · exact Nat.zero_le 1

/-! ## The table -/

/-- The batches that were written, in the order of the whole run. -/
def allWritten (notes : List (TradeTask × BatchNote (CryptoTrade K))) : List (CryptoTrade K) :=
  writtenOf (notes.map Prod.snd)

/-- The table holds what was written, the first row of each key. -/
theorem tradeTable_eq (notes : List (TradeTask × BatchNote (CryptoTrade K))) :
    tradeTable notes = upsertMany Table.empty (allWritten notes) := by
  have hfold : ∀ t : Table (CryptoTrade.key (K := K)),
      notes.foldl tradeNote t = upsertMany t (allWritten notes) := by
    induction notes with
    | nil => exact fun t => rfl
    | cons note notes ih =>
      obtain ⟨task, note⟩ := note
      intro t
      rw [List.foldl_cons, ih]
      cases note with
      | received rows => rfl
      | lost rows => rfl
      | written rows =>
        show upsertMany (upsertMany t rows) (allWritten notes) =
          upsertMany t (rows ++ allWritten notes)
        rw [upsertMany, upsertMany, upsertMany, List.foldl_append]
  exact hfold Table.empty

/-- Rows of other exchanges do not matter to a key. -/
theorem find?_allWritten (notes : List (TradeTask × BatchNote (CryptoTrade K))) (task : TradeTask)
    (p : CryptoTrade K → Bool)
    (hp : ∀ other ≠ task, ∀ r ∈ writtenOf (Machine.only other notes), p r = false) :
    (allWritten notes).find? p = (writtenOf (Machine.only task notes)).find? p := by
  induction notes with
  | nil => rfl
  | cons note notes ih =>
    obtain ⟨other, note⟩ := note
    have hhead : ∀ i, Machine.only i ((other, note) :: notes) =
        (if other = i then [note] else []) ++ Machine.only i notes := by
      intro i
      rw [← List.singleton_append, Machine.only_append]
      exact congrArg (· ++ _) (Machine.only_tag i other [note])
    have hrest := ih fun i hi r hr => hp i hi r (by
      rw [hhead, writtenOf_append]
      exact List.mem_append_right _ hr)
    have hall : allWritten ((other, note) :: notes) = writtenOf [note] ++ allWritten notes := by
      rw [allWritten, List.map_cons, ← List.singleton_append, writtenOf_append]
      rfl
    rw [hall, hhead, writtenOf_append, List.find?_append, List.find?_append, hrest]
    by_cases hother : other = task
    · rw [if_pos hother]
    · rw [if_neg hother]
      have hnone : (writtenOf [note]).find? p = none := by
        rw [List.find?_eq_none]
        intro r hr
        have hfalse := hp other hother r (by
          rw [hhead, if_pos rfl, writtenOf_append]
          exact List.mem_append_left _ hr)
        rw [hfalse]
        simp
      rw [hnone]
      rfl

/-- The tasks have different names. -/
theorem tradeTask_name_injective : Function.Injective TradeTask.name := by
  intro a b h
  cases a <;> cases b <;> first | rfl | exact absurd h (by decide)

/-- **What becomes of a trade.** However the tasks interleave and wherever connections break or writes
fail: what a task has received is, in this order, what it has written or lost and what it holds; the
table has for a key what the task of its exchange wrote first; so a trade that was received and
neither lost nor held has a row under its key.  At Binance no connection loses more than five
hundred trades. -/
theorem received_trade_kept_or_lost (ls : List (TradeTask × TradeLabel K)) (task : TradeTask) :
    let notes := (tradeTasks (K := K)).trace (fun _ => none) ls
    let mine := Machine.only task notes
    let held := unflushed ((tradeTasks (K := K)).final (fun _ => none) ls task)
    receivedOf mine = releasedOf mine ++ held ∧
      (∀ symbol tradeId ts, (tradeTable notes).rows.find?
          (fun r => r.key = (task.name, symbol, tradeId, ts)) =
        (writtenOf mine).find? fun r => r.key = (task.name, symbol, tradeId, ts)) ∧
      (∀ r ∈ receivedOf mine, (∃ r' ∈ (tradeTable notes).rows, r'.key = r.key) ∨
        (∃ rows, (task, .lost rows) ∈ notes ∧ r ∈ rows) ∨ r ∈ held) ∧
      (task = .binance → ∀ rows, (task, .lost rows) ∈ notes → rows.length ≤ 500) := by
  intro notes mine held
  obtain ⟨hfinal, htrace⟩ := Machine.interleave_run tradeMachine (fun _ => none) ls task
  have hmine : mine = (tradeMachine task).trace none (Machine.only task ls) := htrace
  have hheld : held = unflushed ((tradeMachine task).final none (Machine.only task ls)) :=
    congrArg unflushed hfinal
  obtain ⟨hrunFinal, hrunTrace⟩ := tradeMachine_run task (Machine.only task ls)
  have hreceived : receivedOf mine = releasedOf mine ++ held := by
    rw [hmine, hheld, hrunFinal, hrunTrace]
    exact received_eq task.due _
  have hwritten : ∀ other, ∀ r ∈ writtenOf (Machine.only other notes), r.exchange = other.name := by
    intro other
    obtain ⟨-, hother⟩ := Machine.interleave_run tradeMachine (fun _ => none) ls other
    have heq : Machine.only other notes =
      (tradeMachine other).trace none (Machine.only other ls) := hother
    rw [heq]
    exact exchange_of_written other _
  refine ⟨hreceived, fun symbol tradeId ts => ?_, fun r hr => ?_, fun htask rows hrows => ?_⟩
  · rw [tradeTable_eq, find?_upsertMany, Table.rows_empty, List.nil_append]
    refine find?_allWritten notes task _ fun other hother r hr => ?_
    rw [decide_eq_false]
    intro hkey
    have hname : other.name = task.name :=
      (hwritten other r hr).symm.trans (congrArg Prod.fst hkey)
    exact hother (tradeTask_name_injective hname)
  · rw [hreceived] at hr
    rcases List.mem_append.mp hr with hr | hr
    · rcases mem_releasedOf.mp hr with hr | ⟨rows, hrows, hr⟩
      · refine .inl ?_
        rw [tradeTable_eq]
        refine exists_key_upsertMany _ ?_
        obtain ⟨note, hnote, hr⟩ := List.mem_flatMap.mp hr
        refine List.mem_flatMap.mpr ⟨note, ?_, hr⟩
        exact List.mem_map.mpr ⟨(task, note), Machine.mem_only_iff.mp hnote, rfl⟩
      · exact .inr (.inl ⟨rows, Machine.mem_only_iff.mp hrows, hr⟩)
    · exact .inr (.inr hr)
  · subst htask
    have hdue : ∀ n age, TradeTask.binance.due n age = false → n ≤ 499 := by
      intro n age h
      have hnot := of_decide_eq_false h
      push Not at hnot
      omega
    have hone : ∀ l ∈ (Machine.only .binance ls).map TradeTask.binance.reading,
        l.arriving.length ≤ 1 := by
      intro l hl
      obtain ⟨l', -, rfl⟩ := List.mem_map.mp hl
      exact binance_arriving l'
    refine (lost_bounded hdue _ hone).2 rows ?_
    rw [← hrunTrace, ← hmine]
    exact Machine.mem_only_iff.mpr hrows

end TradingEdge.Analysis
