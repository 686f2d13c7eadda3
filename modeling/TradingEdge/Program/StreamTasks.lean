import Mathlib.Data.Finset.Basic
import TradingEdge.Library.Machine

/-!
# The price streams of the ingestor

`Supervisor._polymarket_loop` looks up the open markets every minute, and it keeps one task that
streams their prices: when the markets change, it cancels the task and starts another.  The tasks
run beside the loop.  The supervisor starts the loop again when it crashes, and then the loop knows
nothing of the task it had.
-/

set_option autoImplicit false

namespace TradingEdge.Program

open TradingEdge.Library

/-- The variables of the loop, from one start of it to the next.
SOURCE: cli/ingestor.py:111-113 -/
structure PolymarketLoop where
  lastStreamTask : Option ℕ
  streamedIds : Finset String

/-- The loop, if it runs; the stream tasks that run with the markets they stream, those that ended
with an exception, and how many tasks there have been. -/
structure StreamTasks where
  loop : Option PolymarketLoop
  running : List (ℕ × Finset String)
  failed : List ℕ
  created : ℕ

/-- SOURCE: cli/ingestor.py:111-113 -/
def PolymarketLoop.initial : PolymarketLoop := ⟨none, ∅⟩

def StreamTasks.started : StreamTasks := ⟨some .initial, [], [], 0⟩

/-- A turn of the loop with the open markets that the database lists, or none if the query raises; a
task ends, with an exception or without; the supervisor starts the loop again. -/
inductive StreamLabel where
  | turn (listed : Option (List String))
  | ends (task : ℕ) (raises : Bool)
  | restart
deriving DecidableEq

/-- The loop crashes, as the query raised or as the task it waited for had; a task starts. -/
inductive StreamNote where
  | queryFailed
  | streamFailed
  | streams (task : ℕ) (ids : Finset String)
deriving DecidableEq

/-- `create_task(stream_prices(ids))`, after the last task is cancelled.
SOURCE: cli/ingestor.py:152-157 -/
def StreamTasks.stream (s : StreamTasks) (ids : Finset String) : StreamTasks × List StreamNote :=
  ({ s with
      loop := some ⟨some s.created, ids⟩
      running := s.running ++ [(s.created, ids)]
      created := s.created + 1 },
    [.streams s.created ids])

/-- A task that runs is cancelled.
SOURCE: cli/ingestor.py:153 -/
def StreamTasks.cancel (s : StreamTasks) (task : ℕ) : StreamTasks :=
  { s with running := s.running.filter fun e => e.1 ≠ task }

/-- SOURCE: cli/ingestor.py:109-158; ingest/polymarket/adapter.py:698-740 -/
def StreamTasks.step (s : StreamTasks) : StreamLabel → StreamTasks × List StreamNote
  | .turn listed =>
    match s.loop, listed with
    | none, _ => (s, [])
    | some _, none => ({ s with loop := none }, [.queryFailed])
    | some loop, some rows =>
      let ids := rows.toFinset
      if ids ≠ ∅ ∧ ids ≠ loop.streamedIds then
        match loop.lastStreamTask with
        | none => s.stream ids
        | some task =>
          -- waiting for a task that has raised raises what it has raised
          if task ∈ s.failed then ({ s with loop := none }, [.streamFailed])
          else (s.cancel task).stream ids
      else (s, [])
  | .ends task raises =>
    if task ∈ s.running.map Prod.fst then
      ({ s.cancel task with failed := if raises then task :: s.failed else s.failed }, [])
    else (s, [])
  | .restart =>
    match s.loop with
    | none => ({ s with loop := some .initial }, [])
    | some _ => (s, [])

/-- SOURCE: cli/ingestor.py:84-158 -/
def streamMachine : Machine StreamTasks StreamLabel StreamNote := ⟨StreamTasks.step⟩

end TradingEdge.Program
