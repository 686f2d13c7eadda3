import Mathlib.Algebra.Order.Ring.Rat
import Mathlib.Logic.Function.Basic
import TradingEdge.Library.Machine
import TradingEdge.Library.PrunedLog

/-!
# The supervisor of the ingestor

`Supervisor._guarded` runs each task of the ingestor.  One that crashes waits for the end of its
backoff and is started again unless the ingestor stops by then; one that has crashed too often in
the last five minutes stops the ingestor.  Times are in seconds.  The tasks run side by side, and a
task that returns is not started again.
-/

set_option autoImplicit false

namespace TradingEdge.Program

open TradingEdge.Library

variable {ι : Type} [DecidableEq ι]

/-- `timedelta(minutes=5)`.
SOURCE: cli/ingestor.py:95 -/
def crashWindowS : ℚ := 300

/-- SOURCE: cli/ingestor.py:103 -/
def crashBudget : ℕ := 3

/-- Where the guard of a task is: in the task, in its backoff, or left. -/
inductive TaskPhase where
  | running
  | backoff
  | ended
deriving DecidableEq

/-- The event that stops the tasks, where their guards are, and the crashes each remembers.
SOURCE: cli/ingestor.py:30-35, 84-107 -/
structure Supervisor (ι : Type) where
  stop : Bool
  phase : ι → TaskPhase
  failsInWindow : ι → List ℚ

/-- All tasks are started.
SOURCE: cli/ingestor.py:43-67 -/
def Supervisor.started : Supervisor ι := ⟨false, fun _ => .running, fun _ => []⟩

/-- A task crashes, has waited for its backoff, returns, or is cancelled; or the process gets a
signal. -/
inductive SupervisorLabel (ι : Type) where
  | crash (i : ι) (now : ℚ)
  | awake (i : ι)
  | returned (i : ι)
  | cancelled (i : ι)
  | signal

/-- A task is started again, or its budget is exceeded. -/
inductive SupervisorEvent (ι : Type) where
  | restarted (i : ι)
  | budgetExceeded (i : ι)
deriving DecidableEq

/-- The guard of a task moves on. -/
def Supervisor.enter (s : Supervisor ι) (i : ι) (phase : TaskPhase) : Supervisor ι :=
  { s with phase := Function.update s.phase i phase }

/-- SOURCE: cli/ingestor.py:37-107 -/
def Supervisor.step (s : Supervisor ι) :
    SupervisorLabel ι → Supervisor ι × List (SupervisorEvent ι)
  | .crash i now =>
    let failsInWindow := (s.failsInWindow i).filter (fun t => now - t < crashWindowS) ++ [now]
    let s' := { s with failsInWindow := Function.update s.failsInWindow i failsInWindow }
    if crashBudget < failsInWindow.length then
      ({ s' with stop := true }.enter i .ended, [.budgetExceeded i])
    else (s'.enter i .backoff, [])
  | .awake i => if s.stop then (s.enter i .ended, []) else (s.enter i .running, [.restarted i])
  | .returned i => (s.enter i .ended, [])
  | .cancelled i => (s.enter i .ended, [])
  | .signal => ({ s with stop := true }, [])

/-- What can happen: a task that runs crashes or returns, a backoff ends, and tasks are cancelled
once the ingestor stops.
SOURCE: cli/ingestor.py:70-73, 87-107 -/
def Supervisor.Allows (s : Supervisor ι) : SupervisorLabel ι → Prop
  | .crash i _ => s.phase i = .running
  | .awake i => s.phase i = .backoff
  | .returned i => s.phase i = .running
  | .cancelled _ => s.stop = true
  | .signal => True

instance (s : Supervisor ι) (l : SupervisorLabel ι) : Decidable (s.Allows l) :=
  match l with
  | .crash _ _ => inferInstanceAs (Decidable (_ = _))
  | .awake _ => inferInstanceAs (Decidable (_ = _))
  | .returned _ => inferInstanceAs (Decidable (_ = _))
  | .cancelled _ => inferInstanceAs (Decidable (_ = _))
  | .signal => inferInstanceAs (Decidable True)

def supervisorMachine : Machine (Supervisor ι) (SupervisorLabel ι) (SupervisorEvent ι) :=
  ⟨Supervisor.step⟩

end TradingEdge.Program
