import TradingEdge.Library.Machine
import TradingEdge.Model.Types

/-!
# The turns of the research copilot

`run_turn` reads a session's conversation, asks a language model, and writes the conversation
back with the new messages and totals; then it adds to the daily usage of the user.  Calls go on
in any order at their awaits.  What the model is sent is not looked at here: what it answers is an
input.  The ids of rows and the user of a conversation are not read by any turn and left out.
-/

set_option autoImplicit false

namespace TradingEdge.Program

open TradingEdge.Model TradingEdge.Library

/-! ## The tables -/

inductive Role where
  | system
  | user
  | assistant
deriving DecidableEq

structure ChatMessage where
  role : Role
  content : String
deriving DecidableEq

/-- SOURCE: llm/context_loader.py -/
structure ContextRef where
  type : String
  id : String
deriving DecidableEq

/-- A row of `research.llm_conversations`.
SOURCE: llm/store.py:18-28 -/
structure Conversation (K : Type) where
  model : String
  messages : List ChatMessage
  contextRefs : List ContextRef
  tokensIn : ℤ
  tokensOut : ℤ
  costUsd : K
deriving DecidableEq

/-- A row of `research.llm_usage_daily`, whose key is a day and a user.
SOURCE: llm/rate_limit.py:19-25 -/
structure DailyUsage (K : Type) where
  sessions : ℤ
  tokens : ℤ
  costUsd : K
deriving DecidableEq

/-- SOURCE: llm/client.py -/
structure ChatResult (K : Type) where
  content : String
  tokensIn : ℤ
  tokensOut : ℤ
  costUsd : K
deriving DecidableEq

structure LlmSettings (K : Type) where
  defaultModel : String
  allowed : String → Bool
  maxSessionsPerDay : ℤ
  maxTokensPerSession : ℤ
  maxDailyCostUsd : K

/-! ## A turn -/

/-- The arguments of a call; `contextRefs` is `none` where parsing them raises. -/
structure TurnArgs where
  sessionId : String
  userId : String
  message : String
  contextRefs : Option (List ContextRef)
  model : Option String

/-- Where a call waits.  `prior` is what it has read of its session. -/
inductive TurnState (K : Type) where
  | ready
  | checking (prior : Option (Conversation K))
  | loading (prior : Option (Conversation K))
  | chatting (prior : Option (Conversation K))
  | upserting (prior : Option (Conversation K)) (result : ChatResult K)
  | recording (prior : Option (Conversation K)) (result : ChatResult K)
  | finished
  | failed
deriving DecidableEq

/-- What a call is resumed with: the answers of the two reads, of the context loader and of the
model, the ends of the two writes, or an exception. -/
inductive TurnInput (K : Type) where
  | conversationRead
  | usageRead (today : ℤ)
  | contextsLoaded
  | replied (result : ChatResult K)
  | upserted
  | recorded (today : ℤ)
  | raised

/-- A call has written its session, or the usage of a day. -/
inductive TurnEvent (ι K : Type) where
  | persisted (i : ι) (result : ChatResult K)
  | recorded (i : ι) (day : ℤ) (result : ChatResult K)
deriving DecidableEq

/-- The two tables and the calls. -/
structure LlmWorld (ι K : Type) where
  conversations : String → Option (Conversation K)
  usage : ℤ × String → Option (DailyUsage K)
  turns : ι → TurnState K

variable {ι K : Type}

/-- The model of a call. -/
def TurnArgs.modelFor (args : TurnArgs) (settings : LlmSettings K) : String :=
  (args.model.filter (· ≠ "")).getD settings.defaultModel

/-- The messages a turn keeps: all but those of the system.
SOURCE: llm/orchestrator.py:86 -/
def historyOf (prior : Option (Conversation K)) : List ChatMessage :=
  (prior.elim [] (·.messages)).filter fun m => m.role ≠ .system

/-- The two messages of a turn.
SOURCE: llm/orchestrator.py:87-88 -/
def turnMessages (args : TurnArgs) (result : ChatResult K) : List ChatMessage :=
  [⟨.user, args.message⟩, ⟨.assistant, result.content⟩]

section Statements

variable [Field K]

/-- The conversation a turn writes, from what it has read.  The row is inserted or all of it is
overwritten.
SOURCE: llm/orchestrator.py:83-103, llm/store.py:44-98 -/
def upsertTurn (settings : LlmSettings K) (args : TurnArgs) (prior : Option (Conversation K))
    (result : ChatResult K) : Conversation K where
  model := args.modelFor settings
  messages := historyOf prior ++ turnMessages args result
  contextRefs := args.contextRefs.getD []
  tokensIn := prior.elim 0 (·.tokensIn) + result.tokensIn
  tokensOut := prior.elim 0 (·.tokensOut) + result.tokensOut
  costUsd := prior.elim 0 (·.costUsd) + result.costUsd

/-- The usage a turn leaves: the row is inserted, or its counters go up.
SOURCE: llm/rate_limit.py:83-106, llm/orchestrator.py:105-110 -/
def recordTurn (usage : Option (DailyUsage K)) (isFirstTurn : Bool) (result : ChatResult K) :
    DailyUsage K where
  sessions := usage.elim 0 (·.sessions) + if isFirstTurn then 1 else 0
  tokens := usage.elim 0 (·.tokens) + (result.tokensIn + result.tokensOut)
  costUsd := usage.elim 0 (·.costUsd) + result.costUsd

/-- The turn is refused: its session, the day's cost or the day's sessions are at their limit.
SOURCE: llm/rate_limit.py:54-80 -/
def RateLimited [LinearOrder K] (settings : LlmSettings K) (prior : Option (Conversation K))
    (usage : Option (DailyUsage K)) : Prop :=
  settings.maxTokensPerSession ≤ prior.elim 0 (fun c => c.tokensIn + c.tokensOut) ∨
    settings.maxDailyCostUsd ≤ usage.elim 0 (·.costUsd) ∨
    prior = none ∧ settings.maxSessionsPerDay ≤ usage.elim 0 (·.sessions)

instance [LinearOrder K] (settings : LlmSettings K) (prior : Option (Conversation K))
    (usage : Option (DailyUsage K)) : Decidable (RateLimited settings prior usage) :=
  inferInstanceAs (Decidable (_ ∨ _ ∨ _))

variable [DecidableEq ι] [LinearOrder K]

/-- A call goes on to its next await. -/
def LlmWorld.setTurn (w : LlmWorld ι K) (i : ι) (s : TurnState K) : LlmWorld ι K :=
  { w with turns := Function.update w.turns i s }

/-- One resumption of a call.  An exception ends it while it has not written its session.
SOURCE: llm/orchestrator.py:40-112 -/
def runTurnStep (settings : LlmSettings K) (args : ι → TurnArgs) (w : LlmWorld ι K)
    (l : ι × TurnInput K) : LlmWorld ι K × List (TurnEvent ι K) :=
  let i := l.1
  match w.turns i, l.2 with
  | .ready, .conversationRead =>
    if settings.allowed ((args i).modelFor settings) ∧ (args i).contextRefs ≠ none then
      (w.setTurn i (.checking (w.conversations (args i).sessionId)), [])
    else (w.setTurn i .failed, [])
  | .checking prior, .usageRead today =>
    if RateLimited settings prior (w.usage (today, (args i).userId)) then
      (w.setTurn i .failed, [])
    else (w.setTurn i (.loading prior), [])
  | .loading prior, .contextsLoaded => (w.setTurn i (.chatting prior), [])
  | .chatting prior, .replied result => (w.setTurn i (.upserting prior result), [])
  | .upserting prior result, .upserted =>
    ({ conversations := Function.update w.conversations (args i).sessionId
          (some (upsertTurn settings (args i) prior result))
       usage := w.usage
       turns := Function.update w.turns i (.recording prior result) },
      [.persisted i result])
  | .recording prior result, .recorded today =>
    ({ conversations := w.conversations
       usage := Function.update w.usage (today, (args i).userId)
          (some (recordTurn (w.usage (today, (args i).userId)) prior.isNone result))
       turns := Function.update w.turns i .finished },
      [.recorded i today result])
  | .ready, .raised => (w.setTurn i .failed, [])
  | .checking _, .raised => (w.setTurn i .failed, [])
  | .loading _, .raised => (w.setTurn i .failed, [])
  | .chatting _, .raised => (w.setTurn i .failed, [])
  | .upserting _ _, .raised => (w.setTurn i .failed, [])
  | _, _ => (w, [])

/-- Any number of calls of `run_turn`. -/
def llmMachine (settings : LlmSettings K) (args : ι → TurnArgs) :
    Machine (LlmWorld ι K) (ι × TurnInput K) (TurnEvent ι K) :=
  ⟨runTurnStep settings args⟩

/-- Empty tables, and no call has begun. -/
def LlmWorld.start : LlmWorld ι K := ⟨fun _ => none, fun _ => none, fun _ => .ready⟩

end Statements

end TradingEdge.Program
