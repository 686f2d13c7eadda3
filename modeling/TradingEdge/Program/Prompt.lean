import TradingEdge.Program.ContextLoader

/-!
# The messages of a turn

`llm/prompt.py`: the loaded contexts are put behind the system prompt, the turns before are
appended, and the message of the user comes last.
-/

set_option autoImplicit false

namespace TradingEdge.Program

/-- The block of the contexts; without any of them it is a fence around a marker.
SOURCE: llm/prompt.py:74-77 -/
def renderContexts (contexts : List LoadedContext) : List Char :=
  if contexts = [] then
    "<context>\n[no context refs supplied for this turn]\n</context>".toList
  else "\n\n".toList.intercalate (contexts.map LoadedContext.render)

/-- A message with its role. -/
structure PromptMessage where
  role : Role
  content : List Char
deriving DecidableEq

/-- Of the turns before, those of the user and of the assistant that say something.
SOURCE: llm/prompt.py:49-71 -/
def buildMessages (systemPrompt userMessage : List Char) (history : List PromptMessage)
    (contexts : List LoadedContext) : List PromptMessage :=
  [⟨.system, systemPrompt ++ "\n\n".toList ++ renderContexts contexts⟩] ++
    history.filter (fun turn => turn.role ≠ .system ∧ turn.content ≠ []) ++ [⟨.user, userMessage⟩]

end TradingEdge.Program
