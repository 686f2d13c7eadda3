import TradingEdge.Library.WhileLoop
import TradingEdge.Model.Text

/-!
# Long messages

`_split_for_telegram` of `bots/telegram/commands.py` cuts a long reply into chunks that fit into a
message each: behind the last newline that fits, if it is in the second half of what fits, and
where the limit is otherwise.
-/

set_option autoImplicit false

namespace TradingEdge.Program

open TradingEdge.Library TradingEdge.Model

/-- Where the remaining text is cut.
SOURCE: bots/telegram/commands.py:49-51 -/
def cutAt (limit : ℕ) (remaining : List Char) : ℕ :=
  match rfind '\n' (remaining.take limit) with
  | some cut => if cut < limit / 2 then limit else cut
  | none => limit

/-- What is left behind the cut, without the newlines it begins with.
SOURCE: bots/telegram/commands.py:53 -/
def afterCut (limit : ℕ) (remaining : List Char) : List Char :=
  (remaining.drop (cutAt limit remaining)).dropWhile (· = '\n')

/-- The variables of the loop.
SOURCE: bots/telegram/commands.py:46-47 -/
structure MessageSplit where
  chunks : List (List Char)
  remaining : List Char

/-- One turn of the loop.
SOURCE: bots/telegram/commands.py:48-53 -/
def splitTurn (limit : ℕ) (s : MessageSplit) : Option MessageSplit :=
  if limit < s.remaining.length then
    some ⟨s.chunks ++ [rstrip (s.remaining.take (cutAt limit s.remaining))],
      afterCut limit s.remaining⟩
  else none

/-- What is returned where the loop is left.
SOURCE: bots/telegram/commands.py:54-56 -/
def MessageSplit.result (s : MessageSplit) : List (List Char) :=
  if s.remaining = [] then s.chunks else s.chunks ++ [s.remaining]

/-- The function returns these chunks.
SOURCE: bots/telegram/commands.py:42-56 -/
def SplitForTelegram (text : List Char) (limit : ℕ) (chunks : List (List Char)) : Prop :=
  if text.length ≤ limit then chunks = [text]
  else ∃ s, Ends (splitTurn limit) ⟨[], text⟩ s ∧ chunks = s.result

end TradingEdge.Program
