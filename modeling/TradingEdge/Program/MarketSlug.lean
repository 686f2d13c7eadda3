import TradingEdge.Model.Text
import TradingEdge.Model.Types

/-!
# Market slugs

A market of a family has a slug of the family's prefix and a time; `ingest/polymarket/slug.py`
lays the 5-minute windows, and the loaders read the time back from the end of the slug.
-/

set_option autoImplicit false

namespace TradingEdge.Program

open TradingEdge.Model

/-- `int(slug.rsplit("-", 1)[-1])`; `none` where the source catches the error.
SOURCE: cli/train_last90s.py:217-220, ingest/polymarket/adapter.py:356-358 -/
def trailingTs (slug : String) : Option ℤ :=
  parseInt (slug.toList.reverse.takeWhile (· ≠ '-')).reverse

/-- SOURCE: ingest/polymarket/slug.py:13-17 -/
structure Window where
  openTs : ℤ
  closeTs : ℤ

/-- The window of 300 seconds a time in seconds lies in.
SOURCE: ingest/polymarket/slug.py:20-24 -/
def windowFor (epoch : ℤ) : Window :=
  ⟨epoch - epoch % 300, epoch - epoch % 300 + 300⟩

end TradingEdge.Program
