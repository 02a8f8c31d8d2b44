import Packrat.Source.Position
import Packrat.Text.Quoted
import Packrat.Token.Kind

namespace Packrat

/-!
# Tokens

A token carries its kind, its text, the span of the source that it covers and the position of its
start, so that a diagnostic never has to look at the source again.
-/

/-- A token of a source, as a grammar sees it.  A matcher asks for its kind and its text; span and
position are there for messages and listings. -/
structure Token where
  kind : Token.Kind
  text : String
  span : Source.Span
  position : Source.Position
  deriving DecidableEq, Inhabited

namespace Token

/-- A token without text at an offset. -/
def synthetic (kind : Kind) (offset : Nat) (position : Source.Position) : Token :=
  ⟨kind, "", Source.Span.emptyAt offset, position⟩

/-- The token as a diagnostic names it: its text in quotes, or the name of its kind. -/
def describe (token : Token) : String :=
  if token.kind.isStructural then token.kind.name else s!"'{token.text}'"

/-- The token as a listing shows it: its kind, with its quoted text where it has one. -/
def display (token : Token) : String :=
  if token.kind.isStructural then token.kind.name
  else s!"{token.kind.name} {Text.quote token.text}"

end Token
end Packrat
