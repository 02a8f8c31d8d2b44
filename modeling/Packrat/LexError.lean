import Packrat.Source.Position
import Packrat.Text.Quoted

namespace Packrat

/-!
# Errors of reading a source

Reading a source stops at its first error; nothing is recovered.
-/

/-- Why a source has no tokens, and where.  The first two are errors of single lexemes; the last one
is about a line that is narrower than the one before it and fits no open level. -/
inductive LexError where
  | unexpectedCharacter (character : Char) (position : Source.Position)
  | unterminatedString (position : Source.Position)
  | inconsistentDedent (width : Nat) (position : Source.Position)
  deriving DecidableEq

namespace LexError

def position : LexError -> Source.Position
  | unexpectedCharacter _ position => position
  | unterminatedString position => position
  | inconsistentDedent _ position => position

def message : LexError -> String
  | unexpectedCharacter character position =>
    s!"unexpected character {Text.quoteChar character} at {position.display}"
  | unterminatedString position =>
    s!"unterminated string literal starting at {position.display}"
  | inconsistentDedent width position =>
    s!"unindent to width {width} does not match any outer indentation level at {position.display}"

end LexError
end Packrat
