import Packrat.Source.Position
import Packrat.Token.Kind

namespace Packrat

/-!
# Lexemes

A lexeme is a smallest meaningful piece of a source: a word, a number, an operator, but also white
space, a comment or a physical line end.  The lexemes of a source cover it without gaps.
-/

namespace Lexeme

/-- The categories of lexemes.  White space, physical line ends, continuations and comments are
lexemes like the others, and only later it is decided which of them count. -/
inductive Kind where
  | whitespace
  | newline
  | lineContinuation
  | comment
  | name
  | number
  | string
  | operator
  | openBracket
  | closeBracket
  deriving DecidableEq, Repr, Inhabited

namespace Kind

/-- Lexemes that never reach a grammar on their own. -/
def isTrivia : Kind -> Bool
  | whitespace | comment | lineContinuation => true
  | _ => false

/-- Opening and closing brackets of any shape. -/
def isBracket : Kind -> Bool
  | openBracket | closeBracket => true
  | _ => false

end Kind
end Lexeme

/-- A piece of a source: its kind, its text and the offset of its first byte.  The text is kept as
characters, so that the end of the lexeme follows from it. -/
structure Lexeme where
  kind : Lexeme.Kind
  text : List Char
  start : Nat
  deriving DecidableEq, Inhabited

namespace Lexeme

def stop (lexeme : Lexeme) : Nat :=
  lexeme.start + Source.byteLength lexeme.text

def span (lexeme : Lexeme) : Source.Span :=
  ⟨lexeme.start, lexeme.stop⟩

end Lexeme
end Packrat
