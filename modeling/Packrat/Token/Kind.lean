namespace Packrat
namespace Token

/-!
# Kinds of tokens

A grammar tests the kind of a token and, for some kinds, its text.  Indentation and the end of the
input are tokens too, although no text stands for them.
-/

/-- The categories of tokens that a grammar can tell apart.  Brackets are operators here, and
numbers and strings are literals. -/
inductive Kind where
  | identifier
  | keyword
  | operator
  | literal
  | newline
  | indent
  | dedent
  | endOfFile
  deriving DecidableEq, Repr, Inhabited

namespace Kind

def all : List Kind :=
  [identifier, keyword, operator, literal, newline, indent, dedent, endOfFile]

theorem mem_all (kind : Kind) : kind ∈ all := by
  cases kind <;> decide

/-- The name of a kind in rule listings and diagnostics. -/
def name : Kind -> String
  | identifier => "NAME"
  | keyword => "KEYWORD"
  | operator => "OPERATOR"
  | literal => "LITERAL"
  | newline => "NEWLINE"
  | indent => "INDENT"
  | dedent => "DEDENT"
  | endOfFile => "EOF"

/-- The name of a kind in data formats. -/
def label : Kind -> String
  | identifier => "Identifier"
  | keyword => "Keyword"
  | operator => "Operator"
  | literal => "Literal"
  | newline => "Newline"
  | indent => "Indent"
  | dedent => "Dedent"
  | endOfFile => "EndOfFile"

/-- Kinds whose tokens have no source text. -/
def isSynthetic : Kind -> Bool
  | indent | dedent | endOfFile => true
  | _ => false

/-- Kinds whose tokens are shown by their name and not by their text. -/
def isStructural (kind : Kind) : Bool :=
  kind.isSynthetic || kind == newline

end Kind
end Token
end Packrat
