import Packrat.Lexeme.Basic
import Packrat.Source.Lines
import Packrat.Token.Basic
import Packrat.Token.Keyword

namespace Packrat

/-!
# Logical lines

A grammar is about logical lines and not about physical ones.  White space, comments and line
continuations disappear, a line break inside brackets does not end a line, and a line without any
token is no line at all.  What stays of the white space is the indentation width of each line.
-/

/-- A line of tokens: its indentation width in columns, the offset of its first token, and the
line break that ends it, if the source has one. -/
structure Line where
  indent : Nat
  start : Nat
  tokens : List Token
  newline : Option Token
  deriving DecidableEq, Inhabited

namespace Line

/-- The width of white space that begins at column `start`.  A tab goes on to the next multiple of
the tab size, and a form feed returns to column zero. -/
def indentationWidth (tabSize start : Nat) (space : List Char) : Nat :=
  let tabStop := max tabSize 1
  space.foldl (fun width c =>
    if c = '\t' then (width / tabStop + 1) * tabStop
    else if c = '\x0c' then 0
    else width + 1) start

/-- The kind of token that a lexeme becomes, if it becomes one inside a line. -/
def tokenKind? (lexeme : Lexeme) : Option Token.Kind :=
  match lexeme.kind with
  | .name =>
    some (if Token.isKeyword (String.ofList lexeme.text) then .keyword else .identifier)
  | .number | .string => some .literal
  | .operator | .openBracket | .closeBracket => some .operator
  | .whitespace | .newline | .lineContinuation | .comment => none

def tokenOf (lines : Source.Lines) (kind : Token.Kind) (lexeme : Lexeme) : Token :=
  ⟨kind, String.ofList lexeme.text, lexeme.span, lines.position lexeme.start⟩

/-- The number of open brackets after a lexeme.  Brackets of all shapes are counted together, and a
closing bracket too many is not counted. -/
def depthAfter (depth : Nat) (lexeme : Lexeme) : Nat :=
  match lexeme.kind with
  | .openBracket => depth + 1
  | .closeBracket => depth - 1
  | _ => depth

/-- How far the reading of lines is: before the first token of a line, with the width of the white
space so far, or inside a line, with the number of open brackets. -/
inductive Progress where
  | before (width : Nat)
  | inside (line : Line) (depth : Nat)

namespace Progress

/-- Take one more lexeme.  A lexeme that becomes a token begins a line or goes on with it; a line
break outside brackets completes the line, and one before the first token is dropped with the white
space in front of it. -/
def step (lines : Source.Lines) (tabSize : Nat) (progress : Progress) (lexeme : Lexeme) :
    Option Line × Progress :=
  match progress with
  | before width =>
    match tokenKind? lexeme with
    | some kind =>
      (none, inside ⟨width, lexeme.start, [tokenOf lines kind lexeme], none⟩
        (depthAfter 0 lexeme))
    | none =>
      match lexeme.kind with
      | .whitespace => (none, before (indentationWidth tabSize width lexeme.text))
      | .newline => (none, before 0)
      | _ => (none, before width)
  | inside line depth =>
    match tokenKind? lexeme with
    | some kind =>
      (none, inside { line with tokens := line.tokens ++ [tokenOf lines kind lexeme] }
        (depthAfter depth lexeme))
    | none =>
      if lexeme.kind = .newline && depth = 0 then
        (some { line with newline := some (tokenOf lines .newline lexeme) }, before 0)
      else (none, inside line depth)

/-- The lines that the remaining lexemes complete.  The last line may lack its line break, and white
space and comments at the end make no line. -/
def finish (lines : Source.Lines) (tabSize : Nat) : Progress -> List Lexeme -> List Line
  | before _, [] => []
  | inside line _, [] => [line]
  | progress, lexeme :: rest =>
    let (completed, next) := progress.step lines tabSize lexeme
    completed.toList ++ next.finish lines tabSize rest

end Progress

def ofLexemes (lines : Source.Lines) (tabSize : Nat) (lexemes : List Lexeme) : List Line :=
  Progress.finish lines tabSize (.before 0) lexemes

end Line
end Packrat
