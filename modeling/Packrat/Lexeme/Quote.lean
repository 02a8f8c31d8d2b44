import Packrat.Lexeme.Shape

namespace Packrat
namespace Lexeme

/-!
# Quotes

Three rules about quotes go beyond the longest match of a pattern: where a triple-quoted string
ends, what a string mark is whose string does not end, and which errors are about strings.
-/

def isQuote (c : Char) : Bool :=
  c == '\'' || c == '"'

/-- The number of characters up to and including the closing delimiter of a triple-quoted string,
if it is closed.  A backslash keeps the character after it from closing the string. -/
def closing? (quote : Char) : List Char -> Option Nat
  | [] => none
  | '\\' :: _ :: rest => (closing? quote rest).map (· + 2)
  | c :: rest =>
    if c = quote && rest.take 2 == [quote, quote] then some 3
    else (closing? quote rest).map (· + 1)

/-- Whether a name could mark a string.  The name as a whole has to be a mark; a longer name that
begins with a mark is a name and nothing else. -/
def isStringMark (name : List Char) : Bool :=
  (name.foldl (fun pattern c => pattern.after c) stringMark).acceptsEmpty

/-- The reading of a string mark before a quote whose string does not end.  When the string holds
at least one element, nothing can be read here.  When it holds none, the mark is a name, and so
are mark, quote and backslash together at the end of the text.  None of this follows from the
shapes: it is assumed, see `Packrat.Lexeme.Reader`. -/
def brokenString? (length : Nat) : List Char -> Option (Kind × Nat)
  | [] => some (.name, length)
  | '\n' :: _ => some (.name, length)
  | '\r' :: _ => some (.name, length)
  | ['\\'] => some (.name, length + 2)
  | _ => none

/-- Whether an unreadable text begins a string: a quote after at most two mark letters.  Any two of
the letters count here, also those that are no string mark together. -/
def startsString (text : List Char) : Bool :=
  let body := text.dropWhile fun c => "rRbBuUfF".toList.contains c
  text.length - body.length ≤ 2 && body.head?.any isQuote

end Lexeme
end Packrat
