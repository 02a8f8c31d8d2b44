import Packrat.Source.Position

namespace Packrat
namespace Source

/-!
# Lines of a source text

A line ends after a line feed, after a carriage return, or after the two together.  The index of
a text lists where its lines begin; from it the position of any offset is computed.
-/

/-- The offsets just after the line ends of a text whose first byte is at `offset`. -/
def startsAfterBreaks (offset : Nat) : List Char -> List Nat
  | [] => []
  | '\r' :: '\n' :: rest => (offset + 2) :: startsAfterBreaks (offset + 2) rest
  | '\r' :: rest => (offset + 1) :: startsAfterBreaks (offset + 1) rest
  | '\n' :: rest => (offset + 1) :: startsAfterBreaks (offset + 1) rest
  | c :: rest => startsAfterBreaks (offset + c.utf8Size) rest

/-- The number of characters before an offset, unless the offset lies inside a character or
beyond the text. -/
def charsBefore? : List Char -> Nat -> Option Nat
  | _, 0 => some 0
  | [], _ + 1 => none
  | c :: rest, offset =>
    if c.utf8Size ≤ offset then (charsBefore? rest (offset - c.utf8Size)).map (· + 1) else none

/-- A source text with the offsets at which its lines begin, in ascending order.  The first line
begins at zero, and every line break begins one more. -/
structure Lines where
  text : List Char
  starts : List Nat

namespace Lines

def ofText (text : List Char) : Lines :=
  ⟨text, 0 :: startsAfterBreaks 0 text⟩

def ofString (source : String) : Lines :=
  ofText source.toList

/-- The number of lines; a final line break begins one more, empty line. -/
def count (lines : Lines) : Nat :=
  lines.starts.length

/-- Where a line begins, when there is such a line. -/
def start? (lines : Lines) (line : Nat) : Option Nat :=
  lines.starts[line]?

/-- The line of an offset: the last one that begins at the offset or before.  An offset behind the
text is on the last line. -/
def lineOf (lines : Lines) (offset : Nat) : Nat :=
  lines.starts.countP (· ≤ offset) - 1

/-- The column of an offset in a line that begins at `start`: the characters between them, or the
bytes when the offset lies inside a character or beyond the text. -/
def column (lines : Lines) (start offset : Nat) : Nat :=
  match charsBefore? lines.text start, charsBefore? lines.text offset with
  | some first, some last => last - first
  | _, _ => offset - start

def position (lines : Lines) (offset : Nat) : Position :=
  let line := lines.lineOf offset
  ⟨offset, line, lines.column ((lines.start? line).getD 0) offset⟩

end Lines
end Source
end Packrat
