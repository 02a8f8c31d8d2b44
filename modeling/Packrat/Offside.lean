import Packrat.LexError
import Packrat.Line

namespace Packrat

/-!
# The off-side rule

Indentation shows which lines belong together.  A line wider than the one before it opens a level,
and a narrower line closes every level wider than itself; it must then have exactly the width of
the level that is left.  The events are tokens at the start of the line that causes them, and the
levels still open at the end of the source are closed there.
-/

/-- The widths of the open levels above column zero, the innermost first.  Column zero is open from
the beginning to the end and is not listed. -/
structure Offside where
  widths : List Nat := []
  deriving DecidableEq, Inhabited

namespace Offside

def depth (levels : Offside) : Nat :=
  levels.widths.length

/-- The width of the innermost level; column zero is always open. -/
def current (levels : Offside) : Nat :=
  levels.widths.headD 0

/-- The events of a line of the given width, and the levels after them.  A wider line opens one
level, however much wider it is; another line closes all levels that are wider than itself. -/
def enter (levels : Offside) (width : Nat) : List Token.Kind × Offside :=
  if levels.current < width then ([.indent], ⟨width :: levels.widths⟩)
  else
    let closed := levels.widths.takeWhile (width < ·)
    (closed.map fun _ => .dedent, ⟨levels.widths.dropWhile (width < ·)⟩)

/-- The tokens of some lines up to the end of the source at `stop`, or the first line whose width
fits no open level.  The levels that are open afterwards are returned in both cases. -/
def tokens (lines : Source.Lines) (stop : Nat) :
    Offside -> List Line -> Except LexError (List Token) × Offside
  | levels, [] =>
    let position := lines.position stop
    let closing := levels.widths.map fun _ => Token.synthetic .dedent stop position
    (.ok (closing ++ [Token.synthetic .endOfFile stop position]), ⟨[]⟩)
  | levels, line :: rest =>
    let position := lines.position line.start
    let (events, next) := levels.enter line.indent
    if next.current = line.indent then
      let (result, last) := tokens lines stop next rest
      let marks := events.map fun kind => Token.synthetic kind line.start position
      (result.map fun following => marks ++ line.tokens ++ line.newline.toList ++ following, last)
    else (.error (.inconsistentDedent line.indent position), next)

end Offside
end Packrat
