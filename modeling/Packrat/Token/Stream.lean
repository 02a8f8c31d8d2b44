import Packrat.Lexeme.Scan
import Packrat.Offside

namespace Packrat
namespace Token

/-!
# Token streams

The tokens of a source are the tokens of its logical lines with the events of the off-side rule
between them.  The last token is the end of the file.
-/

/-- The tokens of a source under a tab size.  The error, if there is one, is that of the first
lexeme that cannot be read, or otherwise that of the first line whose width fits no level. -/
def stream (tabSize : Nat) (source : String) : Except LexError (List Token) := do
  let lexemes ← Lexeme.ofSource source
  let lines := Source.Lines.ofString source
  (Offside.tokens lines (Source.byteLength lines.text) {} (Line.ofLexemes lines tabSize lexemes)).1

/-- The tab size where none is asked for. -/
def defaultTabSize : Nat :=
  8

/-- The tokens of a source under the default tab size. -/
def ofSource (source : String) : Except LexError (List Token) :=
  stream defaultTabSize source

end Token
end Packrat
