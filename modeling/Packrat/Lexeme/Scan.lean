import Packrat.LexError
import Packrat.Lexeme.Reader
import Packrat.Source.Lines

namespace Packrat
namespace Lexeme

/-!
# Reading lexemes

A source is read from its beginning, one lexeme after the other.  `scan` returns the lexemes
together with the text that is left where no lexeme can be read; a source is readable when nothing
is left.
-/

/-- The lexemes of a text whose first byte is at `offset`, and the text that is left.  Nothing is
left when every lexeme could be read; otherwise the rest begins where `read?` found nothing. -/
def scan (offset : Nat) (text : List Char)
    (read? : List Char -> Option (Kind × Nat) := first?) : List Lexeme × List Char :=
  match text with
  | [] => ([], [])
  | c :: rest =>
    match read? (c :: rest) with
    | some (kind, length + 1) =>
      let lexeme : Lexeme := ⟨kind, c :: rest.take length, offset⟩
      let (lexemes, left) := scan lexeme.stop (rest.drop length) read?
      (lexeme :: lexemes, left)
    | _ => ([], c :: rest)
termination_by text.length
decreasing_by
  simp only [List.length_drop, List.length_cons]
  omega

/-- The error at `position`, where the first of the reported characters is `c`.  It is about a
string when the reported characters begin one, and otherwise about `c` alone. -/
def unreadable (reported : List Char) (c : Char) (position : Source.Position) : LexError :=
  if startsString reported then .unterminatedString position
  else .unexpectedCharacter c position

/-- The lexemes of a source, or the error where reading stops.  The error is classified by the
characters that the reader reports, which need not be all that is left. -/
def ofSource (source : String) (reader : Reader := .standard) : Except LexError (List Lexeme) :=
  match scan 0 source.toList reader.read? with
  | (lexemes, []) => .ok lexemes
  | (lexemes, c :: rest) =>
    let offset := Source.byteLength (lexemes.flatMap Lexeme.text)
    let reported := (c :: rest).take (reader.reported (c :: rest))
    .error (unreadable reported c ((Source.Lines.ofString source).position offset))

end Lexeme
end Packrat
