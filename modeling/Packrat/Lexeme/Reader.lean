import Packrat.Lexeme.Quote

namespace Packrat
namespace Lexeme

/-!
# Readers of lexemes

The shapes are handed to a generator of lexers, and what it makes of them is a reader.  A reader
finds the first lexeme of a text; where it finds none, it reports some of the characters there.
What such a reader does is known by its documentation and by its answers, not by its text.  So it is
assumed here and given a name, `Reader.Documented`, and there is a reader of which it is proved.

The longest match decides, apart from the marks of strings.  A mark directly before a quote may turn
out to begin no string only when much more of the text has been read, and such a reader does not
always go back.
-/

/-- The kind of the first lexeme of a text and its length in characters.  The longest match of a
shape decides, but an opening goes on to the end of its string, and a string mark before a quote is
not read as the shapes say. -/
def first? (text : List Char) : Option (Kind × Nat) :=
  match Shape.longest? shapes text with
  | none => none
  | some (.opening quote, length) =>
    (closing? quote (text.drop length)).map fun more => (.string, length + more)
  | some (.whole .name, length) =>
    match text.drop length with
    | c :: body =>
      if isQuote c && isStringMark (text.take length) then brokenString? length body
      else some (.name, length)
    | [] => some (.name, length)
  | some (.whole kind, length) => some (kind, length)

/-- What reads lexemes: the kind of the first lexeme of a text with its length in characters, and
how many characters are reported where there is none. -/
structure Reader where
  read? : List Char -> Option (Kind × Nat)
  reported : List Char -> Nat

namespace Reader

/-- The reader that goes on as long as a shape is left.  It reports the characters up to there, and
at least one. -/
def standard : Reader where
  read? := first?
  reported text := max 1 (Shape.reach shapes text)

@[simp] theorem read?_standard : standard.read? = first? := rfl

/-- What is assumed of a reader: the longest match is read, and a triple-quoted string from its
opening to its end.  A string mark before a quote is different when no string follows.  Nothing is
read where the string has an element; a name is read where it has none, and at the end of a text the
quote and a backslash are a part of the name.

Where a string begins that cannot be read, its quote is among the characters that are reported.  No
more than this is assumed of them. -/
structure Documented (reader : Reader) : Prop where
  unmatched {text : List Char} (none_fits : Shape.longest? shapes text = none) :
    reader.read? text = none
  whole {text : List Char} {kind : Kind} {length : Nat}
    (longest : Shape.longest? shapes text = some (.whole kind, length))
    (unmarked : kind = .name -> forall c body, text.drop length = c :: body ->
      (isQuote c && isStringMark (text.take length)) = false) :
    reader.read? text = some (kind, length)
  opening {text : List Char} {quote : Char} {length : Nat}
    (longest : Shape.longest? shapes text = some (.opening quote, length)) :
    reader.read? text = (closing? quote (text.drop length)).map fun more => (.string, length + more)
  marked_element {mark element rest : List Char} {quote : Char}
    (longest : Shape.longest? shapes (mark ++ quote :: (element ++ rest)) =
      some (.whole .name, mark.length))
    (marks : stringMark.Matches mark) (quotes : isQuote quote = true)
    (inside : (stringElement quote).Matches element) :
    reader.read? (mark ++ quote :: (element ++ rest)) = none
  marked_empty {mark body : List Char} {quote : Char}
    (longest : Shape.longest? shapes (mark ++ quote :: body) = some (.whole .name, mark.length))
    (marks : stringMark.Matches mark) (quotes : isQuote quote = true)
    (ends : body = [] ∨ body.head? = some '\n' ∨ body.head? = some '\r') :
    reader.read? (mark ++ quote :: body) = some (.name, mark.length)
  marked_backslash {mark : List Char} {quote : Char}
    (longest : Shape.longest? shapes (mark ++ [quote, '\\']) = some (.whole .name, mark.length))
    (marks : stringMark.Matches mark) (quotes : isQuote quote = true) :
    reader.read? (mark ++ [quote, '\\']) = some (.name, mark.length + 2)
  quote_reported {mark body : List Char} {quote : Char}
    (marks : (Pattern.perhaps stringMark).Matches mark) (quotes : isQuote quote = true)
    (unread : reader.read? (mark ++ quote :: body) = none) :
    mark.length < reader.reported (mark ++ quote :: body)

end Reader
end Lexeme
end Packrat
