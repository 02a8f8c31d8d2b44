import Packrat.Lexeme.Basic
import Packrat.Shape
import Packrat.Text.Letter
import Packrat.Text.Number

namespace Packrat
namespace Lexeme

/-!
# Shapes of lexemes

Every kind of lexeme is given by one or more patterns.  A triple-quoted string is given by the
pattern of its opening only, since its end depends on escapes and not on a pattern; see
`Packrat.Lexeme.Quote`.
-/

open Pattern

/-- A line feed, a carriage return, or the two together. -/
def lineBreak : Pattern :=
  anyOf [literal "\r\n", char '\n', char '\r']

/-- A letter or an underscore, then letters, numbers and underscores. -/
def namePattern : Pattern :=
  append (one fun c => Text.isLetter c || c == '_')
    (many (one fun c => Text.isLetter c || Text.isNumber c || c == '_'))

def digit : Pattern :=
  one Char.isDigit

/-- Decimal digits and underscores, perhaps none. -/
def digits : Pattern :=
  many (one fun c => c.isDigit || c == '_')

def wholeDigits : Pattern :=
  append digit digits

/-- The mark of a power of ten with its digits. -/
def exponent : Pattern :=
  inOrder [oneOf "eE", perhaps (oneOf "+-"), atLeastOnce (one fun c => c.isDigit || c == '_')]

def imaginaryMark : Pattern :=
  oneOf "jJ"

def longMark : Pattern :=
  oneOf "lL"

/-- A number in a base other than ten: zero, the letter of the base, and its digits. -/
def basedNumber (letters figures : String) : Pattern :=
  inOrder [char '0', oneOf letters, atLeastOnce (oneOf figures), perhaps longMark]

def numberPatterns : List Pattern :=
  [ basedNumber "xX" "0123456789abcdefABCDEF_",
    basedNumber "oO" "01234567_",
    basedNumber "bB" "01_",
    inOrder [wholeDigits, perhaps longMark],
    inOrder [wholeDigits, imaginaryMark],
    inOrder [wholeDigits, char '.', digits, perhaps exponent, perhaps imaginaryMark],
    inOrder [wholeDigits, exponent, perhaps imaginaryMark],
    inOrder [char '.', wholeDigits, perhaps exponent, perhaps imaginaryMark] ]

/-- The letters that may stand directly before the opening quote of a string. -/
def stringMark : Pattern :=
  anyOf [oneOf "rRbBuUfF", append (oneOf "rR") (oneOf "bBfF"), append (oneOf "bBfF") (oneOf "rR")]

/-- One element of a string in single quotes or in double quotes: an ordinary character, or a
backslash with the character or line break after it. -/
def stringElement (quote : Char) : Pattern :=
  either (one fun c => c != quote && c != '\\' && c != '\r' && c != '\n')
    (append (char '\\') (anyOf [literal "\r\n", noneOf "\r", char '\r']))

/-- A string on one line between the given quotes.  It goes beyond a line break only when a
backslash stands before the break. -/
def shortString (quote : Char) : Pattern :=
  inOrder [perhaps stringMark, char quote, many (stringElement quote), char quote]

def tripleOpening (quote : Char) : Pattern :=
  inOrder [perhaps stringMark, char quote, char quote, char quote]

def operators : List String :=
  ["**=", "//=", ">>=", "<<=", "...", "**", "//", "<<", ">>", "<=", ">=", "==", "!=", "<>", "->",
    ":=", "+=", "-=", "*=", "/=", "%=", "&=", "|=", "^=", "@=", "+", "-", "*", "/", "%", "@", "&",
    "|", "^", "~", "<", ">", "=", ".", ",", ":", ";", "\x60"]

/-- What a matched pattern says about a lexeme: all of it, or the opening of a triple-quoted
string. -/
inductive Reading where
  | whole (kind : Kind)
  | opening (quote : Char)
  deriving DecidableEq

/-- The shapes of all lexemes.  The order counts where two shapes match equally much; keywords are
no shapes of their own but names. -/
def shapes : List (Shape Reading) :=
  [ ⟨.whole .whitespace, atLeastOnce (oneOf " \t\x0c")⟩,
    ⟨.whole .newline, lineBreak⟩,
    ⟨.whole .lineContinuation, append (char '\\') lineBreak⟩,
    ⟨.whole .comment, append (char '#') (many (noneOf "\r\n"))⟩,
    ⟨.whole .name, namePattern⟩ ] ++
  numberPatterns.map (Shape.mk (.whole .number)) ++
  [ ⟨.whole .string, shortString '\''⟩,
    ⟨.whole .string, shortString '"'⟩,
    ⟨.opening '\'', tripleOpening '\''⟩,
    ⟨.opening '"', tripleOpening '"'⟩ ] ++
  operators.map (fun symbol => ⟨.whole .operator, literal symbol⟩) ++
  [ ⟨.whole .openBracket, oneOf "([\x7b"⟩,
    ⟨.whole .closeBracket, oneOf ")]\x7d"⟩ ]

end Lexeme
end Packrat
