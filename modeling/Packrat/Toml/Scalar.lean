import Packrat.Toml.Date

namespace Packrat
namespace Toml

/-!
# Bare words as values

A word without quotes is a truth value, an integer, a number in floating point, or a date or time.
-/

open Pattern

def digitGroup (digit : Pattern) : Pattern :=
  append digit (many (append (perhaps (char '_')) digit))

def sign : Pattern :=
  perhaps (oneOf "+-")

def decimal : Pattern :=
  append sign
    (either (char '0')
      (append (oneOf "123456789") (many (append (perhaps (char '_')) digit))))

/-- The power of ten of a number. -/
def exponent : Pattern :=
  inOrder [oneOf "eE", sign, digitGroup digit]

def float : Pattern :=
  append decimal
    (either exponent (inOrder [char '.', digitGroup digit, perhaps exponent]))

def nonFinite : Pattern :=
  append sign (either (literal "inf") (literal "nan"))

def bases : List (Char × Nat × String) :=
  [('x', 16, "0123456789abcdefABCDEF"), ('o', 8, "01234567"), ('b', 2, "01")]

/-- An integer of 64 bits with a sign. -/
def integer? (value : Int) : Option Setting :=
  let limit : Int := Nat.pow 2 63
  if -limit ≤ value && value < limit then some (.integer value) else none

def basedInteger? (word : List Char) : Option Setting := do
  match word with
  | '0' :: letter :: digits =>
    let (_, base, figures) ← bases.find? (·.1 == letter)
    if (digitGroup (oneOf figures)).accepts digits then
      let value ← Numeral.naturalOf? base (digits.filter (· != '_'))
      integer? value
    else none
  | _ => none

def decimalInteger? (word : List Char) : Option Setting := do
  let (negative, digits) := Numeral.signed (word.filter (· != '_'))
  let value ← Numeral.naturalOf? 10 digits
  integer? (if negative then -(value : Int) else value)

def float? (word : List Char) : Option Setting := do
  let (negative, digits) := Numeral.signed (word.filter (· != '_'))
  let number ← Numeral.decimalOf? digits
  if negative then some (.float (-number.toFloat))
  else if number.isFinite then some (.float number.toFloat)
  else none

def nonFinite? (word : List Char) : Option Setting :=
  match Numeral.signed word with
  | (negative, 'i' :: _) => some (.float (if negative then -1.0 / 0.0 else 1.0 / 0.0))
  | _ => some (.float (0.0 / 0.0))

def bareValue? (word : List Char) : Option Setting :=
  if word == "true".toList then some (.truth true)
  else if word == "false".toList then some (.truth false)
  else if decimal.accepts word then decimalInteger? word
  else if float.accepts word then float? word
  else if nonFinite.accepts word then nonFinite? word
  else if isDateTime word then some (.date (String.ofList word))
  else basedInteger? word

end Toml
end Packrat
