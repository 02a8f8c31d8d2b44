import Packrat.Numeral

namespace Packrat
namespace Scalar

/-!
# Texts that would be read as something else

In YAML a plain text may mean nothing, a truth value or a number.  Such texts have to be quoted to
stay texts.  The numbers are integers with an optional base mark and a size limit, and decimal
numbers in the range of double precision.
-/

open Numeral

def reservedWords : List String :=
  ["", "null", "Null", "NULL", "~", "true", "True", "TRUE", "false", "False", "FALSE"]

def nonFinite : List String :=
  [".inf", ".Inf", ".INF", "+.inf", "+.Inf", "+.INF", "-.inf", "-.Inf", "-.INF", ".nan", ".NaN",
    ".NAN"]

/-- Whether a text is an integer with a base mark that fits 128 bits. -/
def isBasedInteger (text : List Char) : Bool :=
  let (negative, rest) := signed text
  let limit := if negative then Nat.pow 2 127 + 1 else Nat.pow 2 128
  let fits (base : Nat) (digits : List Char) := (naturalOf? base digits).any (· < limit)
  match rest with
  | '0' :: 'x' :: digits => fits 16 digits
  | '0' :: 'o' :: digits => fits 8 digits
  | '0' :: 'b' :: digits => fits 2 digits
  | _ => false

/-- Whether a text is a zero with further digits after it, perhaps with a sign. -/
def hasLeadingZero (text : List Char) : Bool :=
  match (signed text).2 with
  | '0' :: rest => !rest.isEmpty && rest.all Char.isDigit
  | _ => false

/-- Whether a text is a decimal number, perhaps with a sign, that double precision can hold. -/
def isFiniteDecimal (text : List Char) : Bool :=
  (decimalOf? (signed text).2).any Decimal.isFinite

/-- Whether a text would be read as something other than a text, or is too close to a number. -/
def isAmbiguous (text : String) : Bool :=
  reservedWords.contains text || nonFinite.contains text || isBasedInteger text.toList ||
    hasLeadingZero text.toList || isFiniteDecimal text.toList

end Scalar
end Packrat
