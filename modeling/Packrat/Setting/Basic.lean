import Packrat.Entries

namespace Packrat

/-!
# Settings

A setting is a value of a configuration.  Where a truth value or a number is needed, values of
other types are taken for one as long as their meaning is plain.
-/

/-- A value of a configuration. -/
inductive Setting where
  | null
  | truth (value : Bool)
  | integer (value : Int)
  | float (value : Float)
  | text (value : String)
  | date (value : String)
  | list (items : List Setting)
  | table (entries : List (String × Setting))
  deriving Inhabited

namespace Setting

/-- The entries of a table; any other setting has none. -/
def entries : Setting -> Entries Setting
  | table entries => entries
  | _ => []

def items : Setting -> List Setting
  | list items => items
  | _ => []

def yesWords : List String :=
  ["true", "on", "yes"]

def noWords : List String :=
  ["false", "off", "no"]

/-- A character in lower case, as far as the lower case is an ASCII character.  Besides the capital
letters of ASCII that is so for the Kelvin sign. -/
def loweredChar (c : Char) : Char :=
  if c == '\u212a' then 'k' else c.toLower

def lowered (word : String) : String :=
  String.ofList (word.toList.map loweredChar)

/-- A setting as a truth value.  Every number but zero is true. -/
def toBool? : Setting -> Option Bool
  | truth value => some value
  | integer value => some (value != 0)
  | float value => some (value != 0.0)
  | text value =>
    let word := lowered value
    if word == "1" || yesWords.contains word then some true
    else if word == "0" || noWords.contains word then some false
    else none
  | null | date _ | list _ | table _ => none

/-- The least number that needs more than 64 bits. -/
def wordLimit : Nat :=
  Nat.pow 2 64

/-- A whole number of at most 64 bits written in decimal digits, perhaps with a plus sign. -/
def wholeNumber? (text : List Char) : Option Nat :=
  let digits :=
    match text with
    | '+' :: digits => digits
    | digits => digits
  if !digits.isEmpty && digits.all Char.isDigit then
    let value := digits.foldl (fun value c => value * 10 + (c.toNat - '0'.toNat)) 0
    if value < wordLimit then some value else none
  else none

/-- A setting as a whole number.  A number with a fraction is rounded, a half away from zero, and
brought into the range of 64 bits. -/
def toNat? : Setting -> Option Nat
  | truth value => some value.toNat
  | integer value => if 0 ≤ value && value < wordLimit then some value.toNat else none
  | float value => some value.round.toUInt64.toNat
  | text value =>
    let word := lowered value
    if yesWords.contains word then some 1
    else if noWords.contains word then some 0
    else wholeNumber? value.toList
  | null | date _ | list _ | table _ => none

end Setting
end Packrat
