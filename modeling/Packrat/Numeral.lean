namespace Packrat
namespace Numeral

/-!
# Numbers from their digits

Whole numbers in a base, and decimal numbers as a whole number times a power of ten.  A decimal
number is kept exactly; only `Decimal.toFloat` rounds it, to double precision.
-/

/-- The value of a digit in any base up to sixteen. -/
def digitValue? (c : Char) : Option Nat :=
  if c.isDigit then some (c.toNat - '0'.toNat)
  else if 'a' ≤ c && c ≤ 'f' then some (c.toNat - 'a'.toNat + 10)
  else if 'A' ≤ c && c ≤ 'F' then some (c.toNat - 'A'.toNat + 10)
  else none

/-- The number that some digits of a base denote; at least one digit is needed. -/
def naturalOf? (base : Nat) (digits : List Char) : Option Nat :=
  if digits.isEmpty then none
  else
    digits.foldlM (fun value c =>
      match digitValue? c with
      | some digit => if digit < base then some (value * base + digit) else none
      | none => none) 0

/-- The sign of a text and what follows it. -/
def signed : List Char -> Bool × List Char
  | '-' :: rest => (true, rest)
  | '+' :: rest => (false, rest)
  | text => (false, text)

structure Decimal where
  digits : Nat
  exponent : Int

def exponentOf? (text : List Char) : Option Int :=
  let (negative, digits) := signed text
  (naturalOf? 10 digits).map fun (value : Nat) => if negative then -(value : Int) else (value : Int)

/-- A decimal number without its sign: digits with at most one point among them, and perhaps an
exponent. -/
def decimalOf? (text : List Char) : Option Decimal := do
  let whole := text.takeWhile Char.isDigit
  let rest := text.dropWhile Char.isDigit
  let (fraction, rest) :=
    match rest with
    | '.' :: rest => (rest.takeWhile Char.isDigit, rest.dropWhile Char.isDigit)
    | rest => ([], rest)
  let digits ← naturalOf? 10 (whole ++ fraction)
  let exponent ←
    match rest with
    | [] => some 0
    | 'e' :: rest => exponentOf? rest
    | 'E' :: rest => exponentOf? rest
    | _ => none
  return ⟨digits, exponent - fraction.length⟩

namespace Decimal

/-- The least number that double precision rounds to infinity: half a step above its greatest
number. -/
def overflow : Nat :=
  Nat.pow 2 1024 - Nat.pow 2 970

/-- Whether the number stays finite in double precision.  Only numbers with 309 digits before the
point need the exact comparison. -/
def isFinite (number : Decimal) : Bool :=
  let magnitude : Int := number.exponent + (Nat.toDigits 10 number.digits).length
  if number.digits = 0 then true
  else if magnitude < 309 then true
  else if 309 < magnitude then false
  else if 0 ≤ number.exponent then number.digits * Nat.pow 10 number.exponent.toNat < overflow
  else number.digits < overflow * Nat.pow 10 (-number.exponent).toNat

/-- The number in double precision.  Below the power of ten -400 nothing but zero is left of it. -/
def toFloat (number : Decimal) : Float :=
  let magnitude : Int := number.exponent + (Nat.toDigits 10 number.digits).length
  if !number.isFinite then 1.0 / 0.0
  else if number.digits = 0 then 0.0
  else if magnitude < -400 then 0.0
  else if 0 ≤ number.exponent then Float.ofScientific number.digits false number.exponent.toNat
  else Float.ofScientific number.digits true (-number.exponent).toNat

end Decimal

end Numeral
end Packrat
