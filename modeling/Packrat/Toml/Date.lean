import Packrat.Numeral
import Packrat.Pattern
import Packrat.Setting.Basic

namespace Packrat
namespace Toml

/-!
# Dates

A date, a time of day, or both with perhaps a time zone is a bare word.  A table can stand for one
too: when its first key is the reserved key, the table is the date that is written there in quotes,
and its other keys do not matter.
-/

open Pattern

def digit : Pattern :=
  one Char.isDigit

def date : Pattern :=
  inOrder [digit, digit, digit, digit, char '-', digit, digit, char '-', digit, digit]

def time : Pattern :=
  inOrder
    [ digit, digit, char ':', digit, digit, char ':', digit, digit,
      perhaps (append (char '.') (atLeastOnce digit)) ]

def timeZone : Pattern :=
  either (oneOf "Zz") (inOrder [oneOf "+-", digit, digit, char ':', digit, digit])

/-- The number that some digits of a word denote, from one position up to another. -/
def numberAt (word : List Char) (start stop : Nat) : Nat :=
  (Numeral.naturalOf? 10 ((word.take stop).drop start)).getD 0

def daysIn (year month : Nat) : Nat :=
  if month = 2 then
    if year % 4 = 0 && (year % 100 ≠ 0 || year % 400 = 0) then 29 else 28
  else if month = 4 || month = 6 || month = 9 || month = 11 then 30
  else 31

def isDate (word : List Char) : Bool :=
  let month := numberAt word 5 7
  let day := numberAt word 8 10
  date.accepts word && 1 ≤ month && month ≤ 12 && 1 ≤ day && day ≤ daysIn (numberAt word 0 4) month

def isClock (word : List Char) : Bool :=
  numberAt word 0 2 ≤ 23 && numberAt word 3 5 ≤ 59

/-- Whether a time is on the clock; a minute may have a leap second. -/
def isTime (word : List Char) : Bool :=
  time.accepts word && isClock word && numberAt word 6 8 ≤ 60

def isTimeZone (word : List Char) : Bool :=
  timeZone.accepts word && isClock word.tail

def isTimeChar (c : Char) : Bool :=
  c.isDigit || c == ':' || c == '.'

/-- Whether a word is a date, a time, or both with perhaps a time zone. -/
def isDateTime (word : List Char) : Bool :=
  let later := word.drop 11
  let zone := later.dropWhile isTimeChar
  isDate word || isTime word ||
    (isDate (word.take 10) && ((word.drop 10).head?.any "Tt ".toList.contains) &&
      isTime (later.takeWhile isTimeChar) && (zone.isEmpty || isTimeZone zone))

/-- The key that makes a table stand for a date. -/
def dateKey : String :=
  "$__toml_private_datetime"

/-- The date that a value under the reserved key denotes. -/
def quotedDate? : Setting -> Option Setting
  | .text text => if isDateTime text.toList then some (.date text) else none
  | _ => none

mutual

/-- A setting with dates in place of the tables that stand for them. -/
def withDates? : Setting -> Option Setting
  | .table entries =>
    match entries.head? with
    | some (key, value) =>
      if key == dateKey then quotedDate? value
      else (entriesWithDates? entries).map .table
    | none => some (.table [])
  | .list items => (itemsWithDates? items).map .list
  | value => some value

def entriesWithDates? : List (String × Setting) -> Option (List (String × Setting))
  | [] => some []
  | (key, value) :: rest => do
    return (key, ← withDates? value) :: (← entriesWithDates? rest)

def itemsWithDates? : List Setting -> Option (List Setting)
  | [] => some []
  | item :: rest => do
    return (← withDates? item) :: (← itemsWithDates? rest)

end

end Toml
end Packrat
