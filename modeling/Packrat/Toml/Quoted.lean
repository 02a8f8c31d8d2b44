import Packrat.Numeral

namespace Packrat
namespace Toml

/-!
# Quoted texts in TOML

Between double quotes a backslash begins an escape.  In a text over several lines a backslash at
the end of a line also removes the line break and all blank text after it, and every line break
that stays is a line feed.
-/

def escaped? : Char -> Option Char
  | 'b' => some '\x08'
  | 't' => some '\t'
  | 'n' => some '\n'
  | 'f' => some '\x0c'
  | 'r' => some '\r'
  | '"' => some '"'
  | '\\' => some '\\'
  | _ => none

def codePoint? (digits : List Char) : Option Char := do
  let code ← Numeral.naturalOf? 16 digits
  if code.isValidChar then some (Char.ofNat code) else none

def isGap (c : Char) : Bool :=
  c == ' ' || c == '\t' || c == '\n'

/-- A text without its escapes; `skipping` tells whether a removed line break has just been
read. -/
def unescape (skipping : Bool) : List Char -> Option (List Char)
  | [] => some []
  | '\\' :: 'u' :: a :: b :: c :: d :: rest => do
    let first ← codePoint? [a, b, c, d]
    return first :: (← unescape false rest)
  | '\\' :: 'U' :: a :: b :: c :: d :: e :: f :: g :: h :: rest => do
    let first ← codePoint? [a, b, c, d, e, f, g, h]
    return first :: (← unescape false rest)
  | '\\' :: c :: rest => do
    if isGap c then unescape true rest
    else
      let first ← escaped? c
      return first :: (← unescape false rest)
  | c :: rest => do
    if skipping && isGap c then unescape true rest
    else return c :: (← unescape false rest)

def withoutQuotes (text : List Char) : List Char :=
  (text.drop 1).dropLast

/-- The text between three quotes on either side, without a line break at its beginning. -/
def withoutBlockQuotes (text : List Char) : List Char :=
  let inside := ((text.drop 3).dropLast.dropLast.dropLast).filter (· != '\r')
  match inside with
  | '\n' :: rest => rest
  | rest => rest

end Toml
end Packrat
