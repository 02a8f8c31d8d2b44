import Packrat.Text.Printable

namespace Packrat
namespace Text

/-!
# Quoted characters and texts

A quotation shows a character or a text between quotes so that every character in it can be told.
The usual whitespace and zero have short escapes, the backslash and the surrounding quote are
escaped by a backslash, and what is not printable is shown by its code point in hexadecimal
digits between braces.
-/

def codePointEscape (c : Char) : List Char :=
  ['\\', 'u', '\x7b'] ++ Nat.toDigits 16 c.toNat ++ ['\x7d']

def quotedChar (quote c : Char) : List Char :=
  match c with
  | '\x00' => ['\\', '0']
  | '\t' => ['\\', 't']
  | '\r' => ['\\', 'r']
  | '\n' => ['\\', 'n']
  | '\\' => ['\\', '\\']
  | c =>
    if c = quote then ['\\', c]
    else if isPrintable c then [c]
    else codePointEscape c

def quoteChar (c : Char) : String :=
  String.ofList ('\'' :: quotedChar '\'' c ++ ['\''])

def quote (text : String) : String :=
  String.ofList ('"' :: text.toList.flatMap (quotedChar '"') ++ ['"'])

theorem quotedChar_ne_nil (quote c : Char) : quotedChar quote c ≠ [] := by
  unfold quotedChar
  split <;> simp
  split
  · simp
  · split <;> simp [codePointEscape]

end Text
end Packrat
