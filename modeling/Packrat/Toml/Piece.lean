import Packrat.Shape
import Packrat.Toml.Quoted

namespace Packrat
namespace Toml

/-!
# The pieces of a TOML document

A document falls into blanks, line ends, marks, bare words and quoted texts, each the longest that
some pattern allows.  A comment counts as a blank.
-/

open Pattern

inductive Piece where
  | blank (text : List Char)
  | lineEnd
  | mark (c : Char)
  | bare (word : List Char)
  | line (text : String)
  | block (text : String)
  deriving DecidableEq

inductive Form where
  | blank
  | lineEnd
  | mark
  | bare
  | basic
  | literal
  | basicBlock
  | literalBlock
  deriving DecidableEq

/-- The characters that may stand in comments and quoted texts: all but controls, and tabs. -/
def isOrdinary (c : Char) : Bool :=
  c == '\t' || (0x20 ≤ c.toNat && c.toNat ≠ 0x7F)

def ordinaryBut (excluded : String) : Pattern :=
  one fun c => isOrdinary c && !excluded.toList.contains c

def blank : Pattern :=
  oneOf " \t"

def lineBreak : Pattern :=
  append (perhaps (char '\r')) (char '\n')

/-- An escape by a backslash.  The digits of a code point after it are ordinary characters. -/
def escape : Pattern :=
  append (char '\\') (oneOf "btnfruU\"\\")

/-- A backslash at the end of its line. -/
def joinedLine : Pattern :=
  inOrder [char '\\', many blank, lineBreak]

/-- Three quotes, a text with at most two of them in a row, and three quotes.  Up to two quotes
more at the end belong to the text. -/
def blockOf (quote : Char) (element : Pattern) : Pattern :=
  let spare := perhaps (append (char quote) (perhaps (char quote)))
  let three := inOrder [char quote, char quote, char quote]
  inOrder [three, many (append spare element), spare, three]

def forms : List (Shape Form) :=
  [ ⟨.blank, atLeastOnce blank⟩,
    ⟨.blank, append (char '#') (many (ordinaryBut ""))⟩,
    ⟨.lineEnd, lineBreak⟩,
    ⟨.mark, oneOf ".=,[]\x7b\x7d"⟩,
    ⟨.bare, atLeastOnce (one fun c => c.isAlphanum || "-_+:".toList.contains c)⟩,
    ⟨.basic, inOrder [char '"', many (either (ordinaryBut "\"\\") escape), char '"']⟩,
    ⟨.literal, inOrder [char '\'', many (ordinaryBut "'"), char '\'']⟩,
    ⟨.basicBlock, blockOf '"' (anyOf [ordinaryBut "\"\\", lineBreak, escape, joinedLine])⟩,
    ⟨.literalBlock, blockOf '\'' (either (ordinaryBut "'") lineBreak)⟩ ]

def pieceOf? (form : Form) (text : List Char) : Option Piece :=
  match form with
  | .blank => some (.blank text)
  | .lineEnd => some .lineEnd
  | .mark => text.head?.map .mark
  | .bare => some (.bare text)
  | .basic => (unescape false (withoutQuotes text)).map fun inside => .line (String.ofList inside)
  | .literal => some (.line (String.ofList (withoutQuotes text)))
  | .basicBlock =>
    (unescape false (withoutBlockQuotes text)).map fun inside => .block (String.ofList inside)
  | .literalBlock => some (.block (String.ofList (withoutBlockQuotes text)))

def pieces? (text : List Char) : Option (List Piece) :=
  match text with
  | [] => some []
  | c :: rest =>
    match Shape.longest? forms (c :: rest) with
    | some (form, length + 1) => do
      let piece ← pieceOf? form (c :: rest.take length)
      return piece :: (← pieces? (rest.drop length))
    | _ => none
termination_by text.length
decreasing_by
  simp only [List.length_drop, List.length_cons]
  omega

end Toml
end Packrat
