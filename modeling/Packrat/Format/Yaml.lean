import Packrat.Format.Document
import Packrat.Format.Scalar

namespace Packrat
namespace Document

/-!
# Documents in YAML

Documents are written in block style: a field or item a line, nested records two columns further
in, and lists at the column of their key.  A text is written plain where that is safe, as a literal
block when it has line feeds, and otherwise in single or double quotes.
-/

def isBreak (c : Char) : Bool :=
  c == '\n' || c == '\r' || c == '\u0085' || c == '\u2028' || c == '\u2029'

def isWritable (c : Char) : Bool :=
  let code := c.toNat
  code = 0x0A || (0x20 ≤ code && code ≤ 0x7E) ||
    (0xA0 ≤ code && code ≠ 0xFEFF && code ≠ 0xFFFE && code ≠ 0xFFFF)

def isSeparator (c : Char) : Bool :=
  c == ' ' || c == '\t' || c == '\x00' || isBreak c

/-- Whether two neighbours in a text satisfy a test. -/
def anyNeighbours (test : Char -> Char -> Bool) (text : List Char) : Bool :=
  (text.zip text.tail).any fun (first, second) => test first second

/-- Whether a text has an indicator inside: a colon that ends a word, or a number sign that begins
one. -/
def hasInnerIndicator (text : List Char) : Bool :=
  text.getLast? == some ':' ||
    anyNeighbours (fun first second =>
      (first == ':' && isSeparator second) || (isSeparator first && second == '#')) text

/-- Whether the beginning of a text would be taken for an indicator. -/
def startsWithIndicator (text : List Char) : Bool :=
  match text with
  | [] => false
  | c :: rest =>
    "#,[]\x7b\x7d&*!|>'\"%@\x60".toList.contains c ||
      (['-', '?', ':'].contains c && rest.head?.all isSeparator) ||
      text.take 3 == ['-', '-', '-'] || text.take 3 == ['.', '.', '.']

inductive TextStyle where
  | plain
  | singleQuoted
  | doubleQuoted
  | literal
  deriving DecidableEq

def styleOf (value : String) : TextStyle :=
  let text := value.toList
  let unwritable := text.any fun c => !isWritable c
  let spaceBeforeBreak := anyNeighbours (fun first second => first == ' ' && isBreak second) text
  let spaceAfterBreak := anyNeighbours (fun first second => isBreak first && second == ' ') text
  let startsWithSpace := text.head? == some ' '
  let endsWithSpace := text.getLast? == some ' '
  if text.contains '\n' then
    if unwritable || spaceBeforeBreak || endsWithSpace then .doubleQuoted else .literal
  else if unwritable || spaceBeforeBreak then .doubleQuoted
  else if Scalar.isAmbiguous value || startsWithIndicator text || hasInnerIndicator text ||
      startsWithSpace || endsWithSpace || text.any isBreak then
    if spaceAfterBreak then .doubleQuoted else .singleQuoted
  else .plain

def hexadecimal (width code : Nat) : List Char :=
  let digits := (Nat.toDigits 16 code).map Char.toUpper
  List.replicate (width - digits.length) '0' ++ digits

def doubleQuotedChar (c : Char) : List Char :=
  match c with
  | '\x00' => ['\\', '0']
  | '\x07' => ['\\', 'a']
  | '\x08' => ['\\', 'b']
  | '\t' => ['\\', 't']
  | '\n' => ['\\', 'n']
  | '\x0b' => ['\\', 'v']
  | '\x0c' => ['\\', 'f']
  | '\r' => ['\\', 'r']
  | '\x1b' => ['\\', 'e']
  | '"' => ['\\', '"']
  | '\\' => ['\\', '\\']
  | '\u0085' => ['\\', 'N']
  | '\u2028' => ['\\', 'L']
  | '\u2029' => ['\\', 'P']
  | c =>
    if isWritable c then [c]
    else if c.toNat < 0x100 then ['\\', 'x'] ++ hexadecimal 2 c.toNat
    else if c.toNat < 0x10000 then ['\\', 'u'] ++ hexadecimal 4 c.toNat
    else ['\\', 'U'] ++ hexadecimal 8 c.toNat

/-- Some text with blanks before every line; `fresh` tells whether a line begins here. -/
def indented (column : Nat) (escape : Char -> List Char) : (fresh : Bool) -> List Char -> List Char
  | _, [] => []
  | fresh, c :: rest =>
    if isBreak c then c :: indented column escape true rest
    else
      (if fresh then List.replicate column ' ' else []) ++ escape c ++
        indented column escape false rest

def singleQuoted (column : Nat) (text : List Char) : List Char :=
  let escape (c : Char) := if c = '\'' then ['\'', '\''] else [c]
  let closing := if text.getLast?.any isBreak then List.replicate column ' ' else []
  '\'' :: indented column escape false text ++ closing ++ ['\'']

/-- The header of a literal block: whether the indentation must be told, and how the block ends. -/
def literalHeader (text : List Char) : List Char :=
  let hint := if text.head?.any fun c => c == ' ' || isBreak c then ['2'] else []
  let ending :=
    match text.reverse with
    | [] => ['-']
    | [last] => if isBreak last then ['+'] else ['-']
    | last :: before :: _ =>
      if !isBreak last then ['-'] else if isBreak before then ['+'] else []
  '|' :: hint ++ ending

/-- A text as a literal block with the line break after it. -/
def literalBlock (column : Nat) (text : List Char) : List Char :=
  let closing := if text.getLast?.any isBreak then [] else ['\n']
  literalHeader text ++ ['\n'] ++ indented column (fun c => [c]) true text ++ closing

/-- A text as the value at a key, with the line break after it.  Further lines of it begin at the
given column. -/
def yamlText (column : Nat) (value : String) : String :=
  let text := value.toList
  match styleOf value with
  | .plain => value ++ "\n"
  | .singleQuoted => String.ofList (singleQuoted column text) ++ "\n"
  | .doubleQuoted => String.ofList ('"' :: text.flatMap doubleQuotedChar ++ ['"']) ++ "\n"
  | .literal => String.ofList (literalBlock column text)

mutual

/-- A document in YAML whose first line begins at the given column, with the line break after
it. -/
def yamlAt (column : Nat) : Document -> String
  | number value => toString value ++ "\n"
  | text value => yamlText (column + 2) value
  | list [] => "[]\n"
  | list (item :: items) => "- " ++ yamlAt (column + 2) item ++ yamlItems column items
  | record [] => "\x7b\x7d\n"
  | record ((key, value) :: fields) =>
    key ++ ":" ++ yamlField column value ++ yamlFields column fields

def yamlItems (column : Nat) : List Document -> String
  | [] => ""
  | item :: items => blanks column ++ "- " ++ yamlAt (column + 2) item ++ yamlItems column items

def yamlFields (column : Nat) : List (String × Document) -> String
  | [] => ""
  | (key, value) :: fields =>
    blanks column ++ key ++ ":" ++ yamlField column value ++ yamlFields column fields

/-- The value of a field of a record at the given column, after the colon. -/
def yamlField (column : Nat) : Document -> String
  | number value => " " ++ toString value ++ "\n"
  | text value => " " ++ yamlText (column + 2) value
  | list [] => " []\n"
  | list (item :: items) =>
    "\n" ++ blanks column ++ "- " ++ yamlAt (column + 2) item ++ yamlItems column items
  | record [] => " \x7b\x7d\n"
  | record ((key, value) :: fields) =>
    "\n" ++ blanks (column + 2) ++ key ++ ":" ++ yamlField (column + 2) value ++
      yamlFields (column + 2) fields

end

def yaml (document : Document) : String :=
  yamlAt 0 document

end Document
end Packrat
