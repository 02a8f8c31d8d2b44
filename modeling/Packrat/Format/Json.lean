import Packrat.Format.Document

namespace Packrat
namespace Document

/-!
# Documents in JSON

Each element of a list or record stands on a line of its own, two columns further in than what
contains it.  Empty lists and records stay on one line, and there is no line break at the end.
-/

def jsonChar (c : Char) : List Char :=
  match c with
  | '"' => ['\\', '"']
  | '\\' => ['\\', '\\']
  | '\x08' => ['\\', 'b']
  | '\x0c' => ['\\', 'f']
  | '\n' => ['\\', 'n']
  | '\r' => ['\\', 'r']
  | '\t' => ['\\', 't']
  | c =>
    if c.toNat < 32 then
      ['\\', 'u', '0', '0', Nat.digitChar (c.toNat / 16), Nat.digitChar (c.toNat % 16)]
    else [c]

def jsonText (value : String) : String :=
  String.ofList ('"' :: value.toList.flatMap jsonChar ++ ['"'])

/-- Elements between an opening and a closing bracket that stands at the given column. -/
def enclosed (column : Nat) (opening closing : String) (elements : List String) : String :=
  match elements with
  | [] => opening ++ closing
  | elements =>
    opening ++ "\n" ++ blanks (column + 2) ++ (",\n" ++ blanks (column + 2)).intercalate elements ++
      "\n" ++ blanks column ++ closing

mutual

/-- A document in JSON, inside a text at the given column. -/
def jsonAt (column : Nat) : Document -> String
  | number value => toString value
  | text value => jsonText value
  | list items => enclosed column "[" "]" (jsonItems (column + 2) items)
  | record fields => enclosed column "\x7b" "\x7d" (jsonFields (column + 2) fields)

def jsonItems (column : Nat) : List Document -> List String
  | [] => []
  | item :: items => jsonAt column item :: jsonItems column items

def jsonFields (column : Nat) : List (String × Document) -> List String
  | [] => []
  | (key, value) :: fields =>
    (jsonText key ++ ": " ++ jsonAt column value) :: jsonFields column fields

end

def json (document : Document) : String :=
  jsonAt 0 document

end Document
end Packrat
