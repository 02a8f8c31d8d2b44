import Packrat.Tree.Text

namespace Packrat

/-!
# Documents

A document is the content of an output in a data format: numbers, texts, lists, and records whose
fields keep their order.
-/

/-- A value of a data format. -/
inductive Document where
  | number (value : Nat)
  | text (value : String)
  | list (items : List Document)
  | record (fields : List (String × Document))
  deriving Inhabited

namespace Document

def ofToken (token : Token) : Document :=
  record
    [ ("kind", text token.kind.label),
      ("text", text token.text),
      ("span", record [("start", number token.span.start), ("end", number token.span.stop)]),
      ("position",
        record
          [ ("offset", number token.position.offset),
            ("line", number token.position.line),
            ("column", number token.position.column) ]) ]

def ofTokens (tokens : List Token) : Document :=
  list (tokens.map ofToken)

mutual

/-- A match tree as a record; its type comes first. -/
def ofTree : Tree -> Document
  | .leaf index => record [("type", text "token"), ("index", number index)]
  | .node rule start consumed children =>
    record
      [ ("type", text "rule"),
        ("rule", text rule),
        ("start", number start),
        ("consumed", number consumed),
        ("children", list (ofTrees children)) ]

def ofTrees : List Tree -> List Document
  | [] => []
  | tree :: trees => ofTree tree :: ofTrees trees

end

def ofParse (parse : Parse) : Document :=
  record [("tokens", ofTokens parse.tokens.toList), ("root", ofTree parse.root)]

def blanks (column : Nat) : String :=
  String.ofList (List.replicate column ' ')

end Document
end Packrat
