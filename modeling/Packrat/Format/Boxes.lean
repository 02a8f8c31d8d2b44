import Packrat.Tree.Text

namespace Packrat

/-!
# Match trees drawn with lines

A drawing has a line for every token and for every rule.  Rules that each wrap a single rule over
the same tokens share one line, since the rules of values would otherwise make a dozen lines of
every name.
-/

/-- A match tree as it is drawn: tokens, and chains of rules over the same tokens.  A chain keeps
its innermost node. -/
inductive Drawing where
  | token (index : Nat)
  | chain (rules : List String) (node : Tree) (parts : List Drawing)
  deriving Inhabited

namespace Drawing

mutual

def ofTree : Tree -> Drawing
  | .leaf index => token index
  | .node rule start consumed children =>
    match ofTrees children with
    | [chain rules node parts] =>
      if node.consumed = consumed then chain (rule :: rules) node parts
      else chain [rule] (.node rule start consumed children) [chain rules node parts]
    | parts => chain [rule] (.node rule start consumed children) parts

def ofTrees : List Tree -> List Drawing
  | [] => []
  | tree :: trees => ofTree tree :: ofTrees trees

end

def truncate (limit : Nat) (text : String) : String :=
  if limit < text.length then String.ofList (text.toList.take limit) ++ "..." else text

def tokenLabel (tokens : Array Token) (index : Nat) : String :=
  match tokens[index]? with
  | some found => truncate 40 found.display
  | none => s!"<token {index}>"

/-- The label of a chain: its rules and the text of its tokens.  There is none when the tokens have
no text. -/
def chainLabel? (tokens : Array Token) (rules : List String) (node : Tree)
    (sum : Nat -> Nat -> Nat := (· + ·)) : Option String :=
  (Parse.text? tokens node sum).map fun text => " > ".intercalate rules ++ ": " ++ truncate 30 text

def branch (last : Bool) : String :=
  if last then "└─ " else "├─ "

mutual

/-- The lines of a drawing behind a margin; `last` tells whether it is the last at its level. -/
def lines? (tokens : Array Token) (margin : String) (last : Bool) (drawing : Drawing)
    (sum : Nat -> Nat -> Nat := (· + ·)) : Option (List String) :=
  match drawing with
  | token index => some [margin ++ branch last ++ tokenLabel tokens index]
  | chain rules node parts => do
    let label ← chainLabel? tokens rules node sum
    let rest ← linesOfParts? tokens (margin ++ if last then "  " else "│ ") parts sum
    return (margin ++ branch last ++ label) :: rest

def linesOfParts? (tokens : Array Token) (margin : String) (parts : List Drawing)
    (sum : Nat -> Nat -> Nat := (· + ·)) : Option (List String) :=
  match parts with
  | [] => some []
  | part :: parts => do
    let first ← lines? tokens margin parts.isEmpty part sum
    let rest ← linesOfParts? tokens margin parts sum
    return first ++ rest

end

/-- The lines of a whole drawing; the first has no margin and no mark. -/
def allLines? (parse : Parse) (sum : Nat -> Nat -> Nat := (· + ·)) : Option (List String) :=
  match ofTree parse.root with
  | token _ => (chainLabel? parse.tokens [] parse.root sum).map fun label => [label]
  | chain rules node parts => do
    let label ← chainLabel? parse.tokens rules node sum
    let rest ← linesOfParts? parse.tokens "" parts sum
    return label :: rest

/-- The drawing of a parse, if all its nodes lie within its tokens. -/
def ofParse? (parse : Parse) (sum : Nat -> Nat -> Nat := (· + ·)) : Option String :=
  (allLines? parse sum).map fun lines => "".intercalate (lines.map (· ++ "\n"))

/-- A list of tokens, each on a line with its position. -/
def ofTokens (tokens : List Token) : String :=
  "".intercalate (tokens.map fun token => s!"{token.position.display} {token.display}\n")

end Drawing
end Packrat
