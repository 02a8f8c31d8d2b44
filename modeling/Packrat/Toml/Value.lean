import Packrat.Toml.Piece
import Packrat.Toml.Scalar
import Packrat.Toml.Table

namespace Packrat
namespace Toml

/-!
# Keys and values

Keys and values are read off the front of the pieces of a document.  An array may spread over
several lines and end in a comma; an inline table may do neither.
-/

/-- What takes something off the front of some pieces, if it is there. -/
abbrev Reader := StateT (List Piece) Option

namespace Reader

def next : Reader Piece := do
  match ← get with
  | [] => failure
  | piece :: rest =>
    set rest
    return piece

def accept (c : Char) : Reader Bool := do
  match ← get with
  | .mark d :: rest =>
    if c == d then
      set rest
      return true
    else return false
  | _ => return false

def expect (c : Char) : Reader Unit := do
  if ← accept c then return () else failure

def skipBlanks : Reader Unit :=
  modify fun pieces => pieces.dropWhile fun piece =>
    match piece with
    | .blank _ => true
    | _ => false

/-- Pass over blanks and line ends. -/
def skipGaps : Reader Unit :=
  modify fun pieces => pieces.dropWhile fun piece =>
    match piece with
    | .blank _ | .lineEnd => true
    | _ => false

/-- How deep values may be nested, and how many parts a key may have. -/
def nestingLimit : Nat :=
  79

def isKeyChar (c : Char) : Bool :=
  c.isAlphanum || c == '-' || c == '_'

def keyPart : Reader String := do
  match ← next with
  | .bare word => if word.all isKeyChar then return String.ofList word else failure
  | .line text => return text
  | _ => failure

/-- A dotted key of a limited number of parts, with the blanks around them. -/
def keyUpTo : Nat -> Reader (List String)
  | 0 => failure
  | limit + 1 => do
    skipBlanks
    let part ← keyPart
    skipBlanks
    if ← accept '.' then return part :: (← keyUpTo limit) else return [part]

def key : Reader (List String) :=
  keyUpTo nestingLimit

/-- The bare words and points at the front of some pieces as one word, and the pieces after it. -/
def bareRun : List Piece -> List Char × List Piece
  | .bare word :: rest =>
    let (more, left) := bareRun rest
    (word ++ more, left)
  | .mark '.' :: rest =>
    let (more, left) := bareRun rest
    ('.' :: more, left)
  | rest => ([], rest)

/-- A date and a time may have a blank between them. -/
def dateRun (pieces : List Piece) : List Char × List Piece :=
  match bareRun pieces with
  | (word, .blank [' '] :: .bare later :: rest) =>
    if isDate word then
      let (more, left) := bareRun (.bare later :: rest)
      (word ++ ' ' :: more, left)
    else (word, .blank [' '] :: .bare later :: rest)
  | run => run

def scalar : Reader Setting := do
  match ← get with
  | .line text :: rest | .block text :: rest =>
    set rest
    return .text text
  | pieces =>
    let (word, rest) := dateRun pieces
    set rest
    bareValue? word

/-- The items of an array after its opening bracket, no more than a limit. -/
def itemsUpTo (item : Reader Setting) : Nat -> Reader (List Setting)
  | 0 => failure
  | limit + 1 => do
    skipGaps
    if ← accept ']' then return []
    let first ← item
    skipGaps
    if ← accept ',' then return first :: (← itemsUpTo item limit)
    expect ']'
    return [first]

def pair (item : Reader Setting) : Reader (List String × Setting) := do
  let key ← key
  expect '='
  skipBlanks
  return (key, ← item)

/-- The pairs of an inline table up to its closing brace, no more than a limit. -/
def pairsUpTo (item : Reader Setting) : Nat -> Reader (List (List String × Setting))
  | 0 => failure
  | limit + 1 => do
    let first ← pair item
    skipBlanks
    if ← accept ',' then return first :: (← pairsUpTo item limit)
    expect '\x7d'
    return [first]

def pairs (item : Reader Setting) : Reader (List (List String × Setting)) := do
  skipBlanks
  if ← accept '\x7d' then return []
  pairsUpTo item (← get).length

/-- A value that is nested no deeper than a limit. -/
def valueWithin : Nat -> Reader Setting
  | 0 => scalar
  | depth + 1 => do
    if ← accept '[' then
      return .list (← itemsUpTo (valueWithin depth) (← get).length)
    else if ← accept '\x7b' then
      let nodes ← (Nodes.ofPairs? (← pairs (valueWithin depth)) : Option Nodes)
      return .table (Node.settings nodes)
    else scalar

def value : Reader Setting :=
  valueWithin nestingLimit

end Reader
end Toml
end Packrat
