import Packrat.Setting.Basic

namespace Packrat

/-!
# Paths to settings

A path leads through tables by their keys and through lists by their indices, as in
`lexer.tab_size` or `names[0]`.  Setting a value at a path makes the tables and lists on its way.
Keys are put into lower case as they are set, so that their case does not matter.
-/

namespace Setting

/-- One step of a path: into a table, or into a list, from its end when the index is negative. -/
inductive Step where
  | key (name : String)
  | index (position : Int)
  deriving DecidableEq

def isKeyChar (c : Char) : Bool :=
  c.isAlphanum || c == ' ' || c == '_' || c == '-'

def isBlank (c : Char) : Bool :=
  c == ' ' || c == '\t'

def indexLimit : Nat :=
  Nat.pow 2 63

def index? (inside : List Char) : Option Int := do
  let trimmed := ((inside.dropWhile isBlank).reverse.dropWhile isBlank).reverse
  match trimmed with
  | '-' :: digits =>
    let distance ← wholeNumber? ('+' :: digits)
    if distance ≤ indexLimit then some (-(distance : Int)) else none
  | '+' :: _ => none
  | digits =>
    let position ← wholeNumber? digits
    if position < indexLimit then some (position : Int) else none

/-- The further steps of a path: keys after points, and indices in brackets. -/
def steps? (text : List Char) : Option (List Step) :=
  match text with
  | [] => some []
  | '.' :: rest =>
    let name := rest.takeWhile isKeyChar
    if name.isEmpty then none
    else (steps? (rest.dropWhile isKeyChar)).map (.key (String.ofList name) :: ·)
  | '[' :: rest => do
    let position ← index? (rest.takeWhile (· != ']'))
    let after := rest.dropWhile (· != ']')
    if after.isEmpty then none
    else (steps? after.tail).map (.index position :: ·)
  | _ => none
termination_by text.length
decreasing_by
  · have shorter := List.IsSuffix.length_le (List.dropWhile_suffix isKeyChar (l := rest))
    simp only [List.length_cons]
    omega
  · have shorter := List.IsSuffix.length_le (List.dropWhile_suffix (· != ']') (l := rest))
    simp only [List.length_cons, List.length_tail]
    omega

/-- The steps of a path; the first is a key. -/
def path? (text : String) : Option (List Step) :=
  steps? ('.' :: text.toList)

mutual

/-- Put a value under a key.  A table is merged into the table that is there; anything else takes
the place of what is there. -/
def merge (key : String) (root : Setting) : Setting -> Setting
  | .table incoming =>
    let target := (root.entries.lookup (lowered key)).getD (.table [])
    .table (root.entries.put (lowered key) (mergeAll target incoming))
  | value => .table (root.entries.put (lowered key) value)

def mergeAll (root : Setting) : List (String × Setting) -> Setting
  | [] => root
  | (key, value) :: rest => mergeAll (merge key root value) rest

end

/-- The number of items for which a list has room. -/
def listLimit : Nat :=
  Nat.pow 2 24

/-- The place of an index in a list; a negative one counts from the end.  There is no place before
the beginning of the list, nor where there is no room for the list. -/
def placeOf? (position : Int) (length : Nat) : Option Nat :=
  let place := if position < 0 then length + position else position
  if 0 ≤ place && place < listLimit then some place.toNat else none

/-- A list that reaches beyond a place. -/
def padded (filler : Setting) (place : Nat) (items : List Setting) : List Setting :=
  items ++ List.replicate (place + 1 - items.length) filler

/-- Set the value at a path, unless an index on it has no place in its list.  What stands in the
way of a table or a list is replaced by it. -/
def set (root : Setting) (path : List Step) (value : Setting) : Option Setting :=
  match path with
  | [] => some root
  | [.key name] => some (root.merge name value)
  | [.index position] => do
    let place ← placeOf? position root.items.length
    return .list ((padded .null place root.items).set place value)
  | .key name :: rest => do
    let target := (root.entries.lookup (lowered name)).getD .null
    return .table (root.entries.put (lowered name) (← target.set rest value))
  | .index position :: rest => do
    let place ← placeOf? position root.items.length
    let items := padded (.table []) place root.items
    return .list (items.set place (← (items.getD place .null).set rest value))

end Setting
end Packrat
