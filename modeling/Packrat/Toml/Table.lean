import Packrat.Setting.Basic

namespace Packrat
namespace Toml

/-!
# Tables under construction

A document may name a table once.  Whether a table can still be entered by a header or by a dotted
key depends on how it came about, so every table remembers its origin until the document ends.
-/

/-- How a table came about: by its own header, on the way of a longer header, or by a dotted
key. -/
inductive Origin where
  | header
  | passage
  | dotted
  deriving DecidableEq

/-- What stands under a key of a document: a finished value, a table, or the tables of a list that
grows by headers. -/
inductive Node where
  | value (setting : Setting)
  | table (origin : Origin) (entries : List (String × Node))
  | elements (tables : List (List (String × Node)))

namespace Node

mutual

def setting : Node -> Setting
  | value setting => setting
  | table _ entries => .table (settings entries)
  | elements tables => .list (tableSettings tables)

def settings : List (String × Node) -> List (String × Setting)
  | [] => []
  | (key, node) :: rest => (key, node.setting) :: settings rest

def tableSettings : List (List (String × Node)) -> List Setting
  | [] => []
  | entries :: rest => .table (settings entries) :: tableSettings rest

end

end Node

abbrev Nodes := Entries Node

namespace Nodes

/-- Change the table at a path, which is made when it is missing.  Within a list the way leads to
its last table.  A dotted key may not enter a table that has a header of its own. -/
def within (dotted : Bool) (change : Origin -> Nodes -> Option Nodes) :
    List String -> Origin -> Nodes -> Option Nodes
  | [], origin, nodes => change origin nodes
  | key :: path, _, nodes =>
    match nodes.lookup key with
    | none => do
      let origin := if dotted then .dotted else .passage
      return nodes.put key (.table origin (← within dotted change path origin []))
    | some (.value _) => none
    | some (.table origin inner) =>
      if dotted && origin == .header then none
      else do
        return nodes.put key (.table origin (← within dotted change path origin inner))
    | some (.elements tables) => do
      let last ← within dotted change path .header (tables.getLastD [])
      return nodes.put key (.elements (tables.dropLast ++ [last]))

def add (key : String) (value : Setting) (nodes : Nodes) : Option Nodes :=
  if (nodes.lookup key).isSome then none else some (nodes.put key (.value value))

/-- Give a dotted key its value.  The table that it ends in has to be made by dotted keys. -/
def assign (path : List String) (value : Setting) (nodes : Nodes) : Option Nodes :=
  match path.dropLast with
  | [] => nodes.add (path.getLastD "") value
  | way =>
    within true (fun origin inner =>
      if origin == .dotted then add (path.getLastD "") value inner else none) way .header nodes

/-- Begin the table of a header.  A table that longer headers have passed becomes the last one. -/
def beginTable (path : List String) (nodes : Nodes) : Option Nodes :=
  let key := path.getLastD ""
  within false (fun _ inner =>
    match inner.lookup key with
    | none => some (inner.put key (.table .header []))
    | some (.table .passage entries) => some (inner.remove key ++ [(key, .table .header entries)])
    | some _ => none) path.dropLast .header nodes

/-- Begin one more table of the list of a header. -/
def beginElement (path : List String) (nodes : Nodes) : Option Nodes :=
  let key := path.getLastD ""
  within false (fun _ inner =>
    match inner.lookup key with
    | none => some (inner.put key (.elements [[]]))
    | some (.elements tables) => some (inner.put key (.elements (tables ++ [[]])))
    | some _ => none) path.dropLast .header nodes

/-- The table of some dotted keys with their values. -/
def ofPairs? (pairs : List (List String × Setting)) : Option Nodes :=
  pairs.foldlM (fun nodes (path, value) => nodes.assign path value) []

end Nodes
end Toml
end Packrat
