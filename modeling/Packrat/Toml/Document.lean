import Packrat.Toml.Value

namespace Packrat
namespace Toml

/-!
# TOML documents

A document is a sequence of statements, each on a line of its own: a header begins a table, and
any other statement gives a key of the current table its value.
-/

inductive Statement where
  | table (path : List String)
  | element (path : List String)
  | assign (path : List String) (value : Setting)

namespace Reader

def statement : Reader Statement := do
  if ← accept '[' then
    let isElement ← accept '['
    let path ← key
    expect ']'
    if isElement then
      expect ']'
      return .element path
    else return .table path
  else
    let (path, value) ← pair value
    return .assign path value

def lineEnd : Reader Unit := do
  match ← get with
  | [] => return ()
  | .lineEnd :: rest => set rest
  | _ => failure

def statementsUpTo : Nat -> Reader (List Statement)
  | 0 => failure
  | limit + 1 => do
    skipGaps
    if (← get).isEmpty then return []
    let first ← statement
    skipBlanks
    lineEnd
    return first :: (← statementsUpTo limit)

end Reader

/-- A document so far: its tables, and the path of the one that its statements fill. -/
structure Draft where
  path : List String := []
  nodes : Nodes := []

namespace Draft

/-- The document after one more statement, unless that contradicts an earlier one. -/
def extend (draft : Draft) : Statement -> Option Draft
  | .table path => (draft.nodes.beginTable path).map fun nodes => ⟨path, nodes⟩
  | .element path => (draft.nodes.beginElement path).map fun nodes => ⟨path, nodes⟩
  | .assign path value =>
    let assigned := Nodes.within false (fun _ inner => inner.assign path value) draft.path .header
      draft.nodes
    assigned.map fun nodes => { draft with nodes }

end Draft

/-- The table of a document, which may not stand for a date.  A byte order mark at the beginning of
the document is ignored. -/
def parse? (text : String) : Option (List (String × Setting)) := do
  let chars :=
    match text.toList with
    | '\ufeff' :: rest => rest
    | chars => chars
  let pieces ← pieces? chars
  let (statements, _) ← (Reader.statementsUpTo (pieces.length + 1)).run pieces
  let draft ← statements.foldlM Draft.extend {}
  match ← withDates? (.table (Node.settings draft.nodes)) with
  | .table entries => return entries
  | _ => none

end Toml
end Packrat
