import Packrat.Text.Blank
import Packrat.Token.Basic
import Packrat.Tree.Basic

namespace Packrat

/-!
# The text under a tree

A parse is a match tree together with the tokens that it indexes.  The text of a node is the text
of its tokens between single spaces, where tokens without a visible text are left out.
-/

/-- A match tree with its tokens.  Nothing ties them together: a tree may be one over other tokens,
and then it may have no text. -/
structure Parse where
  tokens : Array Token
  root : Tree
  deriving Inhabited

namespace Parse

/-- Whether a token shows in the text of a node. -/
def isVisible (token : Token) : Bool :=
  !token.kind.isSynthetic && !Text.isBlank token.text

/-- The text of a node.  There is none when the node begins after its own end or after the last
token. -/
def text? (tokens : Array Token) (node : Tree) (sum : Nat -> Nat -> Nat := (· + ·)) :
    Option String :=
  let stop := min (node.stop sum) tokens.size
  if node.start ≤ stop then
    let covered := (tokens.toList.drop node.start).take (stop - node.start)
    some (" ".intercalate ((covered.filter isVisible).map Token.text))
  else none

end Parse
end Packrat
