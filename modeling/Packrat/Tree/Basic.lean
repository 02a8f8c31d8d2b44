namespace Packrat

/-!
# Match trees

A match tree shows which rules matched which tokens.  Only rules make inner nodes; the parts of an
expression put their nodes side by side under the rule.  A leaf refers to a token by its index.

A node states where it begins and how many tokens it covers.  A tree is consistent when these
statements agree everywhere with the children.
-/

/-- A tree of matched rules over token indices.  Start and count of a node are stated and not
computed, so that a tree made by hand may state anything. -/
inductive Tree where
  | leaf (index : Nat)
  | node (rule : String) (start consumed : Nat) (children : List Tree)
  deriving Inhabited

namespace Tree

/-- The index of the first token. -/
def start : Tree -> Nat
  | leaf index => index
  | node _ start _ _ => start

/-- The number of tokens covered; a leaf covers one. -/
def consumed : Tree -> Nat
  | leaf _ => 1
  | node _ _ consumed _ => consumed

/-- The sum of two positions in a word of 64 bits.  A sum that is too large begins again at zero. -/
def wordSum (first second : Nat) : Nat :=
  (first + second) % UInt64.size

/-- The index after the last token.  How the two numbers are added is left open, because places in a
tree that was not matched may not fit the words of a machine. -/
def stop (tree : Tree) (sum : Nat -> Nat -> Nat := (· + ·)) : Nat :=
  sum tree.start tree.consumed

def ruleName? : Tree -> Option String
  | leaf _ => none
  | node rule _ _ _ => some rule

def children : Tree -> List Tree
  | leaf _ => []
  | node _ _ _ children => children

/-- The number of tokens that some trees cover together. -/
def consumedByAll (trees : List Tree) (sum : Nat -> Nat -> Nat := (· + ·)) : Nat :=
  match trees with
  | [] => 0
  | tree :: trees => sum tree.consumed (consumedByAll trees sum)

/-- The node of a rule that covers the tokens of its children. -/
def ofRule (rule : String) (start : Nat) (children : List Tree)
    (sum : Nat -> Nat -> Nat := (· + ·)) : Tree :=
  node rule start (consumedByAll children sum) children

mutual

/-- Every node from the root on, parents before children and children in order, with its depth. -/
def outline (depth : Nat) : Tree -> List (Nat × Tree)
  | leaf index => [(depth, leaf index)]
  | node rule start consumed children =>
    (depth, node rule start consumed children) :: outlineAll (depth + 1) children

def outlineAll (depth : Nat) : List Tree -> List (Nat × Tree)
  | [] => []
  | tree :: trees => outline depth tree ++ outlineAll depth trees

end

/-- Every node from the root on, parents before children. -/
def nodes (tree : Tree) : List Tree :=
  (tree.outline 0).map Prod.snd

/-- The nodes of a rule, in the order of the outline. -/
def findAll (tree : Tree) (rule : String) : List Tree :=
  tree.nodes.filter fun node => node.ruleName? == some rule

/-- The first node of a rule. -/
def find? (tree : Tree) (rule : String) : Option Tree :=
  (tree.findAll rule).head?

mutual

/-- The token indices of the leaves from left to right. -/
def leaves : Tree -> List Nat
  | leaf index => [index]
  | node _ _ _ children => leavesOfAll children

def leavesOfAll : List Tree -> List Nat
  | [] => []
  | tree :: trees => leaves tree ++ leavesOfAll trees

end

mutual

/-- Whether the children of every node follow each other from its start and add up to its
count. -/
def isConsistent (tree : Tree) (sum : Nat -> Nat -> Nat := (· + ·)) : Bool :=
  match tree with
  | leaf _ => true
  | node _ start consumed children => runsFrom start children sum == some (sum start consumed)

/-- Where consistent trees end that follow each other from a place, if they do.  Each of them has to
begin where the one before it ends. -/
def runsFrom (place : Nat) (trees : List Tree) (sum : Nat -> Nat -> Nat := (· + ·)) :
    Option Nat :=
  match trees with
  | [] => some place
  | tree :: trees =>
    if tree.start == place && isConsistent tree sum then
      runsFrom (sum place tree.consumed) trees sum
    else none

end

end Tree
end Packrat
